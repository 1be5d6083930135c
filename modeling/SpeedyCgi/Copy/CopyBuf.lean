import SpeedyCgi.Copy.Circ
import SpeedyCgi.Lib.Lts

/-!
A copy buffer, and the stream of bytes that goes through it.

What `readv` and `writev` do is given to each step, as is what the memory holds that `realloc` adds.
`Stream` keeps with a buffer the bytes that were read into it and those that left it; the steps are
guarded as in `doit`, which also reads into the output buffer before its first byte whatever has
become of the descriptor it writes to.
-/

namespace SpeedyCgi.Copy

open Lib.Ring Lib.Lts

structure CopyBuf where
  circ : CircBuf
  maxsz : ℕ
  eof : Bool
  rdfd : ℕ
  wrfd : ℕ
  writeErr : ℕ
deriving DecidableEq

/-- What a `readv` did: delivered bytes, not been ready, met the end of the input or failed. -/
inductive ReadRes
  | data (w : Bytes)
  | notReady
  | end
  | error
deriving DecidableEq

/-- What a `writev` did: taken bytes, not been ready, or failed. -/
inductive WriteRes
  | took (n : ℕ)
  | notReady
  | error (errno : ℕ)
deriving DecidableEq

def minRead : ℕ := 1024
def ebadf : ℕ := 9
def eio : ℕ := 5

def speedyCbInit (maxsz rdfd wrfd : ℕ) (contents : Option Contents) : CopyBuf :=
  ⟨speedyCircInit contents, maxsz, false, rdfd, wrfd, 0⟩

def speedyCbSeteof (cb : CopyBuf) : CopyBuf := { cb with eof := true }
def speedyCbSetWriteErr (cb : CopyBuf) (e : ℕ) : CopyBuf := { cb with writeErr := e }

def speedyCbDataLen (cb : CopyBuf) : ℕ := cb.circ.dataLen
def speedyCbFreeLen (cb : CopyBuf) : Int := cb.maxsz - speedyCbDataLen cb

def speedyCbCanread (cb : CopyBuf) : Bool :=
  speedyCbFreeLen cb ≠ 0 && !cb.eof && cb.writeErr = 0

def speedyCbCanwrite (cb : CopyBuf) : Bool := speedyCbDataLen cb ≠ 0 && cb.writeErr = 0

def speedyCbCopydone (cb : CopyBuf) : Bool :=
  (cb.eof && speedyCbDataLen cb = 0) || cb.writeErr ≠ 0

def speedyCbFree (cb : CopyBuf) : Option CopyBuf :=
  if cb.circ.buf = [] then some cb
  else (speedyCircRealloc cb.circ [] 0).map fun circ => { cb with circ }

/-- The first half of `speedy_cb_read`: there is to be room for `minRead` bytes. -/
def enlarge (junk : ℕ → UInt8) (cb : CopyBuf) : Option CopyBuf :=
  let shortfall := (minRead : Int) - speedyCircFreeLen cb.circ
  if shortfall > 0 ∧ cb.circ.bufLen < cb.maxsz then
    let newBufLen := cb.circ.bufLen + max shortfall.toNat cb.circ.bufLen
    let newBufLen := if newBufLen > cb.maxsz then cb.maxsz else newBufLen
    (speedyCircRealloc cb.circ (speedyRenew junk cb.circ.buf newBufLen) newBufLen).map
      fun circ => { cb with circ }
  else some cb

/-- The space that is offered to `readv`. -/
def readSpace (cb : CopyBuf) : ℕ := segsLen (speedyCircFreeSegs cb.circ)

def speedyCbRead (junk : ℕ → UInt8) (r : ReadRes) (cb : CopyBuf) : Option CopyBuf :=
  if speedyCbFreeLen cb ≠ 0 then do
    let cb ← enlarge junk cb
    match r with
    | .notReady => pure cb
    | .end | .error =>
      let cb := speedyCbSeteof cb
      if speedyCbDataLen cb = 0 then speedyCbFree cb else pure cb
    | .data w => do
      let buf ← fillSegs cb.circ.buf (speedyCircFreeSegs cb.circ) w
      pure { cb with circ := speedyCircAdjLen { cb.circ with buf } w.length }
  else pure cb

/-- The return value of `writev`, and the buffer with its write error. -/
def writeResult (r : WriteRes) (cb : CopyBuf) : Int × CopyBuf :=
  match r with
  | .took n => (n, cb)
  | .notReady => (-1, cb)
  | .error errno => (-1, speedyCbSetWriteErr cb (if errno ≠ 0 then errno else eio))

/-- The second half of `speedy_cb_write`: `n` bytes are written. -/
def written (n : Int) (cb : CopyBuf) : Option CopyBuf :=
  if n > 0 then
    let cb := { cb with circ := speedyCircAdjLen cb.circ (-n) }
    if cb.eof && speedyCbDataLen cb = 0 then speedyCbFree cb else some cb
  else some cb

def speedyCbWrite (r : WriteRes) (cb : CopyBuf) : Option CopyBuf :=
  let (n, cb) := if cb.writeErr = 0 then writeResult r cb else (0, cb)
  written (if cb.writeErr ≠ 0 then speedyCbDataLen cb else n) cb

/-- The first byte of the data, as a `char` made an `int`, or -1. -/
def speedyCbShift (cb : CopyBuf) : Int × CopyBuf :=
  if speedyCbDataLen cb ≠ 0 then
    ((gatherSegs cb.circ.buf (speedyCircDataSegs cb.circ)).headD 0 |>.toInt8.toInt,
      { cb with circ := speedyCircAdjLen cb.circ (-1) })
  else (-1, cb)

/-! ### The stream -/

structure Stream where
  cb : CopyBuf
  input : Bytes
  output : Bytes

inductive Act
  | read (junk : ℕ → UInt8) (r : ReadRes)
  | write (r : WriteRes)
  | shift

def ReadRes.bytes : ReadRes → Bytes
  | .data w => w
  | _ => []

/-- The results that `speedy_cb_read` takes for the end of the input. -/
def ReadRes.ends : ReadRes → Bool
  | .end | .error => true
  | _ => false

def WriteRes.count : WriteRes → ℕ
  | .took n => n
  | _ => 0

def step (s : Stream) : Act → Option Stream
  | .read junk r => (speedyCbRead junk r s.cb).map fun cb =>
      ⟨cb, s.input ++ if speedyCbFreeLen s.cb ≠ 0 then r.bytes else [], s.output⟩
  | .write r => (speedyCbWrite r s.cb).map fun cb =>
      ⟨cb, s.input,
        s.output ++ (gatherSegs s.cb.circ.buf (speedyCircDataSegs s.cb.circ)).take r.count⟩
  | .shift => some ⟨(speedyCbShift s.cb).2, s.input,
      s.output ++ (gatherSegs s.cb.circ.buf (speedyCircDataSegs s.cb.circ)).take 1⟩

/-- A `readv` delivers at least one byte, and no more than there is space for. -/
def ReadRes.Fits (junk : ℕ → UInt8) (cb : CopyBuf) (r : ReadRes) : Prop :=
  ∀ w, r = .data w → w ≠ [] ∧ ∀ e, enlarge junk cb = some e → w.length ≤ readSpace e

/-- A `writev` takes no more than it is offered. -/
def WriteRes.Fits (cb : CopyBuf) (r : WriteRes) : Prop := ∀ n, r = .took n → n ≤ speedyCbDataLen cb

/-- The steps that `doit` takes. -/
def Guarded (s : Stream) : Act → Prop
  | .read junk r => s.cb.eof = false ∧ r.Fits junk s.cb
  | .write r => speedyCbCanwrite s.cb ∧ r.Fits s.cb
  | .shift => True

def start (maxsz rdfd wrfd : ℕ) (contents : Option Contents) : Stream :=
  ⟨speedyCbInit maxsz rdfd wrfd contents, [], []⟩

/-! ### What each operation does -/

structure CopyBuf.Wf (cb : CopyBuf) : Prop where
  circ : cb.circ.Wf
  max : cb.circ.bufLen ≤ cb.maxsz

lemma freeLen_ne_zero {cb : CopyBuf} (h : cb.Wf) :
    speedyCbFreeLen cb ≠ 0 ↔ cb.circ.dataLen < cb.maxsz := by
  have := h.circ.data
  have := h.max
  simp only [speedyCbFreeLen, speedyCbDataLen]
  omega

/-- A buffer that is not full is made to have room, and its data stays. -/
lemma enlarge_spec {cb : CopyBuf} (h : cb.Wf) (hfree : speedyCbFreeLen cb ≠ 0)
    (junk : ℕ → UInt8) : ∃ circ, enlarge junk cb = some { cb with circ } ∧
      CopyBuf.Wf { cb with circ } ∧ circ.data = cb.circ.data ∧ circ.dataLen = cb.circ.dataLen ∧
      cb.circ.bufLen ≤ circ.bufLen ∧ circ.dataLen < circ.bufLen := by
  have hlt := (freeLen_ne_zero h).mp hfree
  unfold enlarge
  dsimp only
  split
  next hc =>
    have hn : cb.circ.bufLen < if cb.circ.bufLen + max ((minRead : Int) -
        speedyCircFreeLen cb.circ).toNat cb.circ.bufLen > cb.maxsz then cb.maxsz else
          cb.circ.bufLen + max ((minRead : Int) - speedyCircFreeLen cb.circ).toNat
            cb.circ.bufLen := by split <;> omega
    obtain ⟨circ, hcirc, hwf, hlen, hdlen, hdata⟩ := speedyCircRealloc_data h.circ hn junk
    refine ⟨circ, by rw [hcirc]; rfl, ⟨hwf, ?_⟩, hdata, hdlen, by omega, ?_⟩
    · simp only [hlen]
      split <;> omega
    · have := h.circ.data
      omega
  next hc =>
    refine ⟨cb.circ, rfl, h, rfl, rfl, Nat.le_refl _, ?_⟩
    simp only [minRead, speedyCircFreeLen] at hc
    omega

lemma free_spec {cb : CopyBuf} (h : cb.Wf) (h0 : cb.circ.dataLen = 0) :
    ∃ circ, speedyCbFree cb = some { cb with circ } ∧ CopyBuf.Wf { cb with circ } ∧
      circ.dataLen = 0 := by
  unfold speedyCbFree
  split
  next => exact ⟨cb.circ, rfl, h, h0⟩
  next =>
    have hsegs : speedyCircDataSegs { cb.circ with buf := [] } = [] := by
      simp [speedyCircDataSegs, getSegs, h0]
    simp only [speedyCircRealloc, hsegs]
    have hbeg := h.circ.empty h0
    exact ⟨_, rfl, ⟨⟨rfl, .inr hbeg, by simp [h0], fun _ => hbeg⟩, Nat.zero_le _⟩, h0⟩

@[simp] lemma length_data (c : CircBuf) : c.data.length = c.dataLen := length_window ..

lemma data_eq_nil {c : CircBuf} (h0 : c.dataLen = 0) : c.data = [] := by
  rw [CircBuf.data, h0]
  rfl

/-- What a step leaves as it was, and when the block is given back. -/
structure CopyBuf.Keeps (cb cb' : CopyBuf) : Prop where
  wf : cb'.Wf
  maxsz : cb'.maxsz = cb.maxsz
  fds : cb'.rdfd = cb.rdfd ∧ cb'.wrfd = cb.wrfd
  freed : cb.circ.bufLen ≠ 0 → cb'.circ.bufLen = 0 → cb'.eof ∧ speedyCbDataLen cb' = 0

/-- A buffer that keeps its block. -/
lemma CopyBuf.Keeps.of_le {cb : CopyBuf} {circ : CircBuf} {eof : Bool} {writeErr : ℕ}
    (hwf : CopyBuf.Wf { cb with circ }) (hle : cb.circ.bufLen ≤ circ.bufLen) :
    cb.Keeps { cb with circ, eof, writeErr } :=
  ⟨⟨hwf.circ, hwf.max⟩, rfl, ⟨rfl, rfl⟩, fun h h0 => absurd h0 (by simp only; omega)⟩

lemma speedyCbRead_spec {cb : CopyBuf} (h : cb.Wf) {junk : ℕ → UInt8} {r : ReadRes}
    (hr : r.Fits junk cb) :
    ∃ cb', speedyCbRead junk r cb = some cb' ∧ cb.Keeps cb' ∧ cb'.writeErr = cb.writeErr ∧
      cb'.eof = (cb.eof || speedyCbFreeLen cb ≠ 0 && r.ends) ∧
      cb'.circ.data = cb.circ.data ++ if speedyCbFreeLen cb ≠ 0 then r.bytes else [] := by
  unfold speedyCbRead
  by_cases hfree : speedyCbFreeLen cb ≠ 0
  swap
  · rw [if_neg hfree, if_neg hfree]
    exact ⟨cb, rfl, .of_le h (Nat.le_refl _), rfl, by simp [hfree], by simp⟩
  rw [if_pos hfree, if_pos hfree]
  obtain ⟨circ, he, hwf, hdata, hlen, hle, hlt⟩ := enlarge_spec h hfree junk
  rw [he]
  -- at the end of the input an empty buffer gives its block back
  have hend : ∃ cb', (if speedyCbDataLen (speedyCbSeteof { cb with circ }) = 0 then
      speedyCbFree (speedyCbSeteof { cb with circ }) else pure (speedyCbSeteof { cb with circ })) =
        some cb' ∧ cb.Keeps cb' ∧ cb'.writeErr = cb.writeErr ∧ cb'.eof = true ∧
        cb'.circ.data = cb.circ.data := by
    split
    next h0 =>
      obtain ⟨circ', hf, hwf', h0'⟩ :=
        @free_spec (speedyCbSeteof { cb with circ }) ⟨hwf.circ, hwf.max⟩ h0
      exact ⟨_, hf, ⟨hwf', rfl, ⟨rfl, rfl⟩, fun _ _ => ⟨rfl, h0'⟩⟩, rfl, rfl, by
        rw [@data_eq_nil circ' h0', ← hdata, @data_eq_nil circ h0]⟩
    next => exact ⟨_, rfl, .of_le hwf hle, rfl, rfl, hdata⟩
  cases r with
  | notReady => exact ⟨_, rfl, .of_le hwf hle, rfl, by simp [ReadRes.ends], by
      simp [hdata, ReadRes.bytes]⟩
  | «end» => simpa [ReadRes.bytes, ReadRes.ends, hfree] using hend
  | error => simpa [ReadRes.bytes, ReadRes.ends, hfree] using hend
  | data w =>
    have hw : w.length ≤ speedyCircFreeLen circ := by
      have hw := (hr w rfl).2 _ he
      rwa [readSpace, speedyCircFreeSegs, if_neg (by simp only; omega), segsLen_getSegs] at hw
    obtain ⟨buf, hfill, hblen, hwin⟩ := fillSegs_free hwf.circ.bounds hw
    simp only [Option.bind_eq_bind, Option.bind_some, hfill, adjLen_add]
    unfold speedyCircFreeLen at hw
    refine ⟨_, rfl, .of_le ⟨⟨hblen, hwf.circ.beg, ?_, ?_⟩, hwf.max⟩ hle, rfl,
      by simp [ReadRes.ends], ?_⟩
    · simp only
      omega
    · exact fun h0 => hwf.circ.empty (by simp only at h0 ⊢; omega)
    · rw [← hdata]
      exact hwin

lemma written_spec {cb : CopyBuf} (h : cb.Wf) {n : ℕ} (hle : n ≤ speedyCbDataLen cb) :
    ∃ cb', written n cb = some cb' ∧ cb.Keeps cb' ∧ cb'.writeErr = cb.writeErr ∧
      cb'.eof = cb.eof ∧ cb'.circ.data = cb.circ.data.drop n := by
  rcases Nat.eq_zero_or_pos n with rfl | hn
  · exact ⟨cb, rfl, .of_le h (Nat.le_refl _), rfl, rfl, rfl⟩
  obtain ⟨hwf, hdata⟩ := adjLen_sub_data h.circ.bounds hn hle
  have hblen : (speedyCircAdjLen cb.circ (-n)).bufLen = cb.circ.bufLen := by
    rw [adjLen_sub _ hn]
  have hwf' : CopyBuf.Wf { cb with circ := speedyCircAdjLen cb.circ (-n) } :=
    ⟨hwf, by rw [hblen]; exact h.max⟩
  rw [written, if_pos (by omega)]
  dsimp only
  split
  next hc =>
    rw [Bool.and_eq_true, decide_eq_true_eq] at hc
    obtain ⟨circ', hf, hwf'', h0'⟩ := free_spec hwf' hc.2
    exact ⟨_, hf, ⟨hwf'', rfl, ⟨rfl, rfl⟩, fun _ _ => ⟨hc.1, h0'⟩⟩, rfl, rfl, by
      rw [@data_eq_nil circ' h0', ← hdata, data_eq_nil hc.2]⟩
  next => exact ⟨_, rfl, .of_le hwf' (Nat.le_of_eq hblen.symm), rfl, rfl, hdata⟩

lemma speedyCbWrite_spec {cb : CopyBuf} (h : cb.Wf) (herr : cb.writeErr = 0) {r : WriteRes}
    (hr : r.Fits cb) :
    ∃ cb', speedyCbWrite r cb = some cb' ∧ cb.Keeps cb' ∧ cb'.eof = cb.eof ∧
      ((∃ errno, r = .error errno) ∧ cb'.writeErr ≠ 0 ∨
        cb'.writeErr = 0 ∧ cb'.circ.data = cb.circ.data.drop r.count) := by
  cases r with
  | notReady =>
    have hw : speedyCbWrite .notReady cb = written (-1) cb := by
      simp [speedyCbWrite, writeResult, herr]
    exact ⟨cb, hw, .of_le h (Nat.le_refl _), rfl, .inr ⟨herr, rfl⟩⟩
  | took n =>
    have hw : speedyCbWrite (.took n) cb = written n cb := by
      simp [speedyCbWrite, writeResult, herr]
    obtain ⟨cb', hcb', hkeeps, hsame, heof, hdata⟩ := written_spec h (hr n rfl)
    exact ⟨cb', hw.trans hcb', hkeeps, heof, .inr ⟨hsame.trans herr, hdata⟩⟩
  | error errno =>
    -- the data counts as written
    have he : (if errno ≠ 0 then errno else eio) ≠ 0 := by
      split
      · assumption
      · decide
    generalize he' : (if errno ≠ 0 then errno else eio) = e at he
    have hw : speedyCbWrite (.error errno) cb =
        written (speedyCbDataLen cb) (speedyCbSetWriteErr cb e) := by
      simp only [speedyCbWrite, if_pos herr, writeResult, he']
      exact congrArg (written · _) (if_pos he)
    obtain ⟨cb', hcb', hkeeps, hsame, heof, -⟩ :=
      @written_spec (speedyCbSetWriteErr cb e) ⟨h.circ, h.max⟩ _ (Nat.le_refl _)
    exact ⟨cb', hw.trans hcb', ⟨hkeeps.wf, hkeeps.maxsz, hkeeps.fds, hkeeps.freed⟩, heof,
      .inl ⟨⟨errno, rfl⟩, fun h0 => he (hsame.symm.trans h0)⟩⟩

/-- After a write error the data is thrown away. -/
lemma speedyCbWrite_of_err {cb : CopyBuf} (h : cb.Wf) (herr : cb.writeErr ≠ 0) (r : WriteRes) :
    ∃ cb', speedyCbWrite r cb = some cb' ∧ cb.Keeps cb' ∧ cb'.eof = cb.eof ∧
      cb'.writeErr = cb.writeErr := by
  have hw : speedyCbWrite r cb = written (speedyCbDataLen cb) cb := by
    simp only [speedyCbWrite, if_neg herr]
    exact congrArg (written · _) (if_pos herr)
  obtain ⟨cb', hcb', hkeeps, hsame, heof, -⟩ := written_spec h (Nat.le_refl _)
  exact ⟨cb', hw.trans hcb', hkeeps, heof, hsame⟩

lemma speedyCbShift_spec {cb : CopyBuf} (h : cb.Wf) :
    cb.Keeps (speedyCbShift cb).2 ∧ (speedyCbShift cb).2.writeErr = cb.writeErr ∧
      (speedyCbShift cb).2.circ.data = cb.circ.data.drop 1 := by
  unfold speedyCbShift
  split
  next hlen =>
    obtain ⟨hwf, hdata⟩ := adjLen_sub_data h.circ.bounds Nat.one_pos (Nat.pos_of_ne_zero hlen)
    have hblen : (speedyCircAdjLen cb.circ (-1)).bufLen = cb.circ.bufLen := by
      rw [show (-1 : Int) = -((1 : ℕ) : Int) from rfl, adjLen_sub _ (by omega)]
    exact ⟨.of_le ⟨hwf, by simp only; rw [hblen]; exact h.max⟩ (by omega), rfl, hdata⟩
  next hlen =>
    have h0 : cb.circ.dataLen = 0 := Decidable.not_not.mp hlen
    exact ⟨.of_le h (Nat.le_refl _), rfl, by rw [data_eq_nil h0]; rfl⟩

/-! ### The integrity of the stream -/

/-- What is written out and what is in the buffer are what was there first and what was read. -/
structure Stream.Flows (maxsz : ℕ) (first : Bytes) (s : Stream) : Prop where
  wf : s.cb.Wf
  maxsz_eq : s.cb.maxsz = maxsz
  order : s.cb.writeErr = 0 → s.output ++ s.cb.circ.data = first ++ s.input

lemma start_flows {maxsz rdfd wrfd : ℕ} {contents : Option Contents}
    (hsz : (contents.map (·.alloced)).getD 0 ≤ maxsz) :
    (start maxsz rdfd wrfd contents).Flows maxsz ((contents.map (·.bytes)).getD []) := by
  refine ⟨⟨circInit_wf contents, ?_⟩, rfl, fun _ => ?_⟩
  · cases contents <;> exact hsz
  · exact (data_circInit contents).trans (List.append_nil _).symm

/-- One step of the stream. -/
lemma step_flows {maxsz : ℕ} {first : Bytes} {s : Stream} (h : s.Flows maxsz first) {a : Act}
    (ha : Guarded s a) : ∃ s', step s a = some s' ∧ s'.Flows maxsz first ∧ s.cb.Keeps s'.cb := by
  obtain ⟨hwf, hmax, horder⟩ := h
  have hmove (n : ℕ) (h0 : s.cb.writeErr = 0) :
      s.output ++ s.cb.circ.data.take n ++ s.cb.circ.data.drop n = first ++ s.input := by
    rw [List.append_assoc, List.take_append_drop, horder h0]
  cases a with
  | read junk r =>
    obtain ⟨cb', hcb', hkeeps, herr, -, hdata⟩ := speedyCbRead_spec hwf ha.2
    refine ⟨_, Option.map_eq_some_iff.mpr ⟨cb', hcb', rfl⟩,
      ⟨hkeeps.wf, hkeeps.maxsz.trans hmax, fun h0 => ?_⟩, hkeeps⟩
    rw [hdata, ← List.append_assoc, horder (herr ▸ h0), List.append_assoc]
  | write r =>
    have hcan := ha.1
    simp only [speedyCbCanwrite, Bool.and_eq_true, decide_eq_true_eq] at hcan
    obtain ⟨cb', hcb', hkeeps, -, hres⟩ := speedyCbWrite_spec hwf hcan.2 ha.2
    refine ⟨_, Option.map_eq_some_iff.mpr ⟨cb', hcb', rfl⟩,
      ⟨hkeeps.wf, hkeeps.maxsz.trans hmax, fun h0 => ?_⟩, hkeeps⟩
    obtain ⟨-, hdata⟩ := hres.resolve_left fun h => h.2 h0
    rw [hdata, gatherSegs_data hwf.circ.bounds, hmove _ hcan.2]
  | shift =>
    obtain ⟨hkeeps, herr, hdata⟩ := speedyCbShift_spec hwf
    refine ⟨_, rfl, ⟨hkeeps.wf, hkeeps.maxsz.trans hmax, fun h0 => ?_⟩, hkeeps⟩
    rw [hdata, gatherSegs_data hwf.circ.bounds, hmove _ (herr ▸ h0)]

lemma reach_flows {maxsz rdfd wrfd : ℕ} {contents : Option Contents}
    (hsz : (contents.map (·.alloced)).getD 0 ≤ maxsz) {s : Stream}
    (h : ReachOk step (start maxsz rdfd wrfd contents) Guarded s) :
    s.Flows maxsz ((contents.map (·.bytes)).getD []) := by
  refine h.inv (start_flows hsz) fun s a s' _ hs ha hstep => ?_
  obtain ⟨t, ht, hflows, -⟩ := step_flows hs ha
  exact Option.some.inj (ht.symm.trans hstep) ▸ hflows

/-- Nothing is lost, doubled or put in another order, whatever the calls deliver and take; `readv`
always has space to fill; and the block is given back only when nothing more can come. -/
theorem stream_integrity {maxsz rdfd wrfd : ℕ} {contents : Option Contents}
    (hsz : (contents.map (·.alloced)).getD 0 ≤ maxsz) {s : Stream}
    (h : ReachOk step (start maxsz rdfd wrfd contents) Guarded s) :
    (s.cb.writeErr = 0 →
      s.output ++ s.cb.circ.data = (contents.map (·.bytes)).getD [] ++ s.input) ∧
    speedyCbDataLen s.cb ≤ s.cb.circ.bufLen ∧ s.cb.circ.bufLen ≤ maxsz ∧
    (speedyCbFreeLen s.cb ≠ 0 → ∀ junk, ∃ cb, enlarge junk s.cb = some cb ∧ 0 < readSpace cb) ∧
    ∀ a, Guarded s a → ∃ s', step s a = some s' ∧
      (s.cb.circ.bufLen ≠ 0 → s'.cb.circ.bufLen = 0 → s'.cb.eof ∧ speedyCbDataLen s'.cb = 0) := by
  have hs := reach_flows hsz h
  refine ⟨hs.order, hs.wf.circ.data, hs.maxsz_eq ▸ hs.wf.max, fun hfree junk => ?_,
    fun a ha => ?_⟩
  · obtain ⟨circ, he, -, -, -, -, hlt⟩ := enlarge_spec hs.wf hfree junk
    refine ⟨_, he, ?_⟩
    rw [readSpace, speedyCircFreeSegs, if_neg (by simp only; omega), segsLen_getSegs]
    simp only
    omega
  · obtain ⟨s', hs', -, hkeeps⟩ := step_flows hs ha
    exact ⟨s', hs', hkeeps.freed⟩

/-- The data comes to wrap, and the block grows up to its limit then. -/
theorem stream_integrity_wrapping :
    let s : Stream := ⟨⟨⟨[30, 2, 3, 20], 4, 1, 4⟩, 4, false, 0, 5, 0⟩, [20, 30], [1]⟩
    s.output ++ s.cb.circ.data = [1, 2, 3] ++ s.input :=
  (@stream_integrity 4 0 5 (some ⟨[1, 2, 3], []⟩) (by decide) _
    (.step (a := .read (fun _ => 0) (.data [20, 30]))
      (.step (a := .write (.took 1)) .init ⟨rfl, by rintro n ⟨⟩; decide⟩ rfl)
      ⟨rfl, by rintro w ⟨⟩; exact ⟨by decide, by rintro cb ⟨⟩; decide⟩⟩ rfl)).1 rfl

end SpeedyCgi.Copy
