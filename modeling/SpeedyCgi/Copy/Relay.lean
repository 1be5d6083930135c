import SpeedyCgi.Copy.Channel

/-!
The copy loop between the descriptors that it reads and those that it writes.

A source is what the user types, or what the backend and its children write to a socket. `read` and
`write` are asked of the sources and of what has gone out so far; `mark` remembers how much the
sources had been given when the exit status of the backend was collected.
-/

namespace SpeedyCgi.Copy

open Function Lib.Lts

/-- What has been put into a descriptor that is read, how much of that has been read, and whether
nothing more can come. -/
structure Source where
  fed : Bytes := []
  taken : ℕ := 0
  closed : Bool := false

structure Relay where
  doit : Doit
  src : Fin 3 → Source
  /-- what was written to the backend's stdin, to stdout and to stderr -/
  out : Fin 3 → Bytes
  mark : Fin 3 → ℕ

inductive Move
  /-- somebody writes to the other end of a source -/
  | feed (i : Fin 3) (w : Bytes)
  /-- nobody has the other end of a source open any more -/
  | hangup (i : Fin 3)
  | act (e : Event)

namespace Relay

variable (r : Relay)

def takes (i : Fin 3) (n : ℕ) : Relay :=
  { r with src := update r.src i { r.src i with taken := (r.src i).taken + n } }

def puts (i : Fin 3) (w : Bytes) : Relay := { r with out := update r.out i (r.out i ++ w) }

/-- What a `writev` takes, if there is one. -/
def sent (b : CopyBuf) (res : WriteRes) : Bytes :=
  if b.writeErr = 0 then (gatherSegs b.circ.buf (speedyCircDataSegs b.circ)).take res.count else []

/-- What an event of `doit` does to the descriptors. -/
def transfer (e : Event) : Relay :=
  match e, r.doit.pc.buf with
  | .read _ res, some i =>
    r.takes i (if speedyCbFreeLen (r.doit.cb i) ≠ 0 then res.bytes.length else 0)
  | .write res, some i => r.puts i (sent (r.doit.cb i) res)
  | _, _ => r

/-- `doit` goes on as `s`. -/
def goesOn (s : Doit) : Relay :=
  { r with
    doit := s
    mark := if !r.doit.backendExited && s.backendExited then fun i => (r.src i).fed.length
      else r.mark }

def step (r : Relay) : Move → Option Relay
  | .feed i w =>
    if (r.src i).closed then none
    else some { r with src := update r.src i { r.src i with fed := (r.src i).fed ++ w } }
  | .hangup i => some { r with src := update r.src i { r.src i with closed := true } }
  | .act e => (doitStep r.doit e).map (r.transfer e).goesOn

/-- A `readv` delivers what comes next, is not ready only if nothing is there, and meets the end only
if nothing is to come. -/
def Delivers (s : Source) : ReadRes → Prop
  | .data w => w <+: s.fed.drop s.taken
  | .notReady => s.taken = s.fed.length
  | .end => s.closed = true ∧ s.taken = s.fed.length
  | .error => False

/-- What is assumed of the system: no `readv` and no `poll` fails. -/
def Fair (r : Relay) : Move → Prop
  | .act (.read junk res) => Possible r.doit (.read junk res) ∧
      ∀ i, r.doit.pc.buf = some i → Delivers (r.src i) res
  | .act (.poll failed) => failed = false
  | .act e => Possible r.doit e
  | _ => True

def start (l : Launch) : Relay where
  doit := doitSetup l
  src _ := {}
  out _ := []
  mark _ := 0

abbrev Reachable (l : Launch) : Relay → Prop := ReachOk step (start l) Fair

end Relay

lemma eq_cb (i : Fin 3) : i = CB_IN ∨ i = CB_OUT ∨ i = CB_ERR := by
  revert i
  decide

/-! ### What the steps of `doit` leave alone -/

/-- The copying is where it was: only descriptors and the place in the loop may differ. -/
structure Doit.Same (s s' : Doit) : Prop where
  cb : s'.cb = s.cb
  gotStdout : s'.gotStdout = s.gotStdout
  readStopped : s'.readStopped = s.readStopped
  backendExited : s'.backendExited = s.backendExited
  amChild : s'.amChild = s.amChild

lemma tryClose_same (s : Doit) (i : Fin 3) : s.Same (tryClose s i) := by
  unfold tryClose
  split <;> exact ⟨rfl, rfl, rfl, rfl, rfl⟩

lemma ioDone_same (s : Doit) (i : Fin 3) (doRead doWrite : Bool) :
    s.Same (ioDone s i doRead doWrite) := by
  unfold ioDone
  split
  · exact ⟨rfl, rfl, rfl, rfl, rfl⟩
  · obtain ⟨h1, h2, h3, h4, h5⟩ := tryClose_same s i
    exact ⟨h1, h2, h3, h4, h5⟩

/-- Behind a read or write the loop is at the same buffer or goes on. -/
lemma ioDone_pc (s : Doit) (i : Fin 3) (doRead doWrite : Bool) :
    (ioDone s i doRead doWrite).pc = .io i doRead doWrite ∨
      (ioDone s i doRead doWrite).pc = nextBuf i := by
  unfold ioDone
  split
  next => exact .inl rfl
  next => exact .inr rfl

lemma nextBuf_ne_done (i : Fin 3) : nextBuf i ≠ .done := by
  unfold nextBuf
  split <;> simp

lemma freeLen_of_myCanread {s : Doit} {i : Fin 3} (hmax : 0 < (s.cb CB_OUT).maxsz)
    (hgot : s.gotStdout = false → speedyCbDataLen (s.cb CB_OUT) = 0) (h : myCanread s i) :
    speedyCbFreeLen (s.cb i) ≠ 0 := by
  simp only [myCanread, speedyCbCanread, Bool.and_eq_true, Bool.or_eq_true] at h
  rcases h.2 with ⟨⟨hfree, -⟩, -⟩ | ⟨⟨hfirst, hi⟩, -⟩
  · simpa using hfree
  · -- before the first byte the buffer of stdout is empty
    obtain rfl : i = CB_OUT := by simpa using hi
    simp only [speedyCbFreeLen, hgot (by simpa using hfirst)]
    omega

namespace Relay

/-! ### The invariant -/

/-- What was in a buffer before anything was read into it. -/
def first (l : Launch) (i : Fin 3) : Bytes := if i = CB_IN then l.ibuf.bytes else []

/-- How much of what comes from a source is not passed on: the first byte of stdout is for the
frontend itself. -/
def lead (i : Fin 3) : ℕ := if i = CB_OUT then 1 else 0

/-- The buffers between what has been read and what has gone out. -/
structure Flows (l : Launch) (r : Relay) : Prop where
  wf : ∀ i, (r.doit.cb i).Wf
  maxsz : 0 < (r.doit.cb CB_OUT).maxsz
  taken : ∀ i, (r.src i).taken ≤ (r.src i).fed.length
  order : ∀ i, (r.doit.cb i).writeErr = 0 →
    r.out i ++ (r.doit.cb i).circ.data = first l i ++ ((r.src i).fed.take (r.src i).taken).drop (lead i)
  ended : ∀ i, (i = CB_IN → fdClosed l.fds 0 = false) → (r.doit.cb i).eof →
    (r.src i).closed = true ∧ (r.src i).taken = (r.src i).fed.length
  got : r.doit.gotStdout = false → (r.src CB_OUT).taken = 0 ∧ speedyCbDataLen (r.doit.cb CB_OUT) = 0
  begun : r.doit.gotStdout → 0 < (r.src CB_OUT).taken
  mark : ∀ i, r.mark i ≤ (r.src i).fed.length
  /-- since the status was collected a source has been read until nothing was there -/
  stopped : r.doit.backendExited → r.doit.amChild = false → ∀ i, i ≠ CB_IN →
    (r.doit.cb i).writeErr = 0 → r.doit.readStopped i → r.mark i ≤ (r.src i).taken

/-- What holds when the loop is left. -/
structure Over (r : Relay) : Prop where
  exited : r.doit.backendExited
  empty : ∀ i, i ≠ CB_IN → (r.doit.cb i).writeErr = 0 → speedyCbDataLen (r.doit.cb i) = 0 ∧
    ((r.doit.cb i).eof ∨ r.doit.amChild = false ∧ r.doit.readStopped i)

structure Inv (l : Launch) (r : Relay) : Prop extends Flows l r where
  room : ∀ i doWrite, r.doit.pc = .io i true doWrite →
    (r.doit.cb i).eof = false ∧ speedyCbFreeLen (r.doit.cb i) ≠ 0
  busy : ∀ i doRead, r.doit.pc = .io i doRead true → speedyCbDataLen (r.doit.cb i) ≠ 0
  left : r.doit.pc = .done → r.Over

variable {l : Launch} {r : Relay}

lemma Flows.congr {s : Doit} (h : r.Flows l) (hs : r.doit.Same s) :
    Flows l { r with doit := s } := by
  obtain ⟨hcb, hgot, hstop, hex, hchild⟩ := hs
  refine ⟨fun i => ?_, ?_, h.taken, fun i => ?_, fun i => ?_, fun hg => ?_, fun hg =>
    h.begun (hgot ▸ hg), h.mark, ?_⟩
  · simpa only [hcb] using h.wf i
  · simpa only [hcb] using h.maxsz
  · simpa only [hcb] using h.order i
  · simpa only [hcb] using h.ended i
  · simpa only [hcb] using h.got (hgot ▸ hg)
  · simpa only [hex, hchild, hstop, hcb] using h.stopped

@[simp] lemma takes_zero (i : Fin 3) : r.takes i 0 = r := by
  simp [takes]

@[simp] lemma puts_nil (i : Fin 3) : r.puts i [] = r := by
  simp [puts]

lemma goesOn_eq {s : Doit} (h : s.backendExited = r.doit.backendExited) :
    r.goesOn s = { r with doit := s } := by
  simp [goesOn, h]

lemma transfer_of_buf (h : r.doit.pc.buf = none) (e : Event) : r.transfer e = r := by
  cases e <;> simp [transfer, h]

/-- One buffer has moved: `n` bytes were read into it and `w` has gone out. -/
lemma Flows.move (h : r.Flows l) {i : Fin 3} {b : CopyBuf} {n : ℕ} {w : Bytes} {s : Doit}
    (hcb : s.cb = update r.doit.cb i b) (hex : s.backendExited = r.doit.backendExited)
    (hchild : s.amChild = r.doit.amChild) (hwf : b.Wf) (hmax : b.maxsz = (r.doit.cb i).maxsz)
    (herr : b.writeErr = 0 → (r.doit.cb i).writeErr = 0)
    (hn : (r.src i).taken + n ≤ (r.src i).fed.length)
    (horder : b.writeErr = 0 → r.out i ++ w ++ b.circ.data =
      first l i ++ ((r.src i).fed.take ((r.src i).taken + n)).drop (lead i))
    (hended : b.eof → (r.doit.cb i).eof ∨
      (r.src i).closed = true ∧ (r.src i).taken + n = (r.src i).fed.length)
    (hgot : s.gotStdout = false → r.doit.gotStdout = false ∧
      (i = CB_OUT → n = 0 ∧ speedyCbDataLen b = 0))
    (hbegun : s.gotStdout → r.doit.gotStdout ∨ i = CB_OUT ∧ 0 < n)
    (hstop : ∀ j, s.readStopped j → r.doit.readStopped j ∨
      j = i ∧ (r.src i).taken + n = (r.src i).fed.length) :
    Flows l { (r.takes i n).puts i w with doit := s } := by
  have hsrc (j : Fin 3) : (update r.src i { r.src i with taken := (r.src i).taken + n } j).fed =
      (r.src j).fed ∧ (update r.src i { r.src i with taken := (r.src i).taken + n } j).closed =
        (r.src j).closed ∧ (r.src j).taken ≤
          (update r.src i { r.src i with taken := (r.src i).taken + n } j).taken := by
    by_cases hj : j = i
    · subst hj
      simp
    · simp [hj]
  refine ⟨fun j => ?_, ?_, fun j => ?_, fun j hj => ?_, fun j hl hj => ?_, fun hg => ?_,
    fun hg => ?_, fun j => ?_, fun hx hc j hne he hj => ?_⟩ <;>
    simp only [takes, puts, hcb] at *
  · by_cases hj : j = i
    · subst hj
      simpa using hwf
    · simpa [hj] using h.wf j
  · by_cases hj : CB_OUT = i
    · subst hj
      simpa [hmax] using h.maxsz
    · simpa [hj] using h.maxsz
  · by_cases hj : j = i
    · subst hj
      simpa using hn
    · simpa [hj] using h.taken j
  · by_cases hji : j = i
    · subst hji
      simpa using horder (by simpa using hj)
    · simpa [hji] using h.order j (by simpa [hji] using hj)
  · by_cases hji : j = i
    · subst hji
      rcases hended (by simpa using hj) with he | he
      · obtain ⟨hclosed, hall⟩ := h.ended j hl he
        simp only [update_self]
        exact ⟨hclosed, by omega⟩
      · simpa using he
    · simpa [hji] using h.ended j hl (by simpa [hji] using hj)
  · obtain ⟨hg, hi⟩ := hgot hg
    by_cases hj : CB_OUT = i
    · subst hj
      obtain ⟨rfl, hlen⟩ := hi rfl
      simpa using ⟨(h.got hg).1, hlen⟩
    · simpa [hj] using h.got hg
  · rcases hbegun hg with hg | ⟨rfl, hpos⟩
    · exact Nat.lt_of_lt_of_le (h.begun hg) (hsrc CB_OUT).2.2
    · simp only [update_self]
      omega
  · rw [(hsrc j).1]
    exact h.mark j
  · rcases hstop j hj with hj | ⟨rfl, hall⟩
    · refine Nat.le_trans (h.stopped (hex ▸ hx) (hchild ▸ hc) j hne ?_ hj) (hsrc j).2.2
      by_cases hji : j = i
      · subst hji
        exact herr (by simpa using he)
      · simpa [hji] using he
    · simp only [update_self, hall]
      exact h.mark j

/-! ### The steps -/

lemma drop_lead_append (i : Fin 3) {u : Bytes} (hu : i = CB_OUT → u ≠ []) (w : Bytes) :
    (u ++ w).drop (lead i) = u.drop (lead i) ++ w := by
  refine List.drop_append_of_le_length ?_
  unfold lead
  split
  next hi => exact List.length_pos_iff.mpr (hu hi)
  next => exact Nat.zero_le _

/-- What a `readv` brings has been put in. -/
lemma taken_delivered {s : Source} {res : ReadRes} (hd : Delivers s res)
    (h : s.taken ≤ s.fed.length) : s.taken + res.bytes.length ≤ s.fed.length := by
  cases res with
  | data w =>
    have := hd.length_le
    simp only [List.length_drop, ReadRes.bytes] at this ⊢
    omega
  | _ => simpa [ReadRes.bytes] using h

lemma take_append_delivered {s : Source} {res : ReadRes} (hd : Delivers s res) :
    s.fed.take (s.taken + res.bytes.length) = s.fed.take s.taken ++ res.bytes := by
  rw [List.take_add]
  cases res with
  | data w => rw [ReadRes.bytes, ← List.prefix_iff_eq_take.mp hd]
  | _ => simp [ReadRes.bytes]

/-- The end of an input, or nothing there: all of it has been read. -/
lemma all_of_no_data {s : Source} {res : ReadRes} (hd : Delivers s res) (hne : ∀ w, res = .data w → w ≠ [])
    (h0 : res.bytes = []) : s.taken = s.fed.length := by
  cases res with
  | data w => exact absurd h0 (hne w rfl)
  | notReady => exact hd
  | «end» => exact hd.2
  | error => exact hd.elim

lemma closed_of_ends {s : Source} {res : ReadRes} (hd : Delivers s res) (h : res.ends) :
    s.closed = true ∧ s.taken = s.fed.length ∧ res.bytes = [] := by
  cases res with
  | «end» => exact ⟨hd.1, hd.2, rfl⟩
  | error => exact hd.elim
  | _ => simp [ReadRes.ends] at h

/-- The loop comes to a buffer, or past it. -/
lemma Flows.comes (h : r.Flows l) {i : Fin 3} {doRead doWrite : Bool}
    (hpc : r.doit.pc = .io i doRead doWrite ∨ r.doit.pc = nextBuf i)
    (hr : doRead → (r.doit.cb i).eof = false ∧ speedyCbFreeLen (r.doit.cb i) ≠ 0)
    (hw : doWrite → speedyCbDataLen (r.doit.cb i) ≠ 0) : r.Inv l := by
  have hio : ∀ j rd wr, r.doit.pc = .io j rd wr → i = j ∧ doRead = rd ∧ doWrite = wr :=
    fun j rd wr hj => by
      rcases hpc with hpc | hpc
      · simpa using hpc.symm.trans hj
      · exact absurd (hpc.symm.trans hj) (nextBuf_ne i j rd wr)
  refine ⟨h, fun j dw hj => ?_, fun j dr hj => ?_, fun hdone => ?_⟩
  · obtain ⟨rfl, hrd, -⟩ := hio j true dw hj
    exact hr hrd
  · obtain ⟨rfl, -, hwr⟩ := hio j dr true hj
    exact hw hwr
  · rcases hpc with hpc | hpc
    · exact absurd (hpc.symm.trans hdone) (by simp)
    · exact absurd (hpc.symm.trans hdone) (nextBuf_ne_done i)

lemma Flows.enters (h : r.Flows l) {i : Fin 3} {rd wr : Bool} {pc : Pc}
    (hr : rd → (r.doit.cb i).eof = false ∧ speedyCbFreeLen (r.doit.cb i) ≠ 0)
    (hw : wr → speedyCbDataLen (r.doit.cb i) ≠ 0) (hpc : pc = .io i rd wr ∨ pc = nextBuf i) :
    Inv l { r with doit := { r.doit with pc } } :=
  (h.congr (s := { r.doit with pc }) ⟨rfl, rfl, rfl, rfl, rfl⟩).comes hpc hr hw

lemma Flows.ioDone {s : Doit} {i : Fin 3} {doRead doWrite : Bool}
    (h : Flows l { r with doit := s }) (hex : s.backendExited = r.doit.backendExited)
    (hr : doRead → (s.cb i).eof = false ∧ speedyCbFreeLen (s.cb i) ≠ 0)
    (hw : doWrite → speedyCbDataLen (s.cb i) ≠ 0) :
    (r.goesOn (ioDone s i doRead doWrite)).Inv l := by
  have hsame := ioDone_same s i doRead doWrite
  rw [goesOn_eq (hsame.backendExited.trans hex)]
  refine (@Flows.congr l { r with doit := s } _ h hsame).comes (ioDone_pc s i doRead doWrite) ?_ ?_
  · simpa only [hsame.cb] using hr
  · simpa only [hsame.cb] using hw

lemma speedyCbShift_eof (b : CopyBuf) : (speedyCbShift b).2.eof = b.eof := by
  unfold speedyCbShift
  split <;> rfl

lemma Inv.read (h : r.Inv l) {i : Fin 3} {doWrite : Bool} (hpc : r.doit.pc = .io i true doWrite)
    {junk : ℕ → UInt8} {res : ReadRes} (hf : Fair r (.act (.read junk res))) {b : CopyBuf}
    (hb : speedyCbRead junk res (r.doit.cb i) = some b) :
    ((r.transfer (.read junk res)).goesOn (readDone r.doit i doWrite b)).Inv l := by
  have hbuf : r.doit.pc.buf = some i := by rw [hpc]; rfl
  obtain ⟨heof, hfree⟩ := h.room i doWrite hpc
  have hfits := hf.1 i hbuf
  have hd := hf.2 i hbuf
  have hall := all_of_no_data hd fun w hw => (hfits w hw).1
  obtain ⟨b', hb', hk, herr, heof', hdata⟩ := speedyCbRead_spec (h.wf i) hfits
  obtain rfl : b' = b := Option.some.inj (hb'.symm.trans hb)
  rw [if_pos hfree] at hdata
  have hlen : speedyCbDataLen b' = speedyCbDataLen (r.doit.cb i) + res.bytes.length := by
    unfold speedyCbDataLen
    simpa only [List.length_append, length_data] using congrArg List.length hdata
  have htake := take_append_delivered hd
  have hle := taken_delivered hd (h.taken i)
  have hends : b'.eof → (r.src i).closed = true ∧
      (r.src i).taken + res.bytes.length = (r.src i).fed.length := fun he => by
    obtain ⟨hclosed, hall, hnil⟩ := closed_of_ends hd (by simpa [heof', heof, hfree] using he)
    exact ⟨hclosed, by simpa [hnil] using hall⟩
  have htr : r.transfer (.read junk res) = r.takes i res.bytes.length := by
    simp only [transfer, hbuf, if_pos hfree]
  rw [htr]
  unfold readDone
  dsimp only
  by_cases hfirst : (!r.doit.gotStdout && decide (i = CB_OUT) &&
      decide (speedyCbDataLen b' > speedyCbDataLen (r.doit.cb i))) = true
  · -- the first byte of stdout is taken off the buffer
    rw [if_pos hfirst]
    simp only [Bool.and_eq_true, Bool.not_eq_true', decide_eq_true_eq, hlen] at hfirst
    obtain ⟨⟨hgot, rfl⟩, hmore⟩ := hfirst
    obtain ⟨h0, hempty⟩ := h.got hgot
    obtain ⟨hk', herr', hdata'⟩ := speedyCbShift_spec hk.wf
    refine Flows.ioDone ?_ rfl (by simp) (fun hw => ?_)
    swap
    · rcases Bool.or_eq_true_iff.mp hw with rfl | hw
      · exact absurd hempty (h.busy CB_OUT true hpc)
      · simp only [speedyCbCanwrite, Bool.and_eq_true, decide_eq_true_eq] at hw
        exact hw.1.1
    rw [← puts_nil (r := r.takes CB_OUT _) CB_OUT]
    refine h.toFlows.move (b := (speedyCbShift b').2) (by simp [firstByte]) rfl rfl hk'.wf
      (hk'.maxsz.trans hk.maxsz) (fun he => herr ▸ herr' ▸ he) hle (fun he => ?_) (fun he => ?_) (by simp [firstByte])
      (fun _ => .inr ⟨rfl, by omega⟩) fun j hj => .inl ?_
    · have horder := h.order CB_OUT (herr ▸ herr' ▸ he)
      rw [htake, h0, hdata', hdata, data_eq_nil hempty]
      rw [h0, data_eq_nil hempty] at horder
      simpa [first, lead] using horder
    · exact .inr (hends (speedyCbShift_eof b' ▸ he))
    · simpa [firstByte, hlen, hmore] using hj
  · rw [if_neg hfirst]
    simp only [Bool.and_eq_true, Bool.not_eq_true', decide_eq_true_eq, hlen, not_and] at hfirst
    refine Flows.ioDone ?_ rfl (by simp) (fun hw => ?_)
    swap
    · rcases Bool.or_eq_true_iff.mp hw with rfl | hw
      · have := h.busy i true hpc
        simp only [update_self, hlen]
        omega
      · simp only [speedyCbCanwrite, Bool.and_eq_true, decide_eq_true_eq] at hw
        exact hw.1.1
    rw [← puts_nil (r := r.takes i _) i]
    refine h.toFlows.move rfl rfl rfl hk.wf hk.maxsz (fun he => herr ▸ he) hle (fun h0 => ?_) (fun he => .inr (hends he))
      (fun hg => ⟨hg, ?_⟩) .inl fun j hj => ?_
    · rw [htake, hdata, List.append_nil, ← List.append_assoc, h.order i (herr ▸ h0),
        List.append_assoc]
      congr 1
      by_cases hnil : res.bytes = []
      · rw [hnil, List.append_nil, List.append_nil]
      · -- the first byte has come before
        refine (drop_lead_append i (fun hi => ?_) _).symm
        subst hi
        have hgot : r.doit.gotStdout = true := Bool.of_not_eq_false fun hg => hfirst ⟨hg, rfl⟩
          (by have := List.length_pos_iff.mpr hnil; omega)
        have := h.begun hgot
        have := h.taken CB_OUT
        exact List.ne_nil_of_length_pos (by rw [List.length_take]; omega)
    · rintro rfl
      have := (h.got hg).2
      have := hfirst ⟨hg, rfl⟩
      omega
    · dsimp only at hj
      split at hj
      next => exact .inl hj
      next hmore =>
        have hnil : res.bytes = [] := by simpa [hlen] using hmore
        by_cases hji : j = i
        · exact .inr ⟨hji, by simpa [hnil] using hall hnil⟩
        · exact .inl (by simpa [hji] using hj)

lemma Inv.write (h : r.Inv l) {i : Fin 3} (hpc : r.doit.pc = .io i false true) {res : WriteRes}
    (hf : Fair r (.act (.write res))) {b : CopyBuf}
    (hb : speedyCbWrite res (r.doit.cb i) = some b) :
    ((r.transfer (.write res)).goesOn (writeDone r.doit i b)).Inv l := by
  have hbuf : r.doit.pc.buf = some i := by rw [hpc]; rfl
  -- what has gone out is no longer in the buffer
  obtain ⟨hk, heof, hdata⟩ : (r.doit.cb i).Keeps b ∧ b.eof = (r.doit.cb i).eof ∧ (b.writeErr = 0 →
      (r.doit.cb i).writeErr = 0 ∧ b.circ.data = (r.doit.cb i).circ.data.drop res.count) := by
    by_cases herr : (r.doit.cb i).writeErr = 0
    · obtain ⟨b', hb', hk, heof, hres⟩ := speedyCbWrite_spec (h.wf i) herr (hf i hbuf)
      obtain rfl : b' = b := Option.some.inj (hb'.symm.trans hb)
      exact ⟨hk, heof, fun h0 => ⟨herr, (hres.resolve_left fun he => he.2 h0).2⟩⟩
    · obtain ⟨b', hb', hk, heof, herr'⟩ := speedyCbWrite_of_err (h.wf i) herr res
      obtain rfl : b' = b := Option.some.inj (hb'.symm.trans hb)
      exact ⟨hk, heof, fun h0 => absurd (herr' ▸ h0) herr⟩
  rw [show r.transfer (.write res) = r.puts i (sent (r.doit.cb i) res) by simp only [transfer, hbuf]]
  unfold writeDone
  dsimp only
  have hflow : Flows l { (r.takes i 0).puts i (sent (r.doit.cb i) res) with
      doit := { r.doit with cb := update r.doit.cb i b } } := by
    refine h.toFlows.move rfl rfl rfl hk.wf hk.maxsz (fun he => (hdata he).1) (h.taken i) (fun h0 => ?_)
      (fun he => .inl (heof ▸ he)) (fun hg => ⟨hg, ?_⟩) .inl fun j => .inl
    · obtain ⟨herr, hdrop⟩ := hdata h0
      rw [sent, if_pos herr, gatherSegs_data (h.wf i).circ.bounds, hdrop, List.append_assoc,
        List.take_append_drop]
      exact h.order i herr
    · rintro rfl
      exact absurd (h.got hg).2 (h.busy CB_OUT false hpc)
  rw [takes_zero] at hflow
  refine hflow.ioDone rfl (fun hr => ?_) (by simp)
  simp only [Bool.and_eq_true] at hr
  exact ⟨eof_of_myCanread hr.1.1, freeLen_of_myCanread hflow.maxsz (fun hg => (hflow.got hg).2) hr.1.1⟩

lemma Flows.inv (h : r.Flows l) (hio : ∀ i rd wr, r.doit.pc ≠ .io i rd wr)
    (hover : r.doit.pc = .done → r.Over) : r.Inv l :=
  ⟨h, fun i _ hi => absurd hi (hio i _ _), fun i _ hi => absurd hi (hio i _ _), hover⟩

lemma eof_of_bothDone {s : Doit} (h : bothDone s) {i : Fin 3} (hi : i ≠ CB_IN)
    (herr : (s.cb i).writeErr = 0) : speedyCbDataLen (s.cb i) = 0 ∧ (s.cb i).eof := by
  simp only [bothDone, Bool.and_eq_true] at h
  have hdone : myCopydone s i := by
    obtain rfl | rfl | rfl := eq_cb i
    · exact absurd rfl hi
    · exact h.1
    · exact h.2
  simp only [myCopydone, speedyCbCopydone, Bool.and_eq_true, Bool.or_eq_true, decide_eq_true_eq] at hdone
  obtain ⟨heof, hlen⟩ := hdone.1.resolve_right fun hne => hne herr
  exact ⟨hlen, heof⟩

lemma over_of_bothDone (hex : r.doit.backendExited) (h : bothDone r.doit) : r.Over :=
  ⟨hex, fun _ hi herr => ⟨(eof_of_bothDone h hi herr).1, .inl (eof_of_bothDone h hi herr).2⟩⟩

lemma over_of_stopped (hex : r.doit.backendExited) (hchild : r.doit.amChild = false)
    (hout : speedyCbCanwrite (r.doit.cb 1) = false) (herr : speedyCbCanwrite (r.doit.cb 2) = false)
    (h1 : r.doit.readStopped 1) (h2 : r.doit.readStopped 2) : r.Over := by
  have hempty {b : CopyBuf} (hb : speedyCbCanwrite b = false) (h0 : b.writeErr = 0) :
      speedyCbDataLen b = 0 := by
    simpa [speedyCbCanwrite, h0] using hb
  refine ⟨hex, fun i hi h0 => ?_⟩
  obtain rfl | rfl | rfl := eq_cb i
  · exact absurd rfl hi
  · exact ⟨hempty hout h0, .inr ⟨hchild, h1⟩⟩
  · exact ⟨hempty herr h0, .inr ⟨hchild, h2⟩⟩

/-- The status of the backend is collected now. -/
lemma Flows.collected (h : r.Flows l) {s : Doit} (hcb : s.cb = r.doit.cb)
    (hgot : s.gotStdout = r.doit.gotStdout)
    (hstop : ∀ i, i ≠ CB_IN → (r.doit.cb i).writeErr = 0 → s.readStopped i →
      (r.src i).taken = (r.src i).fed.length) :
    Flows l { r with doit := s, mark := fun i => (r.src i).fed.length } := by
  refine ⟨fun i => ?_, ?_, h.taken, fun i => ?_, fun i => ?_, fun hg => ?_, fun hg =>
    h.begun (hgot ▸ hg), fun i => Nat.le_refl _, fun _ _ i hi he hj => ?_⟩
  · simpa only [hcb] using h.wf i
  · simpa only [hcb] using h.maxsz
  · simpa only [hcb] using h.order i
  · simpa only [hcb] using h.ended i
  · simpa only [hcb] using h.got (hgot ▸ hg)
  · exact Nat.le_of_eq (hstop i hi (hcb ▸ he) hj).symm

lemma Flows.waits (h : r.Flows l) (hio : ∀ i rd wr, r.doit.pc ≠ .io i rd wr) (hdone : r.doit.pc ≠ .done) :
    r.Inv l :=
  h.inv hio fun hpc => absurd hpc hdone

/-- The loop is left, and nothing else has changed. -/
lemma Over.finish (h : r.Over) (hflow : r.Flows l) : Inv l { r with doit := finish r.doit } :=
  (hflow.congr (s := Copy.finish r.doit) ⟨rfl, rfl, rfl, rfl, rfl⟩).inv (by simp [Copy.finish]) fun _ =>
    ⟨h.exited, h.empty⟩

lemma Inv.exits (h : r.Inv l) (sig collected child : Bool) :
    (r.goesOn (afterIo sig collected child r.doit)).Inv l := by
  have hflow := h.toFlows
  have hpoll : Inv l { r with doit := { r.doit with pc := .poll } } :=
    (hflow.congr (s := { r.doit with pc := .poll }) ⟨rfl, rfl, rfl, rfl, rfl⟩).waits (by simp)
      (by simp)
  unfold afterIo
  split
  next hex =>
    rw [goesOn_eq (by split_ifs <;> rfl)]
    split_ifs with hchild hboth hquiet hboth hstopped hfork
    · exact (over_of_bothDone hex hboth).finish hflow
    · exact hpoll
    · exact (over_of_bothDone hex hboth).finish hflow
    · -- the child goes on with the buffers it has
      refine Flows.waits ⟨h.wf, h.maxsz, h.taken, h.order, h.ended, h.got, h.begun, h.mark,
        fun _ hc => absurd hc (by simp)⟩ (by simp) (by simp)
    · simp only [Bool.and_eq_true, Bool.not_eq_true'] at hquiet hstopped
      exact (over_of_stopped hex (Bool.eq_false_iff.mpr hchild) hquiet.1 hquiet.2 hstopped.1
        hstopped.2).finish hflow
    · exact hpoll
    · exact hpoll
  next hex =>
    rw [Bool.not_eq_true] at hex
    have hmark (s : Doit) (hs : s.backendExited = true) : r.goesOn s =
        { r with doit := s, mark := fun i => (r.src i).fed.length } := by
      simp [goesOn, hex, hs]
    dsimp only
    split_ifs with hsig hcollected hboth
    · -- all has been read already
      have hover : Over { r with doit := { r.doit with backendExited := collected } } :=
        over_of_bothDone hcollected hboth
      rw [hmark _ hcollected]
      exact (hflow.collected (s := finish { r.doit with backendExited := collected }) rfl rfl
        fun i hi herr _ => (h.ended i (fun h0 => absurd h0 hi) (eof_of_bothDone hboth hi herr).2).2).inv
        (by simp [finish]) fun _ => ⟨hover.exited, hover.empty⟩
    · rw [hmark _ hcollected]
      exact Flows.waits (hflow.collected rfl rfl (by simp)) (by simp) (by simp)
    · rw [goesOn_eq (by simpa [hex] using hcollected)]
      refine (hflow.congr (s := { r.doit with backendExited := collected, pc := .poll })
        ⟨rfl, rfl, rfl, ?_, rfl⟩).waits (by simp) (by simp)
      simpa [hex] using hcollected
    · rw [goesOn_eq (by rfl)]
      exact hpoll

lemma Inv.act (h : r.Inv l) {e : Event} (hf : Fair r (.act e)) {s : Doit}
    (hs : doitStep r.doit e = some s) : ((r.transfer e).goesOn s).Inv l := by
  cases e with
  | ready rd wr =>
    simp only [doitStep] at hs
    split at hs
    next i hpc =>
      obtain rfl := Option.some.inj hs
      rw [transfer_of_buf (by rw [hpc]; rfl), goesOn_eq (by rfl)]
      refine h.toFlows.enters (fun hrd => ?_) (fun hwr => ?_) (ite_eq_or_eq ..)
      · rw [Bool.and_eq_true] at hrd
        exact ⟨eof_of_myCanread hrd.1,
          freeLen_of_myCanread h.maxsz (fun hg => (h.got hg).2) hrd.1⟩
      · simp only [speedyCbCanwrite, Bool.and_eq_true, decide_eq_true_eq] at hwr
        exact hwr.1.1
    next => simp at hs
  | read junk res =>
    simp only [doitStep] at hs
    split at hs
    next i dw hpc =>
      obtain ⟨b, hb, rfl⟩ := Option.map_eq_some_iff.mp hs
      exact h.read hpc hf hb
    next => simp at hs
  | write res =>
    simp only [doitStep] at hs
    split at hs
    next i hpc =>
      obtain ⟨b, hb, rfl⟩ := Option.map_eq_some_iff.mp hs
      exact h.write hpc hf hb
    next => simp at hs
  | exits sig collected child =>
    simp only [doitStep] at hs
    split at hs
    next hpc =>
      obtain rfl := Option.some.inj hs
      rw [transfer_of_buf (by rw [hpc]; rfl)]
      exact h.exits sig collected child
    next => simp at hs
  | poll failed =>
    simp only [doitStep] at hs
    split at hs
    next hpc =>
      obtain rfl := Option.some.inj hs
      obtain rfl : failed = false := hf
      rw [transfer_of_buf (by rw [hpc]; rfl), goesOn_eq (by rfl)]
      exact (h.toFlows.congr (s := { r.doit with pc := .tests 0 }) ⟨rfl, rfl, rfl, rfl, rfl⟩).waits
        (by simp) (by simp)
    next => simp at hs

/-- More has come from the other ends, or some of them are closed now. -/
lemma Inv.sources (h : r.Inv l) {src : Fin 3 → Source} (htaken : ∀ i, (src i).taken = (r.src i).taken)
    (hfed : ∀ i, (r.src i).fed <+: (src i).fed)
    (hclosed : ∀ i, (r.src i).closed = true → (src i).closed = true ∧ (src i).fed = (r.src i).fed) :
    Inv l { r with src } := by
  have hlen (i : Fin 3) := (hfed i).length_le
  refine ⟨⟨h.wf, h.maxsz, fun i => ?_, fun i herr => ?_, fun i hl heof => ?_, fun hg => ?_, fun hg => ?_,
    fun i => Nat.le_trans (h.mark i) (hlen i), fun hx hc i hi herr hj => ?_⟩, h.room, h.busy,
    fun hdone => ⟨(h.left hdone).exited, (h.left hdone).empty⟩⟩
  · rw [htaken i]
    exact Nat.le_trans (h.taken i) (hlen i)
  · obtain ⟨w, hw⟩ := hfed i
    rw [h.order i herr, htaken i, ← hw, List.take_append_of_le_length (h.taken i)]
  · obtain ⟨hc, hall⟩ := h.ended i hl heof
    rw [htaken i, (hclosed i hc).2]
    exact ⟨(hclosed i hc).1, hall⟩
  · rw [htaken]
    exact h.got hg
  · rw [htaken]
    exact h.begun hg
  · rw [htaken]
    exact h.stopped hx hc i hi herr hj

lemma step_inv {r' : Relay} (h : r.Inv l) {m : Move} (hf : Fair r m) (hs : step r m = some r') :
    r'.Inv l := by
  cases m with
  | feed i w =>
    simp only [step] at hs
    split at hs
    next => simp at hs
    next hopen =>
      obtain rfl := Option.some.inj hs
      refine h.sources (fun j => ?_) (fun j => ?_) fun j hj => ?_ <;> by_cases hji : j = i
      · subst hji
        simp
      · simp [hji]
      · subst hji
        simp
      · simp [hji]
      · exact absurd (hji ▸ hj) hopen
      · simpa [hji] using hj
  | hangup i =>
    obtain rfl := Option.some.inj hs
    refine h.sources (fun j => ?_) (fun j => ?_) fun j hj => ?_ <;> by_cases hji : j = i
    · subst hji
      simp
    · simp [hji]
    · subst hji
      simp
    · simp [hji]
    · subst hji
      simp
    · simp [hji, hj]
  | act e =>
    obtain ⟨s, hs', rfl⟩ := Option.map_eq_some_iff.mp hs
    exact h.act hf hs'

lemma setup_same (l : Launch) : (doitSetup l).cb = l.cb ∧ (doitSetup l).gotStdout = false ∧
    (doitSetup l).backendExited = false ∧ (doitSetup l).pc = .tests 0 := by
  unfold doitSetup tryClose
  dsimp only
  split_ifs <;> exact ⟨rfl, rfl, rfl, rfl⟩

lemma launch_maxsz (l : Launch) : (l.cb CB_OUT).maxsz = l.bufsizGet := by
  simp only [Launch.cb]
  split <;> rfl

lemma launch_data (l : Launch) (i : Fin 3) : (l.cb i).circ.data = first l i := by
  obtain rfl | rfl | rfl := eq_cb i
  · simp only [Launch.cb]
    split <;> exact data_circInit (some l.ibuf)
  · simp only [Launch.cb]
    split <;> exact data_circInit none
  · simp only [Launch.cb]
    split <;> exact data_circInit none

lemma launch_eof (l : Launch) (i : Fin 3) :
    (l.cb i).eof = (decide (i = CB_IN) && fdClosed l.fds 0) := by
  obtain rfl | rfl | rfl := eq_cb i
  · simp only [Launch.cb]
    split
    next h => simp [speedyCbSeteof, h]
    next h => simp [speedyCbInit, h]
  · simp only [Launch.cb]
    split <;> rfl
  · simp only [Launch.cb]
    split <;> rfl

lemma start_inv (hget : 0 < l.bufsizGet) : (start l).Inv l := by
  obtain ⟨hcb, hgot, hex, hpc⟩ := setup_same l
  refine Flows.waits ⟨fun i => ?_, ?_, fun i => Nat.le_refl _, fun i _ => ?_, fun i hl heof => ?_,
    fun _ => ⟨rfl, ?_⟩, fun hg => ?_, fun i => Nat.le_refl _, fun hx => ?_⟩ ?_ ?_ <;>
    simp only [start, hcb] at *
  · exact launch_wf l i
  · rwa [launch_maxsz]
  · simpa using launch_data l i
  · rw [launch_eof, Bool.and_eq_true, decide_eq_true_eq] at heof
    exact absurd (heof.2.symm.trans (hl heof.1)) (by simp)
  · have hnil : (l.cb CB_OUT).circ.data = [] := launch_data l CB_OUT
    simpa [speedyCbDataLen] using congrArg List.length hnil
  · exact absurd (hgot.symm.trans hg) (by simp)
  · exact absurd (hex.symm.trans hx) (by simp)
  · simp [hpc]
  · simp [hpc]

lemma inv_of_reachable (hget : 0 < l.bufsizGet) (h : Reachable l r) : r.Inv l :=
  ReachOk.inv (start_inv hget) (fun _ _ _ _ hr hf hs => step_inv hr hf hs) h

/-- What has gone to stdout and stderr is what came from the backend, but for the first byte; and when
the loop is left that is at least what had been written by the time the status was collected, and
everything if the frontend has stayed behind as a child. -/
theorem output_relayed (hget : 0 < l.bufsizGet) (h : Reachable l r) {i : Fin 3} (hi : i ≠ CB_IN)
    (herr : (r.doit.cb i).writeErr = 0) :
    r.out i <+: (r.src i).fed.drop (lead i) ∧
    (r.doit.pc = .done → r.doit.backendExited ∧ ∃ n, r.mark i ≤ n ∧ n ≤ (r.src i).fed.length ∧
      r.out i = ((r.src i).fed.take n).drop (lead i) ∧
      (r.doit.amChild → (r.src i).closed ∧ n = (r.src i).fed.length)) := by
  have hinv := inv_of_reachable hget h
  have horder := hinv.order i herr
  rw [first, if_neg hi, List.nil_append] at horder
  refine ⟨?_, fun hdone => ?_⟩
  · have hread : r.out i <+: ((r.src i).fed.take (r.src i).taken).drop (lead i) :=
      horder ▸ List.prefix_append ..
    rw [List.drop_take] at hread
    exact hread.trans (List.take_prefix ..)
  · obtain ⟨hex, hempty⟩ := hinv.left hdone
    obtain ⟨hlen, hend⟩ := hempty i hi herr
    rw [data_eq_nil hlen, List.append_nil] at horder
    refine ⟨hex, (r.src i).taken, ?_, hinv.taken i, horder, fun hchild => ?_⟩
    · rcases hend with heof | ⟨hchild, hstop⟩
      · exact (hinv.ended i (fun h0 => absurd h0 hi) heof).2 ▸ hinv.mark i
      · exact hinv.stopped hex hchild i hi herr hstop
    · have heof := hend.resolve_right fun hc => by simp [hchild] at hc
      exact hinv.ended i (fun h0 => absurd h0 hi) heof

/-! ### A run -/

/-- Whether a move is fair can be decided. -/
def fair (r : Relay) : Move → Bool
  | .act (.read junk res) => r.doit.pc.buf.all fun i =>
    match res with
    | .data w => !w.isEmpty && (enlarge junk (r.doit.cb i)).all (fun e => w.length ≤ readSpace e) &&
        w.isPrefixOf ((r.src i).fed.drop (r.src i).taken)
    | .notReady => (r.src i).taken = (r.src i).fed.length
    | .end => (r.src i).closed && (r.src i).taken = (r.src i).fed.length
    | .error => false
  | .act (.write res) => r.doit.pc.buf.all fun i => res.count ≤ speedyCbDataLen (r.doit.cb i)
  | .act (.poll failed) => !failed
  | _ => true

lemma fair_sound {m : Move} (h : r.fair m = true) : Fair r m := by
  cases m with
  | act e =>
    cases e with
    | read junk res =>
      simp only [fair, Option.all_eq_true] at h
      refine ⟨fun i hi w hw => ?_, fun i hi => ?_⟩
      · subst hw
        have hi := h i hi
        simp only [Bool.and_eq_true, Option.all_eq_true, decide_eq_true_eq] at hi
        exact ⟨by simpa using hi.1.1, hi.1.2⟩
      · have hi := h i hi
        cases res <;> simp_all [Delivers]
    | write res =>
      intro i hi n hn
      simp only [fair, Option.all_eq_true, decide_eq_true_eq] at h
      simpa [hn, WriteRes.count] using h i hi
    | poll failed => simpa [fair, Fair] using h
    | _ => trivial
  | _ => trivial

lemma exists_of_moves {β : Type} (f : Relay → β) {x : β} (ms : List Move)
    (h : (runOk step fair (start l) ms).map f = some x) : ∃ r, Reachable l r ∧ f r = x := by
  obtain ⟨r, hr, hf⟩ := exists_reachOk f ms h
  exact ⟨r, hr.mono fun _ _ => fair_sound, hf⟩

/-- A byte of output, read before the status is collected and looked for again behind it. -/
def oneByte : List Move := [
  .feed CB_OUT [0, 65], .act (.ready false false), .act (.ready true false),
  .act (.read (fun _ => 0) (.data [0, 65])), .act (.write (.took 1)),
  .act (.read (fun _ => 0) .notReady), .act (.ready false false), .act (.exits true true false),
  .act (.ready false false), .act (.ready true false), .act (.read (fun _ => 0) .notReady),
  .act (.ready true false), .act (.read (fun _ => 0) .notReady), .act (.exits false false false)]

theorem output_relayed_byte : ∃ r, Reachable (launchOpen true) r ∧
    (r.out 1 <+: (r.src 1).fed.drop 1 ∧ (r.doit.pc = .done → r.doit.backendExited ∧
      ∃ n, r.mark 1 ≤ n ∧ n ≤ (r.src 1).fed.length ∧ r.out 1 = ((r.src 1).fed.take n).drop 1 ∧
        (r.doit.amChild → (r.src 1).closed ∧ n = (r.src 1).fed.length))) ∧
    r.doit.pc = .done ∧ r.out 1 = [65] ∧ r.mark 1 = 2 := by
  obtain ⟨r, hr, h⟩ := exists_of_moves (l := launchOpen true)
    (fun r => ((r.doit.cb 1).writeErr, r.doit.pc, r.out 1, r.mark 1)) oneByte
    (x := (0, .done, [65], 2)) (by decide)
  simp only [Prod.mk.injEq] at h
  exact ⟨r, hr, output_relayed (by decide) hr (i := 1) (by decide) h.1, h.2⟩

end Relay

end SpeedyCgi.Copy
