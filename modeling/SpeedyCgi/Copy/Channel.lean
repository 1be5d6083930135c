import SpeedyCgi.Copy.Doit

/-!
The socket on which the frontend answers the backend's question for the cwd.

It is the one that the stderr buffer reads from, so it is closed as soon as that buffer is done.
-/

namespace SpeedyCgi.Copy

open Lib.Lts

/-- No byte of the backend's stdout has come, and its end neither. -/
def Doit.Waiting (s : Doit) : Prop := s.gotStdout = false ∧ (s.cb CB_OUT).eof = false

/-- The buffer that a read or write of a state is about. -/
def Pc.buf : Pc → Option (Fin 3)
  | .io i _ _ => some i
  | _ => none

/-- What `readv` and `writev` can do. -/
def Possible (s : Doit) : Event → Prop
  | .read junk r => ∀ i, s.pc.buf = some i → r.Fits junk (s.cb i)
  | .write r => ∀ i, s.pc.buf = some i → r.Fits (s.cb i)
  | _ => True

/-- While the first byte is awaited stderr does not come to its end with all of it written, and
writing it does not fail. -/
def ErrSteady (s : Doit) (e : Event) : Prop :=
  s.Waiting → s.pc.buf = some CB_ERR → match e with
    | .read _ r => r.ends → speedyCbDataLen (s.cb CB_ERR) ≠ 0
    | .write r => (∀ errno, r ≠ .error errno) ∧
        ((s.cb CB_ERR).eof → r.count < speedyCbDataLen (s.cb CB_ERR))
    | _ => True

/-! ### Descriptors -/

lemma fdChange_isOpen {fd x : ℕ} (h : x ≠ fd) (state : FdState) (f : Fds) :
    (fdChange fd state f).isOpen x = f.isOpen x := by
  unfold fdChange
  split
  · split
    · dsimp only
      rw [Function.update_of_ne h]
      split <;> rfl
    · rfl
  · rfl

lemma fdChange_block_isOpen (fd : ℕ) (f : Fds) : (fdChange fd .block f).isOpen = f.isOpen := by
  unfold fdChange
  split <;> rfl

lemma fdInit_noblock (fd : ℕ) (f : Fds) : fdInit fd .noblock f =
    { f with state := Function.update f.state fd (if f.isOpen fd then .noblock else .close) } := by
  simp [fdInit, fdChange, fdSetfl]

lemma fdInit_isOpen (fd : ℕ) (f : Fds) : (fdInit fd .noblock f).isOpen = f.isOpen := by
  rw [fdInit_noblock]

/-! ### The invariant -/

/-- The channel, and the buffers: only that of stderr has the channel among its descriptors. -/
structure Doit.Chan (s : Doit) : Prop where
  wf : ∀ i, (s.cb i).Wf
  near : ∀ i, i ≠ CB_ERR → (s.cb i).rdfd < s.socks 2 ∧ (s.cb i).wrfd < s.socks 2
  chan : s.Waiting → s.fds.isOpen (s.socks 2) ∧ speedyCbCopydone (s.cb CB_ERR) = false
  replied : ∀ c o, s.reply = some (c, o) → o = true

/-- Moreover a buffer at its end is not read. -/
structure Doit.Inv (s : Doit) : Prop extends s.Chan where
  reads : ∀ i doWrite, s.pc = .io i true doWrite → (s.cb i).eof = false

/-- What the invariant does not speak of. -/
lemma Doit.Chan.congr {s s' : Doit} (h : s.Chan) (hcb : s'.cb = s.cb) (hsocks : s'.socks = s.socks)
    (hopen : s'.fds.isOpen = s.fds.isOpen) (hgot : s'.gotStdout = s.gotStdout)
    (hreply : s'.reply = s.reply) : s'.Chan := by
  refine ⟨fun i => hcb ▸ h.wf i, fun i hi => ?_, fun hw => ?_, hreply ▸ h.replied⟩
  · rw [hcb, hsocks]
    exact h.near i hi
  · rw [hcb, hsocks, hopen]
    exact h.chan ⟨hgot ▸ hw.1, hcb ▸ hw.2⟩

lemma Doit.Chan.inv {s : Doit} (h : s.Chan)
    (hpc : ∀ i doWrite, s.pc ≠ .io i true doWrite) : s.Inv :=
  ⟨h, fun i dw hi => absurd hi (hpc i dw)⟩

lemma Doit.Chan.tryClose {s : Doit} (h : s.Chan) (i : Fin 3) : (tryClose s i).Chan := by
  unfold Copy.tryClose
  split
  next hdone =>
    refine ⟨h.wf, h.near, fun hw => ⟨?_, (h.chan hw).2⟩, h.replied⟩
    obtain ⟨hopen, herr⟩ := h.chan hw
    by_cases hi : i = CB_ERR
    · -- its buffer is not done
      subst hi
      simp [myCopydone, herr] at hdone
    · obtain ⟨hrd, hwr⟩ := h.near i hi
      rw [fdChange_isOpen (Nat.ne_of_gt hwr), fdChange_isOpen (Nat.ne_of_gt hrd)]
      exact hopen
  next => exact h

lemma nextBuf_ne (i j : Fin 3) (doRead doWrite : Bool) : nextBuf i ≠ .io j doRead doWrite := by
  unfold nextBuf
  split <;> simp

lemma Doit.Chan.ioDone {s : Doit} (h : s.Chan) {i : Fin 3} {doRead doWrite : Bool}
    (hr : doRead → (s.cb i).eof = false) : (ioDone s i doRead doWrite).Inv := by
  unfold Copy.ioDone
  split
  · refine ⟨h.congr rfl rfl rfl rfl rfl, fun j dw hj => ?_⟩
    obtain ⟨rfl, rfl, -⟩ : i = j ∧ doRead = true ∧ doWrite = dw := by simpa using hj
    exact hr rfl
  · exact ⟨(h.tryClose i).congr rfl rfl rfl rfl rfl, fun j dw hj =>
      absurd hj (nextBuf_ne i j true dw)⟩

/-- A buffer is read or written, and stderr is not done by that before the first byte. -/
lemma Doit.Chan.buf {s : Doit} (h : s.Chan) {i : Fin 3} {b : CopyBuf} (hk : (s.cb i).Keeps b)
    (heof : b.eof = false → (s.cb i).eof = false)
    (hdone : i = CB_ERR → s.Waiting → speedyCbCopydone b = false) (readStopped : Fin 3 → Bool) :
    Doit.Chan { s with cb := Function.update s.cb i b, readStopped } := by
  refine ⟨fun j => ?_, fun j hj => ?_, fun hw => ?_, h.replied⟩
  · by_cases hji : j = i
    · subst hji
      simpa using hk.wf
    · simpa [hji] using h.wf j
  · by_cases hji : j = i
    · subst hji
      simpa [hk.fds.1, hk.fds.2] using h.near j hj
    · simpa [hji] using h.near j hj
  · obtain ⟨hgot, hout⟩ := hw
    have hw : s.Waiting := by
      refine ⟨hgot, ?_⟩
      by_cases hi : CB_OUT = i
      · subst hi
        exact heof (by simpa using hout)
      · simpa [hi] using hout
    refine ⟨(h.chan hw).1, ?_⟩
    by_cases hi : CB_ERR = i
    · subst hi
      simpa using hdone rfl hw
    · simpa [hi] using (h.chan hw).2

/-- The first byte is answered on the open socket. -/
lemma Doit.Chan.firstByte {s : Doit} (h : s.Chan) (hw : s.Waiting) : (firstByte s).Chan := by
  obtain ⟨hopen, -⟩ := h.chan hw
  obtain ⟨hk, -, -⟩ := speedyCbShift_spec (h.wf CB_OUT)
  refine ⟨fun j => ?_, fun j hj => ?_, fun hw' => absurd hw'.1 (by simp [Copy.firstByte]),
    fun c o hr => ?_⟩
  · by_cases hj : j = CB_OUT
    · subst hj
      simpa [Copy.firstByte] using hk.wf
    · simpa [Copy.firstByte, hj] using h.wf j
  · by_cases hji : j = CB_OUT
    · subst hji
      simpa [Copy.firstByte, hk.fds.1, hk.fds.2] using h.near _ hj
    · simpa [Copy.firstByte, hji] using h.near j hj
  · obtain ⟨-, rfl⟩ : _ ∧ s.fds.isOpen (s.socks 2) = o := by simpa [Copy.firstByte] using hr
    exact hopen

/-! ### The steps -/

lemma copydone_of_not_empty {b : CopyBuf} (herr : b.writeErr = 0)
    (hlen : b.eof → speedyCbDataLen b ≠ 0) : speedyCbCopydone b = false := by
  cases heof : b.eof with
  | false => simp [speedyCbCopydone, heof, herr]
  | true => simp [speedyCbCopydone, herr, hlen heof]

lemma of_copydone_false {b : CopyBuf} (h : speedyCbCopydone b = false) :
    b.writeErr = 0 ∧ (b.eof → speedyCbDataLen b ≠ 0) := by
  simp only [speedyCbCopydone, Bool.or_eq_false_iff, Bool.and_eq_false_iff,
    decide_eq_false_iff_not] at h
  obtain ⟨hlen, herr⟩ := h
  exact ⟨Decidable.not_not.mp herr, fun heof => hlen.resolve_left (by simp [heof])⟩

lemma Doit.Inv.read {s : Doit} (h : s.Inv) {i : Fin 3} {doWrite : Bool}
    (hpc : s.pc = .io i true doWrite) {junk : ℕ → UInt8} {r : ReadRes}
    (hfits : Possible s (.read junk r)) (hok : ErrSteady s (.read junk r)) {b : CopyBuf}
    (hb : speedyCbRead junk r (s.cb i) = some b) : (readDone s i doWrite b).Inv := by
  have hbuf : s.pc.buf = some i := by rw [hpc]; rfl
  have heof := h.reads i doWrite hpc
  obtain ⟨b', hb', hk, herr, heof', hdata⟩ := speedyCbRead_spec (h.wf i) (hfits i hbuf)
  obtain rfl : b' = b := Option.some.inj (hb'.symm.trans hb)
  have hlen := congrArg List.length hdata
  simp only [List.length_append, length_data] at hlen
  have hs' := h.toChan.buf hk (fun _ => heof) (fun hi hw => ?_)
  · refine Doit.Chan.ioDone ?_ (by simp)
    by_cases hfirst : (!s.gotStdout && decide (i = CB_OUT) &&
        decide (speedyCbDataLen b' > speedyCbDataLen (s.cb i))) = true
    · rw [if_pos hfirst]
      simp only [Bool.and_eq_true, Bool.not_eq_true', decide_eq_true_eq] at hfirst
      obtain ⟨⟨hgot, rfl⟩, hmore⟩ := hfirst
      refine (hs' _).firstByte ⟨hgot, ?_⟩
      -- data came, so this was not the end
      have hends : r.ends = false := by
        unfold speedyCbDataLen at hmore
        cases r with
        | notReady => rfl
        | data w => rfl
        | «end» => simp [ReadRes.bytes] at hlen; omega
        | error => simp [ReadRes.bytes] at hlen; omega
      simp [heof', heof, hends]
    · rw [if_neg hfirst]
      exact hs' _
  · subst hi
    obtain ⟨herr0, -⟩ := of_copydone_false (h.chan hw).2
    refine copydone_of_not_empty (herr.trans herr0) fun he => ?_
    have hends : r.ends = true := by
      rw [heof', heof] at he
      simpa using (by simpa using he : _ ∧ _).2
    have := hok hw hbuf hends
    unfold speedyCbDataLen at this ⊢
    omega

lemma Doit.Inv.write {s : Doit} (h : s.Inv) {i : Fin 3} (hpc : s.pc = .io i false true)
    {r : WriteRes} (hfits : Possible s (.write r)) (hok : ErrSteady s (.write r)) {b : CopyBuf}
    (hb : speedyCbWrite r (s.cb i) = some b) : (writeDone s i b).Inv := by
  have hbuf : s.pc.buf = some i := by rw [hpc]; rfl
  have hres : (s.cb i).Keeps b ∧ b.eof = (s.cb i).eof ∧
      (i = CB_ERR → s.Waiting → speedyCbCopydone b = false) := by
    by_cases herr : (s.cb i).writeErr = 0
    · obtain ⟨b', hb', hk, heof, hres⟩ := speedyCbWrite_spec (h.wf i) herr (hfits i hbuf)
      obtain rfl : b' = b := Option.some.inj (hb'.symm.trans hb)
      refine ⟨hk, heof, fun hi hw => ?_⟩
      subst hi
      obtain ⟨hno, hcount⟩ := hok hw hbuf
      obtain ⟨herr', hdata⟩ := hres.resolve_left fun ⟨⟨e, he⟩, _⟩ => hno e he
      refine copydone_of_not_empty herr' fun he => ?_
      have hlt := hcount (heof ▸ he)
      have hlen := congrArg List.length hdata
      simp only [List.length_drop, length_data] at hlen
      unfold speedyCbDataLen at hlt ⊢
      omega
    · obtain ⟨b', hb', hk, heof, -⟩ := speedyCbWrite_of_err (h.wf i) herr r
      obtain rfl : b' = b := Option.some.inj (hb'.symm.trans hb)
      refine ⟨hk, heof, fun hi hw => ?_⟩
      subst hi
      exact absurd (of_copydone_false (h.chan hw).2).1 herr
  obtain ⟨hk, heof, hdone⟩ := hres
  refine Doit.Chan.ioDone (h.toChan.buf hk (fun he => heof ▸ he) hdone s.readStopped) fun hr => ?_
  simp only [Bool.and_eq_true] at hr
  have hcan := hr.1.1
  simp only [myCanread, speedyCbCanread, Bool.and_eq_true, Bool.or_eq_true] at hcan
  rcases hcan.2 with ⟨⟨-, he⟩, -⟩ | ⟨-, he⟩ <;> simpa using he

lemma eof_of_myCanread {s : Doit} {i : Fin 3} (h : myCanread s i) : (s.cb i).eof = false := by
  simp only [myCanread, speedyCbCanread, Bool.and_eq_true, Bool.or_eq_true] at h
  rcases h.2 with ⟨⟨-, he⟩, -⟩ | ⟨-, he⟩ <;> simpa using he

lemma Doit.Chan.afterIo {s : Doit} (h : s.Chan) (sig collected child : Bool) :
    (afterIo sig collected child s).Inv := by
  have hfin : (finish s).fds.isOpen = s.fds.isOpen := by
    simp only [finish, fdChange_block_isOpen]
  unfold Copy.afterIo
  dsimp only
  split_ifs
  all_goals first
    | exact Doit.Chan.inv (h.congr rfl rfl hfin rfl rfl) fun i dw => by simp [finish]
    | exact Doit.Chan.inv (h.congr rfl rfl rfl rfl rfl) fun i dw => by simp

/-- One step of `doit`. -/
lemma doitStep_inv {s s' : Doit} {e : Event} (h : s.Inv) (hfits : Possible s e)
    (hok : ErrSteady s e) (hs : doitStep s e = some s') : s'.Inv := by
  cases e with
  | ready rd wr =>
    simp only [doitStep] at hs
    split at hs
    next i hpc =>
      obtain rfl := Option.some.inj hs
      refine ⟨h.toChan.congr rfl rfl rfl rfl rfl, fun j dw hj => ?_⟩
      dsimp only at hj
      split at hj
      next =>
        obtain ⟨rfl, hrd, -⟩ := by simpa using hj
        exact eof_of_myCanread hrd.1
      next => exact absurd hj (nextBuf_ne i j true dw)
    next => simp at hs
  | read junk r =>
    simp only [doitStep] at hs
    split at hs
    next i dw hpc =>
      obtain ⟨b, hb, rfl⟩ := Option.map_eq_some_iff.mp hs
      exact h.read hpc hfits hok hb
    next => simp at hs
  | write r =>
    simp only [doitStep] at hs
    split at hs
    next i hpc =>
      obtain ⟨b, hb, rfl⟩ := Option.map_eq_some_iff.mp hs
      exact h.write hpc hfits hok hb
    next => simp at hs
  | exits sig collected child =>
    simp only [doitStep] at hs
    split at hs
    next =>
      obtain rfl := Option.some.inj hs
      exact h.toChan.afterIo sig collected child
    next => simp at hs
  | poll failed =>
    simp only [doitStep] at hs
    split at hs
    next =>
      obtain rfl := Option.some.inj hs
      exact Doit.Chan.inv (h.toChan.congr rfl rfl rfl rfl rfl) fun i dw => by
        cases failed <;> simp
    next => simp at hs

/-! ### The start -/

lemma launch_isOpen (l : Launch) : l.fds.isOpen = l.opened := by
  simp only [Launch.fds, fdInit_isOpen]

/-- Descriptor 2 can be written to if it was open, or is a socket now. -/
lemma launch_stderr {l : Launch} (h2 : l.isOpen 2 ∨ ∃ i, l.socks i = 2) :
    fdClosed l.fds 2 = false := by
  obtain ⟨h01, h12⟩ := l.sock_lt
  have h0 := l.sock_open 0
  have h1 := l.sock_open 1
  have hs2 := l.sock_open 2
  simp only [fdClosed, Launch.fds, fdInit_noblock, Function.update_apply, h0, h1, hs2, if_true]
  rcases h2 with h2 | ⟨i, hi⟩
  · simp only [h2, if_true]
    split_ifs <;> rfl
  · match i with
    | 0 =>
      rw [if_neg (by omega), if_neg (by omega), if_pos hi.symm]
      rfl
    | 1 =>
      rw [if_neg (by omega), if_pos hi.symm]
      rfl
    | 2 =>
      rw [if_pos hi.symm]
      rfl

lemma launch_wf (l : Launch) (i : Fin 3) : (l.cb i).Wf := by
  match i with
  | 0 =>
    simp only [Launch.cb]
    split <;> exact ⟨circInit_wf (some l.ibuf), Nat.le_max_right ..⟩
  | 1 =>
    simp only [Launch.cb]
    split <;> exact ⟨circInit_wf none, Nat.zero_le _⟩
  | 2 =>
    simp only [Launch.cb]
    split <;> exact ⟨circInit_wf none, Nat.zero_le _⟩

lemma doitSetup_inv {l : Launch} (h2 : l.isOpen 2 ∨ ∃ i, l.socks i = 2) : (doitSetup l).Inv := by
  have hsock := l.sock_lt
  unfold doitSetup
  refine Doit.Chan.inv (.tryClose (.tryClose (.tryClose ⟨launch_wf l, fun i hi => ?_, fun _ => ?_,
    by simp⟩ 0) 1) 2) fun i dw => ?_
  · match i with
    | 0 =>
      simp only [Launch.cb]
      split <;> exact ⟨show 0 < l.socks 2 by omega, show l.socks 0 < l.socks 2 by omega⟩
    | 1 =>
      simp only [Launch.cb]
      split <;> exact ⟨hsock.2, show 1 < l.socks 2 by omega⟩
    | 2 => exact absurd rfl hi
  · refine ⟨?_, ?_⟩
    · simp only [launch_isOpen]
      exact l.sock_open 2
    · simp [Launch.cb, launch_stderr h2, speedyCbCopydone, speedyCbInit]
  · simp only [tryClose]
    split_ifs <;> simp

/-- Until the first byte of stdout or its end the channel stays open, so the answer goes out. -/
theorem cwd_channel_open {l : Launch} (h2 : l.isOpen 2 ∨ ∃ i, l.socks i = 2) {s : Doit}
    (h : ReachOk doitStep (doitSetup l) (fun s e => Possible s e ∧ ErrSteady s e) s) :
    (s.gotStdout = false → (s.cb CB_OUT).eof = false → s.fds.isOpen (s.socks 2)) ∧
    ∀ c o, s.reply = some (c, o) → c ≠ 0 → o = true := by
  have hinv : s.Inv := h.inv (doitSetup_inv h2) fun s e s' _ hs hok hstep =>
    doitStep_inv hs hok.1 hok.2 hstep
  exact ⟨fun hgot hout => (hinv.chan ⟨hgot, hout⟩).1, fun c o hr _ => hinv.replied c o hr⟩

lemma socks_lt : ((0 : Fin 3) : ℕ) + 3 < ((1 : Fin 3) : ℕ) + 3 ∧ ((1 : Fin 3) : ℕ) + 3 < ((2 : Fin 3) : ℕ) + 3 := by
  decide

/-- The frontend with all of the descriptors 0 to 2, or without stderr. -/
def launchOpen (stderr : Bool) : Launch where
  isOpen fd := fd < 2 || fd = 2 && stderr
  inIsTty := false
  bufsizPost := 4
  bufsizGet := 4
  ibuf := ⟨[7], []⟩
  opened fd := fd < 2 || fd = 2 && stderr || 3 ≤ fd && fd ≤ 5
  socks i := i + 3
  still fd h := by simp only [h, Bool.true_or]
  fresh i := by revert i stderr; decide
  sock_open i := by revert i stderr; decide
  sock_lt := socks_lt

/-- All descriptors are open: the backend asks for the cwd, and its question is answered. -/
theorem cwd_channel_open_asked : ∃ s : Doit,
    ((s.gotStdout = false → (s.cb CB_OUT).eof = false → s.fds.isOpen (s.socks 2)) ∧
      ∀ c o, s.reply = some (c, o) → c ≠ 0 → o = true) ∧ s.reply = some (1, true) :=
  ⟨_, @cwd_channel_open (launchOpen true) (.inl rfl) _
    (.step (a := .read (fun _ => 0) (.data [1]))
      (.step (a := .ready true false)
        (.step (a := .ready false false) .init ⟨trivial, fun _ _ => trivial⟩ rfl)
        ⟨trivial, fun _ _ => trivial⟩ rfl)
      ⟨by rintro i ⟨⟩ w ⟨⟩; exact ⟨by decide, by rintro e ⟨⟩; decide⟩, by rintro - ⟨⟩⟩ rfl), rfl⟩

/-- Without stderr the channel is closed before the copying begins, and the answer is lost. -/
theorem cwd_channel_closed :
    (∃ s : Doit, ReachOk doitStep (doitSetup (launchOpen false)) Possible s ∧
      s.gotStdout = false ∧ (s.cb CB_OUT).eof = false ∧ s.fds.isOpen (s.socks 2) = false) ∧
    ∃ s : Doit, ReachOk doitStep (doitSetup (launchOpen false)) Possible s ∧
      s.reply = some (1, false) :=
  ⟨⟨_, .init, rfl, rfl, rfl⟩, _,
    .step (a := .read (fun _ => 0) (.data [1]))
      (.step (a := .ready true false) (.step (a := .ready false false) .init trivial rfl) trivial
        rfl)
      (by rintro i ⟨⟩ w ⟨⟩; exact ⟨by decide, by rintro e ⟨⟩; decide⟩) rfl, rfl⟩

end SpeedyCgi.Copy
