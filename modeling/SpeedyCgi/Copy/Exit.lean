import SpeedyCgi.Copy.Loop

/-!
The copy loop after the backend's exit.

The frontend goes on until both outputs are at their end, or until neither of them has anything for now,
which a read in vain shows; in the second case a child goes on in the background. An output that is at
its end already is not read any more.
-/

namespace SpeedyCgi.Copy

open Function Lib.Lts

variable {l : Launch} {s s' : Doit} {i j : Fin 3} {e : Event}

/-! ### How the loop gets to a wait -/

lemma nextBuf_ne_poll (i : Fin 3) : nextBuf i ≠ .poll := by
  unfold nextBuf
  split <;> simp

/-- The flags are those of `s`, and it is no wait that begins. -/
structure Doit.SameFlags (s s' : Doit) : Prop where
  backendExited : s'.backendExited = s.backendExited
  amChild : s'.amChild = s.amChild
  stopSockReads : s'.stopSockReads = s.stopSockReads
  pc : s'.pc ≠ .poll

lemma ioDone_flags (s : Doit) (i : Fin 3) (doRead doWrite : Bool) :
    s.SameFlags (ioDone s i doRead doWrite) := by
  unfold ioDone
  split
  · exact ⟨rfl, rfl, rfl, by simp⟩
  · unfold tryClose
    split <;> exact ⟨rfl, rfl, rfl, nextBuf_ne_poll i⟩

lemma readDone_flags (s : Doit) (i : Fin 3) (doWrite : Bool) (b : CopyBuf) :
    s.SameFlags (readDone s i doWrite b) := by
  unfold readDone
  dsimp only
  split
  · obtain ⟨hex, hchild, hstop, hpc⟩ := ioDone_flags (firstByte _) i false _
    exact ⟨hex, hchild, hstop, hpc⟩
  · obtain ⟨hex, hchild, hstop, hpc⟩ := ioDone_flags _ i false _
    exact ⟨hex, hchild, hstop, hpc⟩

lemma writeDone_flags (s : Doit) (i : Fin 3) (b : CopyBuf) : s.SameFlags (writeDone s i b) := by
  obtain ⟨hex, hchild, hstop, hpc⟩ := ioDone_flags { s with cb := update s.cb i b } i _ false
  exact ⟨hex, hchild, hstop, hpc⟩

/-- Only behind the reads and writes are the flags changed, and a wait begun. -/
lemma doitStep_flags (h : doitStep s e = some s') :
    (∃ sig collected child, s.pc = .exits ∧ e = .exits sig collected child ∧
      s' = afterIo sig collected child s) ∨
    s.SameFlags s' := by
  cases e with
  | ready rd wr =>
    simp only [doitStep] at h
    split at h
    next i hpc =>
      obtain rfl := Option.some.inj h
      refine .inr ⟨rfl, rfl, rfl, ?_⟩
      dsimp only
      split
      · simp
      · exact nextBuf_ne_poll i
    next => cases h
  | read junk r =>
    simp only [doitStep] at h
    split at h
    next i dw hpc =>
      obtain ⟨b, -, rfl⟩ := Option.map_eq_some_iff.mp h
      exact .inr (readDone_flags s i dw b)
    next => cases h
  | write r =>
    simp only [doitStep] at h
    split at h
    next i hpc =>
      obtain ⟨b, -, rfl⟩ := Option.map_eq_some_iff.mp h
      exact .inr (writeDone_flags s i b)
    next => cases h
  | exits sig collected child =>
    simp only [doitStep] at h
    split at h
    next hpc => exact .inl ⟨sig, collected, child, hpc, rfl, (Option.some.inj h).symm⟩
    next => cases h
  | poll failed =>
    simp only [doitStep] at h
    split at h
    next =>
      obtain rfl := Option.some.inj h
      refine .inr ⟨rfl, rfl, rfl, ?_⟩
      dsimp only
      split <;> simp
    next => cases h

/-- How the flags go together, and what a wait after the exit tells. -/
structure Doit.Exits (s : Doit) : Prop where
  before : s.backendExited = false → s.amChild = false
  stop : s.pc ≠ .done → s.stopSockReads = (s.backendExited && !s.amChild)
  child : s.pc = .poll → s.amChild = true → bothDone s = false
  quiet : s.pc = .poll → s.backendExited = true → speedyCbCanwrite (s.cb CB_OUT) = false →
    speedyCbCanwrite (s.cb CB_ERR) = false → bothDone s = false ∧
      (s.amChild = false → (s.readStopped CB_OUT && s.readStopped CB_ERR) = false)

lemma Doit.Exits.of_finish (h : s.backendExited = false → s.amChild = false) : (finish s).Exits :=
  ⟨h, by simp [finish], by simp [finish], by simp [finish]⟩

lemma Doit.Exits.afterIo (h : s.Exits) (hpc : s.pc = .exits) (sig collected child : Bool) :
    (afterIo sig collected child s).Exits := by
  have hstop := h.stop (by simp [hpc])
  unfold Copy.afterIo
  split
  next hex =>
    split_ifs with hchild hboth hquiet hboth hstopped hfork
    · exact .of_finish h.before
    · exact ⟨h.before, fun _ => hstop, fun _ _ => Bool.eq_false_iff.mpr hboth, fun _ _ _ _ =>
        ⟨Bool.eq_false_iff.mpr hboth, fun hc => by simp [hchild] at hc⟩⟩
    · exact .of_finish h.before
    · -- the child goes on in the background
      exact ⟨fun h => by simp [hex] at h, fun _ => by simp, fun _ _ => Bool.eq_false_iff.mpr hboth,
        fun _ _ _ _ => ⟨Bool.eq_false_iff.mpr hboth, by simp⟩⟩
    · exact .of_finish h.before
    · exact ⟨h.before, fun _ => hstop, fun _ hc => absurd hc hchild, fun _ _ _ _ =>
        ⟨Bool.eq_false_iff.mpr hboth, fun _ => Bool.eq_false_iff.mpr hstopped⟩⟩
    · refine ⟨h.before, fun _ => hstop, fun _ hc => absurd hc hchild, fun _ _ hout herr => ?_⟩
      exact absurd (by simp only [hout, herr, Bool.not_false, Bool.and_self]) hquiet
  next hex =>
    have hchild := h.before (Bool.eq_false_iff.mpr hex)
    dsimp only
    split_ifs with hsig hcollected hboth
    · exact .of_finish fun _ => hchild
    · exact ⟨fun _ => hchild, fun _ => by simp [hcollected, hchild], by simp, by simp⟩
    · exact ⟨fun _ => hchild, fun _ => by simpa [hex, hcollected] using hstop,
        fun _ hc => by simp [hchild] at hc, fun _ hc => absurd hc hcollected⟩
    · exact ⟨h.before, fun _ => hstop, fun _ hc => by simp [hchild] at hc, fun _ hc => absurd hc hex⟩

lemma Doit.Exits.step (h : s.Exits) (hs : doitStep s e = some s') : s'.Exits := by
  rcases doitStep_flags hs with ⟨sig, collected, child, hpc, -, rfl⟩ | hsame
  · exact h.afterIo hpc sig collected child
  · have hdone : s.pc ≠ .done := by
      intro hpc
      cases e <;> simp [doitStep, hpc] at hs
    refine ⟨fun hex => hsame.amChild.trans (h.before (hsame.backendExited ▸ hex)), fun _ => ?_,
      fun hpc => absurd hpc hsame.pc, fun hpc => absurd hpc hsame.pc⟩
    rw [hsame.stopSockReads, hsame.backendExited, hsame.amChild]
    exact h.stop hdone

lemma exits_setup (l : Launch) : (doitSetup l).Exits := by
  unfold doitSetup tryClose
  dsimp only
  split_ifs <;> exact ⟨fun _ => rfl, fun _ => rfl, by simp, by simp⟩

/-! ### What the frontend waits for -/

/-- An output that is not finished, and from which nothing is to be written, is read, but for the reads
that have stopped. -/
lemma myCanread_eq (hi : i ≠ CB_IN) (hmax : 0 < (s.cb i).maxsz) (hdone : myCopydone s i = false)
    (hwrite : speedyCbCanwrite (s.cb i) = false) :
    myCanread s i = !(s.stopSockReads && s.readStopped i) := by
  have hwants : (speedyCbCanread (s.cb i) || !s.gotStdout && i = CB_OUT && !(s.cb i).eof) = true := by
    cases hcb : speedyCbCopydone (s.cb i) with
    | false =>
      obtain ⟨herr, heof⟩ := of_copydone_false hcb
      have hlen : speedyCbDataLen (s.cb i) = 0 := by simpa [speedyCbCanwrite, herr] using hwrite
      have heof : (s.cb i).eof = false := Bool.eq_false_iff.mpr fun h => heof h hlen
      have hfree : speedyCbFreeLen (s.cb i) ≠ 0 := by
        simp only [speedyCbFreeLen, hlen]
        omega
      simp [speedyCbCanread, herr, heof, hfree]
    | true =>
      -- the first byte of stdout is read in any case
      obtain ⟨hgot, rfl, heof⟩ : s.gotStdout = false ∧ i = CB_OUT ∧ (s.cb i).eof = false := by
        simpa [myCopydone, hcb, and_assoc] using hdone
      simp [hgot, heof]
  rw [myCanread, hwants]
  simp [hi]

/-- The output `i` goes on, but has been read in vain since the exit; the output `j` is at its end and has
not been read since. -/
structure Doit.Hangs (s : Doit) (i j : Fin 3) : Prop where
  outputs : i ≠ CB_IN ∧ j ≠ CB_IN ∧ i ≠ j
  exited : s.backendExited = true
  front : s.amChild = false
  goesOn : myCopydone s i = false
  quiet : speedyCbCanwrite (s.cb i) = false
  stopped : s.readStopped i = true
  done : myCopydone s j = true
  unread : s.readStopped j = false

lemma Doit.Hangs.sets (h : s.Hangs i j) (hexits : s.Exits) (hdone : s.pc ≠ .done) {k : Fin 3} (hk : k ≠ CB_IN) :
    myCanread s k = false ∧ speedyCbCanwrite (s.cb k) = false := by
  obtain ⟨hi, hj, hij⟩ := h.outputs
  have hk : k = i ∨ k = j := by
    obtain rfl | rfl | rfl := eq_cb k <;> obtain rfl | rfl | rfl := eq_cb i <;>
      obtain rfl | rfl | rfl := eq_cb j <;> simp at *
  have hstop : s.stopSockReads = true := by simp [hexits.stop hdone, h.exited, h.front]
  rcases hk with rfl | rfl
  · refine ⟨?_, h.quiet⟩
    simp [myCanread, hi, hstop, h.stopped]
  · have hj := h.done
    exact ⟨Bool.eq_false_iff.mpr fun hr => by simp [not_copydone_of_canread hr] at hj,
      Bool.eq_false_iff.mpr fun hw => by simp [not_copydone_of_canwrite hw] at hj⟩

/-- A frontend that waits for neither output, after the exit, hangs. -/
lemma hangs_of_sets (hexits : s.Exits) (hmax : ∀ i, i ≠ CB_IN → 0 < (s.cb i).maxsz) (hpc : s.pc = .poll)
    (hex : s.backendExited = true)
    (h : ∀ i, i ≠ CB_IN → myCanread s i = false ∧ speedyCbCanwrite (s.cb i) = false) :
    ∃ i j, s.Hangs i j := by
  obtain ⟨hr1, hw1⟩ := h CB_OUT (by decide)
  obtain ⟨hr2, hw2⟩ := h CB_ERR (by decide)
  obtain ⟨hboth, hstopped⟩ := hexits.quiet hpc hex hw1 hw2
  have hstop := hexits.stop (by simp [hpc])
  -- what goes on is not read, so its reads have stopped
  have hno (i : Fin 3) (hi : i ≠ CB_IN) (hdone : myCopydone s i = false) :
      s.amChild = false ∧ s.readStopped i = true := by
    have heq := myCanread_eq hi (hmax i hi) hdone (h i hi).2
    simpa [(h i hi).1, hstop, hex] using heq
  cases hd1 : myCopydone s CB_OUT with
  | false =>
    obtain ⟨hchild, hs1⟩ := hno CB_OUT (by decide) hd1
    have hs2 : s.readStopped CB_ERR = false := by simpa [hs1] using hstopped hchild
    cases hd2 : myCopydone s CB_ERR with
    | false => simp [(hno CB_ERR (by decide) hd2).2] at hs2
    | true => exact ⟨CB_OUT, CB_ERR, ⟨by decide, by decide, by decide⟩, hex, hchild, hd1, hw1, hs1, hd2, hs2⟩
  | true =>
    have hd2 : myCopydone s CB_ERR = false := by simpa [bothDone, hd1] using hboth
    obtain ⟨hchild, hs2⟩ := hno CB_ERR (by decide) hd2
    have hs1 : s.readStopped CB_OUT = false := by simpa [hs2] using hstopped hchild
    exact ⟨CB_ERR, CB_OUT, ⟨by decide, by decide, by decide⟩, hex, hchild, hd2, hw2, hs2, hd1, hs1⟩

/-! ### No way out -/

/-- The loop goes on, and serves no output. -/
structure Doit.Idles (s : Doit) (i j : Fin 3) : Prop where
  exits : s.Exits
  hangs : s.Hangs i j
  pc : s.pc ≠ .done ∧ ∀ k doRead doWrite, s.pc = .io k doRead doWrite → k = CB_IN

lemma Doit.Hangs.not_over (h : s.Hangs i j) :
    bothDone s = false ∧ (s.readStopped 1 && s.readStopped 2) = false := by
  obtain ⟨hi, hj, hij⟩ := h.outputs
  have hgoes := h.goesOn
  have hunread := h.unread
  obtain rfl | rfl | rfl := eq_cb i <;> obtain rfl | rfl | rfl := eq_cb j <;>
    simp_all [bothDone]

/-- Only the buffer of stdin and the place in the loop are changed. -/
lemma Doit.Hangs.congr (h : s.Hangs i j) (hcb : ∀ k, k ≠ CB_IN → s'.cb k = s.cb k)
    (hgot : s'.gotStdout = s.gotStdout) (hex : s'.backendExited = s.backendExited)
    (hchild : s'.amChild = s.amChild) (hstop : ∀ k, k ≠ CB_IN → s'.readStopped k = s.readStopped k) :
    s'.Hangs i j := by
  obtain ⟨hi, hj, hij⟩ := h.outputs
  have hdone (k : Fin 3) (hk : k ≠ CB_IN) : myCopydone s' k = myCopydone s k := by
    simp only [myCopydone, hcb k hk, hgot]
  exact ⟨h.outputs, hex.trans h.exited, hchild.trans h.front, (hdone i hi).trans h.goesOn,
    hcb i hi ▸ h.quiet, (hstop i hi).trans h.stopped, (hdone j hj).trans h.done,
    (hstop j hj).trans h.unread⟩

lemma nextBuf_pc (i : Fin 3) :
    nextBuf i ≠ .done ∧ ∀ k doRead doWrite, nextBuf i = .io k doRead doWrite → k = CB_IN :=
  ⟨nextBuf_ne_done i, fun k dr dw h => absurd h (nextBuf_ne i k dr dw)⟩

/-- Behind a read or write of stdin's buffer. -/
lemma Doit.Hangs.ioDone {t : Doit} (h : t.Hangs i j) (hexits : s'.Exits) {doRead doWrite : Bool}
    (hs : s' = ioDone t CB_IN doRead doWrite) : s'.Idles i j ∧ s'.cb = t.cb := by
  subst hs
  obtain ⟨hcb, hgot, hstop, hex, hchild⟩ := ioDone_same t CB_IN doRead doWrite
  refine ⟨⟨hexits, h.congr (fun k _ => by rw [hcb]) hgot hex hchild fun k _ => by rw [hstop], ?_⟩, hcb⟩
  rcases ioDone_pc t CB_IN doRead doWrite with hpc | hpc <;> rw [hpc]
  · exact ⟨by simp, fun k dr dw hk => by cases hk; rfl⟩
  · exact nextBuf_pc CB_IN

lemma readDone_in (s : Doit) (doWrite : Bool) (b : CopyBuf) : ∃ t doWrite', t.cb = update s.cb CB_IN b ∧
    readDone s CB_IN doWrite b = Copy.ioDone t CB_IN false doWrite' ∧ t.gotStdout = s.gotStdout ∧
    t.backendExited = s.backendExited ∧ t.amChild = s.amChild ∧
    ∀ k, k ≠ CB_IN → t.readStopped k = s.readStopped k := by
  unfold readDone
  simp only [show CB_IN ≠ CB_OUT by decide, decide_false, Bool.and_false, Bool.false_and,
    Bool.false_eq_true, if_false]
  refine ⟨_, _, rfl, rfl, rfl, rfl, rfl, fun k hk => ?_⟩
  split
  · rfl
  · exact update_of_ne hk ..

lemma Doit.Idles.step (h : s.Idles i j) (he : e ≠ .poll true) (hs : doitStep s e = some s') :
    s'.Idles i j ∧ ∀ k, k ≠ CB_IN → s'.cb k = s.cb k := by
  have hexits := h.exits.step hs
  cases e with
  | ready rd wr =>
    simp only [doitStep] at hs
    split at hs
    next k hpc =>
      obtain rfl := Option.some.inj hs
      refine ⟨⟨hexits, h.hangs.congr (fun _ _ => rfl) rfl rfl rfl fun _ _ => rfl, ?_⟩, fun _ _ => rfl⟩
      dsimp only
      split
      next hio =>
        refine ⟨by simp, fun k' dr dw hk' => ?_⟩
        obtain rfl : k = k' := by injection hk'
        by_contra hk
        obtain ⟨hr, hw⟩ := h.hangs.sets h.exits h.pc.1 hk
        simp [hr, hw] at hio
      next => exact nextBuf_pc k
    next => cases hs
  | read junk r =>
    simp only [doitStep] at hs
    split at hs
    next k dw hpc =>
      obtain ⟨b, -, rfl⟩ := Option.map_eq_some_iff.mp hs
      obtain rfl := h.pc.2 k true dw hpc
      obtain ⟨t, dw', ht, heq, hgot, hex, hchild, hstop⟩ := readDone_in s dw b
      have hcb (k : Fin 3) (hk : k ≠ CB_IN) : t.cb k = s.cb k := by rw [ht, update_of_ne hk]
      obtain ⟨hidles, hcb'⟩ := (h.hangs.congr hcb hgot hex hchild hstop).ioDone hexits heq
      exact ⟨hidles, fun k hk => (congrFun hcb' k).trans (hcb k hk)⟩
    next => cases hs
  | write r =>
    simp only [doitStep] at hs
    split at hs
    next k hpc =>
      obtain ⟨b, -, rfl⟩ := Option.map_eq_some_iff.mp hs
      obtain rfl := h.pc.2 k false true hpc
      have hcb (k : Fin 3) (hk : k ≠ CB_IN) : update s.cb CB_IN b k = s.cb k := update_of_ne hk ..
      have hh : { s with cb := update s.cb CB_IN b }.Hangs i j :=
        h.hangs.congr hcb rfl rfl rfl fun _ _ => rfl
      obtain ⟨hidles, heq⟩ := hh.ioDone hexits rfl
      exact ⟨hidles, fun k hk => (congrFun heq k).trans (hcb k hk)⟩
    next => cases hs
  | exits sig collected child =>
    simp only [doitStep] at hs
    split at hs
    next hpc =>
      have hset (k : Fin 3) (hk : k ≠ CB_IN) := h.hangs.sets h.exits h.pc.1 hk
      have hquiet : (!speedyCbCanwrite (s.cb CB_OUT) && !speedyCbCanwrite (s.cb CB_ERR)) = true := by
        simp [(hset CB_OUT (by decide)).2, (hset CB_ERR (by decide)).2]
      obtain ⟨hboth, hstopped⟩ := h.hangs.not_over
      have heq : afterIo sig collected child s = { s with pc := .poll } := by
        simp only [afterIo, h.hangs.exited, h.hangs.front, hquiet, hboth, hstopped, if_true, if_false,
          Bool.false_eq_true]
      rw [heq] at hs
      obtain rfl := Option.some.inj hs
      exact ⟨⟨hexits, h.hangs.congr (fun _ _ => rfl) rfl rfl rfl fun _ _ => rfl, by simp, by simp⟩,
        fun _ _ => rfl⟩
    next => cases hs
  | poll failed =>
    simp only [doitStep] at hs
    split at hs
    next =>
      obtain rfl := Option.some.inj hs
      obtain rfl : failed = false := by simpa using he
      exact ⟨⟨hexits, h.hangs.congr (fun _ _ => rfl) rfl rfl rfl fun _ _ => rfl, by simp, by simp⟩,
        fun _ _ => rfl⟩
    next => cases hs

lemma Doit.Of.pos (h : s.Of l) (hget : 0 < l.bufsizGet) (hi : i ≠ CB_IN) : 0 < (s.cb i).maxsz := by
  rw [(h i).2.2]
  obtain rfl | rfl | rfl := eq_cb i
  · exact absurd rfl hi
  · rwa [Relay.launch_maxsz]
  · simp only [Launch.cb]
    split <;> exact Nat.succ_pos 511

lemma reach_exits (h : Reach doitStep (doitSetup l) s) : s.Exits ∧ s.Of l :=
  h.inv (P := fun s => s.Exits ∧ s.Of l)
    ⟨exits_setup l, fun _ => (Relay.setup_same l).1 ▸ ⟨rfl, rfl, rfl⟩⟩
    fun _ _ _ _ h _ hs => ⟨h.1.step hs, fun i => (h.2 i).trans (doitStep_sameSetup hs i)⟩

/-- When the backend has exited the frontend waits for one of the outputs, unless one of them is at its end
without a read since the exit and the other has been read in vain. Then it is not left any more, whatever
comes, and what comes is not read. -/
theorem waits_or_hangs (hget : 0 < l.bufsizGet) (h : Reach doitStep (doitSetup l) s) (hpc : s.pc = .poll)
    (hex : s.backendExited = true) :
    ((∀ i, i ≠ CB_IN → readSet s i = [] ∧ writeSet s i = []) ↔ ∃ i j, s.Hangs i j) ∧
    ∀ i j s', s.Hangs i j → ReachOk doitStep s (fun _ e => e ≠ .poll true) s' →
      s'.pc ≠ .done ∧ s'.Hangs i j ∧ s'.cb i = s.cb i ∧ s'.cb j = s.cb j := by
  obtain ⟨hexits, hof⟩ := reach_exits h
  have hset (i : Fin 3) : readSet s i = [] ∧ writeSet s i = [] ↔
      myCanread s i = false ∧ speedyCbCanwrite (s.cb i) = false := by
    simp [readSet, writeSet]
  refine ⟨⟨fun hno => ?_, fun ⟨i, j, hh⟩ k hk => (hset k).mpr (hh.sets hexits (by simp [hpc]) hk)⟩,
    fun i j s' hh hr => ?_⟩
  · exact hangs_of_sets hexits (fun i hi => hof.pos hget hi) hpc hex fun i hi => (hset i).mp (hno i hi)
  · obtain ⟨hi, hj, -⟩ := hh.outputs
    have hidles : s.Idles i j := ⟨hexits, hh, by simp [hpc], by simp [hpc]⟩
    obtain ⟨h', hcb⟩ : s'.Idles i j ∧ ∀ k, k ≠ CB_IN → s'.cb k = s.cb k :=
      hr.inv (P := fun t => t.Idles i j ∧ ∀ k, k ≠ CB_IN → t.cb k = s.cb k) ⟨hidles, fun _ _ => rfl⟩
        fun t e t' _ ht he hs => ⟨(ht.1.step he hs).1, fun k hk => ((ht.1.step he hs).2 k hk).trans (ht.2 k hk)⟩
    exact ⟨h'.pc.1, h'.hangs, hcb i hi, hcb j hj⟩

/-- The backend has closed its stderr before its exit is noticed, but something that it has started still
has its stdout. -/
def stderrFirst : Doit :=
  (run doitStep (doitSetup (launchOpen true))
    [.ready false false, .ready true false, .read (fun _ => 0) (.data [0]), .ready true false,
      .read (fun _ => 0) .end, .exits true true true, .ready false false, .ready true false,
      .read (fun _ => 0) .notReady, .ready false false, .exits false false true]).get (by decide +kernel)

lemma stderrFirst_hangs : stderrFirst.Hangs CB_OUT CB_ERR :=
  ⟨by decide, by decide +kernel, by decide +kernel, by decide +kernel, by decide +kernel,
    by decide +kernel, by decide +kernel, by decide +kernel⟩

theorem waits_or_hangs_stdout :
    ((∀ i, i ≠ CB_IN → readSet stderrFirst i = [] ∧ writeSet stderrFirst i = []) ↔
      ∃ i j, stderrFirst.Hangs i j) ∧
    ∀ s', ReachOk doitStep stderrFirst (fun _ e => e ≠ .poll true) s' →
      s'.pc ≠ .done ∧ s'.Hangs CB_OUT CB_ERR := by
  have hreach : Reach doitStep (doitSetup (launchOpen true)) stderrFirst :=
    Reach.run .init (Option.some_get _).symm
  have hpc : stderrFirst.pc = .poll := by decide +kernel
  obtain ⟨hiff, hever⟩ := waits_or_hangs (l := launchOpen true) (by decide) hreach hpc stderrFirst_hangs.exited
  refine ⟨hiff, fun s' hs' => ?_⟩
  obtain ⟨hdone, hhangs, -⟩ := hever CB_OUT CB_ERR s' stderrFirst_hangs hs'
  exact ⟨hdone, hhangs⟩

/-! ### Outputs that are open -/

lemma dataLen_realloc {c c' : CircBuf} {buf : Bytes} {n : ℕ} (h : speedyCircRealloc c buf n = some c') :
    c'.dataLen = c.dataLen := by
  unfold speedyCircRealloc at h
  dsimp only at h
  split at h
  · split at h
    · split at h
      · obtain ⟨_, _, h⟩ := Option.bind_eq_some_iff.mp h
        exact Option.some.inj h ▸ rfl
      · split at h
        · obtain ⟨_, _, h⟩ := Option.bind_eq_some_iff.mp h
          exact Option.some.inj h ▸ rfl
        · obtain ⟨_, _, h⟩ := Option.bind_eq_some_iff.mp h
          obtain ⟨_, _, h⟩ := Option.bind_eq_some_iff.mp h
          exact Option.some.inj h ▸ rfl
        · exact Option.some.inj h ▸ rfl
    · exact Option.some.inj h ▸ rfl
  · exact Option.some.inj h ▸ rfl

/-- The end and the write error of a buffer are those of `b`. -/
structure CopyBuf.SameEnd (b b' : CopyBuf) : Prop where
  eof : b'.eof = b.eof
  writeErr : b'.writeErr = b.writeErr

lemma free_same {b b' : CopyBuf} (h : speedyCbFree b = some b') :
    b.SameEnd b' ∧ speedyCbDataLen b' = speedyCbDataLen b := by
  unfold speedyCbFree at h
  split at h
  · exact Option.some.inj h ▸ ⟨⟨rfl, rfl⟩, rfl⟩
  · obtain ⟨circ, hcirc, rfl⟩ := Option.map_eq_some_iff.mp h
    exact ⟨⟨rfl, rfl⟩, dataLen_realloc hcirc⟩

lemma enlarge_same {junk : ℕ → UInt8} {b b' : CopyBuf} (h : enlarge junk b = some b') :
    b.SameEnd b' ∧ speedyCbDataLen b' = speedyCbDataLen b := by
  unfold enlarge at h
  dsimp only at h
  split at h
  · obtain ⟨circ, hcirc, rfl⟩ := Option.map_eq_some_iff.mp h
    exact ⟨⟨rfl, rfl⟩, dataLen_realloc hcirc⟩
  · exact Option.some.inj h ▸ ⟨⟨rfl, rfl⟩, rfl⟩

/-- A read that has brought something is no end. -/
lemma read_same {junk : ℕ → UInt8} {r : ReadRes} {b b' : CopyBuf} (h : speedyCbRead junk r b = some b')
    (hlt : speedyCbDataLen b < speedyCbDataLen b') : b.SameEnd b' := by
  unfold speedyCbRead at h
  split at h
  · obtain ⟨d, hd, h⟩ := Option.bind_eq_some_iff.mp h
    obtain ⟨hsame, hlen⟩ := enlarge_same hd
    have hend (h : (if speedyCbDataLen (speedyCbSeteof d) = 0 then speedyCbFree (speedyCbSeteof d)
        else some (speedyCbSeteof d)) = some b') : speedyCbDataLen b' = speedyCbDataLen b := by
      split at h
      · exact (free_same h).2.trans hlen
      · exact Option.some.inj h ▸ hlen
    cases r with
    | data w =>
      obtain ⟨buf, -, h⟩ := Option.bind_eq_some_iff.mp h
      exact Option.some.inj h ▸ ⟨hsame.eof, hsame.writeErr⟩
    | notReady => exact Option.some.inj h ▸ hsame
    | «end» => exact absurd (hend h) (by omega)
    | error => exact absurd (hend h) (by omega)
  · exact Option.some.inj h ▸ ⟨rfl, rfl⟩

lemma write_same {r : WriteRes} {b b' : CopyBuf} (h : speedyCbWrite r b = some b')
    (hr : ∀ errno, r ≠ .error errno) : b.SameEnd b' := by
  have hwritten {n : Int} {d : CopyBuf} (hd : b.SameEnd d) (h : written n d = some b') : b.SameEnd b' := by
    simp only [written] at h
    split at h
    · split at h
      · obtain ⟨hsame, -⟩ := free_same h
        exact ⟨hsame.eof.trans hd.eof, hsame.writeErr.trans hd.writeErr⟩
      · exact Option.some.inj h ▸ ⟨hd.eof, hd.writeErr⟩
    · exact Option.some.inj h ▸ hd
  refine hwritten (d := (if b.writeErr = 0 then writeResult r b else (0, b)).2) ?_ h
  split
  · cases r with
    | took n => exact ⟨rfl, rfl⟩
    | notReady => exact ⟨rfl, rfl⟩
    | error errno => exact absurd rfl (hr errno)
  · exact ⟨rfl, rfl⟩

lemma shift_same (b : CopyBuf) : b.SameEnd (speedyCbShift b).2 := by
  unfold speedyCbShift
  split <;> exact ⟨rfl, rfl⟩

/-- No write to an output fails. -/
def Writable (s : Doit) (e : Event) : Prop :=
  ∀ i errno, i ≠ CB_IN → s.pc.buf = some i → e ≠ .write (.error errno)

/-- What an output has to be, since the exit, if it has not been read in vain. -/
def Doit.Opened (s : Doit) : Prop :=
  ∀ j, j ≠ CB_IN → s.readStopped j = false → (s.cb j).eof = false ∧ (s.cb j).writeErr = 0

lemma Doit.Opened.ioDone {t : Doit} {b : CopyBuf} (h : s.Opened) (hcb : t.cb = update s.cb i b)
    (hstop : ∀ j, j ≠ CB_IN → t.readStopped j = false →
      s.readStopped j = false ∧ (j = i → (s.cb i).SameEnd b)) (doRead doWrite : Bool) :
    (ioDone t i doRead doWrite).Opened := by
  obtain ⟨hcb', -, hst, -, -⟩ := ioDone_same t i doRead doWrite
  intro j hj hs
  obtain ⟨hs, hend⟩ := hstop j hj (hst ▸ hs)
  obtain ⟨heof, herr⟩ := h j hj hs
  rw [hcb', hcb]
  by_cases hij : j = i
  · subst hij
    rw [update_self]
    exact ⟨(hend rfl).eof.trans heof, (hend rfl).writeErr.trans herr⟩
  · rw [update_of_ne hij]
    exact ⟨heof, herr⟩

lemma Doit.Opened.readDone {junk : ℕ → UInt8} {r : ReadRes} {b : CopyBuf} (h : s.Opened)
    (hb : speedyCbRead junk r (s.cb i) = some b) (doWrite : Bool) : (readDone s i doWrite b).Opened := by
  have hstop (c : CopyBuf) (hc : b.SameEnd c) (j : Fin 3)
      (hs : (if decide (speedyCbDataLen b > speedyCbDataLen (s.cb i)) = true then s.readStopped
        else update s.readStopped i true) j = false) :
      s.readStopped j = false ∧ (j = i → (s.cb i).SameEnd c) := by
    split at hs
    next hlt =>
      have hsame := read_same hb (of_decide_eq_true hlt)
      exact ⟨hs, fun _ => ⟨hc.eof.trans hsame.eof, hc.writeErr.trans hsame.writeErr⟩⟩
    next =>
      -- this read was in vain
      by_cases hij : j = i
      · simp [hij] at hs
      · exact ⟨by simpa [hij] using hs, fun h => absurd h hij⟩
  unfold Copy.readDone
  dsimp only
  split
  next hfirst =>
    obtain rfl : i = CB_OUT := by
      simp only [Bool.and_eq_true, decide_eq_true_eq] at hfirst
      exact hfirst.1.2
    exact h.ioDone (b := (speedyCbShift b).2) (by simp [firstByte]) (fun j _ => hstop _ (shift_same b) j) _ _
  next => exact h.ioDone (b := b) rfl (fun j _ => hstop b ⟨rfl, rfl⟩ j) _ _

lemma Doit.Opened.afterIo (h : s.Opened) (hex : s.backendExited = true) (sig collected child : Bool) :
    (afterIo sig collected child s).Opened := by
  simp only [Copy.afterIo, hex, if_true]
  split_ifs <;> exact h

lemma Doit.Opened.step (h : s.Opened) (hex : s.backendExited = true) (he : Writable s e)
    (hs : doitStep s e = some s') : s'.Opened := by
  cases e with
  | ready rd wr =>
    simp only [doitStep] at hs
    split at hs
    next => exact Option.some.inj hs ▸ h
    next => cases hs
  | read junk r =>
    simp only [doitStep] at hs
    split at hs
    next i dw hpc =>
      obtain ⟨b, hb, rfl⟩ := Option.map_eq_some_iff.mp hs
      exact h.readDone hb dw
    next => cases hs
  | write r =>
    simp only [doitStep] at hs
    split at hs
    next i hpc =>
      obtain ⟨b, hb, rfl⟩ := Option.map_eq_some_iff.mp hs
      change (Copy.ioDone { s with cb := update s.cb i b } i _ false).Opened
      refine h.ioDone (t := { s with cb := update s.cb i b }) rfl (fun j hj hst => ⟨hst, ?_⟩) _ _
      rintro rfl
      exact write_same hb fun errno hr => he j errno hj (by rw [hpc]; rfl) (by rw [hr])
    next => cases hs
  | exits sig collected child =>
    simp only [doitStep] at hs
    split at hs
    next => exact Option.some.inj hs ▸ h.afterIo hex sig collected child
    next => cases hs
  | poll failed =>
    simp only [doitStep] at hs
    split at hs
    next => exact Option.some.inj hs ▸ h
    next => cases hs

lemma doitStep_exited (hex : s.backendExited = true) (hs : doitStep s e = some s') :
    s'.backendExited = true := by
  rcases doitStep_flags hs with ⟨sig, collected, child, -, -, rfl⟩ | hsame
  · simp only [afterIo, hex, if_true]
    split_ifs <;> first | exact hex | rfl
  · exact hsame.backendExited.trans hex

/-- If both outputs are open when the exit is noticed, and no write to them fails, the frontend does not
hang, however long they stay open. -/
theorem open_never_hangs {child : Bool} {t : Doit} (hex : s.backendExited = false)
    (hopen : ∀ i, i ≠ CB_IN → (s.cb i).eof = false ∧ (s.cb i).writeErr = 0)
    (ht : doitStep s (.exits true true child) = some t) (h : ReachOk doitStep t Writable s') :
    ¬∃ i j, s'.Hangs i j := by
  have ht' : t.cb = s.cb ∧ t.backendExited = true := by
    simp only [doitStep] at ht
    split at ht
    next =>
      obtain rfl := Option.some.inj ht
      simp only [afterIo, hex, Bool.false_eq_true, if_false, if_true]
      split_ifs <;> exact ⟨rfl, rfl⟩
    next => cases ht
  have hinv : s'.Opened ∧ s'.backendExited = true :=
    h.inv (P := fun s => s.Opened ∧ s.backendExited = true) ⟨fun j hj _ => ht'.1 ▸ hopen j hj, ht'.2⟩
      fun a e b _ ha he hs => ⟨ha.1.step ha.2 he hs, doitStep_exited ha.2 hs⟩
  rintro ⟨i, j, hh⟩
  obtain ⟨heof, herr⟩ := hinv.1 j hh.outputs.2.1 hh.unread
  have hdone := hh.done
  simp [myCopydone, speedyCbCopydone, heof, herr] at hdone

def Event.isWrite : Event → Bool
  | .write _ => true
  | _ => false

lemma writable_of_not_isWrite (h : (!e.isWrite) = true) : Writable s e := by
  rintro i errno - - rfl
  cases h

/-- The exit is noticed while something still has both outputs; the first bytes have come. -/
def bothOpen : Doit :=
  (run doitStep (doitSetup (launchOpen true))
    [.ready false false, .ready true false, .read (fun _ => 0) (.data [0]), .ready false false]).get
      (by decide +kernel)

theorem open_never_hangs_background : ∃ t s', doitStep bothOpen (.exits true true true) = some t ∧
    ReachOk doitStep t Writable s' ∧ (¬∃ i j, s'.Hangs i j) ∧ s'.amChild = true := by
  have hex : bothOpen.backendExited = false := by decide +kernel
  have hopen : ∀ i, i ≠ CB_IN → (bothOpen.cb i).eof = false ∧ (bothOpen.cb i).writeErr = 0 := by
    decide +kernel
  obtain ⟨t, ht, hrun⟩ := Option.bind_eq_some_iff.mp
    (show (doitStep bothOpen (.exits true true true)).bind (fun t =>
      (runOk doitStep (fun _ e => !e.isWrite) t [.ready false false, .ready true false,
        .read (fun _ => 0) .notReady, .ready true false, .read (fun _ => 0) .notReady,
        .exits false false true]).map Doit.amChild) = some true by decide +kernel)
  obtain ⟨s', hs', hchild⟩ := exists_reachOk _ _ hrun
  have hreach : ReachOk doitStep t Writable s' := hs'.mono fun _ _ h => writable_of_not_isWrite h
  exact ⟨t, s', ht, hreach, open_never_hangs hex hopen ht hreach, hchild⟩

end SpeedyCgi.Copy
