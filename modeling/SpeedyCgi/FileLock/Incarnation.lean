import SpeedyCgi.FileLock.Atomicity

/-!
Slot numbers and incarnations.

A process that keeps slot numbers at `FS_HAVESLOTS` or above has the `create_time` of their
incarnation in `file_create_time`, and `file_lock` compares it. Below `FS_HAVESLOTS` nothing is
compared: the copy loop of `doit` goes back to `FS_OPEN` after every poll with `fslotnum` still
in use, and the child of `start_child` enters `speedy_perl_run` at `FS_CLOSED` with `gslotnum`
and `bslotnum`. These two rely on the file not being removed meanwhile.
-/

namespace SpeedyCgi.FileLock

open Function Lib.Lts

variable {C : Type*} {zero : C} {noSlots : C → Bool} {w w' : World C} {p q : Pid} {P P' Q : Proc}
  {n n' : Inode C} {i j : Inc} {now : ℕ}

/-- The slot numbers used under a lock come from the incarnation that is locked. -/
def SlotsCurrent (w : World C) : Prop := ∀ a ∈ w.acquired, ∀ j, a.used = some j → j = a.inc

/-! ### The condition -/

/-- A time of day given to a new file is not that of another incarnation. -/
def fresh (w : World C) : Act C → Bool
  | .step p now =>
    (w.proc p).all fun P => P.fd.all fun i =>
      P.pc ≠ .stamp || (w.inode i).createTime ≠ 0 ||
        (List.range w.next).all fun j => (w.inode j).createTime ≠ now
  | _ => true

/-- The next access of `p` takes the file state below `FS_HAVESLOTS` with slot numbers of `j`
still in use. -/
def Proc.Drops (P : Proc) (j : Inc) : Prop :=
  P.goal.keeps = true ∧ P.target.low = true ∧
    (P.pc = .shut ∧ P.slots = some j ∨
      P.pc = .unlock ∧ P.target ≠ .closed ∧ P.slots.or P.fd = some j)

/-- No two incarnations get one `create_time`; a process only goes below `FS_HAVESLOTS` with
slot numbers in use while their incarnation is linked; and the name is not unlinked while a
process uses slot numbers of the incarnation there below `FS_HAVESLOTS`. -/
structure Undisturbed (w : World C) (a : Act C) : Prop where
  fresh : fresh w a = true
  drop : ∀ p now P j, a = .step p now → w.proc p = some P → P.Drops j → w.dir = some j
  unlink : ∀ p now P s j, a = .step p now → w.proc p = some P → P.pc = .unlink s →
    w.dir = some j → ∀ q Q, w.proc q = some Q → Q.slots = some j → Q.curState.low = false

/-! ### The invariant -/

/-- What a process knows about `create_time` at each access. -/
def TimeStage (P : Proc) (n : Inode C) : Prop :=
  match P.pc with
  | .compare | .unlink .time | .mark .time => n.createTime ≠ 0
  | .owner | .unlink .owner | .mark .owner | .removed =>
    n.createTime ≠ 0 ∧ (P.fileCreateTime = n.createTime ∨ n.fileRemoved = true)
  | .own | .wait _ | .empty | .unlink .close | .mark .close | .clear | .unlock =>
    n.createTime ≠ 0 ∧ P.fileCreateTime = n.createTime
  | .idle => P.fileLocked = true → n.createTime ≠ 0 ∧ P.fileCreateTime = n.createTime
  | _ => True

structure TimeInv (w : World C) (P : Proc) : Prop where
  set : ∀ j, P.slots = some j → (w.inode j).createTime ≠ 0
  same : ∀ j, P.slots = some j → P.curState.low = false → P.fileCreateTime = (w.inode j).createTime
  low : ∀ j, P.slots = some j → P.curState.low = true →
    w.dir = some j ∧ (P.fd = none ∨ P.fd = some j)
  stage : ∀ i, P.fd = some i → TimeStage P (w.inode i)
  /-- A program that keeps slot numbers has some, and has them already when it goes to
  `FS_CLOSED`. -/
  kept : P.client.keeps = true ∨ P.goal.keeps = true ∧ P.target = .closed → P.slots ≠ none

structure IncInv (w : World C) : Prop where
  procs : ∀ p P, w.proc p = some P → TimeInv w P
  unborn : ∀ i, w.next ≤ i → (w.inode i).createTime = 0
  distinct : ∀ i j, (w.inode i).createTime ≠ 0 → (w.inode i).createTime = (w.inode j).createTime →
    i = j
  current : SlotsCurrent w

lemma TimeStage.of_not_holds (h : ¬ P.Holds) : TimeStage P n := by
  unfold Proc.Holds at h
  unfold TimeStage
  cases hpc : P.pc <;> simp_all [Pc.holding]

lemma TimeStage.same (h : TimeStage P n) (hs : n'.SameLock n) : TimeStage P n' := by
  unfold TimeStage at h ⊢
  rw [hs.createTime, hs.fileRemoved]
  exact h

/-- The file a process has locked is the one its slot numbers come from. -/
lemma IncInv.fd_eq (h : IncInv w) (hp : w.proc p = some P) (hj : P.slots = some j)
    (hi : P.fd = some i) (ht : (w.inode i).createTime ≠ 0)
    (hc : P.fileCreateTime = (w.inode i).createTime) : i = j := by
  have hP := h.procs p P hp
  cases hl : P.curState.low with
  | true =>
    obtain hfd | hfd := (hP.low j hj hl).2 <;> simp_all
  | false => exact h.distinct i j ht (hc ▸ hP.same j hj hl)

lemma Access.timeStage (h : Access noSlots p P n now P' n') (hst : TimeStage P n) :
    TimeStage P' n' := by
  cases h <;> (try cases ‹Site›) <;> simp_all [Proc.finish, TimeStage, Site.back]

/-- What a process knows about `create_time` survives every step that changes neither its file,
while it holds it, nor the name, while it depends on it. -/
lemma TimeInv.frame (h : TimeInv w Q)
    (hct : ∀ j, (w.inode j).createTime ≠ 0 → (w'.inode j).createTime = (w.inode j).createTime)
    (hdir : ∀ j, Q.slots = some j → Q.curState.low = true → w.dir = some j → w'.dir = some j)
    (hi : ∀ j, Q.fd = some j → Q.Holds → (w'.inode j).SameLock (w.inode j)) : TimeInv w' Q where
  set j hj := by rw [hct j (h.set j hj)]; exact h.set j hj
  same j hj hl := by rw [hct j (h.set j hj)]; exact h.same j hj hl
  low j hj hl := ⟨hdir j hj hl (h.low j hj hl).1, (h.low j hj hl).2⟩
  stage j hj := by
    by_cases hh : Q.Holds
    · exact (h.stage j hj).same (hi j hj hh)
    · exact .of_not_holds hh
  kept := h.kept

/-- A step of the process itself that leaves its slot numbers and its file state alone. -/
lemma TimeInv.move (h : TimeInv w P) (hs : P'.slots = P.slots) (hc : P'.curState = P.curState)
    (hk : P'.client.keeps = true ∨ P'.goal.keeps = true ∧ P'.target = .closed → P.slots ≠ none)
    (hf : P'.fileCreateTime = P.fileCreateTime ∨ P.curState.low = true)
    (hfd : P'.fd = P.fd ∨ P'.fd = none)
    (hct : ∀ j, (w.inode j).createTime ≠ 0 → (w'.inode j).createTime = (w.inode j).createTime)
    (hdir : ∀ j, P.slots = some j → P.curState.low = true → w.dir = some j → w'.dir = some j)
    (hst : ∀ i, P'.fd = some i → TimeStage P' (w'.inode i)) : TimeInv w' P' where
  set j hj := by rw [hct j (h.set j (hs ▸ hj))]; exact h.set j (hs ▸ hj)
  same j hj hl := by
    rw [hct j (h.set j (hs ▸ hj))]
    rcases hf with hf | hf
    · exact hf.trans (h.same j (hs ▸ hj) (hc ▸ hl))
    · simp_all
  low j hj hl := by
    have := h.low j (hs ▸ hj) (hc ▸ hl)
    refine ⟨hdir j (hs ▸ hj) (hc ▸ hl) this.1, ?_⟩
    rcases hfd with hfd | hfd
    · rw [hfd]; exact this.2
    · exact .inl hfd
  stage := hst
  kept hk' := hs ▸ hk hk'

lemma IncInv.setProc (h : IncInv w) (hP : TimeInv w P') : IncInv (w.setProc p P') where
  procs q Q hq := by
    have hw : ∀ R, TimeInv w R → TimeInv (w.setProc p P') R := fun R hR =>
      hR.frame (fun _ _ => rfl) (fun _ _ _ hd => hd) fun _ _ _ => .rfl' _
    rw [World.setProc_proc] at hq
    split at hq
    · obtain rfl : P' = Q := by simpa using hq
      exact hw _ hP
    · exact hw _ (h.procs q Q hq)
  unborn := h.unborn
  distinct := h.distinct
  current := h.current

lemma inc_init : IncInv (init zero) where
  procs := by simp [init]
  unborn := by simp [init, freshInode]
  distinct := by simp [init, freshInode]
  current := by simp [init, SlotsCurrent]

lemma inc_exit (h : IncInv w) (hw : Inv w) : IncInv (w.exit p) := by
  have hct : ∀ j, ((w.exit p).inode j).createTime = (w.inode j).createTime := by
    intro j; rw [World.exit_inode]; split <;> rfl
  refine ⟨fun q Q hq => ?_, fun i hi => by rw [hct]; exact h.unborn i hi, fun i j => ?_, h.current⟩
  · obtain ⟨hne, hq⟩ : q ≠ p ∧ w.proc q = some Q := by simpa using hq
    refine (h.procs q Q hq).frame (fun j _ => hct j) (fun _ _ _ hd => hd) fun j hj hh => ?_
    have hold := (hw.procs q Q hq).holder j hj hh
    rw [World.exit_inode, if_neg (by simp_all)]
    exact .rfl' _
  · rw [hct, hct]; exact h.distinct i j

variable (zero) in
lemma inc_openFile (h : IncInv w) (hw : Inv w) : IncInv (openFile zero w).1 ∧
    (openFile zero w).1.proc = w.proc ∧ (openFile zero w).1.dir = some (openFile zero w).2 := by
  unfold openFile
  cases hd : w.dir with
  | some i => exact ⟨h, rfl, hd⟩
  | none =>
    have hct : ∀ j, ((w.setInode w.next (freshInode zero)).inode j).createTime =
        (w.inode j).createTime := by
      intro j
      rw [World.setInode_inode]
      split
      · subst j; simp [freshInode, h.unborn w.next (Nat.le_refl _)]
      · rfl
    refine ⟨⟨fun q Q hq => ?_, fun i hi => ?_, fun i j => ?_, h.current⟩, rfl, rfl⟩
    · refine (h.procs q Q hq).frame (fun j _ => hct j) (fun j _ _ hj => ?_) fun j hj _ => ?_
      · simp [hd] at hj
      · have hlt := (hw.procs q Q hq).fdLt j hj
        change ((w.setInode w.next (freshInode zero)).inode j).SameLock _
        rw [World.setInode_inode, if_neg (Nat.ne_of_lt hlt)]
        exact .rfl' _
    · exact (hct i).trans (h.unborn i (Nat.le_of_succ_le hi))
    · change ((w.setInode w.next (freshInode zero)).inode i).createTime ≠ 0 →
        ((w.setInode w.next (freshInode zero)).inode i).createTime =
          ((w.setInode w.next (freshInode zero)).inode j).createTime → i = j
      rw [hct, hct]
      exact h.distinct i j

/-- An access under the lock. -/
lemma inc_access (h : IncInv w) (hw : Inv w) (hp : w.proc p = some P) (hfd : P.fd = some i)
    (hok : Undisturbed w (.step p now)) (ha : Access noSlots p P (w.inode i) now P' n') :
    IncInv (((w.record P i).setInode i n').setProc p P') := by
  have hP := h.procs p P hp
  have hst := hP.stage i hfd
  have hshape := (hw.procs p P hp).shape
  have hin : ∀ j, (((w.record P i).setInode i n').setProc p P').inode j =
      if j = i then n' else w.inode j := by intro j; simp
  -- `create_time` is stored once
  have htime : n'.createTime = (w.inode i).createTime ∨
      (w.inode i).createTime = 0 ∧ n'.createTime = now ∧ now ≠ 0 ∧ P.pc = .stamp := by
    cases ha <;> simp_all
  have hct : ∀ j, (w.inode j).createTime ≠ 0 →
      ((((w.record P i).setInode i n').setProc p P').inode j).createTime =
        (w.inode j).createTime := by
    intro j hj
    rw [hin]
    split
    · subst j
      rcases htime with ht | ⟨ht, -⟩
      · exact ht
      · exact absurd ht hj
    · rfl
  -- the name is not taken from those who depend on it
  have hdir : ∀ q Q j, w.proc q = some Q → Q.slots = some j → Q.curState.low = true →
      w.dir = some j → (((w.record P i).setInode i n').setProc p P').dir = some j := by
    intro q Q j hq hj hl hd
    simp only [World.setProc_dir, World.setInode_dir]
    unfold World.record
    split
    · rename_i s hpc
      have := hok.unlink p now P s j rfl hp hpc hd q Q hq hj
      simp_all
    · exact hd
    · exact hd
  -- a process that has compared `create_time` has its own incarnation locked
  have hown : ∀ j, (P.slots.or (some i)) = some j → (w.inode i).createTime ≠ 0 →
      P.fileCreateTime = (w.inode i).createTime → i = j := by
    intro j hj h0 hc
    cases hs : P.slots with
    | none => simpa [hs] using hj
    | some k =>
      obtain rfl : k = j := by simpa [hs] using hj
      exact h.fd_eq hp hs hfd h0 hc
  have hmove : P'.slots = P.slots → P'.curState = P.curState → P'.client = P.client →
      P'.goal = P.goal → P'.target = P.target →
      (P'.fileCreateTime = P.fileCreateTime ∨ P.curState.low = true) →
      (P'.fd = P.fd ∨ P'.fd = none) → TimeInv (((w.record P i).setInode i n').setProc p P') P' := by
    intro hs hc hcl hg ht hf hfd'
    refine hP.move hs hc (by rw [hcl, hg, ht]; exact hP.kept) hf hfd' hct (fun j hj hl hd => hdir p P j hp hj hl hd) fun k hk => ?_
    obtain rfl : i = k := by
      rcases hfd' with hf' | hf' <;> simp_all
    rw [hin, if_pos rfl]
    exact ha.timeStage hst
  have hproc : TimeInv (((w.record P i).setInode i n').setProc p P') P' := by
    cases ha with
    | copy hpc hlow =>
      rcases hlow with h0 | hlow
      · refine ⟨fun j hj => ?_, fun j hj hl => ?_, fun j hj hl => ?_, fun k hk => ?_,
          hP.kept⟩
        · rw [hct j (hP.set j hj)]; exact hP.set j hj
        · -- slot numbers at `FS_HAVESLOTS` come with a copy of `create_time`
          exact absurd (h0 ▸ (hP.same j hj hl).symm) (hP.set j hj)
        · exact ⟨hdir p P j hp hj hl (hP.low j hj hl).1, (hP.low j hj hl).2⟩
        · obtain rfl : i = k := by simpa [hfd] using hk
          rw [hin, if_pos rfl]
          simp_all [TimeStage]
      · exact hmove rfl rfl rfl rfl rfl (.inr hlow) (.inl rfl)
    | acquire hpc ht =>
      have hs : (w.inode i).createTime ≠ 0 ∧ P.fileCreateTime = (w.inode i).createTime := by
        simpa [TimeStage, hpc] using hst
      have hk : ∀ j, ({ P with fileLocked := true } : Proc).finish.slots = some j → i = j := by
        intro j hj
        refine hown j ?_ hs.1 hs.2
        simp only [Proc.finish, Option.ite_none_right_eq_some] at hj
        simpa [hfd] using hj.2
      refine ⟨fun j hj => ?_, fun j hj hl => ?_, fun j hj hl => ?_, fun k hk => ?_,
        ?_⟩
      · obtain rfl := hk j hj
        rw [hct i hs.1]
        exact hs.1
      · obtain rfl := hk j hj
        rw [hct i hs.1]
        exact hs.2
      · simp [Proc.finish, ht, FsState.low] at hl
      · obtain rfl : i = k := by simpa [Proc.finish, hfd] using hk
        rw [hin, if_pos rfl]
        simpa [TimeStage, Proc.finish] using hs
      · intro hg
        have hg : P.goal.keeps = true := hg.elim id And.left
        simp [Proc.finish, hg, hfd]
    | unlock hpc ht =>
      have hs : (w.inode i).createTime ≠ 0 ∧ P.fileCreateTime = (w.inode i).createTime := by
        simpa [TimeStage, hpc] using hst
      have hk : ∀ j, ({ P with fileLocked := false } : Proc).finish.slots = some j →
          P.goal.keeps = true ∧ P.slots.or P.fd = some j ∧ i = j := by
        intro j hj
        simp only [Proc.finish, Option.ite_none_right_eq_some] at hj
        exact ⟨hj.1, hj.2, hown j (hfd ▸ hj.2) hs.1 hs.2⟩
      refine ⟨fun j hj => ?_, fun j hj hl => ?_, fun j hj hl => ?_, fun k hk => ?_,
        ?_⟩
      · obtain ⟨-, -, rfl⟩ := hk j hj
        rw [hct i hs.1]
        exact hs.1
      · obtain ⟨-, -, rfl⟩ := hk j hj
        rw [hct i hs.1]
        exact hs.2
      · obtain ⟨hkeep, hor, rfl⟩ := hk j hj
        have hd := hok.drop p now P i rfl hp ⟨hkeep, hl, .inr ⟨hpc, ht, hor⟩⟩
        refine ⟨?_, .inr hfd⟩
        simpa [World.record, hpc] using hd
      · simp [TimeStage, Proc.finish]
      · intro hg
        have hg : P.goal.keeps = true := hg.elim id And.left
        simp [Proc.finish, hg, hfd]
    | _ => exact hmove rfl rfl rfl rfl rfl (.inl rfl) (by simp)
  refine ⟨fun q Q hq => ?_, fun k hk => ?_, fun k l => ?_, ?_⟩
  · rw [World.setProc_proc] at hq
    split at hq
    · obtain rfl : P' = Q := by simpa using hq
      exact hproc
    · rename_i hne
      replace hq : w.proc q = some Q := by simpa using hq
      refine (h.procs q Q hq).frame hct (fun j hj hl hd => hdir q Q j hq hj hl hd) fun j hj hh => ?_
      rw [hin, if_neg]
      · exact .rfl' _
      · rintro rfl
        have hold := (hw.procs q Q hq).holder j hj hh
        rcases ha.holds with hh' | ⟨-, hfree⟩
        · exact hne (hw.exclusive hq hp hh hh' hj hfd)
        · simp_all
  · change (((w.record P i).setInode i n').inode k).createTime = 0
    rw [World.setInode_inode, if_neg, World.record_inode]
    · exact h.unborn k (by simpa using hk)
    · rintro rfl
      exact absurd ((hw.procs p P hp).fdLt k hfd) (Nat.not_lt.mpr (by simpa using hk))
  · change (((w.record P i).setInode i n').inode k).createTime ≠ 0 →
      (((w.record P i).setInode i n').inode k).createTime =
        (((w.record P i).setInode i n').inode l).createTime → k = l
    have hold := h.distinct k l
    simp only [World.setInode_inode, World.record_inode]
    rcases htime with ht | ⟨h0, ht, hnow, hpc⟩
    · have hsame : ∀ m, (if m = i then n' else w.inode m).createTime = (w.inode m).createTime := by
        intro m; split <;> simp_all
      rw [hsame, hsame]
      exact hold
    · have hnew : ∀ j, (w.inode j).createTime ≠ now := by
        intro j
        have hf := hok.fresh
        simp only [fresh, hp, hfd, Option.all_some, hpc, h0] at hf
        rcases Nat.lt_or_ge j w.next with hlt | hge
        · have hall : ∀ x < w.next, (w.inode x).createTime ≠ now := by simpa using hf
          exact hall j hlt
        · rw [h.unborn j hge]
          exact hnow.symm
      by_cases hk : k = i <;> by_cases hl : l = i
      · simp [hk, hl]
      · rw [if_pos hk, if_neg hl, ht]
        exact fun _ heq => absurd heq.symm (hnew l)
      · rw [if_neg hk, if_pos hl, ht]
        exact fun _ heq => absurd heq (hnew k)
      · rw [if_neg hk, if_neg hl]
        exact hold
  · change ∀ a ∈ (w.record P i).acquired, _
    unfold World.record
    split
    · exact h.current
    · rename_i hpc
      refine List.forall_mem_cons.mpr ⟨fun j hj => ?_, h.current⟩
      have hs : (w.inode i).createTime ≠ 0 ∧ P.fileCreateTime = (w.inode i).createTime := by
        simpa [TimeStage, hpc] using hst
      have hj : P.slots = some j := by
        simp only [Proc.used, Option.ite_none_right_eq_some] at hj
        exact hj.2
      exact (hown j (by simp [hj]) hs.1 hs.2).symm
    · exact h.current

/-! ### Every step -/

lemma inc_next (h : IncInv w) (hw : Inv w) (hp : w.proc p = some P)
    (hok : Undisturbed w (.step p now)) (hn : Next zero noSlots w p P now w') : IncInv w' := by
  have hP := h.procs p P hp
  have hshape := (hw.procs p P hp).shape
  have hmove : ∀ (pc : Pc) (fd : Option Inc), fd = P.fd →
      (∀ i, P.fd = some i → TimeStage { P with pc := pc, fd := fd } (w.inode i)) →
      IncInv (w.setProc p { P with pc := pc, fd := fd }) := fun pc fd hfd hst =>
    h.setProc <| hP.move rfl rfl hP.kept (.inl rfl) (.inl hfd) (fun _ _ => rfl)
      (fun _ _ _ hd => hd) fun i hi => hst i (hfd ▸ hi)
  cases hn with
  | opened hpc hfd => exact hmove .setlkw P.fd rfl fun i hi => by simp [TimeStage]
  | openFile hpc hfd =>
    obtain ⟨ho, hproc, hdir⟩ := inc_openFile zero h hw
    have hP' := ho.procs p P (by rw [hproc]; exact hp)
    refine ho.setProc ⟨hP'.set, hP'.same, fun j hj hl => ?_, fun i _ => by simp [TimeStage],
      hP'.kept⟩
    have hd := (hP'.low j hj hl).1
    exact ⟨hd, .inr (hdir.symm.trans hd)⟩
  | shut hpc =>
    have hsh : P.fileLocked = false ∧ P.target = .closed ∧ P.goal.locked = false := by
      simpa [Proc.Shape, hpc] using hshape
    have hk : ∀ j, ({ P with fd := none } : Proc).finish.slots = some j →
        P.goal.keeps = true ∧ P.slots = some j := by
      intro j hj
      simpa [Proc.finish] using hj
    refine h.setProc ⟨fun j hj => hP.set j (hk j hj).2, fun j hj hl => ?_, fun j hj hl => ?_,
      fun i hi => by simp [Proc.finish] at hi, fun hg => ?_⟩
    · simp [Proc.finish, hsh.2.1, FsState.low] at hl
    · obtain ⟨hkeep, hs⟩ := hk j hj
      exact ⟨hok.drop p now P j rfl hp ⟨hkeep, by simp [hsh.2.1, FsState.low], .inl ⟨hpc, hs⟩⟩,
        .inl rfl⟩
    · have := hP.kept
      simp_all [Proc.finish]
  | waited x hpc hgone =>
    refine hmove .idle P.fd rfl fun i hi => ?_
    have := hP.stage i hi
    simp_all [TimeStage]
  | die hpc => exact inc_exit h hw
  | access i P' n' hfd ha => exact inc_access h hw hp hfd hok ha

/-- A call of `speedy_file_set_state` returns at once only at `FS_CLOSED`; otherwise it leaves
the slot numbers and the file state to a later access. -/
lemma startCall_vars {s : FsState} {c : Client} {r : Bool} (hpc : P.pc = .idle) (hs : P.Shape)
    (hc : (s, c) ∈ P.client.calls) :
    s = .closed ∧ P.curState = .closed ∧
        startCall P s c r = ({ P with target := s, goal := c } : Proc).finish ∨
      ∃ pc fd tries,
        startCall P s c r = { P with target := s, goal := c, pc := pc, fd := fd, tries := tries } ∧
        (fd = P.fd ∨ fd = none) ∧ (P.fileLocked = true ∨ pc = .opening ∨ pc = .shut) ∧
        pc ∈ [Pc.clear, .opening, .shut, .empty] := by
  have hloc := calls_locked hc
  simp only [Proc.Shape, hpc] at hs
  have hop : s = P.curState → s = .closed := by
    intro heq
    revert hc hs
    cases hcl : P.client <;> simp [Client.calls, Client.locked] <;> intros <;> simp_all
  have hup : s = .haveSlots ∨ s = .open → P.fileLocked = true := by
    intro hs'
    revert hc
    cases hcl : P.client <;> simp_all [Client.calls, Client.locked] <;> grind
  unfold startCall
  by_cases heq : s = P.curState
  · simp [← heq, hop heq]
  right
  cases s <;> cases hlk : P.fileLocked <;> cases hcur : P.curState <;> cases r <;>
    simp_all [FsState.low]

lemma startCall_timeInv {s : FsState} {c : Client} {r : Bool} (h : TimeInv w P)
    (hpc : P.pc = .idle) (hs : P.Shape) (hc : (s, c) ∈ P.client.calls) :
    TimeInv w (startCall P s c r) := by
  have hkeep : s = .closed → c.keeps = true → P.slots ≠ none := by
    rintro rfl hk
    refine h.kept (.inl ?_)
    revert hc hk
    cases P.client <;> simp [Client.calls] <;> rintro rfl <;> simp [Client.keeps]
  rcases startCall_vars (r := r) hpc hs hc with ⟨hs', hcur, heq⟩ | ⟨pc, fd, tries, heq, hfd, hl, hmem⟩
  · rw [heq]
    have hk : ∀ j, ({ P with target := s, goal := c } : Proc).finish.slots = some j →
        P.slots = some j := by
      intro j hj
      simp only [Proc.finish, Option.ite_none_right_eq_some] at hj
      cases hsl : P.slots with
      | none => exact absurd hsl (hkeep hs' hj.1)
      | some k => simpa [hsl] using hj.2
    refine ⟨fun j hj => h.set j (hk j hj), fun j hj hl => ?_, fun j hj _ => ?_, fun i hi => ?_, ?_⟩
    · simp [Proc.finish, hs', FsState.low] at hl
    · exact h.low j (hk j hj) (by simp [hcur, FsState.low])
    · simp only [Proc.Shape, hpc] at hs
      simp_all [TimeStage, Proc.finish]
    · intro hg
      have hg : c.keeps = true := hg.elim id And.left
      simp [Proc.finish, hg, hkeep hs' hg]
  · rw [heq]
    refine h.move rfl rfl ?_ (.inl rfl) hfd (fun _ _ => rfl) (fun _ _ _ hd => hd) fun i hi => ?_
    · rintro (hk | ⟨hk, ht⟩)
      · exact h.kept (.inl hk)
      · exact hkeep ht hk
    · rcases hfd with hfd | hfd
      · have hst := h.stage i (hfd ▸ hi)
        simp only [TimeStage, hpc] at hst
        simp only [List.mem_cons, List.not_mem_nil, or_false] at hmem
        rcases hmem with rfl | rfl | rfl | rfl <;> simp_all [TimeStage]
      · simp_all

lemma inc_write {c : C} (h : IncInv w) :
    IncInv (w.setInode i { w.inode i with content := c }) := by
  have hsame : ∀ j, ((w.setInode i { w.inode i with content := c }).inode j).SameLock
      (w.inode j) := by
    intro j
    rw [World.setInode_inode]
    split
    · subst j; exact ⟨rfl, rfl, rfl, rfl⟩
    · exact .rfl' _
  refine ⟨fun q Q hq => (h.procs q Q hq).frame (fun j _ => (hsame j).createTime)
    (fun _ _ _ hd => hd) fun j _ _ => hsame j, fun j hj => ?_, fun j k => ?_, h.current⟩
  · rw [(hsame j).createTime]; exact h.unborn j hj
  · rw [(hsame j).createTime, (hsame k).createTime]; exact h.distinct j k

/-- A forked child has the slot numbers of its parent, or none. -/
lemma inc_fork {c : Client} {pc : Pc} {sl : Option Inc} (h : IncInv w) (hp : w.proc p = some P)
    (hpc : pc = .idle ∨ ∃ k, pc = .helper k)
    (hsl : sl = none ∧ c.keeps = false ∨
      sl = P.slots ∧ P.curState = .corrupt ∧ P.client.keeps = true) :
    IncInv (w.setProc q { P.forkChild c with slots := sl, pc := pc }) := by
  have hP := h.procs p P hp
  refine h.setProc ⟨fun j hj => ?_, fun j hj _ => ?_, fun j hj hl => ?_, fun k _ => ?_, fun hk => ?_⟩
  · rcases hsl with ⟨rfl, -⟩ | ⟨rfl, -⟩
    · simp at hj
    · exact hP.set j hj
  · rcases hsl with ⟨rfl, -⟩ | ⟨rfl, hcur, -⟩
    · simp at hj
    · exact hP.same j hj (by simp [hcur, FsState.low])
  · rcases hsl with ⟨rfl, -⟩ | ⟨rfl, hcur, -⟩
    · simp at hj
    · simp [Proc.forkChild, hcur, FsState.low] at hl
  · rcases hpc with rfl | ⟨_, rfl⟩ <;> simp [TimeStage, Proc.forkChild]
  · rcases hsl with ⟨-, hc⟩ | ⟨rfl, -, hkeep⟩
    · simp [Proc.forkChild, hc] at hk
    · exact hP.kept (.inl hkeep)

lemma inc_step {a : Act C} (h : IncInv w) (hw : Inv w) (hok : Undisturbed w a)
    (hs : step zero noSlots w a = some w') : IncInv w' := by
  cases step_trans hs with
  | spawn p c hp0 hp hc =>
    refine h.setProc ⟨by simp, by simp, by simp, by simp, ?_⟩
    rcases hc with rfl | rfl <;> simp [Client.keeps]
  | call p s c r P hp hpc hc =>
    exact h.setProc (startCall_timeInv (h.procs p P hp) hpc (hw.procs p P hp).shape hc)
  | step p now P w' hp hn => exact inc_next h hw hp hok hn
  | write p c P i hp hfd hpc hl => exact inc_write h
  | fork p q P hp hq0 hq hpc hc =>
    have hs := (hw.procs p P hp).shape
    simp only [Proc.Shape, hpc, hc, Client.locked, true_iff] at hs
    have := inc_fork (q := q) (c := .beForked) h hp (.inl hpc)
      (.inr ⟨rfl, hs.2, by simp [hc, Client.keeps]⟩)
    exact this
  | stray p q P hp hq0 hq hpc => exact inc_fork h hp (.inl hpc) (.inl ⟨rfl, rfl⟩)
  | helper p x P i hp hfd hx0 hx hpc hc =>
    have hP := h.procs p P hp
    have hs := (hw.procs p P hp).shape
    have hwait : IncInv (w.setProc p { P with pc := .wait x }) := by
      refine h.setProc <| hP.move rfl rfl hP.kept (.inl rfl) (.inl rfl) (fun _ _ => rfl)
        (fun _ _ _ hd => hd) fun i hi => ?_
      have := hP.stage i hi
      simp_all [TimeStage, Proc.Shape, Client.locked]
    have hp' : (w.setProc p { P with pc := .wait x }).proc p = some { P with pc := .wait x } := by
      simp
    have := inc_fork (q := x) (c := .beDone) hwait hp' (.inr ⟨i, rfl⟩)
      (.inl ⟨Eq.refl none, rfl⟩)
    exact this
  | helperWrite x c P i hx hpc => exact inc_write h
  | die p hp => exact inc_exit h hw

/-- **Slot numbers stay with their incarnation in every undisturbed run.** -/
theorem slots_current_of_undisturbed
    (h : ReachOk (step zero noSlots) (init zero) Undisturbed w) : SlotsCurrent w := by
  have hinv := h.inv (P := fun w => Inv w ∧ IncInv w) ⟨inv_init, inc_init⟩ fun _ _ _ _ hi hok hs =>
    ⟨inv_step hi.1 hs, inc_step hi.2 hi.1 hok hs⟩
  exact hinv.2.current

/-- A step that unlinks nothing and goes below `FS_HAVESLOTS` only in the linked incarnation. -/
def calm (w : World C) (a : Act C) : Bool :=
  fresh w a && match a with
    | .step p _ => (w.proc p).all fun P =>
      [Site.time, .owner, .close].all (fun s => P.pc ≠ .unlink s) && (P.pc ≠ .shut || w.dir = P.slots) &&
        (P.pc ≠ .unlock || w.dir = P.slots.or P.fd)
    | _ => true

lemma calm_undisturbed {a : Act C} (h : calm w a = true) : Undisturbed w a := by
  simp only [calm, Bool.and_eq_true] at h
  refine ⟨h.1, ?_, ?_⟩
  · rintro p now P j rfl hp ⟨-, -, hd⟩
    have h2 := h.2
    simp only [hp, Option.all_some, Bool.and_eq_true] at h2
    rcases hd with ⟨hpc, hs⟩ | ⟨hpc, -, hs⟩
    · simpa [hpc, hs] using h2.1.2
    · simpa [hpc, hs] using h2.2
  · rintro p now P s j rfl hp hpc
    have h2 := h.2
    simp only [hp, Option.all_some, Bool.and_eq_true, hpc] at h2
    cases s <;> simp at h2

/-- A frontend connects and polls twice for its exit status while the file stays. -/
def pollRun : List (Act Unit) :=
  .spawn 1 .feStart :: locks 1 .feLocked 1 ++ .call 1 .haveSlots .feKept false :: accesses 1 1 2 ++
  locks 1 .fePolling 1 ++ .call 1 .open .feKept false :: accesses 1 1 2 ++
  locks 1 .fePolling 1

theorem slots_current_polling : ∃ w : World Unit,
    w.acquired.map (fun a => (a.inc, a.used)) = [(0, some 0), (0, some 0), (0, none)] ∧
      SlotsCurrent w := by
  have hrun : (runOk (step () fun _ => false) calm (init ()) pollRun).map
      (fun w => w.acquired.map fun a => (a.inc, a.used)) =
        some [(0, some 0), (0, some 0), (0, none)] := by decide +kernel
  obtain ⟨w, hw, hu⟩ := exists_reachOk _ _ hrun
  exact ⟨w, hu, slots_current_of_undisturbed (hw.mono fun _ _ => calm_undisturbed)⟩

/-- The frontend 1 connects and polls once. Then process 2 dies with the lock and process 3
removes the file and creates another. At its next poll the frontend opens the file anew. -/
def recreateRun : List (Act Unit) :=
  .spawn 1 .feStart :: locks 1 .feLocked 1 ++ .call 1 .haveSlots .feKept false :: accesses 1 1 2 ++
  locks 1 .fePolling 1 ++ .call 1 .open .feKept false :: accesses 1 1 2 ++
  .spawn 2 .feStart :: locks 2 .feLocked 1 ++ .die 2 ::
  .spawn 3 .feStart :: .call 3 .corrupt .feLocked false :: accesses 3 2 15 ++
  .call 3 .haveSlots .feQueued false :: accesses 3 2 2 ++
  .call 1 .corrupt .fePolling true :: accesses 1 3 7

/-- The frontend uses its old slot number in the new file. -/
theorem slots_not_current :
    ∃ w, ReachOk (step () fun _ => false) (init ()) (fun w a => fresh w a = true) w ∧
      ¬ SlotsCurrent w := by
  have hrun : (runOk (step () fun _ => false) fresh (init ()) recreateRun).map
      (fun w => w.acquired.map fun a => (a.inc, a.used)) =
        some [(1, some 0), (1, none), (0, none), (0, some 0), (0, none)] := by decide +kernel
  obtain ⟨w, hw, hu⟩ := exists_reachOk _ _ hrun
  refine ⟨w, hw, fun hcur => ?_⟩
  have hmem : (1, some 0) ∈ w.acquired.map fun a => (a.inc, a.used) := by simp [hu]
  obtain ⟨a, ha, heq⟩ := List.mem_map.mp hmem
  simp only [Prod.mk.injEq] at heq
  have := hcur a ha 0 heq.2
  simp_all

end SpeedyCgi.FileLock
