import SpeedyCgi.FileLock.Model

/-!
Mutual exclusion on each incarnation, and what a process knows about the head at each access.

Only the holder of the write lock changes `lock_owner`, `file_removed` and `create_time`, so
what a process has read stays true until it lets the lock go. The invariant of a process is
therefore a statement about its own variables and one inode, and a step of another process
keeps it.
-/

namespace SpeedyCgi.FileLock

open Function Lib.Lts

variable {C : Type*} {zero : C} {noSlots : C → Bool} {w w' : World C} {p q : Pid} {P P' Q : Proc}
  {n n' : Inode C} {i : Inc} {now : ℕ}

/-- The accesses made under the write lock. -/
def Pc.holding : Pc → Bool
  | .idle | .opening | .setlkw | .shut | .helper _ => false
  | _ => true

def Proc.Holds (P : Proc) : Prop := P.pc.holding = true ∨ P.fileLocked = true

/-- The program is inside a locked section. -/
def Client.locked : Client → Bool
  | .feLocked | .fePolling | .beLocked | .parLocked => true
  | _ => false

/-- How the variables of a process go together at each access. -/
def Proc.Shape (P : Proc) : Prop :=
  match P.pc with
  | .idle => (P.fileLocked = true ↔ P.curState = .corrupt) ∧
      (P.client.locked = true ↔ P.curState = .corrupt)
  | .wait _ => P.fileLocked = true ∧ P.curState = .corrupt ∧ P.client.locked = true
  | .empty | .unlink .close | .mark .close =>
    P.fileLocked = true ∧ P.target = .closed ∧ P.goal.locked = false
  | .clear | .unlock => P.fileLocked = true ∧ P.target ≠ .corrupt ∧ P.goal.locked = false
  | .helper i => P.fileLocked = false ∧ P.fd = some i
  | .shut => P.fileLocked = false ∧ P.target = .closed ∧ P.goal.locked = false
  | _ => P.fileLocked = false ∧ (P.target = .corrupt ∨ P.target = .closed) ∧
      (P.goal.locked = true ↔ P.target = .corrupt)

/-- What a process knows about the file it holds locked. -/
def Stage (p : Pid) (P : Proc) (n : Inode C) : Prop :=
  match P.pc with
  | .removed => n.lockOwner = 0 ∨ n.fileRemoved = true
  | .own => n.lockOwner = 0 ∧ n.fileRemoved = false
  | .idle => P.fileLocked = true → n.lockOwner = p ∧ n.fileRemoved = false
  | .wait _ | .empty | .unlink .close => n.lockOwner = p ∧ n.fileRemoved = false
  | .mark .close | .clear => n.lockOwner = p
  | .unlock => n.lockOwner = 0
  | _ => True

/-- The fields that only the holder of the lock writes. -/
structure Inode.SameLock (n m : Inode C) : Prop where
  holder : n.holder = m.holder
  lockOwner : n.lockOwner = m.lockOwner
  fileRemoved : n.fileRemoved = m.fileRemoved
  createTime : n.createTime = m.createTime

lemma Inode.SameLock.rfl' (n : Inode C) : n.SameLock n := ⟨rfl, rfl, rfl, rfl⟩

structure ProcInv (w : World C) (p : Pid) (P : Proc) : Prop where
  pos : p ≠ 0
  fdLt : ∀ i, P.fd = some i → i < w.next
  hasFd : P.Holds ∨ P.pc = .setlkw → P.fd ≠ none
  shape : P.Shape
  holder : ∀ i, P.fd = some i → P.Holds → (w.inode i).holder = some p
  stage : ∀ i, P.fd = some i → Stage p P (w.inode i)

/-- What has been written since `lock_owner` was last cleared: nothing, if it is clear. The mark of
`remove_file` stays. -/
structure Inode.Clean (n : Inode C) : Prop where
  content : n.lockOwner = 0 → n.content = n.cleared.content
  removed : n.cleared.fileRemoved = true → n.fileRemoved = true

lemma Inode.Clean.image (h : n.Clean) (ho : n.lockOwner = 0) (hr : n.fileRemoved = false) :
    n.image = n.cleared := by
  have hc : n.cleared.fileRemoved = false := by
    have := h.removed
    rw [hr] at this
    simpa using this
  simp only [Inode.image, h.content ho, hr, ← hc]

lemma clean_fresh : (freshInode zero).Clean := ⟨fun _ => rfl, id⟩

structure Inv (w : World C) : Prop where
  procs : ∀ p P, w.proc p = some P → ProcInv w p P
  dirLt : ∀ i, w.dir = some i → i < w.next
  clean : ∀ i, (w.inode i).Clean
  /-- A helper only writes a file whose `lock_owner` is set and that no one but the process
  waiting for it may unlock. -/
  helper : ∀ h H i, w.proc h = some H → H.pc = .helper i → (w.inode i).lockOwner ≠ 0 ∧
    ∀ p P, w.proc p = some P → P.fileLocked = true → P.fd = some i → P.pc = .wait h
  history : ∀ a ∈ w.acquired, a.found = a.cleared

/-! ### One access -/

lemma Stage.of_not_holds (h : ¬ P.Holds) : Stage p P n := by
  unfold Proc.Holds at h
  unfold Stage
  cases hpc : P.pc <;> simp_all [Pc.holding]

lemma Stage.same (h : Stage p P n) (hs : n'.SameLock n) : Stage p P n' := by
  unfold Stage at h ⊢
  rw [hs.lockOwner, hs.fileRemoved]
  exact h

lemma calls_locked {c c' : Client} {s : FsState} (h : (s, c') ∈ c.calls) :
    c'.locked = true ↔ s = .corrupt := by
  have hall : ∀ c : Client, ∀ x ∈ c.calls, (x.2.locked = true ↔ x.1 = .corrupt) := by
    intro c
    cases c <;> simp [Client.calls, Client.locked]
  exact hall c _ h

/-- What one access can do to the process and to the inode it has open. -/
inductive Access (noSlots : C → Bool) (p : Pid) (P : Proc) (n : Inode C) (now : ℕ) :
    Proc → Inode C → Prop
  | setlkw (hpc : P.pc = .setlkw) (free : n.holder = none) :
      Access noSlots p P n now { P with pc := .stamp } { n with holder := some p }
  | stamped (hpc : P.pc = .stamp) (set : n.createTime ≠ 0) :
      Access noSlots p P n now { P with pc := .compare } n
  | stamp (hpc : P.pc = .stamp) (unset : n.createTime = 0) (hnow : now ≠ 0) :
      Access noSlots p P n now { P with pc := .compare } { n with createTime := now }
  | copy (hpc : P.pc = .compare) (hlow : P.fileCreateTime = 0 ∨ P.curState.low = true) :
      Access noSlots p P n now { P with fileCreateTime := n.createTime, pc := .owner } n
  | differ (hpc : P.pc = .compare) (hhigh : P.curState.low = false)
      (hne : P.fileCreateTime ≠ n.createTime) :
      Access noSlots p P n now { P with pc := .unlink .time } n
  | agree (hpc : P.pc = .compare) (heq : P.fileCreateTime = n.createTime) :
      Access noSlots p P n now { P with pc := .owner } n
  | owned (hpc : P.pc = .owner) (hne : n.lockOwner ≠ 0) :
      Access noSlots p P n now { P with pc := .unlink .owner } n
  | unowned (hpc : P.pc = .owner) (heq : n.lockOwner = 0) :
      Access noSlots p P n now { P with pc := .removed } n
  | present (hpc : P.pc = .removed) (heq : n.fileRemoved = false) :
      Access noSlots p P n now { P with pc := .own } n
  | retry (hpc : P.pc = .removed) (heq : n.fileRemoved = true) (hlow : P.curState.low = true) :
      Access noSlots p P n now { P with fd := none, tries := P.tries - 1, pc := .opening }
        { n with holder := none }
  | acquire (hpc : P.pc = .own) (ht : P.target = .corrupt) :
      Access noSlots p P n now ({ P with fileLocked := true } : Proc).finish
        { n with lockOwner := p }
  | acquireClose (hpc : P.pc = .own) (ht : P.target ≠ .corrupt) :
      Access noSlots p P n now { P with fileLocked := true, pc := .empty }
        { n with lockOwner := p }
  | noneLeft (hpc : P.pc = .empty) (hn : noSlots n.content = true) :
      Access noSlots p P n now { P with pc := .unlink .close } n
  | someLeft (hpc : P.pc = .empty) (hn : noSlots n.content = false) :
      Access noSlots p P n now { P with pc := .clear } n
  | unlink (s : Site) (hpc : P.pc = .unlink s) :
      Access noSlots p P n now { P with pc := .mark s } n
  | mark (s : Site) (hpc : P.pc = .mark s) :
      Access noSlots p P n now { P with pc := s.back } { n with fileRemoved := true }
  | clear (hpc : P.pc = .clear) :
      Access noSlots p P n now { P with pc := .unlock }
        { n with lockOwner := 0, cleared := n.image }
  | unlockClose (hpc : P.pc = .unlock) (ht : P.target = .closed) :
      Access noSlots p P n now { P with fileLocked := false, pc := .shut }
        { n with holder := none, left := n.image }
  | unlock (hpc : P.pc = .unlock) (ht : P.target ≠ .closed) :
      Access noSlots p P n now ({ P with fileLocked := false } : Proc).finish
        { n with holder := none, left := n.image }

lemma access_go (h : access noSlots p P n now = some (.go P' n')) :
    Access noSlots p P n now P' n' := by
  unfold access at h
  split at h <;> rename_i hpc
  case h_1 => split at h <;> simp at h; obtain ⟨rfl, rfl⟩ := h; exact .setlkw hpc ‹_›
  case h_2 =>
    split at h
    · simp at h; obtain ⟨rfl, rfl⟩ := h; exact .stamped hpc ‹_›
    · split at h <;> simp at h
      obtain ⟨rfl, rfl⟩ := h; exact .stamp hpc (by simpa using ‹¬ n.createTime ≠ 0›) ‹_›
  case h_3 =>
    split at h
    · simp at h; obtain ⟨rfl, rfl⟩ := h; exact .copy hpc ‹_›
    · rename_i hlow
      simp only [not_or, Bool.not_eq_true] at hlow
      split at h <;> simp at h <;> obtain ⟨rfl, rfl⟩ := h
      · exact .differ hpc hlow.2 ‹_›
      · exact .agree hpc (by simpa using ‹¬ P.fileCreateTime ≠ n.createTime›)
  case h_4 =>
    split at h <;> simp at h <;> obtain ⟨rfl, rfl⟩ := h
    · exact .owned hpc ‹_›
    · exact .unowned hpc (by simpa using ‹¬ n.lockOwner ≠ 0›)
  case h_5 =>
    split at h
    · simp at h; obtain ⟨rfl, rfl⟩ := h; exact .present hpc (by simp_all)
    · split at h
      · simp at h
      · split at h <;> simp at h
        obtain ⟨rfl, rfl⟩ := h
        exact .retry hpc (by simp_all) (by simp_all)
  case h_6 =>
    simp only at h
    split at h <;> simp at h <;> obtain ⟨rfl, rfl⟩ := h
    · exact .acquire hpc ‹_›
    · exact .acquireClose hpc ‹_›
  case h_7 =>
    split at h <;> simp at h <;> obtain ⟨rfl, rfl⟩ := h
    · exact .noneLeft hpc ‹_›
    · exact .someLeft hpc (by simp_all)
  case h_8 => simp at h; obtain ⟨rfl, rfl⟩ := h; exact .unlink _ hpc
  case h_9 => simp at h; obtain ⟨rfl, rfl⟩ := h; exact .mark _ hpc
  case h_10 => simp at h; obtain ⟨rfl, rfl⟩ := h; exact .clear hpc
  case h_11 =>
    simp only at h
    split at h <;> simp at h <;> obtain ⟨rfl, rfl⟩ := h
    · exact .unlockClose hpc ‹_›
    · exact .unlock hpc ‹_›
  case h_12 => simp at h

/-- An access needs the lock, or takes it when it is free. -/
lemma Access.holds (h : Access noSlots p P n now P' n') :
    P.Holds ∨ P.pc = .setlkw ∧ n.holder = none := by
  cases h <;> simp_all [Proc.Holds, Pc.holding]

lemma Access.fd (h : Access noSlots p P n now P' n') :
    P'.fd = P.fd ∨ P'.fd = none ∧ P'.pc = .opening := by
  cases h <;> simp [Proc.finish]

lemma Access.shape (h : Access noSlots p P n now P' n') (hs : P.Shape) : P'.Shape := by
  cases h <;> (try cases ‹Site›) <;> simp_all [Proc.finish, Proc.Shape, Site.back]

lemma Access.stage (h : Access noSlots p P n now P' n') (hst : Stage p P n) :
    Stage p P' n' := by
  cases h <;> (try cases ‹Site›) <;>
    simp_all [Proc.finish, Stage, Site.back]

lemma Access.holder (h : Access noSlots p P n now P' n') (hfd : P'.fd ≠ none) (hs : P.Shape)
    (hold : P.Holds → n.holder = some p) (hh : P'.Holds) : n'.holder = some p := by
  cases h <;> simp_all [Proc.finish, Proc.Holds, Pc.holding, Proc.Shape]

/-- The locked flag is set by the access that stores `lock_owner`, and `lock_owner` is cleared
only by a process that has the flag. -/
lemma Access.lockOwner (h : Access noSlots p P n now P' n') (hs : P.Shape) :
    (P'.fileLocked = true → P.fileLocked = true ∨ P.pc = .own) ∧
      (n.lockOwner ≠ 0 → n'.lockOwner = 0 → P.pc = .clear ∨ P.pc = .own) := by
  cases h <;> simp_all [Proc.finish, Proc.Shape]

lemma Access.not_waiting (h : Access noSlots p P n now P' n') :
    (∀ x, P.pc ≠ .wait x) ∧ ∀ i, P'.pc ≠ .helper i := by
  cases h <;> (try cases ‹Site›) <;> simp_all [Proc.finish, Site.back]

lemma Access.clean (h : Access noSlots p P n now P' n') (hp : p ≠ 0) (hc : n.Clean) : n'.Clean := by
  obtain ⟨hc, hr⟩ := hc
  cases h <;> refine ⟨?_, ?_⟩ <;> simp_all [Inode.image]

/-! ### The next access of a process -/

/-- What `next` can do. -/
inductive Next (zero : C) (noSlots : C → Bool) (w : World C) (p : Pid) (P : Proc) (now : ℕ) :
    World C → Prop
  | opened (hpc : P.pc = .opening) (hfd : P.fd ≠ none) :
      Next zero noSlots w p P now (w.setProc p { P with pc := .setlkw })
  | openFile (hpc : P.pc = .opening) (hfd : P.fd = none) :
      Next zero noSlots w p P now ((openFile zero w).1.setProc p
        { P with fd := some (FileLock.openFile zero w).2, pc := .setlkw })
  | shut (hpc : P.pc = .shut) :
      Next zero noSlots w p P now (w.setProc p ({ P with fd := none } : Proc).finish)
  | waited (h : Pid) (hpc : P.pc = .wait h) (hgone : w.proc h = none) :
      Next zero noSlots w p P now (w.setProc p { P with pc := .idle })
  | die (hpc : P.pc = .removed) : Next zero noSlots w p P now (w.exit p)
  | access (i : Inc) (P' : Proc) (n' : Inode C) (hfd : P.fd = some i)
      (ha : Access noSlots p P (w.inode i) now P' n') :
      Next zero noSlots w p P now (((w.record P i).setInode i n').setProc p P')

lemma access_die (h : access noSlots p P n now = some .die) : P.pc = .removed := by
  unfold access at h
  split at h
  case h_5 => assumption
  all_goals
    (try dsimp only at h)
    (repeat' split at h) <;> simp at h

lemma next_next (h : next zero noSlots w p P now = some w') : Next zero noSlots w p P now w' := by
  unfold next at h
  split at h <;> rename_i hpc
  case h_1 =>
    split at h <;> simp at h <;> subst h
    · exact .opened hpc (by simp_all)
    · exact .openFile hpc ‹_›
  case h_2 => simp at h; subst h; exact .shut hpc
  case h_3 => split at h <;> simp at h; subst h; exact .waited _ hpc ‹_›
  case h_4 =>
    obtain ⟨i, hfd, h⟩ := Option.bind_eq_some_iff.mp h
    obtain ⟨o, ho, h⟩ := Option.map_eq_some_iff.mp h
    cases o with
    | die => simp at h; subst h; exact .die (access_die ho)
    | go P' n' => simp at h; subst h; exact .access i P' n' hfd (access_go ho)

/-! ### The invariant -/

/-- What a process knows survives every change to files it does not hold locked. -/
lemma ProcInv.frame (h : ProcInv w q Q) (hn : w.next ≤ w'.next)
    (hi : ∀ j, Q.fd = some j → Q.Holds → (w'.inode j).SameLock (w.inode j)) : ProcInv w' q Q where
  pos := h.pos
  fdLt j hj := Nat.lt_of_lt_of_le (h.fdLt j hj) hn
  hasFd := h.hasFd
  shape := h.shape
  holder j hj hh := (hi j hj hh).holder.trans (h.holder j hj hh)
  stage j hj := by
    by_cases hh : Q.Holds
    · exact (h.stage j hj).same (hi j hj hh)
    · exact .of_not_holds hh

/-- Two processes do not hold the same file. -/
lemma Inv.exclusive (h : Inv w) (hp : w.proc p = some P) (hq : w.proc q = some Q) (hP : P.Holds)
    (hQ : Q.Holds) (hPi : P.fd = some i) (hQi : Q.fd = some i) : p = q := by
  have h1 := (h.procs p P hp).holder i hPi hP
  have h2 := (h.procs q Q hq).holder i hQi hQ
  simpa [h1] using h2

lemma inv_init : Inv (init zero) where
  procs := by simp [init]
  dirLt := by simp [init]
  clean _ := clean_fresh
  helper := by simp [init]
  history := by simp [init]

lemma inv_exit (h : Inv w) : Inv (w.exit p) where
  procs q Q hq := by
    obtain ⟨hne, hq⟩ : q ≠ p ∧ w.proc q = some Q := by simpa using hq
    refine (h.procs q Q hq).frame (Nat.le_refl _) fun j hj hh => ?_
    have hold := (h.procs q Q hq).holder j hj hh
    rw [World.exit_inode, if_neg (by simp_all)]
    exact .rfl' _
  dirLt := h.dirLt
  clean i := by
    rw [World.exit_inode]
    split
    · exact ⟨(h.clean i).content, (h.clean i).removed⟩
    · exact h.clean i
  helper x H i hx hpc := by
    obtain ⟨-, hx⟩ : x ≠ p ∧ w.proc x = some H := by simpa using hx
    obtain ⟨h1, h2⟩ := h.helper x H i hx hpc
    refine ⟨by rw [World.exit_inode]; split <;> simpa using h1, fun q Q hq => ?_⟩
    obtain ⟨-, hq⟩ : q ≠ p ∧ w.proc q = some Q := by simpa using hq
    exact h2 q Q hq
  history := h.history

/-- A step that changes one process and, under the lock or to take it, the inode that process has
open. -/
lemma inv_local (h : Inv w) (hp : w.proc p = some P) (hfd : P.fd = some i)
    (ha : Access noSlots p P (w.inode i) now P' n') :
    Inv (((w.record P i).setInode i n').setProc p P') := by
  have hP := h.procs p P hp
  have hst := hP.stage i hfd
  -- a file someone else holds is not the one that changes
  have hother : ∀ q Q j, q ≠ p → w.proc q = some Q → Q.fd = some j → Q.Holds → j ≠ i := by
    rintro q Q j hne hq hj hQ rfl
    rcases ha.holds with hh | ⟨-, hfree⟩
    · exact hne (h.exclusive hq hp hQ hh hj hfd)
    · simp [(h.procs q Q hq).holder j hj hQ] at hfree
  have hkeep : P'.fd ≠ none → P'.fd = some i := fun hne => by
    rcases ha.fd with h1 | ⟨h1, -⟩
    · rw [h1, hfd]
    · exact absurd h1 hne
  refine ⟨fun q Q hq => ?_, ?_, fun j => ?_, fun x H j hx hpc => ?_, fun a => ?_⟩
  · rw [World.setProc_proc] at hq
    split at hq
    · subst q
      obtain rfl : P' = Q := by simpa using hq
      refine ⟨hP.pos, fun j hj => ?_, fun hh => ?_, ha.shape hP.shape, fun j hj hh => ?_,
        fun j hj => ?_⟩
      · obtain rfl : i = j := by simpa [hkeep (by simp [hj])] using hj
        simpa using hP.fdLt i hfd
      · rcases ha.fd with h1 | ⟨h1, h2⟩
        · rw [h1, hfd]; simp
        · exact absurd hh (by have := ha.shape hP.shape; simp_all [Proc.Holds, Proc.Shape, Pc.holding])
      · obtain rfl : i = j := by simpa [hkeep (by simp [hj])] using hj
        simpa using ha.holder (by simp [hj]) hP.shape (hP.holder i hfd) hh
      · obtain rfl : i = j := by simpa [hkeep (by simp [hj])] using hj
        simpa using ha.stage hst
    · refine (h.procs q Q (by simpa using hq)).frame (by simp) fun j hj hQ => ?_
      have := hother q Q j ‹_› (by simpa using hq) hj hQ
      simpa [this] using Inode.SameLock.rfl' _
  · intro j hj
    have hdir : w.dir = some j := by
      revert hj
      unfold World.record
      split <;> simp
    simpa using h.dirLt j hdir
  · simp only [World.setProc_inode, World.setInode_inode, World.record_inode]
    split
    · subst j; exact ha.clean hP.pos (h.clean i)
    · exact h.clean j
  · rw [World.setProc_proc] at hx
    split at hx
    · obtain rfl : P' = H := by simpa using hx
      exact absurd hpc (ha.not_waiting.2 j)
    obtain ⟨h1, h2⟩ := h.helper x H j (by simpa using hx) hpc
    -- the only process that could let go of the helper's file waits for the helper
    have hno : P.fileLocked = true ∨ P.pc = .own → j ≠ i := by
      rintro (hl | hown) rfl
      · exact ha.not_waiting.1 x (h2 p P hp hl hfd)
      · simp only [Stage, hown] at hst
        exact h1 hst.1
    refine ⟨?_, fun q Q hq hl hj => ?_⟩
    · simp only [World.setProc_inode, World.setInode_inode, World.record_inode]
      split
      · subst j
        intro h0
        rcases (ha.lockOwner hP.shape).2 h1 h0 with hc | hc
        · exact hno (.inl (by have := hP.shape; simp_all [Proc.Shape])) rfl
        · exact hno (.inr hc) rfl
      · exact h1
    · rw [World.setProc_proc] at hq
      split at hq
      · obtain rfl : P' = Q := by simpa using hq
        exact absurd (by simpa [hkeep (by simp [hj])] using hj.symm)
          (hno ((ha.lockOwner hP.shape).1 hl))
      · exact h2 q Q (by simpa using hq) hl hj
  · unfold World.record
    split
    · exact h.history a
    · rename_i hown
      simp only [Stage, hown] at hst
      rintro (_ | ⟨_, ha⟩)
      · exact (h.clean i).image hst.1 hst.2
      · exact h.history a ha
    · exact h.history a

/-- A step that changes nothing but one process. -/
lemma inv_setProc (h : Inv w) (hP : ProcInv w p P')
    (hhelp : ∀ i, P'.pc = .helper i → (w.inode i).lockOwner ≠ 0 ∧
      ∀ q Q, q ≠ p → w.proc q = some Q → Q.fileLocked = true → Q.fd = some i → Q.pc = .wait p)
    (hlock : P'.fileLocked = true → ∀ i x H, x ≠ p → P'.fd = some i → w.proc x = some H →
      H.pc = .helper i → P'.pc = .wait x) : Inv (w.setProc p P') where
  procs q Q hq := by
    rw [World.setProc_proc] at hq
    split at hq
    · subst q; obtain rfl : P' = Q := by simpa using hq
      exact hP.frame (Nat.le_refl _) fun _ _ _ => .rfl' _
    · exact (h.procs q Q hq).frame (Nat.le_refl _) fun _ _ _ => .rfl' _
  dirLt := h.dirLt
  clean := h.clean
  helper x H i hx hpc := by
    rw [World.setProc_proc] at hx
    split at hx
    · subst x; obtain rfl : P' = H := by simpa using hx
      refine ⟨(hhelp i hpc).1, fun q Q hq hl hi => ?_⟩
      rw [World.setProc_proc] at hq
      split at hq
      · obtain rfl : P' = Q := by simpa using hq
        have := hP.shape
        simp_all [Proc.Shape]
      · exact (hhelp i hpc).2 q Q ‹_› hq hl hi
    · obtain ⟨h1, h2⟩ := h.helper x H i hx hpc
      refine ⟨h1, fun q Q hq hl hi => ?_⟩
      rw [World.setProc_proc] at hq
      split at hq
      · obtain rfl : P' = Q := by simpa using hq
        exact hlock hl i x H ‹_› hi hx hpc
      · exact h2 q Q hq hl hi
  history := h.history

variable (zero) in
/-- Creating the file. -/
lemma inv_openFile (h : Inv w) : Inv (openFile zero w).1 ∧ w.next ≤ (openFile zero w).1.next ∧
    (openFile zero w).1.proc = w.proc ∧ (openFile zero w).2 < (openFile zero w).1.next ∧
    ∀ j < w.next, (openFile zero w).1.inode j = w.inode j := by
  unfold openFile
  cases hd : w.dir with
  | some i => exact ⟨h, Nat.le_refl _, rfl, h.dirLt i hd, fun _ _ => rfl⟩
  | none =>
    have hin : ∀ j < w.next, (w.setInode w.next (freshInode zero)).inode j = w.inode j := by
      intro j hj
      rw [World.setInode_inode, if_neg (Nat.ne_of_lt hj)]
    refine ⟨⟨fun q Q hq => ?_, by simp, fun j => ?_, fun x H j hx hpc => ?_, h.history⟩,
      by simp, rfl, by simp, hin⟩
    · refine (h.procs q Q hq).frame (by simp) fun j hj _ => ?_
      rw [show _ = w.inode j from hin j ((h.procs q Q hq).fdLt j hj)]
      exact .rfl' _
    · change ((w.setInode w.next (freshInode zero)).inode j).Clean
      rw [World.setInode_inode]
      split
      · exact clean_fresh
      · exact h.clean j
    · have hlt : j < w.next := (h.procs x H hx).fdLt j (by
        have := (h.procs x H hx).shape
        simp_all [Proc.Shape])
      rw [show _ = w.inode j from hin j hlt]
      exact h.helper x H j hx hpc

lemma inv_next (h : Inv w) (hp : w.proc p = some P) (hn : Next zero noSlots w p P now w') :
    Inv w' := by
  have hP := h.procs p P hp
  cases hn with
  | opened hpc hfd =>
    have hs := hP.shape
    refine inv_setProc h ⟨hP.pos, hP.fdLt, fun _ => hfd, ?_, ?_, ?_⟩ (by simp) ?_ <;>
      simp_all [Proc.Shape, Proc.Holds, Pc.holding, Stage]
  | openFile hpc hfd =>
    obtain ⟨ho, hle, hproc, hlt, hin⟩ := inv_openFile zero h
    have hs := hP.shape
    refine inv_setProc ho ⟨hP.pos, ?_, ?_, ?_, ?_, ?_⟩ (by simp) ?_ <;>
      simp_all [Proc.Shape, Proc.Holds, Pc.holding, Stage]
  | shut hpc =>
    have hs := hP.shape
    refine inv_setProc h ⟨hP.pos, ?_, ?_, ?_, ?_, ?_⟩ (by simp [Proc.finish]) ?_ <;>
      simp_all [Proc.Shape, Proc.Holds, Pc.holding, Stage, Proc.finish]
  | waited x hpc hgone =>
    have hs := hP.shape
    have hst := hP.stage
    refine inv_setProc h ⟨hP.pos, hP.fdLt, fun _ => hP.hasFd (by simp [Proc.Holds, hpc, Pc.holding]),
      ?_, fun i hi _ => hP.holder i hi (by simp [Proc.Holds, hpc, Pc.holding]), ?_⟩ (by simp) ?_
    · simp_all [Proc.Shape]
    · simp_all [Stage]
    · -- the helper we waited for is gone, and there is no other
      intro hl i y H hne hi hy hH
      have := (h.helper y H i hy hH).2 p P hp hl hi
      simp_all
  | die hpc => exact inv_exit h
  | access i P' n' hfd ha => exact inv_local h hp hfd ha

/-- A call of `speedy_file_set_state` keeps the lock or does not have it. -/
lemma startCall_spec {s : FsState} {c : Client} {r : Bool} (hpc : P.pc = .idle) (hs : P.Shape)
    (hc : (s, c) ∈ P.client.calls) :
    (startCall P s c r).Shape ∧
      ((startCall P s c r).fd = P.fd ∨
        (startCall P s c r).fd = none ∧ (startCall P s c r).pc = .opening) ∧
      ((startCall P s c r).Holds → P.fileLocked = true) ∧ (startCall P s c r).pc ≠ .setlkw ∧
      (∀ i, (startCall P s c r).pc ≠ .helper i) := by
  have hl := calls_locked hc
  simp only [Proc.Shape, hpc] at hs
  unfold startCall
  by_cases heq : s = P.curState
  · subst heq
    simp_all [Proc.Shape, Proc.finish, Proc.Holds, Pc.holding]
  cases s <;> cases hlk : P.fileLocked <;> cases hcur : P.curState <;> cases r <;>
    simp_all [Proc.Shape, Proc.finish, Proc.Holds, Pc.holding, FsState.low]

lemma startCall_stage {s : FsState} {c : Client} {r : Bool} (hpc : P.pc = .idle) (hs : P.Shape)
    (hst : Stage p P n) : Stage p (startCall P s c r) n := by
  simp only [Proc.Shape, hpc] at hs
  simp only [Stage, hpc] at hst
  unfold startCall
  by_cases heq : s = P.curState
  · subst heq
    simp_all [Stage, Proc.finish]
  cases s <;> cases hlk : P.fileLocked <;> cases hcur : P.curState <;> cases r <;>
    simp_all [Stage, Proc.finish, FsState.low]

lemma inv_call {s : FsState} {c : Client} {r : Bool} (h : Inv w) (hp : w.proc p = some P)
    (hpc : P.pc = .idle) (hc : (s, c) ∈ P.client.calls) :
    Inv (w.setProc p (startCall P s c r)) := by
  have hP := h.procs p P hp
  obtain ⟨hsh, hfd, hho, hset, hhel⟩ := startCall_spec (r := r) hpc hP.shape hc
  have hfd' : ∀ i, (startCall P s c r).fd = some i → P.fd = some i := fun i hi => by
    rcases hfd with h1 | ⟨h1, -⟩ <;> simp_all
  have hlk : P.fileLocked = true → P.Holds := .inr
  refine inv_setProc h ⟨hP.pos, fun i hi => hP.fdLt i (hfd' i hi), fun hh => ?_, hsh,
    fun i hi hh => hP.holder i (hfd' i hi) (hlk (hho hh)),
    fun i hi => startCall_stage hpc hP.shape (hP.stage i (hfd' i hi))⟩
    (fun i hi => absurd hi (hhel i)) fun hl i x H hne hi hx hH => ?_
  · have hh := hh.resolve_right hset
    rcases hfd with h1 | ⟨-, h2⟩
    · exact h1 ▸ hP.hasFd (.inl (hlk (hho hh)))
    · simp_all [Proc.Holds, Pc.holding, Proc.Shape]
  · -- an idle process waits for no helper
    have := (h.helper x H i hx hH).2 p P hp (hho (.inr hl)) (hfd' i hi)
    simp_all

lemma forkChild_shape (c : Client) (sl : Option Inc) (hc : c.locked = false) :
    ({ P.forkChild c with slots := sl, pc := .idle } : Proc).Shape := by
  unfold Proc.Shape Proc.forkChild
  cases P.curState <;> simp [hc]

/-- A child forked outside any call of `speedy_file_set_state`. -/
lemma inv_fork {c : Client} {sl : Option Inc} (h : Inv w) (hp : w.proc p = some P) (hq0 : q ≠ 0)
    (hpc : P.pc = .idle) (hc : c.locked = false) :
    Inv (w.setProc q { P.forkChild c with slots := sl }) := by
  have hP := h.procs p P hp
  have hpc' : (P.forkChild c).pc = .idle := hpc
  have hsh : ({ P.forkChild c with slots := sl } : Proc).Shape := by
    have := forkChild_shape (P := P) c sl hc
    rwa [← hpc'] at this
  have hnot : ¬ ({ P.forkChild c with slots := sl } : Proc).Holds := by
    simp [Proc.Holds, Proc.forkChild, hpc, Pc.holding]
  refine inv_setProc h ⟨hq0, hP.fdLt, fun hh => ?_, hsh, fun _ _ hh => absurd hh hnot,
    fun _ _ => .of_not_holds hnot⟩ (by simp [Proc.forkChild, hpc]) (by simp [Proc.forkChild])
  rcases hh with hh | hh
  · exact absurd hh hnot
  · simp [Proc.forkChild, hpc] at hh

lemma inv_helper {x : Pid} (h : Inv w) (hp : w.proc p = some P) (hfd : P.fd = some i) (hx0 : x ≠ 0)
    (hx : w.proc x = none) (hpc : P.pc = .idle) (hc : P.client = .feLocked) :
    Inv ((w.setProc p { P with pc := .wait x }).setProc x
      { P.forkChild .beDone with slots := none, pc := .helper i }) := by
  have hP := h.procs p P hp
  have hsh := hP.shape
  simp only [Proc.Shape, hpc, hc, Client.locked, true_iff] at hsh
  have hlk : P.fileLocked = true := hsh.1.mpr hsh.2
  have hst := hP.stage i hfd
  simp only [Stage, hpc] at hst
  have hne : p ≠ x := by rintro rfl; simp [hp] at hx
  have hwait : Inv (w.setProc p { P with pc := .wait x }) := by
    refine inv_setProc h ⟨hP.pos, hP.fdLt, fun _ => by simp [hfd], ?_,
      fun j hj _ => hP.holder j hj (.inr hlk), fun j hj => ?_⟩ (by simp) fun _ j y H _ hj hy hH => ?_
    · simp [Proc.Shape, hlk, hsh.2, hc, Client.locked]
    · obtain rfl : i = j := by simpa [hfd] using hj
      simpa [Stage] using hst hlk
    · have := (h.helper y H j hy hH).2 p P hp hlk hj
      simp_all
  refine inv_setProc hwait ⟨hx0, hP.fdLt, ?_, ?_, ?_, ?_⟩ ?_ (by simp [Proc.forkChild])
  · simp [Proc.Holds, Pc.holding, Proc.forkChild]
  · simp [Proc.Shape, Proc.forkChild, hfd]
  · simp [Proc.Holds, Pc.holding, Proc.forkChild]
  · simp [Stage]
  · rintro j ⟨⟩
    refine ⟨by simpa [(hst hlk).1] using hP.pos, fun q Q _ hq hl hj => ?_⟩
    rw [World.setProc_proc] at hq
    split at hq
    · obtain rfl : _ = Q := by simpa using hq
      rfl
    · exact absurd (h.exclusive hq hp (.inr hl) (.inr hlk) hj hfd) ‹_›

/-- Writing the list heads and slots of a file whose `lock_owner` is set. -/
lemma inv_write {c : C} (h : Inv w) (ho : (w.inode i).lockOwner ≠ 0) :
    Inv (w.setInode i { w.inode i with content := c }) := by
  have hsame : ∀ j, ((w.setInode i { w.inode i with content := c }).inode j).SameLock
      (w.inode j) := by
    intro j
    rw [World.setInode_inode]
    split
    · subst j; exact ⟨rfl, rfl, rfl, rfl⟩
    · exact .rfl' _
  refine ⟨fun q Q hq => (h.procs q Q hq).frame (Nat.le_refl _) fun j _ _ => hsame j, h.dirLt,
    fun j => ?_, fun x H j hx hpc => ?_, h.history⟩
  · rw [World.setInode_inode]
    split
    · exact ⟨fun h0 => absurd h0 ho, (h.clean i).removed⟩
    · exact h.clean j
  · rw [(hsame j).lockOwner]
    exact h.helper x H j hx hpc

/-- What a step can do. -/
inductive Trans (zero : C) (noSlots : C → Bool) (w : World C) : Act C → World C → Prop
  | spawn (p : Pid) (c : Client) (hp0 : p ≠ 0) (hp : w.proc p = none)
      (hc : c = .feStart ∨ c = .parStart) :
      Trans zero noSlots w (.spawn p c) (w.setProc p { goal := c, client := c })
  | call (p : Pid) (s : FsState) (c : Client) (r : Bool) (P : Proc) (hp : w.proc p = some P)
      (hpc : P.pc = .idle) (hc : (s, c) ∈ P.client.calls) :
      Trans zero noSlots w (.call p s c r) (w.setProc p (startCall P s c r))
  | step (p : Pid) (now : ℕ) (P : Proc) (w' : World C) (hp : w.proc p = some P)
      (hn : Next zero noSlots w p P now w') : Trans zero noSlots w (.step p now) w'
  | write (p : Pid) (c : C) (P : Proc) (i : Inc) (hp : w.proc p = some P) (hfd : P.fd = some i)
      (hpc : P.pc = .idle) (hl : P.fileLocked = true) :
      Trans zero noSlots w (.write p c) (w.setInode i { w.inode i with content := c })
  | fork (p q : Pid) (P : Proc) (hp : w.proc p = some P) (hq0 : q ≠ 0) (hq : w.proc q = none)
      (hpc : P.pc = .idle) (hc : P.client = .parLocked) :
      Trans zero noSlots w (.fork p q)
        (w.setProc q (P.forkChild .beForked))
  | stray (p q : Pid) (P : Proc) (hp : w.proc p = some P) (hq0 : q ≠ 0) (hq : w.proc q = none)
      (hpc : P.pc = .idle) :
      Trans zero noSlots w (.stray p q)
        (w.setProc q { P.forkChild .beStray with slots := none })
  | helper (p x : Pid) (P : Proc) (i : Inc) (hp : w.proc p = some P) (hfd : P.fd = some i)
      (hx0 : x ≠ 0) (hx : w.proc x = none) (hpc : P.pc = .idle) (hc : P.client = .feLocked) :
      Trans zero noSlots w (.helper p x) ((w.setProc p { P with pc := .wait x }).setProc x
        { P.forkChild .beDone with slots := none, pc := .helper i })
  | helperWrite (x : Pid) (c : C) (P : Proc) (i : Inc) (hx : w.proc x = some P)
      (hpc : P.pc = .helper i) :
      Trans zero noSlots w (.helperWrite x c) (w.setInode i { w.inode i with content := c })
  | die (p : Pid) (hp : w.proc p ≠ none) : Trans zero noSlots w (.die p) (w.exit p)

lemma step_trans {a : Act C} (h : step zero noSlots w a = some w') :
    Trans zero noSlots w a w' := by
  cases a with
  | spawn p c =>
    simp only [step, Option.ite_none_right_eq_some, Option.some.injEq] at h
    obtain ⟨⟨hp0, hp, hc⟩, rfl⟩ := h
    exact .spawn p c hp0 hp hc
  | call p s c r =>
    obtain ⟨P, hp, h⟩ := Option.bind_eq_some_iff.mp h
    simp only [Option.ite_none_right_eq_some, Option.some.injEq] at h
    obtain ⟨⟨hpc, hc⟩, rfl⟩ := h
    exact .call p s c r P hp hpc hc
  | step p now =>
    obtain ⟨P, hp, h⟩ := Option.bind_eq_some_iff.mp h
    exact .step p now P w' hp (next_next h)
  | write p c =>
    obtain ⟨P, hp, h⟩ := Option.bind_eq_some_iff.mp h
    obtain ⟨i, hi, h⟩ := Option.bind_eq_some_iff.mp h
    simp only [Option.ite_none_right_eq_some, Option.some.injEq] at h
    obtain ⟨⟨hpc, hl⟩, rfl⟩ := h
    exact .write p c P i hp hi hpc hl
  | fork p q =>
    obtain ⟨P, hp, h⟩ := Option.bind_eq_some_iff.mp h
    simp only [Option.ite_none_right_eq_some, Option.some.injEq] at h
    obtain ⟨⟨hq0, hq, hpc, hc⟩, rfl⟩ := h
    exact .fork p q P hp hq0 hq hpc hc
  | stray p q =>
    obtain ⟨P, hp, h⟩ := Option.bind_eq_some_iff.mp h
    simp only [Option.ite_none_right_eq_some, Option.some.injEq] at h
    obtain ⟨⟨hq0, hq, hpc, -⟩, rfl⟩ := h
    exact .stray p q P hp hq0 hq hpc
  | helper p x =>
    obtain ⟨P, hp, h⟩ := Option.bind_eq_some_iff.mp h
    obtain ⟨i, hi, h⟩ := Option.bind_eq_some_iff.mp h
    simp only [Option.ite_none_right_eq_some, Option.some.injEq] at h
    obtain ⟨⟨hx0, hx, hpc, hc⟩, rfl⟩ := h
    exact .helper p x P i hp hi hx0 hx hpc hc
  | helperWrite x c =>
    obtain ⟨P, hp, h⟩ := Option.bind_eq_some_iff.mp h
    split at h <;> simp at h
    subst h
    exact .helperWrite x c P _ hp ‹_›
  | die p =>
    simp only [step, Option.ite_none_left_eq_some, Option.some.injEq] at h
    obtain ⟨hp, rfl⟩ := h
    exact .die p hp

/-- **The invariant holds after every step.** -/
theorem inv_step {a : Act C} (h : Inv w) (hs : step zero noSlots w a = some w') : Inv w' := by
  cases step_trans hs with
  | spawn p c hp0 hp hc =>
    refine inv_setProc h ⟨hp0, ?_, ?_, ?_, ?_, ?_⟩ (by simp) (by simp) <;>
      rcases hc with rfl | rfl <;>
      simp [Proc.Holds, Pc.holding, Proc.Shape, Client.locked]
  | call p s c r P hp hpc hc => exact inv_call h hp hpc hc
  | step p now P w' hp hn => exact inv_next h hp hn
  | write p c P i hp hfd hpc hl =>
    have hst := (h.procs p P hp).stage i hfd
    simp only [Stage, hpc] at hst
    exact inv_write h ((hst hl).1 ▸ (h.procs p P hp).pos)
  | fork p q P hp hq0 hq hpc hc => exact inv_fork h hp hq0 hpc rfl
  | stray p q P hp hq0 hq hpc => exact inv_fork h hp hq0 hpc rfl
  | helper p x P i hp hfd hx0 hx hpc hc => exact inv_helper h hp hfd hx0 hx hpc hc
  | helperWrite x c P i hx hpc => exact inv_write h (h.helper x P i hx hpc).1
  | die p hp => exact inv_exit h

theorem inv_reach {ok : World C → Act C → Prop} (h : ReachOk (step zero noSlots) (init zero) ok w) :
    Inv w :=
  h.inv inv_init fun _ _ _ _ hi _ hs => inv_step hi hs

end SpeedyCgi.FileLock
