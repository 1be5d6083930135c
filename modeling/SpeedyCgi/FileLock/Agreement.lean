import SpeedyCgi.FileLock.Invariant

/-!
Agreement on the current temp file.

`remove_file` unlinks by name while the lock is on an inode. The two are the same file as long
as nobody unlinks on behalf of an incarnation that already carries `file_removed`, and nobody
dies between the `unlink` and the store that sets the flag. `file_lock` tests `lock_owner`
before `file_removed`, so a process with an old descriptor can take the first of these steps.
-/

namespace SpeedyCgi.FileLock

open Function Lib.Lts

variable {C : Type*} {zero : C} {noSlots : C → Bool} {w w' : World C} {p q : Pid} {P P' Q : Proc}
  {n' : Inode C} {i : Inc} {now : ℕ}

/-- The processes agree on which incarnation is the current one. -/
structure Agreement (w : World C) : Prop where
  /-- every `unlink` took the caller's own incarnation off the name -/
  unlinks : ∀ u ∈ w.unlinks, u.2 = some u.1
  /-- an incarnation that is no longer linked is marked, or its remover still holds the lock -/
  marked : ∀ i < w.next, w.dir ≠ some i → (w.inode i).fileRemoved = true ∨
    ∃ p P s, w.proc p = some P ∧ P.pc = .mark s ∧ P.fd = some i ∧ (w.inode i).holder = some p
  /-- every successful `file_lock` returned with the incarnation that was linked -/
  linked : ∀ a ∈ w.acquired, a.linked = some a.inc

/-- The step does not unlink for an incarnation that is marked removed already, and is not the
death of a process between its `unlink` and the store to `file_removed`. -/
def orderly (w : World C) : Act C → Bool
  | .step p _ =>
    match w.proc p with
    | some { pc := .unlink _, fd := some i, .. } => !(w.inode i).fileRemoved
    | _ => true
  | .die p =>
    match w.proc p with
    | some { pc := .mark _, .. } => false
    | _ => true
  | _ => true

lemma orderly_unlink (h : orderly w (.step p now) = true) (hp : w.proc p = some P) {s : Site}
    (hpc : P.pc = .unlink s) (hfd : P.fd = some i) : (w.inode i).fileRemoved = false := by
  obtain ⟨fd, l, c, t, n, tg, g, cl, sl, pc⟩ := P
  obtain rfl : pc = _ := hpc
  obtain rfl : fd = _ := hfd
  simpa [orderly, hp] using h

lemma orderly_die (h : orderly w (.die p) = true) (hp : w.proc p = some P) (s : Site) :
    P.pc ≠ .mark s := by
  obtain ⟨fd, l, c, t, n, tg, g, cl, sl, pc⟩ := P
  rintro ⟨⟩
  simp [orderly, hp] at h

/-- The inductive form of `Agreement`. -/
structure AgreeInv (w : World C) : Prop where
  unlinks : ∀ u ∈ w.unlinks, u.2 = some u.1
  removed : ∀ i, w.dir = some i → (w.inode i).fileRemoved = false
  marking : ∀ p P s i, w.proc p = some P → P.pc = .mark s → P.fd = some i → w.dir ≠ some i
  present : ∀ i < w.next, (w.inode i).fileRemoved = false → w.dir = some i ∨
    ∃ p P s, w.proc p = some P ∧ P.pc = .mark s ∧ P.fd = some i
  linked : ∀ a ∈ w.acquired, a.linked = some a.inc

lemma AgreeInv.agreement (h : AgreeInv w) (hw : Inv w) : Agreement w where
  unlinks := h.unlinks
  marked i hi hd := by
    cases hr : (w.inode i).fileRemoved with
    | true => exact .inl rfl
    | false =>
      obtain ⟨p, P, s, hp, hpc, hfd⟩ := (h.present i hi hr).resolve_left hd
      exact .inr ⟨p, P, s, hp, hpc, hfd,
        (hw.procs p P hp).holder i hfd (.inl (by simp [hpc, Pc.holding]))⟩
  linked := h.linked

/-- Under the lock and before the `unlink`, an unmarked file is the one linked at the name. -/
lemma AgreeInv.dir_eq (h : AgreeInv w) (hw : Inv w) (hp : w.proc p = some P) (hh : P.Holds)
    (hpc : ∀ s, P.pc ≠ .mark s) (hfd : P.fd = some i) (hr : (w.inode i).fileRemoved = false) :
    w.dir = some i := by
  refine (h.present i ((hw.procs p P hp).fdLt i hfd) hr).resolve_right ?_
  rintro ⟨q, Q, s, hq, hqs, hqi⟩
  obtain rfl := hw.exclusive hq hp (.inl (by simp [hqs, Pc.holding])) hh hqi hfd
  obtain rfl : Q = P := by simpa [hq] using hp
  exact hpc s hqs

lemma AgreeInv.frame (h : AgreeInv w) (hd : w'.dir = w.dir) (hn : w'.next = w.next)
    (hr : ∀ i, (w'.inode i).fileRemoved = (w.inode i).fileRemoved) (hu : w'.unlinks = w.unlinks)
    (ha : w'.acquired = w.acquired)
    (hm : ∀ p P s, P.pc = .mark s → (w'.proc p = some P ↔ w.proc p = some P)) : AgreeInv w' where
  unlinks := by rw [hu]; exact h.unlinks
  removed i hi := by rw [hr]; exact h.removed i (hd ▸ hi)
  marking p P s i hp hpc hi := by rw [hd]; exact h.marking p P s i ((hm p P s hpc).mp hp) hpc hi
  present i hi hr' := by
    rw [hd]
    refine (h.present i (hn ▸ hi) (hr i ▸ hr')).imp_right ?_
    rintro ⟨p, P, s, hp, hpc, hfd⟩
    exact ⟨p, P, s, (hm p P s hpc).mpr hp, hpc, hfd⟩
  linked := by rw [ha]; exact h.linked

/-- A change to one process that is not about to store `file_removed`. -/
lemma AgreeInv.setProc (h : AgreeInv w) (hold : ∀ P s, w.proc p = some P → P.pc ≠ .mark s)
    (hnew : ∀ s, P'.pc ≠ .mark s) : AgreeInv (w.setProc p P') := by
  refine h.frame rfl rfl (fun _ => rfl) rfl rfl fun q Q s hpc => ?_
  rw [World.setProc_proc]
  split
  · subst q
    refine ⟨fun hq => absurd hpc ?_, fun hq => absurd hpc (hold Q s hq)⟩
    obtain rfl : P' = Q := by simpa using hq
    exact hnew s
  · rfl

lemma agree_init : AgreeInv (init zero) where
  unlinks := by simp [init]
  removed := by simp [init]
  marking := by simp [init]
  present := by simp [init]
  linked := by simp [init]

lemma agree_exit (h : AgreeInv w) (hold : ∀ P s, w.proc p = some P → P.pc ≠ .mark s) :
    AgreeInv (w.exit p) := by
  refine h.frame rfl rfl (fun i => ?_) rfl rfl fun q Q s hpc => ?_
  · rw [World.exit_inode]; split <;> rfl
  · rw [World.exit_proc]
    split
    · subst q
      exact ⟨by simp, fun hq => absurd hpc (hold Q s hq)⟩
    · rfl

variable (zero) in
lemma agree_openFile (h : AgreeInv w) (hw : Inv w) :
    AgreeInv (openFile zero w).1 ∧ (openFile zero w).1.proc = w.proc := by
  unfold openFile
  cases hd : w.dir with
  | some i => exact ⟨h, rfl⟩
  | none =>
    refine ⟨⟨h.unlinks, ?_, fun p P s i hp hpc hfd => ?_, fun i hi hr => ?_, h.linked⟩, rfl⟩
    · rintro i ⟨⟩
      simp [freshInode]
    · rintro ⟨⟩
      exact Nat.lt_irrefl _ ((hw.procs p P hp).fdLt _ hfd)
    · rcases Nat.lt_succ_iff_lt_or_eq.mp hi with hlt | rfl
      · refine .inr ((h.present i hlt ?_).resolve_left (by simp [hd]))
        simpa [World.setInode_inode, Nat.ne_of_lt hlt] using hr
      · exact .inl rfl

/-- Only `remove_file` touches the directory and `file_removed`. -/
lemma Access.plain (h : Access noSlots p P (w.inode i) now P' n')
    (hu : ∀ s, P.pc ≠ .unlink s) (hm : ∀ s, P.pc ≠ .mark s) :
    n'.fileRemoved = (w.inode i).fileRemoved ∧ (∀ s, P'.pc ≠ .mark s) ∧
      (w.record P i).dir = w.dir ∧ (w.record P i).unlinks = w.unlinks := by
  refine ⟨?_, ?_, ?_⟩
  · cases h <;> simp_all
  · cases h <;> simp_all [Proc.finish]
  · unfold World.record
    split <;> simp_all

/-- An access under the lock. -/
lemma agree_access (h : AgreeInv w) (hw : Inv w) (hp : w.proc p = some P) (hfd : P.fd = some i)
    (hok : ∀ s, P.pc = .unlink s → (w.inode i).fileRemoved = false)
    (ha : Access noSlots p P (w.inode i) now P' n') :
    AgreeInv (((w.record P i).setInode i n').setProc p P') := by
  by_cases hu : ∃ s, P.pc = .unlink s
  · -- the name goes, and it was the name of the file held locked
    obtain ⟨s, hpc⟩ := hu
    have hdir := h.dir_eq hw hp (.inl (by simp [hpc, Pc.holding])) (by simp [hpc]) hfd (hok s hpc)
    obtain ⟨rfl, rfl⟩ : P' = { P with pc := .mark s } ∧ n' = w.inode i := by
      cases ha <;> simp_all
    refine ⟨?_, ?_, ?_, fun j hj hr => ?_, ?_⟩ <;> simp only [World.record, hpc]
    · rintro u (_ | ⟨_, hu⟩)
      · exact hdir
      · exact h.unlinks u hu
    · simp
    · simp
    · refine .inr ?_
      by_cases hji : j = i
      · exact ⟨p, _, s, by simp; rfl, rfl, by rw [hji]; exact hfd⟩
      · obtain ⟨q, Q, s', hq, hqs, hqj⟩ := (h.present j (by simpa using hj) (by
          simpa [hji] using hr)).resolve_left (by rw [hdir]; simpa using Ne.symm hji)
        refine ⟨q, Q, s', ?_, hqs, hqj⟩
        have hne : q ≠ p := by rintro rfl; simp_all
        simpa [hne] using hq
    · exact h.linked
  by_cases hm : ∃ s, P.pc = .mark s
  · -- the flag follows the `unlink`
    obtain ⟨s, hpc⟩ := hm
    have hdir := h.marking p P s i hp hpc hfd
    obtain ⟨rfl, rfl⟩ : P' = { P with pc := s.back } ∧
        n' = { w.inode i with fileRemoved := true } := by
      cases ha <;> simp_all
    have hback : ∀ t, s.back ≠ .mark t := by cases s <;> simp [Site.back]
    refine ⟨?_, fun j hj => ?_, fun q Q t j hq hqs hqj => ?_, fun j hj hr => ?_, ?_⟩ <;>
      simp only [World.record, hpc] at *
    · exact h.unlinks
    · have hne : j ≠ i := by rintro rfl; exact hdir hj
      simpa [hne] using h.removed j hj
    · rw [World.setProc_proc] at hq
      split at hq
      · obtain rfl : _ = Q := by simpa using hq
        exact absurd hqs (hback t)
      · exact h.marking q Q t j hq hqs hqj
    · have hne : j ≠ i := by rintro rfl; simp at hr
      refine (h.present j hj (by simpa [hne] using hr)).imp_right ?_
      rintro ⟨q, Q, t, hq, hqs, hqj⟩
      refine ⟨q, Q, t, ?_, hqs, hqj⟩
      have hqp : q ≠ p := by rintro rfl; simp_all
      simpa [hqp] using hq
    · exact h.linked
  simp only [not_exists] at hu hm
  obtain ⟨hrem, hnew, hdir, hunl⟩ := ha.plain hu hm
  have hset : AgreeInv ((({ w with acquired := (w.record P i).acquired }).setInode i n').setProc p
      P') := by
    have hacq : AgreeInv { w with acquired := (w.record P i).acquired } := by
      refine ⟨h.unlinks, h.removed, h.marking, h.present, ?_⟩
      unfold World.record
      split
      · exact h.linked
      · -- `file_lock` returns: the file is unmarked and the lock is ours
        rename_i hown
        have hst := (hw.procs p P hp).stage i hfd
        simp only [Stage, hown] at hst
        rintro a (_ | ⟨_, ha⟩)
        · exact h.dir_eq hw hp (.inl (by simp [hown, Pc.holding])) hm hfd hst.2
        · exact h.linked a ha
      · exact h.linked
    have hinode : AgreeInv (({ w with acquired := (w.record P i).acquired }).setInode i n') := by
      refine hacq.frame rfl rfl (fun j => ?_) rfl rfl fun _ _ _ _ => Iff.rfl
      rw [World.setInode_inode]
      split
      · subst j; exact hrem
      · rfl
    refine hinode.setProc (fun Q s hQ => ?_) hnew
    obtain rfl : P = Q := by simpa [hp] using hQ
    exact hm s
  refine ⟨?_, ?_, ?_, ?_, hset.linked⟩
  · simpa [hunl] using hset.unlinks
  · simpa [hdir] using hset.removed
  · simpa [hdir] using hset.marking
  · simpa [hdir] using hset.present

lemma agree_next (h : AgreeInv w) (hw : Inv w) (hp : w.proc p = some P)
    (hok : orderly w (.step p now) = true) (hn : Next zero noSlots w p P now w') : AgreeInv w' := by
  have hpc : ∀ {P' : Pc}, P.pc = P' → (∀ s, P' ≠ .mark s) → ∀ Q s, w.proc p = some Q →
      Q.pc ≠ .mark s := by
    rintro P' rfl hP Q s hQ
    obtain rfl : P = Q := by simpa [hp] using hQ
    exact hP s
  cases hn with
  | opened h1 => exact h.setProc (hpc h1 (by simp)) (by simp)
  | openFile h1 h2 =>
    obtain ⟨ho, hproc⟩ := agree_openFile zero h hw
    exact ho.setProc (hproc ▸ hpc h1 (by simp)) (by simp)
  | shut h1 => exact h.setProc (hpc h1 (by simp)) (by simp [Proc.finish])
  | waited x h1 => exact h.setProc (hpc h1 (by simp)) (by simp)
  | die h1 => exact agree_exit h (hpc h1 (by simp))
  | access i P' n' hfd ha => exact agree_access h hw hp hfd (fun s hs => orderly_unlink hok hp hs hfd) ha

/-- **Orderly steps keep the processes in agreement.** -/
lemma agree_step {a : Act C} (h : AgreeInv w) (hw : Inv w) (hok : orderly w a = true)
    (hs : step zero noSlots w a = some w') : AgreeInv w' := by
  have hidle : ∀ {p : Pid} {P : Proc}, w.proc p = some P → P.pc = .idle →
      ∀ Q s, w.proc p = some Q → Q.pc ≠ .mark s := by
    intro p P hp hpc Q s hQ
    obtain rfl : P = Q := by simpa [hp] using hQ
    simp [hpc]
  have hwrite : ∀ i c, AgreeInv (w.setInode i { w.inode i with content := c }) := fun i c =>
    h.frame rfl rfl (fun j => by rw [World.setInode_inode]; split <;> simp_all) rfl rfl
      fun _ _ _ _ => Iff.rfl
  cases step_trans hs with
  | spawn p c hp0 hp hc => exact h.setProc (by simp [hp]) (by simp)
  | call p s c r P hp hpc hc =>
    refine h.setProc (hidle hp hpc) fun t => ?_
    unfold startCall
    cases s <;> simp only <;> split_ifs <;> simp [Proc.finish]
  | step p now P w' hp hn => exact agree_next h hw hp hok hn
  | write p c P i hp hfd hpc hl => exact hwrite i c
  | fork p q P hp hq0 hq hpc hc => exact h.setProc (by simp [hq]) (by simp [Proc.forkChild, hpc])
  | stray p q P hp hq0 hq hpc => exact h.setProc (by simp [hq]) (by simp [Proc.forkChild, hpc])
  | helper p x P i hp hfd hx0 hx hpc hc =>
    refine (h.setProc (hidle hp hpc) (by simp)).setProc (fun Q s hQ => ?_) (by simp)
    have hne : x ≠ p := by rintro rfl; simp_all
    simp [hne, hx] at hQ
  | helperWrite x c P i hx hpc => exact hwrite i c
  | die p hp => exact agree_exit h fun P s hP => orderly_die hok hP s

/-- **Agreement on the current file in every orderly run.** -/
theorem agreement_of_orderly
    (h : ReachOk (step zero noSlots) (init zero) (fun w a => orderly w a = true) w) :
    Agreement w := by
  have hinv := h.inv (P := fun w => Inv w ∧ AgreeInv w) ⟨inv_init, agree_init⟩ fun _ _ _ _ hi hok hs =>
    ⟨inv_step hi.1 hs, agree_step hi.2 hi.1 hok hs⟩
  exact hinv.2.agreement hinv.1

/-- `n` accesses of process `p`. -/
def accesses (p : Pid) (now n : ℕ) : List (Act C) := List.replicate n (.step p now)

/-- `p` locks a file that it finds in order. -/
def locks (p : Pid) (c : Client) (now : ℕ) : List (Act C) :=
  .call p .corrupt c false :: accesses p now 7

/-- Process 1 dies with the lock; process 2 finds `lock_owner` set, removes the file and locks a
new one. -/
def crashRun : List (Act Unit) :=
  .spawn 1 .feStart :: locks 1 .feLocked 1 ++ .die 1 ::
  .spawn 2 .feStart :: .call 2 .corrupt .feLocked false :: accesses 2 2 15

theorem agreement_after_crash : ∃ w : World Unit,
    w.unlinks = [(0, some 0)] ∧ w.acquired.map (·.inc) = [1, 0] ∧ Agreement w := by
  have hrun : (runOk (step () fun _ => false) orderly (init ()) crashRun).map
      (fun w => (w.unlinks, w.acquired.map (·.inc))) = some ([(0, some 0)], [1, 0]) := by
    decide +kernel
  obtain ⟨w, hw, hu⟩ := exists_reachOk _ _ hrun
  simp only [Prod.mk.injEq] at hu
  exact ⟨w, hu.1, hu.2, agreement_of_orderly hw⟩

/-- Process 1 keeps a descriptor of the file after unlocking it. Process 2 dies with the lock.
Process 3 finds `lock_owner` set, removes the file, creates a new one and queues up in it.
Process 1 then locks the old file and finds `lock_owner` still set. -/
def staleRun : List (Act Unit) :=
  .spawn 1 .feStart :: locks 1 .feLocked 1 ++ .call 1 .open .feStart false :: accesses 1 1 2 ++
  .spawn 2 .feStart :: locks 2 .feLocked 1 ++ .die 2 ::
  .spawn 3 .feStart :: .call 3 .corrupt .feLocked false :: accesses 3 2 15 ++
  .call 3 .haveSlots .feQueued false :: accesses 3 2 2 ++
  .call 1 .corrupt .feLocked false :: accesses 1 2 6

/-- Removing the new file for the sake of the old one. -/
theorem stale_unlink :
    ∃ w, Reach (step () fun _ => false) (init ()) w ∧ (0, some 1) ∈ w.unlinks ∧ ¬ Agreement w := by
  have hrun : (run (step () fun _ => false) (init ()) staleRun).map World.unlinks =
      some [(0, some 1), (0, some 0)] := by decide +kernel
  obtain ⟨w, hw, hu⟩ := exists_reach _ _ hrun
  refine ⟨w, hw, by simp [hu], fun ha => ?_⟩
  have := ha.unlinks (0, some 1) (by simp [hu])
  simp at this

end SpeedyCgi.FileLock
