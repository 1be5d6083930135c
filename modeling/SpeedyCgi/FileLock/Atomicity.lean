import SpeedyCgi.FileLock.Agreement

/-!
Crash atomicity of locked sections.

`lock_owner` is set before the first write of a section and cleared after the last one, so a
process that stops in between leaves it set and the file is never handed out again. The store
that clears it is what completes a section: a process that dies after that store and before
`F_UNLCK` returned has left nothing half done, although its `file_unlock` never returned.
-/

namespace SpeedyCgi.FileLock

open Function Lib.Lts

variable {C : Type*} {zero : C} {noSlots : C → Bool} {w w' : World C} {p q : Pid} {P Q : Proc}
  {i : Inc} {now : ℕ}

/-- A process that does not have the lock leaves the file alone. -/
lemma inode_of_next (h : Inv w) (hp : w.proc p = some P) (hl : P.fileLocked = true)
    (hi : P.fd = some i) (hq : w.proc q = some Q) (hne : q ≠ p)
    (hn : Next zero noSlots w q Q now w') : w'.inode i = w.inode i := by
  have hold := (h.procs p P hp).holder i hi (.inr hl)
  cases hn with
  | opened | shut | waited => rfl
  | openFile => exact (inv_openFile zero h).2.2.2.2 i ((h.procs p P hp).fdLt i hi)
  | die => rw [World.exit_inode, if_neg (by rw [hold]; simpa using hne.symm)]
  | access j Q' n' hj ha =>
    have hji : i ≠ j := by
      rintro rfl
      rcases ha.holds with hh | ⟨-, hfree⟩
      · exact hne (h.exclusive hq hp hh (.inr hl) hj hi)
      · simp [hold] at hfree
    rw [World.setProc_inode, World.setInode_inode, if_neg hji, World.record_inode]

/-- Whoever has a file locked, only that process and its helper change it. -/
lemma inode_of_step {a : Act C} (h : Inv w) (hp : w.proc p = some P) (hl : P.fileLocked = true)
    (hi : P.fd = some i) (hne : a.actor ≠ p) (hwait : P.pc ≠ .wait a.actor)
    (hs : step zero noSlots w a = some w') : w'.inode i = w.inode i := by
  cases step_trans hs with
  | spawn | call | fork | stray | helper => rfl
  | step q now Q w' hq hn => exact inode_of_next h hp hl hi hq hne hn
  | write q c Q j hq hj hpc hql =>
    have hji : i ≠ j := by
      rintro rfl
      exact hne (h.exclusive hq hp (.inr hql) (.inr hl) hj hi)
    rw [World.setInode_inode, if_neg hji]
  | helperWrite x c X j hx hpc =>
    have hji : i ≠ j := by
      rintro rfl
      exact hwait ((h.helper x X i hx hpc).2 p P hp hl hi)
    rw [World.setInode_inode, if_neg hji]
  | die q hq =>
    have hold : (w.inode i).holder ≠ some q := by
      rw [(h.procs p P hp).holder i hi (.inr hl)]
      simpa using (show p ≠ q from Ne.symm hne)
    rw [World.exit_inode, if_neg hold]

/-- **Crash atomicity.** Every `file_lock` that succeeds finds the file as it was when
`lock_owner` was last cleared on it, or all zero. While a process has the file locked no other one
has, and the only other process that changes it is the helper it is waiting for. -/
theorem acquired_cleared (h : Reach (step zero noSlots) (init zero) w) :
    (∀ a ∈ w.acquired, a.found = a.cleared) ∧
      ∀ p P i, w.proc p = some P → P.fileLocked = true → P.fd = some i →
        (∀ q Q, w.proc q = some Q → Q.fileLocked = true → Q.fd = some i → q = p) ∧
        ∀ a w', step zero noSlots w a = some w' → w'.inode i ≠ w.inode i →
          a.actor = p ∨ P.pc = .wait a.actor := by
  have hinv := inv_reach h
  refine ⟨hinv.history, fun p P i hp hl hi => ⟨fun q Q hq hql hj => ?_, fun a w' hs hch => ?_⟩⟩
  · exact hinv.exclusive hq hp (.inr hql) (.inr hl) hj hi
  · by_contra hno
    rw [not_or] at hno
    exact hch (inode_of_step hinv hp hl hi hno.1 hno.2 hs)

/-- Process 1 waits for its helper 2. -/
def helperRun : List (Act ℕ) :=
  .spawn 1 .feStart :: .spawn 3 .feStart :: locks 1 .feLocked 1 ++ [.write 1 5, .helper 1 2]

/-- Process 1 is killed while its helper has yet to write; the helper writes all the same.
Process 3 finds `lock_owner` set and locks a new file. -/
def orphanRun : List (Act ℕ) :=
  helperRun ++ .die 1 :: .helperWrite 2 6 :: .call 3 .corrupt .feLocked false :: accesses 3 2 15

/-- The helper may write and process 3 may not. -/
theorem acquired_cleared_helper :
    (∃ w : World ℕ, w.acquired.map (fun a => (a.inc, a.found)) =
      [(1, ⟨false, 0⟩), (0, ⟨false, 0⟩)] ∧ ∀ a ∈ w.acquired, a.found = a.cleared) ∧
    ∃ (w : World ℕ) (P : Proc), w.proc 1 = some P ∧ P.pc = .wait 2 ∧ (w.inode 0).content = 5 ∧
      ∀ a w', step 0 (fun _ => false) w a = some w' → w'.inode 0 ≠ w.inode 0 →
        a.actor = 1 ∨ P.pc = .wait a.actor := by
  have horphan : (run (step 0 fun _ => false) (init 0) orphanRun).map
      (fun w => w.acquired.map fun a => (a.inc, a.found)) =
        some [(1, ⟨false, 0⟩), (0, ⟨false, 0⟩)] := by decide +kernel
  have hhelper : (run (step 0 fun _ => false) (init 0) helperRun).map
      (fun w => ((w.proc 1).map fun P => (P.fileLocked, P.fd, P.pc), (w.inode 0).content)) =
        some (some (true, some 0, .wait 2), 5) := by decide +kernel
  obtain ⟨w, hw, hu⟩ := exists_reach _ _ horphan
  obtain ⟨v, hv, hvu⟩ := exists_reach _ _ hhelper
  obtain ⟨hp, hc⟩ := Prod.mk.inj hvu
  obtain ⟨P, hp, hP⟩ := Option.map_eq_some_iff.mp hp
  obtain ⟨hl, hi, hpc⟩ : P.fileLocked = true ∧ P.fd = some 0 ∧ P.pc = .wait 2 := by simpa using hP
  exact ⟨⟨w, hu, (acquired_cleared hw).1⟩, v, P, hp, hpc, hc,
    ((acquired_cleared hv).2 1 P 0 hp hl hi).2⟩

/-- Process 1 writes and dies in `file_unlock`, after clearing `lock_owner` and before
`F_UNLCK`. Process 2 locks the same file. -/
def unlockCrashRun : List (Act ℕ) :=
  .spawn 1 .feStart :: locks 1 .feLocked 1 ++ .write 1 5 ::
  .call 1 .open .feStart false :: accesses 1 1 1 ++ .die 1 ::
  .spawn 2 .feStart :: locks 2 .feLocked 1

/-- The content found under a lock need not be the one the last completed `file_unlock` left. -/
theorem acquired_not_left :
    ¬ ∀ w, Reach (step 0 fun _ => false) (init 0) w → ∀ a ∈ w.acquired, a.found = a.left := by
  have hrun : (run (step 0 fun _ => false) (init 0) unlockCrashRun).map
      (fun w => w.acquired.map fun a => (a.inc, a.found, a.left)) =
        some [(0, ⟨false, 5⟩, ⟨false, 0⟩), (0, ⟨false, 0⟩, ⟨false, 0⟩)] := by decide +kernel
  obtain ⟨w, hw, hu⟩ := exists_reach _ _ hrun
  intro hall
  have hmem : (0, ⟨false, 5⟩, ⟨false, 0⟩) ∈ w.acquired.map fun a => (a.inc, a.found, a.left) := by
    simp [hu]
  obtain ⟨a, ha, heq⟩ := List.mem_map.mp hmem
  simp only [Prod.mk.injEq] at heq
  have := hall w hw a ha
  rw [heq.2.1, heq.2.2] at this
  simp at this

end SpeedyCgi.FileLock
