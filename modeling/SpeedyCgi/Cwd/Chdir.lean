import SpeedyCgi.Lib.CString
import Mathlib.Logic.Function.Basic

/-!
How a backend changes its directory: `stat_cwd_fd`, `chdir_path` and `quick_cd`.

A directory is known by its device and inode. What the system calls answer may change with time;
`clock` goes on often enough that no call is made twice at the same time. `dup2` and `close` do not
fail.
-/

namespace SpeedyCgi.Cwd

open Function Lib.CString

/-- `SpeedyDevIno` -/
structure DevIno where
  i : BitVec 64
  d : BitVec 64
  deriving DecidableEq

instance : Zero DevIno := ⟨⟨0, 0⟩⟩

/-- A path that is not `NULL`. -/
abbrev Path := CStr

abbrev Fd := ℕ

/-- `PREF_FD_CWD` -/
def prefFdCwd : Fd := 19

/-- What the system answers, at every time. -/
structure Sys where
  /-- the directory that `chdir` leads to, unless it fails -/
  chdir : ℕ → Path → Option DevIno
  /-- `open` of the current directory succeeds -/
  openDot : ℕ → Bool
  /-- `fstat` of a descriptor that is open succeeds -/
  fstat : ℕ → Bool
  /-- `stat` of the current directory succeeds -/
  statDot : ℕ → Bool
  /-- `fchdir` to a descriptor that is open succeeds -/
  fchdir : ℕ → Bool
  /-- what is in memory that nobody has written -/
  junk : ℕ → DevIno

/-- A backend process. -/
structure Proc where
  /-- the current directory -/
  cwd : DevIno
  /-- `cwd_fd`, unless it is `-1` -/
  cwdFd : Option Fd
  /-- the directories that descriptors are open on -/
  fds : Fd → Option DevIno
  clock : ℕ

/-- `stat_cwd_fd`; none if it returns `0`. -/
def statCwdFd (sys : Sys) (p : Proc) : Option DevIno × Proc :=
  match p.cwdFd with
  | none => (none, p)
  | some fd =>
    match p.fds fd with
    | some d => if sys.fstat p.clock = true then (some d, p)
      else (none, { p with fds := update p.fds fd none, cwdFd := none })
    | none => (none, { p with cwdFd := none })

/-- The new descriptor of the current directory, if it can be opened. -/
def openCwd (sys : Sys) (p : Proc) : Proc :=
  if sys.openDot p.clock = true then
    { p with cwdFd := some prefFdCwd, fds := update p.fds prefFdCwd (some p.cwd) }
  else { p with cwdFd := none }

def closeCwdFd (p : Proc) : Proc :=
  match p.cwdFd with
  | some fd => { p with fds := update p.fds fd none }
  | none => p

def tick (p : Proc) : Proc := { p with clock := p.clock + 1 }

/-- The directory that `chdir_path` goes to. -/
def target (sys : Sys) (path : Path) (p : Proc) : Option DevIno :=
  if path = [ch '.'] then some p.cwd else sys.chdir p.clock path

/-- How `chdir_path` gets the device and inode of `"."`, where `*devino` was `old`. -/
def devinoOfDot (sys : Sys) (old : DevIno) (p : Proc) : DevIno × Proc :=
  match statCwdFd sys p with
  | (some d, p) => (d, p)
  | (none, p) =>
    if p.cwdFd = none then (if sys.statDot p.clock = true then old else 0, p)
    -- the other branch reads a buffer that nothing has filled
    else (sys.junk p.clock, p)

/-- `chdir_path`: whether it does not return `-1`, and what is in `*devino`, which was `devino`; none
if the pointer is `NULL`. -/
def chdirPath (sys : Sys) (path : Path) (devino : Option DevIno) (p : Proc) :
    Bool × Option DevIno × Proc :=
  if path = [] then (true, devino, p)
  else
    let p := closeCwdFd p
    match target sys path p with
    | none => (false, devino, tick { p with cwdFd := none })
    | some dir =>
      let p := openCwd sys { p with cwd := dir }
      match devino with
      | none => (true, none, tick p)
      | some old => let r := devinoOfDot sys old p; (true, some r.1, tick r.2)

/-- `quick_cd` -/
def quickCd (sys : Sys) (dest : DevIno) (p : Proc) : Bool × Proc :=
  let st := statCwdFd sys p
  if st.1 = some dest ∧ sys.fchdir p.clock = true then (true, tick { st.2 with cwd := dest })
  else
    let r := chdirPath sys [ch '.'] (some (st.1.getD (sys.junk p.clock))) (tick st.2)
    (decide (r.2.1 = some dest), r.2.2)

/-- `fstat` tells what the new directory is. -/
def fstatTells (sys : Sys) (t : ℕ) : Bool := sys.openDot t && sys.fstat t

/-- What `chdir_path` says of directory `dir` if `*devino` was `old`. -/
def said (sys : Sys) (t : ℕ) (dir old : DevIno) : DevIno :=
  if fstatTells sys t = true then dir else if sys.statDot t = true then old else 0

@[simp] lemma closeCwdFd_cwd (p : Proc) : (closeCwdFd p).cwd = p.cwd := by
  unfold closeCwdFd
  split <;> rfl

@[simp] lemma closeCwdFd_clock (p : Proc) : (closeCwdFd p).clock = p.clock := by
  unfold closeCwdFd
  split <;> rfl

@[simp] lemma openCwd_cwd (sys : Sys) (p : Proc) : (openCwd sys p).cwd = p.cwd := by
  unfold openCwd
  split <;> rfl

@[simp] lemma openCwd_clock (sys : Sys) (p : Proc) : (openCwd sys p).clock = p.clock := by
  unfold openCwd
  split <;> rfl

@[simp] lemma statCwdFd_cwd (sys : Sys) (p : Proc) : (statCwdFd sys p).2.cwd = p.cwd := by
  unfold statCwdFd
  split <;> try rfl
  split <;> try rfl
  split <;> rfl

@[simp] lemma statCwdFd_clock (sys : Sys) (p : Proc) : (statCwdFd sys p).2.clock = p.clock := by
  unfold statCwdFd
  split <;> try rfl
  split <;> try rfl
  split <;> rfl

lemma statCwdFd_none {sys : Sys} {p : Proc} (h : (statCwdFd sys p).1 = none) :
    (statCwdFd sys p).2.cwdFd = none := by
  unfold statCwdFd at h ⊢
  split at h <;> try simp_all
  split at h <;> try simp_all
  split at h <;> simp_all

lemma statCwdFd_openCwd (sys : Sys) (p : Proc) :
    (statCwdFd sys (openCwd sys p)).1 = if fstatTells sys p.clock = true then some p.cwd else none := by
  unfold openCwd fstatTells
  by_cases ho : sys.openDot p.clock = true <;> by_cases hf : sys.fstat p.clock = true <;>
    simp [statCwdFd, ho, hf]

lemma devinoOfDot_openCwd (sys : Sys) (old : DevIno) (p : Proc) :
    (devinoOfDot sys old (openCwd sys p)).1 = said sys p.clock p.cwd old ∧
    (devinoOfDot sys old (openCwd sys p)).2.cwd = p.cwd ∧
    (devinoOfDot sys old (openCwd sys p)).2.clock = p.clock := by
  have htells := statCwdFd_openCwd sys p
  have hcwd := statCwdFd_cwd sys (openCwd sys p)
  have hclock := statCwdFd_clock sys (openCwd sys p)
  have hnone := @statCwdFd_none sys (openCwd sys p)
  unfold devinoOfDot said
  generalize statCwdFd sys (openCwd sys p) = r at *
  obtain ⟨st, q⟩ := r
  simp only [openCwd_cwd, openCwd_clock] at htells hcwd hclock hnone
  by_cases ht : fstatTells sys p.clock = true
  · rw [if_pos ht] at htells
    subst htells
    exact ⟨by rw [if_pos ht], hcwd, hclock⟩
  · rw [if_neg ht] at htells
    subst htells
    simp [hnone rfl, ht, hcwd, hclock]

/-- What `chdir_path` returns, and where it ends. -/
lemma chdirPath_spec (sys : Sys) {path : Path} (hpath : path ≠ []) (devino : Option DevIno) (p : Proc) :
    (chdirPath sys path devino p).1 = (target sys path p).isSome ∧
    (chdirPath sys path devino p).2.1 = devino.map (fun old =>
      (target sys path p).elim old fun dir => said sys p.clock dir old) ∧
    (chdirPath sys path devino p).2.2.cwd = (target sys path p).getD p.cwd ∧
    (chdirPath sys path devino p).2.2.clock = p.clock + 1 := by
  have htarget : target sys path (closeCwdFd p) = target sys path p := by simp [target]
  unfold chdirPath
  rw [if_neg hpath]
  simp only [htarget]
  cases target sys path p with
  | none => exact ⟨rfl, by simp, by simp [tick], by simp [tick]⟩
  | some dir =>
    cases devino with
    | none => exact ⟨rfl, rfl, by simp [tick], by simp [tick]⟩
    | some old =>
      obtain ⟨h1, h2, h3⟩ := devinoOfDot_openCwd sys old { closeCwdFd p with cwd := dir }
      refine ⟨rfl, ?_, ?_, ?_⟩
      · simpa using h1
      · simpa [tick] using h2
      · simpa [tick] using h3

/-- What `fstat` tells of the cached descriptor. -/
def cached (sys : Sys) (p : Proc) : Option DevIno :=
  if sys.fstat p.clock = true then p.cwdFd.bind p.fds else none

lemma statCwdFd_fst (sys : Sys) (p : Proc) : (statCwdFd sys p).1 = cached sys p := by
  unfold statCwdFd cached
  cases p.cwdFd with
  | none => simp
  | some fd =>
    cases h : p.fds fd with
    | none => simp [h]
    | some d => by_cases hf : sys.fstat p.clock = true <;> simp [h, hf]

/-- The cached descriptor is open on the directory, and leads there. -/
def leadsTo (sys : Sys) (dest : DevIno) (p : Proc) : Prop :=
  cached sys p = some dest ∧ sys.fchdir p.clock = true

instance (sys : Sys) (dest : DevIno) (p : Proc) : Decidable (leadsTo sys dest p) :=
  inferInstanceAs (Decidable (_ ∧ _))

/-- What the variable `devino` of `quick_cd` holds before the call of `chdir_path`. -/
def leftover (sys : Sys) (p : Proc) : DevIno := (cached sys p).getD (sys.junk p.clock)

lemma quickCd_spec (sys : Sys) (dest : DevIno) (p : Proc) :
    (quickCd sys dest p).1 =
      decide (leadsTo sys dest p ∨ said sys (p.clock + 1) p.cwd (leftover sys p) = dest) ∧
    (quickCd sys dest p).2.cwd = (if leadsTo sys dest p then dest else p.cwd) ∧
    (quickCd sys dest p).2.clock = (if leadsTo sys dest p then p.clock + 1 else p.clock + 2) := by
  have hl : leadsTo sys dest p ↔ (statCwdFd sys p).1 = some dest ∧ sys.fchdir p.clock = true := by
    rw [statCwdFd_fst]
    rfl
  unfold quickCd leftover
  rw [← statCwdFd_fst]
  by_cases h : leadsTo sys dest p
  · simp [h, hl.mp h, tick]
  · obtain ⟨-, h2, h3, h4⟩ := chdirPath_spec sys (show [ch '.'] ≠ [] by simp)
      (some ((statCwdFd sys p).1.getD (sys.junk p.clock))) (tick (statCwdFd sys p).2)
    have htarget : target sys [ch '.'] (tick (statCwdFd sys p).2) = some p.cwd := by
      simp [target, tick]
    simp only [h2, h3, h4, htarget, h, hl.not.mp h, if_false, false_or]
    simp [tick]

/-- What is said of a directory is right, or `0/0` if nothing could tell. -/
def Tells (sys : Sys) (t : ℕ) (d dir : DevIno) : Prop :=
  d = dir ∨ (fstatTells sys t = false ∧ sys.statDot t = false ∧ d = 0)

/-- If only `stat` can tell, what it tells is thrown away. -/
lemma tells_said {sys : Sys} {t : ℕ} {dir old : DevIno} : Tells sys t (said sys t dir old) dir ↔
    fstatTells sys t = true ∨ sys.statDot t = false ∨ old = dir := by
  unfold Tells said
  by_cases hf : fstatTells sys t = true <;> by_cases hs : sys.statDot t = true <;> simp [hf, hs]

/-- `chdir_path` tells where it has ended, exactly if `stat` is not needed for it. -/
lemma chdirPath_tells_iff (sys : Sys) {path : Path} (hpath : path ≠ []) (old : DevIno) (p : Proc) :
    ((chdirPath sys path (some old) p).1 = true → ∃ d, (chdirPath sys path (some old) p).2.1 = some d ∧
      Tells sys p.clock d (chdirPath sys path (some old) p).2.2.cwd) ↔
    ∀ dir, target sys path p = some dir →
      fstatTells sys p.clock = true ∨ sys.statDot p.clock = false ∨ old = dir := by
  obtain ⟨h1, h2, h3, -⟩ := chdirPath_spec sys hpath (some old) p
  rw [h1, h2, h3]
  cases target sys path p with
  | none => simp
  | some dir => simp [tells_said]

/-- `quick_cd` is right, unless only `stat` could tell and the directory asked for is left over. -/
lemma quickCd_right_iff (sys : Sys) {dest : DevIno} (hdest : dest ≠ 0) (p : Proc) :
    ((quickCd sys dest p).1 = true → (quickCd sys dest p).2.cwd = dest) ↔
    leadsTo sys dest p ∨ p.cwd = dest ∨ fstatTells sys (p.clock + 1) = true ∨
      sys.statDot (p.clock + 1) = false ∨ leftover sys p ≠ dest := by
  obtain ⟨h1, h2, -⟩ := quickCd_spec sys dest p
  rw [h1, h2]
  by_cases hl : leadsTo sys dest p
  · simp [hl]
  · unfold said
    by_cases hf : fstatTells sys (p.clock + 1) = true <;>
      by_cases hs : sys.statDot (p.clock + 1) = true <;> simp [hl, hf, hs, hdest.symm]
    tauto

end SpeedyCgi.Cwd
