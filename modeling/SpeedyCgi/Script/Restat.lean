import SpeedyCgi.Cwd.Chdir
import SpeedyCgi.Lib.Lts

/-!
The script file, and what a process remembers of it: `speedy_script.c` and the clock of
`speedy_util.c`.

A process looks at its script again when the last look is longer ago than `RestatTimeout`, by a clock
that itself is read only after the process has waited for something. The Apache module serves one
request after another in one process; what it remembers of the script of a request is forgotten when
the request is over.
-/

namespace SpeedyCgi.Script

open Lib.CString Lib.Lts Cwd

/-- `struct stat`, as far as it is looked at. -/
structure Stat where
  devino : DevIno
  mtime : ℤ
  deriving DecidableEq

/-- A file that can be opened and read. -/
structure File where
  stat : Stat
  bytes : List UInt8
  deriving DecidableEq

/-- What is at a path, at every time. -/
abbrev Files := ℕ → CStr → Option File

/-- The variables of `speedy_script.c` and the clock of a process, with the option and the file name
they depend on. -/
structure Statics where
  /-- the time -/
  now : ℕ
  /-- `saved_time`, `0` if it is not valid -/
  savedTime : ℕ := 0
  /-- `last_open`, `0` if the script is not open -/
  lastOpen : ℕ := 0
  /-- `script_stat` -/
  stat : Stat := ⟨0, 0⟩
  /-- `speedy_opt_script_fname` -/
  fname : Option CStr := none
  /-- `OPTVAL_RESTATTIMEOUT` -/
  restatTimeout : ℤ := 5

inductive Death
  /-- `speedy_script_missing` -/
  | missing
  /-- `speedy_util_die` of a file -/
  | die (path : CStr)
  /-- `DIE_QUIET` of a script that does not compile -/
  | compile (path : CStr)
  deriving DecidableEq

/-- `speedy_util_time` -/
def utilTime (s : Statics) : ℕ × Statics :=
  if s.savedTime = 0 then (s.now, { s with savedTime := s.now }) else (s.savedTime, s)

/-- `speedy_util_time_invalidate` -/
def utilTimeInvalidate (s : Statics) : Statics := { s with savedTime := 0 }

/-- `speedy_script_close` -/
def scriptClose (s : Statics) : Statics := { s with lastOpen := 0 }

/-- The last look is too long ago. -/
def stale (now : ℕ) (s : Statics) : Prop :=
  s.lastOpen = 0 ∨ s.restatTimeout < (now : ℤ) - s.lastOpen

instance (now : ℕ) (s : Statics) : Decidable (stale now s) := inferInstanceAs (Decidable (_ ∨ _))

/-- `speedy_script_open_failure` -/
def scriptOpenFailure (files : Files) (s : Statics) : ℕ × Statics :=
  let now := (utilTime s).1
  let s := (utilTime s).2
  if stale now s then
    match s.fname with
    | none => (1, scriptClose s)
    | some fname =>
      match files s.now fname with
      | none => (2, scriptClose s)
      | some file => (0, { s with stat := file.stat, lastOpen := now })
  else (0, s)

/-- `speedy_script_open` -/
def scriptOpen (files : Files) (s : Statics) : Except Death Statics :=
  match scriptOpenFailure files s with
  | (0, s) => .ok s
  | (1, _) => .error .missing
  | (_, s) => .error (.die (s.fname.getD []))

/-- `speedy_script_getstat` -/
def scriptGetstat (files : Files) (s : Statics) : Except Death (Stat × Statics) := do
  let s ← scriptOpen files s
  return (s.stat, s)

/-- `speedy_script_changed` -/
def scriptChanged (files : Files) (s : Statics) : Except Death (Bool × Statics) :=
  if s.lastOpen = 0 then .ok (false, s)
  else do
    let t ← scriptOpen files s
    return (decide (s.stat.mtime ≠ t.stat.mtime ∨ s.stat.devino ≠ t.stat.devino), t)

/-! ### What is remembered -/

section
variable {files : Files} {began waited : ℕ} {s t : Statics}

/-- The clock has been read since `waited`, and `script_stat` is what was at the path some time since
`began`, when the clock showed `last_open`. -/
structure Current (files : Files) (began waited : ℕ) (s : Statics) : Prop where
  order : began ≤ waited
  le_now : waited ≤ s.now
  clock : s.savedTime ≠ 0 → waited ≤ s.savedTime ∧ s.savedTime ≤ s.now
  opened : s.lastOpen ≠ 0 → ∃ fname file look, s.fname = some fname ∧ files look fname = some file ∧
    file.stat = s.stat ∧ began ≤ look ∧ s.lastOpen ≤ look ∧ look ≤ s.now

lemma Current.close (h : Current files began waited s) : Current files began waited (scriptClose s) :=
  ⟨h.order, h.le_now, h.clock, fun h0 => absurd rfl h0⟩

lemma Current.invalidate (h : Current files began waited s) :
    Current files began s.now (utilTimeInvalidate s) :=
  ⟨h.order.trans h.le_now, le_refl _, fun h0 => absurd rfl h0, h.opened⟩

lemma Current.later (h : Current files began waited s) {now : ℕ} (hle : s.now ≤ now) :
    Current files began waited { s with now } := by
  refine ⟨h.order, h.le_now.trans hle, fun h0 => ?_, fun h0 => ?_⟩
  · exact ⟨(h.clock h0).1, (h.clock h0).2.trans hle⟩
  · obtain ⟨fname, file, look, hfname, hfile, hstat, hbegan, hlook, hnow⟩ := h.opened h0
    exact ⟨fname, file, look, hfname, hfile, hstat, hbegan, hlook, hnow.trans hle⟩

lemma utilTime_snd (s : Statics) : (utilTime s).2 = { s with savedTime := (utilTime s).1 } := by
  unfold utilTime
  split <;> rfl

lemma Current.utilTime (h : Current files began waited s) :
    waited ≤ (utilTime s).1 ∧ (utilTime s).1 ≤ s.now := by
  unfold Script.utilTime
  split
  · exact ⟨h.le_now, le_refl _⟩
  · exact h.clock ‹_›

/-- The script is open, and by the clock it has been looked at lately. -/
structure Found (s : Statics) : Prop where
  opened : s.lastOpen ≠ 0
  clock : s.savedTime ≠ 0
  fresh : (s.savedTime : ℤ) - s.lastOpen ≤ s.restatTimeout

/-- The process is the same but for what it remembers of its script. -/
structure Same (s t : Statics) : Prop where
  now : t.now = s.now
  fname : t.fname = s.fname
  restatTimeout : t.restatTimeout = s.restatTimeout

lemma openFailure_spec (h : Current files began waited s) (hpos : 0 < waited) (ht : 0 ≤ s.restatTimeout) :
    Current files began waited (scriptOpenFailure files s).2 ∧ Same s (scriptOpenFailure files s).2 ∧
      ((scriptOpenFailure files s).1 = 0 → Found (scriptOpenFailure files s).2) := by
  obtain ⟨hge, hle⟩ := h.utilTime
  have hcur : Current files began waited { s with savedTime := (utilTime s).1 } :=
    ⟨h.order, h.le_now, fun _ => ⟨hge, hle⟩, h.opened⟩
  have h0 : (utilTime s).1 ≠ 0 := (hpos.trans_le hge).ne'
  unfold scriptOpenFailure
  dsimp only
  rw [utilTime_snd]
  split
  next hstale =>
    split
    next => exact ⟨hcur.close, ⟨rfl, rfl, rfl⟩, by simp⟩
    next fname hfname =>
      split
      next => exact ⟨hcur.close, ⟨rfl, rfl, rfl⟩, by simp⟩
      next file hfile =>
        refine ⟨⟨h.order, h.le_now, fun _ => ⟨hge, hle⟩, fun _ => ?_⟩, ⟨rfl, rfl, rfl⟩, fun _ => ?_⟩
        · exact ⟨fname, file, s.now, hfname, hfile, rfl, h.order.trans h.le_now, hle, le_refl _⟩
        · exact ⟨h0, h0, by simpa using ht⟩
  next hstale =>
    obtain ⟨hopen, hfresh⟩ := not_or.mp hstale
    exact ⟨hcur, ⟨rfl, rfl, rfl⟩, fun _ => ⟨hopen, h0, not_lt.mp hfresh⟩⟩

/-- Who has just looked at the script finds it open, and looks no further. -/
lemma openFailure_found (h : Found s) : scriptOpenFailure files s = (0, s) := by
  unfold scriptOpenFailure utilTime
  rw [if_neg h.clock]
  dsimp only
  rw [if_neg]
  exact not_or.mpr ⟨h.opened, not_lt.mpr h.fresh⟩

lemma scriptOpen_ok (h : scriptOpen files s = .ok t) : scriptOpenFailure files s = (0, t) := by
  unfold scriptOpen at h
  split at h
  · rename_i u hu
    rw [hu, Except.ok.inj h]
  · cases h
  · cases h

/-- A script that can be opened is open then, and what is remembered of it is not old. -/
lemma Current.scriptOpen (h : Current files began waited s) (hpos : 0 < waited)
    (ht : 0 ≤ s.restatTimeout) (ho : scriptOpen files s = .ok t) :
    Current files began waited t ∧ Same s t ∧ Found t := by
  have hspec := openFailure_spec h hpos ht
  rw [scriptOpen_ok ho] at hspec
  exact ⟨hspec.1, hspec.2.1, hspec.2.2 rfl⟩

lemma scriptGetstat_ok {stat : Stat} (h : scriptGetstat files s = .ok (stat, t)) :
    scriptOpen files s = .ok t ∧ stat = t.stat := by
  unfold scriptGetstat at h
  cases ho : scriptOpen files s with
  | error d => rw [ho] at h; cases h
  | ok u =>
    rw [ho] at h
    cases h
    exact ⟨rfl, rfl⟩

lemma Current.scriptChanged {changed : Bool} (h : Current files began waited s) (hpos : 0 < waited)
    (ht : 0 ≤ s.restatTimeout) (hc : scriptChanged files s = .ok (changed, t)) :
    Current files began waited t ∧ Same s t := by
  unfold Script.scriptChanged at hc
  split at hc
  · cases hc
    exact ⟨h, rfl, rfl, rfl⟩
  · cases ho : Script.scriptOpen files s with
    | error d => rw [ho] at hc; cases hc
    | ok u =>
      rw [ho] at hc
      cases hc
      exact ⟨(h.scriptOpen hpos ht ho).1, (h.scriptOpen hpos ht ho).2.1⟩

end

/-! ### The requests of the Apache module -/

/-- What a request has used of its script: the path, when the request began, when this was, what
`script_stat` was, when the process had last waited, and `RestatTimeout`. -/
structure Use where
  path : CStr
  began : ℕ
  time : ℕ
  stat : Stat
  waited : ℕ
  restatTimeout : ℤ
  deriving DecidableEq

inductive Phase
  /-- between two requests -/
  | idle
  /-- a request before `speedy_frontend_mkenv` -/
  | begun
  /-- in `speedy_frontend_connect` -/
  | connecting
  deriving DecidableEq

/-- A process with the Apache module. -/
structure Module where
  statics : Statics
  phase : Phase := .idle
  path : CStr := []
  /-- when the request began -/
  began : ℕ := 0
  /-- when the clock was last declared invalid -/
  waited : ℕ := 0
  /-- the devices and inodes that were put into requests -/
  sent : List Use := []
  /-- what `speedy_script_find` was given -/
  found : List Use := []

def Module.use (m : Module) (s : Statics) : Use :=
  ⟨m.path, m.began, s.now, s.stat, m.waited, s.restatTimeout⟩

inductive Act
  /-- time goes on -/
  | elapse (now : ℕ)
  /-- a request for the script at `path`: `cgi_handler` up to `speedy_opt_set_script_argv` -/
  | request (path : CStr)
  /-- a request that `cgi_handler` rejects before it looks at the script -/
  | reject
  /-- `speedy_frontend_mkenv` looks at the script -/
  | mkenv
  /-- `speedy_frontend_connect` looks at the script, for its `#!` line or for `speedy_script_find` -/
  | look
  /-- `speedy_frontend_connect` has waited -/
  | wait
  /-- it looks whether the script has changed -/
  | compare
  /-- an option on the `#!` line is read, or the options are restored -/
  | option (restatTimeout : ℤ)
  /-- `speedy_frontend_connect` returns -/
  | finish

def step (files : Files) (m : Module) : Act → Option Module
  | .elapse now => if m.statics.now ≤ now then some { m with statics := { m.statics with now } } else none
  | .request path =>
    if m.phase = .idle then
      some { m with
        phase := .begun, path := path, began := m.statics.now, waited := m.statics.now
        statics := { utilTimeInvalidate m.statics with fname := some path } }
    else none
  | .reject => if m.phase = .idle then some { m with statics := utilTimeInvalidate m.statics } else none
  | .mkenv =>
    if m.phase = .begun then
      match scriptGetstat files m.statics with
      | .ok (_, s) => some { m with phase := .connecting, statics := s, sent := m.use s :: m.sent }
      | .error _ => none
    else none
  | .look =>
    if m.phase = .connecting then
      match scriptGetstat files m.statics with
      | .ok (_, s) => some { m with statics := s, found := m.use s :: m.found }
      | .error _ => none
    else none
  | .wait =>
    if m.phase = .connecting then
      some { m with statics := utilTimeInvalidate m.statics, waited := m.statics.now }
    else none
  | .compare =>
    if m.phase = .connecting then
      match scriptChanged files m.statics with
      | .ok (_, s) => some { m with statics := s }
      | .error _ => none
    else none
  | .option restatTimeout => some { m with statics := { m.statics with restatTimeout } }
  | .finish =>
    if m.phase = .connecting then some { m with phase := .idle, statics := scriptClose m.statics }
    else none

/-- `RestatTimeout` is a natural number. -/
def Accepted (_ : Module) : Act → Prop
  | .option restatTimeout => 0 ≤ restatTimeout
  | _ => True

instance : ∀ (m : Module) (a : Act), Decidable (Accepted m a)
  | _, .option restatTimeout => inferInstanceAs (Decidable (0 ≤ restatTimeout))
  | _, .elapse _ | _, .request _ | _, .reject | _, .mkenv | _, .look | _, .wait | _, .compare
  | _, .finish => isTrue trivial

/-- A process that starts at time `now`. -/
def start (now : ℕ) : Module := { statics := { now } }

abbrev Reachable (files : Files) (now : ℕ) : Module → Prop := ReachOk (step files) (start now) Accepted

/-- What a request has used was at its own path while it was served, and not longer ago than
`RestatTimeout` before the process last waited. -/
def Use.Fresh (files : Files) (u : Use) : Prop := ∃ file look, files look u.path = some file ∧
  file.stat = u.stat ∧ u.began ≤ look ∧ look ≤ u.time ∧ (u.waited : ℤ) - look ≤ u.restatTimeout

structure Inv (files : Files) (m : Module) : Prop where
  pos : 0 < m.statics.now
  timeout : 0 ≤ m.statics.restatTimeout
  idle : m.phase = .idle → m.statics.lastOpen = 0
  request : m.phase ≠ .idle → 0 < m.waited ∧ m.statics.fname = some m.path ∧
    Current files m.began m.waited m.statics
  sent : ∀ u ∈ m.sent, u.Fresh files
  found : ∀ u ∈ m.found, u.Fresh files

section
variable {files : Files} {m m' : Module} {s : Statics} {stat : Stat} {a : Act} {now : ℕ}

lemma inv_start (hnow : 0 < now) : Inv files (start now) where
  pos := hnow
  timeout := by simp [start]
  idle _ := rfl
  request h := absurd rfl h
  sent _ hu := absurd hu (by simp [start])
  found _ hu := absurd hu (by simp [start])

/-- A look at the script in a request. -/
lemma Inv.look (h : Inv files m) (hp : m.phase ≠ .idle) (hs : scriptGetstat files m.statics = .ok (stat, s)) :
    Same m.statics s ∧ Current files m.began m.waited s ∧ (m.use s).Fresh files := by
  obtain ⟨hpos, hfname, hcur⟩ := h.request hp
  obtain ⟨hcur', hsame, hfound⟩ := hcur.scriptOpen hpos h.timeout (scriptGetstat_ok hs).1
  refine ⟨hsame, hcur', ?_⟩
  obtain ⟨fname, file, look, hf, hfile, hstat, hbegan, hlook, hle⟩ := hcur'.opened hfound.opened
  obtain rfl : m.path = fname := Option.some.inj (hfname.symm.trans (hsame.fname.symm.trans hf))
  have hwaited := (hcur'.clock hfound.clock).1
  have hfresh := hfound.fresh
  exact ⟨file, look, hfile, hstat, hbegan, hle, by simp only [Module.use]; omega⟩

lemma step_inv (h : Inv files m) (ha : Accepted m a) (hs : step files m a = some m') : Inv files m' := by
  cases a with
  | elapse now =>
    simp only [step] at hs
    split at hs <;> cases hs
    rename_i hle
    refine ⟨h.pos.trans_le hle, h.timeout, h.idle, fun hp => ?_, h.sent, h.found⟩
    obtain ⟨hpos, hfname, hcur⟩ := h.request hp
    exact ⟨hpos, hfname, hcur.later hle⟩
  | request path =>
    simp only [step] at hs
    split at hs <;> cases hs
    rename_i hp
    -- nothing is remembered of the script of the request before
    refine ⟨h.pos, h.timeout, nofun, fun _ => ⟨h.pos, rfl, ?_⟩, h.sent, h.found⟩
    exact ⟨le_refl _, le_refl _, fun h0 => absurd rfl h0, fun h0 => absurd (h.idle hp) h0⟩
  | reject =>
    simp only [step] at hs
    split at hs <;> cases hs
    rename_i hp
    exact ⟨h.pos, h.timeout, h.idle, fun hne => absurd hp hne, h.sent, h.found⟩
  | mkenv =>
    simp only [step] at hs
    split at hs <;> try cases hs
    rename_i hp
    split at hs <;> cases hs
    rename_i stat s hget
    have hne : m.phase ≠ .idle := by simp [hp]
    obtain ⟨hsame, hcur, hfresh⟩ := h.look hne hget
    refine ⟨hsame.now ▸ h.pos, hsame.restatTimeout ▸ h.timeout, nofun, fun _ => ?_, ?_,
      h.found⟩
    · exact ⟨(h.request hne).1, hsame.fname.trans (h.request hne).2.1, hcur⟩
    · exact List.forall_mem_cons.mpr ⟨hfresh, h.sent⟩
  | look =>
    simp only [step] at hs
    split at hs <;> try cases hs
    rename_i hp
    split at hs <;> cases hs
    rename_i stat s hget
    have hne : m.phase ≠ .idle := by simp [hp]
    obtain ⟨hsame, hcur, hfresh⟩ := h.look hne hget
    refine ⟨hsame.now ▸ h.pos, hsame.restatTimeout ▸ h.timeout, fun hp => absurd hp hne, fun _ => ?_,
      h.sent, ?_⟩
    · exact ⟨(h.request hne).1, hsame.fname.trans (h.request hne).2.1, hcur⟩
    · exact List.forall_mem_cons.mpr ⟨hfresh, h.found⟩
  | wait =>
    simp only [step] at hs
    split at hs <;> cases hs
    rename_i hp
    have hne : m.phase ≠ .idle := by simp [hp]
    obtain ⟨-, hfname, hcur⟩ := h.request hne
    exact ⟨h.pos, h.timeout, fun hp => absurd hp hne, fun _ => ⟨h.pos, hfname, hcur.invalidate⟩, h.sent,
      h.found⟩
  | compare =>
    simp only [step] at hs
    split at hs <;> try cases hs
    rename_i hp
    split at hs <;> cases hs
    rename_i changed s hchanged
    have hne : m.phase ≠ .idle := by simp [hp]
    obtain ⟨hpos, hfname, hcur⟩ := h.request hne
    obtain ⟨hcur', hsame⟩ := hcur.scriptChanged hpos h.timeout hchanged
    exact ⟨hsame.now ▸ h.pos, hsame.restatTimeout ▸ h.timeout, fun hp => absurd hp hne,
      fun _ => ⟨hpos, hsame.fname.trans hfname, hcur'⟩, h.sent, h.found⟩
  | option restatTimeout =>
    cases hs
    refine ⟨h.pos, ha, h.idle, fun hp => ?_, h.sent, h.found⟩
    obtain ⟨hpos, hfname, hcur⟩ := h.request hp
    exact ⟨hpos, hfname, hcur.order, hcur.le_now, hcur.clock, hcur.opened⟩
  | finish =>
    simp only [step] at hs
    split at hs <;> cases hs
    exact ⟨h.pos, h.timeout, fun _ => rfl, fun hp => absurd rfl hp, h.sent, h.found⟩

/-- What a request has used of its script was at the path of that request while the request was served,
and never at that of an earlier one; and it had not been looked at more than `RestatTimeout` before the
process last waited. -/
theorem requests_current (hnow : 0 < now) (h : Reachable files now m) :
    (∀ u ∈ m.sent, u.Fresh files) ∧ ∀ u ∈ m.found, u.Fresh files := by
  have hinv : Inv files m := ReachOk.inv (inv_start hnow) (fun _ _ _ _ hm ha hs => step_inv hm ha hs) h
  exact ⟨hinv.sent, hinv.found⟩

/-- Two scripts, of which the first is replaced at time 3. -/
def twoScripts : Files := fun now path =>
  if path = str "a" then some ⟨⟨⟨if now < 3 then 1 else 2, 1⟩, 1⟩, []⟩ else some ⟨⟨⟨7, 1⟩, 1⟩, []⟩

/-- The second request is for another script, which is looked at again. -/
theorem requests_current_two : ∃ m : Module, m.sent = [⟨str "b", 2, 2, ⟨⟨7, 1⟩, 1⟩, 2, 5⟩,
    ⟨str "a", 1, 1, ⟨⟨1, 1⟩, 1⟩, 1, 5⟩] ∧ ∀ u ∈ m.sent, u.Fresh twoScripts := by
  have hreach : ∃ m, ReachOk (step twoScripts) (start 1) (fun m a => decide (Accepted m a) = true) m ∧
      m.sent = [⟨str "b", 2, 2, ⟨⟨7, 1⟩, 1⟩, 2, 5⟩, ⟨str "a", 1, 1, ⟨⟨1, 1⟩, 1⟩, 1, 5⟩] :=
    exists_reachOk Module.sent
      [.request (str "a"), .mkenv, .look, .wait, .compare, .finish, .elapse 2, .request (str "b"),
        .mkenv] (by decide)
  obtain ⟨m, hm, hsent⟩ := hreach
  have hm : Reachable twoScripts 1 m := hm.mono fun m a h => of_decide_eq_true h
  exact ⟨m, hsent, (requests_current (by decide) hm).1⟩

end

end SpeedyCgi.Script
