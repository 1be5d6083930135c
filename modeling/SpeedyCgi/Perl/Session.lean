import SpeedyCgi.Options.Settings
import SpeedyCgi.Lib.Lts

/-!
The package `CGI::SpeedyCGI` between the scripts and the backend that runs them: options that a
script sets, and functions that it registers.

A script sets options in `%_opts`, and a flag says that there is something to copy when the request
is over; then every option of the hash is set, changed or not. `MaxRuns` among them decides whether
`speedy_perl_run` waits for another request.

Code of the script runs before the first request already, when it is compiled. What it sets and
registers then is copied and called at the end of the first request.
-/

namespace SpeedyCgi.Perl.Session

open Function Lib.CString Lib.Lts Options

/-- A scalar: undefined, or a string. -/
abbrev Scalar := Option CStr

/-- A reference to a function. -/
abbrev Fn := ℕ

/-- What `"%d"` prints. -/
def showInt (n : ℤ) : CStr :=
  if n < 0 then ch '-' :: (Nat.toDigits 10 n.natAbs).map ch else (Nat.toDigits 10 n.natAbs).map ch

/-- The variables of the package. -/
structure Package where
  /-- `%_opts` -/
  opts : CStr → Option Scalar
  /-- `$_opts_changed` -/
  optsChanged : Bool := false
  /-- `@_cleanup` -/
  cleanup : List Fn := []
  /-- `@_shutdown` -/
  shutdown : List Fn := []
  /-- `$_shutdown_handler` -/
  shutdownHandler : Option Fn := none

/-- What `speedy_xs_init` stores for an option, if anything. -/
def optScalar : OptVal → Option Scalar
  | .str s => s.map some
  | .int n => some (some (showInt n))

def storeOpt (t : OptTable) (h : CStr → Option Scalar) (o : OptName) : CStr → Option Scalar :=
  if (optScalar (t.val o)).isSome then update h o.name (optScalar (t.val o)) else h

/-- `speedy_xs_init`, as far as the options go. -/
def xsInit (t : OptTable) : Package where
  opts := speedyOptdefs.foldl (storeOpt t) fun _ => none

def setopt (opt : CStr) (val : Scalar) (p : Package) : Package :=
  let opt := opt.map toupper
  let oval := (p.opts opt).join
  { p with
    opts := update p.opts opt (some val)
    optsChanged := p.optsChanged || decide (oval = none ∨ oval.getD [] ≠ val.getD []) }

/-- How `onerun` copies option values in from the hash. -/
def copyOpts (p : Package) (t : OptTable) : OptTable :=
  if p.optsChanged then
    setAll t (speedyOptdefs.filterMap fun o => (p.opts o.name).map fun v => (o, v.getD []))
  else t

/-- `OPTVAL_MAXRUNS` -/
def maxRuns (t : OptTable) : ℤ :=
  match t.val .maxRuns with
  | .int n => n
  | .str _ => 0

inductive Phase
  /-- in `speedy_perl_init`, behind `speedy_xs_init`: `BEGIN` blocks run and modules are loaded -/
  | starting
  /-- in `backend_accept` -/
  | waiting
  /-- in `perl_run` -/
  | running
  /-- in `_run_cleanup` -/
  | cleaning
  /-- in `_run_shutdown`, before the shutdown handler is called -/
  | shutting
  /-- in the shutdown handler, or after it -/
  | ended
  deriving DecidableEq

/-- A backend: the options of its process and the variables of its interpreter. -/
structure State where
  table : OptTable
  package : Package
  numrun : ℕ := 0
  phase : Phase := .starting
  /-- the options set since the last request was over or, before that, since the start; the last one
  first -/
  sets : List (CStr × Scalar) := []
  /-- what the options are to be -/
  asked : OptName → OptVal
  /-- the functions registered to be called after a request, and those called -/
  registered : List Fn := []
  called : List Fn := []
  /-- the functions registered to be called before the end, and those called -/
  shutRegistered : List Fn := []
  shutCalled : List Fn := []
  /-- the shutdown handler that was called -/
  handled : Option Fn := none

/-- The test of the loop in `speedy_perl_run`, and what follows it. -/
def loopTop (s : State) : State :=
  { s with phase := if maxRuns s.table = 0 ∨ s.numrun < maxRuns s.table then .waiting else .shutting }

/-- The last value that was given to an option. -/
def lastSet (o : OptName) (sets : List (CStr × Scalar)) : Option Scalar :=
  sets.findSome? fun x => if x.1.map toupper = o.name then some x.2 else none

/-- What an option is to be after a request: what it was set to last, unless that is no value for it. -/
def askedAfter (s : State) (o : OptName) : OptVal :=
  match lastSet o s.sets with
  | some v => (optSetVal o (s.asked o) (v.getD [])).getD (s.asked o)
  | none => s.asked o

/-- The end of `onerun`, after `_run_cleanup`. -/
def finish (s : State) : State :=
  loopTop { s with
    table := copyOpts s.package s.table
    package := { s.package with optsChanged := false }
    numrun := s.numrun + 1
    sets := []
    asked := askedAfter s }

inductive Act
  /-- `speedy_perl_run` is called -/
  | started
  /-- a frontend connects -/
  | accept
  /-- a timeout, a signal, or a group that is not valid any more -/
  | leave
  | setopt (opt : CStr) (val : Scalar)
  | registerCleanup (f : Fn)
  | addShutdownHandler (f : Fn)
  | setShutdownHandler (f : Option Fn)
  /-- `perl_run` returns -/
  | ran
  /-- `_run_cleanup` takes the next function, or returns -/
  | cleanup
  /-- `_run_shutdown` takes the next function, or comes to the handler -/
  | shutdown

/-- Perl code is run. -/
def Phase.perl : Phase → Bool
  | .waiting => false
  | .starting | .running | .cleaning | .shutting | .ended => true

def step (s : State) : Act → Option State
  | .started => if s.phase = .starting then some (loopTop s) else none
  | .accept => if s.phase = .waiting then some { s with phase := .running } else none
  | .leave => if s.phase = .waiting then some { s with phase := .shutting } else none
  | .setopt opt val =>
    if s.phase.perl then
      some { s with package := setopt opt val s.package, sets := (opt, val) :: s.sets }
    else none
  | .registerCleanup f =>
    if s.phase.perl then
      some { s with
        package := { s.package with cleanup := s.package.cleanup ++ [f] }
        registered := s.registered ++ [f] }
    else none
  | .addShutdownHandler f =>
    if s.phase.perl then
      some { s with
        package := { s.package with shutdown := s.package.shutdown ++ [f] }
        shutRegistered := s.shutRegistered ++ [f] }
    else none
  | .setShutdownHandler f =>
    if s.phase.perl then some { s with package := { s.package with shutdownHandler := f } } else none
  | .ran => if s.phase = .running then some { s with phase := .cleaning } else none
  | .cleanup =>
    if s.phase = .cleaning then
      match s.package.cleanup with
      | f :: fs => some { s with
          package := { s.package with cleanup := fs }
          called := s.called ++ [f] }
      | [] => some (finish s)
    else none
  | .shutdown =>
    if s.phase = .shutting then
      match s.package.shutdown with
      | f :: fs => some { s with
          package := { s.package with shutdown := fs }
          shutCalled := s.shutCalled ++ [f] }
      | [] => some { s with phase := .ended, handled := s.package.shutdownHandler }
    else none

/-- `speedy_xs_init` has been called. -/
def start (t : OptTable) : State := { table := t, package := xsInit t, asked := t.val }

abbrev Reachable (t : OptTable) : State → Prop := Reach step (start t)

/-! ### Copying the options -/

section
variable {bin : CStr} {t : OptTable} {o : OptName} {p : Package} {s s' : State} {a : Act}

lemma name_injective : ∀ o o' : OptName, o.name = o'.name → o = o' := by
  intro o o' h
  cases o <;> cases o' <;> first | rfl | exact absurd h (by decide)

lemma mem_speedyOptdefs (o : OptName) : o ∈ speedyOptdefs := by cases o <;> decide

lemma foldl_storeOpt (l : List OptName) (h : CStr → Option Scalar) (hsome : h o.name = none) :
    l.foldl (storeOpt t) h o.name = if o ∈ l then optScalar (t.val o) else none := by
  induction l using List.reverseRecOn with
  | nil => simpa using hsome
  | append_singleton l o' ih =>
    rw [List.foldl_append, List.foldl_cons, List.foldl_nil, storeOpt]
    by_cases ho : o = o'
    · subst ho
      cases hv : optScalar (t.val o) with
      | none => simp [ih, hv]
      | some v => simp
    · have hne : o.name ≠ o'.name := fun h => ho (name_injective o o' h)
      split
      · simp [hne, ih, ho]
      · simp [ih, ho]

lemma xsInit_opts (t : OptTable) (o : OptName) : (xsInit t).opts o.name = optScalar (t.val o) := by
  dsimp only [xsInit]
  rw [foldl_storeOpt _ _ rfl, if_pos (mem_speedyOptdefs o)]

lemma showInt_eq {n : ℤ} (h0 : 0 ≤ n) (h1 : n < 2 ^ 31) : showInt n = showUnsigned n := by
  have hn : (BitVec.ofInt 32 n).toNat = n.natAbs := by
    simp only [BitVec.toNat_ofInt]
    omega
  rw [showInt, if_neg (by omega), showUnsigned, hn]

/-- The value in the hash is the one that the option has, or no value for it at all. -/
def Agrees (o : OptName) (v : Scalar) (t : OptTable) : Prop :=
  optSetVal o (.int 0) (v.getD []) = none ∨ optSetVal o (.int 0) (v.getD []) = some (t.val o)

lemma validVal_defval (hperl : o ≠ .perlArgs) (ho : o.type ≠ .toggle) : ValidVal o (o.defval bin) := by
  have hnone : str "none" ≠ [] := by decide
  cases o <;> first
    | exact absurd rfl hperl
    | exact absurd rfl ho
    | simp [ValidVal, OptName.defval, OptName.type, hnone]

/-- What is stored in the hash at first is read back. -/
lemma agrees_xsInit (ht : t.Wf bin) (ho : o.type ≠ .toggle) {v : Scalar}
    (hv : (xsInit t).opts o.name = some v) : Agrees o v t := by
  rw [xsInit_opts] at hv
  have hvalid : ValidVal o (t.val o) → Agrees o v t := by
    intro hval
    refine .inr ?_
    rw [← optSetVal_get hval ho (.int 0)]
    unfold ValidVal at hval
    unfold speedyOptGet
    cases hval' : t.val o with
    | str s =>
      obtain ⟨w, rfl, rfl⟩ := Option.map_eq_some_iff.mp (hval' ▸ hv)
      rfl
    | int n =>
      rw [hval'] at hv hval
      obtain rfl := Option.some.inj hv
      have hn : 0 ≤ n ∧ n < 2 ^ 31 := by
        cases hty : o.type with
        | str => simp [hty] at hval
        | whole => simpa [hty] using hval
        | natural =>
          have hval : 1 ≤ n ∧ n < 2 ^ 31 := by simpa [hty] using hval
          omega
        | toggle => exact absurd hty ho
      rw [Option.getD_some, showInt_eq hn.1 hn.2]
  cases hc : t.changed o with
  | true => exact hvalid (ht.valid o hc)
  | false =>
    have hdef := ht.default o hc
    by_cases hperl : o = .perlArgs
    · subst hperl
      simp [hdef, OptName.defval, optScalar] at hv
    · exact hvalid (hdef ▸ validVal_defval hperl ho)

/-- Of every option that the hash has, the value is set, whether it was changed or not. -/
lemma after_filterMap (ho : o.type ≠ .toggle) (h : CStr → Option Scalar) (l : List OptName) (w : OptVal) :
    after o w (l.filterMap fun o => (h o.name).map fun v => (o, v.getD [])) =
      if o ∈ l then ((h o.name).bind fun v => optSetVal o (.int 0) (v.getD [])).getD w else w := by
  induction l generalizing w with
  | nil => rfl
  | cons o' l ih =>
    have hcons : ∀ x, after o w (x :: l.filterMap fun o => (h o.name).map fun v => (o, v.getD [])) =
        after o (if x.1 = o then (optSetVal o (.int 0) x.2).getD w else w)
          (l.filterMap fun o => (h o.name).map fun v => (o, v.getD [])) := by
      intro x
      rw [← optSetVal_old ho w (.int 0)]
      rfl
    rw [List.filterMap_cons]
    by_cases he : o' = o
    · subst he
      cases hv : h o'.name with
      | none => simp [ih, hv]
      | some v =>
        simp only [Option.map_some, hcons, ih, hv, Option.bind_some, List.mem_cons, true_or, if_true]
        cases optSetVal o' (.int 0) (v.getD []) <;> simp
    · have he' : o ≠ o' := Ne.symm he
      cases hv : h o'.name with
      | none => simp [ih, he']
      | some v => simp [hcons, ih, he, he']

lemma copyOpts_val (ho : o.type ≠ .toggle) (p : Package) (t : OptTable) : (copyOpts p t).val o =
    if p.optsChanged = true then
      ((p.opts o.name).bind fun v => optSetVal o (.int 0) (v.getD [])).getD (t.val o)
    else t.val o := by
  unfold copyOpts
  split
  · rw [setAll_val, after_filterMap ho, if_pos (mem_speedyOptdefs o)]
  · rfl

/-! ### What a request asks for -/

/-- The flag loses nothing: a value of the hash that has not been copied has been set since the last
request was over, and the flag says so. -/
structure Inv (bin : CStr) (s : State) : Prop where
  wf : s.table.Wf bin
  table : ∀ o : OptName, o.type ≠ .toggle → s.table.val o = s.asked o
  copied : ∀ o : OptName, o.type ≠ .toggle → lastSet o s.sets = none ∨ s.package.optsChanged = false →
    ∀ v, s.package.opts o.name = some v → Agrees o v s.table
  stored : ∀ o v, lastSet o s.sets = some v → s.package.opts o.name = some v
  first : s.phase = .starting → s.numrun = 0
  loop : s.phase = .waiting → maxRuns s.table = 0 ∨ s.numrun < maxRuns s.table
  cleanup : s.called ++ s.package.cleanup = s.registered
  cleaned : s.phase = .waiting → s.numrun ≠ 0 → s.package.cleanup = []
  shutdown : s.shutCalled ++ s.package.shutdown = s.shutRegistered

lemma wf_copyOpts (ht : t.Wf bin) (p : Package) : (copyOpts p t).Wf bin := by
  unfold Session.copyOpts
  split
  · exact ht.setAll _
  · exact ht

lemma lastSet_cons (o : OptName) (opt : CStr) (val : Scalar) (sets : List (CStr × Scalar)) :
    lastSet o ((opt, val) :: sets) =
      if opt.map toupper = o.name then some val else lastSet o sets := by
  unfold lastSet
  rw [List.findSome?_cons]
  split <;> rename_i h <;> split at h <;> simp_all

lemma Inv.setopt (h : Inv bin s) (opt : CStr) (val : Scalar) :
    Inv bin { s with package := setopt opt val s.package, sets := (opt, val) :: s.sets } := by
  refine { h with copied := fun o ho hc v hv => ?_, stored := fun o v hl => ?_ }
  · dsimp only [Session.setopt] at hc hv
    rw [lastSet_cons] at hc
    by_cases hopt : opt.map toupper = o.name
    · -- the flag says nothing, because the value is what it was
      simp only [hopt, if_true, reduceCtorEq, false_or, Bool.or_eq_false_iff, decide_eq_false_iff_not,
        not_or, not_not] at hc
      obtain ⟨hflag, hdef, heq⟩ := hc
      obtain rfl : val = v := by simpa [hopt] using hv
      obtain ⟨old, hold⟩ : ∃ old, s.package.opts o.name = some (some old) := by
        cases hx : s.package.opts o.name with
        | none => simp [hx] at hdef
        | some x =>
          cases x with
          | none => simp [hx] at hdef
          | some old => exact ⟨old, rfl⟩
      have hcopied := h.copied o ho (.inr hflag) _ hold
      rw [hold] at heq
      unfold Agrees at hcopied ⊢
      rwa [← heq]
    · rw [if_neg hopt, Bool.or_eq_false_iff] at hc
      rw [update_of_ne (Ne.symm hopt)] at hv
      exact h.copied o ho (hc.imp_right And.left) v hv
  · rw [lastSet_cons] at hl
    dsimp only [Session.setopt]
    by_cases hopt : opt.map toupper = o.name
    · rw [if_pos hopt] at hl
      rw [hopt, update_self, hl]
    · rw [if_neg hopt] at hl
      rw [update_of_ne (Ne.symm hopt)]
      exact h.stored o v hl

/-- What is copied is what was asked for. -/
lemma Inv.copyOpts (h : Inv bin s) (ho : o.type ≠ .toggle) :
    (copyOpts s.package s.table).val o = askedAfter s o := by
  rw [copyOpts_val ho, askedAfter, ← h.table o ho]
  cases hl : lastSet o s.sets with
  | none =>
    dsimp only
    split
    · cases hv : s.package.opts o.name with
      | none => rfl
      | some v => obtain hn | hn := h.copied o ho (.inl hl) v hv <;> simp [hn]
    · rfl
  | some v =>
    have hv := h.stored o v hl
    dsimp only
    rw [hv, optSetVal_old ho _ (.int 0)]
    split
    · rfl
    · obtain hn | hn := h.copied o ho (.inr (by simp_all)) v hv <;> simp [hn]

/-- What was copied is in the hash, unless it is no value. -/
lemma Inv.agrees_copyOpts (h : Inv bin s) (ho : o.type ≠ .toggle) {v : Scalar}
    (hv : s.package.opts o.name = some v) : Agrees o v (Session.copyOpts s.package s.table) := by
  unfold Agrees
  rw [copyOpts_val ho, hv, Option.bind_some]
  split
  · cases optSetVal o (.int 0) (v.getD []) with
    | none => exact .inl rfl
    | some w => exact .inr rfl
  · exact h.copied o ho (.inr (by simp_all)) v hv

lemma Inv.loopTop (h : Inv bin s) (hempty : s.numrun ≠ 0 → s.package.cleanup = []) :
    Inv bin (loopTop s) := by
  refine { h with first := fun hp => ?_, loop := fun hp => ?_, cleaned := fun _ => hempty }
  · simp only [Session.loopTop] at hp
    split at hp <;> cases hp
  · simp only [Session.loopTop] at hp ⊢
    by_contra hcon
    rw [if_neg hcon] at hp
    cases hp

lemma Inv.finish (h : Inv bin s) (hp : s.phase = .cleaning) (hempty : s.package.cleanup = []) :
    Inv bin (finish s) := by
  refine Inv.loopTop ⟨wf_copyOpts h.wf s.package, fun _ ho => h.copyOpts ho,
    fun _ ho _ _ hv => h.agrees_copyOpts ho hv, fun _ _ hl => ?_, fun hs => ?_, fun hs => ?_, h.cleanup,
    fun hs => ?_, h.shutdown⟩ fun _ => hempty
  · simp [lastSet] at hl
  · cases hp.symm.trans hs
  · cases hp.symm.trans hs
  · cases hp.symm.trans hs

lemma inv_start (ht : t.Wf bin) : Inv bin (start t) where
  wf := ht
  table _ _ := rfl
  copied _ ho _ _ hv := agrees_xsInit ht ho hv
  stored _ _ hl := by simp [start, lastSet] at hl
  first _ := rfl
  loop hp := by simp [start] at hp
  cleanup := rfl
  cleaned hp := by simp [start] at hp
  shutdown := rfl

lemma Inv.phase (h : Inv bin s) {ph : Phase} (hs : ph ≠ .starting) (hw : ph ≠ .waiting) :
    Inv bin { s with phase := ph } :=
  { h with
    first := fun hp => absurd hp hs
    loop := fun hp => absurd hp hw
    cleaned := fun hp => absurd hp hw }

lemma Phase.perl_ne {ph : Phase} (h : ph.perl = true) : ph ≠ .waiting := by
  rintro rfl
  cases h

lemma step_inv (h : Inv bin s) (hs : step s a = some s') : Inv bin s' := by
  cases a with
  | started =>
    simp only [step] at hs
    split at hs <;> cases hs
    exact h.loopTop fun hn => absurd (h.first ‹_›) hn
  | accept =>
    simp only [step] at hs
    split at hs <;> cases hs
    exact h.phase (by decide) (by decide)
  | leave =>
    simp only [step] at hs
    split at hs <;> cases hs
    exact h.phase (by decide) (by decide)
  | setopt opt val =>
    simp only [step] at hs
    split at hs <;> cases hs
    exact h.setopt opt val
  | registerCleanup f =>
    simp only [step] at hs
    split at hs <;> cases hs
    rename_i hp
    exact { h with
      cleanup := by rw [← h.cleanup, List.append_assoc]
      cleaned := fun hw => absurd hw (Phase.perl_ne hp) }
  | addShutdownHandler f =>
    simp only [step] at hs
    split at hs <;> cases hs
    exact { h with shutdown := by rw [← h.shutdown, List.append_assoc] }
  | setShutdownHandler f =>
    simp only [step] at hs
    split at hs <;> cases hs
    exact { h with }
  | ran =>
    simp only [step] at hs
    split at hs <;> cases hs
    exact h.phase (by decide) (by decide)
  | cleanup =>
    simp only [step] at hs
    split at hs <;> try cases hs
    rename_i hp
    split at hs <;> cases hs
    · rename_i f fs hfs
      exact { h with
        cleanup := by rw [← h.cleanup, hfs, List.append_assoc, List.singleton_append]
        cleaned := fun hw => absurd (hp.symm.trans hw) (by decide) }
    · exact h.finish hp ‹_›
  | shutdown =>
    simp only [step] at hs
    split at hs <;> try cases hs
    split at hs <;> cases hs
    · rename_i f fs hfs
      exact { h with
        shutdown := by rw [← h.shutdown, hfs, List.append_assoc, List.singleton_append] }
    · exact { (show Inv bin { s with phase := .ended } from h.phase (by decide) (by decide)) with }

lemma Reachable.inv (ht : t.Wf bin) (h : Reachable t s) : Inv bin s :=
  ReachOk.inv (inv_start ht) (fun _ _ _ _ hi _ hs => step_inv hi hs) h

/-- Every function that was registered is called once and in its turn: those for the end of a request,
and those registered before the first one, before the next one is waited for; those for the end of the
backend before its last handler. -/
theorem functions_called {l : List (OptName × CStr)} (h : Reachable (setAll (.default bin) l) s) :
    (s.called <+: s.registered ∧ (s.phase = .waiting → s.numrun ≠ 0 → s.called = s.registered)) ∧
    s.shutCalled <+: s.shutRegistered ∧
    ∀ s', step s .shutdown = some s' → s'.phase = .ended → s'.shutCalled = s'.shutRegistered := by
  have hinv := h.inv ((OptTable.wf_default bin).setAll l)
  refine ⟨⟨⟨_, hinv.cleanup⟩, fun hp hn => ?_⟩, ⟨_, hinv.shutdown⟩, fun s' hs hp => ?_⟩
  · rw [← hinv.cleanup, hinv.cleaned hp hn, List.append_nil]
  · have hinv' := step_inv hinv hs
    simp only [step] at hs
    split at hs <;> try cases hs
    rename_i hphase
    split at hs <;> cases hs
    · exact absurd (hphase.symm.trans hp) (by decide)
    · rename_i hempty
      rw [← hinv.shutdown, hempty, List.append_nil]

/-- One function registered by a `BEGIN` block, and one that registers another one while the functions
are called. -/
theorem functions_called_nested : ∃ s : State, s.phase = .waiting ∧ s.called = [5, 7, 8] := by
  have hrun : (run step (start (setAll (.default []) [])) [.registerCleanup 5, .started, .accept,
      .registerCleanup 7, .ran, .cleanup, .cleanup, .registerCleanup 8, .cleanup, .cleanup]).map
        (fun s => (s.phase, s.numrun, s.registered)) = some (.waiting, 1, [5, 7, 8]) := by
    decide +kernel
  obtain ⟨s, hs, hq⟩ := exists_reach _ _ hrun
  have hs : Reachable (setAll (.default []) []) s := hs
  obtain ⟨hp, hq⟩ := Prod.mk.inj hq
  obtain ⟨hn, hreg⟩ := Prod.mk.inj hq
  exact ⟨s, hp, ((functions_called hs).1.2 hp (by simp [hn])).trans hreg⟩

end

end SpeedyCgi.Perl.Session
