import Mathlib.Algebra.Order.Ring.Int
import Mathlib.Tactic.Common

/-!
Labelled transition systems given by a partial step function.

A system is an initial state and a function that says where an action leads, if the action is
possible at all. `ReachOk ok` restricts the runs to those whose actions all meet `ok` in the
state they are taken in; with `ok` always true these are all the runs of the system.
-/

namespace SpeedyCgi.Lib.Lts

variable {σ α : Type*} (step : σ → α → Option σ) (init : σ)

/-- The states reached by runs whose actions all meet `ok`. -/
inductive ReachOk (ok : σ → α → Prop) : σ → Prop
  | init : ReachOk ok init
  | step {s s' : σ} {a : α} (h : ReachOk ok s) (hok : ok s a) (hs : step s a = some s') :
      ReachOk ok s'

/-- The states reached by any run. -/
abbrev Reach : σ → Prop := ReachOk step init fun _ _ => True

/-- The state after the actions of a list, if all of them are possible. -/
def run : σ → List α → Option σ
  | s, [] => some s
  | s, a :: as => (step s a).bind fun s' => run s' as

variable {step init} {ok : σ → α → Prop}

/-- An invariant of the steps that meet `ok` holds in every state such steps reach. -/
theorem ReachOk.inv {P : σ → Prop} (h0 : P init)
    (hstep : ∀ s a s', ReachOk step init ok s → P s → ok s a → step s a = some s' → P s')
    {s : σ} (h : ReachOk step init ok s) : P s := by
  induction h with
  | init => exact h0
  | step h hok hs ih => exact hstep _ _ _ h ih hok hs

/-- Fewer restrictions reach more states. -/
theorem ReachOk.mono {ok' : σ → α → Prop} (hsub : ∀ s a, ok s a → ok' s a) {s : σ}
    (h : ReachOk step init ok s) : ReachOk step init ok' s := by
  induction h with
  | init => exact .init
  | step _ hok hs ih => exact .step ih (hsub _ _ hok) hs

/-- A run from a reachable state ends in a reachable state. -/
theorem Reach.run {s s' : σ} {as : List α} (h : Reach step init s)
    (hr : run step s as = some s') : Reach step init s' := by
  induction as generalizing s with
  | nil => obtain rfl : s = s' := by simpa [Lts.run] using hr
           exact h
  | cons a as ih =>
      obtain ⟨t, ht, hr⟩ := Option.bind_eq_some_iff.mp hr
      exact ih (.step h trivial ht) hr

/-- What a run from the initial state ends with holds of a reachable state. -/
theorem exists_reach {β : Type*} (f : σ → β) {b : β} (as : List α)
    (h : (run step init as).map f = some b) : ∃ s, Reach step init s ∧ f s = b := by
  obtain ⟨s, hs, hb⟩ := Option.map_eq_some_iff.mp h
  exact ⟨s, Reach.run .init hs, hb⟩

/-- The state after the actions of a list, if all of them are possible and meet `ok`. -/
def runOk (step : σ → α → Option σ) (ok : σ → α → Bool) : σ → List α → Option σ
  | s, [] => some s
  | s, a :: as => if ok s a then (step s a).bind fun s' => runOk step ok s' as else none

/-- What the steps of a run keep holds where it ends. -/
theorem runOk_keeps {ok : σ → α → Bool} {P : σ → Prop} {s s' : σ} {as : List α} (h : P s)
    (hstep : ∀ s, ∀ a ∈ as, ∀ s', P s → ok s a = true → step s a = some s' → P s')
    (hr : runOk step ok s as = some s') : P s' := by
  induction as generalizing s with
  | nil => obtain rfl : s = s' := by simpa [runOk] using hr
           exact h
  | cons a as ih =>
      simp only [runOk, Option.ite_none_right_eq_some] at hr
      obtain ⟨hok, hr⟩ := hr
      obtain ⟨t, ht, hr⟩ := Option.bind_eq_some_iff.mp hr
      exact ih (hstep s a List.mem_cons_self t h hok ht)
        (fun s a ha => hstep s a (List.mem_cons_of_mem _ ha)) hr

theorem ReachOk.run {ok : σ → α → Bool} {s s' : σ} {as : List α}
    (h : ReachOk step init (fun s a => ok s a = true) s) (hr : runOk step ok s as = some s') :
    ReachOk step init (fun s a => ok s a = true) s' :=
  runOk_keeps h (fun _ _ _ _ h hok hs => .step h hok hs) hr

theorem exists_reachOk {β : Type*} {ok : σ → α → Bool} (f : σ → β) {b : β} (as : List α)
    (h : (runOk step ok init as).map f = some b) :
    ∃ s, ReachOk step init (fun s a => ok s a = true) s ∧ f s = b := by
  obtain ⟨s, hs, hb⟩ := Option.map_eq_some_iff.mp h
  exact ⟨s, ReachOk.run .init hs, hb⟩

/-! ### Two systems -/

section
variable {τ β : Type*} {step' : τ → α → Option τ} {R : σ → τ → Prop}

lemma rel_bind {σ' τ' : Type*} {S : σ' → τ' → Prop} {x : Option σ} {y : Option τ}
    {f : σ → Option σ'} {g : τ → Option τ'} (h : Option.Rel R x y)
    (hfg : ∀ s t, R s t → Option.Rel S (f s) (g t)) : Option.Rel S (x.bind f) (y.bind g) := by
  cases h with
  | none => exact .none
  | some h => exact hfg _ _ h

lemma rel_map {σ' τ' : Type*} {S : σ' → τ' → Prop} {x : Option σ} {y : Option τ} {f : σ → σ'}
    {g : τ → τ'} (h : Option.Rel R x y) (hfg : ∀ s t, R s t → S (f s) (g t)) :
    Option.Rel S (x.map f) (y.map g) := by
  cases h with
  | none => exact .none
  | some h => exact .some (hfg _ _ h)

lemma rel_bind_self {σ' τ' : Type*} {S : σ' → τ' → Prop} (x : Option β) {f : β → Option σ'}
    {g : β → Option τ'} (hfg : ∀ b, Option.Rel S (f b) (g b)) :
    Option.Rel S (x.bind f) (x.bind g) := by
  cases x with
  | none => exact .none
  | some b => exact hfg b

lemma map_eq_of_rel {f : σ → β} {g : τ → β} {x : Option σ} {y : Option τ} (h : Option.Rel R x y)
    (hfg : ∀ s t, R s t → f s = g t) : x.map f = y.map g := by
  cases h with
  | none => rfl
  | some h => simpa using hfg _ _ h

/-- From related states the same actions lead to related states, if those of one step do. -/
theorem run_rel (hstep : ∀ s t a, R s t → Option.Rel R (step s a) (step' t a)) {s : σ} {t : τ}
    (h : R s t) (as : List α) : Option.Rel R (run step s as) (run step' t as) := by
  induction as generalizing s t with
  | nil => exact .some h
  | cons a as ih => exact rel_bind (hstep s t a h) fun s t h => ih h

end

end SpeedyCgi.Lib.Lts
