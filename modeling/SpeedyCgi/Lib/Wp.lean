import Mathlib.Algebra.Order.Ring.Int
import Mathlib.Tactic.Common

/-!
Weakest preconditions for programs that change a state and may fail.

`wp ok m Q s`: from the state `s` the program `m` ends in `Q`, or fails with an error that `ok`
allows. `wpr` says the same of a program whose states are only known through an abstraction
relation: from every state that represents `t`, the program ends in a state that represents some
`t'` with `Q`. A proof about `wpr` never mentions a concrete state again once the primitive
operations have been related to what they do to the abstract one.
-/

namespace SpeedyCgi.Lib.Wp

variable {σ τ ε α β : Type} {ok : ε → Prop} {R : σ → τ → Prop}

def wp (ok : ε → Prop) (m : StateT σ (Except ε) α) (Q : α → σ → Prop) (s : σ) : Prop :=
  match m s with
  | .ok (a, s') => Q a s'
  | .error e => ok e

@[simp] lemma wp_pure (a : α) (Q : α → σ → Prop) (s : σ) :
    wp ok (pure a : StateT σ (Except ε) α) Q s ↔ Q a s := Iff.rfl

@[simp] lemma wp_bind (m : StateT σ (Except ε) α) (k : α → StateT σ (Except ε) β)
    (Q : β → σ → Prop) (s : σ) :
    wp ok (m >>= k) Q s ↔ wp ok m (fun a s' => wp ok (k a) Q s') s := by
  simp only [wp, Bind.bind, StateT.bind]
  cases m s with
  | error e => rfl
  | ok r => rfl

@[simp] lemma wp_get (Q : σ → σ → Prop) (s : σ) :
    wp ok (get : StateT σ (Except ε) σ) Q s ↔ Q s s := Iff.rfl

@[simp] lemma wp_modify (f : σ → σ) (Q : Unit → σ → Prop) (s : σ) :
    wp ok (modify f : StateT σ (Except ε) Unit) Q s ↔ Q () (f s) := Iff.rfl

@[simp] lemma wp_throw (e : ε) (Q : α → σ → Prop) (s : σ) :
    wp ok (throw e : StateT σ (Except ε) α) Q s ↔ ok e := Iff.rfl

@[simp] lemma wp_ite (c : Prop) [Decidable c] (m m' : StateT σ (Except ε) α) (Q : α → σ → Prop)
    (s : σ) : wp ok (if c then m else m') Q s ↔ if c then wp ok m Q s else wp ok m' Q s := by
  split <;> rfl

lemma wp_imp {ok' : ε → Prop} {m : StateT σ (Except ε) α} {Q Q' : α → σ → Prop} {s : σ}
    (h : wp ok m Q s) (hok : ∀ e, ok e → ok' e) (hQ : ∀ a s', Q a s' → Q' a s') : wp ok' m Q' s := by
  unfold wp at h ⊢
  split at h
  · exact hQ _ _ h
  · exact hok _ h

lemma wp_mono {m : StateT σ (Except ε) α} {Q Q' : α → σ → Prop} {s : σ} (h : wp ok m Q s)
    (hQ : ∀ a s', Q a s' → Q' a s') : wp ok m Q' s := wp_imp h (fun _ => id) hQ

/-- What a program that has returned has ended in. -/
lemma wp_ok {m : StateT σ (Except ε) α} {Q : α → σ → Prop} {s s' : σ} {a : α}
    (h : wp ok m Q s) (hm : m s = .ok (a, s')) : Q a s' := by
  simpa [wp, hm] using h

/-- A program that cannot fail returns. -/
lemma exists_of_wp {m : StateT σ (Except ε) α} {Q : α → σ → Prop} {s : σ}
    (h : wp (fun _ => False) m Q s) : ∃ a s', m s = .ok (a, s') ∧ Q a s' := by
  unfold wp at h
  split at h
  · exact ⟨_, _, ‹_›, h⟩
  · exact h.elim

lemma eq_of_wp {m : StateT σ (Except ε) α} {s : σ} {r : α × σ}
    (h : wp (fun _ => False) m (fun a s' => (a, s') = r) s) : m s = .ok r := by
  obtain ⟨a, s', hm, rfl⟩ := exists_of_wp h
  exact hm

/-- Where it returns, the program has not left the states of `P`. -/
def Keeps (P : σ → Prop) (m : StateT σ (Except ε) α) : Prop :=
  ∀ s, P s → wp (fun _ => True) m (fun _ s' => P s') s

section Keeps
variable {P : σ → Prop} {m : StateT σ (Except ε) α}

lemma keeps_pure (a : α) : Keeps P (pure a : StateT σ (Except ε) α) := fun _ hs => hs

lemma keeps_get : Keeps P (get : StateT σ (Except ε) σ) := fun _ hs => hs

lemma keeps_throw (e : ε) : Keeps P (throw e : StateT σ (Except ε) α) := fun _ _ => trivial

lemma keeps_modify {f : σ → σ} (hf : ∀ s, P s → P (f s)) :
    Keeps P (modify f : StateT σ (Except ε) Unit) := hf

lemma keeps_bind {k : α → StateT σ (Except ε) β} (hm : Keeps P m) (hk : ∀ a, Keeps P (k a)) :
    Keeps P (m >>= k) := by
  intro s hs
  rw [wp_bind]
  exact wp_mono (hm s hs) fun a s' hs' => hk a s' hs'

lemma keeps_ite {c : Prop} [Decidable c] {m' : StateT σ (Except ε) α} (h : Keeps P m)
    (h' : Keeps P m') : Keeps P (if c then m else m') := by
  split
  · exact h
  · exact h'

end Keeps

/-- What the program returns, where it returns, meets `P`. -/
def Returns (P : α → Prop) (m : StateT σ (Except ε) α) : Prop := ∀ s a s', m s = .ok (a, s') → P a

section Returns
variable {P : β → Prop}

lemma returns_pure {b : β} (h : P b) : Returns P (pure b : StateT σ (Except ε) β) := by
  intro s a s' hm
  cases hm
  exact h

lemma returns_bind {m : StateT σ (Except ε) α} {k : α → StateT σ (Except ε) β}
    (hk : ∀ a, Returns P (k a)) : Returns P (m >>= k) := by
  intro s b s' hm
  simp only [Bind.bind, StateT.bind] at hm
  cases hms : m s with
  | error e => simp [hms, Except.bind] at hm
  | ok r => exact hk r.1 r.2 b s' (by simpa [hms, Except.bind] using hm)

lemma returns_ite {c : Prop} [Decidable c] {m m' : StateT σ (Except ε) β} (h : c → Returns P m)
    (h' : ¬ c → Returns P m') : Returns P (if c then m else m') := by
  split
  · exact h ‹_›
  · exact h' ‹_›

end Returns

/-- The weakest precondition over an abstraction `R` of the state. -/
def wpr (R : σ → τ → Prop) (ok : ε → Prop) (m : StateT σ (Except ε) α) (Q : α → τ → Prop)
    (t : τ) : Prop :=
  ∀ s, R s t → wp ok m (fun a s' => ∃ t', R s' t' ∧ Q a t') s

variable {t : τ} {Q Q' : α → τ → Prop} {m m' : StateT σ (Except ε) α}

lemma wpr_pure {a : α} (h : Q a t) : wpr R ok (pure a) Q t := fun _ hs => ⟨t, hs, h⟩

lemma wpr_bind {k : α → StateT σ (Except ε) β} {Q : β → τ → Prop}
    (h : wpr R ok m (fun a t' => wpr R ok (k a) Q t') t) : wpr R ok (m >>= k) Q t := by
  intro s hs
  rw [wp_bind]
  exact wp_mono (h s hs) fun a s' ⟨t', hs', hk⟩ => hk s' hs'

lemma wpr_mono (h : wpr R ok m Q t) (hQ : ∀ a t', Q a t' → Q' a t') : wpr R ok m Q' t :=
  fun s hs => wp_mono (h s hs) fun a _ ⟨t', hs', hq⟩ => ⟨t', hs', hQ a t' hq⟩

lemma wpr_ite {c : Prop} [Decidable c] (h : c → wpr R ok m Q t) (h' : ¬ c → wpr R ok m' Q t) :
    wpr R ok (if c then m else m') Q t := by
  split
  · exact h ‹_›
  · exact h' ‹_›

lemma wpr_throw {e : ε} (h : ok e) : wpr R ok (throw e : StateT σ (Except ε) α) Q t :=
  fun _ _ => h

/-- What a program that has returned from a state representing `t` has ended in. -/
lemma wpr_ok {s s' : σ} {a : α} (h : wpr R ok m Q t) (hs : R s t) (hm : m s = .ok (a, s')) :
    ∃ t', R s' t' ∧ Q a t' := wp_ok (h s hs) hm

end SpeedyCgi.Lib.Wp
