import SpeedyCgi.Options.OptInit
import Mathlib.Data.List.Induction

/-!
What a sequence of settings makes of the options.

A value is set some number of times, on the command line and from the environment; `after` is what
they make of it, and `lastVal` is the last of these that is not rejected.
-/

namespace SpeedyCgi.Options

open Lib.CString

/-- Settings of options, one after the other. -/
def setAll (t : OptTable) (l : List (OptName × CStr)) : OptTable :=
  l.foldl (fun t x => speedyOptSet t x.1 x.2) t

/-- The settings on a command line. -/
def settings (argv : List CStr) : List (OptName × CStr) :=
  (cmdlineSplit argv []).speedyOpts.filterMap optOf

/-- The settings in an environment. -/
def envSettings (envp : List CStr) : List (OptName × CStr) := envp.filterMap envOf

lemma processSpeedyOpts_ok {t t' : OptTable} {l : List CStr} (h : processSpeedyOpts t l = .ok t') :
    (∀ s ∈ l, (optOf s).isSome) ∧ t' = setAll t (l.filterMap optOf) := by
  induction l generalizing t with
  | nil =>
    obtain rfl : t = t' := by simpa [processSpeedyOpts] using h
    exact ⟨by simp, rfl⟩
  | cons s l ih =>
    rw [processSpeedyOpts] at h
    split at h
    next o value ho =>
      obtain ⟨hall, rfl⟩ := ih h
      refine ⟨fun s' hs' => ?_, by simp [setAll, ho]⟩
      rcases List.mem_cons.mp hs' with rfl | hs'
      · simp [ho]
      · exact hall s' hs'
    next => simp at h

lemma processSpeedyOpts_of {t : OptTable} {l : List CStr} (h : ∀ s ∈ l, (optOf s).isSome) :
    processSpeedyOpts t l = .ok (setAll t (l.filterMap optOf)) := by
  induction l generalizing t with
  | nil => rfl
  | cons s l ih =>
    obtain ⟨x, hx⟩ := Option.isSome_iff_exists.mp (h s List.mem_cons_self)
    simp only [processSpeedyOpts, hx, ih fun s' hs' => h s' (List.mem_cons_of_mem _ hs'),
      List.filterMap_cons, setAll, List.foldl_cons]

lemma foldl_setFromEnv (t : OptTable) (envp : List CStr) :
    envp.foldl setFromEnv t = setAll t (envSettings envp) := by
  induction envp generalizing t with
  | nil => rfl
  | cons s l ih =>
    rw [List.foldl_cons, ih, envSettings, envSettings, List.filterMap_cons]
    unfold setFromEnv
    cases envOf s with
    | none => rfl
    | some x => rfl

/-! ### One option -/

/-- What becomes of the value `v` of `o`. -/
def after (o : OptName) (v : OptVal) (l : List (OptName × CStr)) : OptVal :=
  l.foldl (fun v x => if x.1 = o then (optSetVal o v x.2).getD v else v) v

@[simp] lemma after_append (o : OptName) (v : OptVal) (l l' : List (OptName × CStr)) :
    after o v (l ++ l') = after o (after o v l) l' := List.foldl_append

lemma speedyOptSet_val (t : OptTable) (o o' : OptName) (value : CStr) :
    (speedyOptSet t o' value).val o =
      if o' = o then (optSetVal o (t.val o) value).getD (t.val o) else t.val o := by
  unfold speedyOptSet
  by_cases h : o' = o
  · subst h
    rw [if_pos rfl]
    cases optSetVal o' (t.val o') value with
    | none => rfl
    | some v => simp [OptTable.store]
  · rw [if_neg h]
    split
    · simp [OptTable.store, Function.update_of_ne (Ne.symm h)]
    · rfl

lemma setAll_val (o : OptName) (t : OptTable) (l : List (OptName × CStr)) :
    (setAll t l).val o = after o (t.val o) l := by
  induction l generalizing t with
  | nil => rfl
  | cons x l ih =>
    simp only [setAll, List.foldl_cons] at ih ⊢
    rw [ih, speedyOptSet_val]
    rfl

/-- The last value given to `o` that is not rejected. -/
def lastVal (o : OptName) (l : List (OptName × CStr)) : Option OptVal :=
  l.reverse.findSome? fun x => if x.1 = o then optSetVal o (.int 0) x.2 else none

/-- Except for a toggle, what an option is set to does not depend on what it was. -/
lemma optSetVal_old {o : OptName} (ho : o.type ≠ .toggle) (v w : OptVal) (value : CStr) :
    optSetVal o v value = optSetVal o w value := by
  unfold optSetVal
  cases h : o.type <;> first | rfl | exact absurd h ho

lemma after_eq {o : OptName} (ho : o.type ≠ .toggle) (v : OptVal) (l : List (OptName × CStr)) :
    after o v l = (lastVal o l).getD v := by
  induction l using List.reverseRecOn with
  | nil => rfl
  | append_singleton l x ih =>
    have hstep : after o v (l ++ [x]) =
        if x.1 = o then (optSetVal o (after o v l) x.2).getD (after o v l) else after o v l := by
      rw [after_append]
      rfl
    have hlast : lastVal o (l ++ [x]) =
        (if x.1 = o then optSetVal o (.int 0) x.2 else none).or (lastVal o l) := by
      simp only [lastVal, List.reverse_append, List.reverse_cons, List.reverse_nil, List.nil_append,
        List.singleton_append, List.findSome?_cons]
      cases (if x.1 = o then optSetVal o (.int 0) x.2 else none) <;> rfl
    rw [hstep, hlast, optSetVal_old ho _ (.int 0)]
    by_cases hx : x.1 = o
    · rw [if_pos hx, if_pos hx]
      cases optSetVal o (.int 0) x.2 with
      | none => exact ih
      | some w => rfl
    · rw [if_neg hx, if_neg hx]
      exact ih

/-- The two values of a toggle. -/
def Bit (v : OptVal) : Prop := v = .int 0 ∨ v = .int 1

/-- A toggle that is set as often ends with different values if it begins with different ones, and
one more time makes the difference wherever it comes. -/
lemma after_toggle {o : OptName} (ho : o.type = .toggle) (l : List (OptName × CStr)) :
    (after o (.int 0) l = .int 0 ∧ after o (.int 1) l = .int 1) ∨
      (after o (.int 0) l = .int 1 ∧ after o (.int 1) l = .int 0) := by
  induction l using List.reverseRecOn with
  | nil => exact .inl ⟨rfl, rfl⟩
  | append_singleton l x ih =>
    have hset : ∀ v, optSetVal o v x.2 = some (.int (if v = .int 0 then 1 else 0)) := by
      intro v
      simp only [optSetVal, ho]
    have hstep : ∀ v, after o v (l ++ [x]) =
        if x.1 = o then .int (if after o v l = .int 0 then 1 else 0) else after o v l := by
      intro v
      rw [after_append]
      simp only [after, List.foldl_cons, List.foldl_nil, hset, Option.getD_some]
      rfl
    rw [hstep, hstep]
    by_cases hx : x.1 = o
    · rcases ih with ⟨h0, h1⟩ | ⟨h0, h1⟩
      · exact .inr (by simp [hx, h0, h1])
      · exact .inl (by simp [hx, h0, h1])
    · simpa [hx] using ih

/-! ### Values that can be printed -/

def ValidVal (o : OptName) (v : OptVal) : Prop :=
  match o.type with
  | .str => ∃ s, v = .str (some s) ∧ (o = .group → s ≠ [])
  | .whole => ∃ n : Int, v = .int n ∧ 0 ≤ n ∧ n < 2 ^ 31
  | .natural => ∃ n : Int, v = .int n ∧ 1 ≤ n ∧ n < 2 ^ 31
  | .toggle => Bit v

lemma optSetVal_valid {o : OptName} {old v : OptVal} {value : CStr}
    (h : optSetVal o old value = some v) : ValidVal o v := by
  have hlt := atoi_lt value
  unfold optSetVal at h
  unfold ValidVal
  split at h
  next ho =>
    simp only [ho]
    refine ⟨_, (Option.some.inj h).symm, fun hg => ?_⟩
    split
    · decide +kernel
    · simp_all
  next ho =>
    simp only [ho]
    obtain rfl := Option.some.inj h
    unfold Bit
    split <;> simp
  next ho =>
    simp only [ho]
    split at h
    · simp at h
    · exact ⟨_, (Option.some.inj h).symm, by omega, hlt⟩
  next ho =>
    simp only [ho]
    split at h
    · simp at h
    · exact ⟨_, (Option.some.inj h).symm, by omega, hlt⟩

/-- A printed value is read back. -/
lemma optSetVal_get {t : OptTable} {o : OptName} (hv : ValidVal o (t.val o))
    (ho : o.type ≠ .toggle) (old : OptVal) : optSetVal o old (speedyOptGet t o) = some (t.val o) := by
  unfold ValidVal at hv
  unfold optSetVal speedyOptGet
  cases h : o.type with
  | str =>
    simp only [h] at hv
    obtain ⟨s, hs, hg⟩ := hv
    have : ¬ (o = .group ∧ s = []) := fun hc => hg hc.1 hc.2
    simp [hs, this]
  | whole =>
    simp only [h] at hv
    obtain ⟨n, hn, h0, h1⟩ := hv
    simp only [hn, atoi_showUnsigned h0 h1]
    rw [if_neg (by omega)]
  | natural =>
    simp only [h] at hv
    obtain ⟨n, hn, h0, h1⟩ := hv
    simp only [hn, atoi_showUnsigned (by omega) h1]
    rw [if_neg (by omega)]
  | toggle => exact absurd h ho

/-- What options can be before `speedy_opt_init`: default, or set to something. -/
structure OptTable.Wf (bin : CStr) (t : OptTable) : Prop where
  default : ∀ o, t.changed o = false → t.val o = o.defval bin
  valid : ∀ o, t.changed o = true → ValidVal o (t.val o)

lemma OptTable.Wf.set {bin : CStr} {t : OptTable} (ht : t.Wf bin) (o : OptName) (value : CStr) :
    (speedyOptSet t o value).Wf bin := by
  unfold speedyOptSet
  split
  next v hv =>
    constructor <;> intro o' h <;> simp only [OptTable.store] at h ⊢
    · rw [Function.update_apply] at h ⊢
      split at h
      · simp at h
      · rw [if_neg (by assumption)]
        exact ht.default o' h
    · rw [Function.update_apply] at h ⊢
      split
      next he => exact he ▸ optSetVal_valid hv
      next he =>
        rw [if_neg he] at h
        exact ht.valid o' h
  next => exact ht

lemma OptTable.Wf.setAll {bin : CStr} {t : OptTable} (ht : t.Wf bin) (l : List (OptName × CStr)) :
    (setAll t l).Wf bin := by
  induction l generalizing t with
  | nil => exact ht
  | cons x l ih => exact ih (ht.set x.1 x.2)

lemma OptTable.wf_default (bin : CStr) : (OptTable.default bin).Wf bin :=
  ⟨fun _ _ => rfl, by simp [OptTable.default]⟩

end SpeedyCgi.Options
