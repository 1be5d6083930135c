import SpeedyCgi.Options.Settings

/-!
The option records in memory, and what `speedy_opt_save` and `speedy_opt_restore` do to them.

A record points to its value: to a string of the program, to a string from `strdup`, or to the
integer cell that the option has for good. The flag `mustFree` says that the string is the record's
to free. Addresses from `strdup` are never used again, so that a string that was freed stays so;
to free what is not there is a fault.
-/

namespace SpeedyCgi.Options

open Lib.CString

inductive Ptr
  | null
  | static (s : CStr)
  | heap (a : ℕ)
  | cell
deriving DecidableEq

structure OptRec where
  value : Ptr
  changed : Bool
  mustFree : Bool
deriving DecidableEq

structure OptMem where
  optdefs : OptName → OptRec
  optdefsSave : OptName → OptRec
  ints : OptName → Int
  heap : ℕ → Option CStr
  next : ℕ

inductive MemFault
  | badFree
  | badPointer
deriving DecidableEq

namespace OptMem

def setRec (m : OptMem) (o : OptName) (r : OptRec) : OptMem :=
  { m with optdefs := Function.update m.optdefs o r }

def setInt (m : OptMem) (o : OptName) (v : Int) : OptMem :=
  { m with
    ints := Function.update m.ints o v
    optdefs := Function.update m.optdefs o { m.optdefs o with changed := true } }

def speedyFree (m : OptMem) : Ptr → Except MemFault OptMem
  | .heap a =>
    if m.heap a = none then .error .badFree else .ok { m with heap := Function.update m.heap a none }
  | _ => .error .badFree

/-- The value that the live table has for `o`. -/
def val (m : OptMem) (o : OptName) : Option OptVal :=
  match (m.optdefs o).value with
  | .null => some (.str none)
  | .static s => some (.str (some s))
  | .heap a => (m.heap a).map fun s => .str (some s)
  | .cell => some (.int (m.ints o))

def freeValue (m : OptMem) (o : OptName) : Except MemFault OptMem :=
  if (m.optdefs o).mustFree ∧ (m.optdefs o).value ≠ .null then m.speedyFree (m.optdefs o).value
  else .ok m

/-- The integer option `o` is set to what `f` makes of its value, unless that is nothing. -/
def updateInt (m : OptMem) (o : OptName) (f : Int → Option Int) : Except MemFault OptMem :=
  if (m.optdefs o).value = .cell then .ok (((f (m.ints o)).map (m.setInt o)).getD m)
  else .error .badPointer

def speedyOptSet (m : OptMem) (o : OptName) (value : CStr) : Except MemFault OptMem :=
  match o.type with
  | .str => do
    let m ← m.freeValue o
    if o = .group ∧ value = [] then pure (m.setRec o ⟨.static (str "default"), true, false⟩)
    else pure ({ m with
      heap := Function.update m.heap m.next (some value)
      next := m.next + 1 }.setRec o ⟨.heap m.next, true, true⟩)
  | .toggle => m.updateInt o fun v => some (if v = 0 then 1 else 0)
  | .whole => m.updateInt o fun _ => if atoi value < 0 then none else some (atoi value)
  | .natural => m.updateInt o fun _ => if atoi value < 1 then none else some (atoi value)

/-- The loop of `copy_optdefs`: it is always the live table that gives up its strings. -/
def clearMustFree (r : OptName → OptRec) (o : OptName) : OptRec := { r o with mustFree := false }

def speedyOptSave (m : OptMem) : OptMem :=
  { m with optdefsSave := m.optdefs, optdefs := clearMustFree m.optdefs }

def speedyOptRestore (m : OptMem) : Except MemFault OptMem := do
  let m ← speedyOptdefs.foldlM freeValue m
  pure { m with optdefs := clearMustFree m.optdefsSave }

/-- The settings of one `#!` line. -/
def setAll (m : OptMem) (l : List (OptName × CStr)) : Except MemFault OptMem :=
  l.foldlM (fun m x => m.speedyOptSet x.1 x.2) m

/-- Requests one after the other: the memory after each restore, and at the end of each request. -/
def runRequests (m : OptMem) :
    List (List (OptName × CStr)) → Except MemFault (List (OptMem × OptMem))
  | [] => .ok []
  | r :: reqs => do
    let restored ← m.speedyOptRestore
    let used ← restored.setAll r
    let trace ← used.runRequests reqs
    pure ((restored, used) :: trace)

/-! ### Memory in order -/

def Valid (m : OptMem) (o : OptName) : Ptr → Prop
  | .null | .static _ => o.type = .str
  | .heap a => o.type = .str ∧ m.heap a ≠ none
  | .cell => o.type ≠ .str

structure Wf (m : OptMem) : Prop where
  valid : ∀ o, m.Valid o (m.optdefs o).value
  own : ∀ o, (m.optdefs o).mustFree = true → ∃ a, (m.optdefs o).value = .heap a ∧
    ∀ o', o' ≠ o → (m.optdefs o').value ≠ .heap a
  fresh : ∀ a, m.next ≤ a → m.heap a = none

/-- What holds from the save `m₀` on. -/
structure Saved (m₀ m : OptMem) : Prop where
  wf : m.Wf
  save : m.optdefsSave = m₀.optdefs
  kept : ∀ o a, (m₀.optdefs o).value = .heap a → m.heap a = m₀.heap a ∧ m.heap a ≠ none
  apart : ∀ o o' a, (m.optdefs o).mustFree = true → (m.optdefs o).value = .heap a →
    (m₀.optdefs o').value ≠ .heap a

variable {m₀ m : OptMem}

lemma saved_save (h : m₀.Wf) : Saved m₀ m₀.speedyOptSave where
  wf := ⟨h.valid, by simp [speedyOptSave, clearMustFree], h.fresh⟩
  save := rfl
  kept o a ha := by
    have := h.valid o
    rw [ha] at this
    exact ⟨rfl, this.2⟩
  apart := by simp [speedyOptSave, clearMustFree]

/-- The string of a record that owns it. -/
lemma Wf.owned (h : m.Wf) {o : OptName} (ho : (m.optdefs o).mustFree = true) :
    ∃ a s, (m.optdefs o).value = .heap a ∧ m.heap a = some s ∧ o.type = .str ∧
      ∀ o', o' ≠ o → (m.optdefs o').value ≠ .heap a := by
  obtain ⟨a, ha, hother⟩ := h.own o ho
  have hv := h.valid o
  rw [ha] at hv
  obtain ⟨s, hs⟩ := Option.ne_none_iff_exists'.mp hv.2
  exact ⟨a, s, ha, hs, hv.1, hother⟩

lemma Wf.cell (h : m.Wf) {o : OptName} (ho : o.type ≠ .str) : (m.optdefs o).value = .cell := by
  have hv := h.valid o
  cases hval : (m.optdefs o).value with
  | cell => rfl
  | heap a => rw [hval] at hv; exact absurd hv.1 ho
  | null => rw [hval] at hv; exact absurd hv ho
  | static s => rw [hval] at hv; exact absurd hv ho

lemma Wf.val_int (h : m.Wf) {o : OptName} (ho : o.type ≠ .str) :
    m.val o = some (.int (m.ints o)) := by
  simp only [val, h.cell ho]

/-- Freeing the value of `o` takes away the string that `o` owns, if it owns one. -/
lemma Wf.freeValue (h : m.Wf) (o : OptName) : ∃ H, m.freeValue o = .ok { m with heap := H } ∧
    ∀ a, H a = m.heap a ∨
      (H a = none ∧ (m.optdefs o).mustFree = true ∧ (m.optdefs o).value = .heap a) := by
  by_cases ho : (m.optdefs o).mustFree = true
  · obtain ⟨a, s, ha, hs, -, -⟩ := h.owned ho
    refine ⟨Function.update m.heap a none, ?_, fun b => ?_⟩
    · simp [OptMem.freeValue, speedyFree, ho, ha, hs]
    · by_cases hb : b = a
      · exact .inr ⟨by simp [hb], ho, hb ▸ ha⟩
      · exact .inl (Function.update_of_ne hb _ _)
  · exact ⟨m.heap, by simp [OptMem.freeValue, ho], fun a => .inl rfl⟩

/-- A string option is set to a string that it owns, or to one of the program. -/
lemma Saved.setRec (h : Saved m₀ m) {o : OptName} (ho : o.type = .str) {H H' : ℕ → Option CStr}
    (hH : ∀ a, H a = m.heap a ∨
      (H a = none ∧ (m.optdefs o).mustFree = true ∧ (m.optdefs o).value = .heap a))
    (hH' : ∀ a, a ≠ m.next → H' a = H a) {n : ℕ}
    (hfresh : ∀ a, n ≤ a → H' a = none) {r : OptRec}
    (hr : (∃ s, r = ⟨.static s, true, false⟩) ∨
      (r = ⟨.heap m.next, true, true⟩ ∧ H' m.next ≠ none)) :
    Saved m₀ ({ m with heap := H', next := n }.setRec o r) ∧
      ∀ o', o' ≠ o → ({ m with heap := H', next := n }.setRec o r).val o' = m.val o' := by
  -- a string that is pointed to elsewhere has not been touched
  have hold : ∀ a, m.heap a ≠ none → ¬ ((m.optdefs o).mustFree = true ∧ (m.optdefs o).value = .heap a) →
      H' a = m.heap a := by
    intro a ha hne
    have hlt : a ≠ m.next := by
      rintro rfl
      exact ha (h.wf.fresh _ le_rfl)
    rcases hH a with he | ⟨-, he⟩
    · rw [hH' a hlt, he]
    · exact (hne he).elim
  have hother : ∀ o' a, o' ≠ o → (m.optdefs o').value = .heap a → H' a = m.heap a := by
    intro o' a hne ha
    have hv := h.wf.valid o'
    rw [ha] at hv
    refine hold a hv.2 fun ⟨hm, hval⟩ => ?_
    obtain ⟨b, hb, hothers⟩ := h.wf.own o hm
    obtain rfl : a = b := by simpa [hval] using hb
    exact hothers o' hne ha
  have hrec : ∀ o', o' ≠ o →
      ({ m with heap := H', next := n }.setRec o r).optdefs o' = m.optdefs o' := fun o' hne =>
    Function.update_of_ne hne _ _
  have hself : ({ m with heap := H', next := n }.setRec o r).optdefs o = r :=
    Function.update_self ..
  have hnext : m.heap m.next = none := h.wf.fresh _ le_rfl
  have hnew : ∀ o', (m.optdefs o').value ≠ .heap m.next := by
    intro o' ho'
    have hv := h.wf.valid o'
    rw [ho'] at hv
    exact hv.2 hnext
  refine ⟨⟨⟨fun o' => ?_, fun o' hm => ?_, fun a ha => hfresh a ha⟩, h.save, fun o' a ha => ?_,
    fun o₁ o' a hm ha => ?_⟩, fun o' hne => ?_⟩
  · by_cases hne : o' = o
    · subst hne
      rw [hself]
      rcases hr with ⟨s, rfl⟩ | ⟨rfl, hs⟩
      · exact ho
      · exact ⟨ho, hs⟩
    · rw [hrec o' hne]
      have hv := h.wf.valid o'
      cases hval : (m.optdefs o').value with
      | heap a =>
        rw [hval] at hv
        refine ⟨hv.1, ?_⟩
        have := hother o' a hne hval
        exact fun h0 => hv.2 (this ▸ h0)
      | _ => rw [hval] at hv; exact hv
  · by_cases hne : o' = o
    · subst hne
      rw [hself] at hm ⊢
      rcases hr with ⟨s, rfl⟩ | ⟨rfl, hs⟩
      · simp at hm
      · exact ⟨m.next, rfl, fun o₁ h₁ => by rw [hrec o₁ h₁]; exact hnew o₁⟩
    · rw [hrec o' hne] at hm ⊢
      obtain ⟨a, ha, hothers⟩ := h.wf.own o' hm
      refine ⟨a, ha, fun o₁ h₁ => ?_⟩
      by_cases h₁o : o₁ = o
      · subst h₁o
        rw [hself]
        rcases hr with ⟨s, rfl⟩ | ⟨rfl, hs⟩
        · simp
        · intro hc
          obtain rfl : m.next = a := by simpa using hc
          exact hnew o' ha
      · rw [hrec o₁ h₁o]
        exact hothers o₁ h₁
  · obtain ⟨he, hn⟩ := h.kept o' a ha
    have hold := hold a hn fun ⟨hm, hv⟩ => h.apart o o' a hm hv ha
    exact ⟨hold.trans he, fun h0 => hn (hold ▸ h0)⟩
  · by_cases hne : o₁ = o
    · subst hne
      rw [hself] at hm ha
      rcases hr with ⟨s, rfl⟩ | ⟨rfl, hs⟩
      · simp at hm
      · obtain rfl : m.next = a := by simpa using ha
        exact fun hc => (h.kept o' _ hc).2 hnext
    · rw [hrec o₁ hne] at hm ha
      exact h.apart o₁ o' a hm ha
  · unfold val
    rw [hrec o' hne]
    cases hval : (m.optdefs o').value with
    | heap a => exact congrArg (Option.map _) (hother o' a hne hval)
    | _ => rfl

/-- An integer option is set in its cell. -/
lemma Saved.updateInt (h : Saved m₀ m) {o : OptName} (ho : o.type ≠ .str) (f : Int → Option Int) :
    ∃ m', m.updateInt o f = .ok m' ∧ Saved m₀ m' ∧ (∀ o', o' ≠ o → m'.val o' = m.val o') ∧
      m'.val o = some (.int ((f (m.ints o)).getD (m.ints o))) ∧
      m.val o = some (.int (m.ints o)) := by
  have hcell := h.wf.cell ho
  have hval := h.wf.val_int ho
  refine ⟨_, by rw [OptMem.updateInt, if_pos hcell], ?_⟩
  cases f (m.ints o) with
  | none => exact ⟨h, fun _ _ => rfl, hval, hval⟩
  | some v =>
    -- the pointers are those of before
    have hvalue : ∀ o', ((m.setInt o v).optdefs o').value = (m.optdefs o').value := by
      intro o'
      by_cases hne : o' = o
      · simp [setInt, hne]
      · simp [setInt, Function.update_of_ne hne]
    have hfree : ∀ o', ((m.setInt o v).optdefs o').mustFree = (m.optdefs o').mustFree := by
      intro o'
      by_cases hne : o' = o
      · simp [setInt, hne]
      · simp [setInt, Function.update_of_ne hne]
    refine ⟨⟨⟨fun o' => ?_, fun o' hm => ?_, h.wf.fresh⟩, h.save, h.kept, fun o₁ o' a hm ha => ?_⟩,
      fun o' hne => ?_, ?_, hval⟩
    · rw [Option.map_some, Option.getD_some, hvalue]
      exact h.wf.valid o'
    · simp only [Option.map_some, Option.getD_some, hvalue, hfree] at hm ⊢
      exact h.wf.own o' hm
    · simp only [Option.map_some, Option.getD_some, hvalue, hfree] at hm ha
      exact h.apart o₁ o' a hm ha
    · simp only [Option.map_some, Option.getD_some, val, hvalue]
      cases (m.optdefs o').value with
      | cell => simp [setInt, Function.update_of_ne hne]
      | _ => rfl
    · simp only [Option.map_some, Option.getD_some, val, hvalue, hcell]
      simp [setInt]

/-- One setting: it is no fault, and changes the value of its option as it should. -/
lemma Saved.set (h : Saved m₀ m) (o : OptName) (value : CStr) :
    ∃ m', m.speedyOptSet o value = .ok m' ∧ Saved m₀ m' ∧ ∀ o', m'.val o' =
      (m.val o').map fun v => if o = o' then (optSetVal o' v value).getD v else v := by
  have hother : ∀ {m' : OptMem}, (∀ o', o' ≠ o → m'.val o' = m.val o') →
      (m'.val o = (m.val o).map fun v => (optSetVal o v value).getD v) → ∀ o', m'.val o' =
        (m.val o').map fun v => if o = o' then (optSetVal o' v value).getD v else v := by
    intro m' hne heq o'
    by_cases ho : o = o'
    · subst ho
      simpa using heq
    · simp [ho, hne o' (Ne.symm ho)]
  have hsome : ∃ v, m.val o = some v := by
    have hv := h.wf.valid o
    unfold val
    cases hval : (m.optdefs o).value with
    | heap a =>
      rw [hval] at hv
      obtain ⟨s, hs⟩ := Option.ne_none_iff_exists'.mp hv.2
      exact ⟨.str (some s), by simp only [hs, Option.map_some]⟩
    | _ => exact ⟨_, rfl⟩
  obtain ⟨v, hv⟩ := hsome
  cases ho : o.type with
  | str =>
    have hset : optSetVal o v value =
        some (.str (some (if o = .group ∧ value = [] then str "default" else value))) := by
      simp only [optSetVal, ho]
    obtain ⟨H, hfree, hH⟩ := h.wf.freeValue o
    have hfresh : ∀ a, m.next ≤ a → H a = none := by
      intro a ha
      rcases hH a with he | ⟨he, -⟩
      · rw [he, h.wf.fresh a ha]
      · exact he
    by_cases hdef : o = .group ∧ value = []
    · obtain ⟨hs, hval⟩ := h.setRec ho hH (fun _ _ => rfl) (n := m.next) hfresh
        (.inl ⟨str "default", rfl⟩)
      refine ⟨_, ?_, hs, hother hval ?_⟩
      · simp only [OptMem.speedyOptSet, ho, hfree, Bind.bind, Except.bind, if_pos hdef]
        rfl
      · rw [hv, Option.map_some, hset, if_pos hdef]
        simp [val, OptMem.setRec]
    · have hnew : (Function.update H m.next (some value)) m.next ≠ none := by simp
      obtain ⟨hs, hval⟩ := h.setRec ho hH (fun a ha => Function.update_of_ne ha _ _)
        (n := m.next + 1) (fun a ha => by
          rw [Function.update_of_ne (by omega)]
          exact hfresh a (by omega)) (.inr ⟨rfl, hnew⟩)
      refine ⟨_, ?_, hs, hother hval ?_⟩
      · simp only [OptMem.speedyOptSet, ho, hfree, Bind.bind, Except.bind, if_neg hdef]
        rfl
      · rw [hv, Option.map_some, hset, if_neg hdef]
        simp [val, OptMem.setRec]
  | toggle =>
    obtain ⟨m', hm', hs, hne, hself, hold⟩ := h.updateInt (o := o) (by simp [ho]) _
    refine ⟨m', by rw [OptMem.speedyOptSet, ho]; exact hm', hs, hother hne ?_⟩
    simp [hself, hold, optSetVal, ho]
  | whole =>
    obtain ⟨m', hm', hs, hne, hself, hold⟩ := h.updateInt (o := o) (by simp [ho]) _
    refine ⟨m', by rw [OptMem.speedyOptSet, ho]; exact hm', hs, hother hne ?_⟩
    simp only [hself, hold, optSetVal, ho, Option.map_some]
    split <;> rfl
  | natural =>
    obtain ⟨m', hm', hs, hne, hself, hold⟩ := h.updateInt (o := o) (by simp [ho]) _
    refine ⟨m', by rw [OptMem.speedyOptSet, ho]; exact hm', hs, hother hne ?_⟩
    simp only [hself, hold, optSetVal, ho, Option.map_some]
    split <;> rfl

lemma Saved.setAll (h : Saved m₀ m) (l : List (OptName × CStr)) :
    ∃ m', m.setAll l = .ok m' ∧ Saved m₀ m' ∧
      ∀ o, m'.val o = (m.val o).map fun v => after o v l := by
  induction l generalizing m with
  | nil => exact ⟨m, rfl, h, fun o => by simp [after]⟩
  | cons x l ih =>
    obtain ⟨m₁, h₁, hs₁, hv₁⟩ := h.set x.1 x.2
    obtain ⟨m', h', hs', hv'⟩ := ih hs₁
    refine ⟨m', ?_, hs', fun o => ?_⟩
    · simp only [OptMem.setAll, List.foldlM_cons, h₁] at h' ⊢
      exact h'
    · rw [hv', hv₁, Option.map_map]
      rfl

/-! ### The restore -/

/-- The loop of `speedy_opt_restore` frees what the live table owns, and nothing else. -/
lemma freeAll {l : List OptName} (hl : l.Nodup) {m : OptMem}
    (hown : ∀ o ∈ l, (m.optdefs o).mustFree = true → ∃ a, (m.optdefs o).value = .heap a ∧
      m.heap a ≠ none ∧ ∀ o', o' ≠ o → (m.optdefs o').value ≠ .heap a) :
    ∃ H, l.foldlM OptMem.freeValue m = .ok { m with heap := H } ∧ ∀ a, H a = m.heap a ∨
      (H a = none ∧ ∃ o, (m.optdefs o).mustFree = true ∧ (m.optdefs o).value = .heap a) := by
  induction l generalizing m with
  | nil => exact ⟨m.heap, rfl, fun a => .inl rfl⟩
  | cons o l ih =>
    obtain ⟨hol, hl⟩ := List.nodup_cons.mp hl
    have htail : ∀ o' ∈ l, o' ≠ o := by
      rintro o' ho' rfl
      exact hol ho'
    by_cases ho : (m.optdefs o).mustFree = true
    · obtain ⟨a, ha, hs, hother⟩ := hown o List.mem_cons_self ho
      have hfree : m.freeValue o = .ok { m with heap := Function.update m.heap a none } := by
        simp [freeValue, speedyFree, ho, ha, hs]
      obtain ⟨H, hH, hall⟩ := ih (m := { m with heap := Function.update m.heap a none }) hl
        fun o' ho' hm => by
          obtain ⟨b, hb, hsb, hob⟩ := hown o' (List.mem_cons_of_mem _ ho') hm
          have hab : b ≠ a := by
            rintro rfl
            exact hother o' (htail o' ho') hb
          exact ⟨b, hb, by simpa [Function.update_of_ne hab] using hsb, hob⟩
      refine ⟨H, by rw [List.foldlM_cons, hfree]; exact hH, fun b => ?_⟩
      rcases hall b with hb | hb
      · by_cases hab : b = a
        · exact .inr ⟨by rw [hb, hab]; exact Function.update_self .., o, ho, hab ▸ ha⟩
        · exact .inl (hb.trans (Function.update_of_ne hab _ _))
      · exact .inr hb
    · have hfree : m.freeValue o = .ok m := by simp [freeValue, ho]
      obtain ⟨H, hH, hall⟩ := ih hl fun o' ho' => hown o' (List.mem_cons_of_mem _ ho')
      exact ⟨H, by rw [List.foldlM_cons, hfree]; exact hH, hall⟩

/-- A restore brings back the strings of the save and leaves the integers as they are. -/
lemma Saved.restore (h₀ : m₀.Wf) (h : Saved m₀ m) : ∃ m', m.speedyOptRestore = .ok m' ∧
    Saved m₀ m' ∧ (∀ o, o.type = .str → m'.val o = m₀.val o) ∧
    ∀ o, o.type ≠ .str → m'.val o = m.val o := by
  obtain ⟨H, hfree, hH⟩ := freeAll (l := speedyOptdefs) (by decide) (m := m) fun o _ ho => by
    obtain ⟨a, s, ha, hs, -, hother⟩ := h.wf.owned ho
    exact ⟨a, ha, by simp [hs], hother⟩
  have hkept : ∀ o a, (m₀.optdefs o).value = .heap a → H a = m₀.heap a ∧ H a ≠ none := by
    intro o a ha
    obtain ⟨he, hn⟩ := h.kept o a ha
    rcases hH a with hHa | ⟨-, o', hm, hv⟩
    · exact ⟨hHa.trans he, hHa ▸ hn⟩
    · exact absurd ha (h.apart o' o a hm hv)
  refine ⟨{ m with heap := H, optdefs := clearMustFree m.optdefsSave }, ?_, ?_, ?_, ?_⟩
  · simp only [speedyOptRestore, hfree, Bind.bind, Except.bind]
    rfl
  · rw [h.save]
    refine ⟨⟨fun o => ?_, by simp [clearMustFree], fun a ha => ?_⟩, rfl, hkept,
      by simp [clearMustFree]⟩
    · have hv := h₀.valid o
      simp only [clearMustFree]
      cases hval : (m₀.optdefs o).value with
      | heap a =>
        rw [hval] at hv
        exact ⟨hv.1, (hkept o a hval).2⟩
      | _ => rw [hval] at hv; exact hv
    · rcases hH a with he | ⟨he, -⟩
      · exact he.trans (h.wf.fresh a ha)
      · exact he
  · intro o ho
    simp only [val, clearMustFree, h.save]
    cases hval : (m₀.optdefs o).value with
    | heap a => exact congrArg (Option.map _) (hkept o a hval).1
    | cell =>
      have hv := h₀.valid o
      rw [hval] at hv
      exact absurd ho hv
    | _ => rfl
  · intro o ho
    simp only [val, clearMustFree, h.save, h₀.cell ho, h.wf.cell ho]

/-! ### Requests -/

/-- The integers and toggles that a `#!` line leaves as they were at the save `m₀`. -/
def Neutral (m₀ : OptMem) (r : List (OptName × CStr)) : Prop :=
  ∀ o, o.type ≠ .str → after o (.int (m₀.ints o)) r = .int (m₀.ints o)

/-- Requests after a save are no fault, free nothing that was saved, and each has the options that
its restore left and its own line set. Their restores bring the saved options back exactly if the
integers are still those of the save, now and after each request but the last. -/
lemma Saved.runRequests (h₀ : m₀.Wf) (h : Saved m₀ m) (reqs : List (List (OptName × CStr))) :
    ∃ trace, m.runRequests reqs = .ok trace ∧ (∀ x ∈ trace, Saved m₀ x.1 ∧ Saved m₀ x.2) ∧
      List.Forall₂ (fun x r => ∀ o, x.2.val o = (x.1.val o).map fun v => after o v r) trace reqs ∧
      ((∀ x ∈ trace, ∀ o, x.1.val o = m₀.val o) ↔
        (reqs = [] ∨ ∀ o, o.type ≠ .str → m.val o = m₀.val o) ∧
          ∀ r ∈ reqs.dropLast, Neutral m₀ r) := by
  induction reqs generalizing m with
  | nil => exact ⟨[], rfl, by simp, .nil, by simp⟩
  | cons r reqs ih =>
    obtain ⟨mr, hmr, hsr, hstr, hint⟩ := h.restore h₀
    obtain ⟨mu, hmu, hsu, hval⟩ := hsr.setAll r
    obtain ⟨trace, htrace, hall, hused, hiff⟩ := ih hsu
    refine ⟨(mr, mu) :: trace, ?_, ?_, .cons hval hused, ?_⟩
    · simp only [OptMem.runRequests, hmr, hmu, htrace, Bind.bind, Except.bind]
      rfl
    · simpa [hsr, hsu] using hall
    have hhead : (∀ o, mr.val o = m₀.val o) ↔ ∀ o, o.type ≠ .str → m.val o = m₀.val o := by
      constructor
      · intro he o ho
        rw [← hint o ho, he]
      · intro he o
        by_cases ho : o.type = .str
        · exact hstr o ho
        · rw [hint o ho, he o ho]
    rw [List.forall_mem_cons, hhead, hiff]
    simp only [reduceCtorEq, false_or]
    refine and_congr_right fun he => ?_
    -- after the request the integers are those of the save if its line is neutral
    have hneutral : (∀ o, o.type ≠ .str → mu.val o = m₀.val o) ↔ Neutral m₀ r := by
      refine forall_congr' fun o => forall_congr' fun ho => ?_
      rw [hval, hint o ho, he o ho, h₀.val_int ho, Option.map_some, Option.some.injEq]
    cases reqs with
    | nil => simp
    | cons r' reqs =>
      rw [hneutral, List.dropLast_cons_cons, List.forall_mem_cons]
      simp

/-- The memory when a program starts. -/
def default (bin : CStr) : OptMem where
  optdefs o := ⟨match o.defval bin with
    | .str none => .null
    | .str (some s) => .static s
    | .int _ => .cell, false, false⟩
  optdefsSave _ := ⟨.null, false, false⟩
  ints o := match o.defval bin with
    | .int v => v
    | .str _ => 0
  heap _ := none
  next := 0

/-- Before the save there is nothing saved to be kept. -/
lemma saved_default (bin : CStr) : Saved
    { default bin with optdefs := (default bin).optdefsSave } (default bin) where
  wf := ⟨by intro o; cases o <;> simp [default, OptName.defval, Valid, OptName.type],
    by simp [default], by simp [default]⟩
  save := rfl
  kept := by simp [default]
  apart := by simp [default]

/-- The options settings lead to. -/
lemma setAll_default (bin : CStr) (changes : List (OptName × CStr)) :
    ∃ m, (default bin).setAll changes = .ok m ∧ m.Wf := by
  obtain ⟨m, hm, hs, -⟩ := (saved_default bin).setAll changes
  exact ⟨m, hm, hs.wf⟩

/-- From any options that settings lead to, a save and any requests: no string of the saved table is
freed, each request has the options of its restore changed by its own line, and the restores bring
all options back exactly when no line but the last changes an integer or a toggle. -/
theorem restore_returns_saved_iff (bin : CStr) (changes : List (OptName × CStr))
    (reqs : List (List (OptName × CStr))) :
    ∃ m trace, (default bin).setAll changes = .ok m ∧
      m.speedyOptSave.runRequests reqs = .ok trace ∧
      (∀ x ∈ trace, ∀ o a, (m.optdefs o).value = .heap a →
        m.heap a ≠ none ∧ x.1.heap a = m.heap a ∧ x.2.heap a = m.heap a) ∧
      List.Forall₂ (fun x r => ∀ o, x.2.val o = (x.1.val o).map fun v => after o v r) trace reqs ∧
      ((∀ x ∈ trace, ∀ o, x.1.val o = m.val o) ↔ ∀ r ∈ reqs.dropLast, Neutral m r) := by
  obtain ⟨m, hm, hwf⟩ := setAll_default bin changes
  have hsave := saved_save hwf
  obtain ⟨trace, htrace, hall, hused, hiff⟩ := hsave.runRequests hwf reqs
  refine ⟨m, trace, hm, htrace, fun x hx o a ha => ?_, hused, ?_⟩
  · obtain ⟨h1, h2⟩ := hall x hx
    exact ⟨(hsave.kept o a ha).2, (h1.kept o a ha).1, (h2.kept o a ha).1⟩
  · rw [hiff]
    exact ⟨fun h => h.2, fun h => ⟨.inr fun _ _ => rfl, h⟩⟩

/-- A script with `-t5` on its `#!` line, and then one without options. -/
theorem timeout_leaks : ∃ m trace, (default []).setAll [] = .ok m ∧
    m.speedyOptSave.runRequests [[(.timeout, str "5")], []] = .ok trace ∧
    trace.map (fun x => x.1.val .timeout) = [some (.int 3600), some (.int 5)] ∧
    m.val .timeout = some (.int 3600) :=
  ⟨_, _, rfl, rfl, by decide +kernel, by decide +kernel⟩

end OptMem

end SpeedyCgi.Options
