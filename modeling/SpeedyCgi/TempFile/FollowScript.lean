import SpeedyCgi.TempFile.FollowGroup

/-!
`speedy_script_find` follows the rules and finds the right group.
-/

namespace SpeedyCgi.TempFile

open Function Lib.Wp

variable {α : Type} {e : Env} {w : Who} {A B C : AFile} {x n g f b s : SlotNum} {c : Chain} {q pid : Pid}

/-! ### Names -/

lemma strncpy_cons {k : ℕ} {x : UInt8} (hx : x ≠ 0) (a : List UInt8) :
    strncpy (k + 1) (x :: a) = x :: strncpy k a := by
  simp [strncpy, hx]

lemma strncpy_end {k : ℕ} {a : List UInt8} (ha : a.headD 0 = 0) :
    strncpy k a = List.replicate k 0 := by
  cases a with
  | nil => simp [strncpy]
  | cons x a =>
    obtain rfl : x = 0 := ha
    simp [strncpy]

/-- Comparing names is comparing what is stored for them. -/
lemma strncmpEq_strncpy (k : ℕ) (a b : List UInt8) :
    strncmpEq k (strncpy k a) b = true ↔ strncpy k a = strncpy k b := by
  induction k generalizing a b with
  | zero => simp [strncmpEq, strncpy]
  | succ k ih =>
    by_cases ha : a.headD 0 = 0
    · rw [strncpy_end ha, List.replicate_succ, strncmpEq]
      by_cases hb : b.headD 0 = 0
      · rw [strncpy_end hb, hb]
        simp [List.replicate_succ]
      · obtain ⟨y, b, rfl⟩ : ∃ y l, b = y :: l := by cases b <;> simp_all
        have hy : y ≠ 0 := hb
        simp [strncpy_cons hy, hy.symm]
    · obtain ⟨x, a, rfl⟩ : ∃ x l, a = x :: l := by cases a <;> simp_all
      have hx : x ≠ 0 := ha
      rw [strncpy_cons hx, strncmpEq]
      by_cases hb : b.headD 0 = 0
      · rw [strncpy_end hb, hb]
        simp [hx, List.replicate_succ]
      · obtain ⟨y, b, rfl⟩ : ∃ y l, b = y :: l := by cases b <;> simp_all
        have hy : y ≠ 0 := hb
        simp [strncpy_cons hy, hx, ih]

/-! ### What the search looks for -/

/-- The entry for the script. -/
def Env.entry (e : Env) : ScrSlot := ⟨e.stat.dev, e.stat.ino, e.stat.mtime⟩

/-- The group is one the search looks into. -/
def AFile.here (A : AFile) (e : Env) (g : SlotNum) : Prop :=
  doingSingleScript e = true ∨
    (A.gr g).nameSlot ≠ 0 ∧ A.grnm (A.gr g).nameSlot = strncpy grNameLen e.group

/-- The group has the script as it is. -/
def AFile.exact (A : AFile) (e : Env) (g : SlotNum) : Prop :=
  A.here e g ∧ ∃ s ∈ A.lst (.script g), A.scr s = e.entry

lemma AFile.exact.valid (h : A.exact e g) : A.valid g := by
  obtain ⟨-, s, hs, -⟩ := h
  exact List.ne_nil_of_mem hs

lemma runs_here {Q : Bool → AFile → Prop} (ha : AInv A) (hg : A.own g = .chain .group)
    (h : ∀ r, (r = true ↔ A.here e g) → Q r A) :
    Runs (if doingSingleScript e then pure true else groupNameMatch e g) Q A := by
  refine wpr_ite (fun h1 => wpr_pure (h _ (by simp [AFile.here, h1]))) fun h1 => ?_
  refine runs_groupNameMatch ha hg fun r hr => h r (hr.trans ?_)
  by_cases h0 : (A.gr g).nameSlot = 0
  · simp [AFile.here, h0, h1]
  · obtain ⟨grp, hgrp⟩ := ha.found.form g _ (ha.housed.nameSlot g hg h0)
    simp only [AFile.here, h1, hgrp, strncmpEq_strncpy]
    simp

/-- At most one group has the name that is looked for. -/
lemma AInv.here_unique {g' : SlotNum} (ha : AInv A) (h1 : doingSingleScript e = false)
    (hg : A.own g = .chain .group) (hg' : A.own g' = .chain .group) (h : A.here e g)
    (h' : A.here e g') : g = g' := by
  obtain ⟨h0, h⟩ := h.resolve_left (by simp [h1])
  obtain ⟨h0', h'⟩ := h'.resolve_left (by simp [h1])
  exact ha.found.names g g' _ _ (ha.housed.nameSlot g hg h0) (ha.housed.nameSlot g' hg' h0')
    (h.trans h'.symm)

/-! ### The search of one group -/

lemma runs_scriptSearch {Q : SlotNum → AFile → Prop} (hw : A.Wf) {i j : List SlotNum} {fuel : ℕ}
    (hl : A.lst (.script g) = i ++ j) (hfuel : j.length < fuel)
    (h0 : (∀ s ∈ j, ¬ (A.scr s).same e.entry) → Q 0 A)
    (h1 : ∀ s ∈ j, (A.scr s).same e.entry → Q s A) :
    Runs (scriptSearch e fuel (j.headD 0)) Q A := by
  induction fuel generalizing i j with
  | zero => exact absurd hfuel (Nat.not_lt_zero _)
  | succ fuel ih =>
    cases j with
    | nil => exact wpr_ite (fun _ => wpr_pure (h0 (by simp))) fun h => absurd rfl h
    | cons s j =>
      have hs : s ∈ A.lst (.script g) := by simp [hl]
      refine wpr_ite (fun h => absurd h (hw.ne_zero hs)) fun _ => ?_
      refine wpr_bind (runs_getScr (by simp [(hw.mem _ s).mp hs]) (wpr_ite (fun hsame => wpr_pure ?_)
        fun hne => ?_))
      · exact h1 s (by simp) hsame
      · refine wpr_bind (runs_slotNext hl (ih (i := i ++ [s]) (by simpa using hl)
          (Nat.lt_of_succ_lt_succ hfuel) (fun h => h0 ?_) fun s' hs' => h1 s' (by simp [hs'])))
        exact List.forall_mem_cons.mpr ⟨hne, h⟩

/-- One group: it does not have the script, or has it as it was and is invalidated, or has it. -/
lemma runs_scriptInGroup {Q : SlotNum → AFile → Prop} (hfit : Fits e w) (ha : AInv A) (hw : A.Wf)
    (hg : A.own g = .chain .group) (h0 : (∀ s ∈ A.lst (.script g), ¬ (A.scr s).same e.entry) → Q 0 A)
    (h1 : ∀ s evs, s ∈ A.lst (.script g) → (A.scr s).same e.entry → A.scr s ≠ e.entry →
      Steps w A (A.stale g evs) → Q 0 (A.stale g evs))
    (h2 : ∀ s, s ∈ A.lst (.script g) → A.scr s = e.entry →
      Steps w A (A.reorder (.script g) (s :: (A.lst (.script g)).erase s)) →
      Q s (A.reorder (.script g) (s :: (A.lst (.script g)).erase s))) :
    Runs (scriptInGroup e g) Q A := by
  have hu := AFile.Wf.usable_of hg (c := .script g) rfl
  refine wpr_bind (runs_getHead hu (wpr_bind (runs_loopFuel (wpr_bind ?_))))
  refine runs_scriptSearch hw (i := []) rfl (Nat.lt_succ_of_le (hw.length _)) (fun h => ?_)
    fun s hs hsame => ?_
  · exact wpr_ite (fun _ => wpr_pure (h0 h)) fun h => absurd rfl h
  · have hown := (hw.mem _ s).mp hs
    refine wpr_ite (fun h => absurd h (hw.ne_zero hs)) fun _ => ?_
    refine wpr_bind (runs_getScr (by simp [hown]) (wpr_ite (fun hne => ?_) fun heq => ?_))
    · refine wpr_bind (runs_groupInvalidate hfit ha hw hg (fun hv => ?_) fun evs hv _ hst => wpr_pure ?_)
      · exact absurd (List.ne_nil_of_mem hs) hv
      · exact h1 s evs hs hsame (fun he => hne (by rw [he]; rfl)) hst
    · refine wpr_bind (runs_end (runs_slotMoveHead hown hu fun hw' => wpr_pure ?_))
      have hr : GroupRule w A _ := .scriptFront g s hown
      refine h2 s hs ?_ (.group hr hw')
      rw [not_not] at heq
      cases hv : A.scr s
      simp_all [ScrSlot.same, Env.entry]

/-! ### The search -/

/-- What is known of a group once the loop has passed it. -/
def AFile.passed (A : AFile) (e : Env) (m g : SlotNum) : Prop :=
  A.here e g → (∀ s ∈ A.lst (.script g), ¬ (A.scr s).same e.entry) ∧
    (doingSingleScript e = false → m = g)

/-- What is known of `name_match`. -/
def AFile.named (A : AFile) (e : Env) (m : SlotNum) : Prop :=
  m ≠ 0 → A.own m = .chain .group ∧ doingSingleScript e = false ∧ (A.valid m → A.here e m)

/-- No group has the script, and `name_match` is the group of that name if there is one. -/
structure AFile.missing (A : AFile) (e : Env) (m : SlotNum) : Prop where
  passed : ∀ g, A.own g = .chain .group → A.valid g → A.passed e m g
  named : A.named e m

/-- Group `g` is found, with the script in front of its list. -/
structure AFile.found (A : AFile) (e : Env) (g : SlotNum) : Prop where
  own : A.own g = .chain .group
  here : A.here e g
  head : ∃ s, (A.lst (.script g)).head? = some s ∧ A.scr s = e.entry

/-! Invalidating a group is nothing to the others. -/

section
variable {g' : SlotNum} {evs : List Event} {m : SlotNum}

lemma AFile.stale_lst (hne : g' ≠ g) :
    (A.stale g evs).lst (.script g') = A.lst (.script g') := by
  simp [stale, hne]

lemma AFile.stale_valid (hne : g' ≠ g) : (A.stale g evs).valid g' ↔ A.valid g' := by
  rw [valid, valid, stale_lst hne]

lemma AFile.stale_here (hne : g' ≠ g) : (A.stale g evs).here e g' ↔ A.here e g' := by
  simp [here, stale, hne]

lemma AFile.stale_exact (hne : g' ≠ g) : (A.stale g evs).exact e g' ↔ A.exact e g' := by
  rw [exact, exact, stale_here hne, stale_lst hne]
  simp [stale]

lemma AFile.stale_passed (hne : g' ≠ g) : (A.stale g evs).passed e m g' ↔ A.passed e m g' := by
  rw [passed, passed, stale_here hne, stale_lst hne]
  simp [stale]

end

lemma runs_scriptFindLoop {Q : SlotNum × SlotNum → AFile → Prop} (hfit : Fits e w) (ha : AInv A)
    (hw : A.Wf) {l v z y : List SlotNum} {fuel : ℕ} {m : SlotNum}
    (hl : A.lst .group = l ++ v ++ (z ++ y)) (hz : ∀ g ∈ z ++ y, ¬ A.valid g)
    (hfuel : v.length < fuel) (hpass : ∀ g ∈ l, A.passed e m g) (hnm : A.named e m)
    (h0 : ∀ B m', Steps w A B → SameQueues A B → (∀ g ∈ v, ¬ A.exact e g) → B.missing e m' →
      Q (0, m') B)
    (h1 : ∀ B v₁ g v₂, v = v₁ ++ g :: v₂ → (∀ g' ∈ v₁, ¬ A.exact e g') → A.exact e g →
      Steps w A B → SameQueues A B → B.found e g → (B.gr g).nameSlot = (A.gr g).nameSlot →
      Q (g, g) B) :
    Runs (scriptFindLoop e fuel ((v ++ z).headD 0) m) Q A := by
  induction fuel generalizing A l v z y m with
  | zero => exact absurd hfuel (Nat.not_lt_zero _)
  | succ fuel ih =>
    have hend : (∀ g ∈ v, ¬ A.valid g) → Q (0, m) A := by
      intro hv
      refine h0 A m .refl (.refl A) (fun g hg hex => hv g hg hex.valid) ⟨fun g hg hval => ?_, hnm⟩
      have hm := (hw.mem _ g).mpr hg
      rw [hl, List.mem_append, List.mem_append] at hm
      obtain (hm | hm) | hm := hm
      · exact hpass g hm
      · exact absurd hval (hv g hm)
      · exact absurd hval (hz g hm)
    cases v with
    | nil =>
      cases z with
      | nil => exact wpr_ite (fun _ => wpr_pure (hend (by simp))) fun h => absurd rfl h
      | cons g z =>
        have hm : g ∈ A.lst .group := by simp [hl]
        refine wpr_ite (fun h => absurd h (hw.ne_zero hm)) fun _ => ?_
        refine wpr_bind (runs_slotNext (show A.lst .group = l ++ g :: (z ++ y) by simpa using hl) (wpr_bind
          (runs_groupIsvalid hw ((hw.mem _ g).mp hm) fun r hr => wpr_ite (fun _ => wpr_pure ?_) fun h => ?_)))
        · exact hend (by simp)
        · exact absurd (hr.mp (by simpa using h)) (hz g (by simp))
    | cons g v =>
      rw [show (g :: v ++ z).headD 0 = g from rfl]
      have hm : g ∈ A.lst .group := by simp [hl]
      have hg := (hw.mem _ g).mp hm
      have hnd := hw.nodup .group
      rw [hl] at hnd
      have hgl : ∀ g' ∈ l, g' ≠ g := by
        rintro g' hg' rfl
        simp [List.nodup_append] at hnd
        exact (hnd.2.2 g' hg').1 rfl
      have hgv : ∀ g' ∈ v, g' ≠ g := by
        rintro g' hg' rfl
        simp [List.nodup_append, hg'] at hnd
      have hgz : ∀ g' ∈ z ++ y, g' ≠ g := by
        rintro g' hg' rfl
        simp only [List.nodup_append] at hnd
        exact hnd.2.2 g' (by simp) g' (List.mem_append.mp hg' |> fun h => by simpa using h) rfl
      refine wpr_ite (fun h => absurd h (hw.ne_zero hm)) fun _ => ?_
      refine wpr_bind (runs_slotNext (show A.lst .group = l ++ g :: (v ++ (z ++ y)) by simpa using hl) (wpr_bind
        (runs_groupIsvalid hw hg fun r hr => wpr_ite (fun hf => wpr_pure ?_) fun ht => wpr_bind ?_)))
      · -- the groups behind an invalid one are invalid
        have hg' : ¬ A.valid g := fun h => by simp [hr.mpr h] at hf
        have horder := ha.found.order
        rw [hl, List.append_assoc, List.pairwise_append] at horder
        refine hend fun g'' hg'' hv => ?_
        rcases List.mem_cons.mp hg'' with rfl | hg''
        · exact hg' hv
        · exact hg' ((List.pairwise_cons.mp horder.2.1).1 g'' (by simp [hg'']) hv)
      have hval : A.valid g := hr.mp (by simpa using ht)
      refine runs_here ha hg fun r' hr' => wpr_ite (fun hno => ?_) fun hyes => ?_
      · -- a group with another name
        have hno : ¬ A.here e g := fun h => by simp [hr'.mpr h] at hno
        refine ih ha hw (l := l ++ [g]) (v := v) (z := z ++ y) (y := []) (by simpa using hl)
          (by simpa using hz) (Nat.lt_of_succ_lt_succ hfuel) (m := m) (fun g' hg' => ?_) hnm
          (fun B m' hs hq hv hmis => h0 B m' hs hq ?_ hmis)
          (fun B v₁ g' v₂ hv hv₁ => h1 B (g :: v₁) g' v₂ (by simp [hv]) ?_)
        · rcases List.mem_append.mp hg' with hg' | hg'
          · exact hpass g' hg'
          · obtain rfl : g' = g := by simpa using hg'
            exact fun h => absurd h hno
        · exact List.forall_mem_cons.mpr ⟨fun hex => hno hex.1, hv⟩
        · exact List.forall_mem_cons.mpr ⟨fun hex => hno hex.1, hv₁⟩
      have hyes := hr'.mp (by simpa using hyes)
      -- what is known of the groups before when `name_match` changes
      have hpass' : ∀ g' ∈ l, A.passed e (if doingSingleScript e then m else g) g' := by
        intro g' hg' hhere
        refine ⟨(hpass g' hg' hhere).1, fun h1 => ?_⟩
        have hown := (hw.mem .group g').mp (by simp [hl, hg'])
        exact absurd (ha.here_unique h1 hown hg hhere hyes) (hgl g' hg')
      refine wpr_bind (runs_scriptInGroup hfit ha hw hg (fun hnone => ?_) (fun s evs hs hsame hne hst => ?_)
        fun s hs heq hst => ?_)
      · refine wpr_ite (fun h => absurd rfl h) fun _ => ?_
        have hnex : ¬ A.exact e g := by
          rintro ⟨-, s, hs, heq⟩
          exact hnone s hs (by rw [heq]; exact ⟨rfl, rfl⟩)
        refine ih ha hw (l := l ++ [g]) (v := v) (z := z ++ y) (y := []) (by simpa using hl)
          (by simpa using hz) (Nat.lt_of_succ_lt_succ hfuel) (fun g' hg' => ?_) ?_
          (fun B m' hs hq hv hmis => h0 B m' hs hq ?_ hmis)
          (fun B v₁ g' v₂ hv hv₁ => h1 B (g :: v₁) g' v₂ (by simp [hv]) ?_)
        · rcases List.mem_append.mp hg' with hg' | hg'
          · exact hpass' g' hg'
          · obtain rfl : g' = g := by simpa using hg'
            exact fun _ => ⟨hnone, fun h => by simp [h]⟩
        · intro hne
          split at hne
          · exact absurd (hnm hne).2.1 (by simp [*])
          · rw [if_neg ‹_›]
            exact ⟨hg, by simpa using ‹¬ doingSingleScript e = true›, fun _ => hyes⟩
        · exact List.forall_mem_cons.mpr ⟨hnex, hv⟩
        · exact List.forall_mem_cons.mpr ⟨hnex, hv₁⟩
      · refine wpr_ite (fun h => absurd rfl h) fun _ => ?_
        obtain ⟨ha', hw'⟩ := ha.steps hw hst
        have hnex : ¬ A.exact e g := by
          rintro ⟨-, s', hs', heq⟩
          have hss : s' = s := ha.found.distinct g s' s ((hw.mem _ _).mp hs') ((hw.mem _ _).mp hs) (by
            rw [heq]
            exact hsame.symm)
          exact hne (hss ▸ heq)
        have hq : SameQueues A (A.stale g evs) := .stale ha hw hg
        have hl' : (A.stale g evs).lst .group = l ++ v ++ ((z ++ y) ++ [g]) := by
          have hgl' : g ∉ l := fun h => hgl g h rfl
          simp [AFile.stale, hl, List.erase_append_right _ hgl']
        refine ih ha' hw' hl' (fun g' hg' => ?_) (Nat.lt_of_succ_lt_succ hfuel) (fun g' hg' => ?_) ?_
          (fun B m' hs hq' hv hmis => h0 B m' (hst.trans hs) (hq.trans hq') ?_ hmis)
          (fun B v₁ g' v₂ hv hv₁ hex hs hq' hfound hname => ?_)
        · rcases List.mem_append.mp hg' with hg' | hg'
          · rw [AFile.stale_valid (hgz g' hg')]
            exact hz g' hg'
          · obtain rfl : g' = g := by simpa using hg'
            exact AFile.stale_not_valid _ _ _
        · rw [AFile.stale_passed (hgl g' hg')]
          exact hpass' g' hg'
        · intro hne
          split at hne
          · exact absurd (hnm hne).2.1 (by simp [*])
          · rw [if_neg ‹_›]
            refine ⟨(AFile.stale_own ha hw hg (by simp) g).mpr ⟨hg, by simp⟩,
              by simpa using ‹¬ doingSingleScript e = true›, fun h => ?_⟩
            exact absurd h (AFile.stale_not_valid _ _ _)
        · refine List.forall_mem_cons.mpr ⟨hnex, fun g' hg' => ?_⟩
          rw [← AFile.stale_exact (hgv g' hg')]
          exact hv g' hg'
        · have hmem : ∀ g'' ∈ v₁ ++ [g'], g'' ≠ g := fun g'' h => hgv g'' (by
            rw [hv]
            simp only [List.mem_append, List.mem_cons] at h ⊢
            tauto)
          have hne' := hmem g' (by simp)
          refine h1 B (g :: v₁) g' v₂ (by simp [hv]) ?_ ((AFile.stale_exact hne').mp hex)
            (hst.trans hs) (hq.trans hq') hfound ?_
          · refine List.forall_mem_cons.mpr ⟨hnex, fun g'' hg'' => ?_⟩
            rw [← AFile.stale_exact (hmem g'' (by simp [hg'']))]
            exact hv₁ g'' hg''
          · rw [hname]
            simp [AFile.stale, hne']
      · refine wpr_ite (fun _ => wpr_pure ?_) fun h => absurd (hw.ne_zero hs) h
        refine h1 _ [] g v rfl (by simp) ⟨hyes, s, hs, heq⟩ hst (.reorder _ id) ⟨hg, hyes, s, by simp, heq⟩ rfl

/-! ### Adding the script -/

/-- A slot that is not in use after slot `x` was taken is another one, and was not in use before. -/
lemma fresh_update {o : SlotNum → Place} {p : Place} (hp : p ≠ .free ∧ p ≠ .out)
    (h : update o x p n = .free ∨ update o x p n = .out) : n ≠ x ∧ (o n = .free ∨ o n = .out) := by
  rcases eq_or_ne n x with rfl | hne
  · simp [hp] at h
  · exact ⟨hne, by simpa [hne] using h⟩

/-- The end of the search: a script slot in front of the scripts of `g`. -/
lemma runs_addScript {Q : SlotNum → AFile → Prop} (hg : A.own g = .chain .group)
    (h : ∀ s fl k, A.fresh s → ((A.alloc s fl k).addScript g s e.entry).Wf →
      Q g ((A.alloc s fl k).addScript g s e.entry)) :
    Runs (do
      let s ← slotAlloc e
      modifyScr s fun _ => ⟨e.stat.dev, e.stat.ino, e.stat.mtime⟩
      slotInsert s (.script g)
      return g) Q A := by
  refine wpr_bind (runs_slotAlloc fun s fl k h0 hs => ?_)
  have hgs : g ≠ s := by rintro rfl; rcases hs with h | h <;> simp [h] at hg
  refine wpr_bind (runs_modifyScr (by simp) (wpr_bind (runs_end (runs_slotInsert (by simp) ?_
    fun hw => wpr_pure ?_))))
  · rintro _ ⟨⟩
    simp [AFile.live, hgs, hg]
  · exact h s fl k ⟨h0, hs⟩ hw

/-- The script is not in any group: it gets one. -/
lemma runs_scriptAdd {Q : SlotNum → AFile → Prop} {m : SlotNum} (ha : AInv A) (hw : A.Wf)
    (hmiss : A.missing e m)
    (h : ∀ B g, Steps w A B → SameQueues A B → B.found e g →
      (doingSingleScript e = true → (B.gr g).nameSlot = 0) → Q g B) :
    Runs (scriptAdd e m) Q A := by
  have hvalid : ∀ Q : Bool → AFile → Prop, (∀ v, (v = true ↔ m ≠ 0 ∧ A.valid m) → Q v A) →
      Runs (if m = 0 then pure false else groupIsvalid m) Q A := by
    intro Q hQ
    refine wpr_ite (fun h0 => wpr_pure (hQ _ (by simp [h0]))) fun h0 => ?_
    exact runs_groupIsvalid hw (hmiss.named h0).1 fun v hv => hQ v (by simp [h0, hv])
  refine wpr_bind (hvalid _ fun v hv => wpr_bind (wpr_ite (fun hf => ?_) fun ht => wpr_pure ?_))
  · -- a new group
    have hno : ¬ (m ≠ 0 ∧ A.valid m) := fun h => by simp [hv.mpr h] at hf
    refine wpr_bind (runs_slotAlloc fun g fl k h0 hg => wpr_bind (runs_slotInsert (by simp) (by rintro _ ⟨⟩)
      (wpr_bind (runs_onlyIf (fun hname => ?_) fun hname => wpr_pure ?_))))
    · have h1 : doingSingleScript e = false := hname
      refine wpr_bind (runs_slotAlloc fun n fl' k' h0' hn => ?_)
      obtain ⟨hng, hn⟩ := fresh_update (by simp) hn
      have hn : A.own n = .free ∨ A.own n = .out := by simpa [hng] using hn
      have hnog : ∀ m, A.own m ≠ .name g := fun m hm => by
        have := ha.housed.name m g hm
        rcases hg with h | h <;> simp [h] at this
      refine wpr_bind (runs_setName (by simp [AFile.live, hng.symm]) (by simp) (fun m => ?_)
        (runs_modifyGrnm (by simp) (wpr_pure ?_)))
      · simp only [AFile.alloc_own, AFile.place_own, update_apply]
        split
        · simp
        · split
          · simp
          · exact hnog m
      refine runs_addScript (by simp [hng.symm]) fun s fl'' k'' hs hw' => ?_
      have hsn : s ≠ n := by
        rintro rfl
        simpa using hs.2
      have hsg : s ≠ g := by
        rintro rfl
        simpa [hsn] using hs.2
      have hs' : A.own s = .free ∨ A.own s = .out := by simpa [hsn, hsg] using hs.2
      have hr : GroupRule w A _ := .groupNamed g n s e.group e.entry fl fl' fl'' k k' k'' ⟨h0, hg⟩
        ⟨h0', hn⟩ ⟨hs.1, hs'⟩ hng hsg hsn fun g' m hm hgrnm => by
          -- a group of that name would be `name_match`
          have hown := ha.housed.name m g' hm
          have hm0 := (hw.name g' m hm).2
          have hval : A.valid g' := fun hv => by
            have := ha.housed.bare g' hown hv
            rw [hm0] at this
            subst this
            simp [hw.zero] at hm
          have hhere : A.here e g' := .inr ⟨by rw [hm0]; rintro rfl; simp [hw.zero] at hm,
            by rw [hm0]; exact hgrnm⟩
          have heq := (hmiss.passed g' hown hval hhere).2 h1
          subst heq
          exact hno ⟨by rintro rfl; simp [hw.zero] at hown, hval⟩
      refine h _ g (.group hr hw') (hr.sameQueues hw ha.housed.nameSlot) ⟨?_, .inr ⟨?_, ?_⟩, s, ?_, ?_⟩
        fun h => by simp [h1] at h
      · simp [hsg.symm, hng.symm]
      · simp [hsg.symm, hng.symm, h0']
      · simp [hsg.symm, hng.symm, hsn.symm]
      · simp
      · simp
    · have h1 : doingSingleScript e = true := by simpa using hname
      refine runs_addScript (by simp) fun s fl' k' hs hw' => ?_
      obtain ⟨hsg, hs'⟩ := fresh_update (by simp) hs.2
      have hs' : A.own s = .free ∨ A.own s = .out := by simpa [hsg] using hs'
      have hr : GroupRule w A _ := .groupNew g s e.entry fl fl' k k' ⟨h0, hg⟩ ⟨hs.1, hs'⟩ hsg
        fun g' s' hs' => by
          have hs := (hw.mem _ _).mpr hs'
          exact ((hmiss.passed g' (ha.housed.chain s' _ g' hs' rfl) (List.ne_nil_of_mem hs))
            (.inl h1)).1 s' hs
      refine h _ g (.group hr hw') (hr.sameQueues hw ha.housed.nameSlot) ⟨?_, .inl h1, s, ?_, ?_⟩ fun _ => ?_
      · simp [hsg.symm]
      · simp
      · simp
      · simp [hsg.symm]
  · obtain ⟨h0, hval⟩ := hv.mp (by simpa using ht)
    obtain ⟨hg, h1, hhere⟩ := hmiss.named h0
    have hhere := hhere hval
    refine runs_addScript hg fun s fl k hs hw' => ?_
    have hr : GroupRule w A ((A.alloc s fl k).addScript m s e.entry) :=
      .scriptNew m s e.entry fl k hg hval ((hhere.resolve_left (by simp [h1])).1) (fun s' hs' => ?_) hs
    · have hgs : m ≠ s := hs.ne (AFile.live_of hg)
      have hns : (A.gr m).nameSlot ≠ s := by
        obtain ⟨hn0, -⟩ := hhere.resolve_left (by simp [h1])
        have := ha.housed.nameSlot m hg hn0
        exact hs.ne (by simp [AFile.live, this])
      refine h _ m (.group hr hw') (.addScript A hs) ⟨?_, ?_, s, ?_, ?_⟩ (fun h => by simp [h1] at h)
      · simp [hgs, hg]
      · simpa [AFile.here, hgs, hns] using hhere
      · simp
      · simp
    · exact ((hmiss.passed m hg hval) hhere).1 s' ((hw.mem _ _).mpr hs')

/-! ### The whole search -/

/-- The first group that has the script as it is. -/
def AFile.first (A : AFile) (e : Env) (g : SlotNum) : Prop :=
  ∃ i j, A.lst .group = i ++ g :: j ∧ (∀ g' ∈ i, ¬ A.exact e g') ∧ A.exact e g

/-- Where the group comes from that is found: it was there, or the script has just been added. -/
def Origin (e : Env) (A B : AFile) (g : SlotNum) : Prop :=
  A.first e g ∧ (B.gr g).nameSlot = (A.gr g).nameSlot ∨
    (∀ g' ∈ A.lst .group, ¬ A.exact e g') ∧
      (doingSingleScript e = true → (B.gr g).nameSlot = 0)

lemma AFile.found.valid (h : A.found e g) : A.valid g := by
  obtain ⟨s, hs, -⟩ := h.head
  exact List.ne_nil_of_mem (List.mem_of_mem_head? hs)

lemma runs_scriptFind {Q : SlotNum → AFile → Prop} (hfit : Fits e w) (ha : AInv A) (hw : A.Wf)
    (h : ∀ B g, Steps w A B → SameQueues A B → B.found e g → (B.lst .group).head? = some g →
      Origin e A B g → Q g B) : Runs (scriptFind e) Q A := by
  -- the group found goes to the head of the list
  have hend : ∀ B g, Steps w A B → SameQueues A B → B.found e g → Origin e A B g →
      Runs (do slotMoveHead g .group; return g) Q B := by
    intro B g hs hq hfound ho
    refine wpr_bind (runs_end (runs_slotMoveHead hfound.own (by rintro _ ⟨⟩) fun hw' => wpr_pure ?_))
    have hr : GroupRule w B _ := .groupFront g hfound.own hfound.valid
    obtain ⟨s, hs0, hs1⟩ := hfound.head
    refine h _ g (hs.trans (Steps.group hr hw')) (hq.trans (.reorder _ id)) ?_ (by simp) ho
    exact ⟨hfound.own, hfound.here, s, by simpa using hs0, hs1⟩
  refine wpr_bind (runs_getHead (by rintro _ ⟨⟩) (wpr_bind (runs_loopFuel (wpr_bind ?_))))
  have hl : A.lst .group = [] ++ A.lst .group ++ ([] ++ []) := by simp
  have := runs_scriptFindLoop (Q := fun found B => Runs (do
      let g ← (if found.1 = 0 then scriptAdd e found.2 else pure found.1)
      slotMoveHead g .group
      return g) Q B) (m := 0) hfit ha hw hl (by simp) (Nat.lt_succ_of_le (hw.length _))
      (by simp) (fun h0 => absurd rfl h0) (fun B m hs hq hno hmiss => ?_)
      fun B i g j hl' hno hex hs hq hfound hname => ?_
  · simpa using this
  · obtain ⟨ha', hw'⟩ := ha.steps hw hs
    refine wpr_bind (wpr_ite (fun _ => ?_) fun h0 => absurd rfl h0)
    exact runs_scriptAdd ha' hw' hmiss fun C g hs' hq' hfound hname =>
      hend C g (hs.trans hs') (hq.trans hq') hfound (.inr ⟨hno, hname⟩)
  · have hg0 : g ≠ 0 := hw.ne_zero (c := .group) (by simp [hl'])
    refine wpr_bind (wpr_ite (fun h0 => absurd h0 hg0) fun _ => wpr_pure ?_)
    exact hend B g hs hq hfound (.inl ⟨⟨i, j, hl', hno, hex⟩, hname⟩)

end SpeedyCgi.TempFile
