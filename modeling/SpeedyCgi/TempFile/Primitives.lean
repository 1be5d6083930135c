import Mathlib.Data.List.Perm.Subperm
import SpeedyCgi.Lib.Dll
import SpeedyCgi.Lib.Wp
import SpeedyCgi.TempFile.Slot

/-!
The list operations of `speedy_slot.c`.

All lists share the links of one array of slots. An operation changes one of the lists, and the links
of no slot that is in another one; nothing else in the file changes.
-/

namespace SpeedyCgi.TempFile

open Function Lib.Dll Lib.Wp

variable {α : Type} {s s' : St} {c : Chain} {x n : SlotNum} {l l₁ l₂ : List SlotNum} {ok : Die → Prop}

/-! ### What the list operations do to the file -/

section
variable {a b v : SlotNum}

lemma wp_readAt {r : File → α} {Q : α → St → Prop} (hn : n ≠ 0 ∧ n ≤ s.file.slotsAlloced) :
    wp ok (readAt n r) Q s ↔ Q (r s.file) s := by
  unfold readAt TempFile.slotCheck
  simp only [wp_bind, wp_get, wp_ite, wp_pure]
  rw [if_neg]
  rw [not_or, Nat.not_lt]
  exact hn

lemma readAt_eq {r : File → α} (hn : n ≠ 0 ∧ n ≤ s.file.slotsAlloced) :
    readAt n r s = .ok (r s.file, s) :=
  eq_of_wp ((wp_readAt hn).mpr rfl)

lemma wp_writeAt {h : File → File} {Q : Unit → St → Prop}
    (hn : n ≠ 0 ∧ n ≤ s.file.slotsAlloced) :
    wp ok (writeAt n h) Q s ↔ Q () { s with file := h s.file } := by
  unfold writeAt TempFile.slotCheck modifyFile
  simp only [wp_bind, wp_get, wp_ite, wp_pure, wp_modify]
  rw [if_neg]
  rw [not_or, Nat.not_lt]
  exact hn

@[simp] lemma wp_onlyIf {c : Prop} [Decidable c] {m : M Unit} {Q : Unit → St → Prop} :
    wp ok (onlyIf c m) Q s ↔ if c then wp ok m Q s else Q () s := by
  unfold onlyIf
  split <;> rfl

lemma wp_setNextAt {Q : Unit → St → Prop} (hn : n ≠ 0 → n ≤ s.file.slotsAlloced) :
    wp ok (onlyIf (n ≠ 0) (setNext n v)) Q s ↔
      Q () { s with file := { s.file with next := setAt s.file.next n v } } := by
  rw [wp_onlyIf]
  split
  · rw [setNext, wp_writeAt ⟨‹_›, hn ‹_›⟩, setAt, if_pos ‹_›]
  · rw [setAt, if_neg ‹_›]

lemma wp_setPrevAt {Q : Unit → St → Prop} (hn : n ≠ 0 → n ≤ s.file.slotsAlloced) :
    wp ok (onlyIf (n ≠ 0) (setPrev n v)) Q s ↔
      Q () { s with file := { s.file with prev := setAt s.file.prev n v } } := by
  rw [wp_onlyIf]
  split
  · rw [setPrev, wp_writeAt ⟨‹_›, hn ‹_›⟩, setAt, if_pos ‹_›]
  · rw [setAt, if_neg ‹_›]

lemma wp_setHeadIf {Q : Unit → St → Prop} :
    wp ok (onlyIf (a = b) (setHead c v)) Q s ↔ Q () { s with file := { s.file with
      head := update s.file.head c (if a = b then v else s.file.head c) } } := by
  rw [wp_onlyIf]
  split
  · rfl
  · simp

lemma wp_setTail {Q : Unit → St → Prop} :
    wp ok (setTail c v) Q s ↔ Q () { s with file := { s.file with
      tail := update s.file.tail c (if c.hasTail then v else s.file.tail c) } } := by
  rw [setTail, wp_onlyIf]
  split
  · rfl
  · simp

lemma wp_setTailIf {Q : Unit → St → Prop} :
    wp ok (onlyIf (a = b) (setTail c v)) Q s ↔ Q () { s with file := { s.file with
      tail := update s.file.tail c (if a = b ∧ c.hasTail then v else s.file.tail c) } } := by
  rw [wp_onlyIf]
  split
  · rw [wp_setTail]
    simp [*]
  · simp [*]

lemma wp_slotRemove {Q : Unit → St → Prop} (hx : x ≠ 0 ∧ x ≤ s.file.slotsAlloced)
    (hn : s.file.next x ≠ 0 → s.file.next x ≤ s.file.slotsAlloced)
    (hp : s.file.prev x ≠ 0 → s.file.prev x ≤ s.file.slotsAlloced) :
    wp ok (slotRemove x c) Q s ↔ Q () { s with file := { s.file with
      next := setAt s.file.next (s.file.prev x) (s.file.next x)
      prev := setAt s.file.prev (s.file.next x) (s.file.prev x)
      head := update s.file.head c (if s.file.head c = x then s.file.next x else s.file.head c)
      tail := update s.file.tail c
        (if s.file.tail c = x ∧ c.hasTail then s.file.prev x else s.file.tail c) } } := by
  unfold slotRemove slotNext slotPrev getHead getTail
  rw [wp_bind, wp_readAt hx, wp_bind, wp_readAt hx, wp_bind, wp_setPrevAt hn, wp_bind,
    wp_setNextAt]
  · simp only [wp_bind, wp_get, wp_pure, wp_setHeadIf, wp_setTailIf]
  · exact hp

lemma wp_slotInsert {Q : Unit → St → Prop} (hx : x ≠ 0 ∧ x ≤ s.file.slotsAlloced)
    (hh : s.file.head c ≠ 0 → s.file.head c ≤ s.file.slotsAlloced) :
    wp ok (slotInsert x c) Q s ↔ Q () { s with file := { s.file with
      next := update s.file.next x (s.file.head c)
      prev := setAt (update s.file.prev x 0) (s.file.head c) x
      head := update s.file.head c x
      tail := update s.file.tail c
        (if s.file.tail c = 0 ∧ c.hasTail then x else s.file.tail c) } } := by
  unfold slotInsert getHead getTail
  simp only [wp_bind, wp_get, wp_pure]
  rw [setNext, wp_writeAt hx, setPrev, wp_writeAt, wp_setPrevAt]
  · simp only [setHead, modifyFile, wp_modify, wp_setTailIf]
  · exact hh
  · exact hx

lemma wp_derefTail {Q : SlotNum → St → Prop} (hc : c.hasTail = true) :
    wp ok (derefTail c) Q s ↔ Q (s.file.tail c) s := by
  unfold derefTail getTail
  rw [wp_bind, wp_onlyIf, if_neg (by simp [hc]), wp_bind, wp_get, wp_pure]

lemma wp_slotAppend {Q : Unit → St → Prop} (hc : c.hasTail = true)
    (hx : x ≠ 0 ∧ x ≤ s.file.slotsAlloced)
    (ht : s.file.tail c ≠ 0 → s.file.tail c ≤ s.file.slotsAlloced) :
    wp ok (slotAppend x c) Q s ↔ Q () { s with file := { s.file with
      next := setAt (update s.file.next x 0) (s.file.tail c) x
      prev := update s.file.prev x (s.file.tail c)
      head := update s.file.head c (if s.file.head c = 0 then x else s.file.head c)
      tail := update s.file.tail c x } } := by
  unfold slotAppend getHead
  simp only [wp_bind, wp_derefTail hc, wp_get, wp_pure]
  rw [setPrev, wp_writeAt hx, setNext, wp_writeAt, wp_setNextAt]
  · simp only [wp_setTail, wp_setHeadIf, if_pos hc]
  · exact ht
  · exact hx

lemma wp_insertBefore {y : SlotNum} (hx : x ≠ 0 ∧ x ≤ s.file.slotsAlloced)
    (hy : y ≠ 0 ∧ y ≤ s.file.slotsAlloced) {p : SlotNum} (hp : s.file.prev y = p)
    (hpr : p ≠ 0 → p ≤ s.file.slotsAlloced) {Q : Unit → St → Prop} :
    wp ok (do
        setNext x y
        let py ← slotPrev y
        setPrev x py
        setPrev y x
        if p = 0 then setHead c x else setNext p x) Q s ↔
      Q () { s with file := { s.file with
        next := setAt (update s.file.next x y) p x
        prev := update (update s.file.prev x p) y x
        head := update s.file.head c (if p = 0 then x else s.file.head c) } } := by
  rw [wp_bind, setNext, wp_writeAt hx, wp_bind, slotPrev, wp_readAt, wp_bind, setPrev, wp_writeAt,
    wp_bind, setPrev, wp_writeAt, wp_ite]
  · simp only [hp]
    split
    · subst p
      simp [setHead, modifyFile, setAt, *]
    · rw [setNext, wp_writeAt]
      · simp [setAt, *]
      · exact ⟨‹_›, hpr ‹_›⟩
  · exact hy
  · exact hx
  · exact hy

end

lemma erase_append_getLast (hnd : l.Nodup) (hx : l.getLastD 0 = x) (hl : l ≠ []) :
    l.erase x ++ [x] = l := by
  rcases List.eq_nil_or_concat' l with rfl | ⟨l, y, rfl⟩
  · exact absurd rfl hl
  · obtain rfl : y = x := by simpa using hx
    have hy : y ∉ l := fun hm => by simp [List.nodup_append] at hnd; exact hnd.2 y hm rfl
    rw [List.erase_append_right _ hy]
    simp

lemma cons_erase_head (hx : l.headD 0 = x) (hl : l ≠ []) : x :: l.erase x = l := by
  cases l with
  | nil => exact absurd rfl hl
  | cons y l =>
    obtain rfl : y = x := hx
    simp

/-! ### Lists that share the slots -/

variable {S : Chain → Prop} {lst : Chain → List SlotNum}

/-- The lists of the chains in `S` are well formed, and no slot is in two of them. -/
structure Lists (f : File) (S : Chain → Prop) (lst : Chain → List SlotNum) : Prop where
  list : ∀ c, S c → ∃ t, IsList f.next f.prev (f.head c) t (lst c) ∧
    (c.hasTail = true → f.tail c = t)
  disjoint : ∀ c c' n, S c → S c' → n ∈ lst c → n ∈ lst c' → c = c'
  range : ∀ c n, S c → n ∈ lst c → n ≤ f.slotsAlloced

/-- Slot `x` is allocated, and in none of the lists. -/
structure Unlinked (f : File) (S : Chain → Prop) (lst : Chain → List SlotNum) (x : SlotNum) : Prop where
  pos : x ≠ 0
  range : x ≤ f.slotsAlloced
  out : ∀ c, S c → x ∉ lst c

/-- List `c` becomes `l`, and `x` enters it, moves in it or leaves it. -/
structure Becomes (s : St) (S : Chain → Prop) (lst : Chain → List SlotNum) (x : SlotNum) (c : Chain)
    (l : List SlotNum) (s' : St) : Prop where
  lists : Lists s'.file S (update lst c l)
  payload : s' = { s with file := { s.file with
    next := s'.file.next, prev := s'.file.prev, head := s'.file.head, tail := s'.file.tail } }
  links : ∀ a, a ≠ x → a ∉ lst c → s'.file.next a = s.file.next a ∧ s'.file.prev a = s.file.prev a
  ends : ∀ c' ≠ c, s'.file.head c' = s.file.head c' ∧ s'.file.tail c' = s.file.tail c'
  self : s'.file.prev x ≠ x

lemma Lists.inRange (h : Lists s.file S lst) (hc : S c) (hn : n ∈ lst c) :
    n ≠ 0 ∧ n ≤ s.file.slotsAlloced := by
  obtain ⟨t, hl, -⟩ := h.list c hc
  exact ⟨fun h0 => hl.pos (h0 ▸ hn), h.range c n hc hn⟩

lemma Lists.nodup (h : Lists s.file S lst) (hc : S c) : (lst c).Nodup := by
  obtain ⟨t, hl, -⟩ := h.list c hc
  exact hl.nodup

lemma Lists.length_le (h : Lists s.file S lst) (hc : S c) : (lst c).length ≤ s.file.slotsAlloced := by
  have hsub : lst c ⊆ List.range' 1 s.file.slotsAlloced := by
    intro n hn
    have := h.inRange hc hn
    rw [List.mem_range'_1]
    exact ⟨Nat.one_le_iff_ne_zero.mpr this.1, Nat.lt_of_le_of_lt this.2 (by simp [Nat.add_comm])⟩
  simpa using (List.Nodup.subperm (h.nodup hc) hsub).length_le

lemma Lists.of_mem (h : Lists s.file S lst) (hc : S c) (hx : x ∈ lst c) :
    x ≠ 0 ∧ x ≤ s.file.slotsAlloced ∧ ∀ c', S c' → x ∈ lst c' → c' = c :=
  ⟨(h.inRange hc hx).1, (h.inRange hc hx).2, fun c' hc' hx' => h.disjoint c' c x hc' hc hx' hx⟩

/-- Only the links of list `c` and of slot `x` have changed. -/
lemma Lists.relink (h : Lists s.file S lst) (hc : S c) {nx pv : SlotNum → SlotNum}
    {hd tl : Chain → SlotNum}
    (hx : x ≤ s.file.slotsAlloced ∧ ∀ c', S c' → x ∈ lst c' → c' = c)
    (hlist : ∃ t, IsList nx pv (hd c) t l ∧ (c.hasTail = true → tl c = t))
    (hmem : ∀ n ∈ l, n = x ∨ n ∈ lst c) (hself : pv x ≠ x)
    (hnext : ∀ a, a ≠ x → a ∉ lst c → nx a = s.file.next a)
    (hprev : ∀ a, a ≠ x → a ∉ lst c → pv a = s.file.prev a)
    (hends : ∀ c' ≠ c, hd c' = s.file.head c' ∧ tl c' = s.file.tail c') :
    Becomes s S lst x c l
      { s with file := { s.file with next := nx, prev := pv, head := hd, tail := tl } } := by
  have hother : ∀ c' ≠ c, S c' → ∀ a ∈ lst c', a ≠ x ∧ a ∉ lst c := by
    intro c' hne hc' a ha
    refine ⟨?_, fun hac => hne (h.disjoint c' c a hc' hc ha hac)⟩
    rintro rfl
    exact hne (hx.2 c' hc' ha)
  have hnew : ∀ c', S c' → ∀ n ∈ l, n ∈ lst c' → c' = c := by
    intro c' hc' n hn hn'
    rcases hmem n hn with rfl | hm
    · exact hx.2 c' hc' hn'
    · exact h.disjoint c' c n hc' hc hn' hm
  refine ⟨⟨fun c' hc' => ?_, fun c₁ c₂ n hc₁ hc₂ h₁ h₂ => ?_, fun c' n hc' hn => ?_⟩, rfl,
    fun a ha hac => ⟨hnext a ha hac, hprev a ha hac⟩, hends, hself⟩
  · rcases eq_or_ne c' c with rfl | hne
    · rw [update_self]
      exact hlist
    · obtain ⟨t, hl, ht⟩ := h.list c' hc'
      rw [update_of_ne hne]
      refine ⟨t, ?_, fun hc => (hends c' hne).2.trans (ht hc)⟩
      change IsList nx pv (hd c') t _
      rw [(hends c' hne).1]
      exact hl.congr (fun a ha => hnext a (hother c' hne hc' a ha).1 (hother c' hne hc' a ha).2)
        fun a ha => hprev a (hother c' hne hc' a ha).1 (hother c' hne hc' a ha).2
  · rcases eq_or_ne c₁ c with he₁ | hne₁
    · rw [he₁, update_self] at h₁
      rcases eq_or_ne c₂ c with he₂ | hne₂
      · exact he₁.trans he₂.symm
      · rw [update_of_ne hne₂] at h₂
        exact he₁.trans (hnew c₂ hc₂ n h₁ h₂).symm
    · rw [update_of_ne hne₁] at h₁
      rcases eq_or_ne c₂ c with he₂ | hne₂
      · rw [he₂, update_self] at h₂
        exact (hnew c₁ hc₁ n h₂ h₁).trans he₂.symm
      · rw [update_of_ne hne₂] at h₂
        exact h.disjoint c₁ c₂ n hc₁ hc₂ h₁ h₂
  · rcases eq_or_ne c' c with rfl | hne
    · rw [update_self] at hn
      rcases hmem n hn with rfl | hm
      · exact hx.1
      · exact h.range c' n hc' hm
    · rw [update_of_ne hne] at hn
      exact h.range c' n hc' hn

lemma Unlinked.own (h : Unlinked s.file S lst x) (c : Chain) :
    x ≤ s.file.slotsAlloced ∧ ∀ c', S c' → x ∈ lst c' → c' = c :=
  ⟨h.range, fun c' hc' hx => (h.out c' hc' hx).elim⟩

/-- Two operations on the same slot of the same list. -/
lemma Becomes.trans {s₁ s₂ : St} (h₁ : Becomes s S lst x c l₁ s₁)
    (h₂ : Becomes s₁ S (update lst c l₁) x c l₂ s₂) (hsub : ∀ a ∈ l₁, a ∈ lst c) :
    Becomes s S lst x c l₂ s₂ := by
  refine ⟨by simpa using h₂.lists, ?_, fun a ha hac => ?_, fun c' hc' => ?_, h₂.self⟩
  · rw [h₂.payload, h₁.payload]
  · have hac' : a ∉ update lst c l₁ c := by
      rw [update_self]
      exact fun hm => hac (hsub a hm)
    obtain ⟨hn₁, hp₁⟩ := h₁.links a ha hac
    obtain ⟨hn₂, hp₂⟩ := h₂.links a ha hac'
    exact ⟨hn₂.trans hn₁, hp₂.trans hp₁⟩
  · exact ⟨(h₂.ends c' hc').1.trans (h₁.ends c' hc').1, (h₂.ends c' hc').2.trans (h₁.ends c' hc').2⟩

/-- A slot that has been taken out. -/
lemma Becomes.unlinked (h : Becomes s S lst x c l s') (hx : x ≠ 0) (hr : x ≤ s.file.slotsAlloced)
    (hown : ∀ c', S c' → x ∈ lst c' → c' = c) (hl : x ∉ l) :
    Unlinked s'.file S (update lst c l) x := by
  refine ⟨hx, by rw [h.payload]; exact hr, fun c' hc' hm => ?_⟩
  rcases eq_or_ne c' c with rfl | hne
  · rw [update_self] at hm
    exact hl hm
  · rw [update_of_ne hne] at hm
    exact hne (hown c' hc' hm)

lemma wp_remove (h : Lists s.file S lst) (hc : S c) (hx : x ∈ lst c) :
    wp ok (slotRemove x c) (fun _ => Becomes s S lst x c ((lst c).erase x)) s := by
  obtain ⟨t, hl, ht⟩ := h.list c hc
  obtain ⟨l₁, l₂, hcut⟩ := List.append_of_mem hx
  have hnd := h.nodup hc
  rw [hcut] at hl hnd
  have hx1 : x ∉ l₁ := fun hm => (List.nodup_append.mp hnd).2.2 x hm x (by simp) rfl
  have herase : (lst c).erase x = l₁ ++ l₂ := by
    rw [hcut, List.erase_append_right _ hx1, List.erase_cons_head]
  have hnext : s.file.next x ≠ 0 → s.file.next x ∈ lst c ∧ s.file.next x ≠ x := by
    rw [hl.next_eq]
    intro h0
    cases l₂ with
    | nil => simp at h0
    | cons y l₂ =>
      have hxy : y ≠ x := by rintro rfl; simp [List.nodup_append] at hnd
      simp [hcut, hxy]
  have hprev : s.file.prev x ≠ 0 → s.file.prev x ∈ lst c := by
    rw [hl.prev_eq]
    intro h0
    rcases List.eq_nil_or_concat' l₁ with rfl | ⟨l, y, rfl⟩
    · simp at h0
    · simp [hcut]
  rw [herase, wp_slotRemove (h.inRange hc hx) (fun h0 => (h.inRange hc (hnext h0).1).2)
    (fun h0 => (h.inRange hc (hprev h0)).2)]
  refine h.relink hc (h.of_mem hc hx).2 ⟨_, by rw [update_self]; exact hl.remove, fun hc => ?_⟩
    (fun n hn => ?_) ?_ (fun a hax ha => ?_) (fun a hax ha => ?_)
    fun c' hc' => ⟨update_of_ne hc' .., update_of_ne hc' ..⟩
  · rw [update_self, ht hc]
    simp [hc]
  · rw [hcut]
    simp only [List.mem_append, List.mem_cons] at hn ⊢
    tauto
  · rw [setAt_of_ne_zero fun h0 => (hnext h0).2.symm]
    exact hl.prev_ne (by simp)
  · exact setAt_of_ne_zero fun h0 => by rintro rfl; exact ha (hprev h0)
  · exact setAt_of_ne_zero fun h0 => by rintro rfl; exact ha (hnext h0).1

lemma wp_insert (h : Lists s.file S lst) (hc : S c) (hx : Unlinked s.file S lst x) :
    wp ok (slotInsert x c) (fun _ => Becomes s S lst x c (x :: lst c)) s := by
  obtain ⟨t, hl, ht⟩ := h.list c hc
  have hxl := hx.out c hc
  have hhead : s.file.head c ≠ 0 → s.file.head c ∈ lst c := fun h0 =>
    hl.seg.head_mem fun h1 => h0 (hl.head_eq_zero.mpr h1)
  rw [wp_slotInsert ⟨hx.pos, hx.range⟩ fun h0 => (h.inRange hc (hhead h0)).2]
  refine h.relink hc (hx.own c) ⟨_, by rw [update_self]; exact hl.insert hxl hx.pos, fun hc => ?_⟩
    (fun n hn => by simpa using hn) ?_ (fun a hax _ => update_of_ne hax ..) (fun a hax ha => ?_)
    fun c' hc' => ⟨update_of_ne hc' .., update_of_ne hc' ..⟩
  · rw [update_self, ht hc]
    simp [hc]
  · rw [setAt_of_ne_zero fun h0 => by rintro rfl; exact hxl (hhead h0), update_self]
    exact hx.pos.symm
  · rw [setAt_of_ne_zero fun h0 => by rintro rfl; exact ha (hhead h0), update_of_ne hax]

lemma wp_append (h : Lists s.file S lst) (hc : S c) (htl : c.hasTail = true)
    (hx : Unlinked s.file S lst x) :
    wp ok (slotAppend x c) (fun _ => Becomes s S lst x c (lst c ++ [x])) s := by
  obtain ⟨t, hl, ht⟩ := h.list c hc
  obtain rfl := ht htl
  have hxl := hx.out c hc
  have htail : s.file.tail c ≠ 0 → s.file.tail c ∈ lst c := fun h0 =>
    hl.seg.tail_mem fun h1 => h0 (hl.tail_eq_zero.mpr h1)
  rw [wp_slotAppend htl ⟨hx.pos, hx.range⟩ fun h0 => (h.inRange hc (htail h0)).2]
  refine h.relink hc (hx.own c) ⟨_, by rw [update_self]; exact hl.append hxl hx.pos, fun _ => by simp⟩
    (fun n hn => ?_) ?_ (fun a hax ha => ?_) (fun a hax _ => update_of_ne hax ..)
    fun c' hc' => ⟨update_of_ne hc' .., update_of_ne hc' ..⟩
  · simp only [List.mem_append, List.mem_singleton] at hn
    tauto
  · rw [update_self]
    by_cases h0 : s.file.tail c = 0
    · rw [h0]; exact hx.pos.symm
    · rintro heq
      exact hxl (heq ▸ htail h0)
  · rw [setAt_of_ne_zero fun h0 => by rintro rfl; exact ha (htail h0), update_of_ne hax]

/-- Nothing has happened to a list that is as it should be. -/
lemma Lists.self (h : Lists s.file S lst) (hc : S c) (hx : x ∈ lst c) : Becomes s S lst x c (lst c) s := by
  obtain ⟨t, hl, -⟩ := h.list c hc
  exact ⟨by rwa [update_eq_self], rfl, fun _ _ _ => ⟨rfl, rfl⟩, fun _ _ => ⟨rfl, rfl⟩, hl.prev_ne hx⟩

lemma wp_moveHead (h : Lists s.file S lst) (hc : S c) (hx : x ∈ lst c) :
    wp ok (slotMoveHead x c) (fun _ => Becomes s S lst x c (x :: (lst c).erase x)) s := by
  obtain ⟨t, hl, -⟩ := h.list c hc
  unfold slotMoveHead getHead
  rw [wp_bind, wp_bind, wp_get, wp_pure, wp_onlyIf]
  split
  · rw [wp_bind]
    refine wp_mono (wp_remove h hc hx) fun _ s₁ h₁ => ?_
    obtain ⟨h0, hr, hown⟩ := h.of_mem hc hx
    have hun := h₁.unlinked h0 hr hown fun hm => (h.nodup hc).mem_erase_iff.mp hm |>.1 rfl
    refine wp_mono (wp_insert h₁.lists hc hun) fun _ s₂ h₂ => ?_
    rw [update_self] at h₂
    exact h₁.trans h₂ fun a ha => List.mem_of_mem_erase ha
  · rename_i heq
    rw [cons_erase_head (hl.head_eq.symm.trans (not_not.mp heq)) (List.ne_nil_of_mem hx)]
    exact h.self hc hx

lemma wp_moveTail (h : Lists s.file S lst) (hc : S c) (htl : c.hasTail = true) (hx : x ∈ lst c) :
    wp ok (slotMoveTail x c) (fun _ => Becomes s S lst x c ((lst c).erase x ++ [x])) s := by
  obtain ⟨t, hl, ht⟩ := h.list c hc
  unfold slotMoveTail
  rw [wp_bind, wp_derefTail htl, wp_onlyIf]
  split
  · rw [wp_bind]
    refine wp_mono (wp_remove h hc hx) fun _ s₁ h₁ => ?_
    obtain ⟨h0, hr, hown⟩ := h.of_mem hc hx
    have hun := h₁.unlinked h0 hr hown fun hm => (h.nodup hc).mem_erase_iff.mp hm |>.1 rfl
    refine wp_mono (wp_append h₁.lists hc htl hun) fun _ s₂ h₂ => ?_
    rw [update_self] at h₂
    exact h₁.trans h₂ fun a ha => List.mem_of_mem_erase ha
  · rename_i heq
    have hlast : (lst c).getLastD 0 = x := hl.tail_eq.symm.trans ((ht htl).symm.trans (not_not.mp heq))
    rw [erase_append_getLast (h.nodup hc) hlast (List.ne_nil_of_mem hx)]
    exact h.self hc hx

/-! ### Insertion in order -/

section
variable {d : SlotNum → Int} {compar : SlotNum → SlotNum → M Int} {y : SlotNum}

/-- Putting a slot before `y`. -/
lemma wp_before (h : Lists s.file S lst) (hc : S c) (hx : Unlinked s.file S lst x)
    (hl : lst c = l₁ ++ y :: l₂) :
    wp ok (do
        setNext x y
        let py ← slotPrev y
        setPrev x py
        setPrev y x
        if l₁.getLastD 0 = 0 then setHead c x else setNext (l₁.getLastD 0) x)
      (fun _ => Becomes s S lst x c (l₁ ++ x :: y :: l₂)) s := by
  obtain ⟨t, hlist, ht⟩ := h.list c hc
  rw [hl] at hlist
  have hxl := hx.out c hc
  have hyl : y ∈ lst c := by simp [hl]
  have hxy : x ≠ y := by rintro rfl; exact hxl hyl
  have hpl : l₁.getLastD 0 ≠ 0 → l₁.getLastD 0 ∈ lst c := by
    intro h0
    rcases List.eq_nil_or_concat' l₁ with rfl | ⟨l, z, rfl⟩
    · simp at h0
    · simp [hl]
  rw [wp_insertBefore ⟨hx.pos, hx.range⟩ (h.inRange hc hyl) hlist.prev_eq
    fun h0 => (h.inRange hc (hpl h0)).2]
  have hins := hlist.insertBefore (hl ▸ hxl) hx.pos
  rw [hlist.prev_eq] at hins
  refine h.relink hc (hx.own c) ⟨t, by rw [update_self]; exact hins, ht⟩ (fun n hn => ?_) ?_
    (fun a hax ha => ?_) (fun a hax ha => ?_) fun c' hc' => ⟨update_of_ne hc' .., rfl⟩
  · rw [hl]
    simp only [List.mem_append, List.mem_cons] at hn ⊢
    tauto
  · rw [update_of_ne hxy, update_self]
    intro heq
    by_cases h0 : l₁.getLastD 0 = 0
    · exact hx.pos (heq ▸ h0)
    · exact hxl (heq ▸ hpl h0)
  · rw [setAt_of_ne_zero fun h0 => by rintro rfl; exact ha (hpl h0), update_of_ne hax]
  · rw [update_of_ne (by rintro rfl; exact ha hyl), update_of_ne hax]

lemma wp_insertSortedLoop (h : Lists s.file S lst) (hc : S c) (hx : Unlinked s.file S lst x)
    (hcmp : ∀ y ∈ lst c, compar x y s = .ok (d y, s)) {fuel : ℕ} (hl : lst c = l₁ ++ l₂)
    (htl : c.hasTail = true ∨ ∃ y ∈ l₂, d y ≤ 0) (hf : l₂.length < fuel) :
    wp ok (insertSortedLoop x c compar fuel (l₁.getLastD 0))
      (fun _ => Becomes s S lst x c (l₁ ++ (l₂.takeWhile (0 < d ·)) ++ x :: l₂.dropWhile (0 < d ·)))
      s := by
  induction fuel generalizing l₁ l₂ with
  | zero => exact absurd hf (Nat.not_lt_zero _)
  | succ fuel ih =>
    obtain ⟨t, hlist, -⟩ := h.list c hc
    have hlast : l₁.getLastD 0 = 0 ↔ l₁ = [] := by
      rcases List.eq_nil_or_concat' l₁ with rfl | ⟨l, y, rfl⟩
      · simp
      · simpa using (h.inRange hc (n := y) (by simp [hl])).1
    have hnext : ∀ Q : SlotNum → St → Prop, Q (l₂.headD 0) s →
        wp ok (if l₁.getLastD 0 = 0 then getHead c else slotNext (l₁.getLastD 0)) Q s := by
      intro Q hq
      rw [wp_ite]
      split
      · rename_i h0
        obtain rfl := hlast.mp h0
        rw [getHead, wp_bind, wp_get, wp_pure, hlist.head_eq, hl]
        exact hq
      · rename_i h0
        rcases List.eq_nil_or_concat' l₁ with rfl | ⟨l, y, rfl⟩
        · simp at h0
        · have hcut : lst c = l ++ y :: l₂ := by simp [hl]
          rw [hcut] at hlist
          rw [List.getLastD_concat, slotNext, wp_readAt (h.inRange hc (by simp [hcut])), hlist.next_eq]
          exact hq
    rw [insertSortedLoop, wp_bind]
    refine hnext _ ?_
    cases l₂ with
    | nil =>
      rw [List.headD_nil, if_pos rfl]
      have hend : wp ok _ _ _ := wp_append h hc (htl.resolve_right (by simp)) hx
      simpa [hl] using hend
    | cons y l₂ =>
      have hyl : y ∈ lst c := by simp [hl]
      rw [List.headD_cons, if_neg (h.inRange hc hyl).1, wp_bind]
      unfold wp
      rw [hcmp y hyl]
      change wp ok _ _ s
      rw [wp_ite]
      split
      · -- it goes before `y`
        rename_i hle
        rw [List.takeWhile_cons_of_neg (by simpa using hle),
          List.dropWhile_cons_of_neg (by simpa using hle), List.append_nil]
        exact wp_before h hc hx hl
      · rename_i hgt
        have hgt : 0 < d y := Int.not_le.mp hgt
        have hrest : c.hasTail = true ∨ ∃ y ∈ l₂, d y ≤ 0 := by
          refine htl.imp_right ?_
          rintro ⟨z, hz, hdz⟩
          rcases List.mem_cons.mp hz with rfl | hz
          · omega
          · exact ⟨z, hz, hdz⟩
        have := ih (show lst c = (l₁ ++ [y]) ++ l₂ by simp [hl]) hrest (Nat.lt_of_succ_lt_succ hf)
        rw [List.getLastD_concat] at this
        rw [List.takeWhile_cons_of_pos (by simpa using hgt), List.dropWhile_cons_of_pos (by simpa using hgt)]
        simpa using this

lemma wp_insertSorted (h : Lists s.file S lst) (hc : S c) (hx : Unlinked s.file S lst x)
    (hcmp : ∀ y ∈ lst c, compar x y s = .ok (d y, s))
    (htl : c.hasTail = true ∨ ∃ y ∈ lst c, d y ≤ 0) :
    wp ok (slotInsertSorted x c compar)
      (fun _ => Becomes s S lst x c ((lst c).takeWhile (0 < d ·) ++ x :: (lst c).dropWhile (0 < d ·)))
      s := by
  unfold slotInsertSorted loopFuel
  rw [wp_bind, wp_bind, wp_get, wp_pure]
  exact wp_insertSortedLoop h hc hx hcmp (show lst c = [] ++ lst c from rfl) htl
    (Nat.lt_succ_of_le (h.length_le hc))

/-- A sorted list stays so. -/
lemma pairwise_insert {le : SlotNum → SlotNum → Prop} (htrans : ∀ a b c, le a b → le b c → le a c)
    (htotal : ∀ a b, le a b ∨ le b a) (hd : ∀ y ∈ l, d y ≤ 0 ↔ le x y) (hl : l.Pairwise le) :
    (l.takeWhile (0 < d ·) ++ x :: l.dropWhile (0 < d ·)).Pairwise le := by
  induction l with
  | nil => simp
  | cons y l ih =>
    obtain ⟨hy, hl⟩ := List.pairwise_cons.mp hl
    by_cases hgt : 0 < d y
    · rw [List.takeWhile_cons_of_pos (by simpa using hgt), List.dropWhile_cons_of_pos (by simpa using hgt),
        List.cons_append]
      refine List.pairwise_cons.mpr ⟨fun z hz => ?_, ih (fun z hz => hd z (.tail _ hz)) hl⟩
      have hmem : z = x ∨ z ∈ l := by
        have hcut : l.takeWhile (0 < d ·) ++ l.dropWhile (0 < d ·) = l :=
          List.takeWhile_append_dropWhile
        rw [← hcut]
        simp only [List.mem_append, List.mem_cons] at hz ⊢
        tauto
      rcases hmem with rfl | hz
      · refine (htotal z y).resolve_left fun h => ?_
        exact absurd ((hd y (.head _)).mpr h) (Int.not_le.mpr hgt)
      · exact hy z hz
    · rw [List.takeWhile_cons_of_neg (by simpa using hgt), List.dropWhile_cons_of_neg (by simpa using hgt),
        List.nil_append]
      have hxy : le x y := (hd y (.head _)).mp (Int.not_lt.mp hgt)
      refine List.pairwise_cons.mpr ⟨fun z hz => ?_, List.pairwise_cons.mpr ⟨hy, hl⟩⟩
      rcases List.mem_cons.mp hz with rfl | hz
      · exact hxy
      · exact htrans _ _ _ hxy (hy z hz)

end

/-! ### The operations -/

/-- The operation ends well, and list `c` becomes `l`. -/
def Does (s : St) (S : Chain → Prop) (lst : Chain → List SlotNum) (x : SlotNum) (c : Chain) (m : M Unit)
    (l : List SlotNum) : Prop :=
  ∃ s', m s = .ok ((), s') ∧ Becomes s S lst x c l s'

lemma does_of_wp {m : M Unit} (h : wp (fun _ => False) m (fun _ => Becomes s S lst x c l) s) :
    Does s S lst x c m l := by
  unfold wp at h
  split at h
  · exact ⟨_, by assumption, h⟩
  · exact h.elim

/-- Each operation does to one list what its name says, and nothing to the others. Those that need
the tail of the list follow the pointer to it. -/
theorem list_operations (h : Lists s.file S lst) (hc : S c) :
    (∀ x ∈ lst c, Does s S lst x c (slotRemove x c) ((lst c).erase x) ∧
      Does s S lst x c (slotMoveHead x c) (x :: (lst c).erase x) ∧
      (c.hasTail = true → Does s S lst x c (slotMoveTail x c) ((lst c).erase x ++ [x]))) ∧
    ∀ x, Unlinked s.file S lst x → Does s S lst x c (slotInsert x c) (x :: lst c) ∧
      (c.hasTail = true → Does s S lst x c (slotAppend x c) (lst c ++ [x])) ∧
      ∀ (d : SlotNum → Int) (compar : SlotNum → SlotNum → M Int),
        (∀ y ∈ lst c, compar x y s = .ok (d y, s)) → (c.hasTail = true ∨ ∃ y ∈ lst c, d y ≤ 0) →
        Does s S lst x c (slotInsertSorted x c compar)
          ((lst c).takeWhile (0 < d ·) ++ x :: (lst c).dropWhile (0 < d ·)) ∧
        ∀ le : SlotNum → SlotNum → Prop, (∀ a b c, le a b → le b c → le a c) →
          (∀ a b, le a b ∨ le b a) → (∀ y ∈ lst c, d y ≤ 0 ↔ le x y) → (lst c).Pairwise le →
          ((lst c).takeWhile (0 < d ·) ++ x :: (lst c).dropWhile (0 < d ·)).Pairwise le := by
  refine ⟨fun x hx => ⟨does_of_wp (wp_remove h hc hx), does_of_wp (wp_moveHead h hc hx),
    fun htl => does_of_wp (wp_moveTail h hc htl hx)⟩, fun x hx => ⟨does_of_wp (wp_insert h hc hx),
    fun htl => does_of_wp (wp_append h hc htl hx), fun d compar hcmp htl => ⟨?_, ?_⟩⟩⟩
  · exact does_of_wp (wp_insertSorted h hc hx hcmp htl)
  · intro le htrans htotal hd hl
    exact pairwise_insert htrans htotal hd hl

/-- A group slot, three backends, two frontends and a script in their lists, and a backend and a
frontend that are in none. -/
def File.shared : File where
  next := fun n => if n = 2 then 3 else if n = 3 then 4 else if n = 5 then 6 else 0
  prev := fun n => if n = 3 then 2 else if n = 4 then 3 else if n = 6 then 5 else 0
  head := fun c => if c = .be 1 then 2 else if c = .fe 1 then 5 else if c = .script 1 then 7 else 0
  tail := fun c => if c = .be 1 then 4 else if c = .fe 1 then 6 else 0
  slotFree := 0
  slotsAlloced := 9
  scr := fun _ => {}
  be := fun n => { maturity := if n = 2 then 5 else if n = 3 then 3 else if n = 8 then 2 else 1 }
  fe := fun _ => {}
  gr := fun _ => {}
  grnm := fun _ => zeroName

def sharedLists (c : Chain) : List SlotNum :=
  if c = .be 1 then [2, 3, 4] else if c = .fe 1 then [5, 6] else if c = .script 1 then [7] else []

lemma of_mem_sharedLists (h : n ∈ sharedLists c) : n ∈ [2, 3, 4, 5, 6, 7] ∧
    c = if n ∈ [2, 3, 4] then .be 1 else if n ∈ [5, 6] then .fe 1 else .script 1 := by
  unfold sharedLists at h
  split_ifs at h
  · obtain rfl | rfl | rfl : n = 2 ∨ n = 3 ∨ n = 4 := by simpa using h
    all_goals exact ⟨by decide, by simpa⟩
  · obtain rfl | rfl : n = 5 ∨ n = 6 := by simpa using h
    all_goals exact ⟨by decide, by simpa⟩
  · obtain rfl : n = 7 := by simpa using h
    exact ⟨by decide, by simpa⟩
  · simp at h

lemma lists_shared : Lists .shared (fun _ => True) sharedLists where
  list c _ := by
    unfold sharedLists
    split_ifs with h₁ h₂ h₃
    · exact ⟨4, ⟨by simp [h₁, File.shared], by decide, by decide⟩, fun _ => by simp [h₁, File.shared]⟩
    · exact ⟨6, ⟨by simp [h₂, File.shared], by decide, by decide⟩, fun _ => by simp [h₂, File.shared]⟩
    · exact ⟨7, ⟨by simp [h₃, File.shared], by decide, by decide⟩, fun h => by simp [h₃, Chain.hasTail] at h⟩
    · exact ⟨0, ⟨by simp [h₁, h₂, h₃, File.shared], by decide, by decide⟩,
        fun _ => by simp [h₁, h₂, File.shared]⟩
  disjoint _ _ _ _ _ h h' := (of_mem_sharedLists h).2.trans (of_mem_sharedLists h').2.symm
  range _ n _ h := (by decide : ∀ n ∈ [2, 3, 4, 5, 6, 7], n ≤ 9) n (of_mem_sharedLists h).1

lemma unlinked_shared (hx : x ∈ [8, 9]) : Unlinked .shared (fun _ => True) sharedLists x where
  pos := (by decide : ∀ x ∈ [8, 9], x ≠ 0) x hx
  range := (by decide : ∀ x ∈ [8, 9], x ≤ 9) x hx
  out _ _ h := (by decide : ∀ x ∈ [8, 9], x ∉ [2, 3, 4, 5, 6, 7]) x hx (of_mem_sharedLists h).1

/-- The backend with the higher maturity comes first. -/
def maturer (x y : SlotNum) : M Int := do
  let a ← getBe x
  let b ← getBe y
  return (b.maturity : Int) - a.maturity

theorem list_operations_shared :
    Does { file := .shared } (fun _ => True) sharedLists 3 (.be 1) (slotRemove 3 (.be 1)) [2, 4] ∧
      Does { file := .shared } (fun _ => True) sharedLists 7 (.script 1) (slotRemove 7 (.script 1)) [] ∧
      Does { file := .shared } (fun _ => True) sharedLists 4 (.be 1) (slotMoveHead 4 (.be 1)) [4, 2, 3] ∧
      Does { file := .shared } (fun _ => True) sharedLists 5 (.fe 1) (slotMoveTail 5 (.fe 1)) [6, 5] ∧
      Does { file := .shared } (fun _ => True) sharedLists 9 .feRun (slotInsert 9 .feRun) [9] ∧
      Does { file := .shared } (fun _ => True) sharedLists 9 (.fe 1) (slotAppend 9 (.fe 1)) [5, 6, 9] ∧
      Does { file := .shared } (fun _ => True) sharedLists 8 (.be 1) (slotInsertSorted 8 (.be 1) maturer)
        [2, 3, 8, 4] := by
  have hbe := list_operations (s := { file := .shared }) lists_shared (c := .be 1) trivial
  have hfe := list_operations (s := { file := .shared }) lists_shared (c := .fe 1) trivial
  have hscr := list_operations (s := { file := .shared }) lists_shared (c := .script 1) trivial
  have hrun := list_operations (s := { file := .shared }) lists_shared (c := .feRun) trivial
  refine ⟨(hbe.1 3 (by decide)).1, (hscr.1 7 (by decide)).1, (hbe.1 4 (by decide)).2.1,
    (hfe.1 5 (by decide)).2.2 rfl, (hrun.2 9 (unlinked_shared (by decide))).1,
    (hfe.2 9 (unlinked_shared (by decide))).2.1 rfl, ?_⟩
  have hcmp : ∀ y ∈ sharedLists (.be 1), maturer 8 y { file := .shared } =
      .ok ((File.shared.be y).maturity - 2, { file := .shared }) := by
    intro y hy
    obtain rfl | rfl | rfl : y = 2 ∨ y = 3 ∨ y = 4 := by simpa [sharedLists] using hy
    all_goals rfl
  exact ((hbe.2 8 (unlinked_shared (by decide))).2.2 _ maturer hcmp (.inl rfl)).1

/-- A slot cannot be appended to a list without a tail. -/
theorem not_append_script : ∃ s S lst x c, Lists s.file S lst ∧ S c ∧ Unlinked s.file S lst x ∧
    slotAppend x c s = .error .nullTail :=
  ⟨{ file := .shared }, fun _ => True, sharedLists, 9, .script 1, lists_shared, trivial,
    unlinked_shared (by decide), rfl⟩

end SpeedyCgi.TempFile
