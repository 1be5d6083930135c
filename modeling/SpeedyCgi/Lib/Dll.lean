import Mathlib.Algebra.Order.Ring.Int
import Mathlib.Logic.Function.Basic
import Mathlib.Data.List.Nodup
import Mathlib.Tactic.Common

/-!
Doubly linked lists threaded through two link functions.

`0` is the null link. A segment is described by what stands before its first element and after
its last one, so that a list can be cut at any element, one of the pieces changed at its border,
and the pieces put together again. The operations are those of any such list: taking an element
out, putting one in front, at the end, or before a given element.
-/

namespace SpeedyCgi.Lib.Dll

open Function

variable {α : Type*} {nx pv nx' pv' : α → α} {p h n t x y : α} {l l₁ l₂ : List α}

/-- `l` runs from `h` along `nx`, each element points back along `pv`; the first one to `p`, and
the last one, which is `t`, on to `n`. -/
def Seg (nx pv : α → α) : α → α → List α → α → α → Prop
  | p, h, [], n, t => h = n ∧ t = p
  | p, h, x :: l, n, t => h = x ∧ pv x = p ∧ Seg nx pv x (nx x) l n t

@[simp] lemma seg_nil : Seg nx pv p h [] n t ↔ h = n ∧ t = p := Iff.rfl

@[simp] lemma seg_cons :
    Seg nx pv p h (x :: l) n t ↔ h = x ∧ pv x = p ∧ Seg nx pv x (nx x) l n t := Iff.rfl

instance decidableSeg [DecidableEq α] : ∀ (p h : α) (l : List α) (n t : α),
    Decidable (Seg nx pv p h l n t)
  | _, _, [], _, _ => inferInstanceAs (Decidable (_ ∧ _))
  | _, _, x :: l, n, t =>
    have := decidableSeg x (nx x) l n t
    inferInstanceAs (Decidable (_ ∧ _ ∧ Seg nx pv x (nx x) l n t))

/-- A segment is cut anywhere. -/
lemma seg_append : Seg nx pv p h (l₁ ++ l₂) n t ↔
    ∃ m u, Seg nx pv p h l₁ m u ∧ Seg nx pv u m l₂ n t := by
  induction l₁ generalizing p h with
  | nil =>
      constructor
      · exact fun hs => ⟨h, p, ⟨rfl, rfl⟩, hs⟩
      · rintro ⟨m, u, ⟨rfl, rfl⟩, hs⟩
        exact hs
  | cons x l₁ ih =>
      simp only [List.cons_append, seg_cons, ih]
      constructor
      · rintro ⟨h1, h2, m, u, h3, h4⟩
        exact ⟨m, u, ⟨h1, h2, h3⟩, h4⟩
      · rintro ⟨m, u, ⟨h1, h2, h3⟩, h4⟩
        exact ⟨h1, h2, m, u, h3, h4⟩

/-- Links elsewhere do not matter. -/
lemma Seg.congr (hs : Seg nx pv p h l n t) (hn : ∀ a ∈ l, nx' a = nx a)
    (hp : ∀ a ∈ l, pv' a = pv a) : Seg nx' pv' p h l n t := by
  induction l generalizing p h with
  | nil => exact hs
  | cons x l ih =>
      obtain ⟨rfl, rfl, hs⟩ := hs
      refine ⟨rfl, hp h (by simp), ?_⟩
      rw [hn h (by simp)]
      exact ih hs (fun a ha => hn a (by simp [ha])) fun a ha => hp a (by simp [ha])

lemma Seg.head_mem (hs : Seg nx pv p h l n t) (hl : l ≠ []) : h ∈ l := by
  cases l with
  | nil => exact absurd rfl hl
  | cons x l => simp [hs.1]

lemma Seg.tail_mem (hs : Seg nx pv p h l n t) (hl : l ≠ []) : t ∈ l := by
  induction l generalizing p h with
  | nil => exact absurd rfl hl
  | cons x l ih =>
      obtain ⟨-, -, hs⟩ := hs
      cases l with
      | nil => simp [hs.2]
      | cons y l => exact List.mem_cons_of_mem _ (ih hs (by simp))

lemma Seg.head_eq (hs : Seg nx pv p h l n t) : h = l.headD n := by
  cases l with
  | nil => exact hs.1
  | cons x l => exact hs.1

lemma Seg.tail_eq (hs : Seg nx pv p h l n t) : t = l.getLastD p := by
  induction l generalizing p h with
  | nil => exact hs.2
  | cons x l ih =>
      rw [List.getLastD_cons]
      exact ih hs.2.2

/-- `l` runs from `h` along `nx` to a null link; nothing is said about the way back. -/
def Path [Zero α] (nx : α → α) : α → List α → Prop
  | h, [] => h = 0
  | h, x :: l => h = x ∧ Path nx (nx x) l

lemma Path.congr [Zero α] (hs : Path nx h l) (hn : ∀ a ∈ l, nx' a = nx a) : Path nx' h l := by
  induction l generalizing h with
  | nil => exact hs
  | cons x l ih =>
      obtain ⟨rfl, hs⟩ := hs
      refine ⟨rfl, ?_⟩
      rw [hn h (by simp)]
      exact ih hs fun a ha => hn a (by simp [ha])

/-- A list is determined by its head and the links. -/
lemma Path.unique [Zero α] {l l' : List α} (hs : Path nx h l) (hs' : Path nx h l') (hl : 0 ∉ l)
    (hl' : 0 ∉ l') : l = l' := by
  induction l generalizing h l' with
  | nil =>
    obtain rfl : h = 0 := hs
    cases l' with
    | nil => rfl
    | cons x l' =>
      obtain ⟨rfl, -⟩ := hs'
      simp at hl'
  | cons x l ih =>
    obtain ⟨rfl, hs⟩ := hs
    cases l' with
    | nil =>
      obtain rfl : h = 0 := hs'
      simp at hl
    | cons y l' =>
      obtain ⟨rfl, hs'⟩ := hs'
      rw [ih hs hs' (fun hm => hl (.tail _ hm)) fun hm => hl' (.tail _ hm)]

lemma Seg.path [Zero α] (hs : Seg nx pv p h l 0 t) : Path nx h l := by
  induction l generalizing p h with
  | nil => exact hs.1
  | cons x l ih => exact ⟨hs.1, ih hs.2.2⟩

section
variable [DecidableEq α]

/-- Another successor for the last element. -/
lemma Seg.setNext (hs : Seg nx pv p h l n t) (hnd : l.Nodup) (hl : l ≠ []) (m : α) :
    Seg (update nx t m) pv p h l m t := by
  induction l generalizing p h with
  | nil => exact absurd rfl hl
  | cons x l ih =>
      obtain ⟨rfl, rfl, hs⟩ := hs
      cases l with
      | nil =>
          obtain ⟨-, rfl⟩ := hs
          simp
      | cons y l =>
          have hne : t ≠ h := by
            rintro rfl
            exact (List.nodup_cons.mp hnd).1 (hs.tail_mem (by simp))
          refine ⟨rfl, rfl, ?_⟩
          rw [update_of_ne hne.symm]
          exact ih hs (List.nodup_cons.mp hnd).2 (by simp)

/-- Another predecessor for the first element. -/
lemma Seg.setPrev (hs : Seg nx pv p h l n t) (hnd : l.Nodup) (hl : l ≠ []) (q : α) :
    Seg nx (update pv h q) q h l n t := by
  cases l with
  | nil => exact absurd rfl hl
  | cons x l =>
      obtain ⟨rfl, rfl, hs⟩ := hs
      refine ⟨rfl, by simp, hs.congr (fun _ _ => rfl) fun a ha => ?_⟩
      exact update_of_ne (by rintro rfl; exact (List.nodup_cons.mp hnd).1 ha) ..

end

variable [Zero α]

/-- A list: a segment between two null links. -/
structure IsList (nx pv : α → α) (h t : α) (l : List α) : Prop where
  seg : Seg nx pv 0 h l 0 t
  nodup : l.Nodup
  pos : 0 ∉ l

instance [DecidableEq α] : Decidable (IsList nx pv h t l) :=
  decidable_of_iff (Seg nx pv 0 h l 0 t ∧ l.Nodup ∧ 0 ∉ l)
    ⟨fun h => ⟨h.1, h.2.1, h.2.2⟩, fun h => ⟨h.seg, h.nodup, h.pos⟩⟩

lemma IsList.nil : IsList nx pv 0 0 [] := ⟨⟨rfl, rfl⟩, List.nodup_nil, by simp⟩

lemma IsList.head_eq (hs : IsList nx pv h t l) : h = l.headD 0 := hs.seg.head_eq

lemma IsList.tail_eq (hs : IsList nx pv h t l) : t = l.getLastD 0 := hs.seg.tail_eq

lemma IsList.head_eq_zero (hs : IsList nx pv h t l) : h = 0 ↔ l = [] := by
  rw [hs.head_eq]
  cases l with
  | nil => simp
  | cons x l => simpa [eq_comm] using fun h0 => hs.pos (by simp [← h0])

lemma IsList.tail_eq_zero (hs : IsList nx pv h t l) : t = 0 ↔ l = [] := by
  constructor
  · intro h0
    by_contra hl
    exact hs.pos (h0 ▸ hs.seg.tail_mem hl)
  · rintro rfl
    exact hs.seg.2

lemma IsList.next_eq (hs : IsList nx pv h t (l₁ ++ x :: l₂)) : nx x = l₂.headD 0 := by
  obtain ⟨m, u, -, -, -, h2⟩ := seg_append.mp hs.seg
  exact h2.head_eq

lemma IsList.prev_eq (hs : IsList nx pv h t (l₁ ++ x :: l₂)) : pv x = l₁.getLastD 0 := by
  obtain ⟨m, u, h1, -, h2, -⟩ := seg_append.mp hs.seg
  rw [h2, h1.tail_eq]

lemma IsList.congr (hs : IsList nx pv h t l) (hn : ∀ a ∈ l, nx' a = nx a)
    (hp : ∀ a ∈ l, pv' a = pv a) : IsList nx' pv' h t l :=
  ⟨hs.seg.congr hn hp, hs.nodup, hs.pos⟩

/-- No element of a list is its own predecessor. -/
lemma IsList.prev_ne (hs : IsList nx pv h t l) (hx : x ∈ l) : pv x ≠ x := by
  obtain ⟨l₁, l₂, rfl⟩ := List.append_of_mem hx
  rw [hs.prev_eq]
  intro heq
  rcases List.eq_nil_or_concat l₁ with rfl | ⟨l₁, y, rfl⟩
  · exact hs.pos (by rw [show (0 : α) = x from heq]; simp)
  · have hy : y = x := by simpa using heq
    have := hs.nodup
    simp [hy, List.nodup_append] at this

variable [DecidableEq α]

/-- A store through a link, unless it is null. -/
def setAt (f : α → α) (a b : α) : α → α := if a ≠ 0 then update f a b else f

lemma setAt_apply (f : α → α) (a b c : α) :
    setAt f a b c = if a ≠ 0 ∧ c = a then b else f c := by
  unfold setAt
  split_ifs <;> simp_all

lemma setAt_of_ne_zero {f : α → α} {a b c : α} (hc : a ≠ 0 → c ≠ a) : setAt f a b c = f c := by
  rw [setAt_apply, if_neg]
  exact fun h => hc h.1 h.2

lemma setAt_of_ne {f : α → α} {a b c : α} (hc : c ≠ a) : setAt f a b c = f c := by
  simp [setAt_apply, hc]

/-- Taking an element out. -/
theorem IsList.remove (hs : IsList nx pv h t (l₁ ++ x :: l₂)) :
    IsList (setAt nx (pv x) (nx x)) (setAt pv (nx x) (pv x)) (if h = x then nx x else h)
      (if t = x then pv x else t) (l₁ ++ l₂) := by
  obtain ⟨m, u, h1, rfl, hu, h2⟩ := seg_append.mp hs.seg
  have hnd := hs.nodup
  rw [List.nodup_append] at hnd
  obtain ⟨hnd1, hnd2, hdis⟩ := hnd
  rw [List.nodup_cons] at hnd2
  have hpos : 0 ∉ l₁ ∧ 0 ∉ l₂ := by have := hs.pos; simp_all
  refine ⟨seg_append.mpr ⟨nx m, pv m, ?_, ?_⟩, ?_, by simp [hpos]⟩
  · -- the part before the element
    rw [hu]
    rcases eq_or_ne l₁ [] with rfl | hl
    · simp [h1.1, h1.2]
    · have hu1 : u ∈ l₁ := h1.tail_mem hl
      have hhx : h ≠ m := fun he => hdis h (h1.head_mem hl) m (by simp) he
      have hu0 : u ≠ 0 := fun h0 => hpos.1 (h0 ▸ hu1)
      rw [if_neg hhx]
      refine (h1.setNext hnd1 hl (nx m)).congr (fun a _ => by simp [setAt, hu0]) fun a ha => ?_
      refine setAt_of_ne ?_
      rintro rfl
      rcases eq_or_ne l₂ [] with rfl | hl2
      · exact hpos.1 (by rw [← h2.1]; exact ha)
      · exact hdis _ ha _ (List.mem_cons_of_mem _ (h2.head_mem hl2)) rfl
  · -- the part after it
    rcases eq_or_ne l₂ [] with rfl | hl
    · simp [h2.1, h2.2]
    · have hn2 : nx m ∈ l₂ := h2.head_mem hl
      have htx : t ≠ m := fun he => hnd2.1 (he ▸ h2.tail_mem hl)
      have hn0 : nx m ≠ 0 := fun h0 => hpos.2 (h0 ▸ hn2)
      rw [if_neg htx]
      refine (h2.setPrev hnd2.2 hl (pv m)).congr (fun a ha => setAt_of_ne ?_)
        fun a _ => by simp [setAt, hn0]
      rintro rfl
      rcases eq_or_ne l₁ [] with rfl | hl1
      · exact hpos.2 (by rw [← h1.2, ← hu]; exact ha)
      · exact hdis _ (hu ▸ h1.tail_mem hl1) _ (List.mem_cons_of_mem _ ha) rfl
  · rw [List.nodup_append]
    exact ⟨hnd1, hnd2.2, fun a ha b hb => hdis a ha b (List.mem_cons_of_mem _ hb)⟩

/-- Putting an element in front. -/
theorem IsList.insert (hs : IsList nx pv h t l) (hx : x ∉ l) (hx0 : x ≠ 0) :
    IsList (update nx x h) (setAt (update pv x 0) h x) x (if t = 0 then x else t) (x :: l) := by
  refine ⟨⟨rfl, ?_, ?_⟩, List.nodup_cons.mpr ⟨hx, hs.nodup⟩, by simp [hs.pos, hx0.symm]⟩
  · rw [setAt_of_ne, update_self]
    rintro rfl
    rcases eq_or_ne l [] with rfl | hl
    · exact hx0 hs.seg.1
    · exact hx (hs.seg.head_mem hl)
  · rw [update_self]
    rcases eq_or_ne l [] with rfl | hl
    · simp [hs.seg.1, hs.seg.2]
    · have hh0 : h ≠ 0 := fun h0 => hs.pos (h0 ▸ hs.seg.head_mem hl)
      rw [if_neg (by rw [hs.tail_eq_zero]; exact hl)]
      refine (hs.seg.setPrev hs.nodup hl x).congr (fun a ha => ?_) fun a ha => ?_
      · exact update_of_ne (by rintro rfl; exact hx ha) ..
      · have hax : a ≠ x := by rintro rfl; exact hx ha
        simp [setAt, hh0, update_apply, hax]

/-- Putting an element at the end. -/
theorem IsList.append (hs : IsList nx pv h t l) (hx : x ∉ l) (hx0 : x ≠ 0) :
    IsList (setAt (update nx x 0) t x) (update pv x t) (if h = 0 then x else h) x
      (l ++ [x]) := by
  refine ⟨seg_append.mpr ⟨x, t, ?_, rfl, update_self .., ?_, rfl⟩,
    List.nodup_append.mpr ⟨hs.nodup, by simp, ?_⟩, by simp [hs.pos, hx0.symm]⟩
  · rcases eq_or_ne l [] with rfl | hl
    · simp [hs.seg.1, hs.seg.2]
    · have ht0 : t ≠ 0 := fun h0 => hs.pos (h0 ▸ hs.seg.tail_mem hl)
      rw [if_neg (by rw [hs.head_eq_zero]; exact hl)]
      refine (hs.seg.setNext hs.nodup hl x).congr (fun a ha => ?_) fun a ha => ?_
      · have hax : a ≠ x := by rintro rfl; exact hx ha
        simp [setAt, ht0, update_apply, hax]
      · exact update_of_ne (by rintro rfl; exact hx ha) ..
  · rw [setAt_of_ne, update_self]
    rintro rfl
    rcases eq_or_ne l [] with rfl | hl
    · exact hx0 hs.seg.2
    · exact hx (hs.seg.tail_mem hl)
  · rintro a ha b hb rfl
    exact hx (by simp_all)

/-- Putting an element before `y`. -/
theorem IsList.insertBefore (hs : IsList nx pv h t (l₁ ++ y :: l₂)) (hx : x ∉ l₁ ++ y :: l₂)
    (hx0 : x ≠ 0) :
    IsList (setAt (update nx x y) (pv y) x) (update (update pv x (pv y)) y x)
      (if pv y = 0 then x else h) t (l₁ ++ x :: y :: l₂) := by
  obtain ⟨m, u, h1, rfl, hu, h2⟩ := seg_append.mp hs.seg
  have hnd := hs.nodup
  rw [List.nodup_append] at hnd
  obtain ⟨hnd1, hnd2, hdis⟩ := hnd
  rw [List.nodup_cons] at hnd2
  have hxm : x ≠ m := by rintro rfl; simp at hx
  have hx1 : x ∉ l₁ := fun hm => hx (by simp [hm])
  have hx2 : x ∉ l₂ := fun hm => hx (by simp [hm])
  have hpos : 0 ∉ l₁ ∧ 0 ≠ m ∧ 0 ∉ l₂ := by have := hs.pos; simp_all
  have hpv : pv m ≠ x := by
    rw [hu]
    rcases eq_or_ne l₁ [] with rfl | hl
    · rw [h1.2]; exact hx0.symm
    · rintro rfl; exact hx1 (h1.tail_mem hl)
  have hpm : pv m ≠ m := by
    rw [hu]
    rcases eq_or_ne l₁ [] with rfl | hl
    · rw [h1.2]; exact hpos.2.1
    · rintro rfl; exact hdis _ (h1.tail_mem hl) _ (by simp) rfl
  refine ⟨seg_append.mpr ⟨x, pv m, ?_, rfl, ?_, ?_, ?_, ?_⟩, ?_, ?_⟩
  · rw [hu]
    rcases eq_or_ne l₁ [] with rfl | hl
    · simp [h1.2]
    · have hu1 : u ∈ l₁ := h1.tail_mem hl
      have hu0 : u ≠ 0 := fun h0 => hpos.1 (h0 ▸ hu1)
      rw [if_neg hu0]
      refine (h1.setNext hnd1 hl x).congr (fun a ha => ?_) fun a ha => ?_
      · have hax : a ≠ x := by rintro rfl; exact hx1 ha
        simp [setAt, hu0, update_apply, hax]
      · have hax : a ≠ x := by rintro rfl; exact hx1 ha
        have ham : a ≠ m := fun he => hdis a ha m (by simp) he
        simp [hax, ham]
  · simp [hxm]
  · rw [setAt_of_ne hpv.symm, update_self]
  · rw [update_self]
  · rw [setAt_of_ne hpm.symm, update_of_ne hxm.symm]
    refine h2.congr (fun a ha => ?_) fun a ha => ?_
    · have hax : a ≠ x := by rintro rfl; exact hx2 ha
      rw [setAt_of_ne, update_of_ne hax]
      rintro rfl
      rcases eq_or_ne l₁ [] with rfl | hl
      · exact hpos.2.2 (by rw [← h1.2, ← hu]; exact ha)
      · exact hdis _ (hu ▸ h1.tail_mem hl) _ (List.mem_cons_of_mem _ ha) rfl
    · have hax : a ≠ x := by rintro rfl; exact hx2 ha
      have ham : a ≠ m := by rintro rfl; exact hnd2.1 ha
      simp [hax, ham]
  · have := hs.nodup
    simp_all [List.nodup_append]
    grind
  · have := hs.pos
    simp_all [eq_comm]

end SpeedyCgi.Lib.Dll
