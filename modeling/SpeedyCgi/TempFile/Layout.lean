import Mathlib.Order.Defs.LinearOrder
import Mathlib.Tactic.Simps.Basic
import SpeedyCgi.TempFile.BackendMain
import SpeedyCgi.TempFile.Primitives

/-!
The layout of the temp file.

An abstract file says of every slot where it belongs and of every list which slots it has, in
order; what the slots hold is as in the file. `Rep` relates the two: the links, the ends of the
lists and the free list agree with the layout. The operations of `speedy_slot.c` move slots from
place to place, and a proof about a program that uses them only sees these moves.
-/

namespace SpeedyCgi.TempFile

open Function Lib.Dll Lib.Wp

/-- Where a slot belongs. -/
inductive Place
  /-- not allocated -/
  | out
  | free
  | chain (c : Chain)
  /-- the name slot of a group -/
  | name (g : SlotNum)
  /-- allocated and in no list -/
  | loose
  deriving DecidableEq

structure AFile where
  own : SlotNum → Place
  lst : Chain → List SlotNum
  free : List SlotNum
  alloced : SlotNum
  scr : SlotNum → ScrSlot
  be : SlotNum → BeSlot
  fe : SlotNum → FeSlot
  gr : SlotNum → GrSlot
  grnm : SlotNum → List UInt8
  log : List Event

/-- The slot is in use. -/
def AFile.live (A : AFile) (n : SlotNum) : Prop := A.own n ≠ .out ∧ A.own n ≠ .free

/-- The slot that holds the ends of a list. -/
def Chain.owner : Chain → Option SlotNum
  | .group | .feRun => none
  | .script g | .be g | .fe g => some g

def AFile.Usable (A : AFile) (c : Chain) : Prop := ∀ g, c.owner = some g → A.live g

structure Rep (s : St) (A : AFile) : Prop where
  alloced : s.file.slotsAlloced = A.alloced
  scr : s.file.scr = A.scr
  be : s.file.be = A.be
  fe : s.file.fe = A.fe
  gr : s.file.gr = A.gr
  grnm : s.file.grnm = A.grnm
  log : s.log = A.log
  chains : ∀ c, A.Usable c → ∃ t, IsList s.file.next s.file.prev (s.file.head c) t (A.lst c) ∧
    (c.hasTail = true → s.file.tail c = t)
  freeList : Path s.file.next s.file.slotFree A.free
  mem : ∀ c n, n ∈ A.lst c ↔ A.own n = .chain c
  freeMem : ∀ n, n ∈ A.free ↔ A.own n = .free
  freeNodup : A.free.Nodup
  range : ∀ n, A.own n ≠ .out ↔ n ≠ 0 ∧ n ≤ A.alloced
  selfPrev : ∀ n, A.own n ≠ .out → (s.file.prev n = n ↔ A.own n = .free)
  /-- the lists of slots that are not in use are empty -/
  usable : ∀ c n, n ∈ A.lst c → A.Usable c
  name : ∀ g n, A.own n = .name g → A.live g ∧ (A.gr g).nameSlot = n

/-- The program ends well, whatever file has the layout. -/
abbrev Runs {α : Type} (m : M α) (Q : α → AFile → Prop) (A : AFile) : Prop :=
  wpr Rep Die.Allowed m Q A

variable {α : Type} {s : St} {A : AFile} {c : Chain} {x n g : SlotNum} {l l₁ l₂ : List SlotNum}

/-! ### Reading and writing -/

lemma Rep.slotCheck (hs : Rep s A) (hn : A.own n ≠ .out) (Q : Unit → St → Prop) :
    wp Die.Allowed (slotCheck n) Q s ↔ Q () s := by
  have := (hs.range n).mp hn
  unfold TempFile.slotCheck
  rw [wp_bind, wp_get, wp_ite, if_neg, wp_pure]
  rw [hs.alloced, not_or, Nat.not_lt]
  exact this

section
variable {Q : α → AFile → Prop}

lemma runs_slotCheck {Q : Unit → AFile → Prop} (hn : A.own n ≠ .out) (h : Q () A) :
    Runs (slotCheck n) Q A :=
  fun _ hs => (hs.slotCheck hn _).mpr ⟨A, hs, h⟩

lemma runs_readAt {r : File → α} {a : α} (hn : A.own n ≠ .out) (h : Q a A)
    (hr : ∀ s, Rep s A → r s.file = a) :
    Runs (readAt n r) Q A := by
  intro s hs
  simp only [readAt, wp_bind, hs.slotCheck hn, wp_get, wp_pure]
  exact ⟨A, hs, by rw [hr s hs]; exact h⟩

lemma runs_writeAt {Q : Unit → AFile → Prop} {h : File → File} {A' : AFile} (hn : A.own n ≠ .out)
    (hq : Q () A') (hr : ∀ s, Rep s A → Rep { s with file := h s.file } A') :
    Runs (writeAt n h) Q A := by
  intro s hs
  simp only [writeAt, wp_bind, hs.slotCheck hn, modifyFile, wp_modify]
  exact ⟨A', hr s hs, hq⟩

lemma runs_getScr {Q : ScrSlot → AFile → Prop} (hn : A.own n ≠ .out) (h : Q (A.scr n) A) :
    Runs (getScr n) Q A :=
  runs_readAt hn h fun _ hs => by rw [hs.scr]

lemma runs_getBe {Q : BeSlot → AFile → Prop} (hn : A.own n ≠ .out) (h : Q (A.be n) A) :
    Runs (getBe n) Q A :=
  runs_readAt hn h fun _ hs => by rw [hs.be]

lemma runs_getFe {Q : FeSlot → AFile → Prop} (hn : A.own n ≠ .out) (h : Q (A.fe n) A) :
    Runs (getFe n) Q A :=
  runs_readAt hn h fun _ hs => by rw [hs.fe]

lemma runs_getGr {Q : GrSlot → AFile → Prop} (hn : A.own n ≠ .out) (h : Q (A.gr n) A) :
    Runs (getGr n) Q A :=
  runs_readAt hn h fun _ hs => by rw [hs.gr]

lemma runs_getGrnm {Q : List UInt8 → AFile → Prop} (hn : A.own n ≠ .out) (h : Q (A.grnm n) A) :
    Runs (getGrnm n) Q A :=
  runs_readAt hn h fun _ hs => by rw [hs.grnm]

end

/-! ### The lists -/

lemma Rep.zero (hs : Rep s A) : A.own 0 = .out := by
  by_contra h
  exact ((hs.range 0).mp h).1 rfl

lemma Rep.ne_zero (hs : Rep s A) (hn : A.own n ≠ .out) : n ≠ 0 := ((hs.range n).mp hn).1

lemma Rep.nodup (hs : Rep s A) (c : Chain) : (A.lst c).Nodup := by
  by_cases hu : A.Usable c
  · obtain ⟨t, hl, -⟩ := hs.chains c hu
    exact hl.nodup
  · cases hc : A.lst c with
    | nil => exact List.nodup_nil
    | cons n l => exact absurd (hs.usable c n (by simp [hc])) hu

/-- A slot is in one place only. -/
lemma Rep.disjoint (hs : Rep s A) {c c' : Chain} (hx : x ∈ A.lst c) (hx' : x ∈ A.lst c') :
    c = c' := by
  have h1 := (hs.mem c x).mp hx
  have h2 := (hs.mem c' x).mp hx'
  simpa [h1] using h2

lemma runs_getHead {Q : SlotNum → AFile → Prop} (hu : A.Usable c) (h : Q ((A.lst c).headD 0) A) :
    Runs (getHead c) Q A := by
  intro s hs
  obtain ⟨t, hl, -⟩ := hs.chains c hu
  simp only [getHead, wp_bind, wp_get, wp_pure]
  exact ⟨A, hs, by rw [hl.head_eq]; exact h⟩

lemma runs_getTail {Q : SlotNum → AFile → Prop} (hu : A.Usable c) (ht : c.hasTail = true)
    (h : Q ((A.lst c).getLastD 0) A) : Runs (getTail c) Q A := by
  intro s hs
  obtain ⟨t, hl, heq⟩ := hs.chains c hu
  simp only [getTail, wp_bind, wp_get, wp_pure]
  exact ⟨A, hs, by rw [heq ht, hl.tail_eq]; exact h⟩

/-- The slot after an element of a list. -/
lemma runs_slotNext {Q : SlotNum → AFile → Prop} (hl : A.lst c = l₁ ++ x :: l₂)
    (h : Q (l₂.headD 0) A) : Runs (slotNext x) Q A := by
  intro s hs
  have hx : x ∈ A.lst c := by simp [hl]
  have hown := (hs.mem c x).mp hx
  obtain ⟨t, hc, -⟩ := hs.chains c (hs.usable c x hx)
  exact runs_readAt (by simp [hown]) (a := l₂.headD 0) h (fun s hs => by
    obtain ⟨t, hc, -⟩ := hs.chains c (hs.usable c x hx)
    exact (hl ▸ hc).next_eq) s hs

/-- The slot before an element of a list. -/
lemma runs_slotPrev {Q : SlotNum → AFile → Prop} (hl : A.lst c = l₁ ++ x :: l₂)
    (h : Q (l₁.getLastD 0) A) : Runs (slotPrev x) Q A := by
  intro s hs
  have hx : x ∈ A.lst c := by simp [hl]
  have hown := (hs.mem c x).mp hx
  exact runs_readAt (by simp [hown]) (a := l₁.getLastD 0) h (fun s hs => by
    obtain ⟨t, hc, -⟩ := hs.chains c (hs.usable c x hx)
    exact (hl ▸ hc).prev_eq) s hs

/-- The layout after slot `x` went to another place and list `c` became `l`. -/
@[simps -fullyApplied] def AFile.place (A : AFile) (x : SlotNum) (p : Place) (c : Chain) (l : List SlotNum) : AFile :=
  { A with own := update A.own x p, lst := update A.lst c l }

lemma Rep.inRange (hs : Rep s A) (hn : A.own n ≠ .out) : n ≠ 0 ∧ n ≤ s.file.slotsAlloced :=
  hs.alloced ▸ (hs.range n).mp hn

lemma Rep.mem_inRange (hs : Rep s A) (hn : n ∈ A.lst c) : n ≠ 0 ∧ n ≤ s.file.slotsAlloced :=
  hs.inRange (by simp [(hs.mem c n).mp hn])

lemma Rep.lists (hs : Rep s A) : Lists s.file A.Usable A.lst where
  list := hs.chains
  disjoint _ _ _ _ _ hn hn' := hs.disjoint hn hn'
  range _ _ _ hn := (hs.mem_inRange hn).2

lemma Rep.unlinked (hs : Rep s A) (hx : A.own x = .loose) : Unlinked s.file A.Usable A.lst x where
  pos := (hs.inRange (by simp [hx])).1
  range := (hs.inRange (by simp [hx])).2
  out c _ hm := by simpa [hx] using (hs.mem c x).mp hm

/-- One list has changed, and a slot has entered or left it. -/
lemma Rep.becomes {s' : St} (hs : Rep s A) {p : Place} (hb : Becomes s A.Usable A.lst x c l s')
    (hx : A.own x = .loose ∨ A.own x = .chain c) (hp : p = .loose ∨ p = .chain c) (hu : A.Usable c)
    (hmem : ∀ n, n ∈ l ↔ update A.own x p n = .chain c) : Rep s' (A.place x p c l) := by
  have hown : ∀ n, update A.own x p n ≠ .out ↔ A.own n ≠ .out := by
    intro n
    rcases eq_or_ne n x with rfl | hn
    · rcases hx with h | h <;> rcases hp with rfl | rfl <;> simp [h]
    · simp [hn]
  have hfree : ∀ n, update A.own x p n = .free ↔ A.own n = .free := by
    intro n
    rcases eq_or_ne n x with rfl | hn
    · rcases hx with h | h <;> rcases hp with rfl | rfl <;> simp [h]
    · simp [hn]
  have hlive : ∀ g, (A.place x p c l).live g ↔ A.live g := by
    intro g
    simp only [AFile.live, AFile.place]
    rw [hown, ne_eq, ne_eq, hfree]
  have husable : ∀ c', (A.place x p c l).Usable c' ↔ A.Usable c' := by
    intro c'
    simp only [AFile.Usable, hlive]
  have hlst : ∀ c' ≠ c, (A.place x p c l).lst c' = A.lst c' := fun c' hc' => by
    simp [AFile.place, hc']
  refine ⟨?_, ?_, ?_, ?_, ?_, ?_, ?_, fun c' hc' => hb.lists.list c' ((husable c').mp hc'), ?_, ?_, ?_,
    hs.freeNodup, ?_, ?_, ?_, ?_⟩
  · rw [hb.payload]; exact hs.alloced
  · rw [hb.payload]; exact hs.scr
  · rw [hb.payload]; exact hs.be
  · rw [hb.payload]; exact hs.fe
  · rw [hb.payload]; exact hs.gr
  · rw [hb.payload]; exact hs.grnm
  · rw [hb.payload]; exact hs.log
  · have hhead : s'.file.slotFree = s.file.slotFree := by rw [hb.payload]
    rw [hhead]
    refine hs.freeList.congr fun a ha => (hb.links a ?_ fun hac => ?_).1
    · rintro rfl
      have := (hs.freeMem a).mp ha
      rcases hx with h | h <;> simp_all
    · have h1 := (hs.freeMem a).mp ha
      have h2 := (hs.mem c a).mp hac
      simp_all
  · intro c' n
    rcases eq_or_ne c' c with rfl | hne
    · simpa [AFile.place] using hmem n
    · rw [hlst c' hne, hs.mem]
      simp only [AFile.place]
      rcases eq_or_ne n x with rfl | hn
      · rcases hx with h | h <;> rcases hp with rfl | rfl <;> simp [h, hne.symm]
      · simp [hn]
  · intro n
    rw [show (A.place x p c l).free = A.free from rfl, hs.freeMem]
    exact (hfree n).symm
  · intro n
    exact (hown n).trans (hs.range n)
  · intro n hn
    have hn' := (hown n).mp hn
    change s'.file.prev n = n ↔ update A.own x p n = .free
    rw [hfree]
    rcases eq_or_ne n x with rfl | hnx
    · rcases hx with h | h <;> simp [hb.self, h]
    · by_cases hnc : n ∈ A.lst c
      · -- it is still in the list
        have hnl : n ∈ l := by
          rw [hmem, update_of_ne hnx]
          exact (hs.mem c n).mp hnc
        obtain ⟨t, ht, -⟩ := hb.lists.list c hu
        rw [update_self] at ht
        have := (hs.mem c n).mp hnc
        simp [this, ht.prev_ne hnl]
      · rw [(hb.links n hnx hnc).2]
        exact hs.selfPrev n hn'
  · intro c' n hn
    rw [husable]
    rcases eq_or_ne c' c with rfl | hne
    · exact hu
    · rw [hlst c' hne] at hn
      exact hs.usable c' n hn
  · intro g n hn
    have hnx : n ≠ x := by
      rintro rfl
      rcases hp with rfl | rfl <;> simp [AFile.place] at hn
    have := hs.name g n (by simpa [AFile.place, hnx] using hn)
    exact ⟨(hlive g).mpr this.1, this.2⟩

/-! ### What the list operations do to the layout -/

section
variable {Q : Unit → AFile → Prop}

/-- A list operation. -/
lemma runs_becomes {m : M Unit} {p : Place} (hx : A.own x = .loose ∨ A.own x = .chain c)
    (hp : p = .loose ∨ p = .chain c) (hu : A.Usable c)
    (hmem : ∀ s, Rep s A → ∀ n, n ∈ l ↔ update A.own x p n = .chain c)
    (hm : ∀ s, Rep s A → wp Die.Allowed m (fun _ => Becomes s A.Usable A.lst x c l) s)
    (h : Q () (A.place x p c l)) : Runs m Q A :=
  fun s hs => wp_mono (hm s hs) fun _ _ hb => ⟨_, hs.becomes hb hx hp hu (hmem s hs), h⟩

lemma runs_slotRemove (hx : A.own x = .chain c) (h : Q () (A.place x .loose c ((A.lst c).erase x))) :
    Runs (slotRemove x c) Q A := by
  intro s hs
  have hxl : x ∈ A.lst c := (hs.mem c x).mpr hx
  have hu := hs.usable c x hxl
  refine runs_becomes (.inr hx) (.inl rfl) hu (fun s hs n => ?_)
    (fun s hs => wp_remove hs.lists hu hxl) h s hs
  rw [(hs.nodup c).mem_erase_iff, hs.mem, update_apply]
  split <;> simp_all

lemma mem_place (hs : Rep s A) (hl : ∀ n, n ∈ l ↔ n = x ∨ n ∈ A.lst c) (n : SlotNum) :
    n ∈ l ↔ update A.own x (.chain c) n = .chain c := by
  rw [hl, hs.mem, update_apply]
  split <;> simp_all

lemma runs_slotInsert (hx : A.own x = .loose) (hu : A.Usable c)
    (h : Q () (A.place x (.chain c) c (x :: A.lst c))) : Runs (slotInsert x c) Q A :=
  runs_becomes (.inl hx) (.inr rfl) hu (fun _ hs => mem_place hs fun _ => List.mem_cons)
    (fun _ hs => wp_insert hs.lists hu (hs.unlinked hx)) h

lemma runs_slotAppend (hx : A.own x = .loose) (hu : A.Usable c) (hc : c.hasTail = true)
    (h : Q () (A.place x (.chain c) c (A.lst c ++ [x]))) : Runs (slotAppend x c) Q A :=
  runs_becomes (.inl hx) (.inr rfl) hu (fun _ hs => mem_place hs fun n => by simp [or_comm])
    (fun _ hs => wp_append hs.lists hu hc (hs.unlinked hx)) h

end

/-! ### Moving within a list -/

/-- The layout with the slots of list `c` in another order. -/
@[simps -fullyApplied] def AFile.reorder (A : AFile) (c : Chain) (l : List SlotNum) : AFile :=
  { A with lst := update A.lst c l }

lemma AFile.place_self (hx : A.own x = .chain c) : A.place x (.chain c) c l = A.reorder c l := by
  simp only [place, reorder]
  rw [← hx, update_eq_self]

lemma AFile.place_place (hx : A.own x = .chain c) :
    (A.place x .loose c l₁).place x (.chain c) c l = A.reorder c l := by
  simp only [place, reorder, update_idem]
  rw [← hx, update_eq_self]

section
variable {Q : Unit → AFile → Prop}

lemma runs_onlyIf {c : Prop} [Decidable c] {m : M Unit} (h : c → Runs m Q A) (h' : ¬ c → Q () A) :
    Runs (onlyIf c m) Q A := by
  unfold onlyIf
  exact wpr_ite h fun hc => wpr_pure (h' hc)

lemma Usable.of_own (hs : Rep s A) (hx : A.own x = .chain c) : A.Usable c :=
  hs.usable c x ((hs.mem c x).mpr hx)

lemma AFile.usable_place {p : Place} {c' : Chain} (hx : A.live x) (hp : p = .loose ∨ p = .chain c)
    (hu : A.Usable c') : (A.place x p c l).Usable c' := by
  intro g hg
  have := hu g hg
  simp only [live, place] at this ⊢
  rcases eq_or_ne g x with rfl | hn
  · rcases hp with rfl | rfl <;> simp
  · simpa [hn] using this

lemma mem_moved (hs : Rep s A) (hx : A.own x = .chain c) (hl : ∀ n, n ∈ l ↔ n = x ∨ n ∈ (A.lst c).erase x)
    (n : SlotNum) : n ∈ l ↔ update A.own x (.chain c) n = .chain c := by
  refine mem_place hs (fun n => ?_) n
  rw [hl, (hs.nodup c).mem_erase_iff]
  have := (hs.mem c x).mpr hx
  by_cases hn : n = x <;> simp_all

lemma runs_slotMoveTail (hx : A.own x = .chain c) (hu : A.Usable c) (hc : c.hasTail = true)
    (h : Q () (A.reorder c ((A.lst c).erase x ++ [x]))) : Runs (slotMoveTail x c) Q A :=
  runs_becomes (.inr hx) (.inr rfl) hu (fun _ hs => mem_moved hs hx fun n => by simp [or_comm])
    (fun _ hs => wp_moveTail hs.lists hu hc ((hs.mem c x).mpr hx)) (AFile.place_self hx ▸ h)

lemma runs_slotMoveHead (hx : A.own x = .chain c) (hu : A.Usable c)
    (h : Q () (A.reorder c (x :: (A.lst c).erase x))) : Runs (slotMoveHead x c) Q A :=
  runs_becomes (.inr hx) (.inr rfl) hu (fun _ hs => mem_moved hs hx fun _ => List.mem_cons)
    (fun _ hs => wp_moveHead hs.lists hu ((hs.mem c x).mpr hx)) (AFile.place_self hx ▸ h)

/-! ### How long the lists are -/

lemma Rep.length_le (hs : Rep s A) (c : Chain) : (A.lst c).length ≤ A.alloced := by
  by_cases hu : A.Usable c
  · exact hs.alloced ▸ hs.lists.length_le hu
  · cases hc : A.lst c with
    | nil => exact Nat.zero_le _
    | cons n l => exact absurd (hs.usable c n (by simp [hc])) hu

lemma runs_loopFuel {Q : ℕ → AFile → Prop} (h : Q (A.alloced + 1) A) : Runs loopFuel Q A := by
  intro s hs
  simp only [loopFuel, wp_bind, wp_get, wp_pure]
  exact ⟨A, hs, by rw [hs.alloced]; exact h⟩

end

/-! ### Insertion in order -/

lemma runs_slotInsertSorted {Q : Unit → AFile → Prop} {d : SlotNum → Int}
    {compar : SlotNum → SlotNum → M Int} (hx : A.own x = .loose) (hu : A.Usable c)
    (hc : c.hasTail = true)
    (hcmp : ∀ s, Rep s A → ∀ y ∈ A.lst c, compar x y s = .ok (d y, s))
    (h : Q () (A.place x (.chain c) c
      ((A.lst c).takeWhile (0 < d ·) ++ x :: (A.lst c).dropWhile (0 < d ·)))) :
    Runs (slotInsertSorted x c compar) Q A := by
  refine runs_becomes (.inl hx) (.inr rfl) hu (fun _ hs => mem_place hs fun n => ?_)
    (fun _ hs => wp_insertSorted hs.lists hu (hs.unlinked hx) (hcmp _ hs) (.inl hc)) h
  rw [List.perm_middle.mem_iff, List.takeWhile_append_dropWhile, List.mem_cons]

end SpeedyCgi.TempFile
