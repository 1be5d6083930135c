import SpeedyCgi.TempFile.FollowGroup

/-!
Programs that leave free slots alone.

`Runs` says where a program ends. `Careful` also says how it gets there: each slot that the program
reads, writes or frees is in use at that moment, so nothing is touched after it has been freed.
`Tidy` is to `Careful` as `Runs` is to `wp`.
-/

namespace SpeedyCgi.TempFile

open Function Lib.Dll Lib.Wp

variable {α β : Type} {e : Env} {s s' : St} {A : AFile} {c : Chain} {x n g f v : SlotNum}
  {l₁ l₂ : List SlotNum}

/-- The slot is allocated and not marked as free. -/
def St.inUse (s : St) (n : SlotNum) : Prop :=
  n ≠ 0 ∧ n ≤ s.file.slotsAlloced ∧ s.file.prev n ≠ n

/-- So is the slot that holds the ends of the list, if one does. -/
def St.inUseEnds (s : St) (c : Chain) : Prop := ∀ g, c.owner = some g → s.inUse g

/-- From `s` the program ends in `s'` with a value, and only touches slots that are in use. -/
inductive Careful : {α : Type} → M α → St → α → St → Prop
  | pure {α : Type} (a : α) (s : St) : Careful (Pure.pure a) s a s
  | bind {α β : Type} {m : M α} {k : α → M β} {s s' s'' : St} {a : α} {b : β}
      (h : Careful m s a s') (h' : Careful (k a) s' b s'') : Careful (m >>= k) s b s''
  | slotCheck {s : St} {n : SlotNum} (hn : s.inUse n) : Careful (slotCheck n) s () s
  | readAt {α : Type} {s : St} {n : SlotNum} (r : File → α) (hn : s.inUse n) :
      Careful (readAt n r) s (r s.file) s
  | writeAt {s : St} {n : SlotNum} (h : File → File) (hn : s.inUse n) :
      Careful (writeAt n h) s () { s with file := h s.file }
  | getHead {s : St} {c : Chain} (hc : s.inUseEnds c) : Careful (getHead c) s (s.file.head c) s
  | getTail {s : St} {c : Chain} (hc : s.inUseEnds c) : Careful (getTail c) s (s.file.tail c) s
  | setHead {s : St} {c : Chain} (v : SlotNum) (hc : s.inUseEnds c) : Careful (setHead c v) s ()
      { s with file := { s.file with head := update s.file.head c v } }
  | setTail {s : St} {c : Chain} (v : SlotNum) (hc : s.inUseEnds c) : Careful (setTail c v) s ()
      { s with file := { s.file with
        tail := update s.file.tail c (if c.hasTail then v else s.file.tail c) } }
  | slotFree {s : St} {n : SlotNum} (hn : s.inUse n) : Careful (slotFree n) s () (s.release n)
  | loopFuel (s : St) : Careful loopFuel s (s.file.slotsAlloced + 1) s
  | utilKill {s s' : St} {e : Env} {pid : Pid} {sig : Sig} {ok : Bool}
      (h : utilKill e pid sig s = .ok (ok, s')) : Careful (utilKill e pid sig) s ok s'

/-- A careful run is a run. -/
theorem Careful.run {m : M α} {a : α} (h : Careful m s a s') : m s = .ok (a, s') := by
  induction h with
  | pure a s => rfl
  | bind h h' ih ih' =>
    refine eq_of_wp ?_
    rw [wp_bind]
    simp only [wp, ih, ih']
  | slotCheck hn =>
    refine eq_of_wp ?_
    simp only [TempFile.slotCheck, wp_bind, wp_get, wp_ite, wp_pure]
    rw [if_neg (not_or.mpr ⟨hn.1, Nat.not_lt.mpr hn.2.1⟩)]
    trivial
  | readAt r hn => exact readAt_eq ⟨hn.1, hn.2.1⟩
  | writeAt h hn => exact eq_of_wp ((wp_writeAt ⟨hn.1, hn.2.1⟩).mpr rfl)
  | getHead | getTail | setHead | loopFuel => rfl
  | setTail v hc => exact eq_of_wp (wp_setTail.mpr rfl)
  | slotFree hn => exact eq_of_wp ((wp_slotFree ⟨hn.1, hn.2.1⟩ hn.2.2).mpr rfl)
  | utilKill h => exact h

/-! ### The rules for states -/

/-- The program has a careful run that ends in `Q`. -/
def cwp (m : M α) (Q : α → St → Prop) (s : St) : Prop := ∃ a s', Careful m s a s' ∧ Q a s'

section
variable {m : M α} {Q Q' : α → St → Prop}

end

/-! ### The rules for layouts -/

/-- The program ends well, whatever file has the layout, and only touches slots that are in use. -/
def Tidy (m : M α) (Q : α → AFile → Prop) (A : AFile) : Prop :=
  ∀ s, Rep s A → cwp m (fun a s' => ∃ A', Rep s' A' ∧ Q a A') s

lemma Rep.inUse (hs : Rep s A) (hn : A.live n) : s.inUse n :=
  ⟨(hs.inRange hn.1).1, (hs.inRange hn.1).2, fun h => hn.2 ((hs.selfPrev n hn.1).mp h)⟩

lemma Rep.inUseEnds (hs : Rep s A) (hu : A.Usable c) : s.inUseEnds c :=
  fun g hg => hs.inUse (hu g hg)

section
variable {m m' : M α} {Q : α → AFile → Prop}

end

/-! ### The lists -/

/-- A store to a `prev` link other than that of a free slot. -/
lemma St.inUse.setPrev {m : SlotNum} (h : s.inUse m) (hv : v ≠ n) :
    ({ s with file := { s.file with prev := update s.file.prev n v } } : St).inUse m := by
  refine ⟨h.1, h.2.1, ?_⟩
  rcases eq_or_ne m n with rfl | hne
  · simpa using hv
  · simpa [hne] using h.2.2

lemma St.inUseEnds.setPrev (h : s.inUseEnds c) (hv : v ≠ n) :
    ({ s with file := { s.file with prev := update s.file.prev n v } } : St).inUseEnds c :=
  fun g hg => (h g hg).setPrev hv

end SpeedyCgi.TempFile
