import Mathlib.Data.List.Rotate
import SpeedyCgi.TempFile.Careful

/-!
The frontends in front of a queued frontend.

`fe_prev` walks a queue from its tail to its head and then goes on to the next group, so all queued
frontends form a circle. `frontend_check_prev` walks along it and disposes the frontends that are
not there any more, up to the first one that is. The group of a disposed frontend goes with its last
frontend if it has no backends; the next frontend of the walk is looked up before.
-/

namespace SpeedyCgi.TempFile

open Function Lib.Dll Lib.Wp

variable {e : Env} {s : St} {A B C : AFile} {c : Chain} {x y : SlotNum × SlotNum}
  {n g g' f : SlotNum}
  {live : Pid → Bool} {D D' : List (SlotNum × SlotNum)} {i j l : List SlotNum}

lemma Rep.notes (hs : Rep s A) (ev : Event) : Rep { s with log := ev :: s.log } (A.notes [ev]) :=
  { hs with log := by simp [hs.log] }

/-- Group `g` is freed with its scripts and its name, and nothing else is touched. -/
structure Swept (g : SlotNum) (A B : AFile) : Prop where
  freed : ∀ n, n = g ∨ A.own n = .chain (.script g) ∨ A.own n = .name g → B.own n = .free
  kept : ∀ n, ¬ (n = g ∨ A.own n = .chain (.script g) ∨ A.own n = .name g) → B.own n = A.own n
  groups : B.lst .group = (A.lst .group).erase g
  lst : ∀ c, c ≠ .group → c ≠ .script g → B.lst c = A.lst c
  fe : B.fe = A.fe
  gr : ∀ n ≠ g, B.gr n = A.gr n

lemma Swept.own_iff (h : Swept g A B) {p : Place} (hp : p ≠ .free) :
    B.own n = p ↔ A.own n = p ∧ n ≠ g ∧ p ≠ .chain (.script g) ∧ p ≠ .name g := by
  have h1 := h.freed n
  have h2 := h.kept n
  grind

lemma Swept.notes {evs : List Event} (h : Swept g (A.notes evs) B) : Swept g A B :=
  ⟨h.freed, h.kept, h.groups, h.lst, h.fe, h.gr⟩

/-- Nothing is left that belonged to the group. -/
lemma Swept.housed (h : Swept g A B) (hh : Housed A) (hw : A.Wf) (hg : A.own g = .chain .group)
    (hbe : A.lst (.be g) = []) (hfe : A.lst (.fe g) = []) : Housed B := by
  have hold := fun n {p} (hn : B.own n = p) (hp : p ≠ Place.free) => (h.own_iff hp).mp hn
  have hne : ∀ n c g', B.own n = .chain c → c.owner = some g' → g' ≠ g := by
    rintro n c g' hn hc rfl
    obtain ⟨hn, -, hscr, -⟩ := hold n hn (by simp)
    have hm := (hw.mem c n).mpr hn
    cases c with
    | group | feRun => cases hc
    | script => obtain rfl := Option.some_inj.mp hc; exact hscr rfl
    | be => obtain rfl := Option.some_inj.mp hc; simp [hbe] at hm
    | fe => obtain rfl := Option.some_inj.mp hc; simp [hfe] at hm
  refine ⟨fun n c g' hn hc => ?_, fun n g' hn => ?_, fun g' hg' h0 => ?_, fun g' hg' hnil => ?_⟩
  · have := hh.chain n c g' (hold n hn (by simp)).1 hc
    exact (h.own_iff (by simp)).mpr ⟨this, hne n c g' hn hc, by simp, by simp⟩
  · obtain ⟨hn, -, -, hg'⟩ := hold n hn (by simp)
    exact (h.own_iff (by simp)).mpr ⟨hh.name n g' hn, by grind, by simp, by simp⟩
  · obtain ⟨hg', hne, -⟩ := hold g' hg' (by simp)
    rw [h.gr g' hne] at h0 ⊢
    have hname := hh.nameSlot g' hg' h0
    refine (h.own_iff (by simp)).mpr ⟨hname, ?_, by simp, by simpa using hne⟩
    rintro heq
    rw [heq, hg] at hname
    cases hname
  · obtain ⟨hg', hne, -⟩ := hold g' hg' (by simp)
    rw [h.lst _ (by simp) (by simpa using hne)] at hnil
    rw [h.gr g' hne]
    exact hh.bare g' hg' hnil

/-- All frontends of the group are in `D`, and it has no backends. -/
def AFile.deserted (A : AFile) (D : List (SlotNum × SlotNum)) (g : SlotNum) : Bool :=
  (A.lst (.be g)).isEmpty && !(A.lst (.fe g)).isEmpty && (A.lst (.fe g)).all fun f => (g, f) ∈ D

/-- What goes with the frontends in `D`. -/
def AFile.goes (A : AFile) (D : List (SlotNum × SlotNum)) (n : SlotNum) : Prop :=
  (∃ g, (g, n) ∈ D) ∨ ∃ g, A.deserted D g = true ∧
    (n = g ∨ A.own n = .chain (.script g) ∨ A.own n = .name g)

/-- The frontends in `D` are freed and the groups that they leave deserted, and nothing else is. -/
structure Reaped (D : List (SlotNum × SlotNum)) (A B : AFile) : Prop where
  freed : ∀ n, A.goes D n → B.own n = .free
  kept : ∀ n, ¬ A.goes D n → B.own n = A.own n
  fes : ∀ g, B.lst (.fe g) = (A.lst (.fe g)).filter fun f => (g, f) ∉ D
  groups : B.lst .group = (A.lst .group).filter fun g => !A.deserted D g
  bes : ∀ g, B.lst (.be g) = A.lst (.be g)
  scripts : ∀ g, A.deserted D g = false → B.lst (.script g) = A.lst (.script g)
  feRun : B.lst .feRun = A.lst .feRun
  fe : B.fe = A.fe

lemma deserted_iff : A.deserted D g = true ↔
    A.lst (.be g) = [] ∧ A.lst (.fe g) ≠ [] ∧ ∀ f ∈ A.lst (.fe g), (g, f) ∈ D := by
  simp [AFile.deserted, and_assoc]

lemma Reaped.nil (A : AFile) (evs : List Event) : Reaped [] A (A.notes evs) := by
  have hno : ∀ g, A.deserted [] g = false := by
    intro g
    rw [← Bool.not_eq_true, deserted_iff]
    rintro ⟨-, hne, hall⟩
    obtain ⟨f, hf⟩ := List.exists_mem_of_ne_nil _ hne
    simpa using hall f hf
  have hgo : ∀ n, ¬ A.goes [] n := by simp [AFile.goes, hno]
  exact ⟨fun n hn => absurd hn (hgo n), fun _ _ => rfl, by simp, by simp [hno], fun _ => rfl,
    fun _ _ => rfl, rfl, rfl⟩

lemma Reaped.deserted (h : Reaped D A B) : A.deserted (D ++ D') g = true ↔
    A.deserted D g = true ∨ B.deserted D' g = true := by
  simp only [deserted_iff, h.bes, h.fes, ne_eq, List.filter_eq_nil_iff, List.mem_filter,
    List.mem_append, decide_not, Bool.not_eq_eq_eq_not, Bool.not_true, decide_eq_false_iff_not]
  constructor
  · rintro ⟨hb, hne, hall⟩
    by_cases hD : ∀ f ∈ A.lst (.fe g), (g, f) ∈ D
    · exact .inl ⟨hb, hne, hD⟩
    · refine .inr ⟨hb, by simpa using hD, fun f hf => ?_⟩
      exact (hall f hf.1).resolve_left hf.2
  · rintro (⟨hb, hne, hall⟩ | ⟨hb, hne, hall⟩)
    · exact ⟨hb, hne, fun f hf => .inl (hall f hf)⟩
    · refine ⟨hb, fun hnil => hne (by simp [hnil]), fun f hf => ?_⟩
      by_cases hD : (g, f) ∈ D
      · exact .inl hD
      · exact .inr (hall f ⟨hf, hD⟩)

lemma Reaped.goes (h : Reaped D A B) : A.goes (D ++ D') n ↔ A.goes D n ∨ B.goes D' n := by
  have hown := h.kept n
  have hfree := h.freed n
  simp only [AFile.goes, h.deserted, List.mem_append] at hown hfree ⊢
  grind

lemma Reaped.append (h : Reaped D A B) (h' : Reaped D' B C) : Reaped (D ++ D') A C := by
  have hdes : ∀ g, A.deserted (D ++ D') g = false ↔
      A.deserted D g = false ∧ B.deserted D' g = false := by
    intro g
    rw [← not_iff_not, Bool.not_eq_false, h.deserted, not_and_or, Bool.not_eq_false,
      Bool.not_eq_false]
  refine ⟨fun n hn => ?_, fun n hn => ?_, fun g => ?_, ?_, fun g => ?_, fun g hg => ?_, ?_, ?_⟩
  · by_cases hn' : B.goes D' n
    · exact h'.freed n hn'
    · rw [h'.kept n hn', h.freed n ((h.goes.mp hn).resolve_right hn')]
  · obtain ⟨h1, h2⟩ := not_or.mp (mt h.goes.mpr hn)
    rw [h'.kept n h2, h.kept n h1]
  · rw [h'.fes, h.fes, List.filter_filter]
    congr 1
    funext f
    simp [List.mem_append, Bool.and_comm]
  · rw [h'.groups, h.groups, List.filter_filter]
    congr 1
    funext g
    rw [Bool.eq_iff_iff]
    simp [hdes, and_comm]
  · rw [h'.bes, h.bes]
  · rw [h'.scripts g ((hdes g).mp hg).2, h.scripts g ((hdes g).mp hg).1]
  · rw [h'.feRun, h.feRun]
  · rw [h'.fe, h.fe]

/-- The frontends of the groups `gs`, each queue from its tail to its head. -/
def AFile.turn (A : AFile) (gs : List SlotNum) : List (SlotNum × SlotNum) :=
  gs.flatMap fun g => (A.lst (.fe g)).reverse.map fun f => (g, f)

/-- All queued frontends with their groups, in the order in which `fe_prev` meets them. -/
def AFile.round (A : AFile) : List (SlotNum × SlotNum) := A.turn (A.lst .group)

/-- The others, in the order in which `fe_prev` meets them from frontend `x` on. -/
def AFile.ahead (A : AFile) (x : SlotNum × SlotNum) : List (SlotNum × SlotNum) :=
  (A.round.dropWhile (· ≠ x)).tail ++ A.round.takeWhile (· ≠ x)

lemma nodup_turn (hw : A.Wf) (hl : l.Nodup) : (A.turn l).Nodup := by
  refine List.nodup_flatMap.mpr ⟨fun g _ => ?_, hl.imp fun {g g'} hne => ?_⟩
  · exact (List.nodup_reverse.mpr (hw.nodup _)).map fun _ _ h => (Prod.mk.inj h).2
  · intro x hx hx'
    obtain ⟨f, -, rfl⟩ := List.mem_map.mp hx
    obtain ⟨f', -, heq⟩ := List.mem_map.mp hx'
    exact hne (Prod.mk.inj heq).1.symm

lemma nodup_round (hw : A.Wf) : A.round.Nodup := nodup_turn hw (hw.nodup _)

lemma ahead_eq {i j : List (SlotNum × SlotNum)} (hw : A.Wf) (h : A.round = i ++ x :: j) :
    A.ahead x = j ++ i := by
  have hnd := nodup_round hw
  rw [h, List.nodup_append] at hnd
  have hne : ∀ y ∈ i, decide (y ≠ x) = true := fun y hy => by
    simpa using hnd.2.2 y hy x (by simp)
  rw [AFile.ahead, h, List.dropWhile_append_of_pos hne, List.takeWhile_append_of_pos hne]
  simp

/-- One step along a circle. -/
lemma circle_step {α : Type} {L i j t : List α} {x y : α} (h : L = i ++ x :: j)
    (ht : j ++ i ++ [x] = y :: t) : ∃ i' j', L = i' ++ y :: j' ∧ j' ++ i' = t := by
  cases j with
  | nil => exact ⟨[], t, by simpa using h.trans ht, by simp⟩
  | cons z j =>
    obtain ⟨rfl, rfl⟩ : z = y ∧ j ++ i ++ [x] = t := by simpa using ht
    exact ⟨i ++ [x], j, by simpa using h, by simp⟩

lemma turn_cons : A.turn (g :: l) = (A.lst (.fe g)).reverse.map (fun f => (g, f)) ++ A.turn l := rfl

lemma Reaped.turn (h : Reaped D A B) : B.turn l = (A.turn l).filter (· ∉ D) := by
  rw [AFile.turn, AFile.turn, List.filter_flatMap]
  congr 1
  funext g
  rw [h.fes, List.filter_map, ← List.filter_reverse]
  rfl

/-- Deserted groups have nobody else. -/
lemma turn_filter : (A.turn (l.filter fun g => !A.deserted D g)).filter (· ∉ D) =
    (A.turn l).filter (· ∉ D) := by
  induction l with
  | nil => rfl
  | cons g l ih =>
    cases hd : A.deserted D g with
    | false =>
      simp only [hd, List.filter_cons, turn_cons, List.filter_append, ih, Bool.not_false, if_true]
    | true =>
      have hnil : ((A.lst (.fe g)).reverse.map fun f => (g, f)).filter (· ∉ D) = [] := by
        simpa [List.filter_eq_nil_iff] using (deserted_iff.mp hd).2.2
      rw [List.filter_cons_of_neg (by simp [hd]), ih, turn_cons, List.filter_append, hnil,
        List.nil_append]

/-- The circle without the frontends that have been removed. -/
lemma Reaped.round (h : Reaped D A B) : B.round = A.round.filter (· ∉ D) := by
  rw [AFile.round, h.turn, h.groups, turn_filter]
  rfl

/-- What is ahead of `x` when those in front are removed one by one. -/
lemma Reaped.ahead {x y : SlotNum × SlotNum} {l : List (SlotNum × SlotNum)} (h : Reaped [y] A B)
    (hw : A.Wf) (hwB : B.Wf) (hx : x ∈ A.round) (hy : A.ahead x = y :: l) :
    A.ahead y = l ++ [x] ∧ B.ahead x = l ∧ x ∈ B.round ∧ y ∉ l ++ [x] := by
  obtain ⟨i, j, hr⟩ := List.append_of_mem hx
  have hcut := ahead_eq hw hr
  rw [hy] at hcut
  obtain ⟨i', j', hr', ht⟩ := circle_step (y := y) (t := l ++ [x]) hr (by rw [← hcut]; rfl)
  have hnot : y ∉ l ++ [x] := by
    have hnd := nodup_round hw
    rw [hr', List.nodup_middle, List.nodup_cons] at hnd
    rw [← ht]
    simpa [or_comm] using hnd.1
  obtain ⟨hyl, hyx⟩ := not_or.mp (mt List.mem_append.mpr hnot)
  have hxy : x ≠ y := fun heq => hyx (by simp [heq])
  have hB : B.round = i.filter (· ∉ [y]) ++ x :: j.filter (· ∉ [y]) := by
    rw [h.round, hr]
    simp [hxy]
  refine ⟨(ahead_eq hw hr').trans ht, ?_, by simp [hB], hnot⟩
  rw [ahead_eq hwB hB, ← List.filter_append, ← hcut]
  rw [List.filter_cons_of_neg (by simp), List.filter_eq_self]
  intro z hz
  have : z ≠ y := by
    rintro rfl
    exact hyl hz
  simpa using this

/-- A group with two queued frontends, in slots 2 and 3. -/
def AFile.pair : AFile :=
  { own := fun n => if n = 1 then .chain .group else if n = 2 ∨ n = 3 then .chain (.fe 1) else .out
    lst := fun c => if c = .group then [1] else if c = .fe 1 then [2, 3] else []
    free := [], alloced := 3, scr := fun _ => {}, be := fun _ => {}
    fe := fun n => { pid := n + 10 }, gr := fun _ => {}, grnm := fun _ => zeroName, log := [] }

def File.pair : File :=
  { File.empty with
    next := fun n => if n = 2 then 3 else 0
    prev := fun n => if n = 3 then 2 else 0
    head := fun c => if c = .group then 1 else if c = .fe 1 then 2 else 0
    tail := fun c => if c = .group then 1 else if c = .fe 1 then 3 else 0
    slotsAlloced := 3
    fe := fun n => { pid := n + 10 } }

end SpeedyCgi.TempFile
