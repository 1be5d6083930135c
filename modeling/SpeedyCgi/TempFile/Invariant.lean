import Mathlib.Logic.Relation
import SpeedyCgi.TempFile.Frame

/-!
The invariant of the queue.

It has four parts: backends and frontends are paired, what belongs to a group belongs to a group
slot, only the frontend in front of a queue has been signalled, and groups and scripts are such
that `speedy_script_find` finds the right ones. Every rule keeps it.
-/

namespace SpeedyCgi.TempFile

open Function

variable {w : Who} {A B : AFile} {x n g : SlotNum} {p : Place} {c : Chain}

/-- `fe_running` and `backend` point at each other. -/
structure Paired (A : AFile) : Prop where
  /-- a backend runs for nobody, for itself, or for a running frontend that runs on it -/
  backend : ∀ g b, A.own b = .chain (.be g) → (A.be b).feRunning = 0 ∨ (A.be b).feRunning = b ∨
    A.own (A.be b).feRunning = .chain .feRun ∧ (A.fe (A.be b).feRunning).backend = b
  frontend : ∀ f, A.own f = .chain .feRun → (A.fe f).backend = 0 ∨
    ∃ g, A.own (A.fe f).backend = .chain (.be g) ∧ (A.be (A.fe f).backend).feRunning = f

/-- Everything that belongs to a group belongs to a group slot. -/
structure Housed (A : AFile) : Prop where
  chain : ∀ n c g, A.own n = .chain c → c.owner = some g → A.own g = .chain .group
  name : ∀ n g, A.own n = .name g → A.own g = .chain .group
  nameSlot : ∀ g, A.own g = .chain .group → (A.gr g).nameSlot ≠ 0 →
    A.own (A.gr g).nameSlot = .name g
  bare : ∀ g, A.own g = .chain .group → A.lst (.script g) = [] → (A.gr g).nameSlot = 0

/-- Only the frontend in front of a queue has been signalled. -/
structure Signalled (A : AFile) : Prop where
  waiting : ∀ g f, A.own f = .chain (.fe g) → (A.fe f).sentSig = true →
    (A.lst (.fe g)).head? = some f
  running : ∀ f, A.own f = .chain .feRun → (A.fe f).sentSig = false

/-- What `speedy_script_find` relies on. -/
structure Found (A : AFile) : Prop where
  /-- valid groups stand before the others -/
  order : (A.lst .group).Pairwise fun g g' => A.valid g' → A.valid g
  /-- no two groups have one name -/
  names : ∀ g g' n n', A.own n = .name g → A.own n' = .name g' → A.grnm n = A.grnm n' → g = g'
  form : ∀ g n, A.own n = .name g → ∃ grp, A.grnm n = strncpy grNameLen grp
  /-- a group has one entry at most for a file -/
  distinct : ∀ g s s', A.own s = .chain (.script g) → A.own s' = .chain (.script g) →
    (A.scr s).same (A.scr s') → s = s'
  /-- a group without a name has one script -/
  single : ∀ g, A.own g = .chain .group → (A.gr g).nameSlot = 0 → (A.lst (.script g)).length ≤ 1
  /-- and no two of them have the same -/
  alone : ∀ g g' s s', A.own s = .chain (.script g) → A.own s' = .chain (.script g') →
    (A.gr g).nameSlot = 0 → (A.gr g').nameSlot = 0 → (A.scr s).same (A.scr s') → g = g'

structure AInv (A : AFile) : Prop where
  paired : Paired A
  housed : Housed A
  signalled : Signalled A
  found : Found A

lemma AFile.Wf.zero (hw : A.Wf) : A.own 0 = .out := by
  by_contra h
  exact ((hw.range 0).mp h).1 rfl

/-! ### The pairs -/

/-- A change that concerns at most backend `b` and frontend `f`, which have no other partners. -/
lemma Paired.change (h : Paired A) (hw : A.Wf) (b f : SlotNum)
    (hbe : ∀ n ≠ b, ∀ g, B.own n = .chain (.be g) ↔ A.own n = .chain (.be g))
    (hfe : ∀ n ≠ f, B.own n = .chain .feRun ↔ A.own n = .chain .feRun)
    (hrun : ∀ n ≠ b, ∀ g, A.own n = .chain (.be g) → (B.be n).feRunning = (A.be n).feRunning)
    (hback : ∀ n ≠ f, A.own n = .chain .feRun → (B.fe n).backend = (A.fe n).backend)
    (hb : ∀ g, A.own b = .chain (.be g) → (A.be b).feRunning ∈ [0, b, f])
    (hf : A.own f = .chain .feRun → (A.fe f).backend ∈ [0, b])
    (hb' : ∀ g, B.own b = .chain (.be g) → (B.be b).feRunning = 0 ∨ (B.be b).feRunning = b ∨
      B.own (B.be b).feRunning = .chain .feRun ∧ (B.fe (B.be b).feRunning).backend = b)
    (hf' : B.own f = .chain .feRun → (B.fe f).backend = 0 ∨
      ∃ g, B.own (B.fe f).backend = .chain (.be g) ∧ (B.be (B.fe f).backend).feRunning = f) :
    Paired B where
  backend g n hn := by
    rcases eq_or_ne n b with rfl | hnb
    · exact hb' g hn
    · have hn := (hbe n hnb g).mp hn
      rw [hrun n hnb g hn]
      refine (h.backend g n hn).imp_right fun h2 => h2.imp_right fun ⟨h3, h4⟩ => ?_
      have hne : (A.be n).feRunning ≠ f := by
        rintro rfl
        have := hf h3
        rw [h4] at this
        have h0 : n ≠ 0 := by rintro rfl; simp [hw.zero] at hn
        simp [hnb, h0] at this
      exact ⟨(hfe _ hne).mpr h3, (hback _ hne h3).trans h4⟩
  frontend n hn := by
    rcases eq_or_ne n f with rfl | hnf
    · exact hf' hn
    · have hn := (hfe n hnf).mp hn
      rw [hback n hnf hn]
      refine (h.frontend n hn).imp_right fun ⟨g, h3, h4⟩ => ?_
      have hne : (A.fe n).backend ≠ b := by
        rintro rfl
        have := hb g h3
        rw [h4] at this
        have h0 : n ≠ 0 := by rintro rfl; simp [hw.zero] at hn
        have hnb : n ≠ (A.fe n).backend := by intro heq; rw [← heq] at h3; simp [h3] at hn
        simp [hnf, h0, hnb] at this
      exact ⟨g, (hbe _ hne g).mpr h3, (hrun _ hne g h3).trans h4⟩

/-- A change that concerns neither backends nor running frontends. -/
lemma Paired.frame (h : Paired A) (hbe : ∀ n g, B.own n = .chain (.be g) ↔ A.own n = .chain (.be g))
    (hfe : ∀ n, B.own n = .chain .feRun ↔ A.own n = .chain .feRun)
    (hrun : ∀ n g, A.own n = .chain (.be g) → (B.be n).feRunning = (A.be n).feRunning)
    (hback : ∀ n, A.own n = .chain .feRun → (B.fe n).backend = (A.fe n).backend) : Paired B where
  backend g b hb := by
    have hb := (hbe b g).mp hb
    rw [hrun b g hb]
    refine (h.backend g b hb).imp_right fun h2 => h2.imp_right fun ⟨h3, h4⟩ => ?_
    exact ⟨(hfe _).mpr h3, (hback _ h3).trans h4⟩
  frontend f hf := by
    have hf := (hfe f).mp hf
    rw [hback f hf]
    refine (h.frontend f hf).imp_right fun ⟨g, h3, h4⟩ => ⟨g, (hbe _ g).mpr h3, ?_⟩
    rw [hrun _ g h3]
    exact h4

/-- A slot that is neither a backend nor a running frontend changes its place. -/
lemma Paired.move (h : Paired A) {p : Place} (hown : B.own = update A.own x p)
    (hx : ∀ g, A.own x ≠ .chain (.be g)) (hx' : A.own x ≠ .chain .feRun)
    (hp : ∀ g, p ≠ .chain (.be g)) (hp' : p ≠ .chain .feRun)
    (hbe : ∀ n ≠ x, B.be n = A.be n) (hfe : ∀ n ≠ x, B.fe n = A.fe n) : Paired B := by
  refine h.frame (fun n g => ?_) (fun n => ?_) (fun n g hn => ?_) fun n hn => ?_
  · rw [hown]
    exact update_iff (hx g) (hp g)
  · rw [hown]
    exact update_iff hx' hp'
  · rw [hbe n (by rintro rfl; exact hx g hn)]
  · rw [hfe n (by rintro rfl; exact hx' hn)]

lemma Paired.slot (h : Paired A) (hw : A.Wf) (hr : SlotRule w A B) : Paired B := by
  have h0 := hw.zero
  cases hr with
  | note | parentKill | starting | parentGone | parentMe | parentNew | assign =>
    exact h.frame (fun _ _ => Iff.rfl) (fun _ => Iff.rfl) (fun _ _ _ => rfl) fun _ _ => rfl
  | feNew f fl k p hf hme =>
    have := hf.2
    exact h.move (p := .loose) rfl (by grind) (by grind) (by simp) (by simp) (by simp +contextual)
      (by simp +contextual)
  | feDrop f hf hme =>
    exact h.move (p := .free) rfl (by simp [hf]) (by simp [hf]) (by simp) (by simp) (by simp) (by simp)
  | feBackend f b hf hme =>
    refine h.frame (fun _ _ => Iff.rfl) (fun _ => Iff.rfl) (fun _ _ _ => rfl) fun n hn => ?_
    have hne : n ≠ f := by rintro rfl; simp [hf] at hn
    simp [hne]
  | enqueue g f hg hf hme hsig =>
    exact h.move (p := .chain (.fe g)) rfl (by simp [hf]) (by simp [hf]) (by simp) (by simp)
      (by simp) (by simp)
  | dequeue g f hf hme =>
    exact h.move (p := .loose) rfl (by simp [hf]) (by simp [hf]) (by simp) (by simp) (by simp)
      (by simp)
  | feDispose g f hf hp =>
    exact h.move (p := .free) rfl (by simp [hf]) (by simp [hf]) (by simp) (by simp) (by simp)
      (by simp)
  | sendSig | takeSig =>
    refine h.frame (fun _ _ => Iff.rfl) (fun _ => Iff.rfl) (fun _ _ _ => rfl) fun n _ => ?_
    simp only [AFile.setFe_fe, update_apply]
    split <;> simp_all
  | bePid g b p hb hp hlog hst hno =>
    refine h.frame (fun _ _ => Iff.rfl) (fun _ => Iff.rfl) (fun n _ _ => ?_) fun _ _ => rfl
    simp only [AFile.setBe_be, update_apply]
    split <;> simp_all
  | report g b f sig val hb hf hf0 hfb hp =>
    have := h.backend g b hb
    refine h.change hw b f ?_ ?_ ?_ ?_ ?_ ?_ ?_ ?_ <;> simp +contextual [BeSlot.run]
    · grind
    · grind
  | feDone f hf hb hp =>
    refine h.change hw 0 f ?_ ?_ ?_ ?_ ?_ ?_ ?_ ?_ <;> simp +contextual [hb, h0]
    · grind
    · grind
  | feGone f b hf hb hb0 hp =>
    have := h.frontend f hf
    refine h.change hw b f ?_ ?_ ?_ ?_ ?_ ?_ ?_ ?_ <;> simp +contextual [BeSlot.run]
    · grind
    · grind
    · grind
  | beDispose g b hb hf =>
    refine h.change hw b 0 ?_ ?_ ?_ ?_ ?_ ?_ ?_ ?_ <;> simp +contextual [h0]
    · grind
    · grind
    · grind
  | waitPut g b m hm hb hf hme hst =>
    refine h.change hw b 0 ?_ ?_ ?_ ?_ ?_ ?_ ?_ ?_ <;> simp +contextual [h0, hf]
  | beNew g b fl k hg hb hmax =>
    have := hb.2
    refine h.change hw b 0 ?_ ?_ ?_ ?_ ?_ ?_ ?_ ?_ <;> simp +contextual [h0]
    · grind
    · grind
    · grind
    · grind
  | claim g f b hf hme hfb hsig hb hb0 htaken =>
    refine h.change hw b f ?_ ?_ ?_ ?_ ?_ ?_ ?_ ?_ <;> simp +contextual [BeSlot.run, hb0]
    · grind
    · grind
    · grind
    · grind
  | claimAnon g b hb hb0 htaken =>
    refine h.change hw b 0 ?_ ?_ ?_ ?_ ?_ ?_ ?_ ?_ <;> simp +contextual [BeSlot.run, h0, hb0]

lemma Paired.same (h : Paired A) (hs : SameQueues A B) : Paired B :=
  h.frame (fun n g => hs.own n _ (by simp)) (fun n => hs.own n _ (by simp))
    (fun n g hn => by rw [hs.be n (by simp [hn])]) fun n hn => by rw [hs.fe n (by simp [hn])]

/-! ### The signals -/

lemma update_of {o : SlotNum → Place} {p q : Place} (h : update o x q n = p) (hq : q ≠ p) :
    n ≠ x ∧ o n = p := by
  rcases eq_or_ne n x with rfl | hn
  · simp [hq] at h
  · exact ⟨hn, by simpa [hn] using h⟩

lemma head?_erase {l : List SlotNum} {f f' : SlotNum} (h : l.head? = some f) (hne : f ≠ f') :
    (l.erase f').head? = some f := by
  cases l with
  | nil => simp at h
  | cons y l =>
    obtain rfl : y = f := by simpa using h
    rw [List.erase_cons_tail (by simpa using hne)]
    rfl

/-- No frontend is signalled, and slot `x` at most leaves the queues. -/
lemma Signalled.move (h : Signalled A) {q : Place} (hown : B.own = update A.own x q)
    (hq : ∀ g, q ≠ .chain (.fe g)) (hq' : q ≠ .chain .feRun)
    (hsig : ∀ n ≠ x, (B.fe n).sentSig = (A.fe n).sentSig)
    (hlst : ∀ g, B.lst (.fe g) = A.lst (.fe g) ∨ B.lst (.fe g) = (A.lst (.fe g)).erase x) :
    Signalled B where
  waiting g f hf hs := by
    rw [hown] at hf
    obtain ⟨hne, hf⟩ := update_of hf (hq g)
    rw [hsig f hne] at hs
    have := h.waiting g f hf hs
    rcases hlst g with hl | hl
    · rwa [hl]
    · rw [hl]
      exact head?_erase this hne
  running f hf := by
    rw [hown] at hf
    obtain ⟨hne, hf⟩ := update_of hf hq'
    rw [hsig f hne]
    exact h.running f hf

/-- No frontend is signalled by a store to `f`. -/
lemma Signalled.setFe (h : Signalled A) {f : SlotNum} {v : FeSlot}
    (hv : v.sentSig = true → (A.fe f).sentSig = true) : Signalled (A.setFe f v) := by
  have hsig : ∀ n, ((A.setFe f v).fe n).sentSig = true → (A.fe n).sentSig = true := by
    intro n
    simp only [AFile.setFe_fe, update_apply]
    split
    · subst n; exact hv
    · exact id
  refine ⟨fun g f hf hs => h.waiting g f hf (hsig f hs), fun f hf => ?_⟩
  rw [← Bool.not_eq_true]
  intro hs
  have := h.running f hf
  simp [hsig f hs] at this

lemma Signalled.slot (h : Signalled A) (hw : A.Wf) (hr : SlotRule w A B) : Signalled B := by
  cases hr with
  | note | parentKill | starting | parentGone | parentMe | parentNew | bePid | claimAnon =>
    exact ⟨h.waiting, h.running⟩
  | assign g f b | waitPut g b =>
    exact ⟨fun g f hf hs => by simpa using h.waiting g f hf hs, h.running⟩
  | feNew f fl k p hf hme =>
    exact h.move (x := f) (q := .loose) rfl (by simp) (by simp) (by simp +contextual) (by simp)
  | feDrop f hf hme => exact h.move (x := f) (q := .free) rfl (by simp) (by simp) (by simp) (by simp)
  | feBackend f b hf hme => exact h.setFe id
  | report g b f sig val hb hf hf0 hfb hp =>
    exact Signalled.setFe (A := A.setBe ..) ⟨h.waiting, h.running⟩ id
  | feDone f hf hb hp =>
    exact h.move (x := f) (q := .free) rfl (by simp) (by simp) (by simp) (by simp)
  | feGone f b hf hb hb0 hp => 
    exact h.move (x := f) (q := .free) rfl (by simp) (by simp) (by simp) (by simp)
  | beDispose g b hb hf => 
    exact h.move (x := b) (q := .free) rfl (by simp) (by simp) (by simp) (by simp)
  | beNew g b fl k hg hb hmax =>
    exact h.move (x := b) (q := .chain (.be g)) (by simp) (by simp) (by simp) (by simp +contextual) (by simp)
  | enqueue g f hg hf hme hsig =>
    constructor
    · intro g' f' hf' hs
      have hne : f' ≠ f := by
        rintro rfl
        simp [hsig] at hs
      have hf' : A.own f' = .chain (.fe g') := by simpa [hne] using hf'
      have := h.waiting g' f' hf' hs
      rcases eq_or_ne g' g with rfl | hg
      · simp [this]
      · simpa [hg] using this
    · intro f' hf'
      exact h.running f' (update_of hf' (by simp)).2
  | dequeue g f hf hme => 
    refine h.move (x := f) (q := .loose) rfl (by simp) (by simp) (by simp) fun g' => ?_
    rcases eq_or_ne g' g with rfl | hne
    · simp
    · simp [hne]
  | feDispose g f hf hp => 
    refine h.move (x := f) (q := .free) rfl (by simp) (by simp) (by simp) fun g' => ?_
    rcases eq_or_ne g' g with rfl | hne
    · simp
    · simp [hne]
  | sendSig g f hf => 
    have hmem : f ∈ A.lst (.fe g) := List.mem_of_mem_head? hf
    have hown := (hw.mem _ f).mp hmem
    constructor
    · intro g' f' hf' hs
      rcases eq_or_ne f' f with rfl | hne
      · obtain rfl : g = g' := by simpa [hown] using hf'
        exact hf
      · exact h.waiting g' f' hf' (by simpa [hne] using hs)
    · intro f' hf'
      have hne : f' ≠ f := by rintro rfl; simp [hown] at hf'
      simpa [hne] using h.running f' hf'
  | takeSig f hme => exact h.setFe (by simp)
  | claim g f b hf hme hfb hsig hb hb0 htaken =>
    constructor
    · intro g' f' hf' hs
      exact h.waiting g' f' (update_of hf' (by simp)).2 hs
    · intro f' hf'
      rcases eq_or_ne f' f with rfl | hne
      · exact hsig
      · exact h.running f' (by simpa [hne] using hf')

lemma Signalled.same (h : Signalled A) (hs : SameQueues A B) : Signalled B where
  waiting g f hf hsig := by
    have hf := (hs.own f _ (by simp)).mp hf
    rw [hs.lst _ (by simp)]
    exact h.waiting g f hf (hs.fe f (by simp [hf]) ▸ hsig)
  running f hf := by
    have hf := (hs.own f _ (by simp)).mp hf
    rw [hs.fe f (by simp [hf])]
    exact h.running f hf

/-! ### The groups -/

lemma Housed.slot (h : Housed A) (hr : SlotRule w A B) : Housed B := by
  have hs := hr.sameGroups
  have hgroup : ∀ g, A.own g = .chain .group → B.own g = .chain .group := fun g =>
    (hs.own g _ (by simp)).mpr
  refine ⟨fun n c g hn hc => ?_, fun n g hn => ?_, fun g hg => ?_, fun g hg => ?_⟩
  · by_cases hq : c.queued
    · -- the rules that put a slot into a list name its group
      have key : A.own n = .chain c ∨ A.own g = .chain .group := by
        cases hr <;> simp [update_apply] at hn <;> grind [Chain.owner]
      rcases key with h1 | h1
      · exact hgroup g (h.chain n c g h1 hc)
      · exact hgroup g h1
    · exact hgroup g (h.chain n c g ((hs.own n (.chain c) hq).mp hn) hc)
  · exact hgroup g (h.name n g ((hs.own n _ (by simp)).mp hn))
  · have hg := (hs.own g _ (by simp)).mp hg
    rw [hs.nameSlot g hg, hs.own _ _ (by simp)]
    exact h.nameSlot g hg
  · have hg := (hs.own g _ (by simp)).mp hg
    rw [hs.nameSlot g hg, hs.lst _ (by simp)]
    exact h.bare g hg

section
variable (A : AFile) (g : SlotNum)

@[simp] lemma AFile.clear_lst : (A.clear g).lst = update A.lst (.script g) [] := by
  unfold clear; split <;> rfl

@[simp] lemma AFile.clear_scr : (A.clear g).scr = A.scr := by unfold clear; split <;> rfl
@[simp] lemma AFile.clear_be : (A.clear g).be = A.be := by unfold clear; split <;> rfl
@[simp] lemma AFile.clear_fe : (A.clear g).fe = A.fe := by unfold clear; split <;> rfl
@[simp] lemma AFile.clear_grnm : (A.clear g).grnm = A.grnm := by unfold clear; split <;> rfl

@[simp] lemma AFile.clear_gr : (A.clear g).gr = update A.gr g { A.gr g with nameSlot := 0 } := by
  unfold clear
  split
  · rename_i h
    rw [← h]
    simp
  · rfl

lemma AFile.clear_own (hw : A.Wf) (n : SlotNum) : (A.clear g).own n =
    if A.own n = .chain (.script g) ∨ (A.gr g).nameSlot ≠ 0 ∧ n = (A.gr g).nameSlot then .free
    else A.own n := by
  unfold clear
  split <;> simp [update_apply, hw.mem] <;> grind

end

/-- What stays where it was when a group loses its scripts and its name. -/
lemma AFile.clear_own_iff (hw : A.Wf) (hg : (A.gr g).nameSlot ≠ 0 → A.own (A.gr g).nameSlot = .name g)
    {p : Place} (hp : p ≠ .free) (n : SlotNum) :
    (A.clear g).own n = p ↔ A.own n = p ∧ p ≠ .chain (.script g) ∧ p ≠ .name g := by
  have := hw.name g n
  have := hw.zero
  rw [A.clear_own g hw]
  grind

lemma AFile.Wf.lst_eq_nil (hw : A.Wf) (hn : A.fresh n) {c : Chain} (hc : c.owner = some n) :
    A.lst c = [] := by
  by_contra h
  obtain ⟨m, hm⟩ := List.exists_mem_of_ne_nil _ h
  have := hw.usable c m hm n hc
  rcases hn.2 with h | h <;> simp [AFile.live, h] at this

lemma AFile.dead (hn : ¬ A.live n) : A.own n = .out ∨ A.own n = .free := by
  simpa [AFile.live, or_iff_not_imp_left] using hn

lemma AFile.fresh.ne (hx : A.fresh x) (hn : A.live n) : n ≠ x := by
  rintro rfl
  rcases hx.2 with h | h <;> simp [AFile.live, h] at hn

/-- Slots come into use; those in use stay where they are. -/
lemma Housed.grow (h : Housed A) (hown : ∀ n, A.live n → B.own n = A.own n)
    (hgr : ∀ g, A.own g = .chain .group → (B.gr g).nameSlot = (A.gr g).nameSlot ∧
      (B.lst (.script g) = [] → A.lst (.script g) = []))
    (hchain : ∀ n c g, ¬ A.live n → B.own n = .chain c → c.owner = some g → B.own g = .chain .group)
    (hname : ∀ n g, ¬ A.live n → B.own n = .name g → B.own g = .chain .group)
    (hgroup : ∀ g, ¬ A.live g → B.own g = .chain .group → B.lst (.script g) ≠ [] ∧
      ((B.gr g).nameSlot ≠ 0 → B.own (B.gr g).nameSlot = .name g)) : Housed B := by
  have hkeep : ∀ g, A.own g = .chain .group → B.own g = .chain .group := fun g hg => by
    rw [hown g (by simp [AFile.live, hg]), hg]
  refine ⟨fun n c g hn hc => ?_, fun n g hn => ?_, fun g hg h0 => ?_, fun g hg => ?_⟩
  · by_cases hl : A.live n
    · exact hkeep g (h.chain n c g (hown n hl ▸ hn) hc)
    · exact hchain n c g hl hn hc
  · by_cases hl : A.live n
    · exact hkeep g (h.name n g (hown n hl ▸ hn))
    · exact hname n g hl hn
  · by_cases hl : A.live g
    · have hg := hown g hl ▸ hg
      rw [(hgr g hg).1] at h0 ⊢
      have := h.nameSlot g hg h0
      rw [hown _ (by simp [AFile.live, this]), this]
    · exact (hgroup g hl hg).2 h0
  · by_cases hl : A.live g
    · have hg := hown g hl ▸ hg
      rw [(hgr g hg).1]
      exact fun hnil => h.bare g hg ((hgr g hg).2 hnil)
    · exact fun hnil => absurd hnil (hgroup g hl hg).1

lemma Housed.group (h : Housed A) (hw : A.Wf) (hr : GroupRule w A B) : Housed B := by
  cases hr with
  | invalidate g evs hg hv hevs =>
    have hown := fun {p} (hp : p ≠ Place.free) n => AFile.clear_own_iff hw (h.nameSlot g hg) hp n
    refine ⟨fun n c g' hn hc => ?_, fun n g' hn => ?_, fun g' hg' hne => ?_, fun g' hg' => ?_⟩
    · obtain ⟨hn, -⟩ := (hown (by simp) n).mp hn
      exact (hown (by simp) g').mpr ⟨h.chain n c g' hn hc, by simp⟩
    · obtain ⟨hn, -⟩ := (hown (by simp) n).mp hn
      exact (hown (by simp) g').mpr ⟨h.name n g' hn, by simp⟩
    · have hne' : g' ≠ g := by rintro rfl; simp at hne
      have hg' := ((hown (by simp) g').mp hg').1
      simp [hne'] at hne ⊢
      exact (hown (by simp) _).mpr ⟨h.nameSlot g' hg' hne, by simpa using hne'⟩ 
    · have hg' := ((hown (by simp) g').mp hg').1
      rcases eq_or_ne g' g with rfl | hne'
      · simp
      · simpa [hne'] using h.bare g' hg'
  | groupRemove g hg hb hf hs hn0 hp =>
    have hlst : ∀ c : Chain, c.owner = some g → A.lst c = [] := by
      rintro (_ | _ | _ | _ | _) ⟨⟩ <;> assumption
    have hown : ∀ n p, update A.own g .free n = p → p ≠ .free → n ≠ g ∧ A.own n = p := fun n p h hp =>
      update_of h hp.symm
    refine ⟨fun n c g' hn hc => ?_, fun n g' hn => ?_, fun g' hg' => ?_, fun g' hg' => ?_⟩
    · obtain ⟨-, hn'⟩ := hown _ _ hn (by simp)
      have hne : g' ≠ g := by
        rintro rfl
        have := (hw.mem c n).mpr hn'
        simp [hlst c hc] at this
      simpa [hne] using h.chain n c g' hn' hc
    · obtain ⟨-, hn'⟩ := hown _ _ hn (by simp)
      have hne : g' ≠ g := by
        rintro rfl
        have h0 : n = 0 := (hw.name _ n hn').2.symm.trans hn0
        simp [h0, hw.zero] at hn'
      simpa [hne] using h.name n g' hn'
    · obtain ⟨hne, hg'⟩ := hown _ _ hg' (by simp)
      intro h0
      have hn' := h.nameSlot g' hg' h0
      have : (A.gr g').nameSlot ≠ g := by intro he; simp [he, hg] at hn'
      simpa [this] using hn'
    · obtain ⟨hne, hg'⟩ := hown _ _ hg' (by simp)
      simpa using h.bare g' hg'
  | groupNew g s v fl fl' k k' hg hs hsg hnew =>
    have hlive := fun n hn => And.intro (hg.ne (n := n) hn) (hs.ne (n := n) hn)
    refine h.grow (fun n hn => ?_) (fun g' hg' => ?_) (fun n c g' hn => ?_) (fun n g' hn => ?_)
      fun n hn => ?_
    · simp [hlive n hn]
    · simp [hlive g' (by simp [AFile.live, hg'])]
    all_goals
      have hdead := AFile.dead hn
      clear h hw hnew hlive hn
      simp [update_apply]
      grind [Chain.owner]
  | groupNamed g n s grp v fl fl' fl'' k k' k'' hg hn hs hng hsg hsn hnew =>
    have hlive := fun m hm => And.intro (hg.ne (n := m) hm) (And.intro (hn.ne (n := m) hm) (hs.ne (n := m) hm))
    refine h.grow (fun n hn => ?_) (fun g' hg' => ?_) (fun m c g' hm => ?_) (fun m g' hm => ?_)
      fun m hm => ?_
    · simp [hlive n hn]
    · simp [hlive g' (by simp [AFile.live, hg'])]
    all_goals
      have hdead := AFile.dead hm
      clear h hw hnew hlive hm
      simp [update_apply]
      grind [Chain.owner]
  | scriptNew g s v fl k hg hv hn hnew hs =>
    have hlive := fun n hn => hs.ne (n := n) hn
    refine h.grow (fun n hn => ?_) (fun g' hg' => ?_) (fun n c g' hn => ?_) (fun n g' hn => ?_)
      fun n hn => ?_
    · simp [hlive n hn]
    · have := hlive g' (by simp [AFile.live, hg'])
      rcases eq_or_ne g' g with rfl | hne
      · simp [this]
      · simp [this, hne]
    all_goals
      have hdead := AFile.dead hn
      clear h hw hnew hlive hn
      simp [update_apply]
      grind [Chain.owner]
  | scriptFront g s hs =>
    refine ⟨h.chain, h.name, h.nameSlot, fun g' hg' hnil => h.bare g' hg' ?_⟩
    rcases eq_or_ne g' g with rfl | hne
    · simp at hnil
    · simpa [hne] using hnil
  | groupFront g hg hv => exact ⟨h.chain, h.name, h.nameSlot, fun g' hg' hnil => h.bare g' hg' (by simpa using hnil)⟩

lemma Found.slot (h : Found A) (hh : Housed A) (hr : SlotRule w A B) : Found B := by
  have hs := hr.sameGroups
  have hval : ∀ g, B.valid g ↔ A.valid g := fun g => by
    unfold AFile.valid
    rw [hs.lst _ (by simp)]
  have hscript : ∀ s g, B.own s = .chain (.script g) → A.own s = .chain (.script g) ∧ B.scr s = A.scr s := fun s g hn => by
    have := (hs.own s _ (by simp)).mp hn
    exact ⟨this, hs.scr s g this⟩
  have hname : ∀ n g, B.own n = .name g → A.own n = .name g ∧ B.grnm n = A.grnm n := fun n g hn => by
    have := (hs.own n _ (by simp)).mp hn
    exact ⟨this, hs.grnm n g this⟩
  refine ⟨?_, fun g g' n n' hn hn' heq => ?_, fun g n hn => ?_, fun g s s' hs1 hs2 heq => ?_, fun g hg h0 => ?_, fun g g' s s' hs1 hs2 h1 h2 heq => ?_⟩
  · rw [hs.lst _ (by simp)]
    simpa only [hval] using h.order
  · obtain ⟨hn, e⟩ := hname n g hn
    obtain ⟨hn', e'⟩ := hname n' g' hn'
    exact h.names g g' n n' hn hn' (by rw [← e, ← e', heq])
  · obtain ⟨hn, e⟩ := hname n g hn
    rw [e]
    exact h.form g n hn
  · obtain ⟨hs1, e⟩ := hscript s g hs1
    obtain ⟨hs2, e'⟩ := hscript s' g hs2
    exact h.distinct g s s' hs1 hs2 (e ▸ e' ▸ heq)
  · have hg := (hs.own g _ (by simp)).mp hg
    rw [hs.lst _ (by simp)]
    exact h.single g hg (hs.nameSlot g hg ▸ h0)
  · obtain ⟨hs1, e⟩ := hscript s g hs1
    obtain ⟨hs2, e'⟩ := hscript s' g' hs2
    have hg := hh.chain s _ g hs1 rfl
    have hg' := hh.chain s' _ g' hs2 rfl
    exact h.alone g g' s s' hs1 hs2 (hs.nameSlot g hg ▸ h1) (hs.nameSlot g' hg' ▸ h2) (e ▸ e' ▸ heq)

lemma ScrSlot.same.symm {a b : ScrSlot} (h : a.same b) : b.same a := ⟨h.1.symm, h.2.symm⟩

/-- Entry `t` for `v` is new in group `k`; the other entries stay. -/
lemma Found.addScript (h : Found A) (hh : Housed A) {t k : SlotNum} {v : ScrSlot}
    (hs : ∀ s g, B.own s = .chain (.script g) →
      A.own s = .chain (.script g) ∧ B.scr s = A.scr s ∨ s = t ∧ g = k ∧ B.scr s = v)
    (hgr : ∀ g, A.own g = .chain .group → (B.gr g).nameSlot = (A.gr g).nameSlot)
    (hnew : ∀ s, A.own s = .chain (.script k) → ¬ (A.scr s).same v)
    (halone : (B.gr k).nameSlot = 0 → ∀ g s, A.own s = .chain (.script g) → ¬ (A.scr s).same v) :
    (∀ g s s', B.own s = .chain (.script g) → B.own s' = .chain (.script g) →
      (B.scr s).same (B.scr s') → s = s') ∧
    (∀ g g' s s', B.own s = .chain (.script g) → B.own s' = .chain (.script g') →
      (B.gr g).nameSlot = 0 → (B.gr g').nameSlot = 0 → (B.scr s).same (B.scr s') → g = g') := by
  constructor
  · intro g s s' h1 h2 heq
    obtain ⟨h1, e1⟩ | ⟨rfl, rfl, e1⟩ := hs s g h1 <;>
      obtain ⟨h2, e2⟩ | ⟨rfl, h3, e2⟩ := hs s' _ h2 <;> simp only [e1, e2] at heq
    · exact h.distinct g s s' h1 h2 heq
    · exact absurd heq (hnew s (h3 ▸ h1))
    · exact absurd heq.symm (hnew s' h2)
    · rfl
  · intro g g' s s' h1 h2 hg hg' heq
    have hold : ∀ s g, A.own s = .chain (.script g) → (B.gr g).nameSlot = 0 →
        (A.gr g).nameSlot = 0 := fun s g h1 h2 => by
      rwa [hgr g (hh.chain s _ g h1 rfl)] at h2
    obtain ⟨h1, e1⟩ | ⟨rfl, rfl, e1⟩ := hs s g h1 <;>
      obtain ⟨h2, e2⟩ | ⟨rfl, rfl, e2⟩ := hs s' g' h2 <;> simp only [e1, e2] at heq
    · exact h.alone g g' s s' h1 h2 (hold s g h1 hg) (hold s' g' h2 hg') heq
    · exact absurd heq (halone hg' g s h1)
    · exact absurd heq.symm (halone hg g' s' h2)
    · rfl

/-- The order of the groups when at most `g` becomes valid, which stands in front. -/
lemma Found.order_cons (h : Found A) {l : List SlotNum} (hsub : l.Sublist (A.lst .group))
    (hval : ∀ g' ∈ l, B.valid g' ↔ A.valid g') (hg : B.valid g) :
    (g :: l).Pairwise fun g g' => B.valid g' → B.valid g := by
  refine List.pairwise_cons.mpr ⟨fun _ _ _ => hg, ?_⟩
  refine (h.order.sublist hsub).imp_of_mem fun h1 h2 h3 => ?_
  rw [hval _ h1, hval _ h2]
  exact h3

/-- A script slot comes into use in group `g`. -/
lemma own_addScript {o : SlotNum → Place} {s : SlotNum} {q : Place}
    (h : update (update o s .loose) s q n = p) : n = s ∧ p = q ∨ o n = p ∧ n ≠ s := by
  rw [update_idem, update_apply] at h
  split at h
  · exact .inl ⟨‹_›, h.symm⟩
  · exact .inr ⟨h, ‹_›⟩

lemma AFile.live_of (hn : A.own n = .chain c) : A.live n := by simp [live, hn]

lemma Found.invalidate (h : Found A) (hh : Housed A) (hw : A.Wf) {evs : List Event}
    (hg : A.own g = .chain .group) :
    Found (((A.clear g).notes evs).reorder .group ((A.lst .group).erase g ++ [g])) := by
  have hown := fun {p} (hp : p ≠ Place.free) n => AFile.clear_own_iff hw (hh.nameSlot g hg) hp n
  have hval : ∀ g' ≠ g, (((A.clear g).notes evs).reorder .group
      ((A.lst .group).erase g ++ [g])).valid g' ↔ A.valid g' := by
    intro g' hne
    simp [AFile.valid, hne]
  refine ⟨?_, fun g' g'' n n' hn1 hn2 heq => ?_, fun g' n hn => ?_, fun g' s s' h1 h2 heq => ?_,
    fun g' hg' h0 => ?_, fun g' g'' s s' h1 h2 h3 h4 heq => ?_⟩
  · simp only [AFile.reorder_lst, update_self]
    refine List.pairwise_append.mpr ⟨?_, List.pairwise_singleton .., fun _ _ g' hg' hv' => ?_⟩
    · refine (h.order.sublist List.erase_sublist).imp_of_mem fun h1 h2 h3 => ?_
      have hne := fun g' hg' => ((hw.nodup .group).mem_erase_iff (a := g') (b := g)).mp hg'
      rw [hval _ (hne _ h1).1, hval _ (hne _ h2).1]
      exact h3
    · obtain rfl : g' = g := by simpa using hg'
      simp [AFile.valid] at hv'
  · have hn1 := ((hown (by simp) n).mp hn1).1
    have hn2 := ((hown (by simp) n').mp hn2).1
    exact h.names g' g'' n n' hn1 hn2 (by simpa using heq)
  · have hn := ((hown (by simp) n).mp hn).1
    simpa using h.form g' n hn
  · have h1 := ((hown (by simp) s).mp h1).1
    have h2 := ((hown (by simp) s').mp h2).1
    exact h.distinct g' s s' h1 h2 (by simpa using heq)
  · have hg' := ((hown (by simp) g').mp hg').1
    rcases eq_or_ne g' g with rfl | hne
    · simp
    · simpa [hne] using h.single g' hg' (by simpa [hne] using h0)
  · obtain ⟨h1, hne1, -⟩ := (hown (by simp) s).mp h1
    obtain ⟨h2, hne2, -⟩ := (hown (by simp) s').mp h2
    have hne1 : g' ≠ g := by simpa using hne1
    have hne2 : g'' ≠ g := by simpa using hne2
    exact h.alone g' g'' s s' h1 h2 (by simpa [hne1] using h3) (by simpa [hne2] using h4)
      (by simpa using heq)

lemma Found.groupRemove (h : Found A) (g : SlotNum) : Found (A.discard g .group) := by
  have hown : ∀ n p, update A.own g .free n = p → p ≠ .free → n ≠ g ∧ A.own n = p :=
    fun n p h hp => update_of h hp.symm
  have hval : ∀ g', (A.discard g .group).valid g' ↔ A.valid g' := by simp [AFile.valid]
  refine ⟨?_, fun g' g'' n n' hn1 hn2 heq => ?_, fun g' n hn => ?_, fun g' s s' h1 h2 heq => ?_,
    fun g' hg' h0 => ?_, fun g' g'' s s' h1 h2 h3 h4 heq => ?_⟩
  · simp only [hval, AFile.discard_lst, update_self]
    exact h.order.sublist List.erase_sublist
  · exact h.names g' g'' n n' (hown _ _ hn1 (by simp)).2 (hown _ _ hn2 (by simp)).2 heq
  · exact h.form g' n (hown _ _ hn (by simp)).2
  · exact h.distinct g' s s' (hown _ _ h1 (by simp)).2 (hown _ _ h2 (by simp)).2 heq
  · simpa using h.single g' (hown _ _ hg' (by simp)).2 h0
  · exact h.alone g' g'' s s' (hown _ _ h1 (by simp)).2 (hown _ _ h2 (by simp)).2 h3 h4 heq

lemma Found.groupNew (h : Found A) (hh : Housed A) (hw : A.Wf) {s : SlotNum} {v : ScrSlot}
    {fl fl' : List SlotNum} {k k' : SlotNum} (hg : A.fresh g) (hs : A.fresh s) 
    (hnew : ∀ g s, A.own s = .chain (.script g) → ¬ (A.scr s).same v) :
    Found ((((A.alloc g fl k).addGroup g).alloc s fl' k').addScript g s v) := by
  have hnil : A.lst (.script g) = [] := hw.lst_eq_nil hg rfl
  have hfresh : ∀ n, A.live n → n ≠ g ∧ n ≠ s := fun n hn => ⟨hg.ne hn, hs.ne hn⟩
  have hown : ∀ n p, ((((A.alloc g fl k).addGroup g).alloc s fl' k').addScript g s v).own n = p →
      n = s ∧ p = .chain (.script g) ∨ n = g ∧ p = .chain .group ∨ A.own n = p ∧ n ≠ s ∧ n ≠ g := by
    intro n p hn
    obtain h1 | ⟨h1, hns⟩ := own_addScript hn
    · exact .inl h1
    · obtain h2 | ⟨h2, hng⟩ := own_addScript h1
      · exact .inr (.inl h2)
      · exact .inr (.inr ⟨h2, hns, hng⟩)
  have hnames : ∀ n g', ((((A.alloc g fl k).addGroup g).alloc s fl' k').addScript g s v).own n =
      .name g' → A.own n = .name g' ∧ n ≠ s ∧ n ≠ g := fun n g' hn => by
    simpa using hown n _ hn
  have hsc := h.addScript hh (B := (((A.alloc g fl k).addGroup g).alloc s fl' k').addScript g s v)
    (t := s) (k := g) (v := v) (fun s' g' hs' => by
      obtain ⟨rfl, h3⟩ | ⟨-, h3⟩ | ⟨h3, hns, hng⟩ := hown s' _ hs'
      · exact .inr ⟨rfl, by simpa using h3, by simp⟩
      · simp at h3
      · exact .inl ⟨h3, by simp [hns, hng]⟩)
    (fun g' hg' => by simp [hfresh g' (AFile.live_of hg')]) (hnew g) fun _ => hnew
  refine ⟨?_, fun g' g'' n n' hn1 hn2 heq => ?_, fun g' n hn => ?_, hsc.1, fun g' hg' h0 => ?_, hsc.2⟩
  · simp only [AFile.addScript_lst, AFile.alloc_lst, AFile.addGroup_lst]
    rw [update_of_ne (by simp), update_self]
    refine h.order_cons (List.Sublist.refl _) (fun g' hg' => ?_) ?_
    · have := hfresh g' (AFile.live_of ((hw.mem _ _).mp hg'))
      simp [AFile.valid, this]
    · simp [AFile.valid]
  · obtain ⟨h1, h2, h3⟩ := hnames n g' hn1
    obtain ⟨h4, h5, h6⟩ := hnames n' g'' hn2
    exact h.names g' g'' n n' h1 h4 (by simpa [h2, h3, h5, h6] using heq)
  · obtain ⟨h1, h2, h3⟩ := hnames n g' hn
    simpa [h2, h3] using h.form g' n h1
  · obtain ⟨-, h1⟩ | ⟨rfl, -⟩ | ⟨h1, h2, h3⟩ := hown g' _ hg'
    · simp at h1
    · simp [hnil]
    · simpa [h3] using h.single g' h1 (by simpa [h2, h3] using h0)

lemma Found.groupNamed (h : Found A) (hh : Housed A) (hw : A.Wf) {s : SlotNum} {grp : List UInt8}
    {v : ScrSlot} {fl fl' fl'' : List SlotNum} {k k' k'' : SlotNum} (hg : A.fresh g)
    (hn : A.fresh n) (hs : A.fresh s) (hsg : s ≠ g) (hsn : s ≠ n)
    (hnew : ∀ g n, A.own n = .name g → A.grnm n ≠ strncpy grNameLen grp) :
    Found ((((((A.alloc g fl k).addGroup g).alloc n fl' k').setName g n).setGrnm n
      (strncpy grNameLen grp)).alloc s fl'' k'' |>.addScript g s v) := by
  have hnil : A.lst (.script g) = [] := hw.lst_eq_nil hg rfl
  have hfresh : ∀ m, A.live m → m ≠ g ∧ m ≠ n ∧ m ≠ s := fun m hm => ⟨hg.ne hm, hn.ne hm, hs.ne hm⟩
  set C := ((((A.alloc g fl k).addGroup g).alloc n fl' k').setName g n).setGrnm n
      (strncpy grNameLen grp) |>.alloc s fl'' k'' |>.addScript g s v with hC
  have hown : ∀ m p, C.own m = p → m = s ∧ p = .chain (.script g) ∨ m = n ∧ p = .name g ∨ 
      m = g ∧ p = .chain .group ∨ A.own m = p ∧ m ≠ s ∧ m ≠ n ∧ m ≠ g := by
    intro m p hm
    obtain h1 | ⟨h1, hms⟩ := own_addScript hm
    · exact .inl h1
    · obtain h2 | ⟨h2, hmn⟩ := own_addScript h1
      · exact .inr (.inl h2)
      · obtain h3 | ⟨h3, hmg⟩ := own_addScript h2
        · exact .inr (.inr (.inl h3))
        · exact .inr (.inr (.inr ⟨h3, hms, hmn, hmg⟩))
  have hold : ∀ m, m ≠ s → m ≠ n → m ≠ g → C.scr m = A.scr m ∧ C.gr m = A.gr m ∧ C.grnm m = A.grnm m := by
    intro m h1 h2 h3
    simp [hC, h1, h2, h3]
  have hsc := h.addScript hh (B := C)
    (t := s) (k := g) (v := v) (fun s' g' hs' => by
      obtain ⟨rfl, h3⟩ | ⟨-, h3⟩ | ⟨-, h3⟩ | ⟨h3, hns, hnn, hng⟩ := hown s' _ hs'
      · exact .inr ⟨rfl, by simpa using h3, by simp [hC]⟩
      · simp at h3
      · simp at h3
      · exact .inl ⟨h3, (hold _ hns hnn hng).1⟩)
    (fun g' hg' => by
      obtain ⟨h1, h2, h3⟩ := hfresh g' (AFile.live_of hg')
      rw [(hold g' h3 h2 h1).2.1]) (fun s' hs' => by
      have := (hw.mem _ _).mpr hs'
      simp [hnil] at this) fun h0 => by
        simp [hC, hsg.symm, hn.1] at h0
  refine ⟨?_, fun g' g'' n1 n2 hn1 hn2 heq => ?_, fun g' m hm => ?_, hsc.1, fun g' hg' h0 => ?_, hsc.2⟩
  · have : C.lst .group = g :: A.lst .group := by simp [hC]
    rw [this]
    refine h.order_cons (List.Sublist.refl _) (fun g' hg' => ?_) ?_
    · have := hfresh g' (AFile.live_of ((hw.mem _ _).mp hg'))
      simp [AFile.valid, this, hC]
    · simp [AFile.valid, hC]
  · have hname : C.grnm n = strncpy grNameLen grp := by simp [hC, hsn.symm]
    obtain ⟨-, h1⟩ | ⟨rfl, h1⟩ | ⟨-, h1⟩ | ⟨h1, hns, hnn, hng⟩ := hown n1 _ hn1
    · simp at h1
    · obtain ⟨-, h2⟩ | ⟨rfl, h2⟩ | ⟨-, h2⟩ | ⟨h2, hns, hnn, hng⟩ := hown n2 _ hn2
      · simp at h2
      · obtain rfl : g' = g := by simpa using h1
        simpa using h2.symm
      · simp at h2
      · rw [hname, (hold n2 hns hnn hng).2.2] at heq
        exact absurd heq.symm (hnew g'' n2 h2)
    · simp at h1
    · obtain ⟨-, h2⟩ | ⟨rfl, h2⟩ | ⟨-, h2⟩ | ⟨h2, hns', hnn', hng'⟩ := hown n2 _ hn2
      · simp at h2
      · rw [hname, (hold n1 hns hnn hng).2.2] at heq
        exact absurd heq (hnew g' n1 h1)
      · simp at h2
      · rw [(hold n1 hns hnn hng).2.2, (hold n2 hns' hnn' hng').2.2] at heq
        exact h.names g' g'' n1 n2 h1 h2 heq
  · obtain ⟨-, h1⟩ | ⟨rfl, h1⟩ | ⟨-, h1⟩ | ⟨h1, hns, hnn, hng⟩ := hown m _ hm
    · simp at h1
    · exact ⟨grp, by simp [hC, hsn.symm]⟩
    · simp at h1
    · rw [(hold m hns hnn hng).2.2]
      exact h.form g' m h1
  · obtain ⟨-, h1⟩ | ⟨-, h1⟩ | ⟨rfl, -⟩ | ⟨h1, hns, hnn, hng⟩ := hown g' _ hg'
    · simp at h1
    · simp at h1
    · simp [hC, hsg.symm, hn.1] at h0
    · rw [(hold g' hns hnn hng).2.1] at h0
      simpa [hC, hng] using h.single g' h1 h0

lemma Found.scriptNew (h : Found A) (hh : Housed A) {s : SlotNum} {v : ScrSlot}
    {fl : List SlotNum} {k : SlotNum} (hg : A.own g = .chain .group) (hv : A.valid g)
    (hn : (A.gr g).nameSlot ≠ 0) (hnew : ∀ s, A.own s = .chain (.script g) → ¬ (A.scr s).same v)
    (hs : A.fresh s) : Found ((A.alloc s fl k).addScript g s v) := by
  have hgs : g ≠ s := hs.ne (AFile.live_of hg)
  have hsc := h.addScript hh (B := (A.alloc s fl k).addScript g s v) (t := s) (k := g)
    (v := v) (fun s' g' hs' => by
      obtain ⟨rfl, h3⟩ | ⟨h3, hn1⟩ := own_addScript hs'
      · exact .inr ⟨rfl, by simpa using h3, by simp⟩
      · exact .inl ⟨h3, by simp [hn1]⟩)
    (fun g' hg' => by simp [hs.ne (AFile.live_of hg')]) hnew (by simp [hgs, hn])
  refine ⟨?_, fun g' g'' n n' hn1 hn2 heq => ?_, fun g n hn => ?_, hsc.1, fun g' hg' h0 => ?_, hsc.2⟩
  · have hval : ∀ g', ((A.alloc s fl k).addScript g s v).valid g' ↔ A.valid g' := by
      intro g'
      rcases eq_or_ne g' g with rfl | hne
      · simpa [AFile.valid] using hv
      · simp [AFile.valid, hne]
    simpa [hval] using h.order
  · obtain ⟨-, h3⟩ | ⟨h3, hn1⟩ := own_addScript hn1
    · simp at h3
    obtain ⟨-, h4⟩ | ⟨h4, hn2⟩ := own_addScript hn2
    · simp at h4
    exact h.names g' g'' n n' h3 h4 (by simpa [hn1, hn2] using heq)
  · obtain ⟨-, h3⟩ | ⟨h3, hn1⟩ := own_addScript hn
    · simp at h3
    simpa [hn1] using h.form _ n h3
  · obtain ⟨-, h3⟩ | ⟨h3, hn1⟩ := own_addScript hg'
    · simp at h3
    have h0' : (A.gr g').nameSlot = 0 := by simpa [hn1] using h0
    have hne : g' ≠ g := by
      rintro rfl
      exact hn h0'
    simpa [hne] using h.single g' h3 h0'

lemma Found.scriptFront (h : Found A) (hw : A.Wf) {s : SlotNum} (hs : A.own s = .chain (.script g)) :
    Found (A.reorder (.script g) (s :: (A.lst (.script g)).erase s)) := by
  have hmem := (hw.mem _ s).mpr hs
  have hpos := List.length_pos_of_mem hmem
  have hval : ∀ g', (A.reorder (.script g) (s :: (A.lst (.script g)).erase s)).valid g' ↔
      A.valid g' := by
    intro g'
    rcases eq_or_ne g' g with rfl | hne
    · simpa [AFile.valid] using List.ne_nil_of_mem hmem
    · simp [AFile.valid, hne]
  refine ⟨by simpa [hval] using h.order, h.names, h.form, h.distinct, fun g' hg' h0 => ?_, h.alone⟩
  have := h.single g' hg' h0
  rcases eq_or_ne g' g with rfl | hne
  · simpa [List.length_erase_of_mem hmem, Nat.sub_add_cancel hpos] using this
  · simpa [hne] using this

lemma Found.group (h : Found A) (hh : Housed A) (hw : A.Wf) (hr : GroupRule w A B) : Found B := by
  cases hr with
  | invalidate g evs hg hv hevs => exact h.invalidate hh hw hg
  | groupRemove g hg hb hf hs hn0 hp => exact h.groupRemove g
  | groupNew g s v fl fl' k k' hg hs hsg hnew => exact h.groupNew hh hw hg hs hnew
  | groupNamed g n s grp v fl fl' fl'' k k' k'' hg hn hs hng hsg hsn hnew =>
    exact h.groupNamed hh hw hg hn hs hsg hsn hnew
  | scriptNew g s v fl k hg hv hn hnew hs => exact h.scriptNew hh hg hv hn hnew hs
  | scriptFront g s hs => exact h.scriptFront hw hs
  | groupFront g hg hv =>
    refine ⟨?_, h.names, h.form, h.distinct, fun g' hg' h0 => by simpa using h.single g' hg' h0,
      h.alone⟩
    simp only [AFile.reorder_lst, update_self]
    refine h.order_cons List.erase_sublist (fun _ _ => ?_) ?_
    · simp [AFile.valid]
    · simpa [AFile.valid] using hv

/-! ### All together -/

theorem AInv.rule (h : AInv A) (hw : A.Wf) (hr : Rule w A B) : AInv B := by
  obtain hr | hr := hr
  · exact ⟨h.paired.slot hw hr, h.housed.slot hr, h.signalled.slot hw hr, h.found.slot h.housed hr⟩
  · have hs := hr.sameQueues hw h.housed.nameSlot
    exact ⟨h.paired.same hs, h.housed.group hw hr, h.signalled.same hs, h.found.group h.housed hw hr⟩

/-- A rule that leads to a layout a file can have. -/
def Step (w : Who) (A B : AFile) : Prop := Rule w A B ∧ B.Wf

abbrev Steps (w : Who) : AFile → AFile → Prop := Relation.ReflTransGen (Step w)

theorem AInv.steps (h : AInv A) (hw : A.Wf) (hr : Steps w A B) : AInv B ∧ B.Wf := by
  induction hr with
  | refl => exact ⟨h, hw⟩
  | tail _ hr ih => exact ⟨ih.1.rule ih.2 hr.1, hr.2⟩

end SpeedyCgi.TempFile
