import SpeedyCgi.TempFile.Rule

/-!
What each kind of rule leaves alone.

The rules for frontends and backends do not touch groups, scripts and names, and the rules for
groups do not touch frontends and backends. Both facts are put together from what the single
changes of the layout leave alone.
-/

namespace SpeedyCgi.TempFile

open Function

variable {w : Who} {A B C : AFile} {x n g : SlotNum} {c : Chain} {p : Place} {l : List SlotNum}

/-- The lists of frontends and backends. -/
@[simp] def Chain.queued : Chain → Prop
  | .group | .script _ => False
  | .feRun | .be _ | .fe _ => True

/-- Where frontends and backends are. -/
@[simp] def Place.queued : Place → Prop
  | .chain c => c.queued
  | .loose => True
  | .out | .free | .name _ => False

/-- Where groups, scripts and names are. -/
@[simp] def Place.grouped : Place → Prop
  | .chain c => ¬ c.queued
  | .name _ => True
  | .out | .free | .loose => False

lemma update_iff {o : SlotNum → Place} {q : Place} (hx : o x ≠ p) (hq : q ≠ p) :
    update o x q n = p ↔ o n = p := by
  rcases eq_or_ne n x with rfl | h
  · simp [hx, hq]
  · simp [h]

/-! ### Groups, scripts and names -/

structure SameGroups (A B : AFile) : Prop where
  lst : ∀ c : Chain, ¬ c.queued → B.lst c = A.lst c
  own : ∀ n (p : Place), p.grouped → (B.own n = p ↔ A.own n = p)
  scr : ∀ n g, A.own n = .chain (.script g) → B.scr n = A.scr n
  grnm : ∀ n g, A.own n = .name g → B.grnm n = A.grnm n
  nameSlot : ∀ g, A.own g = .chain .group → (B.gr g).nameSlot = (A.gr g).nameSlot

namespace SameGroups

lemma refl (A : AFile) : SameGroups A A :=
  ⟨fun _ _ => rfl, fun _ _ _ => Iff.rfl, fun _ _ _ => rfl, fun _ _ _ => rfl, fun _ _ => rfl⟩

lemma trans (h : SameGroups A B) (h' : SameGroups B C) : SameGroups A C where
  lst c hc := (h'.lst c hc).trans (h.lst c hc)
  own n p hp := (h'.own n p hp).trans (h.own n p hp)
  scr n g hn := (h'.scr n g ((h.own n _ (by simp)).mpr hn)).trans (h.scr n g hn)
  grnm n g hn := (h'.grnm n g ((h.own n _ (by simp)).mpr hn)).trans (h.grnm n g hn)
  nameSlot g hg := (h'.nameSlot g ((h.own g _ (by simp)).mpr hg)).trans (h.nameSlot g hg)

lemma note (A : AFile) (ev : Event) : SameGroups A (A.note ev) := { refl A with }
lemma setBe (A : AFile) (n : SlotNum) (v : BeSlot) : SameGroups A (A.setBe n v) := { refl A with }
lemma setFe (A : AFile) (n : SlotNum) (v : FeSlot) : SameGroups A (A.setFe n v) := { refl A with }

lemma setGr (A : AFile) {g : SlotNum} {v : GrSlot} (hv : v.nameSlot = (A.gr g).nameSlot) :
    SameGroups A (A.setGr g v) := by
  refine { refl A with nameSlot := fun g' _ => ?_ }
  simp only [AFile.setGr_gr, update_apply]
  split
  · subst g'; exact hv
  · rfl

lemma reorder (A : AFile) (hc : c.queued) : SameGroups A (A.reorder c l) := by
  refine { refl A with lst := fun c' hc' => update_of_ne ?_ .. }
  rintro rfl
  exact hc' hc

/-- A slot that was not a group, script or name has become something that is not either. -/
lemma own_update {o : SlotNum → Place} {q : Place} (hx : ¬ (o x).grouped) (hq : ¬ q.grouped)
    (n : SlotNum) (p : Place) (hp : p.grouped) : update o x q n = p ↔ o n = p := by
  refine update_iff ?_ ?_
  · rintro rfl; exact hx hp
  · rintro rfl; exact hq hp

lemma place (hx : ¬ (A.own x).grouped) (hp : ¬ p.grouped) (hc : c.queued) :
    SameGroups A (A.place x p c l) :=
  { reorder A hc with own := own_update hx hp }

lemma release (hx : ¬ (A.own x).grouped) : SameGroups A (A.release x) :=
  { refl A with own := own_update hx id }

lemma discard (hx : ¬ (A.own x).grouped) (hc : c.queued) : SameGroups A (A.discard x c) :=
  { reorder A hc with own := own_update hx id }

lemma alloc {fl : List SlotNum} {k : SlotNum} (hx : A.fresh x) : SameGroups A (A.alloc x fl k) := by
  have hx : ¬ (A.own x).grouped := by rcases hx.2 with h | h <;> simp [h]
  have hne : ∀ n (p : Place), p.grouped → A.own n = p → n ≠ x := by
    rintro n p hp rfl rfl
    exact hx hp
  refine ⟨fun _ _ => rfl, own_update hx id, fun n g hn => update_of_ne ?_ ..,
    fun n g hn => update_of_ne ?_ .., fun g hg => ?_⟩
  · exact hne n _ (by simp) hn
  · exact hne n _ (by simp) hn
  · rw [AFile.alloc_gr, update_of_ne (hne g _ (by simp) hg)]

end SameGroups

lemma SameGroups.valid (h : SameGroups A B) : B.valid g ↔ A.valid g := by
  rw [AFile.valid, AFile.valid, h.lst _ (by simp)]

lemma SlotRule.sameGroups (h : SlotRule w A B) : SameGroups A B := by
  cases h with
  | note | parentKill => exact .note A _
  | starting | parentGone | parentMe | parentNew => exact .setGr A rfl
  | feNew f fl k p hf hme => exact (SameGroups.alloc hf).trans (.setFe _ _ _)
  | feDrop f hf hme => exact .release (by simp [hf])
  | feBackend f b hf hme => exact .setFe _ _ _
  | enqueue g f hg hf hme hsig => exact .place (by simp [hf]) (by simp) trivial
  | dequeue g f hf hme => exact .place (by simp [hf]) (by simp) trivial
  | feDispose g f hf hp => exact .discard (by simp [hf]) trivial
  | sendSig | takeSig => exact .setFe _ _ _
  | report => exact (SameGroups.setBe _ _ _).trans (.setFe _ _ _)
  | feDone f hf hb hp => exact .discard (by simp [hf]) trivial
  | feGone f b hf hb hb0 hp =>
    exact (SameGroups.setBe _ _ _).trans (.discard (by simp [hf]) trivial)
  | beDispose g b hb hf => exact (SameGroups.note _ _).trans (.discard (by simp [hb]) trivial)
  | assign g => exact (SameGroups.reorder (c := .be g) A trivial).trans (.note _ _)
  | waitPut => exact (SameGroups.setBe _ _ _).trans (.reorder _ trivial)
  | beNew g b fl k hg hb hmax =>
    refine ((SameGroups.alloc hb).trans (.setBe _ _ _)).trans (.place ?_ (by simp) trivial)
    simp
  | bePid => exact .setBe _ _ _
  | claim g f b hf hme hfb hsig hb hb0 htaken =>
    exact (SameGroups.setBe _ _ _).trans (.place (by simp [hf]) (by simp) trivial)
  | claimAnon => exact .setBe _ _ _

/-! ### Frontends and backends -/

structure SameQueues (A B : AFile) : Prop where
  lst : ∀ c : Chain, c.queued → B.lst c = A.lst c
  own : ∀ n (p : Place), p.queued → (B.own n = p ↔ A.own n = p)
  be : ∀ n, (A.own n).queued → B.be n = A.be n
  fe : ∀ n, (A.own n).queued → B.fe n = A.fe n

namespace SameQueues

lemma refl (A : AFile) : SameQueues A A :=
  ⟨fun _ _ => rfl, fun _ _ _ => Iff.rfl, fun _ _ => rfl, fun _ _ => rfl⟩

lemma queued (h : SameQueues A B) (hn : (A.own n).queued) : B.own n = A.own n :=
  (h.own n _ hn).mpr rfl

lemma trans (h : SameQueues A B) (h' : SameQueues B C) : SameQueues A C where
  lst c hc := (h'.lst c hc).trans (h.lst c hc)
  own n p hp := (h'.own n p hp).trans (h.own n p hp)
  be n hn := (h'.be n (by rwa [h.queued hn])).trans (h.be n hn)
  fe n hn := (h'.fe n (by rwa [h.queued hn])).trans (h.fe n hn)

lemma note (A : AFile) (ev : Event) : SameQueues A (A.note ev) := { refl A with }
lemma notes (A : AFile) (evs : List Event) : SameQueues A (A.notes evs) := { refl A with }
lemma setScr (A : AFile) (n : SlotNum) (v : ScrSlot) : SameQueues A (A.setScr n v) := { refl A with }
lemma setGr (A : AFile) (n : SlotNum) (v : GrSlot) : SameQueues A (A.setGr n v) := { refl A with }
lemma setGrnm (A : AFile) (n : SlotNum) (v : List UInt8) : SameQueues A (A.setGrnm n v) := { refl A with }

lemma reorder (A : AFile) (hc : ¬ c.queued) : SameQueues A (A.reorder c l) := by
  refine { refl A with lst := fun c' hc' => update_of_ne ?_ .. }
  rintro rfl
  exact hc hc'

lemma own_update {o : SlotNum → Place} {q : Place} (hx : ¬ (o x).queued) (hq : ¬ q.queued)
    (n : SlotNum) (p : Place) (hp : p.queued) : update o x q n = p ↔ o n = p := by
  refine update_iff ?_ ?_
  · rintro rfl; exact hx hp
  · rintro rfl; exact hq hp

lemma place (hx : ¬ (A.own x).queued) (hp : ¬ p.queued) (hc : ¬ c.queued) :
    SameQueues A (A.place x p c l) :=
  { reorder A hc with own := own_update hx hp }

lemma release (hx : ¬ (A.own x).queued) : SameQueues A (A.release x) :=
  { refl A with own := own_update hx id }

lemma discard (hx : ¬ (A.own x).queued) (hc : ¬ c.queued) : SameQueues A (A.discard x c) :=
  { reorder A hc with own := own_update hx id }

/-- A fresh slot becomes a group, a script or a name. -/
lemma fresh (hx : A.fresh x) (hp : ¬ p.queued) (hown : B.own = update A.own x p)
    (hlst : ∀ c : Chain, c.queued → B.lst c = A.lst c) (hbe : ∀ n ≠ x, B.be n = A.be n)
    (hfe : ∀ n ≠ x, B.fe n = A.fe n) : SameQueues A B := by
  have hx : ¬ (A.own x).queued := by rcases hx.2 with h | h <;> simp [h]
  have hne : ∀ n, (A.own n).queued → n ≠ x := by
    rintro n hn rfl
    exact hx hn
  refine ⟨hlst, ?_, fun n hn => hbe n (hne n hn), fun n hn => hfe n (hne n hn)⟩
  rw [hown]
  exact own_update hx hp

lemma addGroup (A : AFile) {fl : List SlotNum} {k : SlotNum} (hg : A.fresh g) :
    SameQueues A ((A.alloc g fl k).addGroup g) := by
  refine .fresh hg (p := .chain .group) (by simp) (by simp) (fun c hc => ?_) (fun n hn => ?_) fun n hn => ?_
  · simp only [AFile.addGroup_lst, AFile.alloc_lst]
    exact update_of_ne (by rintro rfl; exact hc) ..
  · simp [hn]
  · simp [hn]

lemma addScript (A : AFile) {fl : List SlotNum} {k s : SlotNum} {v : ScrSlot} (hs : A.fresh s) :
    SameQueues A ((A.alloc s fl k).addScript g s v) := by
  refine .fresh hs (p := .chain (.script g)) (by simp) (by simp) (fun c hc => ?_) (fun n hn => ?_) fun n hn => ?_
  · simp only [AFile.addScript_lst, AFile.alloc_lst]
    exact update_of_ne (by rintro rfl; exact hc) ..
  · simp [hn]
  · simp [hn]

lemma addName (A : AFile) {fl : List SlotNum} {k : SlotNum} (hn : A.fresh n) :
    SameQueues A ((A.alloc n fl k).setName g n) := by
  refine .fresh hn (p := .name g) (by simp) (by simp) (fun _ _ => rfl) (fun n hn => ?_) fun n hn => ?_
  · simp [hn]
  · simp [hn]

lemma dropScripts (A : AFile) (g : SlotNum)
    (hmem : ∀ m ∈ A.lst (.script g), A.own m = .chain (.script g)) :
    SameQueues A (A.dropScripts g) := by
  refine { refl A with lst := fun c hc => update_of_ne ?_ .., own := fun n p hp => ?_ }
  · rintro rfl
    exact hc
  · simp only [AFile.dropScripts_own]
    split
    · have := hmem n ‹_›
      constructor
      · rintro rfl; exact absurd hp id
      · rintro rfl; simp [this] at hp
    · rfl

lemma clear (A : AFile) (g : SlotNum) (hmem : ∀ m ∈ A.lst (.script g), A.own m = .chain (.script g))
    (hname : (A.gr g).nameSlot ≠ 0 → A.own (A.gr g).nameSlot = .name g) :
    SameQueues A (A.clear g) := by
  unfold AFile.clear
  split
  · exact .dropScripts A g hmem
  · have hn := hname ‹_›
    refine ((SameQueues.dropScripts A g hmem).trans (.release ?_)).trans (.setGr ..)
    simp only [AFile.dropScripts_own, hn]
    split <;> simp

end SameQueues

lemma GroupRule.sameQueues (h : GroupRule w A B) (hw : A.Wf)
    (hname : ∀ g, A.own g = .chain .group → (A.gr g).nameSlot ≠ 0 →
      A.own (A.gr g).nameSlot = .name g) : SameQueues A B := by
  cases h with
  | invalidate g evs hg hv hevs =>
    refine ((SameQueues.clear A g (fun m => (hw.mem _ m).mp) (hname g hg)).trans (.notes ..)).trans (.reorder _ id)
  | groupRemove g hg hb hf hs hn hp => exact .discard (by simp [hg]) id
  | groupNew g s v fl fl' k k' hg hs hsg hnew => 
    refine (SameQueues.addGroup A hg).trans (.addScript _ ?_)
    exact ⟨hs.1, by simpa [hsg] using hs.2⟩
  | groupNamed g n s grp v fl fl' fl'' k k' k'' hg hn hs hng hsg hsn hnew =>
    refine (((SameQueues.addGroup A hg).trans (.addName _ ?_)).trans (.setGrnm ..)).trans (.addScript _ ?_)
    · exact ⟨hn.1, by simpa [hng] using hn.2⟩
    · exact ⟨hs.1, by simpa [hsg, hsn] using hs.2⟩
  | scriptNew g s v fl k hg hv hn hnew hs => exact .addScript _ hs
  | scriptFront g s hs => exact .reorder A id
  | groupFront g hg hv => exact .reorder A id

end SpeedyCgi.TempFile
