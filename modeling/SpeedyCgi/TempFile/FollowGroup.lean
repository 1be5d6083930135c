import SpeedyCgi.TempFile.FollowBackend

/-!
The functions of `speedy_group.c` follow the rules.
-/

namespace SpeedyCgi.TempFile

open Function Lib.Wp

variable {α : Type} {e : Env} {w : Who} {A B C : AFile} {x n g f b s : SlotNum} {c : Chain} {q pid : Pid}

lemma AFile.Wf.ne_zero (hw : A.Wf) (hx : x ∈ A.lst c) : x ≠ 0 := by
  rintro rfl
  simpa [hw.zero] using (hw.mem c 0).mp hx

lemma AFile.Wf.head_eq_zero (hw : A.Wf) : (A.lst c).headD 0 = 0 ↔ A.lst c = [] := by
  cases hc : A.lst c with
  | nil => simp
  | cons x l => simpa using hw.ne_zero (c := c) (x := x) (by simp [hc])

/-- A group owns its lists. -/
lemma AFile.Wf.usable_of (hg : A.own g = .chain .group) (hc : c.owner = some g) : A.Usable c := by
  intro g' h
  obtain rfl : g = g' := by simpa [hc] using h
  simp [AFile.live, hg]

/-- The group behind `g`, or the first one behind the last. -/
lemma AFile.Wf.nextGroup {i j : List SlotNum} {g' : SlotNum} (hw : A.Wf) (hl : A.lst .group = i ++ g :: j)
    (hg' : g' = j.headD ((i ++ g :: j).headD 0)) : g' ∈ A.lst .group ∧
      (j.headD 0 = 0 → (A.lst .group).headD 0 = g') ∧ (j.headD 0 ≠ 0 → j.headD 0 = g') := by
  have hmem : g' ∈ A.lst .group := by
    rw [hl, hg']
    cases j <;> cases i <;> simp
  refine ⟨hmem, fun h0 => ?_, fun h0 => ?_⟩
  · cases j with
    | nil => rw [hl, hg']; rfl
    | cons x l =>
      obtain rfl : g' = x := hg'
      exact absurd h0 (hw.ne_zero hmem)
  · cases j with
    | nil => exact absurd rfl h0
    | cons x l => exact hg'.symm

lemma runs_groupIsvalid {Q : Bool → AFile → Prop} (hw : A.Wf) (hg : A.own g = .chain .group)
    (h : ∀ v, (v = true ↔ A.valid g) → Q v A) : Runs (groupIsvalid g) Q A := by
  refine wpr_bind (runs_slotCheck (by simp [hg]) (wpr_bind (runs_getHead (AFile.Wf.usable_of hg rfl)
    (wpr_pure (h _ ?_)))))
  rw [decide_eq_true_eq, ne_eq, hw.head_eq_zero]
  rfl

/-! ### Invalidation -/

/-- The layout after `speedy_group_invalidate` of a valid group. -/
def AFile.stale (A : AFile) (g : SlotNum) (evs : List Event) : AFile :=
  ((A.clear g).notes evs).reorder .group ((A.lst .group).erase g ++ [g])

lemma runs_groupInvalidate {Q : Unit → AFile → Prop} (hfit : Fits e w) (ha : AInv A) (hw : A.Wf)
    (hg : A.own g = .chain .group) (h : ¬ A.valid g → Q () A)
    (h' : ∀ evs, A.valid g → (∀ ev ∈ evs, ∃ p ok, ev = .kill p .term ok) →
      Steps w A (A.stale g evs) → Q () (A.stale g evs)) : Runs (groupInvalidate e g) Q A := by
  have hlive : A.live g := by simp [AFile.live, hg]
  have hscr : ∀ n ∈ A.lst (.script g), A.bare n := fun n hn => by
    have := (hw.mem _ n).mp hn
    exact ha.bare hw (by simp [this])
  refine wpr_bind (runs_groupIsvalid hw hg fun v hv => runs_onlyIf (fun ht => ?_) fun hf => ?_)
  swap
  · exact h fun hv' => hf (hv.mpr hv')
  have hv := hv.mp ht
  refine wpr_bind (runs_freeScriptList hlive (fun n hn => (hscr n hn).1) (fun n hn => (hscr n hn).2) ?_)
  have hgd : (A.dropScripts g).own g = .chain .group := by
    simp only [AFile.dropScripts_own]
    rw [if_neg, hg]
    rw [hw.mem]
    simp [hg]
  -- what is left to do once the scripts and the name are gone
  have hrest : ∀ C, C = A.clear g → C.Wf → Runs (do removeBeWait e g; slotMoveTail g .group) Q C := by
    rintro C rfl hwC
    have hgC : (A.clear g).own g = .chain .group :=
      (AFile.clear_own_iff hw (ha.housed.nameSlot g hg) (by simp) g).mpr ⟨hg, by simp⟩
    refine wpr_bind (runs_removeBeWait hfit hwC (by simp [AFile.live, hgC]) fun evs hevs => ?_)
    refine runs_end (runs_slotMoveTail hgC (by rintro _ ⟨⟩) rfl fun hw' => ?_)
    simp only [AFile.notes_lst, AFile.clear_lst] at hw' ⊢
    rw [update_of_ne (by simp)] at hw' ⊢
    have hterm : ∀ ev ∈ evs, ∃ p ok, ev = .kill p .term ok := fun ev hev => by
      obtain ⟨b, -, ok, heq⟩ := hevs.only ev hev
      exact ⟨_, ok, heq⟩
    exact h' evs hv hterm (.group (.invalidate g evs hg hv hterm) hw')
  refine wpr_bind (runs_getGr (by simp [hgd]) (wpr_bind (runs_onlyIf (fun hn => ?_) fun hn => ?_)))
  · have hname := ha.housed.nameSlot g hg hn
    have hbare := ha.bare hw (x := (A.gr g).nameSlot) (by simp [hname])
    have hnd : (A.dropScripts g).own (A.gr g).nameSlot = .name g := by
      simp only [AFile.dropScripts_own]
      rw [if_neg, hname]
      rw [hw.mem]
      simp [hname]
    refine wpr_bind (runs_slotFree (.inr ⟨g, hnd⟩) (fun c hc => ?_) (fun m => ?_) ?_)
    · simp only [AFile.dropScripts_lst, update_apply]
      split
      · rfl
      · exact hbare.1 c hc
    · simp only [AFile.dropScripts_own]
      split
      · simp
      · exact hbare.2 m
    · refine runs_end (runs_modifyGr ?_ (.inr fun m => ?_) fun hwC => hrest _ ?_ hwC)
      · have hne : g ≠ (A.gr g).nameSlot := by
          intro heq
          rw [← heq] at hname
          simp [hg] at hname
        simp only [AFile.release_own, AFile.dropScripts_gr]
        rw [update_of_ne hne, hgd]
        simp
      · simp only [AFile.release_own, AFile.dropScripts_gr, AFile.dropScripts_own, update_apply]
        split
        · simp
        · split
          · simp
          · intro hm
            exact absurd (hw.name g m hm).2.symm ‹_›
      · have hn : (A.gr g).nameSlot ≠ 0 := hn
        unfold AFile.clear
        rw [if_neg hn]
        rfl
  · refine runs_wf fun hwC => hrest _ ?_ hwC
    have hn : (A.gr g).nameSlot = 0 := not_not.mp hn
    unfold AFile.clear
    rw [if_pos hn]

section
variable {evs : List Event}

lemma AFile.stale_own (ha : AInv A) (hw : A.Wf) (hg : A.own g = .chain .group) {p : Place}
    (hp : p ≠ .free) (n : SlotNum) : (A.stale g evs).own n = p ↔
      A.own n = p ∧ p ≠ .chain (.script g) ∧ p ≠ .name g :=
  AFile.clear_own_iff hw (ha.housed.nameSlot g hg) hp n

lemma AFile.stale_not_valid (A : AFile) (g : SlotNum) (evs : List Event) :
    ¬ (A.stale g evs).valid g := by
  simp [valid, stale]

lemma SameQueues.stale (ha : AInv A) (hw : A.Wf) (hg : A.own g = .chain .group) :
    SameQueues A (A.stale g evs) :=
  ((SameQueues.clear A g (fun m => (hw.mem _ m).mp) (ha.housed.nameSlot g hg)).trans
    (.notes ..)).trans (.reorder _ id)

end

/-! ### Starting backends -/

lemma AFile.setGr_self (A : AFile) (g : SlotNum) : A.setGr g (A.gr g) = A := by simp [setGr]

/-- `be_starting` is kept or cleared. -/
lemma runs_groupBeStarting {Q : Pid → AFile → Prop} (hfit : Fits e w) (hw : A.Wf)
    (hg : A.own g = .chain .group)
    (h : ∀ r evs, (r = 0 ∧ ((A.gr g).beStarting = 0 ∨ (A.gr g).beStarting ≠ e.self) ∨
        r = (A.gr g).beStarting ∧ r ≠ 0) →
      (∀ ev ∈ evs, ev.quiet w.self) →
      Steps w A ((A.notes evs).setGr g { A.gr g with beStarting := r }) →
      Q r ((A.notes evs).setGr g { A.gr g with beStarting := r })) :
    Runs (groupBeStarting e g) Q A := by
  refine wpr_bind (runs_getGr (by simp [hg]) (wpr_ite (fun h0 => wpr_pure ?_) fun h0 => ?_))
  · have hsame : (A.notes []).setGr g { A.gr g with beStarting := 0 } = A := by
      rw [AFile.notes_nil, ← h0, AFile.setGr_self]
    have := h 0 [] (.inl ⟨rfl, .inl h0⟩) (by simp)
    rw [hsame] at this
    exact this .refl
  · refine wpr_bind (runs_utilKill hfit fun ok evs hev hok hno => ?_)
    have hs : Steps w A (A.notes evs) := .notes hw (quiet_of_kill hev (by simp))
    refine wpr_ite (fun ht => wpr_pure ?_) fun hf => ?_
    · have hsame : (A.notes evs).setGr g { A.gr g with beStarting := (A.gr g).beStarting } =
          A.notes evs := AFile.setGr_self ..
      have := h (A.gr g).beStarting evs (.inr ⟨rfl, h0⟩) (quiet_of_kill hev (by simp))
      rw [hsame] at this
      exact this hs
    · refine wpr_bind (runs_step (runs_modifyGr (by simp [hg]) (.inl rfl) ⟨rfl, rfl⟩) fun hw' => wpr_pure ?_)
      have hgone := hno (by simpa using hf)
      have hr : SlotRule w (A.notes evs) _ :=
        .starting g 0 hg (.inl rfl) (.inr (.inl (hs.gone hgone.1)))
      exact h 0 evs (.inl ⟨rfl, .inr hgone.2⟩) (quiet_of_kill hev (by simp))
        (hs.trans (Steps.slot hr hw'))

/-- The first waiting backend goes to the end of the list of its group, if no backend is starting. -/
lemma runs_beWaitGet {Q : SlotNum → AFile → Prop} (hfit : Fits e w) (hw : A.Wf)
    (hg : A.own g = .chain .group)
    (h : ∀ evs s, (∀ ev ∈ evs, ev.quiet w.self) →
      Steps w A ((A.notes evs).setGr g { A.gr g with beStarting := s }) →
      (s = 0 → ∀ b, A.own b = .chain (.be g) → (A.lst (.be g)).head? = some b →
        (A.be b).feRunning ≠ 0) →
      Q 0 ((A.notes evs).setGr g { A.gr g with beStarting := s }))
    (h' : ∀ evs b, (∀ ev ∈ evs, ev.quiet w.self) →
      Steps w A ((A.notes evs).setGr g { A.gr g with beStarting := 0 }) → b ≠ 0 →
      (A.lst (.be g)).head? = some b → (A.be b).feRunning = 0 →
      (((A.notes evs).setGr g { A.gr g with beStarting := 0 }).reorder (.be g)
        ((A.lst (.be g)).erase b ++ [b])).Wf →
      Q b (((A.notes evs).setGr g { A.gr g with beStarting := 0 }).reorder (.be g)
        ((A.lst (.be g)).erase b ++ [b]))) :
    Runs (beWaitGet e g) Q A := by
  refine wpr_bind (runs_slotCheck (by simp [hg]) (wpr_bind (runs_getHead (AFile.Wf.usable_of hg rfl)
    (wpr_bind (runs_groupBeStarting hfit hw hg fun r evs _ hev hs => ?_)))))
  set C := (A.notes evs).setGr g { A.gr g with beStarting := r } with hC
  refine wpr_ite (fun hno => wpr_pure (h evs r hev hs fun h0 b _ hb => ?_)) fun h0 => ?_
  · rw [hw.head_eq_zero] at hno
    simp [hno.resolve_left (not_not.mpr h0)] at hb
  obtain ⟨hr0, hhead⟩ := not_or.mp h0
  obtain ⟨b, l, hl⟩ : ∃ b l, A.lst (.be g) = b :: l := by
    cases hl : A.lst (.be g) with
    | nil => simp [hl] at hhead
    | cons b l => exact ⟨b, l, rfl⟩
  have hb := (hw.mem (.be g) b).mp (by simp [hl])
  rw [hl, List.headD_cons]
  refine wpr_bind (runs_getBe (by simp [hC, hb]) (wpr_ite (fun hrun => wpr_pure ?_) fun hrun => ?_))
  · refine h evs r hev hs fun _ b' _ hb' => ?_
    obtain rfl : b = b' := by simpa [hl] using hb'
    exact hrun
  · obtain rfl : r = 0 := not_not.mp hr0
    refine wpr_bind (runs_end (runs_slotMoveTail hb (AFile.Wf.usable_of hg rfl) rfl
      fun hw' => wpr_pure ?_))
    exact h' evs b hev hs (hw.ne_zero (c := .be g) (by simp [hl])) (by simp [hl])
      (not_not.mp hrun) hw'

/-! ### Waking frontends -/

/-- The queues of frontends have at most lost some. -/
def Shrunk (A B : AFile) : Prop := ∀ g, (B.lst (.fe g)).Sublist (A.lst (.fe g))

lemma Shrunk.refl (A : AFile) : Shrunk A A := fun _ => List.Sublist.refl _

lemma Shrunk.trans (h : Shrunk A B) (h' : Shrunk B C) : Shrunk A C := fun g => (h' g).trans (h g)

lemma Shrunk.discard (A : AFile) (f g : SlotNum) : Shrunk A (A.discard f (.fe g)) := by
  intro g'
  rcases eq_or_ne g' g with rfl | hne
  · simpa using List.erase_sublist
  · simp [hne]

lemma Shrunk.same (h : SameQueues A B) : Shrunk A B := fun g => by
  rw [h.lst _ (by simp)]

/-- Only a frontend joins a queue, for itself. -/
lemma Steps.shrunk (hs : Steps w A B) (hw : A.Wf) (ha : AInv A) (hme : ∀ q, ¬ w.me q) :
    Shrunk A B := by
  induction hs with
  | refl => exact .refl A
  | tail hs hr ih =>
    obtain ⟨ha', hw'⟩ := ha.steps hw hs
    obtain h | ⟨_, f, -, h, -⟩ := hr.1.queue hw' ha'
    · exact ih.trans h
    · exact absurd h (hme _)

/-- Only the queues of frontends are touched. -/
structure OnlyFes (A B : AFile) : Prop where
  groups : SameGroups A B
  be : B.be = A.be
  bes : ∀ g, B.lst (.be g) = A.lst (.be g)
  gr : B.gr = A.gr
  shrunk : Shrunk A B
  backend : ∀ n, (B.fe n).backend = (A.fe n).backend

lemma OnlyFes.trans (h : OnlyFes A B) (h' : OnlyFes B C) : OnlyFes A C :=
  ⟨h.groups.trans h'.groups, h'.be.trans h.be, fun g => (h'.bes g).trans (h.bes g),
    h'.gr.trans h.gr, h.shrunk.trans h'.shrunk, fun n => (h'.backend n).trans (h.backend n)⟩

lemma OnlyFes.notes (A : AFile) (evs : List Event) : OnlyFes A (A.notes evs) :=
  ⟨{ SameGroups.refl A with }, rfl, fun _ => rfl, rfl, .refl A, fun _ => rfl⟩

lemma runs_sendsigsLoop {Q : Unit → AFile → Prop} (hfit : Fits e w) (ha : AInv A) (hw : A.Wf)
    (hg : A.own g = .chain .group) {fuel : ℕ} (hfuel : (A.lst (.fe g)).length < fuel)
    (h : ∀ B, Steps w A B → OnlyFes A B → Q () B) :
    Runs (sendsigsLoop e g fuel ((A.lst (.fe g)).headD 0)) Q A := by
  induction fuel generalizing A with
  | zero => exact absurd hfuel (Nat.not_lt_zero _)
  | succ fuel ih =>
    cases hl : A.lst (.fe g) with
    | nil => exact wpr_ite (fun _ => wpr_pure (h A .refl (.notes A []))) fun h0 => absurd rfl h0
    | cons f l =>
      rw [List.headD_cons]
      have hmem : f ∈ A.lst (.fe g) := by simp [hl]
      have hf := (hw.mem _ f).mp hmem
      refine wpr_ite (fun h0 => absurd h0 (hw.ne_zero hmem)) fun _ => ?_
      refine wpr_bind (runs_getFe (by simp [hf]) (wpr_bind (runs_slotNext (show A.lst (.fe g) = [] ++ f :: l by simpa using hl) ?_)))
      refine wpr_bind (runs_utilKill hfit fun ok evs hev hok hno => ?_)
      have hs : Steps w A (A.notes evs) := .notes hw (quiet_of_kill hev (by simp))
      refine wpr_ite (fun ht => ?_) fun hfalse => wpr_bind ?_
      · refine runs_step (runs_modifyFe (by simp [hf]) ⟨rfl, rfl⟩) fun hw' => ?_
        have hr : SlotRule w (A.notes evs) _ := .sendSig g f (by simp [hl])
        refine h _ (hs.trans (Steps.slot hr hw')) ((OnlyFes.notes A evs).trans ⟨hr.sameGroups, rfl,
          fun _ => by simp, rfl, fun _ => by simp, fun n => ?_⟩)
        simp only [AFile.setFe_fe, update_apply]
        split <;> simp_all
      · have hgone := (hno (by simpa using hfalse)).1
        obtain ⟨ha', hw'⟩ := ha.steps hw hs
        refine runs_frontendDispose ha' hw' hf (hs.gone hgone) fun hs' => ?_
        obtain ⟨ha', hw'⟩ := ha.steps hw (hs.trans hs')
        have hr : SlotRule w (A.notes evs) _ := .feDispose g f hf (hs.gone hgone)
        have honly : OnlyFes A ((A.notes evs).discard f (.fe g)) := (OnlyFes.notes A evs).trans
          ⟨hr.sameGroups, rfl, fun _ => by simp, rfl, .discard _ _ _, fun _ => rfl⟩
        have hl' : ((A.notes evs).discard f (.fe g)).lst (.fe g) = l := by simp [hl]
        have hg' := (honly.groups.own g (.chain .group) (by simp)).mpr hg
        have hlen : (((A.notes evs).discard f (.fe g)).lst (.fe g)).length < fuel := by
          rw [hl']
          exact Nat.lt_of_succ_lt_succ (by rwa [hl] at hfuel)
        have := ih ha' hw' hg' hlen fun B hB honly' =>
          h B ((hs.trans hs').trans hB) (honly.trans honly')
        rwa [hl'] at this

lemma runs_groupSendsigs {Q : Unit → AFile → Prop} (hfit : Fits e w) (ha : AInv A) (hw : A.Wf)
    (hg : A.own g = .chain .group) (h : ∀ B, Steps w A B → OnlyFes A B → Q () B) :
    Runs (groupSendsigs e g) Q A := by
  have hu : ∀ c : Chain, c.owner = some g → A.Usable c := fun c => AFile.Wf.usable_of hg
  refine wpr_bind (runs_slotCheck (by simp [hg]) (wpr_bind (runs_getHead (hu _ rfl) (wpr_bind
    (runs_getHead (hu _ rfl) (runs_onlyIf (fun hne => ?_) fun _ => h A .refl (.notes A [])))))))
  have hb : A.own ((A.lst (.be g)).headD 0) ≠ .out := by
    have hmem : (A.lst (.be g)).headD 0 ∈ A.lst (.be g) := by
      cases hl : A.lst (.be g) with
      | nil => simp [hl] at hne
      | cons => simp
    rw [(hw.mem _ _).mp hmem]
    simp
  refine wpr_bind (runs_getBe hb (wpr_bind (runs_loopFuel (runs_onlyIf (fun _ => ?_) fun _ =>
    h A .refl (.notes A [])))))
  exact runs_sendsigsLoop hfit ha hw hg (Nat.lt_succ_of_le (hw.length _)) h

/-! ### Removing groups -/

/-- The signals that end the parent of a group. -/
lemma Steps.parentKill (hw : A.Wf) (hg : A.own g = .chain .group) {ok : Bool} {evs : List Event}
    (h : ∀ ev ∈ evs, ev = .kill (A.gr g).beParent .kill ok ∧ (A.gr g).beParent ≠ w.self) :
    Steps w A (A.notes evs) := by
  induction evs with
  | nil => exact .refl
  | cons ev evs ih =>
    obtain ⟨rfl, hne⟩ := h ev (by simp)
    have hr : SlotRule w (A.notes evs) _ := .parentKill g ok hg hne
    exact (ih fun ev' h' => h ev' (by simp [h'])).trans (Steps.slot hr (hw.notes (_ :: evs)))

/-- A group with neither backends nor frontends is removed. -/
lemma runs_groupCleanup {Q : Unit → AFile → Prop} (hfit : Fits e w) (ha : AInv A) (hw : A.Wf)
    (hg : A.own g = .chain .group) (hboss : (A.gr g).beParent = e.self → w.boss e.self)
    (h : A.lst (.be g) ≠ [] ∨ A.lst (.fe g) ≠ [] → Q () A)
    (h' : ∀ B, A.lst (.be g) = [] → A.lst (.fe g) = [] → Steps w A B → SameQueues A B →
      B.lst .group = (A.lst .group).erase g → (∀ g' ≠ g, B.lst (.script g') = A.lst (.script g')) →
      (∀ n ≠ g, B.gr n = A.gr n) → Q () B) : Runs (groupCleanup e g) Q A := by
  have hu : ∀ c : Chain, c.owner = some g → A.Usable c := fun c => AFile.Wf.usable_of hg
  refine wpr_bind (runs_slotCheck (by simp [hg]) (wpr_bind (runs_getHead (hu _ rfl) (wpr_bind
    (runs_getHead (hu _ rfl) (runs_onlyIf (fun hnil => ?_) fun hne => ?_))))))
  swap
  · refine h ?_
    by_contra hnil
    obtain ⟨h1, h2⟩ := not_or.mp hnil
    exact hne ⟨hw.head_eq_zero.mpr (not_not.mp h1), hw.head_eq_zero.mpr (not_not.mp h2)⟩
  have hbe := hw.head_eq_zero.mp hnil.1
  have hfe := hw.head_eq_zero.mp hnil.2
  refine wpr_bind (runs_getGr (by simp [hg]) (wpr_bind (runs_utilKill hfit fun ok evs hev hok hno => ?_)))
  have hs : Steps w A (A.notes evs) := .parentKill hw hg hev
  obtain ⟨ha', hw'⟩ := ha.steps hw hs
  have hp : (A.notes evs).gone w (A.gr g).beParent ∨ w.boss (A.gr g).beParent := by
    cases ok with
    | false => exact .inl (hs.gone (hno rfl).1)
    | true =>
      obtain ⟨-, hno⟩ | ⟨heq, -⟩ | hk := hok
      · cases hno
      · exact .inr (by rw [heq]; exact hboss heq)
      · exact .inl (.inr (by simp [hk]))
  -- what is left to do once the group is not valid
  have hrest : ∀ C, Steps w A C → SameQueues A C → C.own g = .chain .group → ¬ C.valid g →
      C.gone w (A.gr g).beParent ∨ w.boss (A.gr g).beParent →
      (C.lst .group).erase g = (A.lst .group).erase g →
      (∀ g' ≠ g, C.lst (.script g') = A.lst (.script g')) → (∀ n ≠ g, C.gr n = A.gr n) →
      (C.gr g).beParent = (A.gr g).beParent → Runs (do slotRemove g .group; slotFree g) Q C := by
    intro C hsC hq hgC hv hpC hl hsc hgr hpar
    obtain ⟨haC, hwC⟩ := ha.steps hw hsC
    have hscr : C.lst (.script g) = [] := not_not.mp hv
    have hn := haC.housed.bare g hgC hscr
    have hbe' : C.lst (.be g) = [] := by rw [hq.lst _ (by simp), hbe]
    have hfe' : C.lst (.fe g) = [] := by rw [hq.lst _ (by simp), hfe]
    have hbare : C.bare g := by
      refine ⟨?_, fun m hm => ?_⟩
      · rintro (_ | _ | _ | _ | _) ⟨⟩ <;> assumption
      · have h0 : m = 0 := (hwC.name g m hm).2.symm.trans hn
        simp [h0, hwC.zero] at hm
    refine runs_discard hgC hbare fun hw'' => ?_
    have hr : GroupRule w C (C.discard g .group) := .groupRemove g hgC hbe' hfe' hscr hn
      (by rwa [hpar])
    refine h' _ hbe hfe (hsC.trans (Steps.group hr hw''))
      (hq.trans (.discard (by simp [hgC]) id)) (by simp [hl]) (fun g' hne => ?_) hgr
    simpa using hsc g' hne
  refine wpr_bind (runs_groupInvalidate hfit ha' hw' hg (fun hv => ?_) fun evs' hv hevs' hs' => ?_)
  · exact hrest _ hs (.notes ..) hg hv hp rfl (fun _ _ => rfl) (fun _ _ => rfl) rfl
  · have hnot : g ∉ (A.lst .group).erase g := (hw.nodup _).not_mem_erase
    refine hrest _ (hs.trans hs') ((SameQueues.notes ..).trans (.stale ha' hw' hg))
      ((AFile.stale_own ha' hw' hg (by simp) g).mpr ⟨hg, by simp⟩) (AFile.stale_not_valid _ _ _)
      (hp.imp_left hs'.gone) ?_ (fun g' hne => ?_) (fun n hne => ?_) ?_
    · simp [AFile.stale, List.erase_append_right _ hnot]
    · simp [AFile.stale, hne]
    · simp [AFile.stale, hne]
    · simp [AFile.stale]

/-! ### The backend parent -/

/-- What is left when the parent of `g` turns out to be gone. -/
structure Orphaned (g : SlotNum) (A B : AFile) : Prop where
  queues : SameQueues A B
  own : B.own g = .chain .group
  stale : ¬ B.valid g
  parent : (B.gr g).beParent = 0
  starting : ∀ n, (B.gr n).beStarting = (A.gr n).beStarting

section
variable {Q : Bool → AFile → Prop}

lemma runs_groupParentSig {sig : Sig} (hsig : sig ≠ .kill) (hfit : Fits e w) (ha : AInv A) (hw : A.Wf)
    (hg : A.own g = .chain .group)
    (h : ∀ evs, (∀ ev ∈ evs, ev.quiet w.self) → ((A.gr g).beParent = e.self ∨
        .kill (A.gr g).beParent sig true ∈ evs) → Steps w A (A.notes evs) → Q true (A.notes evs))
    (h' : ∀ B, Steps w A B → Orphaned g A B → (A.gr g).beParent ≠ e.self → Q false B) :
    Runs (groupParentSig e g sig) Q A := by
  refine wpr_bind (runs_getGr (by simp [hg]) (wpr_bind (runs_utilKill hfit fun ok evs hev hok hno => ?_)))
  have hs : Steps w A (A.notes evs) := .notes hw (quiet_of_kill hev hsig)
  obtain ⟨ha', hw'⟩ := ha.steps hw hs
  refine wpr_ite (fun ht => wpr_pure (h evs (quiet_of_kill hev hsig) (by simpa [ht] using hok) hs)) fun hf => ?_
  obtain ⟨hgone, hself⟩ := hno (by simpa using hf)
  have hrest : ∀ C, Steps w A C → SameQueues A C → C.own g = .chain .group → ¬ C.valid g →
      (∀ n, (C.gr n).beStarting = (A.gr n).beStarting) → (C.gr g).beParent = (A.gr g).beParent →
      Runs (do modifyGr g fun s => { s with beParent := 0 }; return false) Q C := by
    intro C hsC hq hgC hv hst hpar
    refine wpr_bind (runs_step (runs_modifyGr (by simp [hgC]) (.inl rfl) ⟨rfl, rfl⟩) fun hw'' => wpr_pure ?_)
    have hr : SlotRule w C _ := .parentGone g hgC (by rw [hpar]; exact hsC.gone hgone)
    refine h' _ (hsC.trans (Steps.slot hr hw'')) ⟨hq.trans (.setGr ..), hgC, hv, by simp, fun n => ?_⟩ hself
    rw [← hst n]
    simp only [AFile.setGr_gr, update_apply]
    split <;> simp_all
  refine wpr_bind (runs_groupInvalidate hfit ha' hw' hg (fun hv => ?_) fun evs' hv hevs' hs' => ?_)
  · exact hrest _ hs (.notes ..) hg hv (fun _ => rfl) rfl
  · refine hrest _ (hs.trans hs') ((SameQueues.notes ..).trans (.stale ha' hw' hg))
      ((AFile.stale_own ha' hw' hg (by simp) g).mpr ⟨hg, by simp⟩) (AFile.stale_not_valid _ _ _)
      (fun n => ?_) (by simp [AFile.stale])
    simp only [AFile.stale, AFile.reorder_gr, AFile.notes_gr, AFile.clear_gr, update_apply]
    split <;> simp_all

lemma runs_groupStartBe (hfit : Fits e w) (ha : AInv A) (hw : A.Wf) (hg : A.own g = .chain .group)
    (h : ∀ evs, (∀ ev ∈ evs, ev.quiet w.self) → ((A.gr g).beParent = (A.gr g).beStarting ∨
        (A.gr g).beParent = e.self ∨ .kill (A.gr g).beParent .usr1 true ∈ evs) →
      Steps w A (A.notes evs) → Q true (A.notes evs))
    (h' : ∀ B, Steps w A B → Orphaned g A B → (A.gr g).beParent ≠ e.self → Q false B) :
    Runs (groupStartBe e g) Q A := by
  refine wpr_bind (runs_getGr (by simp [hg]) (wpr_ite (fun heq => wpr_pure ?_) fun _ => ?_))
  · exact h [] (by simp) (.inl heq.2) .refl
  · exact runs_groupParentSig (by simp) hfit ha hw hg (fun evs hev hk => h evs hev (.inr hk)) h'

lemma runs_groupNameMatch (ha : AInv A) (hg : A.own g = .chain .group)
    (h : ∀ r, (r = true ↔ (A.gr g).nameSlot ≠ 0 ∧
      strncmpEq grNameLen (A.grnm (A.gr g).nameSlot) e.group = true) → Q r A) :
    Runs (groupNameMatch e g) Q A := by
  refine wpr_bind (runs_getGr (by simp [hg]) (wpr_ite (fun h0 => wpr_pure ?_) fun h0 => ?_))
  · exact h false (by simp [h0])
  · have := ha.housed.nameSlot g hg h0
    exact wpr_bind (runs_getGrnm (by simp [this]) (wpr_pure (h _ (by simp [h0]))))

end

end SpeedyCgi.TempFile
