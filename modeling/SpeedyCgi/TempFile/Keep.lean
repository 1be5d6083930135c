import SpeedyCgi.TempFile.Invariant

/-!
What the rules leave to the other processes.
-/

namespace SpeedyCgi.TempFile

open Function

variable {w : Who} {A B : AFile} {x n g f b s : SlotNum} {p : Place} {c : Chain} {q : Pid}

lemma AFile.mem_clear_log {ev : Event} : ev ∈ (A.clear g).log ↔ ev ∈ A.log ∨
    (∃ m ∈ A.lst (.script g), ev = .free m) ∨
    (A.gr g).nameSlot ≠ 0 ∧ ev = .free (A.gr g).nameSlot := by
  unfold clear
  split <;> simp [*] <;> grind

/-- The events of a section, newest first, only get more. -/
lemma Rule.log (hr : Rule w A B) {ev : Event} (h : ev ∈ A.log) : ev ∈ B.log := by
  obtain hr | hr := hr
  · cases hr <;> simp [h]
  · cases hr <;> simp [h, AFile.clear]
    split <;> simp [h]

/-- A process does not kill itself. -/
lemma Rule.alive {sig : Sig} {ok : Bool} (hr : Rule w A B) (hsig : sig ≠ .term)
    (h : .kill w.self sig ok ∈ B.log) : .kill w.self sig ok ∈ A.log := by
  obtain hr | hr := hr
  · cases hr <;> simp at * <;> grind [Event.quiet, Event.loud]
  · cases hr with
    | invalidate g evs hg hv hevs =>
      have h : .kill w.self sig ok ∈ evs ∨ .kill w.self sig ok ∈ (A.clear g).log := by simpa using h
      obtain ⟨p, ok', h⟩ | h := h.imp_left (hevs _)
      · exact absurd (by injection h) hsig
      · simpa [AFile.mem_clear_log] using h
    | _ => simpa using h

/-- A frontend in its list, or on the way to one. -/
def AFile.seat (A : AFile) (p : Place) (f : SlotNum) (q : Pid) : Prop :=
  (p = .loose ∨ p = .chain .feRun ∨ ∃ g, p = .chain (.fe g)) ∧ A.own f = p ∧ (A.fe f).pid = q

lemma Rule.seat (hr : Rule w A B) (hw : A.Wf) (ha : AInv A) (hq : w.live q) (hme : ¬ w.me q)
    (hk : .kill q .kill true ∉ A.log) (h : A.seat p f q) : B.seat p f q := by
  obtain ⟨hc, hf, hp⟩ := h
  have hgone : ¬ A.gone w q := not_or.mpr ⟨not_not.mpr hq, hk⟩
  refine ⟨hc, ?_⟩
  obtain hr | hr := hr
  · clear ha
    cases hr <;> (try exact ⟨hf, hp⟩) <;> simp [update_apply, AFile.fresh] at * <;> grind
  · have hs := hr.sameQueues hw ha.housed.nameSlot
    have hc : p.queued := by obtain rfl | rfl | ⟨g, rfl⟩ := hc <;> trivial
    have hfq : (A.own f).queued := by rwa [hf]
    rw [hs.queued hfq, hs.fe f hfq]
    exact ⟨hf, hp⟩

/-- Only a frontend takes a slot or leaves a queue, for itself. -/
lemma Rule.loose (hr : Rule w A B) (hme : ∀ q, ¬ w.me q) (hw : A.Wf) (ha : AInv A)
    (h : B.own n = .loose) : A.own n = .loose := by
  obtain hr | hr := hr
  · cases hr <;> simp [update_apply, AFile.fresh] at * <;> grind
  · exact ((hr.sameQueues hw ha.housed.nameSlot).own n _ (by simp)).mp h

/-- A backend in the list of its group. -/
def AFile.serves (A : AFile) (g b : SlotNum) (q : Pid) : Prop :=
  A.own b = .chain (.be g) ∧ (A.be b).pid = q

/-- The backend has been on the wait list in `B` if it had in `A`. -/
def Aged (b : SlotNum) (A B : AFile) : Prop := (A.be b).maturity ≠ 0 → (B.be b).maturity ≠ 0

lemma Rule.serves (hr : Rule w A B) (hw : A.Wf) (ha : AInv A) (hq : w.live q) (h0 : q ≠ 0)
    (hk : .kill q .kill true ∉ A.log) (h : A.serves g b q) :
    B.serves g b q ∧ Aged b A B ∨ (A.be b).feRunning = 0 ∧ .unlink b ∈ B.log := by
  obtain ⟨hb, hp⟩ := h
  have hgone : ¬ A.gone w q := not_or.mpr ⟨not_not.mpr hq, hk⟩
  obtain hr | hr := hr
  · clear ha
    cases hr <;> (try exact .inl ⟨⟨hb, hp⟩, id⟩) <;>
      simp [update_apply, AFile.fresh, AFile.serves, Aged, BeSlot.run] at * <;> grind
  · have hs := hr.sameQueues hw ha.housed.nameSlot
    have hbq : (A.own b).queued := by simp [hb]
    exact .inl ⟨⟨by rw [hs.queued hbq, hb], by rw [hs.be b hbq, hp]⟩, by rw [Aged, hs.be b hbq]; exact id⟩

/-- What a backend runs for is only changed by itself, unless it waits or the frontend is gone. -/
lemma Rule.busy (hr : Rule w A B) (hw : A.Wf) (ha : AInv A) (hq : w.live q) (hme : ¬ w.me q)
    (hk : .kill q .kill true ∉ A.log) (h : A.serves g b q) (hrun : (A.be b).feRunning ≠ 0) :
    (B.be b).feRunning = (A.be b).feRunning ∨ (B.be b).feRunning = b := by
  obtain ⟨hb, hp⟩ := h
  have hgone : ¬ A.gone w q := not_or.mpr ⟨not_not.mpr hq, hk⟩
  obtain hr | hr := hr
  · cases hr <;> (try exact .inl rfl) <;> simp [update_apply, AFile.fresh, BeSlot.run] at * <;> grind
  · have hs := hr.sameQueues hw ha.housed.nameSlot
    have hbq : (A.own b).queued := by simp [hb]
    exact .inl (by rw [hs.be b hbq])

/-- What a running frontend is told, and by whom. -/
lemma Rule.told (hr : Rule w A B) (hw : A.Wf) (ha : AInv A) (h : A.own f = .chain .feRun)
    (h' : B.own f = .chain .feRun) :
    (B.fe f).backend = (A.fe f).backend ∧ (B.fe f).exitOnSig = (A.fe f).exitOnSig ∧
      (B.fe f).exitVal = (A.fe f).exitVal ∨
    ∃ g b, A.own b = .chain (.be g) ∧ (A.fe f).backend = b ∧ (A.be b).feRunning = f ∧ (B.fe f).backend = 0 ∧
      (w.me (A.be b).pid ∧ (B.fe f).exitOnSig = false ∧ w.ran (B.fe f).exitVal ∨
        A.gone w (A.be b).pid ∧ (w.died (A.be b).pid (B.fe f).exitOnSig (B.fe f).exitVal ∨
          (B.fe f).exitOnSig = true ∧ (B.fe f).exitVal = 9 ∧ ∀ s v, ¬ w.died (A.be b).pid s v)) := by
  obtain hr | hr := hr
  · cases hr with
    | report g b f' sig val hb hf hf0 hfb hp =>
      rcases eq_or_ne f f' with rfl | hne
      · have := ha.paired.backend g b hb
        rw [hf] at this
        exact .inr ⟨g, b, hb, ((this.resolve_left hf0).resolve_left hfb).2, hf, by simp, by simpa using hp⟩
      · simp [hne]
    | _ => 
      refine .inl ?_
      (try exact ⟨rfl, rfl, rfl⟩) <;> simp [update_apply, AFile.fresh] at * <;> grind
  · have hs := hr.sameQueues hw ha.housed.nameSlot
    exact .inl (by simp [hs.fe f (by simp [h])])

/-- A group with its parent. -/
lemma Rule.leads (hr : Rule w A B) (hw : A.Wf) (ha : AInv A) (hq : w.live q) (h0 : q ≠ 0)
    (hboss : ¬ w.boss q) (hk : .kill q .kill true ∉ A.log) (hg : A.own g = .chain .group) (hp : (A.gr g).beParent = q) :
    B.own g = .chain .group ∧ (B.gr g).beParent = q := by
  have hgone : ¬ A.gone w q := not_or.mpr ⟨not_not.mpr hq, hk⟩
  obtain hr | hr := hr
  · clear ha
    cases hr <;> (try exact ⟨hg, hp⟩) <;> simp [update_apply, AFile.fresh] at * <;> grind
  · cases hr with
    | invalidate g' evs hg' hv hevs =>
      refine ⟨(AFile.clear_own_iff hw (ha.housed.nameSlot g' hg') (by simp) g).mpr ⟨hg, by simp⟩, ?_⟩
      simp only [AFile.reorder_gr, AFile.notes_gr, AFile.clear_gr, update_apply]
      split <;> simp_all
    | _ => (try exact ⟨hg, hp⟩) <;> simp [update_apply, AFile.fresh] at * <;> grind

/-- Who can have been written into `be_starting`. -/
lemma Rule.starting (hr : Rule w A B) (hw : A.Wf) (ha : AInv A) (h0 : q ≠ 0) (hg : B.own g = .chain .group)
    (hs : (B.gr g).beStarting = q) : (A.gr g).beStarting = q ∧ A.own g = .chain .group ∨
      (∃ b g, A.own b = .chain (.be g) ∧ (A.be b).pid = q) ∨ .kill q .usr1 true ∈ A.log ∨ .spawn q ∈ A.log ∨
      (∃ g b, .fork q g b ∈ A.log) ∨ w.boss q := by
  obtain hr | hr := hr
  · cases hr <;> simp [update_apply, AFile.fresh] at * <;> grind
  · cases hr with
    | invalidate g' evs hg' hv hevs =>
      have hg := ((AFile.clear_own_iff hw (ha.housed.nameSlot g' hg') (by simp) g).mp hg).1
      refine .inl ⟨?_, hg⟩
      simp only [AFile.reorder_gr, AFile.notes_gr, AFile.clear_gr, update_apply] at hs
      split at hs <;> simp_all
    | _ =>
      simp [update_apply, AFile.fresh] at *
      grind

/-- The rules for groups leave the parents and what is starting alone. -/
lemma GroupRule.parent (hr : GroupRule w A B) (hg : A.own g = .chain .group) :
    (B.gr g).beParent = (A.gr g).beParent ∧ (B.gr g).beStarting = (A.gr g).beStarting := by
  cases hr with
  | invalidate g' =>
    simp only [AFile.reorder_gr, AFile.notes_gr, AFile.clear_gr, update_apply]
    split <;> simp_all
  | groupNew | groupNamed | scriptNew =>
    simp [update_apply, AFile.fresh] at *
    grind
  | _ => exact ⟨rfl, rfl⟩

/-- Who can have been written into `be_parent`. -/
lemma Rule.parent (hr : Rule w A B) (hw : A.Wf) (ha : AInv A) (h0 : q ≠ 0)
    (hg : B.own g = .chain .group) (hp : (B.gr g).beParent = q) :
    A.own g = .chain .group ∧ (A.gr g).beParent = q ∨ .spawn q ∈ A.log ∨ w.heads q := by
  obtain hr | hr := hr
  · cases hr <;> simp [update_apply, AFile.fresh] at * <;> grind
  · by_cases hg' : A.own g = .chain .group
    · exact .inl ⟨hg', (hr.parent hg').1.symm.trans hp⟩
    · cases hr with
      | invalidate g' evs hg'' hv hevs =>
        exact absurd ((AFile.clear_own_iff hw (ha.housed.nameSlot g' hg'') (by simp) g).mp hg).1 hg'
      | _ =>
        simp [update_apply, AFile.fresh] at *
        grind

/-- Only parents are killed. -/
lemma Rule.killed {ok : Bool} (hr : Rule w A B) (h : .kill q .kill ok ∈ B.log) :
    .kill q .kill ok ∈ A.log ∨ ∃ g, A.own g = .chain .group ∧ (A.gr g).beParent = q := by
  obtain hr | hr := hr
  · cases hr <;> simp at * <;> grind [Event.quiet, Event.loud]
  · cases hr with
    | invalidate g evs hg hv hevs =>
      have h : .kill q .kill ok ∈ evs ∨ .kill q .kill ok ∈ (A.clear g).log := by simpa using h
      obtain ⟨p, ok', h⟩ | h := h.imp_left (hevs _)
      · cases h
      · exact .inl (by simpa [AFile.mem_clear_log] using h)
    | _ => exact .inl (by simpa using h)

/-- The socket of a backend is removed with its slot. -/
lemma Rule.unlinked (hr : Rule w A B) (h : .unlink b ∈ B.log) :
    .unlink b ∈ A.log ∨ ∀ g, B.own b ≠ .chain (.be g) := by
  obtain hr | hr := hr
  · cases hr <;> simp at * <;> grind [Event.quiet, Event.loud]
  · cases hr with
    | invalidate g evs hg hv hevs =>
      have h : .unlink b ∈ evs ∨ .unlink b ∈ (A.clear g).log := by simpa using h
      obtain ⟨p, ok', h⟩ | h := h.imp_left (hevs _)
      · cases h
      · exact .inl (by simpa [AFile.mem_clear_log] using h)
    | _ => exact .inl (by simpa using h)

/-- The pids of backends come from forks. -/
lemma Rule.bePid (hr : Rule w A B) (hw : A.Wf) (ha : AInv A) (hb : B.own b = .chain (.be g)) :
    A.own b = .chain (.be g) ∧ (A.be b).pid = (B.be b).pid ∨ (B.be b).pid = 0 ∨ .fork (B.be b).pid g b ∈ A.log := by
  obtain hr | hr := hr
  · cases hr <;> simp [update_apply, AFile.fresh, BeSlot.run] at * <;> grind
  · have hs := hr.sameQueues hw ha.housed.nameSlot
    have hb := (hs.own b _ (by simp)).mp hb
    exact .inl ⟨hb, by rw [hs.be b (by simp [hb])]⟩

/-- The queues only lose frontends, unless one is put at the end. -/
lemma Rule.queue (hr : Rule w A B) (hw : A.Wf) (ha : AInv A) :
    (∀ g, (B.lst (.fe g)).Sublist (A.lst (.fe g))) ∨
      ∃ g f, A.own f = .loose ∧ w.me (B.fe f).pid ∧ B.lst (.fe g) = A.lst (.fe g) ++ [f] ∧
        ∀ g' ≠ g, B.lst (.fe g') = A.lst (.fe g') := by
  obtain hr | hr := hr
  · cases hr with
    | enqueue g f hg hf hme hsig =>
      exact .inr ⟨g, f, hf, hme, by simp, fun g' hne => by simp [hne]⟩
    | dequeue g f hf hme => 
      refine .inl fun g' => ?_
      rcases eq_or_ne g' g with rfl | hne
      · simpa using List.erase_sublist
      · simp [hne]
    | feDispose g f hf hp => 
      refine .inl fun g' => ?_
      rcases eq_or_ne g' g with rfl | hne
      · simpa using List.erase_sublist
      · simp [hne]
    | _ => exact .inl fun g' => by simp
  · have hs := hr.sameQueues hw ha.housed.nameSlot
    exact .inl fun g => by rw [hs.lst _ (by simp)]

/-- The group of a waiting frontend is not freed. -/
lemma Rule.free (hr : Rule w A B) (hw : A.Wf) (ha : AInv A) (hf : A.own f = .chain (.fe g)) (h : .free g ∈ B.log) : .free g ∈ A.log := by
  have hg := ha.housed.chain f _ g hf rfl
  have hn := hw.mem (.fe g) f
  have hname := ha.housed.nameSlot
  obtain hr | hr := hr
  · cases hr <;> simp at * <;> grind [Event.quiet, Event.loud]
  · cases hr with
    | invalidate g' evs hg' hv hevs =>
      have h : .free g ∈ evs ∨ .free g ∈ (A.clear g').log := by simpa using h
      obtain ⟨p, ok, h⟩ | h := h.imp_left (hevs _)
      · cases h
      rcases AFile.mem_clear_log.mp h with h | ⟨m, hm, h⟩ | ⟨h0, h⟩
      · exact h
      · obtain rfl : g = m := by simpa using h
        simp [(hw.mem _ g).mp hm] at hg
      · obtain rfl : g = (A.gr g').nameSlot := by simpa using h
        simp [hname g' hg' h0] at hg
    | _ =>
      simp [AFile.fresh] at *
      grind

/-- The entries of a group that stays valid. -/
lemma Rule.entry (hr : Rule w A B) (hw : A.Wf) (ha : AInv A) (hg : B.own g = .chain .group) (hv : B.valid g) {s : SlotNum} (hs : A.own s = .chain (.script g)) :
    B.own s = .chain (.script g) ∧ B.scr s = A.scr s := by
  obtain hr | hr := hr
  · have h := hr.sameGroups
    exact ⟨(h.own s _ (by simp)).mpr hs, h.scr s g hs⟩
  · have := ha.housed.chain s _ g hs rfl
    have := (hw.mem _ s).mpr hs
    cases hr with
    | invalidate g' evs hg' hv' hevs =>
      have hne : g ≠ g' := by
        rintro rfl
        simp [AFile.valid] at hv
      exact ⟨(AFile.clear_own_iff hw (ha.housed.nameSlot g' hg') (by simp) s).mpr ⟨hs, by simpa using hne⟩, by simp⟩
    | _ =>
      simp [update_apply, AFile.fresh] at *
      grind


/-- A group that is not valid stays so. -/
lemma Rule.stale (hr : Rule w A B) (hw : A.Wf) (hg : A.own g = .chain .group) (hv : ¬ A.valid g) :
    ¬ B.valid g := by
  obtain hr | hr := hr
  · have h := hr.sameGroups
    rwa [AFile.valid, h.lst _ (by simp)]
  · have hm := hw.mem (.script g)
    cases hr <;> simp [AFile.valid, update_apply, AFile.fresh] at * <;> grind

/-- A group stays where it is until it is freed. -/
lemma Rule.ungrouped (hr : Rule w A B) (hw : A.Wf) (ha : AInv A) (hg : A.own g = .chain .group) :
    B.own g = .chain .group ∨ .free g ∈ B.log := by
  obtain hr | hr := hr
  · exact .inl ((hr.sameGroups.own g _ (by simp)).mpr hg)
  · cases hr with
    | invalidate g' evs hg' hv hevs =>
      exact .inl ((AFile.clear_own_iff hw (ha.housed.nameSlot g' hg') (by simp) g).mpr ⟨hg, by simp⟩)
    | _ =>
      simp [update_apply, AFile.fresh] at *
      grind

/-- Who waits has waited before, or has just put itself on the list. -/
lemma Rule.waiting (hr : Rule w A B) (hw : A.Wf) (ha : AInv A) (hb : B.own b = .chain (.be g))
    (h0 : (B.be b).feRunning = 0) : A.own b = .chain (.be g) ∧ (A.be b).feRunning = 0 ∨
      w.puts b ∧ A.own b = .chain (.be g) := by
  obtain hr | hr := hr
  · have hz := hw.zero
    cases hr <;> simp [update_apply, AFile.fresh, BeSlot.run] at * <;> grind
  · have hs := hr.sameQueues hw ha.housed.nameSlot
    have hb := (hs.own b _ (by simp)).mp hb
    exact .inl ⟨hb, by rw [← h0, hs.be b (by simp [hb])]⟩

lemma AFile.taken_iff {b : SlotNum} : A.taken b ↔ b ∈ assigned A.log := by
  simp only [taken, assigned, List.mem_filterMap]
  constructor
  · rintro ⟨g, f, h, sig, hm⟩
    exact ⟨_, hm, rfl⟩
  · rintro ⟨ev, hm, hev⟩
    cases ev <;> simp at hev
    subst hev
    exact ⟨_, _, _, _, hm⟩

section
variable {β : Type} {pick : Event → Option β}

/-- There are no loud events in the rules for groups. -/
lemma GroupRule.picks (hr : GroupRule w A B) (hloud : ∀ ev, (pick ev).isSome → ev.loud) :
    B.log.filterMap pick = A.log.filterMap pick := by
  have hnone : ∀ ev, ¬ ev.loud → pick ev = none := fun ev hev =>
    Option.not_isSome_iff_eq_none.mp fun h => hev (hloud ev h)
  have hfree : ∀ n, pick (.free n) = none := fun n => hnone _ id
  cases hr with
  | invalidate g evs hg hv hevs =>
    have h1 : evs.filterMap pick = [] := List.filterMap_eq_nil_iff.mpr fun ev hm => by
      obtain ⟨p, ok, rfl⟩ := hevs _ hm
      exact hnone _ id
    have h2 : (A.clear g).log.filterMap pick = A.log.filterMap pick := by
      unfold AFile.clear
      split <;> simp [hfree, List.filterMap_append]
    rw [AFile.reorder_log, AFile.notes_log, List.filterMap_append, h1, List.nil_append, h2]
  | _ => simp [hfree]

/-- Loud events that nobody tells do not happen. -/
lemma Rule.picks (hr : Rule w A B) (hloud : ∀ ev, (pick ev).isSome → ev.loud)
    (hno : ∀ ev, (pick ev).isSome → ¬ w.tells ev) :
    B.log.filterMap pick = A.log.filterMap pick := by
  have hnone : ∀ ev, ¬ ev.loud → pick ev = none := fun ev hev =>
    Option.not_isSome_iff_eq_none.mp fun h => hev (hloud ev h)
  obtain hr | hr := hr
  · cases hr with
    | note ev hev =>
      have : pick ev = none := by
        obtain hq | ⟨-, -, ht⟩ := hev
        · exact hnone _ fun hl => by cases ev <;> simp [Event.quiet, Event.loud] at hq hl
        · exact Option.not_isSome_iff_eq_none.mp fun h => hno ev h ht
      simp [this]
    | assign g f b h sig hb hb0 hst htell =>
      have : pick (.assign g f b h sig) = none :=
        Option.not_isSome_iff_eq_none.mp fun h => hno _ h htell
      simp [this]
    | _ => simp [hnone (.kill ..) id, hnone (.free _) id, hnone (.unlink _) id]
  · exact hr.picks hloud

end

/-- No backend is given away by the rules for groups. -/
lemma GroupRule.taken (hr : GroupRule w A B) (n : SlotNum) : B.taken n ↔ A.taken n := by
  rw [AFile.taken_iff, AFile.taken_iff, assigned, hr.picks, assigned]
  intro ev h
  cases ev <;> simp [Event.loud] at h ⊢

/-! ### Over a whole section -/

/-- What every step of a section keeps; `L` are the events of the section. -/
lemma Steps.keep {P : AFile → Prop} {L : Event → Prop} (hs : Steps w A B) (hw : A.Wf) (ha : AInv A)
    (hL : ∀ ev ∈ B.log, L ev) (h : P A)
    (hstep : ∀ C D, C.Wf → AInv C → Rule w C D → (∀ ev ∈ D.log, L ev) → P C → P D) : P B := by
  induction hs with
  | refl => exact h
  | tail hs hr ih =>
    obtain ⟨ha', hw'⟩ := ha.steps hw hs
    exact hstep _ _ hw' ha' hr.1 hL (ih fun ev hev => hL ev (hr.1.log hev))

lemma Steps.log (hs : Steps w A B) {ev : Event} (h : ev ∈ A.log) : ev ∈ B.log := by
  induction hs with
  | refl => exact h
  | tail _ hr ih => exact hr.1.log ih

lemma Steps.picks {β : Type} {pick : Event → Option β} (hs : Steps w A B)
    (hloud : ∀ ev, (pick ev).isSome → ev.loud) (hno : ∀ ev, (pick ev).isSome → ¬ w.tells ev) :
    B.log.filterMap pick = A.log.filterMap pick := by
  induction hs with
  | refl => rfl
  | tail _ hr ih => exact (hr.1.picks hloud hno).trans ih

lemma Steps.calls (hs : Steps w A B) (hno : ∀ b n, ¬ w.tells (.connect b n)) :
    calls B.log = calls A.log := by
  refine hs.picks (fun ev h => ?_) fun ev h => ?_ <;> cases ev <;> simp [Event.loud] at h ⊢
  exact hno _ _

lemma Steps.assigned (hs : Steps w A B) (hno : ∀ g f b h sig, ¬ w.tells (.assign g f b h sig)) :
    assigned B.log = assigned A.log := by
  refine hs.picks (fun ev h => ?_) fun ev h => ?_ <;> cases ev <;> simp [Event.loud] at h ⊢
  exact hno _ _ _ _ _

lemma Steps.alive {sig : Sig} {ok : Bool} (hs : Steps w A B) (hsig : sig ≠ .term)
    (h : .kill w.self sig ok ∉ A.log) : .kill w.self sig ok ∉ B.log := by
  induction hs with
  | refl => exact h
  | tail _ hr ih => exact fun hm => ih (hr.1.alive hsig hm)

/-- Nobody has killed the process itself. -/
def AFile.unhurt (A : AFile) (w : Who) : Prop := .kill w.self .kill true ∉ A.log

lemma Steps.unhurt (hs : Steps w A B) (h : A.unhurt w) : B.unhurt w := hs.alive (by simp) h

lemma Steps.seat (hs : Steps w A B) (hw : A.Wf) (ha : AInv A) (hq : w.live q) (hme : ¬ w.me q)
    (hk : .kill q .kill true ∉ B.log) (h : A.seat p f q) : B.seat p f q :=
  hs.keep (L := (· ∈ B.log)) hw ha (fun _ => id) h fun _ _ hw ha hr hL h =>
    hr.seat hw ha hq hme (fun hm => hk (hL _ (hr.log hm))) h

lemma Steps.loose (hs : Steps w A B) (hw : A.Wf) (ha : AInv A) (hme : ∀ q, ¬ w.me q)
    (h : B.own n = .loose) : A.own n = .loose :=
  hs.keep (P := fun C => C.own n = .loose → A.own n = .loose) (L := (· ∈ B.log)) hw ha
    (fun _ => id) id (fun _ _ hw ha hr _ ih h => ih (hr.loose hme hw ha h)) h

lemma Steps.leads (hs : Steps w A B) (hw : A.Wf) (ha : AInv A) (hq : w.live q) (h0 : q ≠ 0)
    (hboss : ¬ w.boss q) (hk : .kill q .kill true ∉ B.log) (hg : A.own g = .chain .group)
    (hp : (A.gr g).beParent = q) : B.own g = .chain .group ∧ (B.gr g).beParent = q :=
  hs.keep (P := fun C => C.own g = .chain .group ∧ (C.gr g).beParent = q) (L := (· ∈ B.log)) hw ha
    (fun _ => id) ⟨hg, hp⟩ fun _ _ hw ha hr hL h =>
      hr.leads hw ha hq h0 hboss (fun hm => hk (hL _ (hr.log hm))) h.1 h.2

lemma Steps.serves (hs : Steps w A B) (hw : A.Wf) (ha : AInv A) (hq : w.live q) (h0 : q ≠ 0)
    (hk : .kill q .kill true ∉ B.log) (h : A.serves g b q) :
    B.serves g b q ∧ Aged b A B ∨ .unlink b ∈ B.log := by
  refine hs.keep (P := fun C => C.serves g b q ∧ Aged b A C ∨ .unlink b ∈ C.log)
    (L := (· ∈ B.log)) hw ha (fun _ => id) (.inl ⟨h, id⟩) fun _ _ hw ha hr hL h => ?_
  rcases h with h | h
  · exact (hr.serves hw ha hq h0 (fun hm => hk (hL _ (hr.log hm))) h.1).imp
      (fun h' => ⟨h'.1, h'.2 ∘ h.2⟩) And.right
  · exact .inr (hr.log h)

/-- A backend in use stays so until it says otherwise. -/
lemma Steps.busy (hs : Steps w A B) (hw : A.Wf) (ha : AInv A) (hq : w.live q) (h0 : q ≠ 0)
    (hme : ¬ w.me q) (hk : .kill q .kill true ∉ B.log) (h : A.serves g b q)
    (hrun : (A.be b).feRunning ≠ 0) : (B.serves g b q ∧ Aged b A B) ∧
      ((B.be b).feRunning = (A.be b).feRunning ∨ (B.be b).feRunning = b) := by
  have hb0 : b ≠ 0 := by
    rintro rfl
    have := h.1
    simp [hw.zero] at this
  refine hs.keep (P := fun C => (C.serves g b q ∧ Aged b A C) ∧
    ((C.be b).feRunning = (A.be b).feRunning ∨ (C.be b).feRunning = b)) (L := (· ∈ B.log)) hw ha
    (fun _ => id) ⟨⟨h, id⟩, .inl rfl⟩ fun C D hw ha hr hL h => ?_
  have hkC : .kill q .kill true ∉ C.log := fun hm => hk (hL _ (hr.log hm))
  have hrunC : (C.be b).feRunning ≠ 0 := by
    rcases h.2 with h | h
    · rwa [h]
    · rwa [h]
  have hD := (hr.serves hw ha hq h0 hkC h.1.1).resolve_right fun h => hrunC h.1
  refine ⟨⟨hD.1, hD.2 ∘ h.1.2⟩, ?_⟩
  rcases hr.busy hw ha hq hme hkC h.1.1 hrunC with h' | h'
  · rw [h']
    exact h.2
  · exact .inr h'

lemma Rule.noBe (hr : Rule w A B) (hw : A.Wf) (ha : AInv A) (h0 : q ≠ 0)
    (hfork : ∀ g b, .fork q g b ∉ A.log) (h : A.noBe q) : B.noBe q := by
  intro b g hb heq
  obtain ⟨hb, hp⟩ | hp | hp := hr.bePid hw ha hb
  · exact h b g hb (hp.trans heq)
  · exact h0 (heq.symm.trans hp)
  · exact hfork g b (heq ▸ hp)

/-- Nobody asks a parent for a backend without a signal. -/
lemma Steps.starting (hs : Steps w A B) (hw : A.Wf) (ha : AInv A) (h0 : q ≠ 0) (hbe : A.noBe q)
    (hboss : ¬ w.boss q) (husr1 : .kill q .usr1 true ∉ B.log) (hspawn : .spawn q ∉ B.log)
    (hfork : ∀ g b, .fork q g b ∉ B.log) : B.noBe q ∧ ∀ g, B.own g = .chain .group →
      (B.gr g).beStarting = q → A.own g = .chain .group ∧ (A.gr g).beStarting = q := by
  refine hs.keep (P := fun C => C.noBe q ∧ ∀ g, C.own g = .chain .group →
      (C.gr g).beStarting = q → A.own g = .chain .group ∧ (A.gr g).beStarting = q)
      (L := (· ∈ B.log)) hw ha (fun _ => id) ⟨hbe, fun g hg h => ⟨hg, h⟩⟩ fun C D hw ha hr hL h => ?_
  have hforkC : ∀ g b, .fork q g b ∉ C.log := fun g b hm => hfork g b (hL _ (hr.log hm))
  refine ⟨hr.noBe hw ha h0 hforkC h.1, fun g hg heq => ?_⟩
  obtain ⟨hs, hg⟩ | ⟨b, g', hb, hp⟩ | hm | hm | ⟨g', b, hm⟩ | hq := hr.starting hw ha h0 hg heq
  · exact h.2 g hg hs
  · exact absurd hp (h.1 b g' hb)
  · exact absurd (hL _ (hr.log hm)) husr1
  · exact absurd (hL _ (hr.log hm)) hspawn
  · exact absurd hm (hforkC g' b)
  · exact absurd hq hboss

/-- A group that is valid has been valid. -/
lemma Steps.valid (hs : Steps w A B) (hw : A.Wf) (ha : AInv A) (hq : w.live q) (h0 : q ≠ 0)
    (hboss : ¬ w.boss q) (hk : .kill q .kill true ∉ B.log) (hg : A.own g = .chain .group)
    (hp : (A.gr g).beParent = q) (hv : B.valid g) : A.valid g := by
  refine (hs.keep (P := fun C => (C.own g = .chain .group ∧ (C.gr g).beParent = q) ∧
    (C.valid g → A.valid g)) (L := (· ∈ B.log)) hw ha (fun _ => id) ⟨⟨hg, hp⟩, id⟩
    fun C D hw ha hr hL h => ⟨?_, fun hv => h.2 ?_⟩).2 hv
  · exact hr.leads hw ha hq h0 hboss (fun hm => hk (hL _ (hr.log hm))) h.1.1 h.1.2
  · by_contra hno
    exact hr.stale hw h.1.1 hno hv

/-- What a section says aloud it may say. -/
lemma Rule.loud {ev : Event} (hr : Rule w A B) (hev : ev.loud) (h : ev ∈ B.log) :
    ev ∈ A.log ∨ w.tells ev := by
  obtain hr | hr := hr
  · cases hr with
    | note ev' hev' =>
      rcases List.mem_cons.mp h with rfl | h
      · refine .inr (hev'.resolve_left ?_).2.2
        cases ev <;> simp [Event.quiet, Event.loud] at *
      · exact .inl h
    | assign g f b hd sig hb hb0 hst htell =>
      rcases List.mem_cons.mp h with rfl | h
      · exact .inr htell
      · exact .inl h
    | _ => cases ev <;> simp [Event.loud] at * <;> exact .inl h
  · cases hr with
    | invalidate g evs hg hv hevs =>
      have h : ev ∈ evs ∨ ev ∈ (A.clear g).log := by simpa using h
      obtain ⟨p, ok, rfl⟩ | h := h.imp_left (hevs _)
      · exact hev.elim
      · rw [AFile.mem_clear_log] at h
        obtain h | ⟨m, -, rfl⟩ | ⟨-, rfl⟩ := h
        · exact .inl h
        · exact hev.elim
        · exact hev.elim
    | _ => cases ev <;> simp [Event.loud] at * <;> exact .inl h

lemma Steps.loud {ev : Event} (hs : Steps w A B) (hev : ev.loud) (h : ev ∈ B.log) :
    ev ∈ A.log ∨ w.tells ev := by
  induction hs with
  | refl => exact .inl h
  | tail _ hr ih => exact (hr.1.loud hev h).elim ih .inr

lemma Steps.noBe (hs : Steps w A B) (hw : A.Wf) (ha : AInv A) (h0 : q ≠ 0)
    (hlog : ∀ g b, .fork q g b ∉ A.log) (htell : ∀ g b, ¬ w.tells (.fork q g b)) (h : A.noBe q) :
    B.noBe q := by
  induction hs with
  | refl => exact h
  | tail hs hr ih =>
    obtain ⟨ha', hw'⟩ := ha.steps hw hs
    refine hr.1.noBe hw' ha' h0 (fun g b hm => ?_) ih
    have hev : (Event.fork q g b).loud := trivial
    exact (Steps.loud hs hev hm).elim (hlog g b) (htell g b)

/-- The group a frontend waits for is not freed. -/
lemma Steps.kept (hs : Steps w A B) (hw : A.Wf) (ha : AInv A) (hq : w.live q) (hme : ¬ w.me q)
    (hk : .kill q .kill true ∉ B.log) (h : A.seat (.chain (.fe g)) f q)
    (hfree : .free g ∈ B.log) : .free g ∈ A.log := by
  refine (hs.keep (P := fun C => C.seat (.chain (.fe g)) f q ∧ (.free g ∈ C.log → .free g ∈ A.log))
    (L := (· ∈ B.log)) hw ha (fun _ => id) ⟨h, id⟩ fun _ _ hw ha hr hL h => ⟨?_, ?_⟩).2 hfree
  · exact hr.seat hw ha hq hme (fun hm => hk (hL _ (hr.log hm))) h.1
  · exact fun hfree => h.2 (hr.free hw ha h.1.2.1 hfree)

/-- Frontend `f` of process `q` waits for a backend of group `g`, which has the entry `v` while it
is valid. -/
structure AFile.Waits (A : AFile) (g f : SlotNum) (q : Pid) (v : ScrSlot) : Prop where
  seat : A.seat (.chain (.fe g)) f q
  entry : A.valid g → ∃ s, A.own s = .chain (.script g) ∧ A.scr s = v

lemma Rule.waits {v : ScrSlot} (hr : Rule w A B) (hw : A.Wf) (ha : AInv A)
    (hq : w.live q) (hme : ¬ w.me q) (hk : .kill q .kill true ∉ A.log) (h : A.Waits g f q v) :
    B.Waits g f q v := by
  have hseat := hr.seat hw ha hq hme hk h.seat
  have hg := ha.housed.chain f _ g h.seat.2.1 rfl
  have hg' := (ha.rule hw hr).housed.chain f _ g hseat.2.1 rfl
  refine ⟨hseat, fun hv => ?_⟩
  have hv' : A.valid g := by
    by_contra hno
    exact hr.stale hw hg hno hv
  obtain ⟨s, hs, heq⟩ := h.entry hv'
  obtain ⟨hs', heq'⟩ := hr.entry hw ha hg' hv hs
  exact ⟨s, hs', heq'.trans heq⟩

lemma Steps.waits {v : ScrSlot} (hs : Steps w A B) (hw : A.Wf) (ha : AInv A) (hq : w.live q)
    (hme : ¬ w.me q) (hk : .kill q .kill true ∉ B.log) (h : A.Waits g f q v) : B.Waits g f q v := by
  exact hs.keep (P := fun C => C.Waits g f q v) (L := (· ∈ B.log)) hw ha (fun _ => id) h
    fun _ _ hw ha hr hL h => hr.waits hw ha hq hme (fun hm => hk (hL _ (hr.log hm))) h

lemma Steps.parent (hs : Steps w A B) (hw : A.Wf) (ha : AInv A) (h0 : q ≠ 0)
    (hg : B.own g = .chain .group) (hp : (B.gr g).beParent = q) :
    A.own g = .chain .group ∧ (A.gr g).beParent = q ∨ .spawn q ∈ B.log ∨ w.heads q := by
  induction hs with
  | refl => exact .inl ⟨hg, hp⟩
  | tail hs hr ih =>
    obtain ⟨ha', hw'⟩ := ha.steps hw hs
    obtain ⟨hg, hp⟩ | h | h := hr.1.parent hw' ha' h0 hg hp
    · exact (ih hg hp).imp_right (Or.imp_left fun h => hr.1.log h)
    · exact .inr (.inl (hr.1.log h))
    · exact .inr (.inr h)

lemma Steps.killed {ok : Bool} (hs : Steps w A B) (hw : A.Wf) (ha : AInv A) (h0 : q ≠ 0)
    (h : .kill q .kill ok ∈ B.log) :
    .kill q .kill ok ∈ A.log ∨ (∃ g, A.own g = .chain .group ∧ (A.gr g).beParent = q) ∨
      .spawn q ∈ B.log ∨ w.heads q := by
  induction hs with
  | refl => exact .inl h
  | tail hs hr ih =>
    obtain ⟨ha', hw'⟩ := ha.steps hw hs
    obtain h | ⟨g, hg, hp⟩ := hr.1.killed h
    · exact (ih h).imp_right (Or.imp_right (Or.imp_left fun h => hr.1.log h))
    · obtain ⟨hg, hp⟩ | h | h := Steps.parent hs hw ha h0 hg hp
      · exact .inr (.inl ⟨g, hg, hp⟩)
      · exact .inr (.inr (.inl (hr.1.log h)))
      · exact .inr (.inr (.inr h))

lemma Steps.stale (hs : Steps w A B) (hw : A.Wf) (ha : AInv A) (hg : A.own g = .chain .group)
    (hv : ¬ A.valid g) : B.own g = .chain .group ∧ ¬ B.valid g ∨ .free g ∈ B.log := by
  refine hs.keep (P := fun C => C.own g = .chain .group ∧ ¬ C.valid g ∨ .free g ∈ C.log)
    (L := fun _ => True) hw ha (fun _ _ => trivial) (.inl ⟨hg, hv⟩) fun C D hw ha hr _ h => ?_
  obtain ⟨hg, hv⟩ | h := h
  · exact (hr.ungrouped hw ha hg).imp_left fun hg' => ⟨hg', hr.stale hw hg hv⟩
  · exact .inr (hr.log h)

lemma Steps.waiting (hs : Steps w A B) (hw : A.Wf) (ha : AInv A) (hno : ¬ w.puts b)
    (hb : B.own b = .chain (.be g)) (h0 : (B.be b).feRunning = 0) :
    A.own b = .chain (.be g) ∧ (A.be b).feRunning = 0 := by
  induction hs with
  | refl => exact ⟨hb, h0⟩
  | tail hs hr ih =>
    obtain ⟨ha', hw'⟩ := ha.steps hw hs
    obtain ⟨hb, h0⟩ := (hr.1.waiting hw' ha' hb h0).resolve_right fun h => hno h.1
    exact ih hb h0

/-! ### Those who do less -/

/-- What `w` may do `w'` may do. -/
structure Who.Le (w w' : Who) : Prop where
  self : w.self = w'.self
  live : w.live = w'.live
  me : ∀ q, w.me q → w'.me q
  boss : ∀ q, w.boss q → w'.boss q
  heads : ∀ q, w.heads q → w'.heads q
  died : w.died = w'.died
  tells : ∀ ev, w.tells ev → w'.tells ev
  ran : ∀ val, w.ran val → w'.ran val
  max : w.max = w'.max
  puts : ∀ b, w.puts b → w'.puts b
  stamp : w.stamp = w'.stamp
  grows : ∀ g, w.grows g → w'.grows g

/-- The same section in a part where only processes are started. -/
@[simps] def Who.hush (w : Who) : Who := { w with tells := fun ev => ev.birth ∧ w.tells ev }

/-- The same section in a part where nobody acts for itself either. -/
@[simps] def Who.aside (w : Who) : Who :=
  { w with me := fun _ => False, tells := fun ev => ev.birth ∧ w.tells ev }

/-- The same section in a part where it is not that of a backend parent. -/
@[simps] def Who.meek (w : Who) : Who :=
  { w with boss := fun _ => False, heads := fun _ => False }

/-- The same section in a part without loud events. -/
@[simps] def Who.mute (w : Who) : Who := { w with tells := fun _ => False }

/-- The same section in a part where only the groups of `P` get new backends. -/
@[simps] def Who.growing (w : Who) (P : SlotNum → Prop) : Who := { w with grows := P }

lemma Who.growing_le {P : SlotNum → Prop} (w : Who) (h : ∀ g, P g → w.grows g) : (w.growing P).Le w :=
  ⟨rfl, rfl, fun _ h => h, fun _ h => h, fun _ h => h, rfl, fun _ h => h, fun _ h => h, rfl, fun _ h => h,
    rfl, h⟩

lemma Who.meek_le (w : Who) : w.meek.Le w :=
  ⟨rfl, rfl, fun _ h => h, fun _ h => h.elim, fun _ h => h.elim, rfl, fun _ h => h, fun _ h => h,
    rfl, fun _ h => h, rfl, fun _ h => h⟩

lemma Who.mute_le (w : Who) : w.mute.Le w :=
  ⟨rfl, rfl, fun _ h => h, fun _ h => h, fun _ h => h, rfl, fun _ h => h.elim, fun _ h => h, rfl,
    fun _ h => h, rfl, fun _ h => h⟩

lemma Steps.quiet {ev : Event} (hs : Steps w.mute A B) (hev : ev.loud) (h : ev ∈ B.log) :
    ev ∈ A.log := (hs.loud hev h).resolve_right id

lemma Who.hush_le (w : Who) : w.hush.Le w :=
  ⟨rfl, rfl, fun _ h => h, fun _ h => h, fun _ h => h, rfl, fun _ h => h.2, fun _ h => h, rfl,
    fun _ h => h, rfl, fun _ h => h⟩

lemma Who.aside_le_hush (w : Who) : w.aside.Le w.hush :=
  ⟨rfl, rfl, fun _ h => h.elim, fun _ h => h, fun _ h => h, rfl, fun _ h => h, fun _ h => h, rfl,
    fun _ h => h, rfl, fun _ h => h⟩

lemma Who.aside_le (w : Who) : w.aside.Le w :=
  ⟨rfl, rfl, fun _ h => h.elim, fun _ h => h, fun _ h => h, rfl, fun _ h => h.2, fun _ h => h, rfl,
    fun _ h => h, rfl, fun _ h => h⟩

section
variable {w' : Who}

lemma AFile.gone.mono (h : w.Le w') (hg : A.gone w q) : A.gone w' q := by
  rwa [gone, ← h.live]

lemma SlotRule.mono (h : w.Le w') (hr : SlotRule w A B) : SlotRule w' A B := by
  cases hr with
  | note ev hev =>
    exact .note ev (hev.imp (fun h' => by rwa [← h.self]) fun h' =>
      ⟨h'.1, h'.2.1, h.tells _ h'.2.2⟩)
  | parentKill g ok hg hne => exact .parentKill g ok hg (h.self ▸ hne)
  | starting g s hg hs hold =>
    refine .starting g s hg (hs.imp_right fun hs => hs.imp_right fun hs => hs.imp_right fun hs =>
      hs.imp_right fun hs => hs.imp_right (h.boss s)) ?_
    rw [← h.self]
    exact hold.imp_right fun hold => hold.imp_left (AFile.gone.mono h)
  | parentGone g hg hp => exact .parentGone g hg (hp.mono h)
  | parentMe g p hg hme hp => exact .parentMe g p hg (h.heads p hme) hp
  | parentNew g p s hg hp hlog hs => exact .parentNew g p s hg hp hlog hs
  | feNew f fl k p hf hme => exact .feNew f fl k p hf (h.me p hme)
  | feDrop f hf hme => exact .feDrop f hf (h.me _ hme)
  | feBackend f b hf hme => exact .feBackend f b hf (h.me _ hme)
  | enqueue g f hg hf hme hsig => exact .enqueue g f hg hf (h.me _ hme) hsig
  | dequeue g f hf hme => exact .dequeue g f hf (h.me _ hme)
  | feDispose g f hf hp => exact .feDispose g f hf (hp.mono h)
  | sendSig g f hf => exact .sendSig g f hf
  | takeSig f hme => exact .takeSig f (h.me _ hme)
  | report g b f sig val hb hf hf0 hfb hp =>
    exact .report g b f sig val hb hf hf0 hfb
      (hp.imp (fun hp => ⟨h.me _ hp.1, hp.2.1, h.ran _ hp.2.2⟩) fun hp =>
        ⟨hp.1.mono h, h.died ▸ hp.2⟩)
  | feDone f hf hb hp => exact .feDone f hf hb (hp.imp (h.me _) (AFile.gone.mono h))
  | feGone f b hf hb hb0 hp => exact .feGone f b hf hb hb0 (hp.mono h)
  | beDispose g b hb hf => exact .beDispose g b hb (hf.imp_right fun hf => ⟨hf.1, hf.2.mono h⟩)
  | assign g f b hd sig hb hb0 hst htell => exact .assign g f b hd sig hb hb0 hst (h.tells _ htell)
  | waitPut g b m hm hb hf hme hput hno hst =>
    exact .waitPut g b m hm hb hf (h.me _ hme) (h.puts b hput) hno (h.stamp ▸ hst)
  | beNew g b fl k hg hb hmax hgrow => exact .beNew g b fl k hg hb (h.max ▸ hmax) (h.grows g hgrow)
  | bePid g b p hb hp hlog hst hno => exact .bePid g b p hb hp hlog hst hno
  | claim g f b hf hme hfb hsig hb hb0 htaken =>
    exact .claim g f b hf (h.me _ hme) hfb hsig hb hb0 htaken
  | claimAnon g b hb hb0 htaken => exact .claimAnon g b hb hb0 htaken

lemma GroupRule.mono (h : w.Le w') (hr : GroupRule w A B) : GroupRule w' A B := by
  cases hr with
  | invalidate g evs hg hv hevs => exact .invalidate g evs hg hv hevs
  | groupRemove g hg hb hf hs hn hp =>
    exact .groupRemove g hg hb hf hs hn (hp.imp (AFile.gone.mono h) (h.boss _))
  | groupNew g s v fl fl' k k' hg hs hsg hnew => exact .groupNew g s v fl fl' k k' hg hs hsg hnew
  | groupNamed g n s grp v fl fl' fl'' k k' k'' hg hn hs hng hsg hsn hnew =>
    exact .groupNamed g n s grp v fl fl' fl'' k k' k'' hg hn hs hng hsg hsn hnew
  | scriptNew g s v fl k hg hv hn hnew hs => exact .scriptNew g s v fl k hg hv hn hnew hs
  | scriptFront g s hs => exact .scriptFront g s hs
  | groupFront g hg hv => exact .groupFront g hg hv

lemma Steps.mono (h : w.Le w') (hs : Steps w A B) : Steps w' A B := by
  induction hs with
  | refl => exact .refl
  | tail _ hr ih =>
    obtain ⟨hr | hr, hw⟩ := hr
    · exact ih.tail ⟨.slot (hr.mono h), hw⟩
    · exact ih.tail ⟨.group (hr.mono h), hw⟩

end

end SpeedyCgi.TempFile
