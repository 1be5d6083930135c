import SpeedyCgi.TempFile.FollowGroup

/-!
What a section leaves to the processes that do not run it.

A frontend that waits keeps its place among the others, one that runs is told its status only by
those who may tell it, and a backend that waits is not used before it is given away.
-/

namespace SpeedyCgi.TempFile

open Function

variable {w : Who} {A B : AFile} {f g b x : SlotNum} {q q' : Pid}

lemma AFile.seat.ne_zero {p : Place} (hw : A.Wf) (h : A.seat p f q) : f ≠ 0 := by
  rintro rfl
  have := h.2.1
  rw [hw.zero] at this
  rcases h.1 with rfl | rfl | ⟨g, rfl⟩ <;> simp at this

/-! ### Frontends that wait -/

/-- Of two elements of a list without duplicates one is before the other. -/
lemma sublist_pair_of_sublist {α : Type} {l l' : List α} {x y : α} (hl : [x, y].Sublist l)
    (hnd : l.Nodup) (hs : l'.Sublist l) (hx : x ∈ l') (hy : y ∈ l') : [x, y].Sublist l' := by
  induction hs with
  | slnil => simp at hx
  | cons a hs ih =>
    obtain ⟨hna, hnd⟩ := List.nodup_cons.mp hnd
    cases hl with
    | cons _ hl => exact ih hl hnd hx hy
    | cons_cons _ hl => exact absurd (hs.subset hx) hna
  | cons_cons a hs ih =>
    obtain ⟨hna, hnd⟩ := List.nodup_cons.mp hnd
    cases hl with
    | cons _ hl =>
      have hxa : x ≠ a := by
        rintro rfl
        exact hna (hl.subset (by simp))
      have hya : y ≠ a := by
        rintro rfl
        exact hna (hl.subset (by simp))
      exact .cons _ (ih hl hnd ((List.mem_cons.mp hx).resolve_left hxa)
        ((List.mem_cons.mp hy).resolve_left hya))
    | cons_cons _ hl =>
      have hya : y ≠ x := by
        rintro rfl
        exact hna (hl.subset (by simp))
      exact .cons_cons _ (by simpa [hya] using hy)

/-- Two frontends wait in this order. -/
def AFile.inLine (A : AFile) (g x y : SlotNum) : Prop := [x, y].Sublist (A.lst (.fe g))

lemma Shrunk.inLine (h : Shrunk A B) (hw : A.Wf) {y : SlotNum} (hl : A.inLine g x y)
    (hx : x ∈ B.lst (.fe g)) (hy : y ∈ B.lst (.fe g)) : B.inLine g x y :=
  sublist_pair_of_sublist hl (hw.nodup _) (h g) hx hy

lemma Rule.inLine {y : SlotNum} (hr : Rule w A B) (hw : A.Wf) (ha : AInv A) (hl : A.inLine g x y)
    (hx : x ∈ B.lst (.fe g)) (hy : y ∈ B.lst (.fe g)) : B.inLine g x y := by
  obtain h | ⟨g', f, -, -, h, hne⟩ := hr.queue hw ha
  · exact sublist_pair_of_sublist hl (hw.nodup _) (h g) hx hy
  · rcases eq_or_ne g g' with rfl | hg
    · rw [AFile.inLine, h]
      exact List.Sublist.trans hl (List.sublist_append_left _ _)
    · rwa [AFile.inLine, hne g hg]

lemma Steps.inLine {y : SlotNum} (hs : Steps w A B) (hw : A.Wf) (ha : AInv A) (hq : w.live q)
    (hq' : w.live q') (hme : ¬ w.me q) (hme' : ¬ w.me q') (hk : .kill q .kill true ∉ B.log)
    (hk' : .kill q' .kill true ∉ B.log) (hx : A.seat (.chain (.fe g)) x q)
    (hy : A.seat (.chain (.fe g)) y q') (hl : A.inLine g x y) : B.inLine g x y := by
  have hseat : ∀ {C n r}, Steps w A C → (∀ ev ∈ C.log, ev ∈ B.log) → w.live r → ¬ w.me r →
      .kill r .kill true ∉ B.log → A.seat (.chain (.fe g)) n r → n ∈ C.lst (.fe g) := by
    intro C n r hs hL hq hme hk h
    exact ((ha.steps hw hs).2.mem _ n).mpr (hs.seat hw ha hq hme (fun hm => hk (hL _ hm)) h).2.1
  have hall : ∀ C, Steps w A C → (∀ ev ∈ C.log, ev ∈ B.log) → C.inLine g x y := by
    intro C hs
    induction hs with
    | refl => exact fun _ => hl
    | tail hs hr ih =>
      intro hL
      obtain ⟨ha', hw'⟩ := ha.steps hw hs
      have hs' := hs.tail hr
      exact hr.1.inLine hw' ha' (ih fun ev hev => hL ev (hr.1.log hev))
        (hseat hs' hL hq hme hk hx) (hseat hs' hL hq' hme' hk' hy)
  exact hall B hs fun _ => id

/-! ### Frontends that run -/

/-- What frontend `f` is told by the end of a section: nothing, or its status, by the backend itself
or by somebody who finds it gone. -/
inductive Told (w : Who) (f g b : SlotNum) (q' : Pid) (v : FeSlot) (B : AFile) : Prop
  | nothing (hb : B.serves g b q') (hrun : (B.be b).feRunning = f) (h : (B.fe f).backend = b)
      (hsig : (B.fe f).exitOnSig = v.exitOnSig) (hval : (B.fe f).exitVal = v.exitVal)
  | reported (h : (B.fe f).backend = 0) (hme : w.me q') (hsig : (B.fe f).exitOnSig = false)
      (hval : w.ran (B.fe f).exitVal)
  | died (h : (B.fe f).backend = 0) (hgone : B.gone w q')
      (hst : w.died q' (B.fe f).exitOnSig (B.fe f).exitVal)
  | lost (h : (B.fe f).backend = 0) (hgone : B.gone w q') (hsig : (B.fe f).exitOnSig = true)
      (hval : (B.fe f).exitVal = 9) (hno : ∀ s v, ¬ w.died q' s v)

/-- The pid of a backend does not change while a frontend runs on it. -/
lemma Rule.backendPid (hr : Rule w A B) (hw : A.Wf) (ha : AInv A) (h0 : q ≠ 0)
    (hb : A.serves g b q) (hb' : ∃ g', B.own b = .chain (.be g')) : B.serves g b q := by
  obtain ⟨g', hb'⟩ := hb'
  obtain ⟨hb, hp⟩ := hb
  obtain hr | hr := hr
  · clear ha
    cases hr <;> (try exact ⟨hb, hp⟩) <;>
      simp [update_apply, AFile.fresh, AFile.serves, BeSlot.run] at * <;> grind
  · have hs := hr.sameQueues hw ha.housed.nameSlot
    have hbq : (A.own b).queued := by simp [hb]
    exact ⟨by rw [hs.queued hbq, hb], by rw [hs.be b hbq, hp]⟩

/-- A frontend that has its status keeps it. -/
lemma Rule.settled (hr : Rule w A B) (hw : A.Wf) (ha : AInv A) (hf : A.own f = .chain .feRun)
    (hf' : B.own f = .chain .feRun) (h : (A.fe f).backend = 0) : (B.fe f).backend = 0 ∧
      (B.fe f).exitOnSig = (A.fe f).exitOnSig ∧ (B.fe f).exitVal = (A.fe f).exitVal := by
  obtain h' | ⟨g, b, hb, hback, -⟩ := hr.told hw ha hf hf'
  · rwa [h] at h'
  · rw [h] at hback
    subst hback
    simp [hw.zero] at hb

lemma Steps.settled (hs : Steps w A B) (hw : A.Wf) (ha : AInv A) (hq : w.live q) (hme : ¬ w.me q)
    (hk : .kill q .kill true ∉ B.log) (hf : A.seat (.chain .feRun) f q)
    (h : (A.fe f).backend = 0) : (B.fe f).backend = 0 ∧
      (B.fe f).exitOnSig = (A.fe f).exitOnSig ∧ (B.fe f).exitVal = (A.fe f).exitVal := by
  refine (hs.keep (P := fun C => C.seat (.chain .feRun) f q ∧ (C.fe f).backend = 0 ∧
    (C.fe f).exitOnSig = (A.fe f).exitOnSig ∧ (C.fe f).exitVal = (A.fe f).exitVal)
    (L := (· ∈ B.log)) hw ha (fun _ => id) ⟨hf, h, rfl, rfl⟩ fun C D hw ha hr hL h => ?_).2
  have hseat := hr.seat hw ha hq hme (fun hm => hk (hL _ (hr.log hm))) h.1
  obtain ⟨h1, h2, h3⟩ := hr.settled hw ha h.1.2.1 hseat.2.1 h.2.1
  exact ⟨hseat, h1, h2.trans h.2.2.1, h3.trans h.2.2.2⟩

lemma Rule.toldStep {v : FeSlot} (hr : Rule w A B) (hw : A.Wf) (ha : AInv A)
    (hf : A.own f = .chain .feRun) (hf' : B.own f = .chain .feRun) (h0 : q' ≠ 0)
    (h : Told w f g b q' v A) : Told w f g b q' v B := by
  have hgone : A.gone w q' → B.gone w q' := fun h => h.imp_right hr.log
  cases h with
  | nothing hb hrun hback hsig hval =>
    have hb0 : b ≠ 0 := by
      rintro rfl
      have := hb.1
      simp [hw.zero] at this
    obtain ⟨h1, h2, h3⟩ | ⟨g', b', hb', hback', -, h1, h2⟩ := hr.told hw ha hf hf'
    · have hp := ((ha.rule hw hr).paired.frontend f hf').resolve_left (by rw [h1, hback]; exact hb0)
      rw [h1, hback] at hp
      obtain ⟨g', hb', hrun'⟩ := hp
      exact .nothing (hr.backendPid hw ha h0 hb ⟨g', hb'⟩) hrun' (h1.trans hback)
        (h2.trans hsig) (h3.trans hval)
    · obtain rfl : b = b' := hback.symm.trans hback'
      rw [hb.2] at h2
      rcases h2 with ⟨h2, h3, h4⟩ | ⟨h2, h3 | ⟨h3, h4, h5⟩⟩
      · exact .reported h1 h2 h3 h4
      · exact .died h1 (hgone h2) h3
      · exact .lost h1 (hgone h2) h3 h4 h5
  | reported h hme hsig hval =>
    obtain ⟨h1, h2, h3⟩ := hr.settled hw ha hf hf' h
    exact .reported h1 hme (h2.trans hsig) (h3 ▸ hval)
  | died h hg hst =>
    obtain ⟨h1, h2, h3⟩ := hr.settled hw ha hf hf' h
    exact .died h1 (hgone hg) (h2 ▸ h3 ▸ hst)
  | lost h hg hsig hval hno =>
    obtain ⟨h1, h2, h3⟩ := hr.settled hw ha hf hf' h
    exact .lost h1 (hgone hg) (h2.trans hsig) (h3.trans hval) hno

lemma Steps.told (hs : Steps w A B) (hw : A.Wf) (ha : AInv A) (hq : w.live q) (hme : ¬ w.me q)
    (hk : .kill q .kill true ∉ B.log) (hf : A.seat (.chain .feRun) f q) (h0 : q' ≠ 0)
    (hb : A.serves g b q') (hback : (A.fe f).backend = b) : Told w f g b q' (A.fe f) B := by
  have hrun : (A.be b).feRunning = f := by
    have hb0 : b ≠ 0 := by
      rintro rfl
      have := hb.1
      simp [hw.zero] at this
    obtain ⟨_, _, h⟩ := (ha.paired.frontend f hf.2.1).resolve_left (by rwa [hback])
    rwa [hback] at h
  refine (hs.keep (P := fun C => C.seat (.chain .feRun) f q ∧ Told w f g b q' (A.fe f) C)
    (L := (· ∈ B.log)) hw ha (fun _ => id) ⟨hf, .nothing hb hrun hback rfl rfl⟩
    fun C D hw ha hr hL h => ?_).2
  have hseat := hr.seat hw ha hq hme (fun hm => hk (hL _ (hr.log hm))) h.1
  exact ⟨hseat, hr.toldStep hw ha h.1.2.1 hseat.2.1 h0 h.2⟩

/-! ### Backends that wait -/

lemma Rule.unclaimed (hr : Rule w A B) (hw : A.Wf) (ha : AInv A) (hb : A.own b = .chain (.be g))
    (hrun : (A.be b).feRunning = 0) (hno : ¬ A.taken b) : (B.be b).feRunning = 0 := by
  obtain hr | hr := hr
  · have hp := ha.paired.frontend
    have hz := hw.zero
    cases hr <;> (try exact hrun) <;> simp [update_apply, AFile.fresh, BeSlot.run] at * <;> grind
  · have hs := hr.sameQueues hw ha.housed.nameSlot
    rw [hs.be b (by simp [hb])]
    exact hrun

/-- A backend that waits does so until it is given away or removed. -/
lemma Steps.unclaimed (hs : Steps w A B) (hw : A.Wf) (ha : AInv A) (hq : w.live q) (h0 : q ≠ 0)
    (hk : .kill q .kill true ∉ B.log) (hb : A.serves g b q) (hrun : (A.be b).feRunning = 0) :
    (B.serves g b q ∧ Aged b A B) ∧ (B.be b).feRunning = 0 ∨ B.taken b ∨ .unlink b ∈ B.log := by
  refine hs.keep (P := fun C => (C.serves g b q ∧ Aged b A C) ∧ (C.be b).feRunning = 0 ∨ C.taken b ∨
    .unlink b ∈ C.log) (L := (· ∈ B.log)) hw ha (fun _ => id) (.inl ⟨⟨hb, id⟩, hrun⟩)
    fun C D hw ha hr hL h => ?_
  have hlog : C.taken b → D.taken b := fun ⟨g, f, h, sig, hm⟩ => ⟨g, f, h, sig, hr.log hm⟩
  rcases h with ⟨h, hrun⟩ | h | h
  · by_cases ht : C.taken b
    · exact .inr (.inl (hlog ht))
    · obtain h' | h' := hr.serves hw ha hq h0 (fun hm => hk (hL _ (hr.log hm))) h.1
      · exact .inl ⟨⟨h'.1, h'.2 ∘ h.2⟩, hr.unclaimed hw ha h.1.1 hrun ht⟩
      · exact .inr (.inr h'.2)
  · exact .inr (.inl (hlog h))
  · exact .inr (.inr (hr.log h))

end SpeedyCgi.TempFile
