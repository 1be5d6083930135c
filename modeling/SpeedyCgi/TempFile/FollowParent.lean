import SpeedyCgi.TempFile.BackendMain
import SpeedyCgi.TempFile.FollowScript
import SpeedyCgi.TempFile.Order

/-!
The sections of backends and of their parents follow the rules.
-/

namespace SpeedyCgi.TempFile

open Function Lib.Wp

variable {α : Type} {e : Env} {w : Who} {A B C : AFile} {x n g f b s : SlotNum} {c : Chain}
  {q pid : Pid} {v : ScrSlot}

/-! ### The backend -/

lemma runs_started {Q : Unit → AFile → Prop} (hfit : Fits e w) (hg : A.own g = .chain .group)
    (hgrown : A.grown e.self)
    (h : ∀ st, Steps w A (A.setGr g { A.gr g with beStarting := st }) →
      Q () (A.setGr g { A.gr g with beStarting := st })) : Runs (started e g) Q A := by
  refine wpr_bind (runs_getGr (by simp [hg]) (runs_onlyIf (fun hst => ?_) fun _ => ?_))
  · refine runs_step (runs_modifyGr (by simp [hg]) (.inl rfl) ⟨rfl, rfl⟩) fun hw' => h 0 ?_
    refine Steps.slot (.starting g 0 hg (.inl rfl) (.inr (.inr (.inr ?_)))) hw'
    rw [hfit.who]
    exact ⟨hst, hgrown⟩
  · have := h (A.gr g).beStarting
    rw [show ({ A.gr g with beStarting := (A.gr g).beStarting } : GrSlot) = A.gr g from rfl,
      AFile.setGr_self] at this
    exact this .refl

/-- Turn off that we are starting and wake up frontends. -/
lemma runs_startedSendsigs {α : Type} {r : α} {Q : α → AFile → Prop} (hfit : Fits e w) (ha : AInv A)
    (hw : A.Wf) (hg : A.own g = .chain .group) (hgrown : A.grown e.self)
    (h : ∀ B, Steps w.aside A B → B.be = A.be → (∀ g, B.lst (.be g) = A.lst (.be g)) → Q r B) :
    Runs (do
      started e g
      groupSendsigs e g
      return r) Q A := by
  refine wpr_bind (runs_started (w := w.aside) hfit.aside hg hgrown fun st hs => ?_)
  generalize hC : AFile.setGr _ _ _ = C at *
  obtain ⟨haC, hwC⟩ := ha.steps hw hs
  have hbe : C.be = A.be ∧ (∀ g, C.lst (.be g) = A.lst (.be g)) ∧ C.own = A.own := by simp [← hC]
  refine wpr_bind (runs_groupSendsigs hfit.aside haC hwC (by rw [hbe.2.2, hg]) fun B hB honly => wpr_pure ?_)
  exact h B (hs.trans hB) (honly.be.trans hbe.1) fun g => (honly.bes g).trans (hbe.2.1 g)

/-- A backend that has nothing to do waits for a frontend, if its group is valid. -/
lemma runs_perlWait {Q : Bool → AFile → Prop} {again : Bool} (hfit : Fits e w) (ha : AInv A)
    (hw : A.Wf) (hb : A.serves g b e.self) (hrun : (A.be b).feRunning = b) (hme : w.me e.self)
    (hput : w.puts b) (hst : ∀ n ≠ b, w.stamp n < w.stamp b) (hdist : Distinct A)
    (htaken : ∀ n, ¬ A.taken n) (hno : ¬ A.valid g → Q false A)
    (h : ∀ B, Steps w A B → B.serves g b e.self → (B.be b).feRunning = 0 → (B.be b).maturity ≠ 0 →
      NoLoose A B → Q true B) : Runs (perlWait e g b again) Q A := by
  have hg := ha.housed.chain b _ g hb.1 rfl
  refine wpr_bind (runs_groupIsvalid hw hg fun r hr => wpr_ite (fun hf => wpr_pure (hno ?_)) fun _ => ?_)
  · intro hv
    simp [hr.mpr hv] at hf
  refine wpr_bind (runs_modifyBe (by simp [hb.1]) (wpr_bind ?_))
  refine runs_beWaitPut (w := w) (by split <;> simp) hw hb.1 (by simp [hg]) hrun
    (by rw [hb.2]; exact hme) hput htaken hst ?_
  generalize hC : AFile.reorder _ _ _ = C
  intro hs
  obtain ⟨haC, hwC⟩ := ha.steps hw hs
  have hown : C.own = A.own := by simp [← hC]
  refine runs_startedSendsigs hfit haC hwC (by rw [hown, hg]) (fun n g' hn hp => ?_) fun B hB hbe hlst =>
    h B (hs.trans hB.back) ⟨?_, ?_⟩ ?_ ?_ fun n hn => ?_
  · rw [hown] at hn
    have hnb : n = b := by
      by_contra hne
      refine hne (hdist n b g' g hn hb.1 ?_ ?_)
      · simpa [← hC, hne, hb.2] using hp
      · rw [show (A.be n).pid = e.self by simpa [← hC, hne] using hp]
        exact hfit.self
    subst hnb
    simp only [← hC, AFile.reorder_be, AFile.setWaiting_be, update_self]
    split <;> simp
  · obtain ⟨-, hwB⟩ := haC.steps hwC hB
    rw [← hwB.mem, hlst, hwC.mem, hown, hb.1]
  · simp [hbe, ← hC, hb.2]
  · simp [hbe, ← hC]
  · simp only [hbe, ← hC, AFile.reorder_be, AFile.setWaiting_be, update_self]
    split <;> simp
  · rw [← hown]
    exact hB.noLoose haC hwC n hn

/-- After the accept. -/
lemma runs_perlAccepted {Q : Bool → AFile → Prop} (hfit : Fits e w) (ha : AInv A) (hw : A.Wf)
    (hg : A.own g = .chain .group) (hgrown : A.grown e.self) (hno : ¬ A.valid g → Q false A)
    (h : ∀ B, Steps w.aside A B → B.be = A.be → (∀ g, B.lst (.be g) = A.lst (.be g)) → Q true B) :
    Runs (perlAccepted e g) Q A := by
  refine wpr_bind (runs_groupIsvalid hw hg fun r hr => wpr_ite (fun hf => wpr_pure (hno ?_)) fun _ => ?_)
  · intro hv
    simp [hr.mpr hv] at hf
  · exact runs_startedSendsigs hfit ha hw hg hgrown h

lemma runs_perlLast {Q : Unit → AFile → Prop} (hfit : Fits e w) (ha : AInv A) (hw : A.Wf)
    (hg : A.own g = .chain .group) (h : ∀ B, Steps w A B → Q () B) : Runs (perlLast e g) Q A := by
  refine wpr_bind (runs_groupIsvalid hw hg fun _ _ => runs_onlyIf (fun _ => wpr_bind ?_) fun _ => h A .refl)
  exact runs_groupStartBe hfit ha hw hg (fun _ _ _ hs => wpr_pure (h _ hs)) fun B hB _ _ => wpr_pure (h B hB)

/-- From the end of a run to the next wait, or to the end of the backend. -/
lemma runs_perlNext {Q : Bool → AFile → Prop} {val : ℕ} {more orphan : Bool} (hfit : Fits e w)
    (ha : AInv A) (hw : A.Wf) (hk : A.unhurt w) (hlive : w.live e.self) (hb : A.serves g b e.self)
    (hrun : (A.be b).feRunning ≠ 0) (hme : w.me e.self) (hval : w.ran val)
    (hput : w.puts b) (hst : ∀ n ≠ b, w.stamp n < w.stamp b) (hdist : Distinct A)
    (htell : ∀ g f b h sig, ¬ w.tells (.assign g f b h sig)) (htaken : ∀ n, ¬ A.taken n)
    (hno : ∀ B, Steps w A B → (B.be b).feRunning = b → NoLoose A B → Q false B)
    (h : ∀ B, Steps w A B → B.serves g b e.self → (B.be b).feRunning = 0 → (B.be b).maturity ≠ 0 →
      NoLoose A B → Q true B) : Runs (perlNext e g b val more orphan) Q A := by
  refine wpr_bind (runs_backendExited hfit ha hw hb.1 (fun _ => .inl ⟨hb.2 ▸ hme, rfl, hval⟩)
    fun C hs hgr hbe hrunC _ hl => ?_)
  rw [if_neg hrun] at hrunC
  obtain ⟨haC, hwC⟩ := ha.steps hw hs
  have hbC : C.serves g b e.self := by
    refine ⟨?_, by rw [hbe.pid, hb.2]⟩
    rw [← hwC.mem, hbe.lst, hw.mem, hb.1]
  have htakenC : ∀ n, ¬ C.taken n := by
    intro n hn
    rw [AFile.taken_iff, hs.assigned htell, ← AFile.taken_iff] at hn
    exact htaken n hn
  refine wpr_ite (fun _ => wpr_ite (fun _ => wpr_pure (hno C hs hrunC hl)) fun _ => ?_) fun _ => ?_
  · refine runs_perlWait hfit haC hwC hbC hrunC hme hput hst ?_ htakenC (fun _ => hno C hs hrunC hl)
      fun B hB hbB hrunB hmat hlB => h B (hs.trans hB) hbB hrunB hmat (hl.trans hlB)
    intro n n' g g' hn hn' heq h0
    have hown : ∀ n g, C.own n = .chain (.be g) → A.own n = .chain (.be g) := fun n g hn => by
      rwa [← hwC.mem, hbe.lst, hw.mem] at hn
    rw [hbe.pid, hbe.pid] at heq
    exact hdist n n' g g' (hown n g hn) (hown n' g' hn') heq (by rwa [← hbe.pid])
  · refine wpr_bind (runs_perlLast (w := w.aside) hfit.aside haC hwC (haC.housed.chain b _ g hbC.1 rfl)
      fun B hB => wpr_pure (hno B (hs.trans hB.back) ?_ (hl.trans (hB.noLoose haC hwC))))
    have hk' : B.unhurt w := hB.back.unhurt (hs.unhurt hk)
    have hb0 : b ≠ 0 := by
      rintro rfl
      simpa [hwC.zero] using hbC.1
    have := (hB.busy hwC haC hlive hfit.self id (hfit.who ▸ hk') hbC (by rwa [hrunC])).2
    rwa [hrunC, or_self] at this

/-! ### Children -/

lemma runs_findPidLoop {Q : SlotNum → AFile → Prop} (hw : A.Wf) {i j : List SlotNum} {fuel : ℕ}
    (hl : A.lst (.be g) = i ++ j) (hfuel : j.length < fuel)
    (h0 : (∀ b ∈ j, (A.be b).pid ≠ pid) → Q 0 A)
    (h1 : ∀ b, A.own b = .chain (.be g) → (A.be b).pid = pid →
      j.erase b = j.eraseP (fun b => (A.be b).pid = pid) → Q b A) :
    Runs (findPidLoop pid fuel (j.headD 0)) Q A := by
  induction fuel generalizing i j with
  | zero => exact absurd hfuel (Nat.not_lt_zero _)
  | succ fuel ih =>
    cases j with
    | nil => exact wpr_ite (fun _ => wpr_pure (h0 (by simp))) fun h => absurd rfl h
    | cons b j =>
      have hmem : b ∈ A.lst (.be g) := by simp [hl]
      have hb := (hw.mem _ b).mp hmem
      refine wpr_ite (fun h => absurd h (hw.ne_zero hmem)) fun _ => ?_
      refine wpr_bind (runs_getBe (by simp [hb]) (wpr_ite (fun hp => wpr_pure (h1 b hb hp ?_)) fun hp => ?_))
      · rw [List.erase_cons_head, List.eraseP_cons_of_pos (by simpa using hp)]
      · refine wpr_bind (runs_slotNext hl (ih (i := i ++ [b]) (by simpa using hl)
          (Nat.lt_of_succ_lt_succ hfuel) (fun h => h0 ?_) fun b' hb' hp' he => h1 b' hb' hp' ?_))
        · exact List.forall_mem_cons.mpr ⟨hp, h⟩
        · have hne : b ≠ b' := by
            rintro rfl
            exact hp hp'
          rw [List.erase_cons_tail (by simpa using hne), List.eraseP_cons_of_neg (by simpa using hp), he]

/-- The backends left when the first one with the pid of each child is removed. -/
def collected (pid : SlotNum → Pid) (l : List SlotNum) (cs : List Child) : List SlotNum :=
  cs.foldl (fun l c => l.eraseP fun b => pid b = c.pid) l

/-- Only children are removed that `waitpid` has found. -/
structure Collected (g : SlotNum) (cs : List Child) (A B : AFile) : Prop where
  groups : SameGroups A B
  gr : B.gr = A.gr
  pid : ∀ n, (B.be n).pid = (A.be n).pid
  lst : B.lst (.be g) = collected (fun b => (A.be b).pid) (A.lst (.be g)) cs
  others : ∀ g' ≠ g, B.lst (.be g') = A.lst (.be g')

lemma runs_collectChild {Q : Unit → AFile → Prop} {cs : List Child} (hfit : Fits e w) (ha : AInv A)
    (hw : A.Wf) (hg : A.own g = .chain .group)
    (hcs : ∀ c ∈ cs, ¬ w.live c.pid ∧ w.died c.pid c.onSig c.val)
    (h : ∀ B, Steps w A B → Collected g cs A B → Q () B) :
    Runs (collectChild e g cs) Q A := by
  induction cs generalizing A with
  | nil => exact wpr_pure (h A .refl ⟨.refl A, rfl, fun _ => rfl, rfl, fun _ _ => rfl⟩)
  | cons c cs ih =>
    have hu := AFile.Wf.usable_of hg (c := .be g) rfl
    obtain ⟨hlive, hdied⟩ := hcs c (by simp)
    have hcs := fun c' hc' => hcs c' (List.mem_cons_of_mem c hc')
    -- the other children
    have hrest : ∀ C, Steps w A C → SameGroups A C → C.gr = A.gr →
        (∀ n, (C.be n).pid = (A.be n).pid) →
        C.lst (.be g) = (A.lst (.be g)).eraseP (fun b => (A.be b).pid = c.pid) →
        (∀ g' ≠ g, C.lst (.be g') = A.lst (.be g')) → Runs (collectChild e g cs) Q C := by
      intro C hs hgrp hgr hpid hl hothers
      obtain ⟨haC, hwC⟩ := ha.steps hw hs
      refine ih haC hwC ((hgrp.own g _ (by simp)).mpr hg) hcs fun B hB hcol => ?_
      refine h B (hs.trans hB) ⟨hgrp.trans hcol.groups, hcol.gr.trans hgr,
        fun n => (hcol.pid n).trans (hpid n), ?_, fun g' hne => (hcol.others g' hne).trans (hothers g' hne)⟩
      rw [hcol.lst, hl]
      simp only [collected, List.foldl_cons, hpid]
    refine wpr_bind (wpr_bind (runs_slotCheck (by simp [hg]) (wpr_bind (runs_getHead hu (wpr_bind
      (runs_loopFuel ?_))))))
    refine runs_findPidLoop hw (i := []) rfl (Nat.lt_succ_of_le (hw.length _)) (fun hno => ?_)
      fun b hb hp he => ?_
    · refine wpr_bind (runs_onlyIf (fun h0 => absurd rfl h0) fun _ => ?_)
      refine hrest A .refl (.refl A) rfl (fun _ => rfl) ?_ fun _ _ => rfl
      rw [List.eraseP_of_forall_not]
      exact fun b hb => by simpa using hno b hb
    have hgone : A.gone w (A.be b).pid := .inl (by rwa [hp])
    refine wpr_bind (runs_onlyIf (fun _ => wpr_bind ?_) fun h0 => ?_)
    · refine runs_backendExited hfit ha hw hb (fun _ => .inr ⟨hgone, .inl (by rwa [hp])⟩)
        fun C hs hgrp hbes hrun _ _ => ?_
      obtain ⟨haC, hwC⟩ := ha.steps hw hs
      have hbC : C.own b = .chain (.be g) := by rw [← hwC.mem, hbes.lst, hw.mem, hb]
      refine runs_backendDispose hfit haC hwC hbC ?_ fun D hsD hrem => ?_
      · rw [hrun]
        split
        · exact .inl rfl
        · exact .inr ⟨by rw [hbes.pid]; exact hs.gone hgone, .inl rfl⟩
      refine hrest D (hs.trans hsD) (hgrp.trans hrem.groups) (hrem.gr.trans hbes.gr)
        (fun n => (hrem.pid n).trans (hbes.pid n)) ?_ fun g' hne => (hrem.others g' hne).trans (hbes.lst g')
      rw [hrem.lst, hbes.lst, he]
    · have hb0 : b = 0 := not_not.mp h0
      simp [hb0, hw.zero] at hb

/-- Who may be left in `be_starting` by `start_child`. -/
def Discharged (e : Env) (g : SlotNum) (A B : AFile) : Prop :=
  (B.gr g).beStarting = e.self → (A.gr g).beStarting = e.self ∧
    below e.maxBackends (A.lst (.be g)).length = false

/-- The child started in a section serves its group, without anybody to report to, and is the one
that is starting. -/
def Born (g : SlotNum) (A B : AFile) : Prop := ∀ p g' b, .fork p g' b ∈ B.log →
  .fork p g' b ∈ A.log ∨ g' = g ∧ B.serves g b p ∧ (B.be b).feRunning = b ∧
    (B.be b).maturity = 0 ∧ (B.gr g).beStarting = p

section
variable {Q : Unit → AFile → Prop}

/-- One child is started, unless another one is starting or there are enough of them. -/
lemma runs_startChild (hfit : Fits e w) (ha : AInv A) (hw : A.Wf) (hg : A.own g = .chain .group)
    (htell : ∀ p b, e.fork = some p → w.tells (.fork p g b)) (hmax : w.max = e.maxBackends)
    (hgrow : w.grows g) (hself : A.noBe e.self) (hfork : ∀ p, e.fork = some p → p ≠ 0 ∧ p ≠ e.self ∧ A.noBe p)
    (h : ∀ B, Steps w A B → Discharged e g A B → Born g A B → Q () B) :
    Runs (startChild e g) Q A := by
  have hfit' : Fits e w.mute := hfit.mute
  have hself0 := hfit.self
  refine wpr_bind (runs_groupBeStarting hfit' hw hg fun r evs hr hev => ?_)
  generalize hC : AFile.setGr _ _ _ = C
  intro hs
  obtain ⟨haC, hwC⟩ := ha.steps hw hs
  have hCA : C.own = A.own ∧ C.lst = A.lst ∧ (C.gr g).beStarting = r ∧ C.be = A.be := by simp [← hC]
  obtain ⟨hown, hlst, hst, hCbe⟩ := hCA
  have hgC : C.own g = .chain .group := by rw [hown, hg]
  refine wpr_ite (fun hne => wpr_pure (h C (hs.mono w.mute_le) (fun heq => ?_) fun p g' b hm => ?_))
    fun hmine => ?_
  · exact absurd (hst.symm.trans heq) hne.2
  · exact .inl (hs.quiet trivial hm)
  refine wpr_bind (runs_belowMaxbe hwC (AFile.live_of hgC) (wpr_ite (fun hno => wpr_pure
    (h C (hs.mono w.mute_le) (fun heq => ?_) fun p g' b hm => .inl (hs.quiet trivial hm))) fun hyes => ?_))
  · have hr : r = (A.gr g).beStarting := (hr.resolve_left fun h => hself0 (by rw [← heq, hst, h.1])).1
    exact ⟨by rw [← hr, ← hst, heq], by rwa [hlst] at hno⟩
  have hbelow : w.mute.max = 0 ∨ (C.lst (.be g)).length < w.mute.max := by
    rw [Who.mute_max, hmax]
    by_contra hno
    exact hyes (by simpa [below] using hno)
  refine wpr_bind (runs_backendCreateSlot (w := w.mute) hgC hbelow hgrow fun b fl k hfree => ?_)
  generalize hD : AFile.place _ _ _ _ _ = D
  intro hsD
  obtain ⟨haD, hwD⟩ := haC.steps hwC hsD
  have hsAD : Steps w.mute A D := hs.trans hsD
  have hgb : g ≠ b := hfree.ne (AFile.live_of hgC)
  have hDb : D.own b = .chain (.be g) ∧ D.be b = { feRunning := b } ∧ D.own g = .chain .group ∧
      (D.gr g).beStarting = r ∧ ∀ n ≠ b, D.own n = A.own n ∧ D.be n = A.be n := by
    simp +contextual [← hD, hgb, hst, hown, hCbe, hg]
  obtain ⟨hbD, hbe, hgD, hstD, hothers⟩ := hDb
  have hnoD : ∀ p, p ≠ 0 → A.noBe p → D.noBe p := by
    intro p hp hno n g' hn
    rcases eq_or_ne n b with rfl | hne
    · rw [hbe]
      exact hp.symm
    · rw [(hothers n hne).2]
      exact hno n g' (by rw [← (hothers n hne).1, hn])
  -- whoever was starting does not mind
  have hhold : r = 0 ∨ r = e.self ∧ D.grown e.self := by
    rcases eq_or_ne r 0 with h0 | h0
    · exact .inl h0
    · refine .inr ⟨by_contra fun hne => hmine ⟨h0, hne⟩, fun n g' hn hp => ?_⟩
      exact absurd hp (hnoD e.self hself0 hself n g' hn)
  cases hfk : e.fork with
  | none =>
    refine wpr_bind (runs_step (runs_modifyGr (by simp [hgD]) (.inl rfl) ⟨rfl, rfl⟩) ?_)
    generalize hE : AFile.setGr _ _ _ = E
    intro hwE
    have hr : SlotRule w.mute D E := by
      refine hE ▸ .starting g 0 hgD (.inl rfl) (hhold.imp (fun h => by rw [hstD, h]) fun h => ?_)
      rw [Who.mute_self, hfit.who]
      exact .inr (.inr ⟨hstD.trans h.1, h.2⟩)
    have hsE : Steps w.mute A E := hsAD.trans (Steps.slot hr hwE)
    obtain ⟨haE, -⟩ := ha.steps hw hsE
    refine runs_backendDispose (w := w.mute) hfit' haE hwE (by simp [← hE, hbD])
      (.inr ⟨.inl ?_, .inl ?_⟩) fun F hsF hrem => ?_
    · rw [← hE]
      simpa [hbe] using hfit.zero
    · simp [← hE, hbe]
    · have hsF : Steps w.mute A F := hsE.trans hsF
      refine h F (hsF.mono w.mute_le) (fun heq => ?_) fun p g' b' hm => .inl (hsF.quiet trivial hm)
      rw [hrem.gr, ← hE] at heq
      exact absurd (by simpa using heq.symm) hself0
  | some p =>
    obtain ⟨hp0, hpself, hnop⟩ := hfork p hfk
    refine wpr_bind (runs_note (wpr_bind (runs_step (runs_modifyGr (by simp [hgD]) (.inl rfl) ⟨rfl, rfl⟩)
      fun hwE => runs_step (runs_modifyBe (by simp [hbD]) ⟨rfl, rfl⟩) fun hwF => ?_)))
    have hr1 : SlotRule w D _ := .note (.fork p g b) (.inr ⟨trivial, id, htell p b hfk⟩)
    have hr2 : SlotRule w (D.note (.fork p g b))
        ((D.note (.fork p g b)).setGr g { D.gr g with beStarting := p }) := by
      refine .starting g p hgD (.inr (.inr (.inr (.inr (.inl ⟨g, b, by simp⟩)))))
        (hhold.imp (fun h => hstD.trans h) fun h => .inr (.inr ?_))
      rw [hfit.who]
      exact ⟨hstD.trans h.1, h.2⟩
    have hr3 : SlotRule w _ _ := .bePid (A := (D.note (.fork p g b)).setGr g
      { D.gr g with beStarting := p }) g b p hbD (by simp [hbe]) (by simp) (by simp) (hnoD p hp0 hnop)
    refine h _ ((hsAD.mono w.mute_le).trans ((Steps.slot hr1 (hwD.notes [_])).trans
      ((Steps.slot hr2 hwE).trans (Steps.slot hr3 hwF)))) (fun heq => ?_) fun p' g' b' hm => ?_
    · exact absurd (by simpa using heq) hpself
    · rcases List.mem_cons.mp (show Event.fork p' g' b' ∈ Event.fork p g b :: D.log from hm) with heq | hm
      · cases heq
        exact .inr ⟨rfl, ⟨hbD, by simp⟩, by simp [hbe], by simp [hbe], by simp⟩
      · exact .inl (hsAD.quiet trivial hm)

/-! ### Other groups -/

/-- Backends of other groups than `g` are left alone. -/
structure CleanedUp (g : SlotNum) (A B : AFile) : Prop where
  groups : SameGroups A B
  gr : B.gr = A.gr
  others : ∀ g' ≠ g, B.lst (.be g') = A.lst (.be g')
  be : ∀ n ∉ A.lst (.be g), B.be n = A.be n

lemma runs_cleanupBes (hfit : Fits e w) (ha : AInv A) (hw : A.Wf) {i j : List SlotNum} {fuel : ℕ}
    (hl : A.lst (.be g) = i ++ j) (hfuel : j.length < fuel)
    (hdied : ∀ B, Steps w A B → ∀ p s v, w.died p s v → B.noBe p)
    (h : ∀ B, Steps w A B → CleanedUp g A B → Q () B) :
    Runs (cleanupBes e g fuel (j.headD 0)) Q A := by
  induction fuel generalizing A i j with
  | zero => exact absurd hfuel (Nat.not_lt_zero _)
  | succ fuel ih =>
    cases j with
    | nil =>
      refine wpr_ite (fun _ => wpr_pure (h A .refl ⟨.refl A, rfl, fun _ _ => rfl, fun _ _ => rfl⟩))
        fun h => absurd rfl h
    | cons b j =>
      rw [List.headD_cons]
      have hmem : b ∈ A.lst (.be g) := by simp [hl]
      have hb := (hw.mem _ b).mp hmem
      refine wpr_ite (fun h => absurd h (hw.ne_zero hmem)) fun _ => ?_
      refine wpr_bind (runs_slotNext hl (wpr_bind (runs_backendAlive hfit hw (by simp [hb])
        fun ok evs hs hno => ?_)))
      obtain ⟨ha', hw'⟩ := ha.steps hw hs
      have hsame : SameGroups A (A.notes evs) := (OnlyFes.notes A evs).groups
      refine wpr_bind (runs_onlyIf (fun hf => ?_) fun _ => ?_)
      · refine runs_backendDispose hfit ha' hw' hb (.inr ⟨hs.gone (hno hf), .inr fun s v hd => ?_⟩)
          fun B hsB hrem => ?_
        · exact hdied _ hs _ s v hd b g hb rfl
        obtain ⟨haB, hwB⟩ := ha'.steps hw' hsB
        have hnot : b ∉ i := by
          have := hw.nodup (.be g)
          rw [hl, List.nodup_append] at this
          exact fun hm => this.2.2 b hm b (by simp) rfl
        refine ih haB hwB (i := i) (j := j) ?_ (Nat.lt_of_succ_lt_succ hfuel)
          (fun C hsC => hdied C ((hs.trans hsB).trans hsC)) fun C hsC hcl =>
          h C ((hs.trans hsB).trans hsC) ⟨(hsame.trans hrem.groups).trans hcl.groups,
            hcl.gr.trans hrem.gr, fun g' hne => (hcl.others g' hne).trans (hrem.others g' hne),
            fun n hn => ?_⟩
        · rw [hrem.lst, AFile.notes_lst, hl, List.erase_append_right _ hnot, List.erase_cons_head]
        · have hnb : n ≠ b := fun heq => hn (heq ▸ hmem)
          refine (hcl.be n fun hm => hn ?_).trans (hrem.be n hnb)
          rw [hrem.lst] at hm
          exact List.mem_of_mem_erase hm
      · refine ih ha' hw' (i := i ++ [b]) (j := j) (by simpa using hl) (Nat.lt_of_succ_lt_succ hfuel)
          (fun C hsC => hdied C (hs.trans hsC)) fun C hsC hcl =>
            h C (hs.trans hsC) ⟨hsame.trans hcl.groups, hcl.gr, hcl.others, hcl.be⟩

/-- The backends of group `g` are left alone. -/
structure Apart (g : SlotNum) (A B : AFile) : Prop where
  starting : (B.gr g).beStarting = (A.gr g).beStarting
  lst : B.lst (.be g) = A.lst (.be g)
  be : ∀ n ∈ A.lst (.be g), B.be n = A.be n

lemma Apart.trans (h : Apart g A B) (h' : Apart g B C) : Apart g A C :=
  ⟨h'.starting.trans h.starting, h'.lst.trans h.lst, fun n hn =>
    (h'.be n (h.lst ▸ hn)).trans (h.be n hn)⟩

lemma SameQueues.apart (h : SameQueues A B) (hw : A.Wf)
    (hst : (B.gr g).beStarting = (A.gr g).beStarting) : Apart g A B :=
  ⟨hst, h.lst _ (by simp), fun n hn => h.be n (by simp [(hw.mem _ n).mp hn])⟩

/-- The group in front is cleaned up if its parent is gone. -/
lemma runs_doCleanup (hfit : Fits e w) (ha : AInv A) (hw : A.Wf) (hg : A.own g = .chain .group)
    (hdied : ∀ B, Steps w A B → ∀ p s v, w.died p s v → B.noBe p)
    (h : ∀ B, Steps w A B → Apart g A B → Q () B) : Runs (doCleanup e g) Q A := by
  -- the group in front
  have hgroup : ∀ g', A.own g' = .chain .group → g' ≠ g → Runs (doCleanupGroup e g') Q A := by
    intro g' hg' hne
    refine wpr_bind (runs_groupParentSig (by simp) hfit ha hw hg' (fun evs _ _ hs => ?_)
      fun B hs horph _ => ?_)
    · exact runs_onlyIf (fun h => absurd h (by simp)) fun _ => h _ hs ⟨rfl, rfl, fun _ _ => rfl⟩
    obtain ⟨haB, hwB⟩ := ha.steps hw hs
    have hAB : Apart g A B := horph.queues.apart hw (horph.starting g)
    refine runs_onlyIf (fun _ => wpr_bind ?_) fun h => absurd rfl h
    refine runs_groupInvalidate hfit haB hwB horph.own (fun _ => ?_) fun evs hv => absurd hv horph.stale
    have hu := AFile.Wf.usable_of horph.own (c := .be g') rfl
    refine wpr_bind (runs_slotCheck (by simp [horph.own]) (wpr_bind (runs_getHead hu (wpr_bind
      (runs_loopFuel (wpr_bind ?_))))))
    refine runs_cleanupBes hfit haB hwB (i := []) rfl (Nat.lt_succ_of_le (hwB.length _))
      (fun C hsC => hdied C (hs.trans hsC)) fun C hsC hcl => ?_
    obtain ⟨haC, hwC⟩ := haB.steps hwB hsC
    have hAC : Apart g A C := by
      refine hAB.trans ⟨by rw [hcl.gr], hcl.others g hne.symm, fun n hn => hcl.be n fun hn' => ?_⟩
      have h1 := (hwB.mem _ n).mp hn
      rw [(hwB.mem _ n).mp hn'] at h1
      simp [hne] at h1
    refine runs_groupCleanup hfit haC hwC ((hcl.groups.own g' _ (by simp)).mpr horph.own) (fun h0 => ?_)
      (fun _ => h C (hs.trans hsC) hAC) fun D _ _ hsD hq _ _ hgrD => ?_
    · rw [hcl.gr, horph.parent] at h0
      exact absurd h0.symm hfit.self
    · exact h D ((hs.trans hsC).trans hsD) (hAC.trans (hq.apart hwC (by rw [hgrD g hne.symm])))
  have hmem := (hw.mem _ g).mpr hg
  obtain ⟨i, j, hl⟩ := List.append_of_mem hmem
  have hend : ∀ prev, (prev ≠ 0 → prev ∈ A.lst .group) →
      Runs (onlyIf (prev ≠ 0 ∧ prev ≠ g) (doCleanupGroup e prev)) Q A := by
    intro prev hprev
    refine runs_onlyIf (fun hc => ?_) fun _ => h A .refl ⟨rfl, rfl, fun _ _ => rfl⟩
    exact hgroup prev ((hw.mem _ prev).mp (hprev hc.1)) hc.2
  refine wpr_bind (runs_slotPrev hl (wpr_bind (wpr_ite (fun _ => ?_) fun hne => wpr_pure ?_)))
  · refine runs_getTail (by rintro _ ⟨⟩) rfl (hend _ fun h0 => getLastD_mem ?_)
    exact List.ne_nil_of_mem hmem
  · refine hend _ fun _ => ?_
    have hcons : i ≠ [] := fun h => hne (by simp [h])
    rw [hl]
    exact List.mem_append_left _ (getLastD_mem hcons)

end

/-! ### Whole sections -/

/-- The section is that of a backend parent. -/
structure Leads (e : Env) (w : Who) : Prop extends Fits e w where
  live : w.live e.self
  boss : w.boss e.self
  heads : w.heads e.self
  fork : ∀ p g b, w.tells (.fork p g b) ↔ e.fork = some p
  max : w.max = e.maxBackends

lemma Leads.growing (h : Leads e w) (P : SlotNum → Prop) : Leads e (w.growing P) :=
  { who := h.who, self := h.self, zero := h.zero, alive := h.alive, live := h.live, boss := h.boss
    heads := h.heads, fork := h.fork, max := h.max }

/-- What a parent knows of pids: it has no backend record itself, and a new child has a new pid. -/
structure Pids (e : Env) (A : AFile) : Prop where
  self : A.noBe e.self
  child : ∀ p, e.fork = some p → p ≠ 0 ∧ p ≠ e.self ∧ A.noBe p

lemma Pids.steps (h : Pids e A) (hfit : Fits e w) (hw : A.Wf) (ha : AInv A) (hs : Steps w A B)
    (hlog : ∀ p g b, .fork p g b ∉ A.log) (htell : ∀ p g b, ¬ w.tells (.fork p g b)) : Pids e B where
  self := hs.noBe hw ha hfit.self (hlog _) (htell _) h.self
  child p hp := by
    obtain ⟨h0, hne, hno⟩ := h.child p hp
    exact ⟨h0, hne, hs.noBe hw ha h0 (hlog _) (htell _) hno⟩

lemma Steps.steady (hs : Steps w.meek A B) (hl : Leads e w) (hw : A.Wf) (ha : AInv A)
    (hk : A.unhurt w) (hg : A.own g = .chain .group) (hp : (A.gr g).beParent = e.self) :
    B.own g = .chain .group ∧ (B.gr g).beParent = e.self := by
  have hk' : B.unhurt w := Steps.unhurt (w := w.meek) hs hk
  refine Steps.leads hs hw ha hl.live hl.self id ?_ hg hp
  exact hl.who ▸ hk'

/-- A parent takes a group. -/
lemma runs_parentTake {Q : Option SlotNum → AFile → Prop} (hl : Leads e w) (hgrow : w.grows g) (ha : AInv A)
    (hw : A.Wf) (hk : A.unhurt w) (hg : A.own g = .chain .group)
    (hp : (A.gr g).beParent = 0 ∨ (A.gr g).beParent = e.self) (hpids : Pids e A)
    (hlog : ∀ p g b, .fork p g b ∉ A.log)
    (h : ∀ B, Steps w A B → B.own g = .chain .group → (B.gr g).beParent = e.self → Born g A B →
      Q (some g) B) : Runs (do
        modifyGr g fun s => { s with beParent := e.self }
        startChild e g
        return some g) Q A := by
  have hfit := hl.toFits
  refine wpr_bind (runs_step (runs_modifyGr (by simp [hg]) (.inl rfl) ⟨rfl, rfl⟩) ?_)
  generalize hE : AFile.setGr _ _ _ = E
  intro hwE
  have hr : SlotRule w.mute A E := hE ▸ .parentMe g e.self hg hl.heads hp
  have hsE : Steps w.mute A E := Steps.slot hr hwE
  obtain ⟨haE, -⟩ := ha.steps hw hsE
  have hpE : Pids e E := hpids.steps hfit.mute hw ha hsE hlog fun _ _ _ => id
  have hEg : E.own g = .chain .group ∧ (E.gr g).beParent = e.self := by simp [← hE, hg]
  have hkE : E.unhurt w := (hsE.mono w.mute_le).unhurt hk
  refine wpr_bind (runs_startChild (w := w.meek) hfit.meek haE hwE hEg.1
    (fun p b hp => (hl.fork p g b).mpr hp) hl.max hgrow hpE.self hpE.child fun B hB _ hborn => wpr_pure ?_)
  obtain ⟨hBg, hBp⟩ := hB.steady hl hwE haE hkE hEg.1 hEg.2
  refine h B ((hsE.mono w.mute_le).trans (hB.mono w.meek_le)) hBg hBp fun p g' b hm => ?_
  exact (hborn p g' b hm).imp_left fun hm => hsE.quiet trivial hm

/-- The first section of a parent. Only the group that it takes gets a new backend. -/
lemma runs_parentInit {Q : Option SlotNum → AFile → Prop} (hl : Leads e w) (ha : AInv A) (hw : A.Wf)
    (hk : A.unhurt w) (hpids : Pids e A) (hlog : ∀ p g b, .fork p g b ∉ A.log)
    (hno : ∀ B, Steps (w.growing fun _ => False).meek.mute A B → Q none B)
    (h : ∀ g B, Steps (w.growing (· = g)) A B → B.own g = .chain .group → (B.gr g).beParent = e.self →
      Born g A B → Q (some g) B) : Runs (parentInit e) Q A := by
  have hfit := (hl.growing fun _ => False).toFits
  refine wpr_bind (runs_scriptFind hfit.meek.mute ha hw fun C g hs _ hfound _ _ => ?_)
  obtain ⟨haC, hwC⟩ := ha.steps hw hs
  have hg := hfound.own
  -- the group is ours
  have hrest : ∀ D, Steps (w.growing fun _ => False).meek.mute A D → D.own g = .chain .group →
      (D.gr g).beParent = 0 ∨ (D.gr g).beParent = e.self → Runs (do
        modifyGr g fun s => { s with beParent := e.self }
        startChild e g
        return some g) Q D := by
    intro D hsD hgD hp
    obtain ⟨haD, hwD⟩ := ha.steps hw hsD
    have hle : (w.growing fun _ => False).meek.mute.Le (w.growing (· = g)).meek.mute :=
      Who.growing_le (w.growing (· = g)).meek.mute fun _ => False.elim
    have hAD : Steps (w.growing (· = g)) A D :=
      ((hsD.mono hle).mono (Who.mute_le _)).mono (Who.meek_le _)
    have hquiet : ∀ p g b, .fork p g b ∉ D.log := fun p g b hm =>
      hlog p g b (Steps.quiet (w := (w.growing fun _ => False).meek) hsD trivial hm)
    refine runs_parentTake (hl.growing (· = g)) rfl haD hwD (hAD.unhurt hk) hgD hp
      (hpids.steps hfit.meek.mute hw ha hsD hlog fun _ _ _ => id) hquiet fun B hB hBg hBp hborn => ?_
    refine h g B (hAD.trans hB) hBg hBp fun p g' b hm => ?_
    exact (hborn p g' b hm).imp_left fun hm => absurd hm (hquiet p g' b)
  refine wpr_bind (runs_getGr (by simp [hg]) (wpr_bind (wpr_ite (fun hp => ?_) fun hp => wpr_pure ?_)))
  · refine runs_groupStartBe hfit.meek.mute haC hwC hg (fun evs _ _ hsD => ?_) fun D hsD horph _ => ?_
    · exact wpr_ite (fun _ => wpr_pure (hno _ (hs.trans hsD))) fun h => absurd rfl h
    · refine wpr_ite (fun h => absurd h (by simp)) fun _ => hrest D (hs.trans hsD) horph.own (.inl horph.parent)
  · refine wpr_ite (fun h => absurd h (by simp)) fun _ => hrest C hs hg ?_
    by_contra hne
    obtain ⟨h0, h1⟩ := not_or.mp hne
    exact hp ⟨h0, h1⟩

lemma collected_sublist (pid : SlotNum → Pid) (l : List SlotNum) (cs : List Child) :
    (collected pid l cs).Sublist l := by
  induction cs generalizing l with
  | nil => exact List.Sublist.refl l
  | cons c cs ih => exact (ih _).trans List.eraseP_sublist

/-- A backend that is alone with the pid of a child is removed. -/
lemma not_mem_collected {pid : SlotNum → Pid} {l : List SlotNum} {cs : List Child} {c : Child}
    (hnd : l.Nodup) (hc : c ∈ cs) (hb : pid b = c.pid)
    (hone : ∀ n ∈ l, pid n = c.pid → n = b) : b ∉ collected pid l cs := by
  induction cs generalizing l with
  | nil => simp at hc
  | cons c' cs ih =>
    have hnd' : (l.eraseP fun b => pid b = c'.pid).Nodup := hnd.sublist List.eraseP_sublist
    rcases List.mem_cons.mp hc with rfl | hc
    · intro hm
      have hm' := (collected_sublist pid _ cs).subset hm
      obtain ⟨n, l₁, l₂, -, hn, hl, he⟩ :=
        List.exists_of_eraseP (p := fun b => decide (pid b = c.pid)) (List.mem_of_mem_eraseP hm')
          (by simpa using hb)
      obtain rfl : n = b := hone n (by simp [hl]) (by simpa using hn)
      have hm' : n ∈ l₁ ++ l₂ := he ▸ hm'
      rw [hl] at hnd
      exact (List.nodup_middle.mp hnd).notMem hm'
    · exact ih hnd' hc fun n hn hp => hone n (List.mem_of_mem_eraseP hn) hp

/-- The pids of the children that were collected are not those of backends any more. -/
lemma Collected.noBe {cs : List Child} (h : Collected g cs A B) (hw : A.Wf) (hwB : B.Wf)
    (hdist : Distinct A) {c : Child} (hc : c ∈ cs) (h0 : c.pid ≠ 0)
    (hin : ∀ b g', A.own b = .chain (.be g') → (A.be b).pid = c.pid → g' = g) : B.noBe c.pid := by
  intro b g' hb hp
  have hmem := (hwB.mem _ b).mpr hb
  rw [h.pid] at hp
  rcases eq_or_ne g' g with rfl | hne
  · rw [h.lst] at hmem
    have hA := (hw.mem _ b).mp ((collected_sublist _ _ cs).subset hmem)
    refine not_mem_collected (hw.nodup _) hc hp (fun n hn hpn => ?_) hmem
    exact hdist n b g' g' ((hw.mem _ n).mp hn) hA (hpn.trans hp.symm) (by rwa [hpn])
  · rw [h.others g' hne] at hmem
    exact hne (hin b g' ((hw.mem _ b).mp hmem) hp)

/-- The children that a parent collects are its own and not the one it starts. -/
structure Children (e : Env) (w : Who) (g : SlotNum) (cs : List Child) (A : AFile) : Prop where
  gone : ∀ c ∈ cs, ¬ w.live c.pid ∧ w.died c.pid c.onSig c.val
  died : ∀ p s v, w.died p s v → ∃ c ∈ cs, c.pid = p
  mine : ∀ c ∈ cs, ∀ b g', A.own b = .chain (.be g') → (A.be b).pid = c.pid → g' = g
  pid : ∀ c ∈ cs, c.pid ≠ 0 ∧ e.fork ≠ some c.pid

/-- What is true when a parent waits for signals again. -/
structure Waited (e : Env) (g : SlotNum) (cs : List Child) (usr1 : Bool) (A B : AFile) : Prop where
  own : B.own g = .chain .group
  parent : (B.gr g).beParent = e.self
  valid : B.valid g → A.valid g
  born : ∀ p g' b, .fork p g' b ∈ B.log → g' = g ∧ B.serves g b p ∧ (B.be b).feRunning = b ∧
    (B.be b).maturity = 0 ∧ (B.gr g).beStarting = p
  starting : (B.gr g).beStarting = e.self → (A.gr g).beStarting = e.self ∧
    (usr1 = true → A.valid g → below e.maxBackends
      (collected (fun b => (A.be b).pid) (A.lst (.be g)) cs).length = false)

/-- One round of the loop. -/
lemma runs_parentIteration {Q : Bool → AFile → Prop} {usr1 alrm : Bool} {cs : List Child}
    (hl : Leads e w) (hgrow : w.grows g) (ha : AInv A) (hw : A.Wf) (hk : A.unhurt w)
    (hg : A.own g = .chain .group) (hp : (A.gr g).beParent = e.self) (hpids : Pids e A) (hdist : Distinct A)
    (hcs : Children e w g cs A) (hlog : ∀ p g b, .fork p g b ∉ A.log)
    (hend : ∀ B, Steps w A B → (∀ c ∈ cs, B.noBe c.pid) → (∀ p g b, .fork p g b ∉ B.log) → Q true B)
    (h : ∀ B, Steps w.meek A B → (∀ c ∈ cs, B.noBe c.pid) → Waited e g cs usr1 A B → Q false B) :
    Runs (parentIteration e g usr1 alrm cs) Q A := by
  have hfit := hl.toFits
  refine wpr_bind (runs_collectChild hfit.meek.mute ha hw hg hcs.gone fun C hs hcol => ?_)
  obtain ⟨haC, hwC⟩ := ha.steps hw hs
  have hgC : C.own g = .chain .group := (hcol.groups.own g _ (by simp)).mpr hg
  have hlogC : ∀ p g b, .fork p g b ∉ C.log := fun p g b hm =>
    hlog p g b (Steps.quiet (w := w.meek) hs trivial hm)
  have hnoC : ∀ c ∈ cs, C.noBe c.pid := fun c hc =>
    hcol.noBe hw hwC hdist hc (hcs.pid c hc).1 (hcs.mine c hc)
  have hno : ∀ B, Steps w.meek C B → ∀ c ∈ cs, B.noBe c.pid := fun B hsB c hc =>
    hsB.noBe hwC haC (hcs.pid c hc).1 (hlogC _)
      (fun g b ht => (hcs.pid c hc).2 ((hl.fork _ g b).mp ht)) (hnoC c hc)
  -- what is left to do once a child has been started, or not
  have hrest : ∀ D, Steps w.meek C D → Born g C D → ((D.gr g).beStarting = e.self →
      (A.gr g).beStarting = e.self ∧ (usr1 = true → A.valid g → below e.maxBackends
        (collected (fun b => (A.be b).pid) (A.lst (.be g)) cs).length = false)) → Runs (do
        doCleanup e g
        slotCheck g
        let haveChildren ← getHead (.be g)
        if alrm = true ∧ haveChildren = 0 then do
          groupCleanup e g
          return true
        else return false) Q D := by
    intro D hsD hborn hst
    obtain ⟨haD, hwD⟩ := haC.steps hwC hsD
    have hAD : Steps w.meek A D := (Steps.mono w.meek.mute_le hs).trans hsD
    obtain ⟨hgD, hpD⟩ := hAD.steady hl hw ha hk hg hp
    refine wpr_bind (runs_doCleanup hfit.meek.mute haD hwD hgD (fun B hsB p s v hd => ?_)
      fun E hsE hap => ?_)
    · obtain ⟨c, hc, rfl⟩ := hcs.died p s v hd
      exact hno B (hsD.trans (Steps.mono w.meek.mute_le hsB)) c hc
    have hDE : Steps w.meek D E := Steps.mono w.meek.mute_le hsE
    have hAE : Steps w.meek A E := hAD.trans hDE
    obtain ⟨haE, hwE⟩ := haD.steps hwD hsE
    obtain ⟨hgE, hpE⟩ := hAE.steady hl hw ha hk hg hp
    have hbornE : ∀ p g' b, .fork p g' b ∈ E.log → g' = g ∧ E.serves g b p ∧
        (E.be b).feRunning = b ∧ (E.be b).maturity = 0 ∧ (E.gr g).beStarting = p := by
      intro p g' b hm
      obtain ⟨rfl, hserves, hrun, hmat, hpst⟩ :=
        (hborn p g' b (Steps.quiet (w := w.meek) hsE trivial hm)).resolve_left (hlogC p g' b)
      have hmem := (hwD.mem _ b).mpr hserves.1
      have hbe := hap.be b hmem
      exact ⟨rfl, ⟨by rw [← hwE.mem, hap.lst]; exact hmem, by rw [hbe, hserves.2]⟩,
        by rw [hbe, hrun], by rw [hbe, hmat], by rw [hap.starting, hpst]⟩
    refine wpr_bind (runs_slotCheck (by simp [hgE]) (wpr_bind (runs_getHead (AFile.Wf.usable_of hgE rfl)
      (wpr_ite (fun hend' => wpr_bind ?_) fun _ => wpr_pure ?_))))
    swap
    · have hkE : E.unhurt w := Steps.unhurt (w := w.meek) hAE hk
      rw [AFile.unhurt, hl.who] at hkE
      exact h E hAE (hno E (hsD.trans hDE)) ⟨hgE, hpE, hAE.valid hw ha hl.live hl.self id hkE hg hp,
        hbornE, fun h => hst (hap.starting ▸ h)⟩
    -- there are no children left, so none has been started either
    have hnil := hwE.head_eq_zero.mp hend'.2
    have hnofork : ∀ p g b, .fork p g b ∉ E.log := by
      intro p g' b hm
      obtain ⟨rfl, hserves, -⟩ := hbornE p g' b hm
      have := (hwE.mem _ b).mpr hserves.1
      simp [hnil] at this
    have hdone : ∀ F, Steps w.mute E F → Q true F := fun F hsF =>
      hend F ((hAE.mono w.meek_le).trans (hsF.mono w.mute_le))
        (fun c hc => hsF.noBe hwE haE (hcs.pid c hc).1 (hnofork _) (fun _ _ => id)
          (hno E (hsD.trans hDE) c hc))
        fun p g b hm => hnofork p g b (hsF.quiet trivial hm)
    exact runs_groupCleanup hfit.mute haE hwE hgE (fun _ => hl.boss) (fun _ => wpr_pure (hdone E .refl))
      fun F _ _ hsF _ _ _ _ => wpr_pure (hdone F hsF)
  refine wpr_bind (runs_groupIsvalid hwC hgC fun r hr => wpr_bind (runs_onlyIf (fun hv => ?_) fun hv => ?_))
  · have hpC : Pids e C := hpids.steps hfit.meek.mute hw ha hs hlog fun _ _ _ => id
    refine runs_startChild hfit.meek haC hwC hgC (fun p b hp => (hl.fork p g b).mpr hp) hl.max hgrow
      hpC.self hpC.child fun D hsD hdis hborn => hrest D hsD hborn fun heq => ?_
    obtain ⟨h1, h2⟩ := hdis heq
    rw [hcol.gr] at h1
    exact ⟨h1, fun _ _ => by rwa [hcol.lst] at h2⟩
  · refine hrest C .refl (fun p g' b hm => .inl hm) fun heq => ?_
    rw [hcol.gr] at heq
    refine ⟨heq, fun h1 h2 => absurd ⟨hr.mpr (hcol.groups.valid.mpr h2), h1⟩ hv⟩

end SpeedyCgi.TempFile
