import SpeedyCgi.TempFile.Keep

/-!
The functions of `speedy_backend.c` follow the rules.
-/

namespace SpeedyCgi.TempFile

open Function Lib.Wp

variable {α : Type} {e : Env} {w : Who} {A B C : AFile} {x n g f b s : SlotNum} {c : Chain} {q pid : Pid}

/-- `kill` finds the processes that are there. -/
structure Fits (e : Env) (w : Who) : Prop where
  who : w.self = e.self
  self : e.self ≠ 0
  zero : ¬ w.live 0
  alive : ∀ log p, w.live p → .kill p .kill true ∉ log → e.alive log p = true

lemma Fits.aside (h : Fits e w) : Fits e w.aside := ⟨h.who, h.self, h.zero, h.alive⟩

lemma Fits.meek (h : Fits e w) : Fits e w.meek := ⟨h.who, h.self, h.zero, h.alive⟩

lemma Fits.mute (h : Fits e w) : Fits e w.mute := ⟨h.who, h.self, h.zero, h.alive⟩

/-- One step of a program that has one outcome. -/
lemma runs_step {m : M α} {r : α} {Q : α → AFile → Prop}
    (hm : Runs m (fun r' B' => r' = r ∧ B' = B) A) (h : B.Wf → Q r B) : Runs m Q A :=
  runs_mono hm fun _ _ hw ⟨hr, hB⟩ => by
    subst hr hB
    exact h hw

/-- A program ends with a layout that is well formed. -/
lemma runs_end {m : M α} {Q : α → AFile → Prop} (h : Runs m (fun r B => B.Wf → Q r B) A) :
    Runs m Q A :=
  runs_mono h fun _ _ hw hq => hq hw

lemma Steps.slot (hr : SlotRule w A B) (hw : B.Wf) : Steps w A B := .single ⟨.slot hr, hw⟩
lemma Steps.group (hr : GroupRule w A B) (hw : B.Wf) : Steps w A B := .single ⟨.group hr, hw⟩

lemma Steps.gone (hs : Steps w A B) (h : A.gone w q) : B.gone w q := h.imp_right hs.log

lemma AFile.Wf.notes (hw : A.Wf) (evs : List Event) : (A.notes evs).Wf := { hw with }

lemma Steps.notes (hw : A.Wf) {evs : List Event} (h : ∀ ev ∈ evs, ev.quiet w.self) :
    Steps w A (A.notes evs) := by
  induction evs with
  | nil => exact .refl
  | cons ev evs ih =>
    refine (ih fun ev' h' => h ev' (by simp [h'])).tail ⟨.slot (.note ev (.inl (h ev (by simp)))), ?_⟩
    exact hw.notes (ev :: evs)

lemma AFile.notes_nil (A : AFile) : A.notes [] = A := rfl

/-! ### Signals -/

lemma runs_utilKill {sig : Sig} {Q : Bool → AFile → Prop} (hf : Fits e w)
    (h : ∀ ok evs, (∀ ev ∈ evs, ev = .kill pid sig ok ∧ pid ≠ w.self) →
      (pid = 0 ∧ ok = false ∨ pid = e.self ∧ ok = true ∨ .kill pid sig ok ∈ evs) →
      (ok = false → A.gone w pid ∧ pid ≠ e.self) → Q ok (A.notes evs)) :
    Runs (utilKill e pid sig) Q A := by
  unfold utilKill
  refine wpr_ite (fun h0 => wpr_pure ?_) fun h0 => wpr_ite (fun hs => wpr_pure ?_) fun hs => ?_
  · exact h false [] (by simp) (.inl ⟨h0, rfl⟩) fun _ => ⟨.inl (h0 ▸ hf.zero), h0 ▸ hf.self.symm⟩
  · exact h true [] (by simp) (.inr (.inl ⟨hs, rfl⟩)) (by simp)
  · intro s hr
    simp only [note, wp_bind, wp_get, wp_modify, wp_pure]
    refine ⟨A.notes [.kill pid sig (e.alive s.log pid)], { hr with log := by simp [hr.log] }, ?_⟩
    refine h _ _ (by simp [hf.who, hs]) (.inr (.inr (by simp))) fun hfalse => ⟨?_, hs⟩
    by_contra hg
    obtain ⟨h1, h2⟩ := not_or.mp hg
    have := hf.alive s.log pid (not_not.mp h1) (hr.log ▸ h2)
    simp [this] at hfalse

lemma quiet_of_kill {sig : Sig} {ok : Bool} {evs : List Event}
    (h : ∀ ev ∈ evs, ev = .kill pid sig ok ∧ pid ≠ w.self) (hsig : sig ≠ .kill) :
    ∀ ev ∈ evs, ev.quiet w.self := by
  intro ev hev
  obtain ⟨rfl, hne⟩ := h ev hev
  exact ⟨hne, hsig⟩

/-- A signal that changes nothing in the file. -/
lemma runs_kill {sig : Sig} {Q : Bool → AFile → Prop} (hf : Fits e w) (hw : A.Wf)
    (hsig : sig ≠ .kill) (h : ∀ ok evs, Steps w A (A.notes evs) → (ok = true → pid = e.self ∨ .kill pid sig true ∈ evs) →
      (ok = false → A.gone w pid ∧ pid ≠ e.self) → Q ok (A.notes evs)) :
    Runs (utilKill e pid sig) Q A :=
  runs_utilKill hf fun ok evs h1 h2 h3 => h ok evs (.notes hw (quiet_of_kill h1 hsig))
    (fun hok => by simpa [hok] using h2) h3

lemma runs_backendAlive {Q : Bool → AFile → Prop} (hfit : Fits e w) (hw : A.Wf)
    (hb : A.own b ≠ .out)
    (h : ∀ ok evs, Steps w A (A.notes evs) → (ok = false → A.gone w (A.be b).pid) →
      Q ok (A.notes evs)) : Runs (backendAlive e b) Q A :=
  wpr_bind (runs_getBe hb (runs_kill hfit hw (by simp) fun ok evs hs _ hno => h ok evs hs fun hf => (hno hf).1))

lemma getLastD_mem {l : List SlotNum} (h : l ≠ []) : l.getLastD 0 ∈ l := by
  cases l with
  | nil => exact absurd rfl h
  | cons x l =>
    rw [List.getLastD_cons]
    exact List.getLastD_mem_cons

/-! ### Freeing the slot of a frontend or a backend -/

/-- No list and no name belongs to the slot. -/
def AFile.bare (A : AFile) (x : SlotNum) : Prop :=
  (∀ c : Chain, c.owner = some x → A.lst c = []) ∧ ∀ m, A.own m ≠ .name x

lemma Housed.bareSlot (hh : Housed A) (hw : A.Wf) (hx : A.own x ≠ .chain .group) : A.bare x := by
  refine ⟨fun c hc => ?_, fun m hm => hx (hh.name m x hm)⟩
  by_contra hne
  obtain ⟨m, hm⟩ := List.exists_mem_of_ne_nil _ hne
  exact hx (hh.chain m c x ((hw.mem c m).mp hm) hc)

lemma AInv.bare (ha : AInv A) (hw : A.Wf) (hx : A.own x ≠ .chain .group) : A.bare x :=
  ha.housed.bareSlot hw hx

section
variable {Q : Unit → AFile → Prop}

lemma runs_freeLoose (hx : A.own x = .loose) (hb : A.bare x)
    (h : (A.release x).Wf → Q () (A.release x)) : Runs (slotFree x) Q A :=
  runs_step (runs_slotFree (.inl hx) hb.1 hb.2 ⟨rfl, rfl⟩) h

/-- Taking a slot off its list and freeing it, with events in between. -/
lemma runs_discard_notes {l : List Event} {m : M Unit} (hx : A.own x = .chain c) (hb : A.bare x)
    (hm : ∀ (A : AFile) (Q : Unit → AFile → Prop), Q () (A.notes l) → Runs m Q A)
    (h : ((A.notes l).discard x c).Wf → Q () ((A.notes l).discard x c)) :
    Runs (do slotRemove x c; m; slotFree x) Q A := by
  refine wpr_bind (runs_slotRemove hx (wpr_bind (hm _ _ ?_)))
  refine runs_freeLoose (by simp) ⟨fun c' hc' => ?_, fun m => ?_⟩ ?_
  · simp only [AFile.notes_lst, AFile.place_lst, update_apply]
    split
    · subst c'
      simp [hb.1 c hc']
    · exact hb.1 c' hc'
  · simp only [AFile.notes_own, AFile.place_own, update_apply]
    split
    · simp
    · exact hb.2 m
  · rw [show ((A.place x .loose c ((A.lst c).erase x)).notes l).release x =
      (A.notes l).discard x c by simp [AFile.place, AFile.notes, AFile.release, AFile.discard]]
    exact h

lemma runs_discard (hx : A.own x = .chain c) (hb : A.bare x)
    (h : (A.discard x c).Wf → Q () (A.discard x c)) :
    Runs (do slotRemove x c; slotFree x) Q A :=
  runs_discard_notes (m := pure ()) (l := []) hx hb (fun _ _ h => wpr_pure h) h

/-- The lists of backends, the pids in them and the group slots are untouched. -/
structure SameBes (A B : AFile) : Prop where
  lst : ∀ g, B.lst (.be g) = A.lst (.be g)
  pid : ∀ n, (B.be n).pid = (A.be n).pid
  gr : B.gr = A.gr

/-- Backend `b` of group `g` is removed, and the other backends are left alone. -/
structure Removed (g b : SlotNum) (A B : AFile) : Prop where
  groups : SameGroups A B
  gr : B.gr = A.gr
  pid : ∀ n, (B.be n).pid = (A.be n).pid
  be : ∀ n ≠ b, B.be n = A.be n
  lst : B.lst (.be g) = (A.lst (.be g)).erase b
  others : ∀ g' ≠ g, B.lst (.be g') = A.lst (.be g')
  unlink : .unlink b ∈ B.log
  own : B.own b = .free

namespace SameBes

lemma refl (A : AFile) : SameBes A A := ⟨fun _ => rfl, fun _ => rfl, rfl⟩

lemma trans (h : SameBes A B) (h' : SameBes B C) : SameBes A C :=
  ⟨fun g => (h'.lst g).trans (h.lst g), fun n => (h'.pid n).trans (h.pid n), h'.gr.trans h.gr⟩

lemma notes (A : AFile) (evs : List Event) : SameBes A (A.notes evs) := { refl A with }
lemma setFe (A : AFile) (n : SlotNum) (v : FeSlot) : SameBes A (A.setFe n v) := { refl A with }

lemma run (A : AFile) (b f : SlotNum) : SameBes A (A.setBe b ((A.be b).run f)) := by
  refine { refl A with pid := fun n => ?_ }
  simp only [AFile.setBe_be, update_apply]
  split
  · subst n; rfl
  · rfl

lemma discard (hc : ∀ g, c ≠ .be g) : SameBes A (A.discard x c) :=
  { refl A with lst := fun g => update_of_ne (hc g).symm .. }

end SameBes

/-- No slot has become loose. -/
def NoLoose (A B : AFile) : Prop := ∀ n, B.own n = .loose → A.own n = .loose

lemma NoLoose.refl (A : AFile) : NoLoose A A := fun _ => id

lemma NoLoose.trans (h : NoLoose A B) (h' : NoLoose B C) : NoLoose A C := fun n hn => h n (h' n hn)

lemma NoLoose.of_own {x : SlotNum} {p : Place} (h : B.own = update A.own x p) (hp : p ≠ .loose) :
    NoLoose A B := fun n hn => by
  rw [h] at hn
  exact (update_of hn hp).2

lemma Steps.noLoose (hs : Steps w.aside A B) (ha : AInv A) (hw : A.Wf) : NoLoose A B :=
  fun _ => hs.loose hw ha fun _ => id

lemma Steps.back (hs : Steps w.aside A B) : Steps w A B := hs.mono w.aside_le

/-! ### Frontends -/

lemma runs_frontendDispose (ha : AInv A) (hw : A.Wf) (hf : A.own f = .chain (.fe g))
    (hp : A.gone w (A.fe f).pid)
    (h : Steps w A (A.discard f (.fe g)) → Q () (A.discard f (.fe g))) :
    Runs (frontendDispose g f) Q A := by
  have hg := ha.housed.chain f _ g hf rfl
  refine runs_onlyIf (fun _ => wpr_bind (runs_slotCheck (by simp [hg]) ?_)) fun h0 => ?_
  · exact runs_discard hf (ha.bare hw (by simp [hf])) fun hw => h (.slot (.feDispose g f hf hp) hw)
  · simp [not_not.mp h0, hw.zero] at hf

/-- A running frontend that has its status, or is not there any more. -/
lemma runs_frontendRemoveRunning (w : Who) (ha : AInv A) (hw : A.Wf) (hf : A.own f = .chain .feRun)
    (hp : (A.fe f).backend = 0 ∧ w.me (A.fe f).pid ∨ A.gone w (A.fe f).pid)
    (h : ∀ B, Steps w A B → SameGroups A B → SameBes A B → B.lst .feRun = (A.lst .feRun).erase f →
      ((A.fe f).backend = 0 → B.be = A.be) → B.own = update A.own f .free → Q () B) :
    Runs (frontendRemoveRunning f) Q A := by
  have hbare := ha.bare hw (x := f) (by simp [hf])
  refine wpr_bind (runs_getFe (by simp [hf]) (wpr_bind (runs_onlyIf (fun hb0 => ?_) fun hb0 => ?_)))
  · obtain ⟨g, hb, hrun⟩ := (ha.paired.frontend f hf).resolve_left hb0
    have hp : A.gone w (A.fe f).pid := hp.resolve_left fun h => hb0 h.1
    refine wpr_bind (runs_getBe (by simp [hb]) (runs_onlyIf
      (fun _ => runs_modifyBe (by simp [hb]) ?_) fun hne => absurd hrun hne))
    refine runs_discard hf hbare fun hw => ?_
    have hr : SlotRule w A _ := .feGone f _ hf rfl hb0 hp
    exact h _ (.slot hr hw) hr.sameGroups ((SameBes.run A _ _).trans (.discard (by simp))) (by simp)
      (fun h0 => absurd h0 hb0) rfl
  · have hp := hp.imp_left And.right
    refine runs_discard hf hbare fun hw => ?_
    have hr : SlotRule w A _ := .feDone f hf (not_not.mp hb0) hp
    exact h _ (.slot hr hw) hr.sameGroups (.discard (by simp)) (by simp) (fun _ => rfl) rfl

/-! ### Backends -/

lemma BeSlot.run_self {v : BeSlot} (h : v.feRunning = f) : v.run f = v := by
  subst h
  rfl

/-- A backend reports, or is reported dead. -/
lemma runs_backendExited {sig : Bool} {val : ℕ} (hfit : Fits e w) (ha : AInv A) (hw : A.Wf)
    (hb : A.own b = .chain (.be g))
    (hp : (A.be b).feRunning ≠ b → w.me (A.be b).pid ∧ sig = false ∧ w.ran val ∨
      A.gone w (A.be b).pid ∧ (w.died (A.be b).pid sig val ∨
        sig = true ∧ val = 9 ∧ ∀ s v, ¬ w.died (A.be b).pid s v))
    (h : ∀ B, Steps w A B → SameGroups A B → SameBes A B →
      (B.be b).feRunning = (if (A.be b).feRunning = 0 then 0 else b) → (∀ n ≠ b, B.be n = A.be n) →
      NoLoose A B → Q () B) : Runs (backendExited e b sig val) Q A := by
  refine wpr_bind (runs_getBe (by simp [hb]) (runs_onlyIf (fun h0 => ?_) fun h0 => ?_))
  · refine wpr_bind (runs_modifyBe (by simp [hb]) (runs_onlyIf (fun hne => ?_) fun heq => ?_))
    · obtain ⟨hf, hback⟩ := ((ha.paired.backend g b hb).resolve_left h0).resolve_left hne
      refine wpr_bind (runs_step (runs_modifyFe (by simp [hf]) ⟨rfl, rfl⟩) ?_)
      generalize hC : AFile.setFe _ _ _ = C
      intro hw'
      have hr : SlotRule w A C := hC ▸ .report g b _ sig val hb rfl h0 hne (hp hne)
      have hsame : SameBes A C := hC ▸ (SameBes.run A b b).trans (.setFe ..)
      have hrun : (C.be b).feRunning = b := by simp [← hC]
      have hothers : ∀ n ≠ b, C.be n = A.be n := fun n hn => by simp [← hC, hn]
      have hfC : C.own (A.be b).feRunning = .chain .feRun := by simp [← hC, hf]
      have hback : (C.fe (A.be b).feRunning).backend = 0 := by simp [← hC]
      have hl : NoLoose A C := fun n hn => by simpa [← hC] using hn
      refine wpr_bind (runs_getFe (by simp [hfC]) (wpr_bind (runs_kill hfit hw'
        (by simp) fun ok evs hs hok hno => ?_)))
      have hs' := (Steps.slot hr hw').trans hs
      obtain ⟨ha', hw'⟩ := ha.steps hw hs'
      have hgrp : SameGroups A (C.notes evs) := hr.sameGroups.trans { SameGroups.refl C with }
      refine runs_onlyIf (fun hok => ?_) fun _ => ?_
      · refine runs_frontendRemoveRunning w ha' hw' hfC (.inr (hs.gone (hno hok).1))
          fun B hB hgrp' hbes _ hbe hown => ?_
        refine h B (hs'.trans hB) (hgrp.trans hgrp') ((hsame.trans (.notes ..)).trans hbes) ?_ ?_
          (hl.trans (.of_own hown (by simp)))
        · rw [hbe hback, if_neg h0]
          exact hrun
        · rw [hbe hback]
          exact hothers
      · exact h _ hs' hgrp (hsame.trans (.notes ..)) (by rw [if_neg h0]; exact hrun) hothers hl
    · -- nobody to report to
      rw [not_not] at heq
      have hsame : A.setBe b ((A.be b).run b) = A := by
        rw [BeSlot.run_self heq]
        simp [AFile.setBe]
      change Q () (A.setBe b ((A.be b).run b))
      rw [hsame]
      exact h A .refl (.refl A) (.refl A) (by rw [if_neg h0, heq]) (fun _ _ => rfl) (.refl A)
  · rw [not_not] at h0
    exact h A .refl (.refl A) (.refl A) (by simp [h0]) (fun _ _ => rfl) (.refl A)

/-- The record of a backend is removed. -/
lemma runs_backendDispose (hfit : Fits e w) (ha : AInv A) (hw : A.Wf)
    (hb : A.own b = .chain (.be g)) (hp : (A.be b).feRunning = 0 ∨ A.gone w (A.be b).pid ∧
      ((A.be b).feRunning = b ∨ ∀ s v, ¬ w.died (A.be b).pid s v))
    (h : ∀ B, Steps w A B → Removed g b A B → Q () B) : Runs (backendDispose e g b) Q A := by
  have hg := ha.housed.chain b _ g hb rfl
  have hrest : ∀ B, Steps w A B → SameGroups A B → SameBes A B →
      (B.be b).feRunning = 0 ∨ (B.be b).feRunning = b ∧ A.gone w (A.be b).pid →
      (∀ n ≠ b, B.be n = A.be n) →
      Runs (do slotRemove b (.be g); note (.unlink b); slotFree b) Q B := by
    intro B hs hgrp hbes hrun hothers
    obtain ⟨hb', hw'⟩ := ha.steps hw hs
    have hown : B.own b = .chain (.be g) := by
      rw [← hw'.mem, hbes.lst, hw.mem]
      exact hb
    refine runs_discard_notes (l := [.unlink b]) hown (hb'.bare hw' (by simp [hown]))
      (fun _ _ h => runs_note h) fun hw'' => ?_
    have hr : SlotRule w B ((B.note (.unlink b)).discard b (.be g)) :=
      .beDispose g b hown (hrun.imp_right fun h => ⟨h.1, by rw [hbes.pid]; exact hs.gone h.2⟩)
    refine h _ (hs.trans (Steps.slot hr hw'')) ⟨hgrp.trans hr.sameGroups, hbes.gr, hbes.pid, hothers,
      ?_, fun g' hne => ?_, by simp, by simp⟩
    · simp [hbes.lst]
    · simp [hbes.lst, hne]
  refine runs_onlyIf (fun _ => wpr_bind (runs_slotCheck (by simp [hg]) ?_)) fun h0 => ?_
  · refine wpr_bind (runs_getBe (by simp [hb]) (wpr_bind (runs_onlyIf (fun hne => ?_) fun h0 => ?_)))
    · obtain ⟨hgone, hdied⟩ := hp.resolve_left hne
      refine runs_backendExited hfit ha hw hb (fun hnb => .inr ⟨hgone, .inr ⟨rfl, rfl,
        hdied.resolve_left hnb⟩⟩) fun B hs hgrp hbes hrun hothers _ => ?_
      exact hrest B hs hgrp hbes (.inr ⟨by rw [hrun, if_neg hne], hgone⟩) hothers
    · exact hrest A .refl (.refl A) (.refl A) (.inl (not_not.mp h0)) fun _ _ => rfl
  · have hb0 : b ≠ 0 := by rintro rfl; simp [hw.zero] at hb
    have hg0 : g ≠ 0 := by rintro rfl; simp [hw.zero] at hg
    exact absurd ⟨hg0, hb0⟩ h0

lemma doSort_eq {s : St} (hs : Rep s A) {a b : SlotNum} (ha : A.own a ≠ .out) (hb : A.own b ≠ .out) :
    doSort a b s = .ok (sortKey (A.be a) (A.be b), s) := by
  have hread : ∀ n, A.own n ≠ .out → getBe n s = .ok (A.be n, s) := fun n hn => by
    rw [getBe, readAt_eq (hs.inRange hn), hs.be]
  simp only [doSort, bind, StateT.bind, Except.bind, hread a ha, hread b hb, sortKey]
  generalize (if (A.be b).feRunning ≠ 0 then (0 : Int) else 1) - _ = diff
  by_cases h0 : diff ≠ 0
  · rw [if_pos h0, if_pos h0]
    rfl
  · rw [if_neg h0, if_neg h0]
    rfl

/-- A backend puts itself on the wait list. -/
lemma runs_beWaitPut {m : ℕ} (hm : m ≠ 0) (hw : A.Wf) (hb : A.own b = .chain (.be g))
    (hg : A.own g ≠ .out) (hrun : (A.be b).feRunning = b) (hme : w.me (A.be b).pid)
    (hput : w.puts b) (hno : ∀ n, ¬ A.taken n) (hst : ∀ n ≠ b, w.stamp n < w.stamp b)
    (h : Steps w A ((A.setWaiting b m).reorder (.be g)
        ((A.setWaiting b m).sorted b ((A.lst (.be g)).erase b))) →
      Q () ((A.setWaiting b m).reorder (.be g)
        ((A.setWaiting b m).sorted b ((A.lst (.be g)).erase b)))) :
    Runs (beWaitPut g b) Q (A.setBe b { A.be b with maturity := m }) := by
  refine wpr_bind (runs_slotCheck hg (wpr_bind (runs_modifyBe (by simp [hb]) ?_)))
  generalize hC : AFile.setBe _ _ _ = C
  have hC : C = A.setWaiting b m := by simp [← hC, AFile.setWaiting, AFile.setBe]
  have hown : C.own b = .chain (.be g) := by simp [hC, hb]
  have hgC : C.live g := by
    have := hw.usable _ b ((hw.mem _ b).mpr hb) g rfl
    simpa [hC, AFile.live] using this
  refine wpr_bind (runs_slotRemove hown ?_)
  refine runs_end (runs_slotInsertSorted (d := fun y => sortKey (C.be b) (C.be y)) (by simp)
    (AFile.usable_place (by simp [AFile.live, hown]) (.inl rfl) ?_) rfl (fun s hs y hy => ?_) ?_)
  · rintro _ ⟨⟩
    exact hgC
  · have hy : A.own y = .chain (.be g) := by
      rw [← hw.mem]
      exact List.mem_of_mem_erase (by simpa [hC] using hy)
    refine doSort_eq hs (by simp) ?_
    simp only [AFile.place_own, update_apply]
    split
    · simp
    · simp [hC, hy]
  · rw [AFile.place_place hown]
    simp only [AFile.place_lst, update_self]
    rw [show C.lst (.be g) = A.lst (.be g) by simp [hC], hC]
    exact fun hw' => h (.slot (.waitPut g b m hm hb hrun hme hput hno hst) hw')

/-- The events are `SIGTERM`s to the backends of a list. -/
structure Termed (e : Env) (A : AFile) (l : List SlotNum) (evs : List Event) : Prop where
  only : ∀ ev ∈ evs, ∃ b ∈ l, ∃ ok, ev = .kill (A.be b).pid .term ok
  all : ∀ b ∈ l, (A.be b).pid ≠ 0 → (A.be b).pid ≠ e.self →
    ∃ ok, .kill (A.be b).pid .term ok ∈ evs

/-- The waiting backends in front of a list. -/
def AFile.waiting (A : AFile) (l : List SlotNum) : List SlotNum :=
  l.takeWhile fun b => (A.be b).feRunning = 0

/-- The signals to waiting backends. -/
lemma runs_removeBeWaitLoop (hfit : Fits e w) (hw : A.Wf) {i j : List SlotNum} {fuel : ℕ}
    (hl : A.lst (.be g) = i ++ j) (hfuel : j.length < fuel)
    (h : ∀ evs, Termed e A (A.waiting j) evs → Q () (A.notes evs)) :
    Runs (removeBeWaitLoop e fuel (j.headD 0)) Q A := by
  induction fuel generalizing A i j with
  | zero => exact absurd hfuel (Nat.not_lt_zero _)
  | succ fuel ih =>
    cases j with
    | nil =>
      exact wpr_ite (fun _ => wpr_pure (h [] ⟨by simp, by simp [AFile.waiting]⟩))
        fun h0 => absurd rfl h0
    | cons b j =>
      have hb := (hw.mem (.be g) b).mp (by simp [hl])
      refine wpr_ite (fun h0 => ?_) fun _ => ?_
      · obtain rfl : b = 0 := h0
        simp [hw.zero] at hb
      refine wpr_bind (runs_getBe (by simp [hb]) ?_)
      change Runs (if (A.be b).feRunning ≠ 0 then _ else _) Q A
      refine wpr_ite (fun h0 => ?_) fun h0 => ?_
      · exact wpr_pure (h [] ⟨by simp, by simp [AFile.waiting, h0]⟩)
      · have hwait : A.waiting (b :: j) = b :: A.waiting j := by
          simp [AFile.waiting, not_not.mp h0]
        refine wpr_bind (runs_slotNext hl (wpr_bind (runs_utilKill hfit fun ok evs hev hok hno => ?_)))
        refine ih (hw.notes evs) (i := i ++ [b]) (by simpa using hl)
          (Nat.lt_of_succ_lt_succ hfuel) fun evs' hev' => ?_
        have := h (evs' ++ evs) ⟨fun ev hmem => ?_, fun b' hb' h1 h2 => ?_⟩
        · simpa [AFile.notes] using this
        · rw [hwait]
          rcases List.mem_append.mp hmem with hm | hm
          · obtain ⟨b', hb', h⟩ := hev'.only ev hm
            exact ⟨b', List.mem_cons_of_mem _ hb', h⟩
          · exact ⟨b, List.mem_cons_self, ok, (hev ev hm).1⟩
        · rw [hwait] at hb'
          rcases List.mem_cons.mp hb' with rfl | hb'
          · obtain ⟨h0, -⟩ | ⟨h0, -⟩ | hm := hok
            · exact absurd h0 h1
            · exact absurd h0 h2
            · exact ⟨ok, List.mem_append_right _ hm⟩
          · obtain ⟨ok', hm⟩ := hev'.all b' hb' h1 h2
            exact ⟨ok', List.mem_append_left _ hm⟩

lemma runs_removeBeWait (hfit : Fits e w) (hw : A.Wf) (hg : A.live g)
    (h : ∀ evs, Termed e A (A.waiting (A.lst (.be g))) evs → Q () (A.notes evs)) :
    Runs (removeBeWait e g) Q A := by
  have hu : A.Usable (.be g) := by rintro _ ⟨⟩; exact hg
  refine wpr_bind (runs_slotCheck hg.1 (wpr_bind (runs_getHead hu (wpr_bind (runs_loopFuel ?_)))))
  exact runs_removeBeWaitLoop hfit hw (i := []) rfl (Nat.lt_succ_of_le (hw.length _)) h

end

section
variable {Q : SlotNum → AFile → Prop}

lemma runs_backendCreateSlot (hg : A.own g = .chain .group)
    (hmax : w.max = 0 ∨ (A.lst (.be g)).length < w.max) (hgrow : w.grows g)
    (h : ∀ b fl k, A.fresh b →
      Steps w A (((A.alloc b fl k).setBe b { feRunning := b }).place b (.chain (.be g)) (.be g)
        (A.lst (.be g) ++ [b])) →
      Q b (((A.alloc b fl k).setBe b { feRunning := b }).place b (.chain (.be g)) (.be g)
        (A.lst (.be g) ++ [b]))) : Runs (backendCreateSlot e g) Q A := by
  refine wpr_bind (runs_slotCheck (by simp [hg]) (wpr_bind (runs_slotAlloc fun b fl k h0 hown => ?_)))
  have hgb : g ≠ b := by rintro rfl; rcases hown with h | h <;> simp [h] at hg
  refine wpr_bind (runs_modifyBe (by simp) (wpr_bind (runs_end (runs_slotAppend (by simp) ?_ rfl
    fun hw' => wpr_pure ?_))))
  · rintro _ ⟨⟩
    simp [AFile.live, hgb, hg]
  · simp only [AFile.alloc_be, update_self, AFile.setBe_lst, AFile.alloc_lst] at hw' ⊢
    exact h b fl k ⟨h0, hown⟩ (.slot (.beNew g b fl k hg ⟨h0, hown⟩ hmax hgrow) hw')

end

/-! ### Counting backends -/

lemma runs_countBesLoop {Q : ℕ → AFile → Prop} (hw : A.Wf) {i j : List SlotNum} {fuel max k : ℕ}
    (hl : A.lst (.be g) = i ++ j) (hfuel : j.length < fuel) (hk : k ≤ max)
    (h : Q (min (k + j.length) max) A) : Runs (countBesLoop max fuel (j.headD 0) k) Q A := by
  induction fuel generalizing i j k with
  | zero => exact absurd hfuel (Nat.not_lt_zero _)
  | succ fuel ih =>
    cases j with
    | nil =>
      refine wpr_ite (fun h0 => absurd rfl h0.1) fun _ => wpr_pure ?_
      simpa [hk] using h
    | cons b j =>
      have hb := (hw.mem (.be g) b).mp (by simp [hl])
      refine wpr_ite (fun h0 => ?_) fun h0 => wpr_pure ?_
      · refine wpr_bind (runs_slotNext hl ?_)
        refine ih (i := i ++ [b]) (by simpa using hl) (Nat.lt_of_succ_lt_succ hfuel) h0.2 ?_
        rwa [List.length_cons, Nat.add_comm j.length, ← Nat.add_assoc] at h
      · have hb0 : b ≠ 0 := by rintro rfl; simp [hw.zero] at hb
        have hkm : ¬ k < max := fun hlt => h0 ⟨hb0, hlt⟩
        have : min (k + (b :: j).length) max = k := by
          rw [List.length_cons]
          omega
        rwa [this] at h

/-- The backends of a group are below the limit. -/
def below (max n : ℕ) : Bool := decide (max = 0 ∨ n < max)

lemma runs_belowMaxbe {Q : Bool → AFile → Prop} (hw : A.Wf) (hg : A.live g)
    (h : Q (below e.maxBackends (A.lst (.be g)).length) A) : Runs (belowMaxbe e g) Q A := by
  have hu : A.Usable (.be g) := by rintro _ ⟨⟩; exact hg
  refine wpr_ite (fun h0 => wpr_pure ?_) fun h0 => wpr_bind ?_
  · simpa [below, h0] using h
  · refine wpr_bind (runs_slotCheck hg.1 (wpr_bind (runs_getHead hu (wpr_bind (runs_loopFuel ?_)))))
    refine runs_countBesLoop hw (i := []) rfl (Nat.lt_succ_of_le (hw.length _)) (Nat.zero_le _)
      (wpr_pure ?_)
    have hmin : min (A.lst (.be g)).length e.maxBackends < e.maxBackends ↔
        (A.lst (.be g)).length < e.maxBackends := by omega
    simpa [below, h0, hmin] using h

end SpeedyCgi.TempFile
