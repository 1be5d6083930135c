import SpeedyCgi.TempFile.FollowScript

/-!
The functions of `speedy_frontend.c` follow the rules.

A section of a frontend is made of parts in which it does nothing for itself, and which therefore
leave its own slot alone as they do those of all frontends that are there, and of the steps in
which it moves its own slot.
-/

namespace SpeedyCgi.TempFile

open Function Lib.Wp

variable {α : Type} {e : Env} {w : Who} {A B C : AFile} {x n g f b s : SlotNum} {c : Chain}
  {q pid : Pid} {p : Place} {v : ScrSlot}

/-- The section is that of a frontend. -/
structure Acts (e : Env) (w : Who) : Prop extends Fits e w where
  live : w.live e.self
  me : w.me e.self
  boss : w.boss e.self
  spawn : ∀ pid, e.spawn.child = some pid → w.tells (.spawn pid)
  died : ∀ p sig val, ¬ w.died p sig val

lemma Acts.hush (h : Acts e w) : Acts e w.hush :=
  { h with spawn := fun pid hp => ⟨trivial, h.spawn pid hp⟩ }

lemma Steps.own (hs : Steps w.aside A B) (hact : Acts e w) (ha : AInv A) (hw : A.Wf)
    (hk : A.unhurt w) (h : A.seat p f e.self) : B.seat p f e.self := by
  have hk' : B.unhurt w := Steps.unhurt (w := w.aside) hs hk
  exact hs.seat hw ha hact.live id (hact.who ▸ hk') h

lemma Steps.ownWaits (hs : Steps w.aside A B) (hact : Acts e w) (ha : AInv A) (hw : A.Wf)
    (hk : A.unhurt w) (h : A.Waits g f e.self v) : B.Waits g f e.self v := by
  have hk' : B.unhurt w := Steps.unhurt (w := w.aside) hs hk
  exact hs.waits hw ha hact.live id (hact.who ▸ hk') h

lemma Steps.ownKept (hs : Steps w.aside A B) (hact : Acts e w) (ha : AInv A) (hw : A.Wf)
    (hk : A.unhurt w) (h : A.seat (.chain (.fe g)) f e.self) (hfree : .free g ∈ B.log) :
    .free g ∈ A.log := by
  have hk' : B.unhurt w := Steps.unhurt (w := w.aside) hs hk
  exact hs.kept hw ha hact.live id (hact.who ▸ hk') h hfree

/-! ### Running frontends -/

/-- A frontend looks for its exit status. What happens until it has found out is nothing it does
for itself. -/
lemma runs_frontendCollectStatus {Q : Option (Bool × ℕ) → AFile → Prop} (hact : Acts e w)
    (ha : AInv A) (hw : A.Wf) (hk : A.unhurt w) (hf : A.seat (.chain .feRun) f e.self)
    (h : ∀ C, Steps w.aside A C → C.seat (.chain .feRun) f e.self → (C.fe f).backend ≠ 0 → Q none C)
    (h' : ∀ C B, Steps w.aside A C → C.seat (.chain .feRun) f e.self → (C.fe f).backend = 0 →
      Steps w C B → B.own = update C.own f .free →
      Q (some ((C.fe f).exitOnSig, (C.fe f).exitVal)) B) :
    Runs (frontendCollectStatus e f) Q A := by
  -- the second half, whatever happened in the first
  have hend : ∀ C, Steps w.aside A C → Runs (do
      let fslot ← getFe f
      if fslot.backend = 0 then do
        frontendRemoveRunning f
        return some (fslot.exitOnSig, fslot.exitVal)
      else return none) Q C := by
    intro C hs
    obtain ⟨ha', hw'⟩ := ha.steps hw hs
    have hseat := hs.own hact ha hw hk hf
    refine wpr_bind (runs_getFe (by simp [hseat.2.1]) (wpr_ite (fun h0 => ?_) fun h0 => wpr_pure ?_))
    · refine wpr_bind (runs_frontendRemoveRunning w ha' hw' hseat.2.1 (.inl ⟨h0, ?_⟩)
        fun B hB _ _ _ _ hfree => wpr_pure ?_)
      · rw [hseat.2.2]
        exact hact.me
      · exact h' C B hs hseat h0 hB hfree
    · exact h C hs hseat h0
  refine wpr_bind (runs_getFe (by simp [hf.2.1]) (wpr_bind (runs_onlyIf (fun hb0 => ?_) fun _ => ?_)))
  · obtain ⟨g, hb, -⟩ := (ha.paired.frontend f hf.2.1).resolve_left hb0
    refine wpr_bind (runs_backendAlive hact.aside hw (by simp [hb]) fun ok evs hs hno => ?_)
    obtain ⟨ha', hw'⟩ := ha.steps hw hs
    refine runs_onlyIf (fun hfalse => ?_) fun _ => hend _ hs
    refine runs_backendExited hact.aside ha' hw' hb
      (fun _ => .inr ⟨hs.gone (hno hfalse), .inr ⟨rfl, rfl, hact.died _⟩⟩)
      fun B hB _ _ _ _ _ => hend B (hs.trans hB)
  · exact hend A .refl

lemma runs_cleanRunningLoop {Q : Unit → AFile → Prop} (hfit : Fits e w) (ha : AInv A) (hw : A.Wf)
    {fuel : ℕ} (hfuel : (A.lst .feRun).length < fuel) (h : ∀ B, Steps w A B → Q () B) :
    Runs (cleanRunningLoop e fuel) Q A := by
  induction fuel generalizing A with
  | zero => exact absurd hfuel (Nat.not_lt_zero _)
  | succ fuel ih =>
    refine wpr_bind (runs_getTail (by rintro _ ⟨⟩) rfl (wpr_ite (fun _ => wpr_pure (h A .refl)) fun h0 => ?_))
    have hmem : (A.lst .feRun).getLastD 0 ∈ A.lst .feRun :=
      getLastD_mem fun hnil => h0 (by simp [hnil])
    have hf := (hw.mem _ _).mp hmem
    refine wpr_bind (runs_getFe (by rw [hf]; simp) (wpr_bind (runs_kill hfit hw (by simp)
      fun ok evs hs _ hno => ?_)))
    obtain ⟨ha', hw'⟩ := ha.steps hw hs
    refine wpr_ite (fun _ => wpr_pure (h _ hs)) fun hfalse => wpr_bind ?_
    refine runs_frontendRemoveRunning w ha' hw' hf (.inr (hs.gone (hno (by simpa using hfalse)).1))
      fun B hB _ _ hl _ _ => ?_
    obtain ⟨ha'', hw''⟩ := ha.steps hw (hs.trans hB)
    refine ih ha'' hw'' ?_ fun C hC => h C ((hs.trans hB).trans hC)
    rw [hl, AFile.notes_lst, List.length_erase_of_mem hmem]
    have := List.length_pos_of_mem hmem
    omega

lemma runs_frontendCleanRunning {Q : Unit → AFile → Prop} (hfit : Fits e w) (ha : AInv A)
    (hw : A.Wf) (h : ∀ B, Steps w A B → Q () B) : Runs (frontendCleanRunning e) Q A :=
  wpr_bind (runs_loopFuel (runs_cleanRunningLoop hfit ha hw (Nat.lt_succ_of_le (hw.length _)) h))

/-! ### The frontend in front -/

section
variable {Q : SlotNum × SlotNum → AFile → Prop} {i j : List SlotNum} {fuel : ℕ} {t : SlotNum}

/-- One step of `fe_prev` to the next group, or from the last group to the first. -/
lemma runs_fePrevStep {g' : SlotNum} (hw : A.Wf) (hl : A.lst .group = i ++ g :: j)
    (hg' : g' = j.headD ((i ++ g :: j).headD 0))
    (h0 : A.lst (.fe g') = [] → Runs (fePrevLoop fuel g') Q A)
    (h1 : ∀ f, A.own f = .chain (.fe g') → Q (g', f) A) : Runs (fePrevLoop (fuel + 1) g) Q A := by
  obtain ⟨hmem, hlast, hnext⟩ := hw.nextGroup hl hg'
  have hown := (hw.mem _ g').mp hmem
  have hpick : ∀ Q : SlotNum → AFile → Prop, Q g' A →
      Runs (if j.headD 0 = 0 then getHead .group else pure (j.headD 0)) Q A := fun Q hq =>
    wpr_ite (fun hj => runs_getHead (by rintro _ ⟨⟩) (by rwa [hlast hj])) fun hj =>
      wpr_pure (by rwa [hnext hj])
  refine wpr_bind (runs_slotNext hl (wpr_bind (hpick _ ?_)))
  refine wpr_ite (fun h => absurd h (hw.ne_zero hmem)) fun _ => ?_
  refine wpr_bind (runs_slotCheck (by simp [hown]) (wpr_bind
    (runs_getTail (AFile.Wf.usable_of hown rfl) rfl (wpr_ite (fun hnil => h0 ?_) fun hne => wpr_pure ?_))))
  · by_contra hcons
    exact hw.ne_zero (getLastD_mem hcons) hnil
  · have hcons : A.lst (.fe g') ≠ [] := fun h => hne (by simp [h])
    exact h1 _ ((hw.mem _ _).mp (getLastD_mem hcons))

/-- A group with frontends comes later in the list. -/
lemma runs_fePrevLoop_ahead (hw : A.Wf) (hl : A.lst .group = i ++ g :: j) (ht : t ∈ j)
    (hfe : A.lst (.fe t) ≠ []) (hfuel : j.length ≤ fuel)
    (h : ∀ g' f', A.own f' = .chain (.fe g') → Q (g', f') A) : Runs (fePrevLoop fuel g) Q A := by
  induction j generalizing i g fuel with
  | nil => simp at ht
  | cons g' j ih =>
    obtain ⟨fuel, rfl⟩ : ∃ k, fuel = k + 1 := ⟨fuel - 1, by simp at hfuel; omega⟩
    refine runs_fePrevStep hw hl rfl (fun hnil => ?_) fun f' hf' => h g' f' hf'
    have hne : t ≠ g' := by
      rintro rfl
      exact hfe hnil
    exact ih (i := i ++ [g]) (by simpa using hl) (List.mem_of_ne_of_mem hne ht)
      (Nat.le_of_succ_le_succ hfuel)

/-- A group with frontends comes before or after the end of the list. -/
lemma runs_fePrevLoop (hw : A.Wf) (hl : A.lst .group = i ++ g :: j) (ht : t ∈ A.lst .group)
    (hfe : A.lst (.fe t) ≠ []) (hfuel : j.length + (A.lst .group).length ≤ fuel)
    (h : ∀ g' f', A.own f' = .chain (.fe g') → Q (g', f') A) : Runs (fePrevLoop fuel g) Q A := by
  induction j generalizing i g fuel with
  | nil =>
    obtain ⟨g', l, hl'⟩ : ∃ g' l, i ++ [g] = g' :: l := by
      cases i with
      | nil => exact ⟨g, [], rfl⟩
      | cons x l => exact ⟨x, l ++ [g], rfl⟩
    rw [hl, hl'] at hfuel ht
    obtain ⟨fuel, rfl⟩ : ∃ k, fuel = k + 1 := ⟨fuel - 1, by simp at hfuel; omega⟩
    refine runs_fePrevStep hw hl (show g' = _ by simp [hl']) (fun hnil => ?_) fun f' hf' => h g' f' hf'
    have hne : t ≠ g' := by
      rintro rfl
      exact hfe hnil
    exact runs_fePrevLoop_ahead (i := []) hw (hl.trans hl') (List.mem_of_ne_of_mem hne ht) hfe
      (by simp at hfuel; omega) h
  | cons g' j ih =>
    obtain ⟨fuel, rfl⟩ : ∃ k, fuel = k + 1 := ⟨fuel - 1, by simp at hfuel; omega⟩
    refine runs_fePrevStep hw hl rfl (fun _ => ?_) fun f' hf' => h g' f' hf'
    exact ih (i := i ++ [g]) (by simpa using hl) (by simp at hfuel; omega)

/-- There is always a frontend in front, at worst the same one. -/
lemma runs_fePrev (ha : AInv A) (hw : A.Wf) (hf : A.own f = .chain (.fe g))
    (h : ∀ g' f', A.own f' = .chain (.fe g') → Q (g', f') A) : Runs (fePrev g f) Q A := by
  have hmem := (hw.mem _ f).mpr hf
  obtain ⟨i, j, hl⟩ := List.append_of_mem hmem
  refine wpr_bind (runs_slotPrev hl (wpr_ite (fun hp => wpr_pure ?_) fun _ => ?_))
  · have hne : i ≠ [] := fun h => hp (by simp [h])
    exact h g _ ((hw.mem _ _).mp (by rw [hl]; exact List.mem_append_left _ (getLastD_mem hne)))
  · have hg := (hw.mem _ g).mpr (ha.housed.chain f _ g hf rfl)
    obtain ⟨k₁, k₂, hk⟩ := List.append_of_mem hg
    refine wpr_bind (runs_loopFuel (runs_fePrevLoop hw hk hg (List.ne_nil_of_mem hmem) ?_ h))
    have := hw.length .group
    have : k₂.length ≤ (A.lst .group).length := by simp [hk]; omega
    omega

end

section
variable {Q : Unit → AFile → Prop}

/-- Dead frontends in front are removed; `l` has all the frontends in the queues. -/
lemma runs_checkPrevLoop (hfit : Fits e w) (hboss : w.boss e.self) (ha : AInv A) (hw : A.Wf)
    {l : List SlotNum} {fuel : ℕ} (hl : ∀ n g, A.own n = .chain (.fe g) → n ∈ l)
    (hfuel : l.length < fuel) (hf : A.own f = .chain (.fe g)) (h : ∀ B, Steps w A B → Q () B) :
    Runs (checkPrevLoop e fuel g f) Q A := by
  induction fuel generalizing A g f l with
  | zero => exact absurd hfuel (Nat.not_lt_zero _)
  | succ fuel ih =>
    refine wpr_bind (runs_getFe (by simp [hf]) (wpr_bind (runs_kill hfit hw (by simp) fun ok evs hs _ hno => ?_)))
    obtain ⟨ha', hw'⟩ := ha.steps hw hs
    refine wpr_ite (fun _ => wpr_pure (h _ hs)) fun hfalse => ?_
    have hgone := hs.gone (hno (by simpa using hfalse)).1
    refine wpr_bind (runs_fePrev ha' hw' hf fun g' f' hf' => wpr_bind
      (runs_frontendDispose ha' hw' hf hgone fun hs' => ?_))
    obtain ⟨ha'', hw''⟩ := ha'.steps hw' hs'
    have hg : ((A.notes evs).discard f (.fe g)).own g = .chain .group := by
      have hg := ha.housed.chain f _ g hf rfl
      have hne : g ≠ f := by
        rintro rfl
        simp [hf] at hg
      simp [hne, hg]
    -- what is left to do once the frontend is off its queue
    have hrest : ∀ C, Steps w A C → SameQueues ((A.notes evs).discard f (.fe g)) C →
        Runs (if f' = f then pure () else checkPrevLoop e fuel g' f') Q C := by
      intro C hsC hq
      obtain ⟨haC, hwC⟩ := ha.steps hw hsC
      refine wpr_ite (fun _ => wpr_pure (h C hsC)) fun hne => ?_
      have hlC : ∀ n g, C.own n = .chain (.fe g) → n ∈ l.erase f := by
        intro n g' hn
        have hn := (hq.own n _ (by simp)).mp hn
        simp only [AFile.discard_own, AFile.notes_own] at hn
        obtain ⟨hnf, hn⟩ := update_of hn (by simp)
        exact (List.mem_erase_of_ne hnf).mpr (hl n g' hn)
      refine ih haC hwC hlC ?_ ((hq.own f' _ (by simp)).mpr (by simpa [hne] using hf')) fun B hB =>
        h B (hsC.trans hB)
      have hmem := hl f g hf
      rw [List.length_erase_of_mem hmem]
      have := List.length_pos_of_mem hmem
      omega
    refine wpr_bind (runs_groupCleanup hfit ha'' hw'' hg (fun _ => hboss) (fun _ => ?_)
      fun B _ _ hB hq _ _ _ => ?_)
    · exact hrest _ (hs.trans hs') (.refl _)
    · exact hrest B ((hs.trans hs').trans hB) hq

lemma runs_frontendCheckPrev (hfit : Fits e w) (hboss : w.boss e.self) (ha : AInv A) (hw : A.Wf)
    (hf : A.own f = .chain (.fe g)) (h : ∀ B, Steps w A B → Q () B) :
    Runs (frontendCheckPrev e g f) Q A := by
  refine wpr_bind (runs_fePrev ha hw hf fun g' f' hf' => wpr_bind (runs_loopFuel ?_))
  refine runs_checkPrevLoop (l := List.range' 1 A.alloced) hfit hboss ha hw (fun n g hn => ?_) (by simp) hf' h
  obtain ⟨h0, hle⟩ := (hw.range n).mp (by simp [hn])
  exact List.mem_range'_1.mpr ⟨Nat.pos_of_ne_zero h0, Nat.lt_of_le_of_lt hle (by omega)⟩

/-! ### Starting backends -/

lemma AFile.setGr_setGr (A : AFile) (g : SlotNum) (v v' : GrSlot) :
    (A.setGr g v).setGr g v' = A.setGr g v' := by
  simp [setGr]

/-- A backend parent is started, unless something goes wrong. -/
lemma runs_beParentSpawn (hspawn : ∀ pid, e.spawn.child = some pid → w.tells (.spawn pid))
    (hw : A.Wf) (hg : A.own g = .chain .group) (hp : (A.gr g).beParent = 0) (hst : (A.gr g).beStarting = 0)
    (h : ∀ B, Steps w A B → B.own = A.own → (B.gr g).beStarting = 0 ∨
      (B.gr g).beStarting = (B.gr g).beParent → Q () B) : Runs (beParentSpawn e g) Q A := by
  have hn : ∀ pid, e.spawn.child = some pid → Steps w A (A.note (.spawn pid)) := fun pid hpid =>
    Steps.slot (.note _ (.inr ⟨trivial, id, hspawn pid hpid⟩)) (hw.notes [_])
  -- the store of the parent, and that it is starting
  have hnew : ∀ pid s, e.spawn.child = some pid → s = (A.gr g).beStarting ∨ s = pid →
      (((A.note (.spawn pid)).setGr g { A.gr g with beParent := pid, beStarting := s }).Wf →
      Steps w A ((A.note (.spawn pid)).setGr g { A.gr g with beParent := pid, beStarting := s })) := by
    intro pid s hpid hs hw'
    exact (hn pid hpid).trans (Steps.slot (.parentNew g pid s hg hp (by simp)
      (hs.imp_right fun hs => ⟨hs, hst⟩)) hw')
  unfold beParentSpawn
  cases hsp : e.spawn with
  | failed => exact wpr_throw (.inr (.inr rfl))
  | noChild => exact wpr_pure (h A .refl rfl (.inl hst))
  | lost pid => exact runs_note (h _ (hn pid (by rw [hsp]; rfl)) rfl (.inl hst))
  | half pid =>
    refine wpr_bind (runs_note (runs_step (runs_modifyGr (by simp [hg]) (.inl rfl) ⟨rfl, rfl⟩) fun hw' => ?_))
    exact h _ (hnew pid _ (by rw [hsp]; rfl) (.inl rfl) hw') rfl (.inl (by simp [hst]))
  | spawned pid =>
    refine wpr_bind (runs_note (wpr_bind (runs_modifyGr (by simp [hg]) (.inl rfl) ?_)))
    refine runs_step (runs_modifyGr (by simp [hg]) (.inl rfl) ⟨rfl, rfl⟩) ?_
    rw [AFile.setGr_setGr]
    simp only [AFile.setGr_gr, AFile.note_gr, update_self]
    exact fun hw' => h _ (hnew pid pid (by rw [hsp]; rfl) (.inr rfl) hw') rfl (.inr (by simp))

end

lemma runs_backendCheck {Q : Bool × Bool → AFile → Prop} {didSpawn : Bool} (hfit : Fits e w)
    (hboss : w.boss e.self) (hspawn : ∀ pid, e.spawn.child = some pid → w.tells (.spawn pid))
    (ha : AInv A) (hw : A.Wf) (hg : A.own g = .chain .group)
    (h : ∀ r B, Steps w A B → Q r B) : Runs (backendCheck e g didSpawn) Q A := by
  refine wpr_bind (runs_groupBeStarting hfit hw hg fun r evs _ _ hs => ?_)
  refine wpr_ite (fun _ => wpr_pure (h _ _ hs)) fun hr0 => wpr_ite (fun _ => wpr_pure (h _ _ hs)) fun _ => ?_
  obtain ⟨ha', hw'⟩ := ha.steps hw hs
  -- with a parent, or without one
  have hrest : ∀ C, Steps w A C → C.own g = .chain .group → (C.gr g).beStarting = 0 ∨
      (C.gr g).beStarting = (C.gr g).beParent → Runs (do
      let below ← belowMaxbe e g
      if below = true then do
        let started ← groupStartBe e g
        if started = true then do
          let gslot ← getGr g
          modifyGr g fun s => { s with beStarting := gslot.beParent }
          return (true, true)
        else return (true, didSpawn)
      else do
        let _ ← groupParentSig e g .zero
        return (true, didSpawn)) Q C := by
    intro C hsC hgC hst
    obtain ⟨haC, hwC⟩ := ha.steps hw hsC
    refine wpr_bind (runs_belowMaxbe hwC (AFile.live_of hgC) (wpr_ite (fun _ => wpr_bind ?_) fun _ => wpr_bind ?_))
    · refine runs_groupStartBe hfit haC hwC hgC (fun evs _ hk hs' => ?_) fun B hB _ _ => ?_
      · refine wpr_ite (fun _ => wpr_bind (runs_getGr (by simp [hgC]) (wpr_bind ?_))) fun h => absurd rfl h
        refine runs_step (runs_modifyGr (by simp [hgC]) (.inl rfl) ⟨rfl, rfl⟩) fun hw'' => wpr_pure ?_
        have hr : SlotRule w (C.notes evs) _ := .starting g (C.gr g).beParent hgC ?_
          (hst.imp_right fun hst => .inr (.inl hst))
        · exact h _ _ ((hsC.trans hs').trans (Steps.slot hr hw''))
        · obtain hk | hk | hk := hk
          · exact .inr (.inl hk)
          · rw [hk]
            simp [hboss]
          · simp [hk]
      · exact wpr_ite (fun h => absurd h (by simp)) fun _ => wpr_pure (h _ B (hsC.trans hB))
    · refine runs_groupParentSig (by simp) hfit haC hwC hgC (fun evs _ _ hs' => wpr_pure (h _ _ (hsC.trans hs')))
        fun B hB _ _ => wpr_pure (h _ B (hsC.trans hB))
  refine wpr_bind (runs_getGr (by simp [hg]) (wpr_bind (runs_onlyIf (fun hp => ?_) fun _ => ?_)))
  · refine runs_beParentSpawn hspawn hw' (by simpa using hg) hp (by simpa using hr0)
      fun B hB hown hst => hrest B (hs.trans hB) ?_ hst
    rw [hown]
    exact hg
  · exact hrest _ hs hg (.inl (by simpa using hr0))

lemma runs_frontendPing {Q : Bool × Bool → AFile → Prop} {didSpawn : Bool} (hact : Acts e w)
    (ha : AInv A) (hw : A.Wf) (hk : A.unhurt w) (hf : A.seat (.chain (.fe g)) f e.self)
    (h : ∀ r B, Steps w.aside A B → Q r B) : Runs (frontendPing e g f didSpawn) Q A := by
  have hfit := hact.aside
  refine wpr_bind (runs_frontendCheckPrev hfit hact.boss ha hw hf.2.1 fun B hs => ?_)
  obtain ⟨ha', hw'⟩ := ha.steps hw hs
  have hown := (hs.own hact ha hw hk hf).2.1
  obtain ⟨i, j, hl⟩ := List.append_of_mem ((hw'.mem _ f).mpr hown)
  refine wpr_bind (runs_slotPrev hl (wpr_ite (fun _ => wpr_pure (h _ B hs)) fun _ => ?_))
  exact runs_backendCheck hfit hact.boss (fun pid hp => ⟨trivial, hact.spawn pid hp⟩) ha' hw' (ha'.housed.chain f _ g hown rfl) fun r C hC =>
    h r C (hs.trans hC)

/-! ### Waiting -/

/-- Backend `b` has been given to a frontend, or none if `b` is `0`. -/
def Gave (A B : AFile) (b : SlotNum) : Prop :=
  assigned B.log = if b = 0 then assigned A.log else b :: assigned A.log

lemma Gave.of_log (h : B.log = A.log) : Gave A B 0 := by simp [Gave, h]

lemma Gave.trans (h : Gave A B 0) (h' : Gave B C b) : Gave A C b := by
  have h : assigned B.log = assigned A.log := by simpa [Gave] using h
  rwa [Gave, ← h]

lemma Gave.trans_none (h : Gave A B b) (h' : Gave B C 0) : Gave A C b := by
  have h' : assigned C.log = assigned B.log := by simpa [Gave] using h'
  rwa [Gave, h']

lemma Steps.gave (hs : Steps w.hush A B) : Gave A B 0 := by
  rw [Gave, if_pos rfl]
  exact hs.assigned fun _ _ _ _ _ h => h.1

lemma Steps.gave_aside (hs : Steps w.aside A B) : Gave A B 0 := (hs.mono w.aside_le_hush).gave

/-- Backend `b` waits and has been given to a frontend; no other one is starting, and its group
has the script of the frontend as it is. -/
structure AFile.Fresh (A : AFile) (g b : SlotNum) (v : ScrSlot) : Prop where
  own : A.own b = .chain (.be g)
  waiting : (A.be b).feRunning = 0
  valid : A.valid g
  entry : ∃ s, A.own s = .chain (.script g) ∧ A.scr s = v
  starting : (A.gr g).beStarting = 0
  taken : A.taken b

lemma SameGroups.entry (h : SameGroups A B) (he : ∃ s, A.own s = .chain (.script g) ∧ A.scr s = v) :
    ∃ s, B.own s = .chain (.script g) ∧ B.scr s = v := by
  obtain ⟨s, hs, heq⟩ := he
  exact ⟨s, (h.own s _ (by simp)).mpr hs, (h.scr s g hs).trans heq⟩

/-- What it means for the file that backend `b` of group `g` is taken. -/
structure Took (A B : AFile) (g b : SlotNum) : Prop where
  own : B.own = A.own
  fe : B.fe = A.fe
  be : B.be = A.be
  groups : SameGroups A B
  starting : (B.gr g).beStarting = 0
  ne : b ≠ 0
  gave : Gave A B b
  mem : A.own b = .chain (.be g)
  waiting : (A.be b).feRunning = 0

lemma Took.fresh (h : Took A B g b) (hv : A.valid g)
    (he : ∃ s, A.own s = .chain (.script g) ∧ A.scr s = v) : B.Fresh g b v where
  own := h.own ▸ h.mem
  waiting := by rw [h.be, h.waiting]
  valid := h.groups.valid.mpr hv
  entry := h.groups.entry he
  starting := h.starting
  taken := by
    have := h.gave
    rw [Gave, if_neg h.ne] at this
    rw [AFile.taken_iff, this]
    exact List.mem_cons_self

/-- A backend is looked for, and one that is found is taken. -/
lemma runs_beTake {m : SlotNum → M α} {m' : M α} {Q : α → AFile → Prop} {hd : SlotNum} {sig : Bool}
    (hact : Acts e w) (hw : A.Wf) (hg : A.own g = .chain .group)
    (htell : ∀ b C, Steps w.aside A C → C.own = A.own → C.fe = A.fe → C.lst = A.lst →
      A.own b = .chain (.be g) → w.tells (.assign g f b hd sig))
    (h : ∀ b B, Steps w A B → Took A B g b → Runs (m b) Q B)
    (h' : ∀ B, Steps w.aside A B → B.own = A.own → B.fe = A.fe → SameGroups A B → Runs m' Q B) :
    Runs (beWaitGet e g) (fun b => Runs (if b ≠ 0 then do
      note (.assign g f b hd sig)
      m b
    else m') Q) A := by
  refine runs_beWaitGet hact.aside hw hg (fun evs st hev hs _ => ?_)
    fun evs b hev hs h0 hhead hrun hw' => ?_
  · refine wpr_ite (fun h0 => absurd rfl h0) fun _ => h' _ hs rfl rfl ?_
    exact (OnlyFes.notes A evs).groups.trans (.setGr _ rfl)
  generalize hC : AFile.setGr _ _ _ = C at *
  have hown : C.own = A.own ∧ C.fe = A.fe ∧ C.be = A.be ∧ C.lst = A.lst ∧
      (C.gr g).beStarting = 0 := by simp [← hC]
  obtain ⟨hown, hfe, hbe, hlst, hst⟩ := hown
  have hsame : SameGroups A C := hC ▸ (OnlyFes.notes A evs).groups.trans (.setGr _ rfl)
  have hb := (hw.mem (.be g) b).mp (List.mem_of_mem_head? hhead)
  refine wpr_ite (fun _ => wpr_bind (runs_note ?_)) fun h => absurd h0 h
  have hr : SlotRule w C _ := .assign g f b hd sig (by rw [hlst, hhead]) (by rw [hbe, hrun]) hst
    (htell b C hs hown hfe hlst hb)
  rw [hlst] at hr
  refine h b _ (hs.back.trans (Steps.slot hr (hw'.notes [_]))) ⟨hown, hfe, hbe,
    hsame.trans hr.sameGroups, hst, h0, ?_, hb, hrun⟩
  refine hs.gave_aside.trans ?_
  rw [Gave, if_neg h0]
  rfl

/-- One round of the loop, begun with a valid group. -/
lemma runs_hardRound {Q : Hard → AFile → Prop} {didSpawn : Bool} (hact : Acts e w) (ha : AInv A)
    (hw : A.Wf) (hk : A.unhurt w) (hf : A.Waits g f e.self v) (hv : A.valid g)
    (htell : ∀ C b, Steps w A C → C.seat (.chain (.fe g)) f e.self → Shrunk A C →
      (C.lst (.fe g)).head? = some f → C.own b = .chain (.be g) → w.tells (.assign g f b f true))
    (hwait : ∀ d B, Steps w A B → B.Waits g f e.self v → B.valid g → NoLoose A B → Shrunk A B →
      (.free g ∈ B.log → .free g ∈ A.log) → Gave A B 0 → Q (.wait d) B)
    (hleave : ∀ sw B, Steps w A B → B.seat (.chain (.fe g)) f e.self → NoLoose A B → Gave A B 0 →
      Q (.leave sw 0) B)
    (hgot : ∀ b B, Steps w A B → B.seat (.chain (.fe g)) f e.self → NoLoose A B →
      (B.fe f).sentSig = false → B.Fresh g b v → b ≠ 0 → Gave A B b → Q (.leave true b) B) :
    Runs (hardRound e g f didSpawn) Q A := by
  have hg := ha.housed.chain f _ g hf.seat.2.1 rfl
  refine wpr_bind (runs_groupSendsigs hact.aside ha hw hg fun C hs honly => ?_)
  obtain ⟨haC, hwC⟩ := ha.steps hw hs
  have hfC := hs.ownWaits hact ha hw hk hf
  have hown := hfC.seat.2.1
  have hgC := haC.housed.chain f _ g hown rfl
  refine wpr_bind (runs_getFe (by simp [hown]) (wpr_bind (runs_end (runs_modifyFe (by simp [hown]) ?_))))
  generalize hD : AFile.setFe _ _ _ = D
  intro hwD
  have hr : SlotRule w C D := hD ▸ .takeSig f (by rw [hfC.seat.2.2]; exact hact.me)
  have hsD : Steps w A D := hs.back.trans (Steps.slot hr hwD)
  have hkD : D.unhurt w := hsD.unhurt hk
  have hDf : (D.fe f).pid = e.self := by simp [← hD, hfC.seat.2.2]
  have hDown : D.own = C.own := by simp [← hD]
  have hfD : D.Waits g f e.self v := by
    refine ⟨⟨hfC.seat.1, by rw [hDown, hown], hDf⟩, fun hv => ?_⟩
    exact hr.sameGroups.entry (hfC.entry (hr.sameGroups.valid.mp hv))
  have hvD : D.valid g := hr.sameGroups.valid.mpr (honly.groups.valid.mpr hv)
  have hloose : NoLoose A D := (hs.noLoose ha hw).trans fun n hn => by rwa [hDown] at hn
  have hgave : Gave A D 0 := hs.gave_aside.trans (.of_log (by simp [← hD]))
  have hsh : Shrunk A D := honly.shrunk.trans fun g' => by simp [← hD]
  obtain ⟨haD, -⟩ := ha.steps hw hsD
  -- there is no backend for us
  have hno : ∀ E, Steps w.aside D E → Runs (do
      let ping ← frontendPing e g f didSpawn
      if ping.1 = false then return .leave false 0
      else do
        let valid ← groupIsvalid g
        if valid = false then return .leave true 0 else return .wait ping.2) Q E := by
    intro E hsE
    obtain ⟨haE, hwE⟩ := haD.steps hwD hsE
    have hfE := hsE.ownWaits hact haD hwD hkD hfD
    refine wpr_bind (runs_frontendPing hact haE hwE (hsE.back.unhurt hkD) hfE.seat fun r B hsB => ?_)
    have hsB : Steps w.aside D B := hsE.trans hsB
    obtain ⟨haB, hwB⟩ := haD.steps hwD hsB
    have hfB := hsB.ownWaits hact haD hwD hkD hfD
    have hlB := hloose.trans (hsB.noLoose haD hwD)
    have hgB := hgave.trans hsB.gave_aside
    have hshB := hsh.trans (hsB.shrunk hwD haD fun _ => id)
    have hfree : .free g ∈ B.log → .free g ∈ A.log := fun h =>
      hs.ownKept hact ha hw hk hf.seat (by simpa [← hD] using hsB.ownKept hact haD hwD hkD hfD.seat h)
    have hsB := hsD.trans hsB.back
    refine wpr_ite (fun _ => wpr_pure (hleave _ B hsB hfB.seat hlB hgB)) fun _ => ?_
    refine wpr_bind (runs_groupIsvalid hwB (haB.housed.chain f _ g hfB.seat.2.1 rfl) fun r' hr' => ?_)
    refine wpr_ite (fun _ => wpr_pure (hleave _ B hsB hfB.seat hlB hgB)) fun ht => wpr_pure ?_
    exact hwait _ B hsB hfB (hr'.mp (by simpa using ht)) hlB hshB hfree hgB
  refine wpr_bind (runs_getHead (AFile.Wf.usable_of (by rw [hDown, hgC]) rfl) (wpr_bind
    (wpr_ite (fun hsig => ?_) fun _ => wpr_pure ?_)))
  swap
  · exact wpr_ite (fun h => absurd rfl h) fun _ => hno D .refl
  have hhead := haC.signalled.waiting g f hown hsig
  have hlst : D.lst (.fe g) = C.lst (.fe g) := by simp [← hD]
  have hf0 : ((D.lst (.fe g)).headD 0) = f := by
    rw [hlst, List.headD_eq_head?_getD, hhead]
    rfl
  rw [hf0, hsig]
  refine runs_beTake hact hwD (by rw [hDown, hgC]) (fun b E hsE hEown hEfe hEl hb => ?_)
    (fun b B hsB htook => wpr_pure ?_) fun E hsE _ _ _ => hno E hsE
  · refine htell E b (hsD.trans hsE.back) (hsE.own hact haD hwD hkD hfD.seat)
      (hsh.trans fun g' => by rw [hEl]) (by rw [hEl, hlst, hhead]) (by rw [hEown, hb])
  · obtain ⟨hseat, hown⟩ := hfD.seat
    refine hgot b B (hsD.trans hsB) ⟨hseat, by rw [htook.own, hown.1], by rw [htook.fe, hown.2]⟩
      (hloose.trans fun n hn => htook.own ▸ hn) ?_ (htook.fresh hvD (hfD.entry hvD)) htook.ne
      (hgave.trans htook.gave)
    rw [htook.fe]
    simp [← hD]

/-- No slot but `f` has become loose. -/
def OnlyLoose (f : SlotNum) (A B : AFile) : Prop := ∀ n, B.own n = .loose → n = f ∨ A.own n = .loose

lemma NoLoose.only (h : NoLoose A B) : OnlyLoose f A B := fun n hn => .inr (h n hn)

lemma OnlyLoose.trans (h : OnlyLoose f A B) (h' : OnlyLoose f B C) : OnlyLoose f A C := fun n hn =>
  (h' n hn).elim .inl (h n)

/-- The frontend has left the queue, with backend `b` or without one. -/
structure AFile.Got (A : AFile) (g f b : SlotNum) (spawnWorking : Bool) (q : Pid) (v : ScrSlot) :
    Prop where
  seat : A.seat .loose f q
  backend : (A.fe f).backend = b
  ready : b ≠ 0 → spawnWorking = true ∧ (A.fe f).sentSig = false ∧ A.Fresh g b v

lemma AFile.Fresh.same {g b : SlotNum} (h : A.Fresh g b v) (hq : SameGroups A B)
    (hown : B.own b = A.own b) (hbe : B.be = A.be) (hgr : B.gr = A.gr) (hlog : B.log = A.log) :
    B.Fresh g b v :=
  ⟨hown ▸ h.own, hbe ▸ h.waiting, hq.valid.mpr h.valid, hq.entry h.entry, hgr ▸ h.starting,
    by simpa [AFile.taken, hlog] using h.taken⟩

section
variable {Q : Got → AFile → Prop} {sw : Bool}

lemma runs_getABackendEnd (hact : Acts e w) (ha : AInv A) (hw : A.Wf) (hk : A.unhurt w)
    (hg : A.own g = .chain .group) (hf : A.seat .loose f e.self)
    (hb : b ≠ 0 → sw = true ∧ (A.fe f).sentSig = false ∧ A.Fresh g b v)
    (h : ∀ B, Steps w A B → NoLoose A B → B.Got g f b sw e.self v → Gave A B 0 →
      Q (.got g b sw) B) : Runs (getABackendEnd e g f sw b) Q A := by
  -- the store of the backend, in what the cleanup leaves
  have hrest : ∀ C, Steps w.aside A C →
      (b ≠ 0 → sw = true ∧ (C.fe f).sentSig = false ∧ C.Fresh g b v) → Runs (do
        modifyFe f fun s => { s with backend := b }
        return .got g b sw) Q C := by
    intro C hs hb
    have hfC := hs.own hact ha hw hk hf
    refine wpr_bind (runs_step (runs_modifyFe (by simp [hfC.2.1]) ⟨rfl, rfl⟩) fun hw' => wpr_pure ?_)
    have hr : SlotRule w C _ := .feBackend f b hfC.2.1 (by rw [hfC.2.2]; exact hact.me)
    refine h _ (hs.back.trans (Steps.slot hr hw')) (hs.noLoose ha hw)
      ⟨⟨hfC.1, hfC.2.1, ?_⟩, ?_, fun h0 => ?_⟩ (hs.gave_aside.trans (.of_log rfl))
    · simp [hfC.2.2]
    · simp
    · obtain ⟨hsw, hsig, hfresh⟩ := hb h0
      exact ⟨hsw, by simpa using hsig, hfresh.same hr.sameGroups rfl rfl rfl rfl⟩
  refine wpr_bind (runs_groupCleanup (w := w.aside) hact.aside ha hw hg (fun _ => hact.boss)
    (fun _ => hrest A .refl hb) fun B hnil _ hs _ _ _ _ => hrest B hs fun h0 => ?_)
  have hmem := (hw.mem _ b).mpr (hb h0).2.2.own
  rw [hnil] at hmem
  exact absurd hmem (List.not_mem_nil)

lemma runs_hardLeave (hact : Acts e w) (ha : AInv A) (hw : A.Wf) (hk : A.unhurt w)
    (hf : A.seat (.chain (.fe g)) f e.self)
    (hb : b ≠ 0 → sw = true ∧ (A.fe f).sentSig = false ∧ A.Fresh g b v)
    (h : ∀ B, Steps w A B → OnlyLoose f A B → B.Got g f b sw e.self v → Gave A B 0 →
      Q (.got g b sw) B) : Runs (hardEnd e g f (.leave sw b)) Q A := by
  have hg := ha.housed.chain f _ g hf.2.1 rfl
  have hgf : g ≠ f := by
    rintro rfl
    simp [hf.2.1] at hg
  refine wpr_bind (runs_slotCheck (by simp [hg]) (wpr_bind (runs_end (runs_slotRemove hf.2.1 fun hw' => ?_))))
  have hr : SlotRule w A _ := .dequeue g f hf.2.1 (by rw [hf.2.2]; exact hact.me)
  have hs : Steps w A _ := Steps.slot hr hw'
  obtain ⟨ha', -⟩ := ha.steps hw hs
  refine runs_getABackendEnd hact ha' hw' (hs.unhurt hk) (by simp [hgf, hg])
    ⟨.inl rfl, by simp, by simp [hf.2.2]⟩ (fun h0 => ?_) fun B hB hl hgot hgave =>
      h B (hs.trans hB) ?_ hgot ((Gave.of_log rfl).trans hgave)
  · obtain ⟨hsw, hsig, hfresh⟩ := hb h0
    have hbf : b ≠ f := by
      rintro rfl
      have := hfresh.own
      simp [hf.2.1] at this
    exact ⟨hsw, by simpa using hsig, hfresh.same hr.sameGroups (by simp [hbf]) rfl rfl rfl⟩
  · intro n hn
    have hn := hl n hn
    by_cases hnf : n = f
    · exact .inl hnf
    · exact .inr (by simpa [hnf] using hn)

lemma runs_hardRoundEnd {d : Bool} (hact : Acts e w) (ha : AInv A) (hw : A.Wf) (hk : A.unhurt w)
    (hf : A.Waits g f e.self v) (hv : A.valid g)
    (htell : ∀ C b, Steps w A C → C.seat (.chain (.fe g)) f e.self → Shrunk A C →
      (C.lst (.fe g)).head? = some f → C.own b = .chain (.be g) → w.tells (.assign g f b f true))
    (hwait : ∀ d B, Steps w A B → B.Waits g f e.self v → B.valid g → NoLoose A B → Shrunk A B →
      (.free g ∈ B.log → .free g ∈ A.log) → Gave A B 0 → Q (.wait g d) B)
    (hgot : ∀ b sw B, Steps w A B → OnlyLoose f A B → B.Got g f b sw e.self v → Gave A B b →
      Q (.got g b sw) B) :
    Runs (do
      let r ← hardRound e g f d
      hardEnd e g f r) Q A := by
  refine wpr_bind (runs_hardRound hact ha hw hk hf hv htell (fun d B hs hfB hvB hl hsh hfree hgave => ?_)
    (fun sw B hs hfB hl hgave => ?_) fun b B hs hfB hl hsig hfresh h0 hgave => ?_)
  · exact wpr_pure (hwait d B hs hfB hvB hl hsh hfree hgave)
  · obtain ⟨haB, hwB⟩ := ha.steps hw hs
    exact runs_hardLeave hact haB hwB (hs.unhurt hk) hfB (fun h => absurd rfl h)
      fun C hC hl' hgotC hgave' =>
        hgot 0 sw C (hs.trans hC) (hl.only.trans hl') hgotC (hgave.trans_none hgave')
  · obtain ⟨haB, hwB⟩ := ha.steps hw hs
    exact runs_hardLeave hact haB hwB (hs.unhurt hk) hfB (fun _ => ⟨rfl, hsig, hfresh⟩)
      fun C hC hl' hgotC hgave' =>
        hgot b true C (hs.trans hC) (hl.only.trans hl') hgotC (hgave.trans_none hgave')

lemma runs_getABackendWake {d changed : Bool} (hact : Acts e w) (ha : AInv A) (hw : A.Wf)
    (hk : A.unhurt w) (hf : A.seat (.chain (.fe g)) f e.self)
    (he : changed = false → A.valid g → ∃ s, A.own s = .chain (.script g) ∧ A.scr s = e.entry)
    (htell : ∀ C b, Steps w A C → C.seat (.chain (.fe g)) f e.self → Shrunk A C →
      (C.lst (.fe g)).head? = some f → C.own b = .chain (.be g) → w.tells (.assign g f b f true))
    (hwait : ∀ d B, Steps w A B → B.Waits g f e.self e.entry → B.valid g → NoLoose A B →
      Shrunk A B → (.free g ∈ B.log → .free g ∈ A.log) → Gave A B 0 → Q (.wait g d) B)
    (hgot : ∀ b sw B, Steps w A B → OnlyLoose f A B → B.Got g f b sw e.self e.entry → Gave A B b →
      Q (.got g b sw) B) : Runs (getABackendWake e g f d changed) Q A := by
  refine wpr_bind (runs_groupIsvalid hw (ha.housed.chain f _ g hf.2.1 rfl) fun r hr => ?_)
  refine wpr_ite (fun _ => ?_) fun hok => ?_
  · exact runs_hardLeave hact ha hw hk hf (fun h => absurd rfl h) (hgot 0 true)
  · obtain ⟨h1, h2⟩ := not_or.mp hok
    have hv : A.valid g := hr.mp (by simpa using h1)
    exact runs_hardRoundEnd hact ha hw hk ⟨hf, he (by simpa using h2)⟩ hv htell hwait hgot

/-- What is left of a queue with the last frontend in front. -/
lemma eq_of_sublist_append {l l' : List SlotNum} (hs : l'.Sublist (l ++ [f])) (hf : f ∉ l)
    (hh : l'.head? = some f) : l' = [f] := by
  cases l' with
  | nil => simp at hh
  | cons x l' =>
    obtain rfl : x = f := by simpa using hh
    induction l with
    | nil => simpa using hs
    | cons y l ih =>
      obtain ⟨hne, hf⟩ := not_or.mp (by simpa using hf)
      rw [List.cons_append] at hs
      cases hs with
      | cons _ hs => exact ih hf hs
      | cons_cons _ hs => exact absurd rfl hne

/-- The last frontend of a queue stays the last. -/
lemma getLast?_of_sublist_append {l l' : List SlotNum} (hs : l'.Sublist (l ++ [f])) (hf : f ∉ l)
    (hm : f ∈ l') : l'.getLast? = some f := by
  obtain ⟨l₁, l₂, rfl, h₁, h₂⟩ := List.sublist_append_iff.mp hs
  cases l₂ with
  | nil => exact absurd (h₁.subset (by simpa using hm)) hf
  | cons x l₂ =>
    obtain ⟨rfl, rfl⟩ : x = f ∧ l₂ = [] := by simpa using h₂
    simp

/-- From the search for the group to a backend or the first wait. -/
lemma runs_getABackend (hact : Acts e w) (ha : AInv A) (hw : A.Wf) (hk : A.unhurt w)
    (hf : A.seat .loose f e.self) (hsig : (A.fe f).sentSig = false)
    (hfast : ∀ C g b, Steps w A C → C.lst (.fe g) = [] → C.own b = .chain (.be g) →
      w.tells (.assign g f b 0 false))
    (hqueue : ∀ C g b, Steps w A C → C.seat (.chain (.fe g)) f e.self → C.lst (.fe g) = [f] →
      C.own b = .chain (.be g) → w.tells (.assign g f b f true))
    (hwait : ∀ g d B, Steps w A B → B.Waits g f e.self e.entry → B.valid g → NoLoose A B →
      (B.lst (.fe g)).getLast? = some f → Gave A B 0 → Q (.wait g d) B)
    (hgot : ∀ g b sw B, Steps w A B → OnlyLoose f A B → B.Got g f b sw e.self e.entry →
      Gave A B b → Q (.got g b sw) B) : Runs (getABackend e f) Q A := by
  refine wpr_bind (runs_scriptFind hact.aside ha hw fun C g hs hq hfound _ _ => ?_)
  obtain ⟨haC, hwC⟩ := ha.steps hw hs
  have hfC := hs.own hact ha hw hk hf
  have hsigC : (C.fe f).sentSig = false := by rw [hq.fe f (by simp [hf.2.1]), hsig]
  have hkC : C.unhurt w := hs.back.unhurt hk
  have hg := hfound.own
  have hent : ∃ s, C.own s = .chain (.script g) ∧ C.scr s = e.entry := by
    obtain ⟨s, hs, heq⟩ := hfound.head
    exact ⟨s, (hwC.mem _ s).mp (List.mem_of_mem_head? hs), heq⟩
  have hgf : g ≠ f := by
    rintro rfl
    simp [hfC.2.1] at hg
  -- the queue, whatever the quick look at the backends has changed
  have hhard : ∀ D, Steps w.aside C D → SameGroups C D → (D.fe f).sentSig = false → Runs (do
      slotAppend f (.fe g)
      let r ← hardRound e g f false
      hardEnd e g f r) Q D := by
    intro D hsD hsame hsigD
    obtain ⟨haD, hwD⟩ := haC.steps hwC hsD
    have hfD := hsD.own hact haC hwC hkC hfC
    have hgD : D.own g = .chain .group := (hsame.own g _ (by simp)).mpr hg
    have hAD : Steps w A D := hs.back.trans hsD.back
    have hlD : NoLoose A D := (hs.noLoose ha hw).trans (hsD.noLoose haC hwC)
    refine wpr_bind (runs_end (runs_slotAppend hfD.2.1 (AFile.Wf.usable_of hgD rfl) rfl ?_))
    generalize hE : AFile.place _ _ _ _ _ = E
    intro hwE
    have hr : SlotRule w D E := hE ▸ .enqueue g f hgD hfD.2.1 (by rw [hfD.2.2]; exact hact.me) hsigD
    have hAE : Steps w A E := hAD.trans (Steps.slot hr hwE)
    obtain ⟨haE, -⟩ := ha.steps hw hAE
    have hlst : E.lst (.fe g) = D.lst (.fe g) ++ [f] := by simp [← hE]
    have hfnot : f ∉ D.lst (.fe g) := by
      rw [hwD.mem, hfD.2.1]
      simp
    have hEown : ∀ n, E.own n = .loose → D.own n = .loose := by
      intro n hn
      rw [← hE] at hn
      exact (update_of hn (by simp)).2
    have hfE : E.Waits g f e.self e.entry := by
      refine ⟨⟨.inr (.inr ⟨g, rfl⟩), by simp [← hE], by simp [← hE, hfD.2.2]⟩, fun _ => ?_⟩
      exact hr.sameGroups.entry (hsame.entry hent)
    have hgave : Gave A E 0 :=
      (hs.gave_aside.trans hsD.gave_aside).trans (.of_log (by simp [← hE]))
    refine runs_hardRoundEnd hact haE hwE (hAE.unhurt hk) hfE
      (hr.sameGroups.valid.mpr (hsame.valid.mpr hfound.valid))
      (fun K b hsK hfK hsh hh hb => hqueue K g b (hAE.trans hsK) hfK ?_ hb)
      (fun d B hsB hfB hvB hlB hsh _ hg =>
        hwait g d B (hAE.trans hsB) hfB hvB ?_ ?_ (hgave.trans hg))
      (fun b sw B hsB hlB hgotB hg => hgot g b sw B (hAE.trans hsB) ?_ hgotB (hgave.trans hg))
    · exact eq_of_sublist_append (hlst ▸ hsh g) hfnot hh
    · exact fun n hn => hlD n (hEown n (hlB n hn))
    · have hwB := (haE.steps hwE hsB).2
      exact getLast?_of_sublist_append (hlst ▸ hsh g) hfnot ((hwB.mem _ f).mpr hfB.seat.2.1)
    · exact fun n hn => (hlB n hn).imp_right fun hn => hlD n (hEown n hn)
  refine wpr_bind (runs_slotCheck (by simp [hg]) (wpr_bind (runs_getHead (AFile.Wf.usable_of hg rfl)
    (wpr_bind (wpr_ite (fun hnil => ?_) fun _ => wpr_pure ?_)))))
  swap
  · exact wpr_ite (fun h => absurd rfl h) fun _ => hhard C .refl (.refl C) hsigC
  have hnil' := hwC.head_eq_zero.mp hnil
  rw [hnil]
  refine runs_beTake hact hwC hg (fun b E hsE hEown hEfe hEl hb => ?_) (fun b E hsE htook => ?_)
    fun E hsE hEown hEfe hsame => hhard E hsE hsame (by rw [hEfe, hsigC])
  · exact hfast E g b (hs.back.trans hsE.back) (by rw [hEl, hnil']) (by rw [hEown, hb])
  have hAE : Steps w A E := hs.back.trans hsE
  obtain ⟨haE, hwE⟩ := ha.steps hw hAE
  have hlE : NoLoose A E := (hs.noLoose ha hw).trans fun n hn => htook.own ▸ hn
  refine runs_getABackendEnd hact haE hwE (hAE.unhurt hk) ((htook.groups.own g _ (by simp)).mpr hg)
    ⟨hfC.1, by rw [htook.own, hfC.2.1], by rw [htook.fe, hfC.2.2]⟩
    (fun _ => ⟨rfl, by rw [htook.fe, hsigC], htook.fresh hfound.valid hent⟩) fun B hsB hlB hgotB hg =>
      hgot g b true B (hAE.trans hsB) (hlE.trans hlB).only hgotB
        ((hs.gave_aside.trans htook.gave).trans_none hg)

end

/-! ### Connecting -/

/-- No slot is loose but those that were, and `f` is not any more. -/
def Settled (f : SlotNum) (A B : AFile) : Prop := ∀ n, B.own n = .loose → n ≠ f ∧ A.own n = .loose

lemma runs_ipcConnect {Q : Bool → AFile → Prop}
    (h : ∀ n, n ≤ 3 ∧ n ≤ e.connects b → (n = 3 → 3 ≤ e.connects b ∧ .unlink b ∉ A.log) →
      Q (decide (n = 3)) (A.note (.connect b n))) : Runs (ipcConnect e b) Q A := by
  intro s hs
  have hlog := hs.log
  simp only [ipcConnect, note, wp_bind, wp_get, wp_modify, wp_pure]
  refine ⟨A.note (.connect b _), { hs with log := by simp [hlog] }, h _ ?_ ?_⟩
  · split
    · omega
    · exact ⟨Nat.min_le_left .., Nat.min_le_right ..⟩
  · rw [hlog]
    split
    · omega
    · exact fun h3 => ⟨by omega, ‹_›⟩

section
variable {Q : Section → AFile → Prop} {sw : Bool}

/-- The end of a round with a frontend that is not needed any more. -/
lemma runs_jettison {α : Type} {r : α} {Q : α → AFile → Prop} (hact : Acts e w) (ha : AInv A)
    (hw : A.Wf) (hf : A.seat .loose f e.self)
    (h : ∀ B, Steps w A B → B = A.release f → Settled f A B → Q r B) :
    Runs (do slotFree f; return r) Q A := by
  refine wpr_bind (runs_freeLoose hf.2.1 (ha.bare hw (by simp [hf.2.1])) fun hw' => wpr_pure ?_)
  have hr : SlotRule w A _ := .feDrop f hf.2.1 (by rw [hf.2.2]; exact hact.me)
  exact h _ (Steps.slot hr hw') rfl fun n hn => update_of hn (by simp)

lemma runs_connectRest {want : Bool} (hact : Acts e w) (ha : AInv A) (hw : A.Wf) (hk : A.unhurt w)
    (hg : A.Got g f b sw e.self v) (htell : ∀ b n, w.tells (.connect b n))
    (hkept : ∀ B, 3 ≤ e.connects b → .unlink b ∉ B.log → A.Fresh g b v →
      Steps w.hush (A.note (.connect b 3)) B → B.seat (.chain .feRun) f e.self →
      (B.fe f).backend = b → (B.be b).feRunning = f → Settled f A B → Q (.kept f b) B)
    (hsent : ∀ B, 3 ≤ e.connects b → .unlink b ∉ B.log → A.Fresh g b v →
      Steps w.hush (A.note (.connect b 3)) B → (B.be b).feRunning = b → Settled f A B →
      Q (.sent b) B)
    (hfailed : ∀ B n, n < 3 → n ≤ e.connects b → A.Fresh g b v →
      Steps w.hush (A.note (.connect b n)) B → .unlink b ∈ B.log → B.own b = .free → Settled f A B →
      Q (.failed sw) B)
    (hnone : ∀ B, b = 0 → Steps w.hush A B → Settled f A B → Q (.failed sw) B) :
    Runs (connectRest e want f (.got g b sw)) Q A := by
  have hf := hg.seat
  refine wpr_bind (runs_getFe (by simp [hf.2.1]) ?_)
  simp only [hg.backend]
  refine wpr_bind (wpr_ite (fun hb => ?_) fun hb => wpr_pure ?_)
  swap
  · refine wpr_ite (fun h => absurd h (by simp)) fun _ => ?_
    have hb0 : b = 0 := by
      by_contra h0
      exact hb ⟨(hg.ready h0).1, h0⟩
    exact runs_jettison hact.hush ha hw hf fun B hs _ hl => hnone B hb0 hs hl
  obtain ⟨-, hsig, hfresh⟩ := hg.ready hb.2
  refine wpr_bind (runs_ipcConnect fun n hn h3 => ?_)
  generalize hC : AFile.note _ _ = C
  have hsC : Steps w A C := hC ▸ Steps.slot (.note _ (.inr ⟨trivial, id, htell b n⟩)) (hw.notes [_])
  obtain ⟨haC, hwC⟩ := ha.steps hw hsC
  have hCA : C.own = A.own ∧ C.be = A.be ∧ C.fe = A.fe ∧ C.gr = A.gr ∧
      C.log = .connect b n :: A.log := by simp [← hC]
  obtain ⟨hCown, hCbe, hCfe, hCgr, hClog⟩ := hCA
  have hbC : C.own b = .chain (.be g) := by rw [hCown, hfresh.own]
  have hrun : (C.be b).feRunning = 0 := by rw [hCbe, hfresh.waiting]
  have hfC : C.seat .loose f e.self := ⟨hf.1, by rw [hCown, hf.2.1], by rw [hCfe, hf.2.2]⟩
  have hfb : f ≠ b := by
    rintro rfl
    simp [hfC.2.1] at hbC
  have hgC : C.own g = .chain .group := haC.housed.chain b _ g hbC rfl
  have htaken : C.taken b := by
    rw [AFile.taken_iff, hClog]
    exact AFile.taken_iff.mp hfresh.taken
  by_cases hn3 : n = 3
  swap
  · -- the record of the backend is removed
    refine wpr_bind (runs_onlyIf (fun _ => ?_) fun h => absurd (decide_eq_false hn3) h)
    refine runs_backendDispose (w := w.aside) hact.aside haC hwC hbC (.inl hrun)
      fun D hsD hrem => wpr_pure ?_
    obtain ⟨haD, hwD⟩ := haC.steps hwC hsD
    refine wpr_ite (fun h => absurd h (by simp [hn3])) fun _ => ?_
    refine runs_jettison hact.hush haD hwD (hsD.own hact haC hwC (hsC.unhurt hk) hfC)
      fun B hs hB hl => hfailed B n (by omega) hn.2 hfresh ?_ (hs.log hrem.unlink) ?_ fun n hn => ?_
    · rw [hC]
      exact (hsD.mono w.aside_le_hush).trans hs
    · simp [hB, hfb.symm, hrem.own]
    · obtain ⟨hne, hn⟩ := hl n hn
      exact ⟨hne, hCown ▸ hsD.noLoose haC hwC n hn⟩
  subst hn3
  obtain ⟨h3, hun⟩ := h3 rfl
  refine wpr_bind (runs_onlyIf (fun h => absurd h (by simp)) fun _ => wpr_pure ?_)
  refine wpr_ite (fun _ => ?_) fun h => absurd (by simp) h
  refine wpr_ite (fun _ => ?_) fun _ => ?_
  · -- the frontend stays to collect the exit status
    refine wpr_bind (runs_modifyBe (by simp [hbC]) (wpr_bind (runs_end (runs_slotInsert ?_ (by rintro _ ⟨⟩) ?_))))
    · simpa using hfC.2.1
    generalize hD : AFile.place _ _ _ _ _ = D
    intro hwD
    have hr : SlotRule w.hush C D := by
      have := SlotRule.claim (w := w.hush) (A := C) g f b hfC.2.1 (by rw [hfC.2.2]; exact hact.me)
        (by rw [hCfe, hg.backend]) (by rw [hCfe, hsig]) hbC hrun htaken
      exact hD ▸ this
    have hDown : D.own f = .chain .feRun ∧ D.own b = .chain (.be g) ∧
        D.own g = .chain .group ∧ (D.gr g).beStarting = 0 ∧ D.log = C.log := by
      have hgf : g ≠ f := by
        rintro rfl
        simp [hfC.2.1] at hgC
      simp [← hD, hfb.symm, hbC, hgf, hgC, hCgr, hfresh.starting]
    obtain ⟨hDf, hDb, hDg, hst, hDlog⟩ := hDown
    refine wpr_bind (runs_getBe (by simp [hDb]) (wpr_bind (runs_step
      (runs_modifyGr (by simp [hDg]) (.inl rfl) ⟨rfl, rfl⟩) fun hwE => wpr_pure ?_)))
    have hr' : SlotRule w.hush D _ :=
      .starting g (D.be b).pid hDg (.inr (.inr (.inl ⟨b, hDb, rfl⟩))) (.inl hst)
    refine hkept _ h3 ?_ hfresh ?_ ⟨.inr (.inl rfl), hDf, ?_⟩ ?_ ?_ fun n hn => ?_
    · simp [hDlog, hClog, hun]
    · rw [hC]
      exact (Steps.slot hr hwD).trans (Steps.slot hr' hwE)
    · simp [← hD, hfC.2.2]
    · simp [← hD, hCfe, hg.backend]
    · simp [← hD]
    · rw [← hD] at hn
      obtain ⟨hne, hn⟩ := update_of hn (by simp)
      exact ⟨hne, by rwa [← hCown]⟩
  · -- the frontend does not
    refine wpr_bind (runs_step (runs_modifyBe (by simp [hbC]) ⟨rfl, rfl⟩) ?_)
    generalize hD : AFile.setBe _ _ _ = D
    intro hwD
    have hr : SlotRule w.hush C D := by
      have := SlotRule.claimAnon (w := w.hush) (A := C) g b hbC hrun htaken
      exact hD ▸ this
    have hDown : D.own = C.own ∧ (D.gr g).beStarting = 0 ∧ D.log = C.log := by
      simp [← hD, hCgr, hfresh.starting]
    obtain ⟨hDown, hst, hDlog⟩ := hDown
    refine wpr_bind (runs_getBe (by simp [hDown, hbC]) (wpr_bind (runs_step
      (runs_modifyGr (by simp [hDown, hgC]) (.inl rfl) ⟨rfl, rfl⟩) fun hwE => ?_)))
    have hr' : SlotRule w.hush D _ := .starting g (D.be b).pid (by rw [hDown, hgC])
      (.inr (.inr (.inl ⟨b, by rw [hDown, hbC], rfl⟩))) (.inl hst)
    have hsE : Steps w.hush C _ := (Steps.slot hr hwD).trans (Steps.slot hr' hwE)
    obtain ⟨haE, -⟩ := haC.steps hwC hsE
    refine runs_jettison hact.hush haE hwE ?_ fun B hs hB hl => hsent B h3 ?_ hfresh ?_ ?_ fun n hn => ?_
    · refine ⟨.inl rfl, by simpa [hDown] using hfC.2.1, ?_⟩
      simp [← hD, hfC.2.2]
    · simp [hB, hDlog, hClog, hun]
    · rw [hC]
      exact hsE.trans hs
    · simp [hB, ← hD]
    · obtain ⟨hne, hn⟩ := hl n hn
      exact ⟨hne, by rw [← hCown, ← hDown]; exact hn⟩

end

/-! ### Whole sections -/

/-- The same section with connections. -/
@[simps] def Who.calling (w : Who) : Who :=
  { w with tells := fun ev => w.tells ev ∨ ∃ b n, ev = .connect b n }

lemma Who.le_calling (w : Who) : w.Le w.calling :=
  ⟨rfl, rfl, fun _ h => h, fun _ h => h, fun _ h => h, rfl, fun _ h => .inl h, fun _ h => h, rfl, fun _ h => h, rfl,
    fun _ h => h⟩

lemma Acts.calling (h : Acts e w) : Acts e w.calling :=
  { h with spawn := fun pid hp => .inl (h.spawn pid hp) }

lemma Who.calling_hush_le (w : Who) : w.calling.hush.Le w.hush := by
  refine ⟨rfl, rfl, fun _ h => h, fun _ h => h, fun _ h => h, rfl, fun ev h => ⟨h.1, ?_⟩, fun _ h => h, rfl,
    fun _ h => h, rfl, fun _ h => h⟩
  rcases h.2 with h' | ⟨b, n, rfl⟩
  · exact h'
  · exact h.1.elim

/-- How a section of `speedy_frontend_connect` ends. -/
inductive Ends (e : Env) (w : Who) (A : AFile) : Section → AFile → Prop
  | queued (g f : SlotNum) (d : Bool) (B : AFile) (hs : Steps w A B) (hl : NoLoose A B)
      (hgave : Gave A B 0) (hf : B.Waits g f e.self e.entry) (hv : B.valid g) :
      Ends e w A (.queued g f d) B
  | kept (g f b : SlotNum) (C B : AFile) (hs : Steps w A C) (hfresh : C.Fresh g b e.entry)
      (hgave : Gave A C b) (h3 : 3 ≤ e.connects b) (hun : .unlink b ∉ B.log)
      (hs' : Steps w.hush (C.note (.connect b 3)) B) (hl : NoLoose A B)
      (hf : B.seat (.chain .feRun) f e.self) (hback : (B.fe f).backend = b)
      (hrun : (B.be b).feRunning = f) : Ends e w A (.kept f b) B
  | sent (g b : SlotNum) (C B : AFile) (hs : Steps w A C) (hfresh : C.Fresh g b e.entry)
      (hgave : Gave A C b) (h3 : 3 ≤ e.connects b) (hun : .unlink b ∉ B.log)
      (hs' : Steps w.hush (C.note (.connect b 3)) B) (hl : NoLoose A B)
      (hrun : (B.be b).feRunning = b) : Ends e w A (.sent b) B
  | failed (g b : SlotNum) (n : ℕ) (sw : Bool) (C B : AFile) (hn : n < 3) (hle : n ≤ e.connects b)
      (hs : Steps w A C) (hfresh : C.Fresh g b e.entry) (hgave : Gave A C b)
      (hs' : Steps w.hush (C.note (.connect b n)) B) (hl : NoLoose A B) (hun : .unlink b ∈ B.log)
      (hfree : B.own b = .free) : Ends e w A (.failed sw) B
  | nothing (sw : Bool) (B : AFile) (hs : Steps w A B) (hgave : Gave A B 0) (hl : NoLoose A B) :
      Ends e w A (.failed sw) B

lemma Steps.call {D : AFile} {n : ℕ} (hs : Steps w A C) (hw : C.Wf)
    (hs' : Steps w.hush (C.note (.connect b n)) D) : Steps w.calling A D := by
  have hr : SlotRule w.calling C (C.note (.connect b n)) :=
    .note _ (.inr ⟨trivial, id, .inr ⟨b, n, rfl⟩⟩)
  exact ((hs.mono w.le_calling).trans (Steps.slot hr (hw.notes [_]))).trans
    (Steps.mono w.le_calling (hs'.mono w.hush_le))

lemma Ends.steps {r : Section} (h : Ends e w A r B) (ha : AInv A) (hw : A.Wf) :
    Steps w.calling A B := by
  cases h with
  | queued g f d B hs => exact hs.mono w.le_calling
  | nothing sw B hs => exact hs.mono w.le_calling
  | kept g f b C B hs hfresh hgave h3 hun hs' => exact hs.call (ha.steps hw hs).2 hs'
  | sent g b C B hs hfresh hgave h3 hun hs' => exact hs.call (ha.steps hw hs).2 hs'
  | failed g b n sw C B hn hle hs hfresh hgave hs' => exact hs.call (ha.steps hw hs).2 hs'

lemma Ends.noLoose {r : Section} (h : Ends e w A r B) : NoLoose A B := by
  cases h <;> assumption

/-- From `get_a_backend` to the end of the section. -/
lemma runs_connectGot {Q : Section → AFile → Prop} {want sw : Bool} (hact : Acts e w) (ha : AInv A)
    (hw : A.Wf) (hk : A.unhurt w) (hs : Steps w A B) (hl : OnlyLoose f A B) (hgave : Gave A B b)
    (hg : B.Got g f b sw e.self e.entry) (h : ∀ r C, Ends e w A r C → (∀ g f d, r ≠ .queued g f d) → Q r C) :
    Runs (connectRest e want f (.got g b sw)) Q B := by
  obtain ⟨ha', hw'⟩ := ha.steps hw hs
  have hno : ∀ C, Settled f B C → NoLoose A C := fun C hC n hn => by
    obtain ⟨hne, hn⟩ := hC n hn
    exact (hl n hn).resolve_left hne
  refine runs_connectRest (w := w.calling) hact.calling ha' hw' (hs.unhurt hk) hg
    (fun b n => .inr ⟨b, n, rfl⟩) (fun C h3 hun hfresh hsC hf hback hrun hset => ?_)
    (fun C h3 hun hfresh hsC hrun hset => ?_) (fun C n hn hle hfresh hsC hun hfree hset => ?_)
    fun C hb0 hsC hset => ?_
    <;> have hsC := hsC.mono w.calling_hush_le
  · exact h _ C (.kept g f b B C hs hfresh hgave h3 hun hsC (hno C hset) hf hback hrun) (by simp)
  · exact h _ C (.sent g b B C hs hfresh hgave h3 hun hsC (hno C hset) hrun) (by simp)
  · exact h _ C (.failed g b n sw B C hn hle hs hfresh hgave hsC (hno C hset) hun hfree) (by simp)
  · refine h _ C (.nothing sw C (hs.trans (hsC.mono w.hush_le)) ?_ (hno C hset)) (by simp)
    exact (hb0 ▸ hgave).trans hsC.gave

/-- The frontend takes a slot. -/
lemma runs_connectEnter {Q : SlotNum → AFile → Prop} {didClean : Bool} (hact : Acts e w) (ha : AInv A)
    (hw : A.Wf) (h : ∀ f D, Steps w A D → OnlyLoose f A D → D.own f = .loose → (D.fe f).pid = e.self →
      (D.fe f).sentSig = false → Gave A D 0 → Q f D) : Runs (connectEnter e didClean) Q A := by
  have hrest : ∀ C, Steps w.aside A C → Runs (do
      let f ← slotAlloc e
      modifyFe f fun s => { s with pid := e.self }
      return f) Q C := by
    intro C hsC
    refine wpr_bind (runs_slotAlloc fun f fl k h0 hfree => wpr_bind (runs_end
      (runs_modifyFe (by simp) ?_)))
    generalize hD : AFile.setFe _ _ _ = D
    intro hwD
    have hr : SlotRule w C D := by
      have := SlotRule.feNew (w := w) (A := C) f fl k e.self ⟨h0, hfree⟩ hact.me
      rw [← hD]
      simpa using this
    have hsD : Steps w A D := hsC.back.trans (Steps.slot hr hwD)
    refine wpr_pure (h f D hsD (fun n hn => ?_) (by simp [← hD]) (by simp [← hD]) (by simp [← hD])
      (hsC.gave_aside.trans (.of_log (by simp [← hD]))))
    by_cases hnf : n = f
    · exact .inl hnf
    · refine .inr (hsC.noLoose ha hw n ?_)
      simpa [← hD, hnf] using hn
  refine wpr_bind (runs_onlyIf (fun _ => ?_) fun _ => hrest A .refl)
  exact runs_frontendCleanRunning hact.aside ha hw fun C hsC => hrest C hsC

/-- A round up to the end or the first wait of `get_a_backend`. -/
lemma runs_connectStart {Q : SlotNum × Got → AFile → Prop} {didClean : Bool} (hact : Acts e w)
    (ha : AInv A) (hw : A.Wf) (hk : A.unhurt w)
    (hfast : ∀ C f g b, Steps w A C → C.lst (.fe g) = [] → C.own b = .chain (.be g) →
      w.tells (.assign g f b 0 false))
    (hqueue : ∀ C f g b, Steps w A C → C.seat (.chain (.fe g)) f e.self → C.lst (.fe g) = [f] →
      C.own b = .chain (.be g) → w.tells (.assign g f b f true))
    (hwait : ∀ f g d B, Steps w A B → B.Waits g f e.self e.entry → B.valid g → NoLoose A B →
      (B.lst (.fe g)).getLast? = some f → Gave A B 0 → Q (f, .wait g d) B)
    (hgot : ∀ f g b sw B, Steps w A B → OnlyLoose f A B → B.Got g f b sw e.self e.entry →
      Gave A B b → Q (f, .got g b sw) B) : Runs (connectStart e didClean) Q A := by
  unfold connectStart
  refine wpr_bind (runs_connectEnter hact ha hw fun f D hsD hl hown hpid hsig hgave => ?_)
  obtain ⟨haD, hwD⟩ := ha.steps hw hsD
  refine wpr_bind (runs_getABackend hact haD hwD (hsD.unhurt hk) ⟨.inl rfl, hown, hpid⟩ hsig
    (fun E g b hsE => hfast E f g b (hsD.trans hsE)) (fun E g b hsE => hqueue E f g b (hsD.trans hsE))
    (fun g d B hsB hfB hvB hlB hlast hg =>
      wpr_pure (hwait f g d B (hsD.trans hsB) hfB hvB ?_ hlast (hgave.trans hg)))
    fun g b sw B hsB hlB hgB hg =>
      wpr_pure (hgot f g b sw B (hsD.trans hsB) (hl.trans hlB) hgB (hgave.trans hg)))
  intro n hn
  refine (hl n (hlB n hn)).resolve_left ?_
  rintro rfl
  simp [hfB.seat.2.1] at hn

lemma runs_frontendConnect {Q : Section → AFile → Prop} {want didClean : Bool} (hact : Acts e w)
    (ha : AInv A) (hw : A.Wf) (hk : A.unhurt w)
    (hfast : ∀ C f g b, Steps w A C → C.lst (.fe g) = [] → C.own b = .chain (.be g) →
      w.tells (.assign g f b 0 false))
    (hqueue : ∀ C f g b, Steps w A C → C.seat (.chain (.fe g)) f e.self → C.lst (.fe g) = [f] →
      C.own b = .chain (.be g) → w.tells (.assign g f b f true))
    (h : ∀ r B, Ends e w A r B →
      (∀ g f d, r = .queued g f d → (B.lst (.fe g)).getLast? = some f) → Q r B) :
    Runs (frontendConnect e want didClean) Q A := by
  refine wpr_bind (runs_connectStart hact ha hw hk hfast hqueue
    (fun f g d B hs hf hv hl hlast hgave => wpr_pure ?_) fun f g b sw B hs hl hg hgave => ?_)
  · refine h _ B (.queued g f d B hs hl hgave hf hv) fun g' f' d' heq => ?_
    injection heq with h1 h2
    rwa [← h1, ← h2]
  · exact runs_connectGot hact ha hw hk hs hl hgave hg fun r C hC hr => h r C hC fun g f d heq =>
      absurd heq (hr g f d)

lemma runs_frontendWake {Q : Section → AFile → Prop} {want d changed : Bool} (hact : Acts e w)
    (ha : AInv A) (hw : A.Wf) (hk : A.unhurt w) (hf : A.seat (.chain (.fe g)) f e.self)
    (he : changed = false → A.valid g → ∃ s, A.own s = .chain (.script g) ∧ A.scr s = e.entry)
    (htell : ∀ C b, Steps w A C → C.seat (.chain (.fe g)) f e.self → Shrunk A C →
      (C.lst (.fe g)).head? = some f → C.own b = .chain (.be g) → w.tells (.assign g f b f true))
    (h : ∀ r B, Ends e w A r B → (∀ g' f' d', r = .queued g' f' d' →
      g' = g ∧ f' = f ∧ Shrunk A B ∧ (.free g ∈ B.log → .free g ∈ A.log)) → Q r B) :
    Runs (frontendWake e want g f d changed) Q A := by
  refine wpr_bind (runs_getABackendWake hact ha hw hk hf he htell
    (fun d B hs hf hv hl hsh hfree hgave => wpr_pure ?_) fun b sw B hs hl hg hgave => ?_)
  · refine h _ B (.queued g f d B hs hl hgave hf hv) fun g' f' d' heq => ?_
    injection heq with h1 h2
    exact ⟨h1.symm, h2.symm, hsh, hfree⟩
  · exact runs_connectGot hact ha hw hk hs hl hgave hg fun r C hC hr => h r C hC fun g f d heq =>
      absurd heq (hr g f d)

end SpeedyCgi.TempFile
