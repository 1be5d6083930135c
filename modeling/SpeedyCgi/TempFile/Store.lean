import SpeedyCgi.TempFile.Layout

/-!
Stores, allocation and freeing, in terms of the layout.

A slot that is allocated is zeroed, and the lists of a slot that was not in use are empty, so a
fresh slot has empty lists whatever it was before. `speedy_group_invalidate` frees the scripts
of a group one after the other without unlinking them, and drops the list as a whole.
-/

namespace SpeedyCgi.TempFile

open Function Lib.Dll Lib.Wp

variable {α : Type} {s : St} {A : AFile} {c : Chain} {x n g m : SlotNum} {l : List SlotNum}

namespace AFile

@[simps -fullyApplied] def setScr (A : AFile) (n : SlotNum) (v : ScrSlot) : AFile := { A with scr := update A.scr n v }
@[simps -fullyApplied] def setBe (A : AFile) (n : SlotNum) (v : BeSlot) : AFile := { A with be := update A.be n v }
@[simps -fullyApplied] def setFe (A : AFile) (n : SlotNum) (v : FeSlot) : AFile := { A with fe := update A.fe n v }
@[simps -fullyApplied] def setGr (A : AFile) (n : SlotNum) (v : GrSlot) : AFile := { A with gr := update A.gr n v }

@[simps -fullyApplied] def setGrnm (A : AFile) (n : SlotNum) (v : List UInt8) : AFile :=
  { A with grnm := update A.grnm n v }

@[simps -fullyApplied] def note (A : AFile) (ev : Event) : AFile := { A with log := ev :: A.log }

/-- Slot `n` becomes the name slot of `g`. -/
@[simps -fullyApplied] def setName (A : AFile) (g n : SlotNum) : AFile :=
  { A with own := update A.own n (.name g), gr := update A.gr g { A.gr g with nameSlot := n } }

/-- Slot `n` is zeroed and in use; `fl` and `k` are the free slots and the slots allocated now. -/
@[simps -fullyApplied] def alloc (A : AFile) (n : SlotNum) (fl : List SlotNum) (k : SlotNum) : AFile :=
  { A with
    own := update A.own n .loose
    free := fl
    alloced := k
    scr := update A.scr n {}
    be := update A.be n {}
    fe := update A.fe n {}
    gr := update A.gr n {}
    grnm := update A.grnm n zeroName }

@[simps -fullyApplied] def release (A : AFile) (n : SlotNum) : AFile :=
  { A with own := update A.own n .free, free := n :: A.free, log := .free n :: A.log }

/-- All scripts of `g` are freed. -/
@[simps -fullyApplied] def dropScripts (A : AFile) (g : SlotNum) : AFile :=
  { A with
    own := fun n => if n ∈ A.lst (.script g) then .free else A.own n
    lst := update A.lst (.script g) []
    free := (A.lst (.script g)).reverse ++ A.free
    log := ((A.lst (.script g)).reverse.map .free) ++ A.log }

end AFile

/-! ### Stores -/

section
variable {Q : Unit → AFile → Prop}

lemma runs_note {ev : Event} (h : Q () (A.note ev)) : Runs (note ev) Q A := by
  intro s hs
  simp only [note, wp_modify]
  exact ⟨A.note ev, { hs with log := by simp [AFile.note, hs.log] }, h⟩

lemma runs_modifyScr {v : ScrSlot → ScrSlot} (hn : A.own n ≠ .out)
    (h : Q () (A.setScr n (v (A.scr n)))) : Runs (modifyScr n v) Q A :=
  runs_writeAt hn h fun s hs => { hs with scr := by simp [AFile.setScr, hs.scr] }

lemma runs_modifyBe {v : BeSlot → BeSlot} (hn : A.own n ≠ .out)
    (h : Q () (A.setBe n (v (A.be n)))) : Runs (modifyBe n v) Q A :=
  runs_writeAt hn h fun s hs => { hs with be := by simp [AFile.setBe, hs.be] }

lemma runs_modifyFe {v : FeSlot → FeSlot} (hn : A.own n ≠ .out)
    (h : Q () (A.setFe n (v (A.fe n)))) : Runs (modifyFe n v) Q A :=
  runs_writeAt hn h fun s hs => { hs with fe := by simp [AFile.setFe, hs.fe] }

lemma runs_modifyGrnm {v : List UInt8 → List UInt8} (hn : A.own n ≠ .out)
    (h : Q () (A.setGrnm n (v (A.grnm n)))) : Runs (modifyGrnm n v) Q A :=
  runs_writeAt hn h fun s hs => { hs with grnm := by simp [AFile.setGrnm, hs.grnm] }

/-- A store to a group slot that leaves the name alone, or goes to a slot without one. -/
lemma runs_modifyGr {v : GrSlot → GrSlot} (hn : A.own n ≠ .out)
    (hv : (v (A.gr n)).nameSlot = (A.gr n).nameSlot ∨ ∀ m, A.own m ≠ .name n)
    (h : Q () (A.setGr n (v (A.gr n)))) : Runs (modifyGr n v) Q A := by
  refine runs_writeAt hn h fun s hs => { hs with gr := by simp [AFile.setGr, hs.gr], name := ?_ }
  intro g m hm
  have hg := hs.name g m hm
  refine ⟨hg.1, ?_⟩
  simp only [AFile.setGr, update_apply]
  split
  · subst g
    rcases hv with hv | hv
    · rw [hv]; exact hg.2
    · exact absurd hm (hv m)
  · exact hg.2

/-- A loose slot becomes the name slot of a group. -/
lemma runs_setName (hg : A.live g) (hm : A.own m = .loose) (hno : ∀ n, A.own n ≠ .name g)
    (h : Q () (A.setName g m)) : Runs (modifyGr g fun s => { s with nameSlot := m }) Q A := by
  refine runs_writeAt hg.1 h fun s hs => ?_
  have hown : ∀ n, update A.own m (.name g) n ≠ .out ↔ A.own n ≠ .out := by
    intro n
    rcases eq_or_ne n m with rfl | hn
    · simp [hm]
    · simp [hn]
  have hfree : ∀ n, update A.own m (.name g) n = .free ↔ A.own n = .free := by
    intro n
    rcases eq_or_ne n m with rfl | hn
    · simp [hm]
    · simp [hn]
  have hlive : ∀ n, (A.setName g m).live n ↔ A.live n := by
    intro n
    simp only [AFile.live, AFile.setName]
    rw [hown, ne_eq, ne_eq, hfree]
  have hus : ∀ c, (A.setName g m).Usable c ↔ A.Usable c := by
    intro c
    simp only [AFile.Usable, hlive]
  refine { hs with
    gr := by simp [AFile.setName, hs.gr]
    chains := fun c hc => hs.chains c ((hus c).mp hc)
    mem := ?_
    freeMem := fun n => (hs.freeMem n).trans (hfree n).symm
    range := fun n => (hown n).trans (hs.range n)
    selfPrev := fun n hn => (hs.selfPrev n ((hown n).mp hn)).trans (hfree n).symm
    usable := fun c n hn => (hus c).mpr (hs.usable c n hn)
    name := ?_ }
  · intro c n
    simp only [AFile.setName, hs.mem]
    rcases eq_or_ne n m with rfl | hn
    · simp [hm]
    · simp [hn]
  · intro g' n hn
    rw [hlive]
    simp only [AFile.setName, update_apply] at hn ⊢
    split at hn
    · obtain rfl : g = g' := by simpa using hn
      simp [*]
    · have hne : g' ≠ g := by rintro rfl; exact hno n hn
      simpa [hne] using hs.name g' n hn

end

/-! ### Allocation -/

lemma Rep.lst_eq_nil (hs : Rep s A) (hn : ¬ A.live n) (hc : c.owner = some n) : A.lst c = [] := by
  by_contra h
  obtain ⟨m, hm⟩ := List.exists_mem_of_ne_nil _ h
  exact hn (hs.usable c m hm n hc)

lemma Rep.alloc (hs : Rep s A) {fl : List SlotNum} {k sf : SlotNum} (hn0 : n ≠ 0)
    (hown : A.own n = .free ∨ A.own n = .out) (hnd : fl.Nodup)
    (hfl : ∀ m, m ∈ fl ↔ m ≠ n ∧ A.own m = .free) (hpath : Path s.file.next sf fl)
    (hk : ∀ m, m = n ∨ A.own m ≠ .out ↔ m ≠ 0 ∧ m ≤ k) :
    Rep { s with file := ({ s.file with slotFree := sf, slotsAlloced := k } : File).bzero n }
      (A.alloc n fl k) := by
  have hdead : ¬ A.live n := by rcases hown with h | h <;> simp [AFile.live, h]
  have hlive : ∀ m, (A.alloc n fl k).live m ↔ m = n ∨ A.live m := by
    intro m
    simp only [AFile.live, AFile.alloc]
    rcases eq_or_ne m n with rfl | hm
    · simp
    · simp [hm]
  have hmem : ∀ c m, m ∈ A.lst c → m ≠ n := by
    rintro c m hm rfl
    have := (hs.mem c m).mp hm
    rcases hown with h | h <;> simp [h] at this
  refine ⟨rfl, ?_, ?_, ?_, ?_, ?_, hs.log, ?_, ?_, ?_, ?_, hnd, ?_, ?_, ?_, ?_⟩
  · simp [File.bzero, AFile.alloc, hs.scr]
  · simp [File.bzero, AFile.alloc, hs.be]
  · simp [File.bzero, AFile.alloc, hs.fe]
  · simp [File.bzero, AFile.alloc, hs.gr]
  · simp [File.bzero, AFile.alloc, hs.grnm]
  · intro c hc
    change ∃ t, IsList (update s.file.next n 0) (update s.file.prev n 0) (ite _ _ _) t (A.lst c) ∧
      (_ → ite _ _ _ = t)
    by_cases ho : c.owner = some n
    · -- the lists of a fresh slot
      have hc' : c = .script n ∨ c = .be n ∨ c = .fe n := by
        cases c <;> simp_all [Chain.owner]
      rw [if_pos hc', if_pos hc', hs.lst_eq_nil hdead ho]
      exact ⟨0, .nil, fun _ => rfl⟩
    · have hc' : ¬ (c = .script n ∨ c = .be n ∨ c = .fe n) := by
        rintro (rfl | rfl | rfl) <;> exact ho rfl
      obtain ⟨t, hl, ht⟩ := hs.chains c fun g hg =>
        ((hlive g).mp (hc g hg)).resolve_left (by rintro rfl; exact ho hg)
      rw [if_neg hc', if_neg hc']
      exact ⟨t, hl.congr (fun a ha => update_of_ne (hmem c a ha) ..)
        fun a ha => update_of_ne (hmem c a ha) .., ht⟩
  · exact hpath.congr fun a ha => update_of_ne ((hfl a).mp ha).1 ..
  · intro c m
    change m ∈ A.lst c ↔ update A.own n .loose m = _
    rw [hs.mem]
    rcases eq_or_ne m n with rfl | hm
    · rcases hown with h | h <;> simp [h]
    · simp [hm]
  · intro m
    change m ∈ fl ↔ update A.own n .loose m = _
    rw [hfl]
    rcases eq_or_ne m n with rfl | hm
    · simp
    · simp [hm]
  · intro m
    change update A.own n .loose m ≠ _ ↔ m ≠ 0 ∧ m ≤ k
    rw [← hk]
    rcases eq_or_ne m n with rfl | hm
    · simp
    · simp [hm]
  · intro m hm
    change update s.file.prev n 0 m = m ↔ update A.own n .loose m = _
    rcases eq_or_ne m n with rfl | hmn
    · simpa using hn0.symm
    · have hm' : A.own m ≠ .out := by simpa [AFile.alloc, hmn] using hm
      simpa [hmn] using hs.selfPrev m hm'
  · intro c m hm g hg
    exact (hlive g).mpr (.inr (hs.usable c m hm g hg))
  · intro g m hm
    have hmn : m ≠ n := by rintro rfl; simp [AFile.alloc] at hm
    obtain ⟨hg, hgm⟩ := hs.name g m (by simpa [AFile.alloc, hmn] using hm)
    have hgn : g ≠ n := by rintro rfl; exact hdead hg
    exact ⟨(hlive g).mpr (.inr hg), by simpa [AFile.alloc, hgn] using hgm⟩

lemma runs_slotAlloc {e : Env} {Q : SlotNum → AFile → Prop}
    (h : ∀ n fl k, n ≠ 0 → A.own n = .free ∨ A.own n = .out → Q n (A.alloc n fl k)) :
    Runs (slotAlloc e) Q A := by
  intro s hs
  simp only [slotAlloc, wp_bind, wp_get, wp_ite]
  cases hf : A.free with
  | cons n fl =>
    obtain ⟨hsf, hpath⟩ : s.file.slotFree = n ∧ Path s.file.next (s.file.next n) fl := by
      have := hs.freeList
      rw [hf] at this
      exact ⟨this.1, this.1 ▸ this.2⟩
    have hown : A.own n = .free := (hs.freeMem n).mp (by simp [hf])
    have hr := hs.inRange (n := n) (by simp [hown])
    have hnd := hs.freeNodup
    rw [hf, List.nodup_cons] at hnd
    rw [hsf, if_pos hr.1, slotNext, wp_readAt hr]
    simp only [modifyFile, wp_modify, wp_pure]
    refine ⟨A.alloc n fl A.alloced, ?_, h n fl A.alloced hr.1 (.inl hown)⟩
    have := hs.alloc (n := n) (k := A.alloced) hr.1 (.inl hown) hnd.2 (fun m => ?_) hpath fun m => ?_
    · rw [← hs.alloced] at this ⊢
      exact this
    · have := hs.freeMem m
      rw [hf, List.mem_cons] at this
      rw [← this]
      constructor
      · intro hm
        exact ⟨by rintro rfl; exact hnd.1 hm, .inr hm⟩
      · rintro ⟨h1, h2⟩
        exact h2.resolve_left h1
    · rw [← hs.range]
      constructor
      · rintro (rfl | hm)
        · simp [hown]
        · exact hm
      · exact .inr
  | nil =>
    have hsf : s.file.slotFree = 0 := by
      have := hs.freeList
      rwa [hf] at this
    have hno : ∀ m, A.own m ≠ .free := fun m hm => by
      have := (hs.freeMem m).mpr hm
      simp [hf] at this
    rw [hsf, if_neg (by simp)]
    split
    · exact .inl rfl
    · split
      · exact .inr (.inl rfl)
      · simp only [modifyFile, wp_modify, wp_pure]
        have hout : A.own (A.alloced + 1) = .out := by
          by_contra hne
          exact absurd ((hs.range _).mp hne).2 (Nat.not_succ_le_self _)
        refine ⟨A.alloc (A.alloced + 1) [] (A.alloced + 1), ?_, ?_⟩
        · have := hs.alloc (n := A.alloced + 1) (k := A.alloced + 1) (Nat.succ_ne_zero _) (.inr hout)
            List.nodup_nil (fun m => by simp [hno m]) (show Path s.file.next 0 [] from rfl) fun m => ?_
          · rw [← hsf] at this
            rw [hs.alloced]
            exact this
          · rw [hs.range]
            constructor
            · rintro (rfl | hm)
              · simp
              · exact ⟨hm.1, Nat.le_succ_of_le hm.2⟩
            · rintro ⟨h0, hm⟩
              rcases Nat.lt_or_eq_of_le hm with hlt | heq
              · exact .inr ⟨h0, Nat.le_of_lt_succ hlt⟩
              · exact .inl heq
        · rw [hs.alloced]
          exact h _ _ _ (Nat.succ_ne_zero _) (.inr hout)

/-! ### Freeing -/

/-- The state after `speedy_slot_free`. -/
def St.release (s : St) (n : SlotNum) : St :=
  { s with
    file := { s.file with
      next := update s.file.next n s.file.slotFree
      prev := update s.file.prev n n
      slotFree := n }
    log := .free n :: s.log }

lemma wp_slotFree {ok : Die → Prop} {Q : Unit → St → Prop} (hn : n ≠ 0 ∧ n ≤ s.file.slotsAlloced)
    (hp : s.file.prev n ≠ n) : wp ok (slotFree n) Q s ↔ Q () (s.release n) := by
  unfold slotFree
  rw [wp_ite, if_neg hn.1, wp_bind, slotPrev, wp_readAt hn, wp_ite, if_neg hp, wp_bind, setPrev,
    wp_writeAt hn, wp_bind, wp_get, wp_bind, setNext, wp_writeAt]
  · simp [modifyFile, note, St.release]
  · exact hn

/-- Slots leave the lists and the free list grows. -/
lemma Rep.frees (hs : Rep s A) (ns : List SlotNum) (nx pv : SlotNum → SlotNum)
    (hd : Chain → SlotNum) (sf : SlotNum) (lst : Chain → List SlotNum) (lg : List Event)
    (hnd : ns.Nodup) (hns : ∀ n ∈ ns, A.live n)
    (hempty : ∀ n ∈ ns, ∀ c : Chain, c.owner = some n → lst c = [])
    (hname : ∀ n ∈ ns, ∀ m, A.own m ≠ .name n)
    (hnext : ∀ a, a ∉ ns → nx a = s.file.next a)
    (hprev : ∀ a, pv a = if a ∈ ns then a else s.file.prev a)
    (hlst : ∀ c a, a ∈ lst c ↔ a ∈ A.lst c ∧ a ∉ ns)
    (hends : ∀ c, A.Usable c → hd c = s.file.head c ∧ lst c = A.lst c ∨
      hd c = 0 ∧ lst c = [] ∧ c.hasTail = false)
    (hpath : Path nx sf (ns ++ A.free)) :
    Rep ⟨{ s.file with next := nx, prev := pv, head := hd, slotFree := sf }, lg⟩
      { A with
        own := fun n => if n ∈ ns then .free else A.own n
        lst := lst
        free := ns ++ A.free
        log := lg } := by
  have hlive : ∀ m, (if m ∈ ns then Place.free else A.own m) ≠ .out ∧
      (if m ∈ ns then Place.free else A.own m) ≠ .free ↔ A.live m ∧ m ∉ ns := by
    intro m
    by_cases hm : m ∈ ns <;> simp [hm, AFile.live]
  refine ⟨hs.alloced, hs.scr, hs.be, hs.fe, hs.gr, hs.grnm, rfl, ?_, hpath, ?_, ?_, ?_, ?_, ?_, ?_, ?_⟩
  · intro c hc
    have hu : A.Usable c := fun g hg => ((hlive g).mp (hc g hg)).1
    rcases hends c hu with ⟨hh, hl⟩ | ⟨hh, hl, ht⟩
    · obtain ⟨t, hlist, ht⟩ := hs.chains c hu
      have hnot : ∀ a ∈ A.lst c, a ∉ ns := fun a ha => ((hlst c a).mp (hl ▸ ha)).2
      refine ⟨t, ?_, ht⟩
      change IsList nx pv (hd c) t (lst c)
      rw [hh, hl]
      exact hlist.congr (fun a ha => hnext a (hnot a ha)) fun a ha => by
        rw [hprev, if_neg (hnot a ha)]
    · refine ⟨0, ?_, fun h => by simp [ht] at h⟩
      change IsList nx pv (hd c) 0 (lst c)
      rw [hh, hl]
      exact .nil
  · intro c n
    change n ∈ lst c ↔ _
    rw [hlst, hs.mem]
    by_cases hn : n ∈ ns <;> simp [hn]
  · intro n
    rw [List.mem_append, hs.freeMem]
    by_cases hn : n ∈ ns <;> simp [hn]
  · refine List.nodup_append.mpr ⟨hnd, hs.freeNodup, ?_⟩
    rintro a ha b hb rfl
    exact (hns a ha).2 ((hs.freeMem a).mp hb)
  · intro n
    rw [← hs.range]
    by_cases hn : n ∈ ns
    · simp [hn, (hns n hn).1]
    · simp [hn]
  · intro n hn
    change pv n = n ↔ _
    rw [hprev]
    by_cases hm : n ∈ ns
    · simp [hm]
    · simp only [hm, if_false] at hn ⊢
      exact hs.selfPrev n hn
  · intro c n hn g hg
    have hmem : n ∈ lst c := hn
    refine (hlive g).mpr ⟨hs.usable c n ((hlst c n).mp hmem).1 g hg, fun hgn => ?_⟩
    rw [hempty g hgn c hg] at hmem
    simp at hmem
  · intro g n hn
    have hn' : n ∉ ns ∧ A.own n = .name g := by
      by_cases hm : n ∈ ns
      · simp [hm] at hn
      · exact ⟨hm, by simpa [hm] using hn⟩
    obtain ⟨h1, h2⟩ := hs.name g n hn'.2
    exact ⟨(hlive g).mpr ⟨h1, fun hg => hname g hg n hn'.2⟩, h2⟩

lemma runs_slotFree {Q : Unit → AFile → Prop} (hn : A.own n = .loose ∨ ∃ g, A.own n = .name g)
    (hempty : ∀ c : Chain, c.owner = some n → A.lst c = []) (hname : ∀ m, A.own m ≠ .name n)
    (h : Q () (A.release n)) : Runs (slotFree n) Q A := by
  intro s hs
  have hlive : A.live n := by rcases hn with h | ⟨g, h⟩ <;> simp [AFile.live, h]
  have hself : s.file.prev n ≠ n := fun heq => hlive.2 ((hs.selfPrev n hlive.1).mp heq)
  have hno : ∀ c, n ∉ A.lst c := fun c hm => by
    have := (hs.mem c n).mp hm
    rcases hn with h | ⟨g, h⟩ <;> simp [h] at this
  rw [wp_slotFree (hs.inRange hlive.1) hself]
  refine ⟨A.release n, ?_, h⟩
  have hown : (fun m => if m ∈ [n] then Place.free else A.own m) = update A.own n .free := by
    funext m
    simp [update_apply]
  have := hs.frees [n] (update s.file.next n s.file.slotFree) (update s.file.prev n n)
    s.file.head n A.lst (.free n :: A.log) (by simp) (by simpa using hlive) (by simpa using hempty)
    (by simpa using hname) (fun a ha => update_of_ne (by simpa using ha) ..)
    (fun a => by rw [update_apply]; simp only [List.mem_singleton]; split <;> simp_all)
    (fun c a => ⟨fun ha => ⟨ha, fun he => hno c (by simpa using List.mem_singleton.mp he ▸ ha)⟩,
      And.left⟩)
    (fun _ _ => .inl ⟨rfl, rfl⟩)
    ⟨rfl, by
      rw [update_self]
      exact hs.freeList.congr fun a ha => update_of_ne (by
        rintro rfl; exact hlive.2 ((hs.freeMem a).mp ha)) ..⟩
  rw [hown] at this
  unfold St.release
  rw [hs.log]
  exact this

/-- The loop over the script list: the scripts are freed, each one's successor read before. -/
lemma wp_freeScripts {ok : Die → Prop} {Q : Unit → St → Prop} {fuel : ℕ} {h : SlotNum}
    (hp : Path s.file.next h l) (hnd : l.Nodup)
    (hl : ∀ n ∈ l, (n ≠ 0 ∧ n ≤ s.file.slotsAlloced) ∧ s.file.prev n ≠ n) (hf : l.length < fuel) :
    wp ok (freeScripts fuel h) Q s ↔ Q () (l.foldl St.release s) := by
  induction l generalizing s h fuel with
  | nil =>
    cases fuel with
    | zero => exact absurd hf (Nat.not_lt_zero _)
    | succ fuel =>
      obtain rfl : h = 0 := hp
      simp [freeScripts]
  | cons n l ih =>
    cases fuel with
    | zero => exact absurd hf (Nat.not_lt_zero _)
    | succ fuel =>
      obtain ⟨rfl, hp⟩ := hp
      obtain ⟨⟨hr, hself⟩, hl⟩ := List.forall_mem_cons.mp hl
      rw [List.nodup_cons] at hnd
      have hne : ∀ a ∈ l, a ≠ h := fun a ha => by rintro rfl; exact hnd.1 ha
      rw [freeScripts, wp_ite, if_neg hr.1, wp_bind, slotNext, wp_readAt hr, wp_bind,
        wp_slotFree hr hself, ih (s := s.release h)]
      · rfl
      · exact hp.congr fun a ha => update_of_ne (hne a ha) ..
      · exact hnd.2
      · intro a ha
        refine ⟨(hl a ha).1, ?_⟩
        change update s.file.prev h h a ≠ a
        rw [update_of_ne (hne a ha)]
        exact (hl a ha).2
      · exact Nat.lt_of_succ_lt_succ hf

/-- What freeing several slots leaves. -/
lemma foldl_release (l : List SlotNum) (hnd : l.Nodup) (s : St) {fl : List SlotNum}
    (hpath : Path s.file.next s.file.slotFree fl) (hfl : ∀ n ∈ l, n ∉ fl) :
    ∃ nx pv sf, l.foldl St.release s = ⟨{ s.file with next := nx, prev := pv, slotFree := sf },
        (l.reverse.map .free) ++ s.log⟩ ∧
      (∀ a, a ∉ l → nx a = s.file.next a) ∧
      (∀ a, pv a = if a ∈ l then a else s.file.prev a) ∧ Path nx sf (l.reverse ++ fl) := by
  induction l generalizing s fl with
  | nil => exact ⟨_, _, _, rfl, fun _ _ => rfl, by simp, by simpa using hpath⟩
  | cons n l ih =>
    rw [List.nodup_cons] at hnd
    obtain ⟨hn, hl⟩ := List.forall_mem_cons.mp hfl
    have hpath' : Path (s.release n).file.next (s.release n).file.slotFree (n :: fl) := by
      refine ⟨rfl, ?_⟩
      simp only [St.release, update_self]
      exact hpath.congr fun a ha => update_of_ne (by rintro rfl; exact hn ha) ..
    obtain ⟨nx, pv, sf, heq, h1, h2, h3⟩ := ih hnd.2 (s.release n) hpath' fun m hm => by
      rw [List.mem_cons, not_or]
      exact ⟨by rintro rfl; exact hnd.1 hm, hl m hm⟩
    refine ⟨nx, pv, sf, ?_, fun a ha => ?_, fun a => ?_, by simpa using h3⟩
    · rw [List.foldl_cons, heq]
      simp [St.release]
    · rw [List.mem_cons, not_or] at ha
      rw [h1 a ha.2]
      exact update_of_ne ha.1 ..
    · rw [h2]
      by_cases ha : a ∈ l
      · simp [ha]
      · simp only [ha, if_false, List.mem_cons, or_false, St.release, update_apply]
        split <;> simp_all

lemma runs_freeScriptList {Q : Unit → AFile → Prop} (hg : A.live g)
    (hempty : ∀ n ∈ A.lst (.script g), ∀ c : Chain, c.owner = some n → A.lst c = [])
    (hname : ∀ n ∈ A.lst (.script g), ∀ m, A.own m ≠ .name n)
    (h : Q () (A.dropScripts g)) : Runs (freeScriptList g) Q A := by
  intro s hs
  have hu : A.Usable (.script g) := by rintro _ ⟨⟩; exact hg
  obtain ⟨t, hl, -⟩ := hs.chains _ hu
  have hown : ∀ n ∈ A.lst (.script g), A.own n = .chain (.script g) := fun n hn =>
    (hs.mem _ n).mp hn
  simp only [freeScriptList, getHead, loopFuel, wp_bind, wp_get, wp_pure]
  rw [wp_freeScripts hl.seg.path hl.nodup]
  · obtain ⟨nx, pv, sf, heq, hnext, hprev, hpath⟩ := foldl_release _ hl.nodup s hs.freeList
      fun n hn hf => by
        have := (hs.freeMem n).mp hf
        simp [hown n hn] at this
    rw [heq]
    simp only [setHead, modifyFile, wp_modify]
    refine ⟨A.dropScripts g, ?_, h⟩
    have := hs.frees (A.lst (.script g)).reverse nx pv (update s.file.head (.script g) 0) sf
      (update A.lst (.script g) []) ((A.lst (.script g)).reverse.map .free ++ A.log)
      (List.nodup_reverse.mpr hl.nodup)
      (fun n hn => by simp [AFile.live, hown n (List.mem_reverse.mp hn)])
      (fun n hn c hc => ?_) (fun n hn => hname n (List.mem_reverse.mp hn))
      (fun a ha => hnext a (by simpa using ha)) (by simpa using hprev) (fun c a => ?_)
      (fun c _ => ?_) hpath
    · rw [← hs.log] at this
      simpa [AFile.dropScripts, hs.log] using this
    · rcases eq_or_ne c (.script g) with rfl | hne
      · simp
      · rw [update_of_ne hne]
        exact hempty n (List.mem_reverse.mp hn) c hc
    · rcases eq_or_ne c (.script g) with rfl | hne
      · simp
      · rw [update_of_ne hne]
        simp only [List.mem_reverse]
        exact ⟨fun ha => ⟨ha, fun ha' => hne (hs.disjoint ha ha')⟩, And.left⟩
    · rcases eq_or_ne c (.script g) with rfl | hne
      · exact .inr ⟨by simp, by simp, rfl⟩
      · exact .inl ⟨update_of_ne hne .., update_of_ne hne ..⟩
  · intro n hn
    refine ⟨hs.mem_inRange hn, fun heq => ?_⟩
    have := (hs.selfPrev n (by simp [hown n hn])).mp heq
    simp [hown n hn] at this
  · rw [hs.alloced]
    exact Nat.lt_succ_of_le (hs.length_le _)

/-! ### What the layout itself satisfies -/

/-- The facts of `Rep` that do not mention the file. -/
structure AFile.Wf (A : AFile) : Prop where
  mem : ∀ c n, n ∈ A.lst c ↔ A.own n = .chain c
  nodup : ∀ c, (A.lst c).Nodup
  freeMem : ∀ n, n ∈ A.free ↔ A.own n = .free
  freeNodup : A.free.Nodup
  range : ∀ n, A.own n ≠ .out ↔ n ≠ 0 ∧ n ≤ A.alloced
  usable : ∀ c n, n ∈ A.lst c → A.Usable c
  name : ∀ g n, A.own n = .name g → A.live g ∧ (A.gr g).nameSlot = n
  length : ∀ c, (A.lst c).length ≤ A.alloced

lemma Rep.wf (hs : Rep s A) : A.Wf :=
  ⟨hs.mem, hs.nodup, hs.freeMem, hs.freeNodup, hs.range, hs.usable, hs.name, hs.length_le⟩

/-- A program runs on files, so the layout it starts from is well formed. -/
lemma runs_wf {m : M α} {Q : α → AFile → Prop} (h : A.Wf → Runs m Q A) : Runs m Q A :=
  fun s hs => h hs.wf s hs

/-- So is the layout it ends with. -/
lemma runs_mono {m : M α} {Q Q' : α → AFile → Prop} (h : Runs m Q A)
    (hQ : ∀ r B, B.Wf → Q r B → Q' r B) : Runs m Q' A := by
  intro s hs
  exact wp_mono (h s hs) fun r s' ⟨B, hB, hq⟩ => ⟨B, hB, hQ r B hB.wf hq⟩

end SpeedyCgi.TempFile
