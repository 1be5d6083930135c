import SpeedyCgi.TempFile.Play
import SpeedyCgi.TempFile.Reach

/-!
The temp file between any two sections.

Where a slot is and what a list holds is read off the file alone, along its links.
-/

namespace SpeedyCgi.TempFile

open Function Lib.Dll Lib.Wp

variable {W W' : World} {A B : AFile} {w : Who} {e : Env} {a : Act} {p q : Pid} {g b f n : SlotNum}
  {c : Chain} {s : St} {l : List SlotNum} {due : Pid → End → Prop}

/-- `l` are the slots of list `c` in order; the links go both ways, and the ends are right. -/
def File.Holds (f : File) (c : Chain) (l : List SlotNum) : Prop :=
  ∃ t, IsList f.next f.prev (f.head c) t l ∧ (c.hasTail = true → f.tail c = t)

/-- `l` are the free slots in order. -/
structure File.FreeList (f : File) (l : List SlotNum) : Prop where
  path : Path f.next f.slotFree l
  nodup : l.Nodup
  pos : 0 ∉ l

def File.isGroup (f : File) (g : SlotNum) : Prop := ∃ l, f.Holds .group l ∧ g ∈ l

/-- Slot `n` belongs there. -/
def File.At (f : File) (n : SlotNum) : Place → Prop
  | .free => ∃ l, f.FreeList l ∧ n ∈ l
  | .chain c => (∀ g, c.owner = some g → f.isGroup g) ∧ ∃ l, f.Holds c l ∧ n ∈ l
  | .name g => f.isGroup g ∧ n ≠ 0 ∧ (f.gr g).nameSlot = n
  | .out | .loose => False

/-- `speedy_group_isvalid` -/
def File.valid (f : File) (g : SlotNum) : Prop := f.head (.script g) ≠ 0

/-! ### The file and its layout -/

namespace Rep

lemma holds_lst (hs : Rep s A) (hu : A.Usable c) : s.file.Holds c (A.lst c) := hs.chains c hu

lemma holds_iff (hs : Rep s A) (hu : A.Usable c) : s.file.Holds c l ↔ l = A.lst c := by
  constructor
  · rintro ⟨t, hl, -⟩
    obtain ⟨t', hl', -⟩ := hs.chains c hu
    exact hl.seg.path.unique hl'.seg.path hl.pos hl'.pos
  · rintro rfl
    exact hs.holds_lst hu

lemma freeListIs (hs : Rep s A) : s.file.FreeList A.free where
  path := hs.freeList
  nodup := hs.freeNodup
  pos h := by simpa [hs.zero] using (hs.freeMem 0).mp h

lemma freeList_iff (hs : Rep s A) : s.file.FreeList l ↔ l = A.free := by
  constructor
  · intro h
    exact h.path.unique hs.freeListIs.path h.pos hs.freeListIs.pos
  · rintro rfl
    exact hs.freeListIs

lemma usable_group : A.Usable .group := by rintro _ ⟨⟩

lemma isGroup_iff (hs : Rep s A) : s.file.isGroup g ↔ A.own g = .chain .group := by
  simp only [File.isGroup, hs.holds_iff usable_group, exists_eq_left, hs.mem]

lemma usable_of_groups (hs : Rep s A) (h : ∀ g, c.owner = some g → s.file.isGroup g) : A.Usable c :=
  fun g hg => AFile.live_of (hs.isGroup_iff.mp (h g hg))

/-- Where a slot is. -/
lemma at_iff {p : Place} (hs : Rep s A) (hh : Housed A) (h : p ≠ .out) (h' : p ≠ .loose) :
    s.file.At n p ↔ A.own n = p := by
  cases p with
  | out => exact absurd rfl h
  | loose => exact absurd rfl h'
  | free => simp only [File.At, hs.freeList_iff, exists_eq_left, hs.freeMem]
  | chain c =>
    constructor
    · rintro ⟨hg, l, hl, hn⟩
      rw [hs.holds_iff (hs.usable_of_groups hg)] at hl
      exact (hs.mem c n).mp (hl ▸ hn)
    · intro hn
      exact ⟨fun g hg => hs.isGroup_iff.mpr (hh.chain n c g hn hg), _,
        hs.holds_lst (Usable.of_own hs hn), (hs.mem c n).mpr hn⟩
  | name g =>
    simp only [File.At, hs.isGroup_iff]
    rw [hs.gr]
    constructor
    · rintro ⟨hg, h0, rfl⟩
      exact hh.nameSlot g hg h0
    · intro hn
      exact ⟨hh.name n g hn, hs.ne_zero (by simp [hn]), (hs.name g n hn).2⟩

lemma at_chain (hs : Rep s A) (hh : Housed A) : s.file.At n (.chain c) ↔ A.own n = .chain c :=
  hs.at_iff hh (by simp) (by simp)

lemma valid_iff (hs : Rep s A) (hg : A.own g = .chain .group) : s.file.valid g ↔ A.valid g := by
  have hu : A.Usable (.script g) := by
    rintro _ ⟨⟩
    exact AFile.live_of hg
  obtain ⟨t, hl, -⟩ := hs.chains _ hu
  rw [File.valid, AFile.valid, ne_eq, show s.file.head (.script g) = 0 ↔ _ from hl.head_eq_zero]

end Rep

namespace World

lemma Inv.isGroup_iff (hi : W.Inv due A) : W.file.isGroup g ↔ A.own g = .chain .group :=
  hi.rep.isGroup_iff

lemma Inv.at_iff {p : Place} (hi : W.Inv due A) (h : p ≠ .out) (h' : p ≠ .loose) :
    W.file.At n p ↔ A.own n = p := hi.rep.at_iff hi.inv.housed h h'

lemma Inv.at_chain (hi : W.Inv due A) : W.file.At n (.chain c) ↔ A.own n = .chain c :=
  hi.rep.at_chain hi.inv.housed

lemma Inv.valid_iff (hi : W.Inv due A) (hg : A.own g = .chain .group) : W.file.valid g ↔ A.valid g :=
  hi.rep.valid_iff hg

lemma Inv.file_be (hi : W.Inv due A) : W.file.be = A.be := hi.rep.be

lemma Inv.file_fe (hi : W.Inv due A) : W.file.fe = A.fe := hi.rep.fe

lemma Inv.file_gr (hi : W.Inv due A) : W.file.gr = A.gr := hi.rep.gr

lemma Inv.file_scr (hi : W.Inv due A) : W.file.scr = A.scr := hi.rep.scr

lemma Inv.file_grnm (hi : W.Inv due A) : W.file.grnm = A.grnm := hi.rep.grnm

/-! ### No section finds the file damaged -/

/-- The locked section that a step runs. -/
def program (W : World) : Act → Option (M Unit)
  | .connect e want =>
    match W.role e.self with
    | .idle didClean => if W.dead e.self = none then some (do
        let _ ← frontendConnect e want didClean) else none
    | _ => none
  | .wake e fileChanged =>
    match W.role e.self with
    | .queued g f want didSpawn _ _ => if W.dead e.self = none then some (do
        let _ ← frontendWake e want g f didSpawn fileChanged) else none
    | _ => none
  | .collect e =>
    match W.role e.self with
    | .running f _ _ => if W.dead e.self = none then some (do
        let _ ← frontendCollectStatus e f) else none
    | _ => none
  | .init e =>
    match W.role e.self with
    | .born => if W.dead e.self = none then some (do
        let _ ← parentInit e) else none
    | _ => none
  | .iterate e cs =>
    match W.role e.self with
    | .parent g (some woken) _ =>
      if W.dead e.self = none ∧ W.children e.self cs then some (do
        let _ ← parentIteration e g woken.usr1 woken.alrm cs) else none
    | _ => none
  | .put e =>
    match W.role e.self with
    | .backend s => if W.dead e.self = none ∧ s.phase = .ready then some (do
        let _ ← perlWait e s.g s.b false) else none
    | _ => none
  | .accepted e =>
    match W.role e.self with
    | .backend s => if W.dead e.self = none ∧ s.phase = .accepted then some (do
        let _ ← perlAccepted e s.g) else none
    | _ => none
  | .report e more =>
    match W.role e.self with
    | .backend s =>
      match s.phase with
      | .ran val => if W.dead e.self = none then some (do
          let _ ← perlNext e s.g s.b val more (W.parent e.self).isNone) else none
      | _ => none
    | _ => none
  | _ => none

lemma sect_total {α : Type} {m : M α} {k : α → World → World} (W : World) :
    (∃ W', W.sect p m k = some W') ∨ ∃ d, (do let _ ← m : M Unit) { file := W.file } = .error d := by
  unfold sect
  cases hm : m { file := W.file } with
  | ok r => exact .inl ⟨_, rfl⟩
  | error d => exact .inr ⟨d, by simp [Bind.bind, StateT.bind, hm, Except.bind]⟩

/-- A step is possible unless its section ends in the middle. -/
lemma step_or_dies {m : M Unit} (h : W.program a = some m) :
    (∃ W', W.step a = some W') ∨ ∃ d, m { file := W.file } = .error d := by
  cases a with
  | iterate e cs =>
    rw [program] at h
    split at h <;> try cases h
    rename_i g woken answered hr
    split at h <;> cases h
    rename_i hd
    simp only [step, hr, hd, and_self, if_true]
    rw [← (collect_frame W cs).1]
    exact sect_total _
  | report e more =>
    rw [program] at h
    split at h <;> try cases h
    rename_i s hr
    split at h <;> try cases h
    rename_i val hv
    split at h <;> cases h
    rename_i hd
    simp only [step, hr, hv, hd, if_true]
    exact sect_total (W.conclude (s.taken.map Sock.conn) (.reported val))
  | connect | wake | collect | init | put | accepted =>
    rw [program] at h
    split at h <;> try cases h
    split at h <;> cases h
    simp only [step, *, and_self, if_true]
    exact sect_total W
  | _ => cases h

/-- A section never finds the file damaged. -/
lemma Inv.program_runs {m : M Unit} (hi : W.Inv W.untold A) (hf : W.Fair a) (h : W.program a = some m) :
    Runs m (fun _ _ => True) A := by
  have hbind : ∀ {α : Type} {m : M α} {Q : α → AFile → Prop}, Runs m Q A →
      Runs (do let _ ← m) (fun _ _ => True) A := fun hm =>
    wpr_bind (wpr_mono hm fun _ _ _ => wpr_pure trivial)
  cases a with
  | connect e want =>
    rw [program] at h
    split at h <;> try cases h
    split at h <;> cases h
    exact hbind (hi.runsConnect _ hf ‹_› ‹_›)
  | wake e changed =>
    rw [program] at h
    split at h <;> try cases h
    split at h <;> cases h
    exact hbind (hi.runsWake hf ‹_› ‹_›)
  | collect e =>
    rw [program] at h
    split at h <;> try cases h
    split at h <;> cases h
    exact hbind (hi.runsCollect hf ‹_› ‹_›)
  | init e =>
    rw [program] at h
    split at h <;> try cases h
    split at h <;> cases h
    exact hbind (hi.runsInit hf ‹_› ‹_›)
  | iterate e cs =>
    rw [program] at h
    split at h <;> try cases h
    split at h <;> cases h
    rename_i hr hd
    exact hbind (hi.runsIterate hf hr hd.1 hd.2)
  | put e =>
    rw [program] at h
    split at h <;> try cases h
    split at h <;> cases h
    rename_i hr hd
    exact hbind (hi.runsPut hf hr hd.1 hd.2)
  | accepted e =>
    rw [program] at h
    split at h <;> try cases h
    split at h <;> cases h
    rename_i hr hd
    exact hbind (hi.runsAccepted hf hr hd.1 hd.2)
  | report e more =>
    rw [program] at h
    split at h <;> try cases h
    split at h <;> try cases h
    split at h <;> cases h
    exact hbind (hi.runsReport _ hf ‹_› ‹_› ‹_›)
  | _ => cases h

/-- Every slot is in one place, the lists are well formed, and no section ends in the middle but for
the limits of the file and a `fork` that fails. -/
theorem partition (h : Reachable W) :
    (∀ n, n ≠ 0 ∧ n ≤ W.file.slotsAlloced → ∃! p, W.file.At n p) ∧
    (∀ n p, W.file.At n p → n ≠ 0 ∧ n ≤ W.file.slotsAlloced) ∧
    (∀ c, (∀ g, c.owner = some g → W.file.isGroup g) → ∃ l, W.file.Holds c l) ∧
    (∃ l, W.file.FreeList l) ∧
    (∀ n, n ≠ 0 ∧ n ≤ W.file.slotsAlloced → (W.file.prev n = n ↔ W.file.At n .free)) ∧
    ∀ a m, W.Fair a → W.program a = some m →
      (∃ W', W.step a = some W') ∨ ∃ d, Die.Allowed d ∧ m { file := W.file } = .error d := by
  obtain ⟨A, hi⟩ := h.inv
  have hrange : ∀ n, n ≠ 0 ∧ n ≤ W.file.slotsAlloced ↔ A.own n ≠ .out := fun n => by
    rw [show W.file.slotsAlloced = A.alloced from hi.rep.alloced, hi.rep.range]
  have hat : ∀ n p, W.file.At n p → A.own n = p ∧ p ≠ .out := by
    intro n p hn
    have hp : p ≠ .out := by
      rintro rfl
      exact hn
    have hp' : p ≠ .loose := by
      rintro rfl
      exact hn
    exact ⟨(hi.at_iff hp hp').mp hn, hp⟩
  refine ⟨fun n hn => ?_, fun n p hn => ?_, fun c hc => ?_, ⟨A.free, hi.rep.freeListIs⟩, fun n hn => ?_,
    fun a m hf hm => ?_⟩
  · have hn := (hrange n).mp hn
    exact ⟨A.own n, (hi.at_iff hn (hi.still n)).mpr rfl, fun p hp => (hat n p hp).1.symm⟩
  · obtain ⟨rfl, hp⟩ := hat n p hn
    exact (hrange n).mpr hp
  · exact ⟨_, hi.rep.holds_lst (hi.rep.usable_of_groups hc)⟩
  · rw [hi.at_iff (by simp) (by simp)]
    exact hi.rep.selfPrev n ((hrange n).mp hn)
  · refine (step_or_dies hm).imp_right fun ⟨d, hd⟩ => ⟨d, ?_, hd⟩
    have := hi.program_runs hf hm _ hi.rep
    simpa [wp, hd] using this

theorem partition_served : ∃ W : World, W.log ≠ [] ∧ ∀ n, n ≠ 0 ∧ n ≤ 4 → ∃! p, W.file.At n p := by
  obtain ⟨W, hW, h⟩ := exists_of_play (fun W => (W.log ≠ [] : Bool) && W.file.slotsAlloced == 4) served
    (x := true) (by decide +kernel)
  simp only [Bool.and_eq_true, decide_eq_true_eq, beq_iff_eq] at h
  exact ⟨W, h.1, h.2 ▸ (partition hW).1⟩

/-! ### Pairs of frontends and backends -/

/-- A step is a section that has followed the rules, or leaves the file alone. -/
lemma Inv.turns (hi : W.Inv W.untold A) (hf : W.Fair a) (h : W.step a = some W') :
    ∃ w B, Steps w A B ∧ W'.Inv W'.untold B.calm ∧
      (∀ b, w.puts b → (W'.file.be b).feRunning = b ∨ W.Puts a b) ∧
      (W'.file = W.file ∨ W'.log = B.log) := by
  cases hi.moves hf h with
  | quiet ha hfile hlog hi' =>
    refine ⟨{ W.who 0 0 with live := fun _ => False }, A, .refl, ?_, fun _ => False.elim, .inl hfile⟩
    rwa [AFile.calm, ← hi.log]
  | sect e cs w B W₀ due s r0 ro ha h hmax hputs =>
    exact ⟨w, B, h.turn.steps, h.inv, hputs, .inr h.log⟩

/-- Backends and running frontends point at each other. A backend that waits has waited before, or
has just put itself on the wait list. -/
theorem pairing (h : Reachable W) :
    (∀ g b, W.file.At b (.chain (.be g)) → (W.file.be b).feRunning = 0 ∨ (W.file.be b).feRunning = b ∨
      W.file.At (W.file.be b).feRunning (.chain .feRun) ∧
        (W.file.fe (W.file.be b).feRunning).backend = b) ∧
    (∀ f, W.file.At f (.chain .feRun) → (W.file.fe f).backend = 0 ∨
      (∃! g, W.file.At (W.file.fe f).backend (.chain (.be g))) ∧
        (W.file.be (W.file.fe f).backend).feRunning = f) ∧
    ∀ a W', W.Fair a → W.step a = some W' → ∀ g b, W'.file.At b (.chain (.be g)) →
      (W'.file.be b).feRunning = 0 →
        W.file.At b (.chain (.be g)) ∧ (W.file.be b).feRunning = 0 ∨ W.Puts a b := by
  obtain ⟨A, hi⟩ := h.inv
  refine ⟨fun g b hb => ?_, fun f hf => ?_, fun a W' hf hs g b hb h0 => ?_⟩
  · simp only [hi.at_chain, hi.file_be, hi.file_fe] at hb ⊢
    exact hi.inv.paired.backend g b hb
  · simp only [hi.at_chain, hi.file_be, hi.file_fe] at hf ⊢
    refine (hi.inv.paired.frontend f hf).imp_right fun ⟨g, hg, hrun⟩ => ⟨⟨g, hg, fun g' hg' => ?_⟩, hrun⟩
    simpa [hg] using hg'.symm
  · obtain ⟨w, B, hst, hi', hputs, -⟩ := hi.turns hf hs
    by_cases hp : w.puts b
    · refine .inr ((hputs b hp).resolve_left fun hself => ?_)
      rw [h0] at hself
      rw [hi'.at_chain, ← hself, hi'.rep.zero] at hb
      cases hb
    · simp only [hi'.at_chain, hi'.file_be, AFile.calm_own, AFile.calm_be] at hb h0
      simp only [hi.at_chain, hi.file_be]
      exact .inl (hst.waiting hi.rep.wf hi.inv hp hb h0)

theorem pairing_served : ∃ W : World, W.role 2 = .running 1 4 ⟨2, 4⟩ ∧
    ∀ f, W.file.At f (.chain .feRun) → (W.file.fe f).backend = 0 ∨
      (∃! g, W.file.At (W.file.fe f).backend (.chain (.be g))) ∧
        (W.file.be (W.file.fe f).backend).feRunning = f := by
  obtain ⟨W, hW, h⟩ := exists_of_play (fun W => W.role 2) served (x := .running 1 4 ⟨2, 4⟩)
    (by decide +kernel)
  exact ⟨W, h, (pairing hW).2.1⟩

/-! ### The group list -/

/-- Valid groups stand before the others; names, and scripts of groups without a name, are there once
only; a group that is not valid stays so until it is freed. -/
theorem groups (h : Reachable W) :
    (∃ l, W.file.Holds .group l ∧ l.Pairwise fun g g' => W.file.valid g' → W.file.valid g) ∧
    (∀ g, W.file.isGroup g → ¬ W.file.valid g → (∀ s, ¬ W.file.At s (.chain (.script g))) ∧
      (W.file.gr g).nameSlot = 0 ∧ ∀ n, ¬ W.file.At n (.name g)) ∧
    (∀ g g' n n', W.file.At n (.name g) → W.file.At n' (.name g') →
      W.file.grnm n = W.file.grnm n' → g = g') ∧
    (∀ g, W.file.isGroup g → W.file.valid g → (W.file.gr g).nameSlot = 0 →
      ∃ s, W.file.Holds (.script g) [s]) ∧
    (∀ g g' s s', W.file.At s (.chain (.script g)) → W.file.At s' (.chain (.script g')) →
      (W.file.gr g).nameSlot = 0 → (W.file.gr g').nameSlot = 0 →
      (W.file.scr s).same (W.file.scr s') → g = g') ∧
    (∀ g s s', W.file.At s (.chain (.script g)) → W.file.At s' (.chain (.script g)) →
      (W.file.scr s).same (W.file.scr s') → s = s') ∧
    ∀ a W', W.Fair a → W.step a = some W' → ∀ g, W.file.isGroup g → ¬ W.file.valid g →
      W'.file.isGroup g ∧ ¬ W'.file.valid g ∨ .free g ∈ W'.log := by
  obtain ⟨A, hi⟩ := h.inv
  have hfound := hi.inv.found
  have hname : ∀ {n g}, W.file.At n (.name g) ↔ A.own n = .name g := hi.at_iff (by simp) (by simp)
  have hu : ∀ {g}, A.own g = .chain .group → A.Usable (.script g) := by
    rintro g hg _ ⟨⟩
    exact AFile.live_of hg
  refine ⟨⟨_, hi.rep.holds_lst Rep.usable_group, ?_⟩, fun g hg hv => ?_, fun g g' n n' hn hn' heq => ?_,
    fun g hg hv h0 => ?_, fun g g' s s' hs hs' h0 h0' heq => ?_, fun g s s' hs hs' heq => ?_,
    fun a W' hf hst g hg hv => ?_⟩
  · refine hfound.order.imp_of_mem fun {g g'} hg hg' h => ?_
    rwa [hi.valid_iff ((hi.rep.mem _ g).mp hg), hi.valid_iff ((hi.rep.mem _ g').mp hg')]
  · rw [hi.isGroup_iff] at hg
    rw [hi.valid_iff hg, AFile.valid, not_not] at hv
    have h0 := hi.inv.housed.bare g hg hv
    refine ⟨fun s hs => ?_, by rwa [hi.file_gr], fun n hn => ?_⟩
    · rw [hi.at_chain, ← hi.rep.mem, hv] at hs
      simp at hs
    · have := (hi.rep.name g n (hname.mp hn)).2
      exact hi.rep.ne_zero (n := n) (by simp [hname.mp hn]) (this.symm.trans h0)
  · rw [hi.file_grnm] at heq
    exact hfound.names g g' n n' (hname.mp hn) (hname.mp hn') heq
  · rw [hi.isGroup_iff] at hg
    rw [hi.valid_iff hg] at hv
    rw [hi.file_gr] at h0
    have hone := hfound.single g hg h0
    obtain ⟨s, hs⟩ := List.length_eq_one_iff.mp (Nat.le_antisymm hone (List.length_pos_of_ne_nil hv))
    exact ⟨s, (hi.rep.holds_iff (hu hg)).mpr hs.symm⟩
  · rw [hi.at_chain] at hs hs'
    rw [hi.file_gr] at h0 h0'
    rw [hi.file_scr] at heq
    exact hfound.alone g g' s s' hs hs' h0 h0' heq
  · rw [hi.at_chain] at hs hs'
    rw [hi.file_scr] at heq
    exact hfound.distinct g s s' hs hs' heq
  · obtain ⟨w, B, hsteps, hi', -, hlog⟩ := hi.turns hf hst
    obtain hlog | hlog := hlog
    · exact .inl ⟨by rwa [hlog], by rwa [hlog]⟩
    · have hg := hi.isGroup_iff.mp hg
      obtain ⟨hg', hv'⟩ | hfree := hsteps.stale hi.rep.wf hi.inv hg fun h => hv ((hi.valid_iff hg).mpr h)
      · have hg'' : B.calm.own g = .chain .group := hg'
        exact .inl ⟨hi'.isGroup_iff.mpr hg'', fun h => hv' ((hi'.valid_iff hg'').mp h)⟩
      · exact .inr (hlog ▸ hfree)

/-- Then frontend 5 comes for another script, with a group name, and frontend 8 for the first script,
which has changed. -/
def regrouped : List Deed := served ++ [
  .arrive 5, .connect { self := 5, group := [97, 98, 99], stat := ⟨2, 2, 2⟩, spawn := .spawned 6 } true,
  .arrive 8, .connect { self := 8, stat := ⟨1, 1, 9⟩, spawn := .spawned 9 } true]

instance (f : File) (g : SlotNum) : Decidable (f.valid g) := inferInstanceAs (Decidable (_ ≠ _))

/-- Groups 3 and 6 are valid, and group 2 is not any more. -/
theorem groups_served : ∃ W : World, (W.file.valid 3 ∧ W.file.valid 6 ∧ ¬ W.file.valid 2) ∧
    (∃ l, W.file.Holds .group l ∧ l.Pairwise fun g g' => W.file.valid g' → W.file.valid g) ∧
    (∀ s, ¬ W.file.At s (.chain (.script 2))) ∧
    ∀ g, W.file.isGroup g → W.file.valid g → (W.file.gr g).nameSlot = 0 →
      ∃ s, W.file.Holds (.script g) [s] := by
  obtain ⟨W, hW, h⟩ := exists_of_play (fun W => decide (W.file.tail .group = 2 ∧
      IsList W.file.next W.file.prev (W.file.head .group) 2 [3, 6, 2] ∧
      W.file.valid 3 ∧ W.file.valid 6 ∧ ¬ W.file.valid 2)) regrouped (x := true) (by decide +kernel)
  obtain ⟨ht, hl, h3, h6, h2⟩ := of_decide_eq_true h
  obtain ⟨horder, hbare, -, hsingle, -⟩ := groups hW
  exact ⟨W, ⟨h3, h6, h2⟩, horder, (hbare 2 ⟨[3, 6, 2], ⟨2, hl, fun _ => ht⟩, by simp⟩ h2).1, hsingle⟩

/-! ### The backends of a group -/

/-- `be_starting` names no process, or one that `kill` does not find. -/
def noneStarting (W : World) (e : Env) (g : SlotNum) : Prop := (W.file.gr g).beStarting = 0 ∨
  (W.file.gr g).beStarting ≠ e.self ∧ e.alive [] (W.file.gr g).beStarting = false

/-- The process is no backend that waits or has left. -/
def atWork (W : World) (p : Pid) : Prop :=
  ∀ s, W.role p = .backend s → s.phase ≠ .waiting ∧ s.phase ≠ .leaving

lemma Inv.runs_noneStarting {Q : Pid → AFile → Prop} (hi : W.Inv W.untold A) (hg : A.own g = .chain .group)
    (hno : W.noneStarting e g)
    (h : ∀ evs, Q 0 ((A.notes evs).setGr g { A.gr g with beStarting := 0 })) :
    Runs (groupBeStarting e g) Q A := by
  rw [noneStarting, hi.file_gr] at hno
  refine wpr_bind (runs_getGr (by simp [hg]) (wpr_ite (fun h0 => wpr_pure ?_) fun h0 => ?_))
  · have hsame : (A.notes []).setGr g { A.gr g with beStarting := 0 } = A := by
      rw [AFile.notes_nil, ← h0, AFile.setGr_self]
    exact hsame ▸ h []
  · obtain ⟨hne, hdead⟩ := hno.resolve_left h0
    have hkill : Runs (utilKill e (A.gr g).beStarting .zero) (fun ok B => ok = false ∧ ∃ evs,
        B = A.notes evs) A := by
      intro s hs
      simp only [utilKill, if_neg h0, if_neg hne, note, wp_bind, wp_get, wp_modify, wp_pure]
      rw [show s.log = [] from hs.log.trans hi.log, hdead]
      exact ⟨A.notes [.kill (A.gr g).beStarting .zero false], { hs with log := by simp [hi.log] }, rfl, _, rfl⟩
    refine wpr_bind (wpr_mono hkill ?_)
    rintro ok B ⟨rfl, evs, rfl⟩
    refine wpr_ite (fun h => absurd h (by simp)) fun _ => ?_
    exact wpr_bind (runs_modifyGr (by simp [hg]) (.inl rfl) (wpr_pure (h evs)))

/-- The best of the backends that wait stands in front. -/
lemma Inv.be_order (hi : W.Inv due A) (g : SlotNum) : ∃ i j, A.lst (.be g) = i ++ j ∧
    i = A.waiting (A.lst (.be g)) ∧ (∀ b ∈ i, (A.be b).feRunning = 0) ∧
    (∀ b ∈ j, (A.be b).feRunning ≠ 0) ∧
    i.Pairwise fun x y => (A.be y).maturity < (A.be x).maturity ∨
      (A.be y).maturity = (A.be x).maturity ∧ W.stamp y < W.stamp x := by
  have hl := hi.ranked.lined g
  have hidle : ∀ n, A.idle n ↔ (A.be n).feRunning = 0 := fun n => by
    simp [AFile.idle, AFile.taken_iff, assigned, hi.log]
  have hsplit : (A.lst (.be g)).takeWhile (fun b => (A.be b).feRunning = 0) ++
      (A.lst (.be g)).dropWhile (fun b => (A.be b).feRunning = 0) = A.lst (.be g) :=
    List.takeWhile_append_dropWhile
  have hwait : ∀ b ∈ A.waiting (A.lst (.be g)), (A.be b).feRunning = 0 := fun b hb => by
    simpa using List.mem_takeWhile_imp hb
  refine ⟨_, _, hsplit.symm, rfl, hwait, fun b hb h0 => ?_, ?_⟩
  · have := not_of_mem_dropWhile (p := fun b => (A.be b).feRunning = 0)
      (hl.imp fun {x y} hxy hy => ?_) hb
    · simp [h0] at this
    · have hy : (A.be y).feRunning = 0 := by simpa using hy
      simpa using (hidle x).mp (hxy ((hidle y).mpr hy)).1
  · refine (hl.sublist (List.takeWhile_sublist _)).imp_of_mem fun {x y} _ hy hxy => ?_
    exact (hxy ((hidle y).mpr (hwait y hy))).2

/-- Waiting backends stand before the others, the better ones first; so the one that is given away is
the best, and those that are told to end are those that wait. -/
theorem waitList (h : Reachable W) (hg : W.file.isGroup g) : ∃ i j, W.file.Holds (.be g) (i ++ j) ∧
    (∀ b ∈ i, (W.file.be b).feRunning = 0) ∧ (∀ b ∈ j, (W.file.be b).feRunning ≠ 0) ∧
    (i.Pairwise fun x y => (W.file.be y).maturity ≤ (W.file.be x).maturity) ∧
    (∀ e b s, W.noneStarting e g → beWaitGet e g { file := W.file } = .ok (b, s) →
      (b = 0 → i = []) ∧ (b ≠ 0 → b ∈ i ∧ ∀ y ∈ i, y ≠ b →
        (W.file.be y).maturity < (W.file.be b).maturity ∨
          (W.file.be y).maturity = (W.file.be b).maturity ∧ W.stamp y < W.stamp b)) ∧
    ∀ e s, W.Answers e [] → W.runs e.self → W.atWork e.self →
      removeBeWait e g { file := W.file } = .ok ((), s) →
      (∀ ev ∈ s.log, ∃ b ∈ i, ∃ ok, ev = .kill (W.file.be b).pid .term ok) ∧
      (∀ b ∈ i, ∃ ok, .kill (W.file.be b).pid .term ok ∈ s.log) ∧
      ∀ b ∈ j, ∀ ok, .kill (W.file.be b).pid .term ok ∉ s.log := by
  obtain ⟨A, hi⟩ := h.inv
  rw [hi.isGroup_iff] at hg
  have hu : A.Usable (.be g) := AFile.Wf.usable_of hg rfl
  obtain ⟨i, j, hl, hiw, hwait, hbusy, hord⟩ := hi.be_order g
  simp only [hi.file_be]
  refine ⟨i, j, (hi.rep.holds_iff hu).mpr hl.symm, hwait, hbusy, hord.imp fun h => ?_,
    fun e b s hno hm => ?_, fun e s ha hrun hself hm => ?_⟩
  · obtain h | h := h
    · exact h.le
    · exact h.1.le
  · have hget : Runs (beWaitGet e g) (fun b _ => b = 0 ∧ i = [] ∨ b ≠ 0 ∧ i.head? = some b) A := by
      refine wpr_bind (runs_slotCheck (by simp [hg]) (wpr_bind (runs_getHead hu
        (wpr_bind (hi.runs_noneStarting hg hno fun evs => ?_)))))
      have hw := hi.rep.wf
      cases i with
      | nil =>
        cases j with
        | nil => exact wpr_ite (fun _ => wpr_pure (.inl ⟨rfl, rfl⟩)) fun h => absurd (.inr (by simp [hl])) h
        | cons b j =>
          have hb := (hw.mem (.be g) b).mp (by simp [hl])
          refine wpr_ite (fun _ => wpr_pure (.inl ⟨rfl, rfl⟩)) fun _ => ?_
          rw [hl, List.nil_append, List.headD_cons]
          refine wpr_bind (runs_getBe (by simp [hb]) (wpr_ite (fun _ => wpr_pure (.inl ⟨rfl, rfl⟩))
            fun h => absurd (hbusy b (by simp)) h))
      | cons b i =>
        have hb := (hw.mem (.be g) b).mp (by simp [hl])
        have hb0 : b ≠ 0 := hw.ne_zero (c := .be g) (by simp [hl])
        rw [hl, List.cons_append, List.headD_cons]
        refine wpr_ite (fun h => absurd h (by simp [hb0])) fun _ => ?_
        refine wpr_bind (runs_getBe (by simp [hb]) (wpr_ite (fun h => absurd (hwait b (by simp)) h)
          fun _ => wpr_bind (runs_end (runs_slotMoveTail hb (AFile.Wf.usable_of hg rfl) rfl
            fun _ => wpr_pure (.inr ⟨hb0, rfl⟩)))))
    obtain ⟨-, -, hb⟩ := hget.result hi.rep hm
    obtain ⟨rfl, hnil⟩ | ⟨hb0, hhead⟩ := hb
    · exact ⟨fun _ => hnil, fun h => absurd rfl h⟩
    · refine ⟨fun h => absurd h hb0, fun _ => ⟨List.mem_of_mem_head? hhead, fun y hy hne => ?_⟩⟩
      obtain ⟨l, rfl⟩ := List.head?_eq_some_iff.mp hhead
      exact (List.pairwise_cons.mp hord).1 y ((List.mem_cons.mp hy).resolve_left hne)
  · have hfit : Fits e (W.who e.self 0) := ⟨rfl, fun h0 => hrun.1 (h0 ▸ hi.books.zero), by
      simp [hi.books.zero], fun log q hq hk => ha.alive log q hq (by simp) hk⟩
    obtain ⟨B, hB, evs, hevs, rfl⟩ := (runs_removeBeWait hfit hi.rep.wf (AFile.live_of hg)
      (Q := fun _ B => ∃ evs, Termed e A (A.waiting (A.lst (.be g))) evs ∧ B = A.notes evs)
      fun evs hevs => ⟨evs, hevs, rfl⟩).result hi.rep hm
    rw [← hiw] at hevs
    have hlog : s.log = evs := by simpa [hi.log] using hB.log
    have hown : ∀ b, b ∈ i ++ j → A.own b = .chain (.be g) := fun b hb =>
      (hi.rep.mem _ b).mp (hl ▸ hb)
    have hpid : ∀ b ∈ i, (A.be b).pid ≠ 0 := fun b hb =>
      hi.ranked.manned b g (hown b (by simp [hb])) (hwait b hb)
    rw [hlog]
    refine ⟨hevs.only, fun b hb => hevs.all b hb (hpid b hb) fun heq => ?_, fun b hb ok hm => ?_⟩
    · -- a backend at work is not listed as waiting
      have hb' := hown b (by simp [hb])
      obtain ⟨sv, hr, -, rfl⟩ := hi.listed b g hb' (by rw [heq]; exact hrun.1)
      rw [heq] at hr
      have hfits := hi.fit e.self
      rw [hr] at hfits
      obtain ⟨h1, h2⟩ := hself sv hr
      have h0 := hwait _ hb
      simp only [Fit, Server.Fits] at hfits
      split at hfits
      · exact Turn.slot_ne_zero hi hfits.1 (hfits.2.1.symm.trans h0)
      · exact Turn.slot_ne_zero hi hfits.1 (hfits.2.1.symm.trans h0)
      · exact h1 ‹_›
      · exact hfits.1.run h0
      · exact hfits.1.run h0
      · exact hfits.1.run h0
      · exact h2 ‹_›
    · obtain ⟨b', hb', ok', heq⟩ := hevs.only _ hm
      have heq : (A.be b).pid = (A.be b').pid := (Event.kill.inj heq).1
      obtain rfl := hi.ranked.distinct b b' g g (hown b (by simp [hb])) (hown b' (by simp [hb'])) heq
        (heq ▸ hpid b' hb')
      exact hbusy b hb (hwait b hb')

/-- Frontends 2, 5 and 8 want a backend each; 4 has run for frontend 2, 6 runs for 5, and 9 is new. -/
def threeBackends : List Deed := served.take 8 ++ [
  .arrive 5, .connect { self := 5 } true, .rouse 3 { delivered := true, usr1 := true },
  .iterate { self := 3, fork := some 6 } [], .listen 6, .put { self := 6 },
  .wake { self := 5, connects := some (6, 3) } false, .accept 6, .accepted { self := 6 },
  .arrive 8, .connect { self := 8 } true, .rouse 3 { delivered := true, usr1 := true },
  .iterate { self := 3, fork := some 9 } [], .listen 9,
  .finish 4 0, .report { self := 4 } true, .put { self := 9 }]

/-- Backends 4 and 9 wait, in slots 4 and 8; 6 is at work. -/
theorem waitList_served : ∃ W : World, W.file.Holds (.be 2) [4, 8, 6] ∧
    ∃ i j, W.file.Holds (.be 2) (i ++ j) ∧ (∀ b ∈ i, (W.file.be b).feRunning = 0) ∧
      (∀ b ∈ j, (W.file.be b).feRunning ≠ 0) ∧
      i.Pairwise fun x y => (W.file.be y).maturity ≤ (W.file.be x).maturity := by
  obtain ⟨W, hW, h⟩ := exists_of_play (fun W => decide ((W.file.tail .group = 2 ∧
      IsList W.file.next W.file.prev (W.file.head .group) 2 [2]) ∧ W.file.tail (.be 2) = 6 ∧
      IsList W.file.next W.file.prev (W.file.head (.be 2)) 6 [4, 8, 6])) threeBackends (x := true)
    (by decide +kernel)
  obtain ⟨⟨hgt, hg⟩, hbt, hb⟩ := of_decide_eq_true h
  have hgroup : W.file.isGroup 2 := ⟨[2], ⟨2, hg, fun _ => hgt⟩, by simp⟩
  obtain ⟨i, j, hl, hi, hj, hm, -⟩ := waitList hW hgroup
  exact ⟨W, ⟨6, hb, fun _ => hbt⟩, i, j, hl, hi, hj, hm⟩

end World

end SpeedyCgi.TempFile
