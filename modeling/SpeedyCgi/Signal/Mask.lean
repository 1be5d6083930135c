import SpeedyCgi.Lib.Lts
import Mathlib.Logic.Function.Basic

/-!
Signal masks: `speedy_sig_blockall`, `speedy_sig_init` and what undoes them.

A signal is one that can be caught and blocked. Lists of signals are opened and closed like
brackets, and the other pair of calls, which a lock makes, may come anywhere in between.
-/

namespace SpeedyCgi.Signal

open Function

abbrev Signo := ℕ

abbrev Sigset := Signo → Bool

namespace Sigset

def empty : Sigset := fun _ => false
def fill : Sigset := fun _ => true
def add (s : Sigset) (n : Signo) : Sigset := update s n true
def del (s : Sigset) (n : Signo) : Sigset := update s n false

end Sigset

inductive How
  | block
  | unblock
  deriving DecidableEq

/-- The mask that `sigprocmask` sets. -/
def How.mask : How → Sigset → Sigset → Sigset
  | .block, set, m => fun n => m n || set n
  | .unblock, set, m => fun n => m n && !set n

inductive Handler
  | sigHandler
  | other (n : ℕ)
  deriving DecidableEq

structure Sigaction where
  handler : Handler
  flags : ℕ
  mask : Sigset

/-- The action that `sig_init2` sets. -/
def Sigaction.ours : Sigaction := ⟨.sigHandler, 0, .empty⟩

/-- A process and the static variables of `speedy_sig.c`. -/
structure Process where
  mask : Sigset
  action : Signo → Sigaction
  pending : Sigset
  blockallSave : Sigset
  allBlocked : Bool

structure SigList where
  signum : List Signo
  sigactSave : List Sigaction
  unblockSigs : Sigset
  sigsetSave : Sigset

def speedyMaxsig : ℕ := 3

/-- The process gets a mask, and the pending signals that are not in it are delivered. -/
def Process.setMask (m : Sigset) (s : Process) : Process :=
  { s with mask := m, pending := fun n => s.pending n && m n }

def speedySigBlockall (s : Process) : Process :=
  { s.setMask (How.block.mask .fill s.mask) with blockallSave := s.mask, allBlocked := true }

def speedySigBlockallUndo (s : Process) : Process :=
  { s.setMask s.blockallSave with allBlocked := false }

/-- The actions after `sig_init2` has set its own, and those it has saved. -/
def saveActions (action : Signo → Sigaction) : List Signo → (Signo → Sigaction) × List Sigaction
  | [] => (action, [])
  | n :: sigs =>
    let r := saveActions (update action n .ours) sigs
    (r.1, action n :: r.2)

def sigInit2 (sigs : List Signo) (how : How) (s : Process) : SigList × Process :=
  let (action, sigactSave) := saveActions s.action sigs
  let edit := match how with
    | .block => Sigset.add
    | .unblock => Sigset.del
  let (sigsetSave, s) :=
    if s.allBlocked = true then
      (s.blockallSave, { s with blockallSave := sigs.foldl edit s.blockallSave })
    else (s.mask, s.setMask (how.mask (sigs.foldl Sigset.add .empty) s.mask))
  (⟨sigs, sigactSave, sigs.foldl Sigset.del sigsetSave, sigsetSave⟩, { s with action })

/-- None if there are too many. -/
def speedySigInit (sigs : List Signo) (how : How) (s : Process) : Option (SigList × Process) :=
  if sigs.length > speedyMaxsig then none else some (sigInit2 sigs how s)

/-- The signals that are not in the mask are delivered. -/
def sigsuspend (mask : Sigset) (s : Process) : Process :=
  { s with pending := fun n => s.pending n && mask n }

/-- Get rid of the pending signals of the list; after one wait there are none. -/
def drain (sl : SigList) (s : Process) : Process :=
  if sl.signum.any s.pending = true then sigsuspend sl.unblockSigs s else s

def speedySigFree (sl : SigList) (s : Process) : Process :=
  let s := drain sl s
  let s := if s.allBlocked = true then { s with blockallSave := sl.sigsetSave }
    else s.setMask sl.sigsetSave
  { s with action := (sl.signum.zip sl.sigactSave).foldl (fun a x => update a x.1 x.2) s.action }

/-- A list that is open, and what it was opened for. -/
structure Opened where
  sl : SigList
  how : How

inductive Op
  | blockall
  | blockallUndo
  | init (sigs : List Signo) (how : How)
  | free
  /-- a signal comes -/
  | raise (n : Signo)

structure State where
  proc : Process
  /-- the open lists, the last one first -/
  opened : List Opened

def step (s : State) : Op → Option State
  | .blockall =>
    if s.proc.allBlocked = true then none else some { s with proc := speedySigBlockall s.proc }
  | .blockallUndo =>
    if s.proc.allBlocked = true then some { s with proc := speedySigBlockallUndo s.proc } else none
  | .init sigs how =>
    (speedySigInit sigs how s.proc).map fun r => ⟨r.2, ⟨r.1, how⟩ :: s.opened⟩
  | .free =>
    match s.opened with
    | o :: opened => some ⟨speedySigFree o.sl s.proc, opened⟩
    | [] => none
  | .raise n =>
    let pending := if s.proc.mask n = true then s.proc.pending.add n else s.proc.pending
    some { s with proc := { s.proc with pending } }

abbrev Reachable (p : Process) : State → Prop := Lib.Lts.Reach step ⟨p, []⟩

/-- Reachable with lists that name no signal twice. -/
abbrev ReachableNodup (p : Process) : State → Prop :=
  Lib.Lts.ReachOk step ⟨p, []⟩ fun _ op => ∀ sigs how, op = .init sigs how → sigs.Nodup

/-! ### What the open lists make of a mask -/

/-- The signals of the list are blocked or not, and the others are as they were. -/
def Opened.apply (o : Opened) (m : Sigset) : Sigset :=
  fun n => if n ∈ o.sl.signum then decide (o.how = .block) else m n

def modified (m : Sigset) (opened : List Opened) : Sigset := opened.foldr Opened.apply m

@[simp] lemma modified_nil (m : Sigset) : modified m [] = m := rfl
@[simp] lemma modified_cons (m : Sigset) (o : Opened) (opened : List Opened) :
    modified m (o :: opened) = o.apply (modified m opened) := rfl

/-- The actions while lists are open. -/
def handled (a : Signo → Sigaction) (opened : List Opened) : Signo → Sigaction :=
  opened.foldr (fun o a n => if n ∈ o.sl.signum then .ours else a n) a

@[simp] lemma handled_nil (a : Signo → Sigaction) : handled a [] = a := rfl
@[simp] lemma handled_cons (a : Signo → Sigaction) (o : Opened) (opened : List Opened) :
    handled a (o :: opened) = fun n => if n ∈ o.sl.signum then .ours else handled a opened n := rfl

lemma foldl_update (v : Bool) (sigs : List Signo) (m : Sigset) :
    sigs.foldl (fun m n => update m n v) m = fun n => if n ∈ sigs then v else m n := by
  induction sigs generalizing m with
  | nil => rfl
  | cons k sigs ih =>
    funext n
    rw [List.foldl_cons, ih]
    by_cases hn : n ∈ sigs <;> by_cases hk : n = k <;> simp [hn, hk]

lemma foldl_add (sigs : List Signo) (m : Sigset) :
    sigs.foldl Sigset.add m = fun n => if n ∈ sigs then true else m n := foldl_update true sigs m

lemma foldl_del (sigs : List Signo) (m : Sigset) :
    sigs.foldl Sigset.del m = fun n => if n ∈ sigs then false else m n := foldl_update false sigs m

/-! ### Masks -/

/-- The mask without what `speedy_sig_blockall` has made of it. -/
def Process.effective (p : Process) : Sigset :=
  if p.allBlocked = true then p.blockallSave else p.mask

/-- What the open lists have saved, and the masks they wait with. -/
def SavedMasks (m : Sigset) : List Opened → Prop
  | [] => True
  | o :: opened => o.sl.sigsetSave = modified m opened ∧
      (o.sl.unblockSigs = fun n => if n ∈ o.sl.signum then false else o.sl.sigsetSave n) ∧
      SavedMasks m opened

structure Masks (m : Sigset) (s : State) : Prop where
  effective : s.proc.effective = modified m s.opened
  saved : SavedMasks m s.opened

lemma sigInit2_effective (sigs : List Signo) (how : How) (p : Process) :
    (sigInit2 sigs how p).2.effective =
      Opened.apply ⟨(sigInit2 sigs how p).1, how⟩ p.effective := by
  funext n
  cases how <;> by_cases hb : p.allBlocked = true <;> by_cases hn : n ∈ sigs <;>
    simp [sigInit2, Process.effective, Process.setMask, Opened.apply, How.mask, Sigset.empty, foldl_add,
      foldl_del, hb, hn]

lemma sigInit2_saved (sigs : List Signo) (how : How) (p : Process) :
    (sigInit2 sigs how p).1.sigsetSave = p.effective := by
  by_cases hb : p.allBlocked = true <;> simp [sigInit2, Process.effective, hb]

lemma sigInit2_unblockSigs (sigs : List Signo) (how : How) (p : Process) :
    (sigInit2 sigs how p).1.unblockSigs = fun n =>
      if n ∈ (sigInit2 sigs how p).1.signum then false else (sigInit2 sigs how p).1.sigsetSave n := by
  by_cases hb : p.allBlocked = true <;> simp [sigInit2, foldl_del, hb]

lemma drain_mask (sl : SigList) (p : Process) :
    drain sl p = { p with pending := (drain sl p).pending } := by
  unfold drain sigsuspend
  split <;> rfl

lemma speedySigFree_effective (sl : SigList) (p : Process) :
    (speedySigFree sl p).effective = sl.sigsetSave := by
  rw [speedySigFree, drain_mask]
  by_cases hb : p.allBlocked = true <;> simp [Process.effective, Process.setMask, hb]

lemma Masks.step {m : Sigset} {s s' : State} {op : Op} (h : Masks m s) (hs : step s op = some s') :
    Masks m s' := by
  obtain ⟨heff, hsaved⟩ := h
  cases op with
  | blockall =>
    simp only [Signal.step, Option.ite_none_left_eq_some, Option.some.injEq] at hs
    obtain ⟨hb, rfl⟩ := hs
    refine ⟨?_, hsaved⟩
    simpa [Process.effective, speedySigBlockall, hb] using heff
  | blockallUndo =>
    simp only [Signal.step, Option.ite_none_right_eq_some, Option.some.injEq] at hs
    obtain ⟨hb, rfl⟩ := hs
    refine ⟨?_, hsaved⟩
    simpa [Process.effective, Process.setMask, speedySigBlockallUndo, hb] using heff
  | init sigs how =>
    simp only [Signal.step, speedySigInit, Option.map_eq_some_iff, Option.ite_none_left_eq_some,
      Option.some.injEq] at hs
    obtain ⟨r, ⟨-, rfl⟩, rfl⟩ := hs
    refine ⟨?_, ?_, sigInit2_unblockSigs .., hsaved⟩
    · rw [sigInit2_effective, heff]
      rfl
    · rw [sigInit2_saved, heff]
  | free =>
    rw [Signal.step] at hs
    split at hs
    · rename_i o opened ho
      obtain rfl := Option.some.inj hs
      rw [ho] at hsaved
      refine ⟨?_, hsaved.2.2⟩
      rw [speedySigFree_effective, hsaved.1]
    · cases hs
  | raise n =>
    obtain rfl := Option.some.inj hs
    exact ⟨heff, hsaved⟩

lemma Reachable.masks {p : Process} {s : State} (hp : p.allBlocked = false) (h : Reachable p s) :
    Masks p.mask s := by
  have h0 : Masks p.mask ⟨p, []⟩ := ⟨by simp [Process.effective, hp], trivial⟩
  refine Lib.Lts.ReachOk.inv (P := Masks p.mask) h0 ?_ h
  intro s op s' _ hs _ hstep
  exact hs.step hstep

lemma SavedMasks.unblockSigs {m : Sigset} {opened : List Opened} (h : SavedMasks m opened)
    {o : Opened} (ho : o ∈ opened) {n : Signo} (hn : n ∈ o.sl.signum) : o.sl.unblockSigs n = false := by
  induction opened with
  | nil => simp at ho
  | cons o' opened ih =>
    obtain ⟨-, hun, hrest⟩ := h
    rcases List.mem_cons.mp ho with rfl | ho
    · simp [hun, hn]
    · exact ih hrest ho

/-! ### Actions -/

def SavedActions (a : Signo → Sigaction) : List Opened → Prop
  | [] => True
  | o :: opened => o.sl.sigactSave = o.sl.signum.map (handled a opened) ∧ SavedActions a opened

structure Actions (a : Signo → Sigaction) (s : State) : Prop where
  action : s.proc.action = handled a s.opened
  saved : SavedActions a s.opened

lemma saveActions_eq {sigs : List Signo} (hsigs : sigs.Nodup) (action : Signo → Sigaction) :
    saveActions action sigs =
      (fun n => if n ∈ sigs then .ours else action n, sigs.map action) := by
  induction sigs generalizing action with
  | nil => rfl
  | cons k sigs ih =>
    obtain ⟨hk, hsigs⟩ := List.nodup_cons.mp hsigs
    rw [saveActions, ih hsigs]
    have hmap : sigs.map (update action k .ours) = sigs.map action := by
      refine List.map_congr_left fun n hn => update_of_ne ?_ _ _
      rintro rfl
      exact hk hn
    refine Prod.ext (funext fun n => ?_) ?_
    · by_cases hn : n ∈ sigs <;> by_cases hnk : n = k <;> simp [hn, hnk]
    · simp [hmap]

/-- Putting back what was saved. -/
lemma foldl_restore {old : Signo → Sigaction} (sigs : List Signo) {action : Signo → Sigaction}
    (h : ∀ n, n ∉ sigs → action n = old n) :
    (sigs.zip (sigs.map old)).foldl (fun a x => update a x.1 x.2) action = old := by
  induction sigs generalizing action with
  | nil => exact funext fun n => h n (by simp)
  | cons k sigs ih =>
    refine ih fun n hn => ?_
    by_cases hk : n = k
    · subst hk
      simp
    · simpa [hk] using h n (by simp [hk, hn])

lemma Actions.step {a : Signo → Sigaction} {s s' : State} {op : Op} (h : Actions a s)
    (hop : ∀ sigs how, op = .init sigs how → sigs.Nodup) (hs : step s op = some s') :
    Actions a s' := by
  obtain ⟨hact, hsaved⟩ := h
  cases op with
  | blockall =>
    simp only [Signal.step, Option.ite_none_left_eq_some, Option.some.injEq] at hs
    obtain ⟨-, rfl⟩ := hs
    exact ⟨hact, hsaved⟩
  | blockallUndo =>
    simp only [Signal.step, Option.ite_none_right_eq_some, Option.some.injEq] at hs
    obtain ⟨-, rfl⟩ := hs
    exact ⟨hact, hsaved⟩
  | init sigs how =>
    simp only [Signal.step, speedySigInit, Option.map_eq_some_iff, Option.ite_none_left_eq_some,
      Option.some.injEq] at hs
    obtain ⟨r, ⟨-, rfl⟩, rfl⟩ := hs
    have hsave := saveActions_eq (hop sigs how rfl) (handled a s.opened)
    refine ⟨?_, ?_, hsaved⟩
    · simp only [sigInit2, hact, hsave, handled_cons]
    · simp only [sigInit2, hact, hsave]
  | free =>
    rw [Signal.step] at hs
    split at hs
    · rename_i o opened ho
      obtain rfl := Option.some.inj hs
      rw [ho] at hsaved hact
      refine ⟨?_, hsaved.2⟩
      simp only [speedySigFree, hsaved.1]
      refine foldl_restore o.sl.signum fun n hn => ?_
      rw [drain_mask]
      split <;> simp [Process.setMask, hact, hn]
    · cases hs
  | raise n =>
    obtain rfl := Option.some.inj hs
    exact ⟨hact, hsaved⟩

lemma ReachableNodup.actions {p : Process} {s : State} (h : ReachableNodup p s) :
    Actions p.action s := by
  have h0 : Actions p.action ⟨p, []⟩ := ⟨rfl, trivial⟩
  refine Lib.Lts.ReachOk.inv (P := Actions p.action) h0 ?_ h
  intro s op s' _ hs hop hstep
  exact hs.step hop hstep

/-- Blocking everything and opening lists of signals leave what they should, in any order. -/
theorem masks_compose {p : Process} (hp : p.allBlocked = false) {s : State} (h : Reachable p s) :
    (s.proc.allBlocked = false → s.proc.mask = modified p.mask s.opened) ∧
    (s.proc.allBlocked = false → s.opened = [] →
      s.proc.mask = p.mask ∧ (ReachableNodup p s → s.proc.action = p.action)) ∧
    ∀ o ∈ s.opened, ∀ n ∈ o.sl.signum, o.sl.unblockSigs n = false := by
  have hm := h.masks hp
  have hmask : s.proc.allBlocked = false → s.proc.mask = modified p.mask s.opened := by
    intro hb
    simpa [Process.effective, hb] using hm.effective
  refine ⟨hmask, fun hb ho => ⟨by simpa [ho] using hmask hb, fun hnodup => ?_⟩,
    fun o ho n hn => hm.saved.unblockSigs ho hn⟩
  simpa [ho] using hnodup.actions.action

/-- A process that blocks nothing. -/
def Process.start : Process := ⟨.empty, fun _ => ⟨.other 0, 0, .empty⟩, .empty, .empty, false⟩

lemma exists_of_run {β : Type} (f : State → β) {b : β} (ops : List Op)
    (h : (Lib.Lts.run step ⟨.start, []⟩ ops).map f = some b) : ∃ s, Reachable .start s ∧ f s = b :=
  Lib.Lts.exists_reach f ops h

/-- A list that is opened under one lock and closed under another, and opened again. -/
theorem masks_compose_frontend : ∃ s, Reachable .start s ∧ s.opened ≠ [] ∧
    s.proc.mask = modified Process.start.mask s.opened := by
  obtain ⟨s, hs, h⟩ := exists_of_run (fun s => (s.proc.allBlocked, s.opened.isEmpty)) (b := (false, false))
    [.blockall, .init [14] .block, .blockallUndo, .raise 14, .blockall, .free, .init [14] .block,
      .blockallUndo] rfl
  obtain ⟨hb, ho⟩ := Prod.ext_iff.mp h
  exact ⟨s, hs, by simpa using ho, (masks_compose rfl hs).1 hb⟩

/-- The handler stays if the list names its signal twice. -/
theorem not_restored_twice : ∃ s, Reachable .start s ∧ s.proc.allBlocked = false ∧ s.opened = [] ∧
    s.proc.action ≠ Process.start.action := by
  obtain ⟨s, hs, h⟩ := exists_of_run
    (fun s => (s.proc.allBlocked, s.opened.isEmpty, (s.proc.action 14).handler))
    (b := (false, true, .sigHandler)) [.init [14, 14] .block, .free] rfl
  simp only [Prod.mk.injEq, List.isEmpty_iff] at h
  refine ⟨s, hs, h.1, h.2.1, fun hact => ?_⟩
  simp [hact, Process.start] at h

end SpeedyCgi.Signal
