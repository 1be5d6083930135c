import SpeedyCgi.Signal.Mask
import Mathlib.Data.List.Nodup
import Mathlib.Data.List.Perm.Subperm

/-!
The recorder of signals: `sig_handler`, `speedy_sig_wait` and `speedy_sig_got`.

A handler reads and writes `got_sig` one element at a time, and between any two of these steps
another signal may interrupt it. The handlers that have been interrupted are a stack.
-/

namespace SpeedyCgi.Signal

open Function

/-- The array `got_sig`. -/
abbrev GotSig := ℕ → Signo

/-- `sig_find` from element `i`, with `k` more to come; none if the signal is there. -/
def sigFindFrom (sigRcvd : GotSig) (sig : Signo) : ℕ → ℕ → Option ℕ
  | 0, i => some i
  | k + 1, i =>
    if sigRcvd i = 0 then some i
    else if sigRcvd i = sig then none
    else sigFindFrom sigRcvd sig k (i + 1)

def sigFind (sigRcvd : GotSig) (sig : Signo) : Option ℕ := sigFindFrom sigRcvd sig speedyMaxsig 0

def speedySigGot (sigRcvd : GotSig) (sig : Signo) : Bool := sigFind sigRcvd sig = none

/-- What a handler does next. -/
inductive Pc
  /-- `sig_find` tests element `i` -/
  | test (i : ℕ)
  /-- `sig_find` compares element `i` -/
  | compare (i : ℕ)
  /-- the signal is written to element `i` -/
  | store (i : ℕ)
  /-- a zero is written to element `i`, if there is one -/
  | terminate (i : ℕ)
  | ret
  deriving DecidableEq

/-- A handler that runs or has been interrupted. -/
structure Frame where
  sig : Signo
  pc : Pc
  deriving DecidableEq

/-- One step of a handler. -/
def Frame.step (f : Frame) (gotSig : GotSig) : Pc × GotSig :=
  match f.pc with
  | .test i =>
    if i < speedyMaxsig ∧ gotSig i ≠ 0 then (.compare i, gotSig)
    else if i < speedyMaxsig then (.store i, gotSig)
    else (.ret, gotSig)
  | .compare i => (if gotSig i = f.sig then .ret else .test (i + 1), gotSig)
  | .store i => (.terminate (i + 1), update gotSig i f.sig)
  | .terminate i => (.ret, if i < speedyMaxsig then update gotSig i 0 else gotSig)
  | .ret => (.ret, gotSig)

/-- `sig_find` has come back with a free element, and the handler is not done with it. -/
def Frame.writes (f : Frame) : Bool :=
  match f.pc with
  | .store _ | .terminate _ => true
  | _ => false

/-- A handler relies on so many elements not to become zero. -/
def Frame.low (f : Frame) : ℕ :=
  match f.pc with
  | .test i | .store i | .terminate i => i
  | .compare i => i + 1
  | .ret => 0

/-- So many elements have been searched for the signal. -/
def Frame.searched (f : Frame) : ℕ :=
  match f.pc with
  | .test i | .compare i | .store i => i
  | .terminate _ | .ret => 0

/-- A wait. `delivered` and `safe` are history: the signals that were delivered since it began, and
those of them that were so while no handler below was in the middle of writing. -/
structure Recorder where
  gotSig : GotSig
  stack : List Frame := []
  delivered : List Signo := []
  safe : List Signo := []

/-- The beginning of `sig_wait_basic`. -/
def Recorder.start (old : GotSig) : Recorder := { gotSig := update old 0 0 }

inductive Event
  | deliver (sig : Signo)
  | run

namespace Recorder

variable {signum : List Signo} {r r' : Recorder} {old gotSig : GotSig} {f : Frame} {stack : List Frame}
  {seen : List Signo} {s : Signo}

/-- A signal of the list is delivered unless its handler is running, or the handler on top takes a
step. -/
def step (signum : List Signo) (r : Recorder) : Event → Option Recorder
  | .deliver sig =>
    if sig ∈ signum ∧ sig ∉ r.stack.map Frame.sig then
      some { r with
        stack := ⟨sig, .test 0⟩ :: r.stack
        delivered := sig :: r.delivered
        safe := if r.stack.any Frame.writes then r.safe else sig :: r.safe }
    else none
  | .run =>
    match r.stack with
    | f :: stack =>
      if f.pc = .ret then some { r with stack }
      else some { r with gotSig := (f.step r.gotSig).2, stack := { f with pc := (f.step r.gotSig).1 } :: stack }
    | [] => none

abbrev Reachable (signum : List Signo) (old : GotSig) : Recorder → Prop :=
  Lib.Lts.Reach (step signum) (start old)

/-! ### What handlers rely on -/

structure Fits (signum : List Signo) (gotSig : GotSig) (f : Frame) : Prop where
  sig : f.sig ∈ signum
  low : ∀ j < f.low, gotSig j ≠ 0
  searched : ∀ j < f.searched, gotSig j ≠ f.sig
  bound : ∀ i, f.pc = .compare i → i < speedyMaxsig

/-- The lowest handler that is writing. -/
def gap : List Frame → Option Frame
  | [] => none
  | f :: stack => (gap stack).or (if f.writes = true then some f else none)

/-- The handlers that nobody below has interrupted while writing. -/
def outer : List Frame → List Frame
  | [] => []
  | f :: stack => if (gap stack).isSome then outer stack else f :: outer stack

/-- The array ends behind `seen`, or the handler `f` is writing there. -/
def Ends (seen : List Signo) (gotSig : GotSig) : Option Frame → Prop
  | none => seen.length < speedyMaxsig → gotSig seen.length = 0
  | some f => match f.pc with
    | .store i => i = seen.length ∧ f.sig ∉ seen
    | .terminate i => i = seen.length ∧ f.sig ∈ seen
    | _ => False

/-- `seen` is what has been recorded for good. -/
structure Records (signum : List Signo) (r : Recorder) (seen : List Signo) : Prop where
  nodup : seen.Nodup
  sub : seen ⊆ signum
  agree : ∀ j, (h : j < seen.length) → r.gotSig j = seen[j]
  fits : ∀ f ∈ r.stack, Fits signum r.gotSig f
  above : r.stack.Pairwise fun f f' => f.writes = true → f'.low ≤ f.low
  ends : Ends seen r.gotSig (gap r.stack)
  safe : ∀ s, s ∈ r.safe ↔ s ∈ seen ∨ ∃ f ∈ outer r.stack, f.sig = s
  done : ∀ f ∈ outer r.stack, f.pc = .ret → f.sig ∈ seen

lemma outer_of_none (h : gap stack = none) : outer stack = stack := by
  induction stack with
  | nil => rfl
  | cons f stack ih =>
    simp only [gap, Option.or_eq_none_iff] at h
    simp [outer, h.1, ih h.1]

lemma gap_mem (h : gap stack = some f) : f ∈ stack ∧ f.writes = true := by
  induction stack with
  | nil => cases h
  | cons f' stack ih =>
    simp only [gap, Option.or_eq_some_iff] at h
    rcases h with h | ⟨-, h⟩
    · exact ⟨List.mem_cons_of_mem _ (ih h).1, (ih h).2⟩
    · split at h
      · obtain rfl := Option.some.inj h
        exact ⟨List.mem_cons_self, by assumption⟩
      · cases h

lemma gap_eq_none : gap stack = none ↔ stack.any Frame.writes = false := by
  induction stack with
  | nil => simp [gap]
  | cons f stack ih => simp [gap, ih, and_comm]

lemma Ends.low (h : Ends seen gotSig (some f)) : f.low = seen.length := by
  simp only [Ends] at h
  unfold Frame.low
  split at h <;> simp_all

/-- Elements that nobody relies on may change. -/
lemma Fits.update (h : Fits signum gotSig f) {i : ℕ} (hi : f.low ≤ i) (v : Signo) :
    Fits signum (update gotSig i v) f := by
  have hle : f.searched ≤ f.low := by
    unfold Frame.searched Frame.low
    split <;> simp_all
  refine ⟨h.sig, fun j hj => ?_, fun j hj => ?_, h.bound⟩
  · rw [update_of_ne (by omega)]
    exact h.low j hj
  · rw [update_of_ne (by omega)]
    exact h.searched j hj

namespace Records

variable (h : Records signum r seen)
include h

lemma length_le (hlen : signum.length ≤ speedyMaxsig) : seen.length ≤ speedyMaxsig :=
  Nat.le_trans (h.nodup.subperm h.sub).length_le hlen

lemma seen_ne (h0 : 0 ∉ signum) {j : ℕ} (hj : j < seen.length) : r.gotSig j ≠ 0 := by
  rw [h.agree j hj]
  exact fun he => h0 (h.sub (he ▸ List.getElem_mem hj))

lemma mem_of_eq {j : ℕ} (hj : j < seen.length) (hs : r.gotSig j = s) : s ∈ seen := by
  rw [← hs, h.agree j hj]
  exact List.getElem_mem hj

lemma not_mem (hs : ∀ j < seen.length, r.gotSig j ≠ s) : s ∉ seen := by
  intro hm
  obtain ⟨j, hj, hs'⟩ := List.getElem_of_mem hm
  exact hs j hj ((h.agree j hj).trans hs')

end Records

lemma records_start (old : GotSig) : Records signum (start old) [] where
  nodup := List.nodup_nil
  sub := List.nil_subset _
  agree j hj := by simp at hj
  fits f hf := by simp [start] at hf
  above := List.Pairwise.nil
  ends := by simp [start, gap, Ends]
  safe s := by simp [start, outer]
  done f hf := by simp [start, outer] at hf

lemma Records.deliver {sig : Signo} (h : Records signum r seen) (hs : step signum r (.deliver sig) = some r') :
    Records signum r' seen := by
  simp only [step, Option.ite_none_right_eq_some, Option.some.injEq] at hs
  obtain ⟨⟨hsig, -⟩, rfl⟩ := hs
  have hgap : gap (⟨sig, .test 0⟩ :: r.stack) = gap r.stack := by simp [gap, Frame.writes]
  refine ⟨h.nodup, h.sub, h.agree, ?_, ?_, ?_, fun s => ?_, ?_⟩
  · simp only [List.forall_mem_cons]
    exact ⟨⟨hsig, by simp [Frame.low], by simp [Frame.searched], by simp⟩, h.fits⟩
  · exact List.pairwise_cons.mpr ⟨by simp [Frame.writes], h.above⟩
  · simp only [hgap]
    exact h.ends
  · have hsafe := h.safe s
    simp only [outer]
    cases hg : gap r.stack with
    | none =>
      have hno := gap_eq_none.mp hg
      simp only [hno, Option.isSome_none, Bool.false_eq_true, if_false, List.mem_cons, hsafe,
        exists_eq_or_imp]
      tauto
    | some f =>
      have hany : r.stack.any Frame.writes = true := by
        have hne : ¬ gap r.stack = none := by simp [hg]
        simpa using mt gap_eq_none.mpr hne
      simp only [hany, Option.isSome_some, if_true, hsafe]
  · simp only [outer]
    split
    · exact h.done
    · simp only [List.forall_mem_cons]
      exact ⟨by simp, h.done⟩

/-- A handler writes at most where it relies on nothing yet. -/
lemma step_gotSig (f : Frame) (gotSig : GotSig) :
    (f.step gotSig).2 = gotSig ∨ f.writes = true ∧ ∃ v, (f.step gotSig).2 = update gotSig f.low v := by
  obtain ⟨sig, pc⟩ := f
  cases pc with
  | test i =>
    simp only [Frame.step]
    split
    · exact .inl rfl
    · split <;> exact .inl rfl
  | compare i => exact .inl rfl
  | store i => exact .inr ⟨rfl, _, rfl⟩
  | terminate i =>
    simp only [Frame.step]
    split
    · exact .inr ⟨rfl, _, rfl⟩
    · exact .inl rfl
  | ret => exact .inl rfl

lemma Fits.step (h : Fits signum gotSig f) (h0 : 0 ∉ signum) :
    Fits signum (f.step gotSig).2 { f with pc := (f.step gotSig).1 } := by
  obtain ⟨sig, pc⟩ := f
  obtain ⟨hsig, hlow, hsearched, hbound⟩ := h
  have hne : sig ≠ 0 := fun he => h0 (he ▸ hsig)
  cases pc with
  | test i =>
    simp only [Frame.low, Frame.searched] at hlow hsearched
    simp only [Frame.step]
    split
    · rename_i hi
      refine ⟨hsig, fun j hj => ?_, hsearched, fun k hk => ?_⟩
      · simp only [Frame.low] at hj
        rcases Nat.lt_succ_iff_lt_or_eq.mp hj with hj | rfl
        · exact hlow j hj
        · exact hi.2
      · obtain rfl := Pc.compare.inj hk
        exact hi.1
    · split
      · exact ⟨hsig, hlow, hsearched, by simp⟩
      · exact ⟨hsig, by simp [Frame.low], by simp [Frame.searched], by simp⟩
  | compare i =>
    simp only [Frame.low, Frame.searched] at hlow hsearched
    simp only [Frame.step]
    split
    · exact ⟨hsig, by simp [Frame.low], by simp [Frame.searched], by simp⟩
    · rename_i hi
      refine ⟨hsig, hlow, fun j hj => ?_, by simp⟩
      simp only [Frame.searched] at hj
      rcases Nat.lt_succ_iff_lt_or_eq.mp hj with hj | rfl
      · exact hsearched j hj
      · exact hi
  | store i =>
    simp only [Frame.low] at hlow
    refine ⟨hsig, fun j hj => ?_, by simp [Frame.step, Frame.searched], by simp [Frame.step]⟩
    simp only [Frame.step, Frame.low] at hj ⊢
    rcases Nat.lt_succ_iff_lt_or_eq.mp hj with hj | rfl
    · rw [update_of_ne (by omega)]
      exact hlow j hj
    · simpa using hne
  | terminate i | ret =>
    exact ⟨hsig, by simp [Frame.step, Frame.low], by simp [Frame.step, Frame.searched], by simp [Frame.step]⟩

/-- What the handlers below rely on is there after a step. -/
lemma Records.fits_step (h : Records signum r seen) (hst : r.stack = f :: stack) (h0 : 0 ∉ signum) :
    ∀ f' ∈ { f with pc := (f.step r.gotSig).1 } :: stack, Fits signum (f.step r.gotSig).2 f' := by
  have hfits := h.fits
  have habove := h.above
  rw [hst, List.forall_mem_cons] at hfits
  rw [hst, List.pairwise_cons] at habove
  rw [List.forall_mem_cons]
  refine ⟨hfits.1.step h0, fun f' hf' => ?_⟩
  rcases step_gotSig f r.gotSig with he | ⟨hw, v, he⟩ <;> rw [he]
  · exact hfits.2 f' hf'
  · exact (hfits.2 f' hf').update (habove.1 f' hf' hw) v

lemma Records.above_step (h : Records signum r seen) (hst : r.stack = f :: stack) :
    ({ f with pc := (f.step r.gotSig).1 } :: stack).Pairwise
      fun f f' => f.writes = true → f'.low ≤ f.low := by
  have hfits := h.fits
  have habove := h.above
  rw [hst, List.forall_mem_cons] at hfits
  rw [hst, List.pairwise_cons] at habove
  refine List.pairwise_cons.mpr ⟨fun f' hf' hw => ?_, habove.2⟩
  have hbelow := habove.1 f' hf'
  have hlow := (hfits.2 f' hf').low
  obtain ⟨sig, pc⟩ := f
  cases pc with
  | test i =>
    simp only [Frame.step] at hw ⊢
    split at hw
    · cases hw
    · rename_i hi
      split at hw
      · rename_i hlt
        -- the search has found a zero, so nobody relies on more
        rw [if_neg hi, if_pos hlt]
        by_contra hle
        exact hi ⟨hlt, hlow i (Nat.not_le.mp hle)⟩
      · cases hw
  | compare i =>
    simp only [Frame.step] at hw
    split at hw <;> cases hw
  | store i => exact Nat.le_succ_of_le (hbelow rfl)
  | terminate i | ret => cases hw

/-- A step of a handler above one that is writing. -/
lemma Records.covered {f' : Frame} (h : Records signum r seen) (hst : r.stack = f :: stack)
    (hgap : gap stack = some f') (h0 : 0 ∉ signum) :
    Records signum { r with
      gotSig := (f.step r.gotSig).2
      stack := { f with pc := (f.step r.gotSig).1 } :: stack } seen := by
  have hg : ∀ f, gap (f :: stack) = some f' := fun f => by simp [gap, hgap]
  have ho : ∀ f, outer (f :: stack) = outer stack := fun f => by simp [outer, hgap]
  have hends := h.ends
  have hsafe := h.safe
  have hdone := h.done
  simp only [hst, hg, ho] at hends hsafe hdone
  have habove := h.above
  rw [hst, List.pairwise_cons] at habove
  refine ⟨h.nodup, h.sub, fun j hj => ?_, h.fits_step hst h0, h.above_step hst, ?_, ?_, ?_⟩
  · rcases step_gotSig f r.gotSig with he | ⟨hw, v, he⟩
    · simp only [he]
      exact h.agree j hj
    · have hle := habove.1 f' (gap_mem hgap).1 hw
      rw [hends.low] at hle
      simp only [he]
      rw [update_of_ne (by omega)]
      exact h.agree j hj
  · simp only [hg]
    exact hends
  · simpa only [ho] using hsafe
  · simpa only [ho] using hdone

/-- A handler returns. -/
lemma Records.pop (h : Records signum r seen) (hst : r.stack = f :: stack) (hpc : f.pc = .ret) :
    Records signum { r with stack } seen := by
  have hw : f.writes = false := by simp [Frame.writes, hpc]
  have hg : gap (f :: stack) = gap stack := by simp [gap, hw]
  have habove := h.above
  have hends := h.ends
  have hsafe := h.safe
  have hdone := h.done
  rw [hst] at habove hsafe hdone
  rw [hst, hg] at hends
  refine ⟨h.nodup, h.sub, h.agree, fun f' hf' => h.fits f' (hst ▸ List.mem_cons_of_mem _ hf'),
    habove.of_cons, hends, fun s => ?_, fun f' hf' => hdone f' ?_⟩
  · rw [hsafe]
    simp only [outer]
    split
    · rfl
    · rename_i hno
      -- the signal of the handler has been recorded
      have hin : f.sig ∈ seen := hdone f (by simp [outer, hno]) hpc
      simp only [List.mem_cons, exists_eq_or_imp]
      constructor
      · rintro (hs | rfl | hs)
        · exact .inl hs
        · exact .inl hin
        · exact .inr hs
      · rintro (hs | hs)
        · exact .inl hs
        · exact .inr (.inr hs)
  · simp only [outer]
    split
    · exact hf'
    · exact List.mem_cons_of_mem _ hf'

/-- A step of a handler that nobody below has interrupted while writing. -/
lemma Records.outermost {sig : Signo} {pc pc' : Pc} {seen' : List Signo} (h : Records signum r seen)
    (hst : r.stack = ⟨sig, pc⟩ :: stack) (hgap : gap stack = none) (h0 : 0 ∉ signum)
    (hstep : Frame.step ⟨sig, pc⟩ r.gotSig = (pc', gotSig))
    (hseen : seen' = seen ∨ seen' = seen ++ [sig] ∧ sig ∉ seen)
    (hagree : ∀ j, (hj : j < seen'.length) → gotSig j = seen'[j])
    (hends : Ends seen' gotSig (if Frame.writes ⟨sig, pc'⟩ = true then some ⟨sig, pc'⟩ else none))
    (hdone : pc' = .ret → sig ∈ seen') :
    Records signum { r with gotSig, stack := ⟨sig, pc'⟩ :: stack } seen' := by
  have ho : ∀ f, outer (f :: stack) = f :: stack := by
    intro f
    simp [outer, hgap, outer_of_none hgap]
  have hsafe := h.safe
  have hdone' := h.done
  rw [hst, ho] at hsafe hdone'
  have hfits := h.fits_step hst h0
  have habove := h.above_step hst
  simp only [hstep] at hfits habove
  refine ⟨?_, ?_, hagree, hfits, habove, by simpa [gap, hgap] using hends, fun s => ?_, ?_⟩
  · rcases hseen with rfl | ⟨rfl, hnot⟩
    · exact h.nodup
    · rw [← List.concat_eq_append]
      exact h.nodup.concat hnot
  · rcases hseen with rfl | ⟨rfl, -⟩
    · exact h.sub
    · refine List.append_subset.mpr ⟨h.sub, ?_⟩
      refine List.cons_subset.mpr ⟨?_, List.nil_subset _⟩
      exact (h.fits _ (hst ▸ List.mem_cons_self)).sig
  · simp only [hsafe, ho, List.mem_cons, exists_eq_or_imp]
    rcases hseen with rfl | ⟨rfl, -⟩
    · rfl
    · simp only [List.mem_append, List.mem_singleton]
      tauto
  · simp only [ho, List.forall_mem_cons] at hdone' ⊢
    refine ⟨hdone, fun f hf hret => ?_⟩
    have hin := hdone'.2 f hf hret
    rcases hseen with rfl | ⟨rfl, -⟩
    · exact hin
    · exact List.mem_append_left _ hin

/-- A search that has come to the end of the array has seen every signal of the list. -/
lemma Records.mem_of_full {i : ℕ} (h : Records signum r seen) (hlen : signum.length ≤ speedyMaxsig)
    (hends : Ends seen r.gotSig none) (hi : speedyMaxsig ≤ i) (hs : s ∈ signum)
    (hlow : ∀ j < i, r.gotSig j ≠ 0) : s ∈ seen := by
  have hle := h.length_le hlen
  have hfull : speedyMaxsig ≤ seen.length := by
    by_contra hlt
    exact hlow seen.length (by omega) (hends (by omega))
  by_contra hnot
  have hcons : (s :: seen).length ≤ signum.length :=
    ((List.nodup_cons.mpr ⟨hnot, h.nodup⟩).subperm
      (List.cons_subset.mpr ⟨hs, h.sub⟩)).length_le
  rw [List.length_cons] at hcons
  omega

lemma Records.run_step {sig : Signo} {pc : Pc} (h : Records signum r seen)
    (hlen : signum.length ≤ speedyMaxsig) (h0 : 0 ∉ signum) (hst : r.stack = ⟨sig, pc⟩ :: stack)
    (hgap : gap stack = none) (hpc : pc ≠ .ret) :
    ∃ seen', Records signum { r with
      gotSig := (Frame.step ⟨sig, pc⟩ r.gotSig).2
      stack := ⟨sig, (Frame.step ⟨sig, pc⟩ r.gotSig).1⟩ :: stack } seen' := by
  have hfits : Fits signum r.gotSig ⟨sig, pc⟩ := h.fits _ (hst ▸ List.mem_cons_self)
  have hends := h.ends
  rw [hst] at hends
  simp only [gap, hgap, Option.none_or] at hends
  cases pc with
  | test i =>
    have hends : Ends seen r.gotSig none := hends
    have hlow : ∀ j < i, r.gotSig j ≠ 0 := hfits.low
    have hsearched : ∀ j < i, r.gotSig j ≠ sig := hfits.searched
    by_cases hi : i < speedyMaxsig
    · by_cases hz : r.gotSig i = 0
      · -- the search ends where the recorded signals do
        have hle : seen.length ≤ i := by
          by_contra hlt
          exact h.seen_ne h0 (Nat.not_le.mp hlt) hz
        have hge : i ≤ seen.length := by
          by_contra hlt
          exact hlow seen.length (by omega) (hends (by omega))
        have hstep : Frame.step ⟨sig, .test i⟩ r.gotSig = (.store i, r.gotSig) := by
          simp [Frame.step, hi, hz]
        rw [hstep]
        exact ⟨seen, h.outermost hst hgap h0 hstep (.inl rfl) h.agree
          ⟨Nat.le_antisymm hge hle, h.not_mem fun j hj => hsearched j (by omega)⟩ (by simp)⟩
      · have hstep : Frame.step ⟨sig, .test i⟩ r.gotSig = (.compare i, r.gotSig) := by
          simp [Frame.step, hi, hz]
        rw [hstep]
        exact ⟨seen, h.outermost hst hgap h0 hstep (.inl rfl) h.agree hends (by simp)⟩
    · have hstep : Frame.step ⟨sig, .test i⟩ r.gotSig = (.ret, r.gotSig) := by
        simp [Frame.step, hi]
      rw [hstep]
      exact ⟨seen, h.outermost hst hgap h0 hstep (.inl rfl) h.agree hends fun _ =>
        h.mem_of_full hlen hends (Nat.not_lt.mp hi) hfits.sig hlow⟩
  | compare i =>
    have hends : Ends seen r.gotSig none := hends
    by_cases hs : r.gotSig i = sig
    · have hlt : i < seen.length := by
        by_contra hle
        have hi := hfits.bound i rfl
        exact hfits.low seen.length (by simp only [Frame.low]; omega) (hends (by omega))
      have hstep : Frame.step ⟨sig, .compare i⟩ r.gotSig = (.ret, r.gotSig) := by
        simp [Frame.step, hs]
      rw [hstep]
      exact ⟨seen, h.outermost hst hgap h0 hstep (.inl rfl) h.agree hends fun _ => h.mem_of_eq hlt hs⟩
    · have hstep : Frame.step ⟨sig, .compare i⟩ r.gotSig = (.test (i + 1), r.gotSig) := by
        simp [Frame.step, hs]
      rw [hstep]
      exact ⟨seen, h.outermost hst hgap h0 hstep (.inl rfl) h.agree hends (by simp)⟩
  | store i =>
    obtain ⟨rfl, hnot⟩ : i = seen.length ∧ sig ∉ seen := hends
    have hstep : Frame.step ⟨sig, .store seen.length⟩ r.gotSig =
        (.terminate (seen.length + 1), update r.gotSig seen.length sig) := rfl
    rw [hstep]
    refine ⟨_, h.outermost hst hgap h0 hstep (.inr ⟨rfl, hnot⟩) (fun j hj => ?_)
      ⟨by simp, by simp⟩ (by simp)⟩
    rw [List.getElem_append]
    split
    · rename_i hj'
      dsimp only
      rw [update_of_ne (by omega)]
      exact h.agree j hj'
    · obtain rfl : j = seen.length := by
        simp only [List.length_append, List.length_singleton] at hj
        omega
      simp
  | terminate i =>
    obtain ⟨rfl, hin⟩ : i = seen.length ∧ sig ∈ seen := hends
    refine ⟨seen, h.outermost hst hgap h0 rfl (.inl rfl) (fun j hj => ?_) ?_ fun _ => hin⟩ <;>
      simp only [Frame.step]
    · split
      · rw [update_of_ne (by omega)]
        exact h.agree j hj
      · exact h.agree j hj
    · intro hlt
      rw [if_pos hlt, update_self]
  | ret => exact absurd rfl hpc

lemma Records.step (h : Records signum r seen) (hlen : signum.length ≤ speedyMaxsig) (h0 : 0 ∉ signum)
    {ev : Event} (hs : step signum r ev = some r') : ∃ seen', Records signum r' seen' := by
  cases ev with
  | deliver sig => exact ⟨seen, h.deliver hs⟩
  | run =>
    simp only [Recorder.step] at hs
    split at hs <;> try cases hs
    rename_i f stack hst
    split at hs <;> obtain rfl := Option.some.inj hs
    · rename_i hpc
      exact ⟨seen, h.pop hst hpc⟩
    · rename_i hpc
      cases hgap : gap stack with
      | some f' => exact ⟨seen, h.covered hst hgap h0⟩
      | none => exact h.run_step hlen h0 hst hgap hpc

lemma Reachable.records (h : Reachable signum old r) (hlen : signum.length ≤ speedyMaxsig)
    (h0 : 0 ∉ signum) : ∃ seen, Records signum r seen := by
  refine Lib.Lts.ReachOk.inv (P := fun r => ∃ seen, Records signum r seen) ⟨[], records_start old⟩ ?_ h
  intro r ev r' _ ⟨seen, hr⟩ _ hs
  exact hr.step hlen h0 hs

lemma sigFindFrom_eq_none {k i : ℕ} (hi : i + k = speedyMaxsig) :
    sigFindFrom gotSig s k i = none ↔
      ∃ j, i ≤ j ∧ j < speedyMaxsig ∧ gotSig j = s ∧ ∀ j', i ≤ j' → j' ≤ j → gotSig j' ≠ 0 := by
  induction k generalizing i with
  | zero =>
    simp only [sigFindFrom, reduceCtorEq, false_iff]
    rintro ⟨j, hij, hj, -⟩
    omega
  | succ k ih =>
    rw [sigFindFrom]
    split
    · rename_i hz
      simp only [reduceCtorEq, false_iff]
      rintro ⟨j, hij, -, -, hne⟩
      exact hne i (Nat.le_refl _) hij hz
    · rename_i hz
      split
      · rename_i hs
        refine iff_of_true rfl ⟨i, (Nat.le_refl _), by omega, hs, fun j' h1 h2 => ?_⟩
        obtain rfl := Nat.le_antisymm h2 h1
        exact hz
      · rename_i hs
        rw [ih (by omega)]
        constructor
        · rintro ⟨j, hij, hj, he, hne⟩
          refine ⟨j, by omega, hj, he, fun j' h1 h2 => ?_⟩
          rcases Nat.eq_or_lt_of_le h1 with rfl | h1
          · exact hz
          · exact hne j' h1 h2
        · rintro ⟨j, hij, hj, he, hne⟩
          have hne' : i ≠ j := by
            rintro rfl
            exact hs he
          exact ⟨j, by omega, hj, he, fun j' h1 h2 => hne j' (by omega) h2⟩

/-- What `speedy_sig_got` finds once no handler runs. -/
lemma Records.got (h : Records signum r seen) (hlen : signum.length ≤ speedyMaxsig) (h0 : 0 ∉ signum)
    (hst : r.stack = []) : speedySigGot r.gotSig s = true ↔ s ∈ r.safe := by
  have hends := h.ends
  rw [hst] at hends
  have hfind : speedySigGot r.gotSig s = true ↔ sigFindFrom r.gotSig s speedyMaxsig 0 = none :=
    decide_eq_true_iff
  simp only [hfind, sigFindFrom_eq_none (Nat.zero_add speedyMaxsig), h.safe, hst, outer,
    List.not_mem_nil, false_and, exists_false, or_false]
  constructor
  · rintro ⟨j, -, hj, he, hne⟩
    refine h.mem_of_eq (j := j) ?_ he
    by_contra hle
    exact hne seen.length (Nat.zero_le _) (by omega) (hends (by omega))
  · intro hs
    obtain ⟨j, hj, he⟩ := List.getElem_of_mem hs
    have hle := h.length_le hlen
    exact ⟨j, Nat.zero_le _, by omega, (h.agree j hj).trans he, fun j' _ hj' => h.seen_ne h0 (by omega)⟩

lemma Reachable.safe_subset (h : Reachable signum old r) : r.safe ⊆ r.delivered := by
  refine Lib.Lts.ReachOk.inv (P := fun r => r.safe ⊆ r.delivered) (List.nil_subset _) ?_ h
  intro r ev r' _ hr _ hs
  cases ev with
  | deliver sig =>
    simp only [step, Option.ite_none_right_eq_some, Option.some.injEq] at hs
    obtain ⟨-, rfl⟩ := hs
    dsimp only
    split
    · exact List.Subset.trans hr (List.subset_cons_self _ _)
    · exact List.cons_subset_cons _ hr
  | run =>
    simp only [step] at hs
    split at hs <;> try cases hs
    split at hs <;> obtain rfl := Option.some.inj hs <;> exact hr

/-- The array that `speedy_sig_wait` copies has the signals that were delivered, if each of them was
delivered at least once while no handler below was in the middle of writing, and only then. -/
theorem got_iff_delivered (hlen : signum.length ≤ speedyMaxsig) (h0 : 0 ∉ signum)
    (h : Reachable signum old r) (hst : r.stack = []) :
    (∀ s, speedySigGot r.gotSig s = true ↔ s ∈ r.delivered) ↔ ∀ s ∈ r.delivered, s ∈ r.safe := by
  obtain ⟨seen, hr⟩ := h.records hlen h0
  simp only [hr.got hlen h0 hst]
  constructor
  · intro hgot s hs
    exact (hgot s).mpr hs
  · intro hsafe s
    exact ⟨fun hs => h.safe_subset hs, hsafe s⟩

lemma exists_of_run {β : Type} (signum : List Signo) (old : GotSig) (f : Recorder → β) {b : β} (events : List Event)
    (h : (Lib.Lts.run (step signum) (start old) events).map f = some b) :
    ∃ r, Reachable signum old r ∧ f r = b :=
  Lib.Lts.exists_reach f events h

/-- A signal that comes while the other is searched for is recorded first. -/
theorem got_both : ∃ r, Reachable [10, 14] (fun _ => 14) r ∧ r.stack = [] ∧ r.delivered = [14, 10] ∧
    speedySigGot r.gotSig 14 = true := by
  obtain ⟨r, hr, h⟩ := exists_of_run [10, 14] (fun _ => 14)
    (fun r => (r.stack, r.delivered, r.safe)) (b := ([], [14, 10], [14, 10]))
    [.deliver 10, .deliver 14, .run, .run, .run, .run, .run, .run, .run, .run, .run, .run] (by decide)
  simp only [Prod.mk.injEq] at h
  obtain ⟨hst, hd, hs⟩ := h
  refine ⟨r, hr, hst, hd, ((got_iff_delivered (by decide) (by decide) hr hst).mpr ?_ 14).mpr ?_⟩
  · rw [hd, hs]
    exact fun _ => id
  · simp [hd]

/-- A signal that comes between the search and the write of the other one is lost. -/
theorem not_got : ∃ r, Reachable [10, 14] (fun _ => 0) r ∧ r.stack = [] ∧ 14 ∈ r.delivered ∧
    speedySigGot r.gotSig 14 = false := by
  obtain ⟨r, hr, h⟩ := exists_of_run [10, 14] (fun _ => 0)
    (fun r => (r.stack, r.delivered, speedySigGot r.gotSig 14)) (b := ([], [14, 10], false))
    [.deliver 10, .run, .deliver 14, .run, .run, .run, .run, .run, .run, .run] (by decide)
  simp only [Prod.mk.injEq] at h
  exact ⟨r, hr, h.1, by simp [h.2.1], h.2.2⟩

end Recorder

end SpeedyCgi.Signal
