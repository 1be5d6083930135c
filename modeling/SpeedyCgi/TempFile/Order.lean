import SpeedyCgi.TempFile.Keep
import Mathlib.Data.List.TakeWhile

/-!
The order of the backends of a group.

Waiting backends stand in front, the more mature ones before the others, and of two that are
equally mature the one that came last. A backend that is given to a frontend goes to the end while
it still waits, so the order is one of the backends that have not been given away. Two backends
never have the same pid, and one that has never waited is the one that is starting.
-/

namespace SpeedyCgi.TempFile

open Function

variable {w : Who} {A B : AFile} {x y n g f b s : SlotNum} {c : Chain} {q : Pid}

/-! ### Lists -/

lemma not_of_mem_dropWhile {α : Type} {p : α → Bool} {l : List α} {y : α}
    (h : l.Pairwise fun x y => p y = true → p x = true) (hy : y ∈ l.dropWhile p) : p y = false := by
  induction l with
  | nil => simp at hy
  | cons x l ih =>
    rw [List.pairwise_cons] at h
    rw [List.dropWhile_cons] at hy
    split at hy
    · exact ih h.2 hy
    · rename_i hx
      rcases List.mem_cons.mp hy with rfl | hy
      · simpa using hx
      · by_contra hne
        exact hx (h.1 y hy (by simpa using hne))

/-! ### The order -/

/-- Backend `b` waits and has not been given away. -/
def AFile.idle (A : AFile) (b : SlotNum) : Prop := (A.be b).feRunning = 0 ∧ ¬ A.taken b

/-- If `y` is idle, `x` is idle and the better one. -/
def AFile.before (w : Who) (A : AFile) (x y : SlotNum) : Prop :=
  A.idle y → A.idle x ∧ ((A.be y).maturity < (A.be x).maturity ∨
    (A.be y).maturity = (A.be x).maturity ∧ w.stamp y < w.stamp x)

def Lined (w : Who) (A : AFile) : Prop := ∀ g, (A.lst (.be g)).Pairwise (A.before w)

/-- Backends may leave, and those that stay are as they were. -/
lemma Lined.sub (h : Lined w A) (hl : ∀ g, (B.lst (.be g)).Sublist (A.lst (.be g)))
    (hbe : ∀ g, ∀ n ∈ A.lst (.be g), (B.idle n ↔ A.idle n) ∧ (B.be n).maturity = (A.be n).maturity) :
    Lined w B := by
  intro g
  refine List.Pairwise.imp_of_mem (fun {x y} hx hy hxy => ?_) ((h g).sublist (hl g))
  obtain ⟨hix, hmx⟩ := hbe g x ((hl g).subset hx)
  obtain ⟨hiy, hmy⟩ := hbe g y ((hl g).subset hy)
  rw [AFile.before, hix, hiy, hmx, hmy]
  exact hxy

lemma Lined.same (h : Lined w A) (hl : ∀ g, B.lst (.be g) = A.lst (.be g)) (hbe : B.be = A.be)
    (ht : ∀ n, B.taken n ↔ A.taken n) : Lined w B :=
  h.sub (fun g => by rw [hl]) fun g n _ => ⟨by rw [AFile.idle, AFile.idle, hbe, ht], by rw [hbe]⟩

lemma AFile.taken_cons {ev : Event} {l : List Event} (hB : B.log = ev :: l) (hA : A.log = l)
    (hev : ¬ ev.assigns) : B.taken n ↔ A.taken n := by
  simp only [AFile.taken, hB, hA, List.mem_cons]
  constructor
  · rintro ⟨g, f, h, sig, rfl | hm⟩
    · exact absurd trivial hev
    · exact ⟨g, f, h, sig, hm⟩
  · rintro ⟨g, f, h, sig, hm⟩
    exact ⟨g, f, h, sig, .inr hm⟩

lemma AFile.taken_congr (h : B.log = A.log) : B.taken n ↔ A.taken n := by
  rw [AFile.taken, AFile.taken, h]

/-- A backend that is not idle before or after. -/
lemma Lined.setBe (h : Lined w A) {v : BeSlot} (hl : ∀ g, (B.lst (.be g)).Sublist (A.lst (.be g)))
    (hbe : B.be = update A.be b v) (ht : ∀ n, B.taken n ↔ A.taken n) (hA : ¬ A.idle b)
    (hB : v.feRunning = 0 → A.taken b) (hm : v.maturity = (A.be b).maturity) : Lined w B := by
  refine h.sub hl fun g n _ => ?_
  rcases eq_or_ne n b with rfl | hne
  · have hB : ¬ B.idle n := by
      rw [AFile.idle, hbe, ht, update_self, not_and_not_right]
      exact hB
    exact ⟨iff_of_false hB hA, by rw [hbe, update_self, hm]⟩
  · exact ⟨by rw [AFile.idle, AFile.idle, hbe, ht, update_of_ne hne],
      by rw [hbe, update_of_ne hne]⟩

/-- A slot that is not a backend is zeroed. -/
lemma Lined.alloc (h : Lined w A) (hw : A.Wf) (hx : A.fresh x) {v : BeSlot}
    (hl : ∀ g, B.lst (.be g) = A.lst (.be g)) (hbe : B.be = update A.be x v) (hlog : B.log = A.log) :
    Lined w B := by
  refine h.sub (fun g => by rw [hl]) fun g n hn => ?_
  have hne : n ≠ x := by
    rintro rfl
    have := (hw.mem _ n).mp hn
    rcases hx.2 with h | h <;> simp [h] at this
  exact ⟨by rw [AFile.idle, AFile.idle, hbe, AFile.taken_congr hlog, update_of_ne hne],
    by rw [hbe, update_of_ne hne]⟩

/-- One more element that is not idle. -/
lemma Lined.append {l : List SlotNum} (hl : l.Pairwise (A.before w)) (hb : ¬ A.idle b) :
    (l ++ [b]).Pairwise (A.before w) := by
  rw [List.pairwise_append]
  refine ⟨hl, by simp, fun x _ y hy => ?_⟩
  obtain rfl : y = b := by simpa using hy
  exact fun h => absurd h hb

/-- What `do_sort` says of a backend that waits. -/
lemma sortKey_pos {x y : BeSlot} (hx : x.feRunning = 0) :
    0 < sortKey x y ↔ y.feRunning = 0 ∧ x.maturity < y.maturity := by
  by_cases hy : y.feRunning = 0
  · simp [sortKey, hx, hy]
  · simp [sortKey, hx, hy]

/-- A backend puts itself on the wait list. -/
lemma Lined.waitPut {m : ℕ} {l : List SlotNum} (hl : l.Pairwise (A.before w)) (hb : A.idle b)
    (hbm : (A.be b).maturity = m) (hno : ∀ n, ¬ A.taken n) (hst : ∀ n ∈ l, w.stamp n < w.stamp b) :
    (A.sorted b l).Pairwise (A.before w) := by
  have hidle : ∀ n, A.idle n ↔ (A.be n).feRunning = 0 := fun n => by simp [AFile.idle, hno n]
  have hkey : ∀ y, decide (0 < sortKey (A.be b) (A.be y)) = true ↔
      A.idle y ∧ (A.be b).maturity < (A.be y).maturity := fun y => by
    rw [decide_eq_true_eq, sortKey_pos hb.1, hidle]
  have hrest : ∀ y ∈ l.dropWhile fun y => decide (0 < sortKey (A.be b) (A.be y)),
      A.idle y → (A.be y).maturity ≤ (A.be b).maturity := by
    intro y hy hiy
    have := not_of_mem_dropWhile (hl.imp fun {x z} hxz hz => ?_) hy
    · rw [← Bool.not_eq_true, hkey, not_and] at this
      exact Nat.le_of_not_lt (this hiy)
    · rw [hkey] at hz ⊢
      obtain ⟨hx, hm⟩ := hxz hz.1
      exact ⟨hx, by omega⟩
  have hl' := hl
  rw [← List.takeWhile_append_dropWhile (p := fun y => decide (0 < sortKey (A.be b) (A.be y)))
    (l := l), List.pairwise_append] at hl'
  rw [AFile.sorted, List.pairwise_append, List.pairwise_cons]
  refine ⟨hl'.1, ⟨fun y hy hiy => ⟨hb, ?_⟩, hl'.2.1⟩, fun x hx y hy => ?_⟩
  · have := hst y ((List.dropWhile_sublist _).subset hy)
    have := hrest y hy hiy
    omega
  · rcases List.mem_cons.mp hy with rfl | hy
    · obtain ⟨hx, hm⟩ := (hkey x).mp (List.mem_takeWhile_imp (p := fun z => decide (0 < sortKey (A.be y) (A.be z))) hx)
      exact fun _ => ⟨hx, .inl hm⟩
    · exact hl'.2.2 x hx y hy

lemma Lined.slot (h : Lined w A) (hw : A.Wf) (ha : AInv A) (hr : SlotRule w A B) : Lined w B := by
  have hne : ∀ {b g}, A.own b = .chain (.be g) → b ≠ 0 := by
    rintro b g hb rfl
    simp [hw.zero] at hb
  cases hr with
  | note ev hev =>
    refine h.same (fun _ => rfl) rfl fun n => AFile.taken_cons rfl rfl ?_
    obtain hq | hl := hev
    · cases ev <;> simp [Event.quiet, Event.assigns] at hq ⊢
    · exact hl.2.1
  | parentKill => exact h.same (fun _ => rfl) rfl fun n => AFile.taken_cons rfl rfl id
  | starting | parentGone | parentMe | parentNew | feBackend | sendSig | takeSig =>
    exact h.same (fun _ => rfl) rfl fun _ => Iff.rfl
  | feNew f fl k p hf hme => exact h.alloc hw hf (fun _ => by simp) rfl rfl
  | feDrop f => exact h.same (fun _ => rfl) rfl fun n => AFile.taken_cons rfl rfl id
  | enqueue g f | dequeue g f => exact h.same (fun _ => by simp) rfl fun _ => Iff.rfl
  | feDispose g f | feDone f =>
    exact h.same (fun _ => by simp) rfl fun n => AFile.taken_cons rfl rfl id
  | report g b f sig val hb hf hf0 hfb hp =>
    refine h.setBe (fun _ => List.Sublist.refl _) rfl (fun _ => Iff.rfl) (fun hi => hf0 ?_)
      (fun h0 => absurd h0 (hne hb)) rfl
    exact hf.symm.trans hi.1
  | feGone f b hf hb hb0 hp =>
    obtain ⟨g, hbe, hrun⟩ := (ha.paired.frontend f hf).resolve_left (hb ▸ hb0)
    have hf0 : f ≠ 0 := by
      rintro rfl
      simp [hw.zero] at hf
    refine h.setBe (fun _ => by simp) rfl (fun n => AFile.taken_cons rfl rfl id) (fun hi => hf0 ?_)
      (fun h0 => absurd h0 hb0) rfl
    rw [← hrun, hb]
    exact hi.1
  | beDispose g b hb hf =>
    refine h.sub (fun g' => ?_) fun g' n hn => ⟨?_, rfl⟩
    · rcases eq_or_ne g' g with rfl | hne
      · simpa using List.erase_sublist
      · simp [hne]
    · have : ∀ n, ((A.note (.unlink b)).discard b (.be g)).taken n ↔ A.taken n := fun n =>
        (AFile.taken_cons (A := A.note (.unlink b)) rfl rfl id).trans (AFile.taken_cons rfl rfl id)
      rw [AFile.idle, this]
      rfl
  | assign g f b hd sig hb hb0 hst htell =>
    have htaken : ∀ n ≠ b, ((A.reorder (.be g) ((A.lst (.be g)).erase b ++ [b])).note
        (.assign g f b hd sig)).taken n ↔ A.taken n := by
      intro n hn
      simp [AFile.taken_iff, assigned, hn]
    have hb' : ¬ ((A.reorder (.be g) ((A.lst (.be g)).erase b ++ [b])).note
        (.assign g f b hd sig)).idle b := fun hi => hi.2 ⟨g, f, hd, sig, by simp⟩
    intro g'
    rcases eq_or_ne g' g with rfl | hg'
    · simp only [AFile.note_lst, AFile.reorder_lst, update_self]
      refine Lined.append (List.Pairwise.imp_of_mem (fun {x y} hx hy hxy => ?_)
        ((h g').sublist List.erase_sublist)) hb'
      have hx : x ≠ b := fun heq => (hw.nodup _).not_mem_erase (heq ▸ hx)
      have hy : y ≠ b := fun heq => (hw.nodup _).not_mem_erase (heq ▸ hy)
      simpa [AFile.before, AFile.idle, htaken x hx, htaken y hy] using hxy
    · have hl : ((A.reorder (.be g) ((A.lst (.be g)).erase b ++ [b])).note
          (.assign g f b hd sig)).lst (.be g') = A.lst (.be g') := by simp [hg']
      rw [hl]
      have hbn : ∀ n ∈ A.lst (.be g'), n ≠ b := by
        rintro n hn rfl
        have h1 := (hw.mem _ n).mp hn
        have h2 := (hw.mem _ n).mp (List.mem_of_mem_head? hb)
        rw [h1] at h2
        simp [hg'] at h2
      refine List.Pairwise.imp_of_mem (fun {x y} hx hy hxy => ?_) (h g')
      simpa [AFile.before, AFile.idle, htaken x (hbn x hx), htaken y (hbn y hy)] using hxy
  | waitPut g b m hm hb hf hme hput hno hst =>
    intro g'
    have hidle : ∀ n ≠ b, (A.setWaiting b m).be n = A.be n := fun n hn => by simp [hn]
    have hrest : ∀ l : List SlotNum, b ∉ l → l.Pairwise (A.before w) →
        l.Pairwise ((A.setWaiting b m).before w) := by
      intro l hb hl
      refine List.Pairwise.imp_of_mem (fun {x y} hx hy hxy => ?_) hl
      have hx : x ≠ b := by rintro rfl; exact hb hx
      have hy : y ≠ b := by rintro rfl; exact hb hy
      rw [AFile.before, AFile.idle, AFile.idle, hidle x hx, hidle y hy]
      exact hxy
    rcases eq_or_ne g' g with rfl | hg'
    · have hl := hrest _ (hw.nodup (.be g')).not_mem_erase ((h g').sublist List.erase_sublist)
      have := Lined.waitPut (b := b) (m := m) hl ⟨by simp, hno b⟩ (by simp) hno fun n hn => hst n ?_
      · change List.Pairwise (AFile.before w (A.setWaiting b m)) _
        simpa using this
      · rintro rfl
        exact (hw.nodup _).not_mem_erase hn
    · have := hrest (A.lst (.be g')) (fun hm => ?_) (h g')
      · change List.Pairwise (AFile.before w (A.setWaiting b m)) _
        simpa [hg'] using this
      · have h1 := (hw.mem _ b).mp hm
        rw [hb] at h1
        simp [hg'.symm] at h1
  | beNew g b fl k hg hb hmax =>
    have h' : Lined w ((A.alloc b fl k).setBe b { feRunning := b }) :=
      h.alloc hw hb (fun _ => by simp) (v := { feRunning := b }) (by simp) rfl
    intro g'
    change List.Pairwise (AFile.before w ((A.alloc b fl k).setBe b { feRunning := b })) _
    rcases eq_or_ne g' g with rfl | hg'
    · simpa using Lined.append (h' g') (b := b) fun hi => hb.1 (by simpa using hi.1)
    · simpa [hg'] using h' g'
  | bePid g b p hb hp hlog hst hno =>
    refine h.sub (fun _ => List.Sublist.refl _) fun g' n _ => ⟨?_, ?_⟩
    · rcases eq_or_ne n b with rfl | hn
      · simp [AFile.idle, AFile.taken]
      · simp [AFile.idle, AFile.taken, hn]
    · rcases eq_or_ne n b with rfl | hn
      · simp
      · simp [hn]
  | claim g f b hf hme hfb hsig hb hb0 htaken =>
    have hf0 : f ≠ 0 := by
      rintro rfl
      simp [hw.zero] at hf
    exact h.setBe (fun _ => by simp) rfl (fun _ => Iff.rfl) (fun hi => hi.2 htaken)
      (fun h0 => absurd h0 hf0) rfl
  | claimAnon g b hb hb0 htaken =>
    exact h.setBe (fun _ => List.Sublist.refl _) rfl (fun _ => Iff.rfl) (fun hi => hi.2 htaken)
      (fun h0 => absurd h0 (hne hb)) rfl

lemma Lined.rule (h : Lined w A) (hw : A.Wf) (ha : AInv A) (hr : Rule w A B) : Lined w B := by
  obtain hr | hr := hr
  · exact h.slot hw ha hr
  · have hs := hr.sameQueues hw ha.housed.nameSlot
    refine h.sub (fun g => by rw [hs.lst _ (by simp)]) fun g n hn => ?_
    have hbe := hs.be n (by simp [(hw.mem _ n).mp hn])
    exact ⟨by rw [AFile.idle, AFile.idle, hbe, hr.taken], by rw [hbe]⟩

/-! ### Pids and limits -/

/-- No two backends have the same pid. -/
def Distinct (A : AFile) : Prop := ∀ b b' g g', A.own b = .chain (.be g) →
  A.own b' = .chain (.be g') → (A.be b).pid = (A.be b').pid → (A.be b).pid ≠ 0 → b = b'

lemma Distinct.rule (h : Distinct A) (hw : A.Wf) (ha : AInv A) (hr : Rule w A B) : Distinct B := by
  obtain hr | hr := hr
  · cases hr with
    | bePid g b p hb hp hlog hst hno =>
      intro n n' g g' hn hn' heq h0
      simp only [AFile.setBe_own, AFile.setBe_be, update_apply] at *
      have := h n n' g g' hn hn'
      have h1 := hno n g hn
      have h2 := hno n' g' hn'
      grind
    | _ =>
      intro n n' g g' hn hn' heq h0
      have := h n n' g g'
      simp [update_apply, AFile.fresh, BeSlot.run] at *
      grind
  · have hs := hr.sameQueues hw ha.housed.nameSlot
    intro n n' g g' hn hn'
    have hn := (hs.own n _ (by simp)).mp hn
    have hn' := (hs.own n' _ (by simp)).mp hn'
    rw [hs.be n (by simp [hn]), hs.be n' (by simp [hn'])]
    exact h n n' g g' hn hn'

/-- A backend that waits has a pid. -/
def Manned (A : AFile) : Prop := ∀ b g, A.own b = .chain (.be g) → (A.be b).feRunning = 0 →
  (A.be b).pid ≠ 0

lemma Manned.rule (h : Manned A) (hw : A.Wf) (ha : AInv A) (hme : ∀ q, w.me q → q ≠ 0)
    (hr : Rule w A B) : Manned B := by
  obtain hr | hr := hr
  · have hz := hw.zero
    have hp := ha.paired.frontend
    cases hr with
    | _ =>
      intro n g hn h0
      have := h n g
      simp [update_apply, AFile.fresh, BeSlot.run] at *
      grind
  · have hs := hr.sameQueues hw ha.housed.nameSlot
    intro n g hn
    have hn := (hs.own n _ (by simp)).mp hn
    rw [hs.be n (by simp [hn])]
    exact h n g hn

lemma AFile.length_sorted {l : List SlotNum} : (A.sorted b l).length = l.length + 1 := by
  rw [sorted, List.perm_middle.length_eq, List.takeWhile_append_dropWhile, List.length_cons]

lemma length_erase_succ {l : List SlotNum} (hx : x ∈ l) : (l.erase x).length + 1 = l.length := by
  rw [List.length_erase_of_mem hx]
  have := List.length_pos_of_mem hx
  omega

/-- A group gets one backend more at most, and only where there may be new ones. -/
lemma Rule.length (hr : Rule w A B) (hw : A.Wf) (ha : AInv A) (g : SlotNum) :
    (B.lst (.be g)).length ≤ (A.lst (.be g)).length ∨
      w.grows g ∧ (B.lst (.be g)).length = (A.lst (.be g)).length + 1 ∧
        (w.max = 0 ∨ (A.lst (.be g)).length < w.max) := by
  obtain hr | hr := hr
  · cases hr with
    | beNew g' b fl k hg hb hmax hgrow =>
      rcases eq_or_ne g g' with rfl | hne
      · exact .inr ⟨hgrow, by simp, hmax⟩
      · simp [hne]
    | beDispose g' b =>
      rcases eq_or_ne g g' with rfl | hne
      · exact .inl (by simpa using List.erase_sublist.length_le)
      · simp [hne]
    | assign g' f b hd sig hb =>
      rcases eq_or_ne g g' with rfl | hne
      · simp [length_erase_succ (List.mem_of_mem_head? hb)]
      · simp [hne]
    | waitPut g' b m hm hb =>
      rcases eq_or_ne g g' with rfl | hne
      · simp [AFile.length_sorted, length_erase_succ ((hw.mem _ b).mpr hb)]
      · simp [hne]
    | _ => simp
  · have hs := hr.sameQueues hw ha.housed.nameSlot
    exact .inl (by rw [hs.lst _ (by simp)])

/-- A backend that has never waited is starting. -/
def Fledgling (w : Who) (A : AFile) : Prop := ∀ b g, A.own b = .chain (.be g) →
  (A.be b).maturity = 0 → (A.be b).pid ≠ 0 → ¬ A.gone w (A.be b).pid →
    (A.gr g).beStarting = (A.be b).pid

lemma Rule.gone (hr : Rule w A B) (h : A.gone w q) : B.gone w q := h.imp_right hr.log

lemma Fledgling.rule (h : Fledgling w A) (hw : A.Wf) (ha : AInv A) (hr : Rule w A B) : Fledgling w B := by
  intro n g hn hm h0 hgone
  have hgone := fun h => hgone (hr.gone (q := (B.be n).pid) h)
  have := h n g
  obtain hr | hr := hr
  · have hc := fun h => ha.housed.chain n (.be g) g h rfl
    cases hr with
    | _ =>
      simp [update_apply, AFile.fresh, BeSlot.run] at *
      grind [AFile.grown]
  · have hs := hr.sameQueues hw ha.housed.nameSlot
    have hn := (hs.own n _ (by simp)).mp hn
    have hg := ha.housed.chain n _ g hn rfl
    rw [hs.be n (by simp [hn])] at hm h0 hgone ⊢
    rw [(hr.parent hg).2]
    exact this hn hm h0 hgone

/-! ### Over a whole section -/

/-- What holds of the backends of all groups. -/
structure Ranked (w : Who) (A : AFile) : Prop where
  lined : Lined w A
  distinct : Distinct A
  manned : Manned A
  fledgling : Fledgling w A

lemma Ranked.rule (h : Ranked w A) (hw : A.Wf) (ha : AInv A) (hme : ∀ q, w.me q → q ≠ 0)
    (hr : Rule w A B) : Ranked w B :=
  ⟨h.lined.rule hw ha hr, h.distinct.rule hw ha hr, h.manned.rule hw ha hme hr,
    h.fledgling.rule hw ha hr⟩

lemma Ranked.steps (h : Ranked w A) (hw : A.Wf) (ha : AInv A) (hme : ∀ q, w.me q → q ≠ 0)
    (hs : Steps w A B) : Ranked w B :=
  hs.keep (P := Ranked w) (L := fun _ => True) hw ha (fun _ _ => trivial) h
    fun _ _ hw ha hr _ h => h.rule hw ha hme hr

end SpeedyCgi.TempFile
