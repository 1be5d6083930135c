import SpeedyCgi.TempFile.Turn

/-!
What processes do between their sections keeps the invariant.
-/

namespace SpeedyCgi.TempFile

open Function

variable {W W' : World} {A B : AFile} {w : Who} {e : Env} {p q r : Pid} {g b f n : SlotNum}
  {due due' : Pid → End → Prop} {ro : Role} {sv : Server}

namespace World

/-- The file stays as it is, and only process `p` becomes something else. -/
structure Change (W W' : World) (due due' : Pid → End → Prop) (A : AFile) (p : Pid) : Prop where
  file : W'.file = W.file
  clock : W'.clock = W.clock
  stamp : W'.stamp = W.stamp
  others : ∀ q ≠ p, W'.role q = W.role q
  new : W'.role p ≠ .absent → W.role p ≠ .absent ∨ W.free p
  fit : W'.Fit due' A p (W'.role p)
  leads : (W.role p).leads → W'.role p ≠ .absent → (W'.role p).leads
  server : ∀ s, W.role p = .backend s → W'.role p ≠ .absent →
    ∃ s', W'.role p = .backend s' ∧ s'.g = s.g ∧ s'.b = s.b
  clean : ∀ q, W'.role q = .absent → W'.dead q = none ∧ W'.usr1 q = false ∧ W'.parent q = none
  dead : ∀ q, W'.dead q = none → W.dead q = none ∨ W'.role q = .absent
  sock : ∀ b q, W'.sock b = some q → W'.dead q = none ∧ W'.role q ≠ .absent ∧
    (W.sock b = some q ∨ q = p ∧ ∃ s, W'.role p = .backend s ∧ s.b = b ∧ A.serves s.g b p)
  parent : ∀ q r, W'.parent q = some r → W.parent q = some r ∧ W'.dead r = none
  kin : ∀ q s, W'.parent q = some p → W.role q = .backend s →
    (∃ woken answered, W'.role p = .parent s.g woken answered) ∨ W'.role p = .done
  due : ∀ q x, due q x → due' q x
  ended : ∀ c x, W.ended c = some x → W'.ended c = some x
  fresh : ∀ c x, W'.ended c = some x → W.ended c = some x ∨ c ∈ (W.role p).held
  held : ∀ c ∈ (W'.role p).held, c ∈ (W.role p).held ∧ W'.ended c = none
  kept : ∀ c ∈ (W.role p).held, c ∈ (W'.role p).held ∨ ∃ x, W'.ended c = some x ∧ due' p x
  receipts : W'.receipts = W.receipts ∨ ∃ f b c y, W.role p = .running f b c ∧
    W'.receipts = (c, y) :: W.receipts ∧ ∃ x, W.ended c = some x ∧ x.shows y.1 y.2
  line : ∀ g f x d st t, W'.role p = .queued g f x d st t →
    ∀ q f' x' d' st' t', q ≠ p → W.role q = .queued g f' x' d' st' t' →
      (t < t' → A.inLine g f f') ∧ (t' < t → A.inLine g f' f)

namespace Change

lemma pays (h : W.Change W' due due' A p) {c : Conn} (hp : W.Pays due A f b c) :
    W'.Pays due' A f b c := by
  obtain ⟨h0, x, hx, hsh⟩ | ⟨hback, g, q, h0, hb, hc⟩ := hp
  · exact .inl ⟨h0, x, h.ended c x hx, hsh⟩
  · refine .inr ⟨hback, g, q, h0, hb, ?_⟩
    obtain hc | ⟨x, hx, hd⟩ := hc
    · rcases eq_or_ne q p with rfl | hne
      · exact h.kept c hc
      · exact .inl (by rwa [h.others q hne])
    · exact .inr ⟨x, h.ended c x hx, h.due q x hd⟩

lemma fitOther (h : W.Change W' due due' A p) (hi : W.Inv due A) (hq : q ≠ p) :
    W'.Fit due' A q (W'.role q) := by
  have hfit := hi.fit q
  rw [h.others q hq]
  cases hr : W.role q with
  | queued g f want d stat since =>
    rw [hr] at hfit
    exact ⟨hfit.1, by rw [h.clock]; exact hfit.2⟩
  | running f b c =>
    rw [hr] at hfit
    obtain ⟨hf, hc, ht, hrec, hp⟩ := hfit
    refine ⟨hf, hc, by rwa [h.clock], ?_, h.pays hp⟩
    obtain heq | ⟨f', b', c', y, hr', heq, -⟩ := h.receipts
    · rwa [heq]
    · rw [heq]
      refine List.forall_mem_cons.mpr ⟨?_, hrec⟩
      -- the connections of two frontends are different
      rintro rfl
      have hp := hi.fit p
      rw [hr'] at hp
      exact hq (hc.symm.trans hp.2.1)
  | parent g woken answered =>
    rw [hr] at hfit
    intro hd
    obtain hd | hd := h.dead q hd
    · exact hfit hd
    · rw [h.others q hq, hr] at hd
      cases hd
  | backend s =>
    rw [hr] at hfit
    exact hfit
  | _ => trivial

lemma here (h : W.Change W' due due' A p) (hq : W'.role q ≠ .absent) : W.role q ≠ .absent ∨
    q = p ∧ W.free p := by
  rcases eq_or_ne q p with rfl | hne
  · exact (h.new hq).imp_right fun h => ⟨rfl, h⟩
  · exact .inl (by rwa [← h.others q hne])

/-- A process that a slot in use names was there before. -/
lemma old (h : W.Change W' due due' A p) (hi : W.Inv due A) (hn : A.live n)
    (hq : W'.role q ≠ .absent) (hname : (A.be n).pid = q ∨ (A.gr n).beParent = q) :
    W.role q ≠ .absent := by
  obtain hq | ⟨rfl, hfree⟩ := h.here hq
  · exact hq
  · obtain ⟨h1, -, h2, -⟩ := hi.not_named hfree hn
    rcases hname with h' | h'
    · exact absurd h' h1
    · exact absurd h' h2

lemma books (h : W.Change W' due due' A p) (hi : W.Inv due A) : W'.Books := by
  have hb := hi.books
  have hheld : ∀ q, ∀ c ∈ (W'.role q).held, c ∈ (W.role q).held := by
    intro q c hc
    rcases eq_or_ne q p with rfl | hne
    · exact (h.held c hc).1
    · rwa [← h.others q hne]
  refine ⟨?_, h.clean, fun q r hr => ?_, fun n => by rw [h.clock, h.stamp]; exact hb.past n,
    fun q c hc => ?_, fun q q' c hc hc' => hb.once q q' c (hheld q c hc) (hheld q' c hc'),
    fun c x hx => ?_, fun y hy => ?_, ?_⟩
  · by_contra hz
    obtain hz | ⟨heq, hfree⟩ := h.here hz
    · exact hz hb.zero
    · exact hfree.1 heq.symm
  · obtain ⟨hr', hd⟩ := h.parent q r hr
    obtain ⟨-, s, hs, hl⟩ := hb.kin q r hr'
    have hq : W'.role q ≠ .absent := fun hab => by
      rw [(h.clean q hab).2.2] at hr
      cases hr
    have hq' : ∃ s', W'.role q = .backend s' ∧ s'.g = s.g := by
      rcases eq_or_ne q p with rfl | hne
      · obtain ⟨s', hs', hg, -⟩ := h.server s hs hq
        exact ⟨s', hs', hg⟩
      · exact ⟨s, by rw [h.others q hne, hs], rfl⟩
    obtain ⟨s', hs', hg⟩ := hq'
    refine ⟨hd, s', hs', ?_⟩
    rw [hg]
    rcases eq_or_ne r p with rfl | hne
    · exact h.kin q s hr hs
    · rwa [h.others r hne]
  · have hc' := hheld q c hc
    obtain ⟨ht, hn⟩ := hb.held q c hc'
    refine ⟨by rwa [h.clock], ?_⟩
    rcases eq_or_ne q p with rfl | hne
    · exact (h.held c hc).2
    · cases hx : W'.ended c with
      | none => rfl
      | some x =>
        obtain hx | hx := h.fresh c x hx
        · rw [hn] at hx
          cases hx
        · exact absurd (hb.once q p c hc' hx) hne
  · rw [h.clock]
    obtain hx | hx := h.fresh c x hx
    · exact hb.ended c x hx
    · exact (hb.held p c hx).1
  · rw [h.clock]
    obtain heq | ⟨f, b, c, z, hr, heq, x, hx, hsh⟩ := h.receipts
    · rw [heq] at hy
      obtain ⟨ht, x, hx, hsh⟩ := hb.receipts y hy
      exact ⟨ht, x, h.ended _ x hx, hsh⟩
    · rw [heq] at hy
      obtain rfl | hy := List.mem_cons.mp hy
      · exact ⟨hb.ended c x hx, x, h.ended c x hx, hsh⟩
      · obtain ⟨ht, x, hx, hsh⟩ := hb.receipts y hy
        exact ⟨ht, x, h.ended _ x hx, hsh⟩
  · obtain heq | ⟨f, b, c, z, hr, heq, -⟩ := h.receipts
    · rw [heq]
      exact hb.nodup
    · rw [heq, List.map_cons, List.nodup_cons]
      refine ⟨fun hm => ?_, hb.nodup⟩
      obtain ⟨y, hy, hyc⟩ := List.mem_map.mp hm
      have hp := hi.fit p
      rw [hr] at hp
      exact hp.2.2.2.1 y hy hyc

/-- Such a change keeps the invariant. -/
theorem inv (h : W.Change W' due due' A p) (hi : W.Inv due A) : W'.Inv due' A := by
  refine ⟨h.file ▸ hi.rep, hi.inv, hi.still, ⟨?_, hi.ranked.distinct, hi.ranked.manned, ?_⟩,
    fun q => ?_, fun b g hb hq => ?_, fun g hg hq => ?_, fun b q hb => ?_,
    fun q q' g f f' x x' d d' st st' t t' hq hq' ht => ?_, h.books hi⟩
  · intro g
    refine (hi.ranked.lined g).imp fun hxy hy => ?_
    simp only [who_stamp, h.stamp]
    exact hxy hy
  · intro b g hb hm h0 hgone
    refine hi.ranked.fledgling b g hb hm h0 fun hg => hgone (hg.imp_left fun hg hq => ?_)
    exact hg (h.old hi (by simp [AFile.live, hb]) hq (.inl rfl))
  · rcases eq_or_ne q p with rfl | hne
    · exact h.fit
    · exact h.fitOther hi hne
  · obtain ⟨s, hs, h1, h2⟩ := hi.listed b g hb (h.old hi (by simp [AFile.live, hb]) hq (.inl rfl))
    rcases eq_or_ne (A.be b).pid p with heq | hne
    · rw [heq] at hs hq ⊢
      obtain ⟨s', hs', h3, h4⟩ := h.server s hs hq
      exact ⟨s', hs', h3.trans h1, h4.trans h2⟩
    · exact ⟨s, by rw [h.others _ hne, hs], h1, h2⟩
  · have hl := hi.heads g hg (h.old hi (by simp [AFile.live, hg]) hq (.inr rfl))
    rcases eq_or_ne (A.gr g).beParent p with heq | hne
    · rw [heq] at hl hq ⊢
      exact h.leads hl hq
    · rwa [h.others _ hne]
  · obtain ⟨hd, hq, hb | ⟨rfl, hs⟩⟩ := h.sock b q hb
    · obtain ⟨-, s, hs, h1, h2⟩ := hi.sock b q hb
      refine ⟨hd, ?_⟩
      rcases eq_or_ne q p with rfl | hne
      · obtain ⟨s', hs', h3, h4⟩ := h.server s hs hq
        exact ⟨s', hs', h4.trans h1, h3 ▸ h2⟩
      · exact ⟨s, by rw [h.others q hne, hs], h1, h2⟩
    · exact ⟨hd, hs⟩
  · rcases eq_or_ne q p with rfl | hne
    · rcases eq_or_ne q' q with rfl | hne'
      · rw [hq] at hq'
        cases hq'
        exact absurd ht (Nat.lt_irrefl _)
      · rw [h.others q' hne'] at hq'
        exact (h.line g f x d st t hq q' f' x' d' st' t' hne' hq').1 ht
    · rw [h.others q hne] at hq
      rcases eq_or_ne q' p with rfl | hne'
      · exact (h.line g f' x' d' st' t' hq' q f x d st t hne hq).2 ht
      · rw [h.others q' hne'] at hq'
        exact hi.line q q' g f f' x x' d d' st st' t t' hq hq' ht

end Change

/-! ### A process becomes something else -/

lemma Pays.setRole {c : Conn} (h : W.Pays due A f b c)
    (hheld : ∀ c, c ∈ ro.held ↔ c ∈ (W.role p).held) : (W.setRole p ro).Pays due A f b c := by
  refine h.imp_right fun ⟨hback, g, q, h0, hb, hc⟩ => ⟨hback, g, q, h0, hb, hc.imp_left fun hc => ?_⟩
  rcases eq_or_ne q p with rfl | hne
  · simpa using (hheld c).mpr hc
  · simpa [hne] using hc

lemma Change.setRole (hi : W.Inv due A) (hp : W.role p ≠ .absent) (hro : ro ≠ .absent)
    (hfit : W.Fit due A p ro) (hleads : (W.role p).leads → ro.leads)
    (hserver : ∀ s, W.role p = .backend s → ∃ s', ro = .backend s' ∧ s'.g = s.g ∧ s'.b = s.b)
    (hkin : ∀ q s, W.parent q = some p → W.role q = .backend s →
      (∃ woken answered, ro = .parent s.g woken answered) ∨ ro = .done)
    (hheld : ∀ c, c ∈ ro.held ↔ c ∈ (W.role p).held)
    (hline : ∀ g f x d st t, ro = .queued g f x d st t →
      ∀ q f' x' d' st' t', q ≠ p → W.role q = .queued g f' x' d' st' t' →
        (t < t' → A.inLine g f f') ∧ (t' < t → A.inLine g f' f)) :
    W.Change (W.setRole p ro) due due A p where
  file := rfl
  clock := rfl
  stamp := rfl
  others q hq := update_of_ne hq _ _
  new _ := .inl hp
  fit := by
    rw [setRole_role, update_self]
    cases ro with
    | running f b c =>
      obtain ⟨h1, h2, h3, h4, h5⟩ := hfit
      exact ⟨h1, h2, h3, h4, h5.setRole hheld⟩
    | _ => exact hfit
  leads h _ := by simpa using hleads h
  server s hs _ := by simpa using hserver s hs
  clean q hq := by
    rcases eq_or_ne q p with rfl | hne
    · exact absurd (by simpa using hq) hro
    · exact hi.books.clean q (by simpa [hne] using hq)
  dead q hq := .inl hq
  sock b q hb := by
    obtain ⟨hd, s, hs, -⟩ := hi.sock b q hb
    refine ⟨hd, ?_, .inl hb⟩
    rcases eq_or_ne q p with rfl | hne
    · simpa using hro
    · simp [hne, hs]
  parent q r hr := ⟨hr, (hi.books.kin q r hr).1⟩
  kin q s hq hs := by simpa using hkin q s hq hs
  due _ _ h := h
  ended _ _ h := h
  fresh _ _ h := .inl h
  held c hc := by
    have hc := (hheld c).mp (by simpa using hc)
    exact ⟨hc, (hi.books.held p c hc).2⟩
  kept c hc := .inl (by simpa using (hheld c).mpr hc)
  receipts := .inl rfl
  line g f x d st t hq := hline g f x d st t (by simpa using hq)

namespace Inv

/-- A frontend has moved on. -/
lemma asFrontend (hi : W.Inv due A) (hp : (W.role p).frontend) (hro : ro.frontend)
    (hfit : W.Fit due A p ro)
    (hline : ∀ g f x d st t, ro = .queued g f x d st t →
      ∀ q f' x' d' st' t', q ≠ p → W.role q = .queued g f' x' d' st' t' →
        (t < t' → A.inLine g f f') ∧ (t' < t → A.inLine g f' f)) :
    (W.setRole p ro).Inv due A := by
  have hheld : ∀ {ro : Role}, ro.frontend → ro.held = [] := fun {ro} h => by
    cases ro <;> simp [Role.frontend, Role.held] at h ⊢
  refine (Change.setRole hi ?_ ?_ hfit (fun hl => ?_) (fun s hs => ?_) (fun q s hq _ => ?_)
    (fun c => by rw [hheld hp, hheld hro]) hline).inv hi
  · rintro h
    simp [h, Role.frontend] at hp
  · rintro rfl
    exact hro
  · cases hr : W.role p <;> simp [hr, Role.frontend, Role.leads] at hp hl
  · simp [hs, Role.frontend] at hp
  · obtain ⟨_, _, _, ⟨_, _, hr⟩ | hr⟩ := hi.books.kin q p hq <;> simp [hr, Role.frontend] at hp

/-- So has a backend parent. -/
lemma asParent (hi : W.Inv due A) (hp : (W.role p).leads) (hro : ro.leads)
    (hfit : W.Fit due A p ro)
    (hkin : ∀ q s, W.parent q = some p → W.role q = .backend s →
      (∃ woken answered, ro = .parent s.g woken answered) ∨ ro = .done) :
    (W.setRole p ro).Inv due A := by
  have hheld : ∀ {ro : Role}, ro.leads → ro.held = [] := fun {ro} h => by
    cases ro <;> simp [Role.leads, Role.held] at h ⊢
  refine (Change.setRole hi ?_ ?_ hfit (fun _ => hro) (fun s hs => ?_) hkin
    (fun c => by rw [hheld hp, hheld hro]) fun g f x d st t h => ?_).inv hi
  · rintro h
    simp [h, Role.leads] at hp
  · rintro rfl
    exact hro
  · simp [hs, Role.leads] at hp
  · simp [h, Role.leads] at hro

/-- So has a backend. -/
lemma asBackend (hi : W.Inv due A) {s : Server} (hp : W.role p = .backend s) (hg : sv.g = s.g)
    (hb : sv.b = s.b) (hheld : ∀ c, c ∈ (Role.backend sv).held ↔ c ∈ (Role.backend s).held)
    (hfit : sv.Fits A p) : (W.setRole p (.backend sv)).Inv due A := by
  refine (Change.setRole hi (by simp [hp]) (by simp) (show W.Fit due A p (.backend sv) from hfit) (fun hl => ?_) (fun s' hs => ?_)
    (fun q s hq _ => ?_) (fun c => by rw [hheld, hp]) fun g f x d st t h => by cases h).inv hi
  · simp [hp, Role.leads] at hl
  · obtain rfl : s = s' := by simpa [hp] using hs
    exact ⟨sv, rfl, hg, hb⟩
  · obtain ⟨_, _, _, ⟨_, _, hr⟩ | hr⟩ := hi.books.kin q p hq <;> simp [hr] at hp

/-- More ends may be untold. -/
lemma mono (hi : W.Inv due A) (hdue : ∀ q x, due q x → due' q x) : W.Inv due' A :=
  Change.inv (W := W) (p := 0) ⟨rfl, rfl, rfl, fun _ _ => rfl, fun h => .inl h, by
    rw [hi.books.zero]; trivial, fun h _ => h, fun s hs _ => ⟨s, hs, rfl, rfl⟩, hi.books.clean,
    fun q hq => .inl hq, fun b q hb => by
      obtain ⟨hd, s, hs, -⟩ := hi.sock b q hb
      exact ⟨hd, by simp [hs], .inl hb⟩,
    fun q r hr => ⟨hr, (hi.books.kin q r hr).1⟩, fun q s hq _ => by
      obtain ⟨_, _, _, ⟨_, _, hr⟩ | hr⟩ := hi.books.kin q 0 hq <;> simp [hi.books.zero] at hr,
    hdue, fun _ _ h => h, fun _ _ h => .inl h, fun c hc => ⟨hc, (hi.books.held 0 c hc).2⟩,
    fun c hc => .inl hc, .inl rfl, fun g f y d st t h => by simp [hi.books.zero] at h⟩ hi

/-- A process that has ended is not there any more, and what it has not finished ends with `x`. -/
lemma buried (hi : W.Inv due A) {x : End} (hd : W.dead p ≠ none) (hdue : ∀ q x, due q x → due' q x)
    (hx : (W.role p).held ≠ [] → due' p x) : ((W.conclude (W.role p).held x).bury p).Inv due' A := by
  have hnone : ∀ c ∈ (W.role p).held, W.ended c = none := fun c hc => (hi.books.held p c hc).2
  have hself : ∀ q r, W.parent q = some r → r ≠ p := by
    rintro q r hr rfl
    exact hd (hi.books.kin q r hr).1
  refine Change.inv (W := W) (p := p) ⟨rfl, rfl, rfl, fun q hq => ?_, fun h => ?_, ?_, fun _ h => ?_,
    fun _ _ h => ?_, fun q hq => ?_, fun q hq => ?_, fun b q hb => ?_, fun q r hr => ?_,
    fun q s hq hs => ?_, hdue, fun c y hc => ?_, fun c y hc => ?_, fun c hc => ?_, fun c hc => ?_,
    .inl rfl, fun g f y d st t h => ?_⟩ hi
  · simp [bury, conclude, hq]
  · simp [bury] at h
  · simp only [bury, conclude, update_self]
    trivial
  · simp [bury] at h
  · simp [bury] at h
  · rcases eq_or_ne q p with rfl | hne
    · simp [bury]
    · have := hi.books.clean q (by simpa [bury, conclude, hne] using hq)
      simpa [bury, conclude, hne] using this
  · rcases eq_or_ne q p with rfl | hne
    · exact .inr (by simp [bury])
    · exact .inl (by simpa [bury, conclude, hne] using hq)
  · obtain ⟨hdq, s, hs, -⟩ := hi.sock b q hb
    have hne : q ≠ p := by
      rintro rfl
      exact hd hdq
    exact ⟨by simpa [bury, conclude, hne] using hdq, by simp [bury, conclude, hne, hs], .inl hb⟩
  · have hne : q ≠ p := by
      rintro rfl
      simp [bury] at hr
    have hr : W.parent q = some r := by simpa [bury, conclude, hne] using hr
    have hne' := hself q r hr
    exact ⟨hr, by simpa [bury, conclude, hne'] using (hi.books.kin q r hr).1⟩
  · have hne : q ≠ p := by
      rintro rfl
      simp [bury] at hq
    exact absurd rfl (hself q p (by simpa [bury, conclude, hne] using hq))
  · simp [bury, conclude, hc]
  · by_cases hm : c ∈ (W.role p).held
    · exact .inr hm
    · exact .inl (by simpa [bury, conclude, hm] using hc)
  · simp [bury, Role.held] at hc
  · exact .inr ⟨x, by simp [bury, conclude, hc, hnone c hc], hx (List.ne_nil_of_mem hc)⟩
  · simp [bury] at h

/-- `waitpid` has returned children. -/
lemma collected (hi : W.Inv due A) {cs : List Child} (hnd : (cs.map Child.pid).Nodup)
    (hd : ∀ c ∈ cs, W.dead c.pid ≠ none) : (W.collect cs).Inv
      (fun q x => due q x ∨ ∃ c ∈ cs, c.pid = q ∧ x = .reaped c.onSig c.val) A := by
  induction cs generalizing W due with
  | nil => exact hi.mono fun _ _ h => .inl h
  | cons c cs ih =>
    obtain ⟨hc, hnd⟩ := List.nodup_cons.mp hnd
    obtain ⟨hdc, hd⟩ := List.forall_mem_cons.mp hd
    have hi' : ((W.conclude (W.role c.pid).held (.reaped c.onSig c.val)).bury c.pid).Inv
        (fun q x => due q x ∨ q = c.pid ∧ x = .reaped c.onSig c.val) A :=
      hi.buried hdc (fun _ _ h => .inl h) fun _ => .inr ⟨rfl, rfl⟩
    refine (ih hi' hnd fun c' hc' => ?_).mono fun q x h => ?_
    · have hne : c'.pid ≠ c.pid := fun heq => hc (heq ▸ List.mem_map_of_mem hc')
      simpa [bury, conclude, hne] using hd c' hc'
    · obtain (h | ⟨rfl, rfl⟩) | ⟨c', hc', h⟩ := h
      · exact .inl h
      · exact .inr ⟨c, by simp, rfl, rfl⟩
      · exact .inr ⟨c', by simp [hc'], h⟩

/-- A backend is about to report what a run has returned. -/
lemma concluded (hi : W.Inv due A) {s : Server} {x : End} (hp : W.role p = .backend s)
    (hnil : s.backlog = []) : ((W.conclude (s.taken.map Sock.conn) x).setRole p
      (.backend { s with phase := .leaving, taken := [] })).Inv
      (fun q y => due q y ∨ q = p ∧ y = x) A := by
  have hheld : (W.role p).held = s.taken.map Sock.conn := by simp [hp, Role.held, hnil]
  have hnone : ∀ c ∈ s.taken.map Sock.conn, W.ended c = none := fun c hc =>
    (hi.books.held p c (hheld ▸ hc)).2
  refine Change.inv (W := W) (p := p) ⟨rfl, rfl, rfl, fun q hq => ?_, fun _ => .inl (by simp [hp]), ?_,
    fun h => ?_, fun s' hs _ => ?_, fun q hq => ?_, fun q hq => .inl hq, fun b q hb => ?_,
    fun q r hr => ⟨hr, (hi.books.kin q r hr).1⟩, fun q s' hq _ => ?_, fun _ _ h => .inl h,
    fun c y hc => ?_, fun c y hc => ?_, fun c hc => ?_, fun c hc => ?_, .inl rfl,
    fun g f y d st t h => ?_⟩ hi
  · simp [conclude, hq]
  · simp [Fit, Server.Fits]
  · simp [hp, Role.leads] at h
  · obtain rfl : s = s' := by simpa [hp] using hs
    exact ⟨{ s with phase := .leaving, taken := [] }, by simp, rfl, rfl⟩
  · rcases eq_or_ne q p with rfl | hne
    · simp at hq
    · exact hi.books.clean q (by simpa [conclude, hne] using hq)
  · obtain ⟨hd, s', hs, -⟩ := hi.sock b q hb
    refine ⟨hd, ?_, .inl hb⟩
    rcases eq_or_ne q p with rfl | hne
    · simp
    · simp [conclude, hne, hs]
  · obtain ⟨_, _, _, ⟨_, _, hr⟩ | hr⟩ := hi.books.kin q p hq <;> simp [hr] at hp
  · simp [World.setRole, conclude, hc]
  · rw [hheld]
    by_cases hm : c ∈ s.taken.map Sock.conn
    · exact .inr hm
    · refine .inl ?_
      simp only [World.setRole, conclude] at hc
      rwa [if_neg fun h => hm h.1] at hc
  · simp [Role.held, hnil] at hc
  · refine .inr ⟨x, ?_, .inr ⟨rfl, rfl⟩⟩
    rw [hheld] at hc
    simp only [World.setRole, conclude]
    rw [if_pos ⟨hc, hnone c hc⟩]
  · simp at h

/-- A process ends. -/
lemma exited (hi : W.Inv due A) (hr : W.runs p) (x : Bool × ℕ) :
    ({ W with
      dead := update W.dead p (some x)
      sock := fun b => (W.sock b).filter (· ≠ p)
      parent := fun q => (W.parent q).filter (· ≠ p) } : World).Inv due A := by
  refine Change.inv (W := W) (p := p) ⟨rfl, rfl, rfl, fun _ _ => rfl, fun h => .inl h, ?_,
    fun h _ => h, fun s hs _ => ⟨s, hs, rfl, rfl⟩, fun q hq => ?_, fun q hq => ?_, fun b q hb => ?_,
    fun q r hq => ?_, fun q s hq _ => ?_, fun _ _ h => h, fun _ _ h => h, fun _ _ h => .inl h,
    fun c hc => ⟨hc, (hi.books.held p c hc).2⟩, fun c hc => .inl hc, .inl rfl,
    fun g f y d st t h q f' y' d' st' t' hq hq' => ?_⟩ hi
  · have hfit := hi.fit p
    cases hrole : W.role p <;> rw [hrole] at hfit <;> simp only [Fit] at hfit ⊢
    · exact hfit
    · exact hfit
    · simp
    · exact hfit
  · have hne : q ≠ p := by
      rintro rfl
      exact hr.1 hq
    have := hi.books.clean q hq
    simp [hne, this]
  · rcases eq_or_ne q p with rfl | hne
    · simp at hq
    · exact .inl (by simpa [hne] using hq)
  · obtain ⟨hb, hne⟩ := Option.filter_eq_some_iff.mp hb
    have hne : q ≠ p := by simpa using hne
    obtain ⟨hd, s, hs, -⟩ := hi.sock b q hb
    exact ⟨by simpa [hne] using hd, by simp [hs], .inl hb⟩
  · obtain ⟨hq, hne⟩ := Option.filter_eq_some_iff.mp hq
    have hne : r ≠ p := by simpa using hne
    exact ⟨hq, by simpa [hne] using (hi.books.kin q r hq).1⟩
  · simp at hq
  · exact ⟨hi.line p q g f f' y y' d d' st st' t t' h hq',
      hi.line q p g f' f y' y d' d st' st t' t hq' h⟩

/-- A frontend has its status. -/
lemma received (hi : W.Inv due A) {c : Conn} {x : End} {y : Bool × ℕ} (hr : W.role p = .running f b c)
    (hx : W.ended c = some x) (hy : x.shows y.1 y.2) :
    ({ W.setRole p (.idle true) with receipts := (c, y) :: W.receipts } : World).Inv due A := by
  refine Change.inv (W := W) (p := p) ⟨rfl, rfl, rfl, fun q hq => update_of_ne hq _ _,
    fun _ => .inl (by simp [hr]), by simp [Fit], fun h => ?_, fun s hs => ?_, fun q hq => ?_,
    fun q hq => .inl hq, fun b q hb => ?_, fun q r hq => ⟨hq, (hi.books.kin q r hq).1⟩, fun q s hq _ => ?_,
    fun _ _ h => h, fun _ _ h => h, fun _ _ h => .inl h, fun c hc => ?_, fun c hc => ?_,
    .inr ⟨f, b, c, y, hr, rfl, x, hx, hy⟩, fun g f y d st t h => ?_⟩ hi
  · simp [hr, Role.leads] at h
  · simp [hr] at hs
  · have hne : q ≠ p := by
      rintro rfl
      simp at hq
    exact hi.books.clean q (by simpa [hne] using hq)
  · obtain ⟨hd, s, hs, -⟩ := hi.sock b q hb
    have hne : q ≠ p := by
      rintro rfl
      simp [hr] at hs
    exact ⟨hd, by simp [hne, hs], .inl hb⟩
  · obtain ⟨_, _, _, ⟨_, _, hr'⟩ | hr'⟩ := hi.books.kin q p hq <;> simp [hr] at hr'
  · simp [Role.held] at hc
  · simp [hr, Role.held] at hc
  · simp at h

/-- A frontend starts. -/
lemma arrived (hi : W.Inv due A) (hp : W.free p) : (W.setRole p (.idle false)).Inv due A := by
  have hab := hp.2.1
  refine Change.inv (W := W) (p := p) ⟨rfl, rfl, rfl, fun q hq => ?_, fun _ => .inr hp, ?_,
    fun h => ?_, fun s hs => ?_, fun q hq => ?_, fun q hq => .inl hq, fun b q hb => ?_,
    fun q r hr => ⟨hr, (hi.books.kin q r hr).1⟩, fun q s hq _ => ?_, fun _ _ h => h, fun _ _ h => h,
    fun _ _ h => .inl h, fun c hc => ?_, fun c hc => ?_, .inl rfl, fun g f y d st t h => ?_⟩ hi
  · simp [hq]
  · simp [Fit]
  · simp [hab, Role.leads] at h
  · simp [hab] at hs
  · rcases eq_or_ne q p with rfl | hne
    · simp at hq
    · exact hi.books.clean q (by simpa [hne] using hq)
  · obtain ⟨hd, s, hs, -⟩ := hi.sock b q hb
    have hne : q ≠ p := by
      rintro rfl
      simp [hab] at hs
    exact ⟨hd, by simp [hne, hs], .inl hb⟩
  · obtain ⟨_, _, _, ⟨_, _, hr⟩ | hr⟩ := hi.books.kin q p hq <;> simp [hab] at hr
  · simp [Role.held] at hc
  · simp [hab, Role.held] at hc
  · simp at h

/-- A backend listens. -/
lemma listened (hi : W.Inv due A) {s : Server} (hp : W.role p = .backend s) (hd : W.dead p = none)
    (hs : s.phase = .start) : ({ W.setRole p (.backend { s with phase := .ready }) with
      sock := update W.sock s.b (some p) } : World).Inv due A := by
  have hfit := hi.fit p
  rw [hp] at hfit
  have hfit : ({ s with phase := .ready } : Server).Fits A p := by
    simpa [Fit, Server.Fits, hs] using hfit
  have hi' : (W.setRole p (.backend { s with phase := .ready })).Inv due A :=
    hi.asBackend hp rfl rfl (fun _ => Iff.rfl) hfit
  refine Change.inv (W := W.setRole p (.backend { s with phase := .ready })) (p := p)
    ⟨rfl, rfl, rfl, fun _ _ => rfl, fun h => .inl h, hi'.fit p, fun h _ => h,
    fun s' hs _ => ⟨s', hs, rfl, rfl⟩, hi'.books.clean, fun q hq => .inl hq, fun b q hb => ?_,
    fun q r hr => ⟨hr, (hi'.books.kin q r hr).1⟩, fun q s' hq _ => ?_, fun _ _ h => h,
    fun _ _ h => h, fun _ _ h => .inl h, fun c hc => ⟨hc, (hi'.books.held p c hc).2⟩,
    fun c hc => .inl hc, .inl rfl, fun g f y d st t h => by simp at h⟩ hi'
  · rcases eq_or_ne b s.b with rfl | hne
    · obtain rfl : p = q := by simpa using hb
      exact ⟨hd, by simp, .inr ⟨rfl, { s with phase := .ready }, by simp, rfl, hfit.1⟩⟩
    · have hb : W.sock b = some q := by simpa [hne] using hb
      obtain ⟨hd, s', hs', -⟩ := hi'.sock b q hb
      exact ⟨hd, by simp [hs'], .inl hb⟩
  · obtain ⟨_, _, _, ⟨_, _, hr⟩ | hr⟩ := hi'.books.kin q p hq <;> simp at hr

end Inv

end World

end SpeedyCgi.TempFile
