import SpeedyCgi.TempFile.Between
import SpeedyCgi.TempFile.FollowFrontend

/-!
The locked sections keep the invariant.

A process that runs a section is first lowered to one that expects nothing of the file, then the
section takes its turn, and last the process is raised to what it has become.
-/

namespace SpeedyCgi.TempFile

open Function Lib.Wp

variable {α : Type} {W W' : World} {A B C : AFile} {w w' : Who} {e : Env} {p q : Pid}
  {g b f n : SlotNum} {due due' : Pid → End → Prop} {ro r0 : Role} {s : St} {cs : List Child}
  {stamp : SlotNum → ℕ}

/-- What a section that has returned has ended in. -/
lemma Runs.result {m : M α} {Q : α → AFile → Prop} {s' : St} {r : α} (h : Runs m Q A) (hs : Rep s A)
    (hm : m s = .ok (r, s')) : ∃ B, Rep s' B ∧ Q r B := by
  obtain ⟨B, hB, hq⟩ := wpr_ok h hs hm
  exact ⟨B, hB, hq⟩

namespace World

/-! ### Lowering and raising -/

lemma setRole_of (h : W.role p = ro) : W.setRole p ro = W := by
  rw [setRole, ← h, update_eq_self]

/-- What a process has been before a section does not matter once it has become something. -/
lemma after_lower (hp : W.role p ≠ .absent) (hr0 : r0 ≠ .absent) :
    (((W.setRole p r0).after p s).stamped stamp).setRole p ro =
      ((W.after p s).stamped stamp).setRole p ro := by
  have hq : ∀ q ≠ p, (W.setRole p r0).roleAfter p s.log q = W.roleAfter p s.log q := fun q hq => by
    simp only [roleAfter, setRole_role, update_of_ne hq]
    rfl
  have hself : ∀ W' : World, W'.role p ≠ .absent → W'.roleAfter p s.log p ≠ .absent := fun W' h => by
    simp only [roleAfter]
    split
    · simp
    · split
      · simp
      · exact receive_ne_absent.mpr h
  have habs : ∀ q, (W.setRole p r0).roleAfter p s.log q ≠ .absent ↔ W.roleAfter p s.log q ≠ .absent := by
    intro q
    rcases eq_or_ne q p with rfl | hne
    · exact iff_of_true (hself _ (by simpa using hr0)) (hself _ hp)
    · rw [hq q hne]
  have hrole : update ((W.setRole p r0).roleAfter p s.log) p ro = update (W.roleAfter p s.log) p ro := by
    funext q
    rcases eq_or_ne q p with rfl | hne
    · simp
    · rw [update_of_ne hne, update_of_ne hne, hq q hne]
  have hdead : ((W.setRole p r0).after p s).dead = (W.after p s).dead := by
    funext q
    simp only [after, habs]
    rfl
  have husr1 : ((W.setRole p r0).after p s).usr1 = (W.after p s).usr1 := by
    funext q
    simp only [after, habs]
    rfl
  simp only [setRole, stamped, after] at hrole hdead husr1 ⊢
  rw [hrole, hdead, husr1]

lemma untold.setRole {x : End} (h : W.untold q x) (hp : W.role p ≠ .absent) :
    (W.setRole p ro).untold q x := by
  have hne : q ≠ p := by
    rintro rfl
    exact hp h.1
  exact ⟨by simpa [hne] using h.1, h.2⟩

lemma Inv.untold_setRole (hi : (W.setRole p ro).Inv W.untold A) (hp : W.role p ≠ .absent) :
    (W.setRole p ro).Inv (W.setRole p ro).untold A := hi.mono fun _ _ hd => hd.setRole hp

/-! ### What the system answers -/

lemma Answers.congr (h : W.Answers e cs) (hfile : W'.file = W.file) (hsock : W'.sock = W.sock)
    (hab : ∀ q, W.role q = .absent → W'.role q = .absent)
    (hrole : ∀ q, W'.role q ≠ .absent → W.role q ≠ .absent ∧ ∀ c ∈ cs, c.pid ≠ q) :
    W'.Answers e [] where
  alive log q hq _ hk := h.alive log q (hrole q hq).1 (hrole q hq).2 hk
  connects b hb := hsock ▸ h.connects b hb
  spawn q hq := by
    obtain ⟨h0, hq, hn⟩ := h.spawn q hq
    exact ⟨h0, hab q hq, hfile ▸ hn⟩
  fork q hq := by
    obtain ⟨h0, hq, hn⟩ := h.fork q hq
    exact ⟨h0, hab q hq, hfile ▸ hn⟩

lemma Answers.setRole (h : W.Answers e []) (hp : W.role p ≠ .absent) :
    (W.setRole p ro).Answers e [] := by
  refine h.congr rfl rfl (fun q hq => ?_) fun q hq => ⟨?_, by simp⟩
  · rcases eq_or_ne q p with rfl | hne
    · exact absurd hq hp
    · simpa [hne] using hq
  · rcases eq_or_ne q p with rfl | hne
    · exact hp
    · simpa [hne] using hq

/-! ### Who runs the sections -/

/-- A process that is to run a section, and expects nothing of the file. -/
structure Ready (W : World) (due : Pid → End → Prop) (e : Env) (A : AFile) : Prop where
  inv : W.Inv due A
  runs : W.runs e.self
  bare : (W.role e.self).bare
  answers : W.Answers e []

/-- A frontend, which may say `T` aloud. -/
@[simps] def asking (W : World) (e : Env) (T : Event → Prop) : Who :=
  { W.who e.self e.maxBackends with
    me := (· = e.self)
    boss := (· = e.self)
    tells := fun ev => T ev ∨ ∃ q, e.spawn.child = some q ∧ ev = .spawn q }

lemma not_asking {T : Event → Prop} {ev : Event} (hT : ¬ T ev) (hs : ∀ q, ev ≠ .spawn q) :
    ¬ (W.asking e T).tells ev := by
  rintro (h | ⟨q, -, h⟩)
  · exact hT h
  · exact hs q h

/-- A backend parent that has found the children `cs`. -/
@[simps] def leading (W : World) (e : Env) (cs : List Child) : Who :=
  { W.who e.self e.maxBackends with
    boss := (· = e.self)
    heads := (· = e.self)
    died := fun q sig v => ⟨q, sig, v⟩ ∈ cs
    tells := fun ev => ∃ q g b, e.fork = some q ∧ ev = .fork q g b
    grows := fun _ => True }

/-- The backend with slot `b`. -/
@[simps] def serving (W : World) (e : Env) (b : SlotNum) (ran : ℕ → Prop) (stamp : SlotNum → ℕ) : Who :=
  { W.who e.self e.maxBackends with
    me := (· = e.self)
    ran
    puts := (· = b)
    stamp }

namespace Ready

lemma unhurt (h : W.Ready due e A) : A.unhurt w := by simp [AFile.unhurt, h.inv.log]

lemma notTaken (h : W.Ready due e A) (n : SlotNum) : ¬ A.taken n := by
  simp [AFile.taken_iff, assigned, h.inv.log]

lemma fits (h : W.Ready due e A) (hself : w.self = e.self) (hlive : w.live = fun q => W.role q ≠ .absent) :
    Fits e w where
  who := hself
  self h0 := h.runs.1 (h0 ▸ h.inv.books.zero)
  zero := by simp [hlive, h.inv.books.zero]
  alive log q hq hk := h.answers.alive log q (by simpa [hlive] using hq) (by simp) hk

/-- A frontend or a backend, or a parent. -/
lemma runner (h : W.Ready due e A) (hself : w.self = e.self) (hlive : w.live = fun q => W.role q ≠ .absent)
    (hstamp : w.stamp = W.stamp) (hme : ∀ q, w.me q → q = e.self) (hboss : ∀ q, w.boss q → q = e.self)
    (hheads : ∀ q, w.heads q → q = e.self ∧ (W.role e.self).leads)
    (hbirths : ∀ q, w.tells (.spawn q) → e.spawn.child = some q)
    (hran : ∀ v, w.ran v → (W.role e.self).held = [] ∧ ∀ x, due e.self x → x = .reported v)
    (hdied : ∀ q s v, w.died q s v → W.role q = .absent ∧ ∀ x, due q x → x = .reaped s v)
    (hlost : ∀ q x, W.role q = .absent → due q x → (∀ s v, ¬ w.died q s v) → ∃ s v, x = .lost s v) :
    W.Runner due e w A where
  self := hself
  live q := by rw [hlive]
  me := hme
  boss := hboss
  heads := hheads
  stamp n := hstamp ▸ (h.inv.books.past n).le
  order := h.inv.ranked.congr hstamp.symm fun q => by rw [hlive]; rfl
  runs := h.runs
  bare := h.bare
  births q hq := h.answers.spawn q (hbirths q hq)
  ran := hran
  died := hdied
  lost := hlost

end Ready

lemma Runner.mono (h : W.Runner due e w' A) (hle : w.Le w') : W.Runner due e w A where
  self := hle.self.trans h.self
  live q := by rw [hle.live, h.live]
  me q hq := h.me q (hle.me q hq)
  boss q hq := h.boss q (hle.boss q hq)
  heads q hq := h.heads q (hle.heads q hq)
  stamp := hle.stamp ▸ h.stamp
  order := h.order.congr hle.stamp.symm fun q => by rw [hle.live]
  runs := h.runs
  bare := h.bare
  births q hq := h.births q (hle.tells _ hq)
  ran v hv := h.ran v (hle.ran v hv)
  died := hle.died ▸ h.died
  lost := hle.died ▸ h.lost

/-- A section in which no backend is forked. -/
lemma Runner.turn (h : W.Runner due e w A) (hi : W.Inv due A) (hs : Steps w A B) (hloose : NoLoose A B)
    (htaken : ∀ n g, B.own n = .chain (.be g) → B.taken n → (B.be n).feRunning ≠ 0)
    (hcalls : (TempFile.calls B.log).length ≤ 1) (hfork : ∀ q g b, .fork q g b ∉ B.log) :
    W.Turn due e w A B :=
  { h with
    steps := hs
    loose := hloose
    taken := htaken
    calls := hcalls
    spawn := fun q hq => by
      have hev : (Event.spawn q).loud := trivial
      exact h.births q ((hs.loud hev hq).resolve_left (by simp [hi.log]))
    fork := fun q g b hf => absurd hf (hfork q g b) }

/-- Nobody else is connected or given away in a section that says neither aloud. -/
lemma Inv.noCalls (hi : W.Inv due A) (hs : Steps w A B) (hno : ∀ b n, ¬ w.tells (.connect b n)) :
    TempFile.calls B.log = [] := by
  rw [hs.calls hno, hi.log]
  rfl

lemma Inv.noneTaken (hi : W.Inv due A) (hs : Steps w A B)
    (hno : ∀ g f b h sig, ¬ w.tells (.assign g f b h sig)) (n : SlotNum) : ¬ B.taken n := by
  rw [AFile.taken_iff, hs.assigned hno, hi.log]
  simp [assigned]

lemma Inv.noEvent (hi : W.Inv due A) (hs : Steps w A B) {ev : Event} (hev : ev.loud)
    (hno : ¬ w.tells ev) : ev ∉ B.log := fun hm =>
  hno ((hs.loud hev hm).resolve_left (by simp [hi.log]))

/-- A section of `e.self` from `W` to `W'`, in which it has found the children `cs`: it takes its turn
in `W₀`, where the children are gone and it expects nothing of the file. -/
structure Section (W : World) (e : Env) (cs : List Child) (w : Who) (A B : AFile) (W' W₀ : World)
    (due : Pid → End → Prop) (s : St) (r0 ro : Role) : Prop where
  before : W₀ = { (W.collect cs).setRole e.self r0 with ended := W₀.ended, receipts := W₀.receipts }
  inv₀ : W₀.Inv due A
  turn : W₀.Turn due e w A B
  rep : Rep s B
  after : W' = { (W₀.after e.self s).setRole e.self ro with
    stamp := W'.stamp, ran := W'.ran, receipts := W'.receipts }
  inv : W'.Inv W'.untold B.calm

lemma sect_some {m : M α} {k : α → World → World} (h : W.sect p m k = some W') :
    ∃ r s, m { file := W.file } = .ok (r, s) ∧ W' = k r (W.after p s) := by
  unfold sect at h
  split at h
  · rename_i r s hm
    exact ⟨r, s, hm, (Option.some.inj h).symm⟩
  · cases h

namespace Turn

/-- The process that has run the section is what it was before. -/
lemma ownRole (h : W.Turn due e w A B) (hs : Rep s B) :
    (W.after e.self s).role e.self = (W.role e.self).receive (W.arrivals e.self B.log e.self) := by
  show W.roleAfter e.self s.log e.self = _
  rw [show s.log = B.log from hs.log, h.role h.runs.1]

end Turn

lemma arrivals_nil {log : List Event} (h : TempFile.calls log = []) : W.arrivals p log q = [] := by
  simp [arrivals, h]

@[simp] lemma receive_nil : ro.receive [] = ro := by cases ro <;> simp [Role.receive]

/-! ### Backends -/

/-- A backend is about to put itself on the wait list. -/
lemma Ranked.restamp (h : Ranked w A) (hb : (A.be b).feRunning ≠ 0)
    (hst : ∀ n ≠ b, w'.stamp n = w.stamp n) (hlive : ∀ q, w.live q ↔ w'.live q) : Ranked w' A where
  lined g := (h.lined g).imp fun {x y} hxy hy => by
    obtain ⟨hx, h⟩ := hxy hy
    have hne : ∀ n, A.idle n → n ≠ b := fun n hn heq => hb (heq ▸ hn.1)
    rw [hst x (hne x hx), hst y (hne y hy)]
    exact ⟨hx, h⟩
  distinct := h.distinct
  manned := h.manned
  fledgling n g hn hm h0 hgone := h.fledgling n g hn hm h0 fun hg =>
    hgone (hg.imp_left fun hl => by rwa [← hlive])

/-- It is the one with slot `b`, which somebody uses. -/
lemma Ready.server (h : W.Ready due e A) (hb : (A.be b).feRunning ≠ 0) (ran : ℕ → Prop)
    (hran : ∀ v, ran v → (W.role e.self).held = [] ∧ ∀ x, due e.self x → x = .reported v)
    (hlost : ∀ q x, W.role q = .absent → due q x → ∃ s v, x = .lost s v) :
    W.Runner due e (W.serving e b ran (update W.stamp b W.clock)) A where
  self := rfl
  live _ := Iff.rfl
  me _ := id
  boss _ := False.elim
  heads _ := False.elim
  stamp n := by
    rcases eq_or_ne n b with rfl | hne
    · simp
    · simpa [hne] using (h.inv.books.past n).le
  order := by
    refine Ranked.restamp h.inv.ranked hb (fun n hn => ?_) fun q => Iff.rfl
    simp [hn]
  runs := h.runs
  bare := h.bare
  births _ := False.elim
  ran := hran
  died _ _ _ := False.elim
  lost q x hq hd _ := hlost q x hq hd

/-- A backend that expects nothing any more. -/
lemma Inv.lower {sv : Server} (hi : W.Inv W.untold A) (hr : W.role e.self = .backend sv)
    (hd : W.dead e.self = none) (ha : W.Answers e []) :
    let V := W.setRole e.self (.backend { sv with phase := .leaving })
    V.Ready V.untold e A := by
  have hfit : ({ sv with phase := .leaving } : Server).Fits A e.self := trivial
  have hi' : (W.setRole e.self (.backend { sv with phase := .leaving })).Inv W.untold A :=
    hi.asBackend hr rfl rfl (fun _ => Iff.rfl) hfit
  exact ⟨hi'.untold_setRole (by simp [hr]), ⟨by simp, hd⟩, by simp [Role.bare],
    ha.setRole (by simp [hr])⟩

/-- A section in which nobody is connected and no backend is given away. -/
lemma Runner.silent (h : W.Runner due e w A) (hi : W.Inv due A) (hs : Steps w A B)
    (hloose : NoLoose A B) (hno : ∀ ev, w.tells ev → ∃ q, ev = .spawn q) : W.Turn due e w A B := by
  have hno : ∀ ev, (∀ q, ev ≠ .spawn q) → ¬ w.tells ev := fun ev hne ht => by
    obtain ⟨q, rfl⟩ := hno ev ht
    exact hne q rfl
  refine h.turn hi hs hloose (fun n _ _ ht => ?_) ?_ fun q g b => ?_
  · exact absurd ht (hi.noneTaken hs (fun _ _ _ _ _ => hno _ (by simp)) n)
  · rw [hi.noCalls hs fun _ _ => hno _ (by simp)]
    exact Nat.zero_le 1
  · have hev : (Event.fork q g b).loud := trivial
    exact hi.noEvent hs hev (hno _ (by simp))

/-- What a section of a backend leaves, once the backend has become what it is to be. -/
lemma Turn.server {sv sv' : Server} (ht : W.Turn due e w A B) (hi : W.Inv due A) (hs : Rep s B)
    (hno : ∀ ev, ¬ w.tells ev) (hdue : ∀ g b q x, B.serves g b q → (B.be b).feRunning ≠ 0 →
      (B.be b).feRunning ≠ b → due q x → W.untold q x) (hr : W.role e.self = .backend sv)
    (hg : sv'.g = sv.g) (hb : sv'.b = sv.b)
    (hheld : ∀ c, c ∈ (Role.backend sv').held ↔ c ∈ (Role.backend sv).held)
    (hfit : sv'.Fits B.calm e.self) :
    (((W.after e.self s).stamped w.stamp).setRole e.self (.backend sv')).Inv
      (((W.after e.self s).stamped w.stamp).setRole e.self (.backend sv')).untold B.calm := by
  have hcalls := hi.noCalls ht.steps fun _ _ => hno _
  have hserved := ht.served hi hcalls (hi.noneTaken ht.steps fun _ _ _ _ _ => hno _)
  have hrole : ((W.after e.self s).stamped w.stamp).role e.self = .backend sv := by
    refine (ht.ownRole hs).trans ?_
    rw [arrivals_nil hcalls, receive_nil, hr]
  exact ((ht.inv hi hserved hs hdue).asBackend hrole hg hb hheld hfit).untold_setRole (by simp [hrole])

/-- A backend puts itself on the wait list. -/
lemma Inv.runsPut {sv : Server} (hi : W.Inv W.untold A) (ha : W.Answers e [])
    (hr : W.role e.self = .backend sv) (hd : W.dead e.self = none) (hready : sv.phase = .ready) :
    Runs (perlWait e sv.g sv.b false) (fun ok B =>
      Steps ((W.setRole e.self (.backend { sv with phase := .leaving })).serving e sv.b (fun _ => False)
        (update W.stamp sv.b W.clock)) A B ∧ NoLoose A B ∧ (ok = true → sv.Idle B e.self) ∧
        (ok = false → (B.be sv.b).feRunning = sv.b)) A := by
  have hfit := hi.fit e.self
  rw [hr] at hfit
  simp only [Fit, Server.Fits, hready] at hfit
  obtain ⟨hb, hrun, hback, htaken⟩ := hfit
  have hV := hi.lower hr hd ha
  refine runs_perlWait (hV.fits rfl rfl) hi.inv hi.rep.wf hb hrun rfl rfl (fun n hn => ?_)
    hi.ranked.distinct hV.notTaken (fun _ => ⟨.refl, .refl A, by simp, fun _ => hrun⟩)
    fun B hs hb hrun hm hl => ⟨hs, hl, fun _ => ⟨hb, hrun, hm⟩, by simp⟩
  simpa [hn] using hi.books.past n

lemma Inv.put (hi : W.Inv W.untold A) (ha : W.Answers e []) (h : W.step (.put e) = some W') :
    ∃ sv B W₀ due s r0 sv', W.role e.self = .backend sv ∧ W.Section e []
      (W₀.serving e sv.b (fun _ => False) (update W.stamp sv.b W.clock)) A B W' W₀ due s r0 (.backend sv') ∧
      ((B.be sv.b).feRunning = sv.b ∨ sv'.phase = .waiting) := by
  rw [step] at h
  split at h <;> try cases h
  rename_i sv hr
  split at h <;> try cases h
  rename_i hphase
  obtain ⟨hd, hready⟩ := hphase
  obtain ⟨ok, s, hm, rfl⟩ := sect_some h
  have hfit := hi.fit e.self
  rw [hr] at hfit
  simp only [Fit, Server.Fits, hready] at hfit
  obtain ⟨hb, hrun, hback, htaken⟩ := hfit
  have hrun0 : (A.be sv.b).feRunning ≠ 0 := by
    rw [hrun]
    exact Turn.slot_ne_zero hi hb
  obtain ⟨B, hB, hs, hl, hidle, hout⟩ := (hi.runsPut ha hr hd hready).result hi.rep hm
  have hV := hi.lower hr hd ha
  set V := W.setRole e.self (.backend { sv with phase := .leaving }) with hVdef
  have hrunner := hV.server (b := sv.b) hrun0 (fun _ => False) (fun _ => False.elim) fun q x _ hd => hd.2
  set w := V.serving e sv.b (fun _ => False) (update V.stamp sv.b V.clock) with hw
  have ht := hrunner.silent hV.inv hs hl fun _ => False.elim
  set sv' : Server := { sv with phase := if ok = true then .waiting else .leaving } with hsv'
  have hW' : waits e sv W.clock ok (W.after e.self s) =
      ((V.after e.self s).stamped w.stamp).setRole e.self (.backend sv') := by
    rw [hVdef, after_lower (by simp [hr]) (by simp)]
    rfl
  rw [hW']
  refine ⟨sv, B, V, V.untold, s, _, sv', hr, ⟨rfl, hV.inv, ht, hB, rfl, ?_⟩, ?_⟩
  swap
  · cases ok with
    | false => exact .inl (hout rfl)
    | true => exact .inr rfl
  refine ht.server hV.inv hB (fun _ => id) (fun _ _ _ _ _ _ _ h => h)
    (show V.role e.self = .backend { sv with phase := .leaving } by simp [hVdef]) rfl rfl
    (fun _ => Iff.rfl) ?_
  cases ok with
  | false => trivial
  | true =>
    obtain ⟨h1, h2, h3⟩ := hidle rfl
    exact ⟨htaken, .inl ⟨⟨h1, h2, h3⟩, hback⟩⟩

/-- A backend that has reported the end of its run `val`, as far as the processes know. -/
def told (W : World) (p : Pid) (sv : Server) (val : ℕ) : World :=
  (W.conclude (sv.taken.map Sock.conn) (.reported val)).setRole p
    (.backend { sv with phase := .leaving, taken := [] })

lemma Inv.ready_told {sv : Server} (val : ℕ) (hi : W.Inv W.untold A) (ha : W.Answers e [])
    (hr : W.role e.self = .backend sv) (hd : W.dead e.self = none) (hback : sv.backlog = []) :
    (W.told e.self sv val).Ready (fun q y => W.untold q y ∨ q = e.self ∧ y = .reported val) e A := by
  have haV : (W.conclude (sv.taken.map Sock.conn) (.reported val)).Answers e [] :=
    ⟨ha.alive, ha.connects, ha.spawn, ha.fork⟩
  exact ⟨hi.concluded hr hback, ⟨by simp [told], hd⟩, by simp [told, Role.bare],
    haV.setRole (by simp [conclude, hr])⟩

/-- A backend reports the end of its run. -/
lemma Inv.runsReport (more : Bool) {sv : Server} {val : ℕ} (hi : W.Inv W.untold A) (ha : W.Answers e [])
    (hr : W.role e.self = .backend sv) (hd : W.dead e.self = none) (hphase : sv.phase = .ran val) :
    Runs (perlNext e sv.g sv.b val more (W.parent e.self).isNone) (fun ok B =>
      Steps ((W.told e.self sv val).serving e sv.b (· = val) (update W.stamp sv.b W.clock)) A B ∧
        NoLoose A B ∧ ((B.be sv.b).feRunning = 0 ∨ (B.be sv.b).feRunning = sv.b) ∧
        (ok = true → sv.Idle B e.self) ∧ (ok = false → (B.be sv.b).feRunning = sv.b)) A := by
  have hfit := hi.fit e.self
  rw [hr] at hfit
  simp only [Fit, Server.Fits, hphase] at hfit
  obtain ⟨⟨hb, hrun, -⟩, hback, -⟩ := hfit
  have hV := hi.ready_told val ha hr hd hback
  refine runs_perlNext (hV.fits rfl rfl) hi.inv hi.rep.wf hV.unhurt hV.runs.1 hb hrun rfl rfl rfl
    (fun n hn => ?_) hi.ranked.distinct (fun _ _ _ _ _ => id) hV.notTaken
    (fun B hs hrun hl => ⟨hs, hl, .inr hrun, by simp, fun _ => hrun⟩)
    fun B hs hb hrun hm hl => ⟨hs, hl, .inl hrun, fun _ => ⟨hb, hrun, hm⟩, by simp⟩
  simpa [hn] using hi.books.past n

lemma Inv.report {more : Bool} (hi : W.Inv W.untold A) (ha : W.Answers e [])
    (h : W.step (.report e more) = some W') :
    ∃ sv val B W₀ due s r0 sv', W.role e.self = .backend sv ∧ sv.phase = .ran val ∧ W.Section e []
      (W₀.serving e sv.b (· = val) (update W.stamp sv.b W.clock)) A B W' W₀ due s r0 (.backend sv') ∧
      ((B.be sv.b).feRunning = sv.b ∨ sv'.phase = .waiting) := by
  rw [step] at h
  split at h <;> try cases h
  rename_i sv hr
  split at h <;> try cases h
  rename_i val hphase
  split at h <;> try cases h
  rename_i hd
  obtain ⟨ok, s, hm, rfl⟩ := sect_some h
  have hfit := hi.fit e.self
  rw [hr] at hfit
  simp only [Fit, Server.Fits, hphase] at hfit
  obtain ⟨⟨hb, hrun, hmat⟩, hback, c, htaken⟩ := hfit
  -- what is due now is what the run has returned
  obtain ⟨B, hB, hs, hl, hrunB, hidle, hout⟩ := (hi.runsReport more ha hr hd hphase).result hi.rep hm
  have hV := hi.ready_told val ha hr hd hback
  set V := W.told e.self sv val with hVdef
  rw [told] at hVdef
  have hthere : ∀ x, ¬ W.untold e.self x := fun x hx => by simp [untold, hr] at hx
  have hab : ∀ q, V.role q = .absent → q ≠ e.self := by
    rintro q hq rfl
    simp [hVdef] at hq
  have hnone : (V.role e.self).held = [] := by simp [hVdef, Role.held, hback]
  have hrunner := hV.server (b := sv.b) hrun (· = val)
    (fun v hv => ⟨hnone, fun x hx => hv ▸ (hx.resolve_left (hthere x)).2⟩)
    fun q x hq hd => (hd.resolve_right fun h => hab q hq h.1).2
  set w := V.serving e sv.b (· = val) (update V.stamp sv.b V.clock) with hw
  have ht := hrunner.silent hV.inv hs hl fun _ => False.elim
  set sv' : Server := { sv with
    phase := if ok = true then .waiting else .leaving, taken := [] } with hsv'
  have hW' : waits e { sv with taken := [] } W.clock ok
      ((W.conclude (sv.taken.map Sock.conn) (.reported val)).after e.self s) =
      ((V.after e.self s).stamped w.stamp).setRole e.self (.backend sv') := by
    rw [hVdef, after_lower (by simp [conclude, hr]) (by simp)]
    rfl
  rw [hW']
  refine ⟨sv, val, B, V, _, s, _, sv', hr, hphase, ⟨rfl, hV.inv, ht, hB, rfl, ?_⟩, ?_⟩
  swap
  · cases ok with
    | false => exact .inl (hout rfl)
    | true => exact .inr rfl
  have hrole : V.role e.self = .backend { sv with phase := .leaving, taken := [] } := by simp [hVdef]
  refine ht.server hV.inv hB (fun _ => id) (fun g b q x hbq h0 hne hd => ?_) hrole rfl rfl
    (fun _ => Iff.rfl) ?_
  · obtain hd | ⟨rfl, -⟩ := hd
    · refine ⟨?_, hd.2⟩
      have hne : q ≠ e.self := by
        rintro rfl
        exact hthere x hd
      simpa [hVdef, conclude, hne] using hd.1
    · -- the slot of the backend itself has nobody to tell
      have hhere : V.roleAfter e.self B.log e.self = .backend { sv with phase := .leaving, taken := [] } := by
        rw [ht.role hV.runs.1, arrivals_nil (hV.inv.noCalls hs fun _ _ => id), receive_nil, hrole]
      obtain ⟨s', hs', -, hb'⟩ := ht.listed hV.inv hbq.1 (by rw [hbq.2, hhere]; simp)
      rw [hbq.2, hhere] at hs'
      obtain rfl : sv.b = b := by
        cases hs'
        exact hb'
      exact (hrunB.elim h0 hne).elim
  · cases ok with
    | false => trivial
    | true =>
      obtain ⟨h1, h2, h3⟩ := hidle rfl
      exact ⟨rfl, .inl ⟨⟨h1, h2, h3⟩, hback⟩⟩

/-- Whether scripts have run is nothing the invariant is about. -/
lemma Inv.withRan (hi : W.Inv due A) (ran : Conn → Bool) : ({ W with ran } : World).Inv due A where
  rep := hi.rep
  inv := hi.inv
  still := hi.still
  ranked := ⟨hi.ranked.lined, hi.ranked.distinct, hi.ranked.manned, hi.ranked.fledgling⟩
  fit := hi.fit
  listed := hi.listed
  heads := hi.heads
  sock := hi.sock
  line := hi.line
  books := { hi.books with }

/-- A backend has accepted a connection. -/
lemma Inv.runsAccepted {sv : Server} (hi : W.Inv W.untold A) (ha : W.Answers e [])
    (hr : W.role e.self = .backend sv) (hd : W.dead e.self = none) (hphase : sv.phase = .accepted) :
    Runs (perlAccepted e sv.g) (fun ok B =>
      Steps ((W.setRole e.self (.backend { sv with phase := .leaving })).who e.self e.maxBackends).aside A B ∧
        sv.Busy B e.self ∧ (A.valid sv.g → ok = true)) A := by
  have hfit := hi.fit e.self
  rw [hr] at hfit
  simp only [Fit, Server.Fits, hphase] at hfit
  obtain ⟨⟨hb, hrun, hmat⟩, -⟩ := hfit
  have hV := hi.lower hr hd ha
  have hgrown : A.grown e.self := by
    intro n g hn hp
    obtain rfl := hi.ranked.distinct n sv.b g sv.g hn hb.1 (hp.trans hb.2.symm)
      (by rw [hp]; exact (fun h0 => by rw [h0, hi.books.zero] at hr; cases hr))
    exact hmat
  refine runs_perlAccepted (hV.fits rfl rfl) hi.inv hi.rep.wf (hi.inv.housed.chain _ _ _ hb.1 rfl) hgrown
    (fun hno => ⟨.refl, ⟨hb, hrun, hmat⟩, fun hv => absurd hv hno⟩)
    fun B hs hbe hlst => ⟨hs, ?_, fun _ => rfl⟩
  obtain ⟨-, hwB⟩ := hi.inv.steps hi.rep.wf hs
  refine ⟨⟨?_, by rw [hbe, hb.2]⟩, by rwa [hbe], by rwa [hbe]⟩
  rw [← hwB.mem, hlst, hi.rep.wf.mem, hb.1]

lemma Inv.accepted (hi : W.Inv W.untold A) (ha : W.Answers e []) (h : W.step (.accepted e) = some W') :
    ∃ sv B W₀ due s r0 ro, W.role e.self = .backend sv ∧ sv.phase = .accepted ∧
      W.Section e [] (W₀.who e.self e.maxBackends) A B W' W₀ due s r0 ro := by
  rw [step] at h
  split at h <;> try cases h
  rename_i sv hr
  split at h <;> try cases h
  rename_i hphase
  obtain ⟨hd, hphase⟩ := hphase
  obtain ⟨ok, s, hm, hW'⟩ := sect_some h
  have hfit := hi.fit e.self
  rw [hr] at hfit
  simp only [Fit, Server.Fits, hphase] at hfit
  obtain ⟨⟨hb, hrun, hmat⟩, hback, c, htaken⟩ := hfit
  obtain ⟨B, hB, hs, hbusy, -⟩ := (hi.runsAccepted ha hr hd hphase).result hi.rep hm
  have hV := hi.lower hr hd ha
  set V := W.setRole e.self (.backend { sv with phase := .leaving }) with hVdef
  have hrunner : V.Runner V.untold e (V.who e.self e.maxBackends) A :=
    hV.runner rfl rfl rfl (fun _ => False.elim) (fun _ => False.elim) (fun _ => False.elim)
      (fun _ => False.elim) (fun _ => False.elim) (fun _ _ _ => False.elim) fun q x _ hd _ => hd.2
  set w := V.who e.self e.maxBackends with hw
  have ht := hrunner.silent hV.inv hs.back (hs.noLoose hi.inv hi.rep.wf) fun _ => False.elim
  have hrole : V.role e.self = .backend { sv with phase := .leaving } := by simp [hVdef]
  -- it runs the script, or it is all done
  have hend : ∀ phase, phase = .running ∨ phase = .leaving →
      (((V.after e.self s).stamped w.stamp).setRole e.self (.backend { sv with phase })).Inv
        (((V.after e.self s).stamped w.stamp).setRole e.self (.backend { sv with phase })).untold B.calm := by
    intro phase hp
    refine ht.server hV.inv hB (fun _ => id) (fun _ _ _ _ _ _ _ h => h) hrole rfl rfl
      (fun _ => Iff.rfl) ?_
    obtain ⟨h1, h2, h3⟩ := hbusy
    rcases hp with rfl | rfl
    · exact ⟨⟨h1, h2, h3⟩, hback, c, htaken⟩
    · trivial
  have hV' : ∀ phase : Phase, (W.after e.self s).setRole e.self (.backend { sv with phase }) =
      ((V.after e.self s).stamped w.stamp).setRole e.self (.backend { sv with phase }) := fun phase => by
    rw [hVdef, after_lower (by simp [hr]) (by simp)]
    rfl
  rw [hV', hV'] at hW'
  split at hW'
  · subst hW'
    exact ⟨sv, B, V, V.untold, s, _, .backend { sv with phase := .running }, hr, hphase, rfl, hV.inv, ht, hB,
      rfl, (hend .running (.inl rfl)).withRan _⟩
  · subst hW'
    exact ⟨sv, B, V, V.untold, s, _, .backend { sv with phase := .leaving }, hr, hphase, rfl, hV.inv, ht, hB,
      rfl, hend .leaving (.inr rfl)⟩

/-! ### Frontends -/

/-- A frontend that expects nothing any more. -/
lemma Inv.lowerFrontend (hi : W.Inv W.untold A) (hr : (W.role e.self).frontend)
    (hd : W.dead e.self = none) (ha : W.Answers e []) :
    let V := W.setRole e.self (.idle true)
    V.Ready V.untold e A := by
  have hp : W.role e.self ≠ .absent := fun h => by simp [h, Role.frontend] at hr
  have hi' : (W.setRole e.self (.idle true)).Inv W.untold A :=
    hi.asFrontend hr trivial trivial fun _ _ _ _ _ _ h => by cases h
  exact ⟨hi'.untold_setRole hp, ⟨by simp, hd⟩, by simp [Role.bare], ha.setRole hp⟩

lemma Ready.asking (h : W.Ready W.untold e A) {T : Event → Prop} (hT : ∀ q, ¬ T (.spawn q)) :
    W.Runner W.untold e (W.asking e T) A := by
  refine h.runner rfl rfl rfl (fun _ => id) (fun _ => id) (fun _ => False.elim) (fun q hq => ?_)
    (fun _ => False.elim) (fun _ _ _ => False.elim) fun q x _ hd _ => hd.2
  obtain ⟨q', hq', heq⟩ := hq.resolve_left (hT q)
  cases heq
  exact hq'

lemma Ready.acts (h : W.Ready due e A) {T : Event → Prop} : Acts e (W.asking e T) :=
  { h.fits rfl rfl with
    live := h.runs.1
    me := rfl
    boss := rfl
    spawn := fun q hq => .inr ⟨q, hq, rfl⟩
    died := fun _ _ _ => id }

/-- A frontend is idle after its section, until it is raised. -/
lemma Turn.idle (h : W.Turn due e w A B) (hs : Rep s B) (hr : W.role e.self = .idle true) :
    (W.after e.self s).role e.self = .idle true := by
  refine (h.ownRole hs).trans ?_
  rw [hr]
  rfl

/-- A frontend looks for its exit status. -/
lemma Inv.runsCollect {c : Conn} (hi : W.Inv W.untold A) (ha : W.Answers e [])
    (hr : W.role e.self = .running f b c) (hd : W.dead e.self = none) :
    Runs (frontendCollectStatus e f) (fun r B =>
      ∃ C, Steps ((W.setRole e.self (.idle true)).asking e fun _ => False).aside A C ∧
        C.seat (.chain .feRun) f e.self ∧
        (r = none ∧ B = C ∨ r = some ((C.fe f).exitOnSig, (C.fe f).exitVal) ∧ (C.fe f).backend = 0 ∧
          Steps ((W.setRole e.self (.idle true)).asking e fun _ => False) C B ∧
          B.own = update C.own f .free)) A := by
  have hfit := hi.fit e.self
  rw [hr] at hfit
  have hV := hi.lowerFrontend (e := e) (by simp [hr, Role.frontend]) hd ha
  exact runs_frontendCollectStatus hV.acts hi.inv hi.rep.wf hV.unhurt hfit.1
    (fun C hs hfC _ => ⟨C, hs, hfC, .inl ⟨rfl, rfl⟩⟩)
    fun C B hs hfC h0 hsB hown => ⟨C, hs, hfC, .inr ⟨rfl, h0, hsB, hown⟩⟩

lemma Inv.collect (hi : W.Inv W.untold A) (ha : W.Answers e []) (h : W.step (.collect e) = some W') :
    ∃ B W₀ due s r0 ro, W.Section e [] (W₀.asking e fun _ => False) A B W' W₀ due s r0 ro := by
  rw [step] at h
  split at h <;> try cases h
  rename_i f b c hr
  split at h <;> try cases h
  rename_i hd
  obtain ⟨r, s, hm, hW'⟩ := sect_some h
  have hfit := hi.fit e.self
  rw [hr] at hfit
  obtain ⟨hf, hc, ht, hrec, hpay⟩ := hfit
  obtain ⟨B, hB, C, hsC, hfC, hend⟩ := (hi.runsCollect ha hr hd).result hi.rep hm
  have hV := hi.lowerFrontend (e := e) (by simp [hr, Role.frontend]) hd ha
  set V := W.setRole e.self (.idle true) with hVdef
  have hrole : V.role e.self = .idle true := by simp [hVdef]
  have hrunner := hV.asking (T := fun _ => False) fun _ => id
  set w := V.asking e fun _ => False with hw
  have hspawn : ∀ ev, w.tells ev → ∃ q, ev = .spawn q := fun ev hev => by
    obtain ⟨q, -, heq⟩ := hev.resolve_left id
    exact ⟨q, heq⟩
  obtain ⟨haC, hwC⟩ := hi.inv.steps hi.rep.wf hsC
  -- what the frontend finds before it does anything for itself
  have htC := (hrunner.mono w.aside_le).silent hV.inv hsC (hsC.noLoose hi.inv hi.rep.wf)
    fun ev hev => hspawn ev hev.2
  have hpayC : ∀ s : St, s.log = C.log → (V.after e.self s).Pays V.untold C f b c := by
    intro s hs
    refine htC.pays hV.inv hV.runs.1 id (htC.unhurt hV.inv) hs hf ?_
    obtain hp | ⟨hb, g, q, h0, hbq, hc⟩ := (hpay.setRole (p := e.self) (by simp [hr, Role.held]) :
      (W.setRole e.self (.idle true)).Pays W.untold A f b c)
    · exact .inl hp
    · refine .inr ⟨hb, g, q, h0, hbq, hc.imp_right ?_⟩
      rintro ⟨x, hx, hd⟩
      exact ⟨x, hx, hd.setRole (by simp [hr])⟩
  obtain ⟨rfl, rfl⟩ | ⟨rfl, h0, hsB, hown⟩ := hend
  · -- not yet
    subst hW'
    have hserved := htC.served hV.inv (hV.inv.noCalls hsC fun b n h => by simpa using hspawn _ h.2)
      (hV.inv.noneTaken hsC fun _ _ _ _ _ h => by simpa using hspawn _ h.2)
    have hstay : (W.after e.self s).role e.self = .running f b c := by
      show W.roleAfter e.self s.log e.self = _
      rw [show s.log = B.log from hB.log, roleAfter_of (htC.noSpawn hV.runs.1) (htC.noFork hV.runs.1), hr]
      rfl
    have hW' : W.after e.self s = ((V.after e.self s).stamped w.stamp).setRole e.self (.running f b c) := by
      rw [hVdef, after_lower (by simp [hr]) (by simp)]
      exact (setRole_of hstay).symm
    have hidle : (V.after e.self s).role e.self = .idle true := htC.idle hB hrole
    rw [hW']
    refine ⟨B, V, V.untold, s, _, .running f b c, rfl, hV.inv,
      hrunner.silent hV.inv hsC.back htC.loose hspawn, hB, rfl, ?_⟩
    have hiB : ((V.after e.self s).stamped w.stamp).Inv V.untold B.calm := htC.stamped hV.inv hserved hB
    have hfront : (((V.after e.self s).stamped w.stamp).role e.self).frontend := by
      rw [show ((V.after e.self s).stamped w.stamp).role e.self = _ from hidle]
      trivial
    refine (hiB.asFrontend hfront (show (Role.running f b c).frontend from trivial)
      ⟨hfC, hc, Nat.lt_succ_of_lt ht, hrec, hpayC s hB.log⟩ fun _ _ _ _ _ _ h => by cases h).narrow
      fun g b q x hb _ hne hd => ?_
    exact (htC.untold hV.inv hB hb hne hd).setRole (by rw [hidle]; simp)
  · -- it has been told
    obtain ⟨x, hx, hsh⟩ : ∃ x, W.ended c = some x ∧ x.shows (C.fe f).exitOnSig (C.fe f).exitVal := by
      obtain ⟨-, hp⟩ | ⟨hb, g, q, -, hbq, -⟩ := hpayC { file := W.file, log := C.log } rfl
      · exact hp
      · rw [h0] at hb
        have := hbq.1
        simp [← hb, hwC.zero] at this
    have hiU := hi.received (y := ((C.fe f).exitOnSig, (C.fe f).exitVal)) hr hx hsh
    set U : World := { W.setRole e.self (.idle true) with
      receipts := (c, (C.fe f).exitOnSig, (C.fe f).exitVal) :: W.receipts } with hUdef
    have hU : U.Ready U.untold e A := by
      refine ⟨hiU.mono fun q x hd => ?_, ⟨by simp [hUdef], hd⟩, by simp [hUdef, Role.bare],
        ⟨hV.answers.alive, hV.answers.connects, hV.answers.spawn, hV.answers.fork⟩⟩
      exact hd.setRole (by simp [hr])
    have hsB' : Steps (U.asking e fun _ => False) A B := hsC.back.trans hsB
    have htB := (hU.asking (T := fun _ => False) fun _ => id).silent hU.inv hsB'
      ((hsC.noLoose hi.inv hi.rep.wf).trans (.of_own hown (by simp))) hspawn
    have hserved := htB.served hU.inv (hU.inv.noCalls hsB' fun b n h => by simpa using hspawn _ h)
      (hU.inv.noneTaken hsB' fun _ _ _ _ _ h => by simpa using hspawn _ h)
    have hiB := htB.inv hU.inv hserved hB fun _ _ _ _ _ _ _ h => h
    have hidle := htB.idle hB (by simp [hUdef])
    have hlow : (((W.setRole e.self (.idle true)).after e.self s).stamped w.stamp).setRole e.self (.idle true) =
        ((W.after e.self s).stamped w.stamp).setRole e.self (.idle true) :=
      after_lower (by simp [hr]) (by simp)
    have hW' : W' = ((U.after e.self s).stamped w.stamp).setRole e.self (.idle true) :=
      hW'.trans (congrArg (fun X : World => { X with receipts := U.receipts }) hlow).symm
    rw [hW']
    refine ⟨B, U, U.untold, s, _, .idle true, rfl, hU.inv, htB, hB, rfl, ?_⟩
    have hsame : ((U.after e.self s).stamped w.stamp).setRole e.self (.idle true) =
        (U.after e.self s).stamped w.stamp := setRole_of hidle
    rw [hsame]
    exact hiB

/-- What a section of `speedy_frontend_connect` has told a backend. -/
inductive Called (e : Env) (w : Who) (A B : AFile) : Prop
  | nobody (hcalls : TempFile.calls B.log = []) (hno : ∀ n, ¬ B.taken n)
  | one (g b : SlotNum) (n : ℕ) (C : AFile) (hs : Steps w A C) (hlog : ∀ ev ∈ C.log, ev ∈ B.log)
      (hfresh : C.Fresh g b e.entry) (hcalls : TempFile.calls B.log = [(b, n)])
      (htaken : ∀ m, B.taken m → m = b) (hle : n ≤ e.connects b)
      (hend : n = 3 ∧ .unlink b ∉ B.log ∧ (B.be b).feRunning ≠ 0 ∨ n < 3 ∧ B.own b = .free)

/-- The one call of a section. -/
lemma calls_eq {n : ℕ} {D : AFile} (hi : W.Inv due A) (hs : Steps w A C)
    (hno : ∀ b n, ¬ w.tells (.connect b n)) (hs' : Steps w.hush (C.note (.connect b n)) D) :
    TempFile.calls D.log = [(b, n)] := by
  rw [hs'.calls fun _ _ h => h.1]
  show (b, n) :: TempFile.calls C.log = _
  rw [hi.noCalls hs hno]

lemma Called.of_steps {n : ℕ} {D : AFile} (hi : W.Inv due A) (hs : Steps w A C)
    (hno : ∀ b n, ¬ w.tells (.connect b n)) (hfresh : C.Fresh g b e.entry) (hgave : Gave A C b)
    (hs' : Steps w.hush (C.note (.connect b n)) D) (hle : n ≤ e.connects b)
    (hend : n = 3 ∧ .unlink b ∉ D.log ∧ (D.be b).feRunning ≠ 0 ∨ n < 3 ∧ D.own b = .free) :
    Called e w A D := by
  refine .one g b n C hs (fun ev hev => hs'.log (List.mem_cons_of_mem _ hev)) hfresh
    (calls_eq hi hs hno hs') (fun m hm => ?_) hle hend
  rw [AFile.taken_iff, hs'.assigned fun _ _ _ _ _ h => h.1] at hm
  have hm : m ∈ assigned C.log := hm
  rw [show assigned C.log = _ from hgave, hi.log] at hm
  split at hm
  · simp [assigned] at hm
  · simpa [assigned] using hm

lemma Called.of_ends {r : SpeedyCgi.TempFile.Section} (hi : W.Inv due A) (h : Ends e w A r B)
    (hno : ∀ b n, ¬ w.tells (.connect b n)) : Called e w A B := by
  have hnone : ∀ B, Steps w A B → Gave A B 0 → Called e w A B := fun B hs hgave => by
    refine .nobody (hi.noCalls hs hno) fun n ht => ?_
    rw [AFile.taken_iff, show assigned B.log = _ from hgave, hi.log] at ht
    simp [assigned] at ht
  cases h with
  | queued g f d B hs hl hgave => exact hnone B hs hgave
  | nothing sw B hs hgave => exact hnone B hs hgave
  | kept g f b C B hs hfresh hgave h3 hun hs' hl hf hback hrun =>
    exact .of_steps hi hs hno hfresh hgave hs' h3 (.inl ⟨rfl, hun, by
      rw [hrun]
      exact hf.ne_zero (hi.inv.steps hi.rep.wf (hs.call (hi.inv.steps hi.rep.wf hs).2 hs')).2⟩)
  | sent g b C B hs hfresh hgave h3 hun hs' hl hrun =>
    have hwC := (hi.inv.steps hi.rep.wf hs).2
    exact .of_steps hi hs hno hfresh hgave hs' h3 (.inl ⟨rfl, hun, by
      rw [hrun]
      rintro rfl
      simpa [hwC.zero] using hfresh.own⟩)
  | failed g b n sw C B hn hle hs hfresh hgave hs' hl hun hfree =>
    exact .of_steps hi hs hno hfresh hgave hs' hle (.inr ⟨hn, hfree⟩)

lemma Runner.calling (h : W.Runner due e w A) : W.Runner due e w.calling A :=
  { h with
    order := h.order.congr rfl fun _ => Iff.rfl
    births := fun q hq => by
      obtain hq | ⟨b, n, hq⟩ := hq
      · exact h.births q hq
      · cases hq }

lemma Called.turn (h : Called e w A B) (hr : W.Runner due e w A) (hi : W.Inv due A)
    (hs : Steps w.calling A B) (hl : NoLoose A B) (hfork : ∀ q g b, ¬ w.tells (.fork q g b)) :
    W.Turn due e w.calling A B := by
  refine hr.calling.turn hi hs hl (fun n g hn ht => ?_) ?_ fun q g b => ?_
  · cases h with
    | nobody hcalls hno => exact absurd ht (hno n)
    | one g' b m C hs' hlog hfresh hcalls htaken hle hend =>
      obtain rfl := htaken n ht
      obtain ⟨-, -, hrun⟩ | ⟨-, hfree⟩ := hend
      · exact hrun
      · simp [hfree] at hn
  · cases h with
    | nobody hcalls hno => simp [hcalls]
    | one g' b m C hs' hlog hfresh hcalls htaken hle hend => simp [hcalls]
  · have hev : (Event.fork q g b).loud := trivial
    refine hi.noEvent hs hev ?_
    rintro (hf | ⟨b, n, hf⟩)
    · exact hfork q g b hf
    · cases hf

/-- The backend that a frontend is given waits, or is on its way out. -/
lemma Called.phase {sv : Server} (ht : W.Turn due e w.calling A B) (hi : W.Inv due A)
    (ho : Turn.Other W e B q) (hr : W.role q = .backend sv) (hs : Steps w A C)
    (hlog : ∀ ev ∈ C.log, ev ∈ B.log) (hfresh : C.Fresh g sv.b e.entry) : sv.phase = .leaving ∨
      sv.phase = .waiting ∧ sv.taken = [] ∧ (sv.Idle A q ∧ sv.backlog = [] ∨
        ¬ A.serves sv.g sv.b q ∧ sv.backlog.length < 3) := by
  have hfit := hi.fit q
  rw [hr] at hfit
  have hbusy : A.serves sv.g sv.b q → (A.be sv.b).feRunning ≠ 0 → False := fun hb hrun => by
    obtain ⟨-, h | h⟩ := ht.busy hi ho (hs.mono w.le_calling) hlog hb hrun
    · rw [hfresh.waiting] at h
      exact hrun h.symm
    · rw [hfresh.waiting] at h
      exact Turn.slot_ne_zero hi hb h.symm
  simp only [Fit, Server.Fits] at hfit
  split at hfit
  · exact (hbusy hfit.1 (by rw [hfit.2.1]; exact Turn.slot_ne_zero hi hfit.1)).elim
  · exact (hbusy hfit.1 (by rw [hfit.2.1]; exact Turn.slot_ne_zero hi hfit.1)).elim
  · rename_i hp
    refine .inr ⟨hp, hfit.1, ?_⟩
    obtain h | ⟨h, -⟩ | h := hfit.2
    · exact .inl h
    · exact (hbusy h.serves h.run).elim
    · exact .inr h
  · exact (hbusy hfit.1.serves hfit.1.run).elim
  · exact (hbusy hfit.1.serves hfit.1.run).elim
  · exact (hbusy hfit.1.serves hfit.1.run).elim
  · exact .inl ‹_›

/-- The other backends, the one that is called among them, find what they expect. -/
lemma Called.served (h : Called e w A B) (ht : W.Turn due e w.calling A B) (hi : W.Inv due A)
    (ha : W.Answers e []) : W.Served e B := by
  cases h with
  | nobody hcalls hno => exact ht.served hi hcalls hno
  | one g b n C hs hlog hfresh hcalls htaken hle hend =>
    intro q sv hq hr
    have ho := ht.other hi hq (by simp [hr]) (by simp [hr, Role.leads])
    have harr : W.arrivals e.self B.log q = if W.sock b = some q then socks ⟨e.self, W.clock⟩ n else [] := by
      simp [arrivals, hcalls]
    rcases eq_or_ne sv.b b with rfl | hne
    swap
    · -- another backend
      rw [harr, if_neg, List.append_nil]
      · exact ht.fits hi ho hr fun hm => hne (htaken _ hm)
      · intro hsock
        obtain ⟨-, s', hs', hb', -⟩ := hi.sock b q hsock
        rw [hr] at hs'
        cases hs'
        exact hne hb'
    obtain hp | ⟨hp, hnil, hw⟩ := Called.phase ht hi ho hr hs hlog hfresh
    · simp [Server.Fits, hp]
    simp only [Server.Fits, hp]
    refine ⟨hnil, ?_⟩
    obtain ⟨rfl, hun, hrun⟩ | ⟨hn, hfree⟩ := hend
    · -- it is connected
      have hsock : W.sock sv.b ≠ none := ha.connects sv.b fun h0 => by
        rw [h0] at hle
        exact absurd hle (by decide)
      obtain ⟨q', hq'⟩ := Option.ne_none_iff_exists'.mp hsock
      obtain ⟨-, s', hs', -, hserv⟩ := hi.sock _ q' hq'
      obtain ⟨hidle, hback⟩ | ⟨hb, hl⟩ := hw
      · obtain rfl : q' = q := hserv.2.symm.trans hidle.serves.2
        rw [harr, if_pos hq']
        obtain ⟨h1, h2⟩ := (ht.steps.serves hi.rep.wf hi.inv ((ht.live q').mpr ho.here)
          (fun h0 => ho.here (h0 ▸ hi.books.zero)) ho.alive hidle.serves).resolve_right hun
        refine .inr (.inl ⟨⟨h1, hrun, h2 hidle.mature⟩, ?_⟩)
        exact ⟨⟨e.self, W.clock⟩, by simp [hback]⟩
      · rw [harr, if_neg, List.append_nil]
        · exact .inr (.inr ⟨ht.notServes hi ho.here hb, hl⟩)
        · intro hsock
          obtain ⟨-, s'', hs'', hb'', hserv'⟩ := hi.sock _ q hsock
          rw [hr] at hs''
          cases hs''
          exact hb hserv'
    · -- its record is removed
      refine .inr (.inr ⟨fun hserv => by simp [hserv.1] at hfree, ?_⟩)
      rw [harr, List.length_append]
      obtain ⟨hidle, hback⟩ | ⟨hb, hl⟩ := hw
      · rw [hback]
        split
        · simpa [socks] using hn
        · simp
      · rw [if_neg]
        · simpa using hl
        · intro hsock
          obtain ⟨-, s'', hs'', hb'', hserv'⟩ := hi.sock _ q hsock
          rw [hr] at hs''
          cases hs''
          exact hb hserv'

/-- The backend that is connected has the connection. -/
lemma Turn.connected (ht : W.Turn due e w A B) (hi : W.Inv due A) (ha : W.Answers e []) (hs : Rep s B)
    (hself : (W.role e.self).frontend) (hcalls : TempFile.calls B.log = [(b, 3)])
    (hun : .unlink b ∉ B.log) (h3 : 3 ≤ e.connects b) : ∃ g q, q ≠ 0 ∧ q ≠ e.self ∧ B.serves g b q ∧
      ⟨e.self, W.clock⟩ ∈ ((W.after e.self s).role q).held := by
  obtain ⟨q, hq⟩ := Option.ne_none_iff_exists'.mp (ha.connects b fun h0 => by
    rw [h0] at h3
    exact absurd h3 (by decide))
  obtain ⟨-, sv, hr, hb, hserv⟩ := hi.sock b q hq
  have hne : q ≠ e.self := by
    rintro rfl
    simp [hr, Role.frontend] at hself
  have ho := ht.other hi hne (by simp [hr]) (by simp [hr, Role.leads])
  have h0 : q ≠ 0 := fun h0 => ho.here (h0 ▸ hi.books.zero)
  refine ⟨sv.g, q, h0, hne, ?_, ?_⟩
  · exact ((ht.steps.serves hi.rep.wf hi.inv ((ht.live q).mpr ho.here) h0 ho.alive hserv).resolve_right
      hun).1
  · show _ ∈ (W.roleAfter e.self s.log q).held
    rw [show s.log = B.log from hs.log, ht.role ho.here, hr]
    refine List.mem_map.mpr ⟨⟨⟨e.self, W.clock⟩, 0⟩, ?_, rfl⟩
    simp [arrivals, hcalls, hq, socks]

/-- Who is in a queue after a section was there before. -/
lemma Turn.wasQueued (ht : W.Turn due e w A B) (hs : Rep s B) {x d : Bool} {st : Stat} {t : ℕ}
    (hq : (W.after e.self s).role q = .queued g f x d st t) : W.role q = .queued g f x d st t := by
  have hq : W.roleAfter e.self s.log q = .queued g f x d st t := hq
  rw [show s.log = B.log from hs.log] at hq
  by_cases hab : W.role q = .absent
  · obtain ⟨-, ⟨-, hr⟩ | ⟨g, b, -, hr⟩⟩ := ht.newcomer hab (by simp [hq]) <;> simp [hr] at hq
  · rw [ht.role hab] at hq
    cases hr : W.role q <;> rw [hr] at hq <;> simp [Role.receive] at hq ⊢
    exact hq

/-- A frontend after a section of `speedy_frontend_connect` that has ended with `r`. -/
lemma Ends.raise {r : TempFile.Section} {want : Bool} {since : ℕ} (h : Ends e w A r B)
    (ht : W.Turn W.untold e w.calling A B) (hi : W.Inv W.untold A) (ha : W.Answers e [])
    (hno : ∀ b n, ¬ w.tells (.connect b n)) (hs : Rep s B) (hr : W.role e.self = .idle true)
    (hsince : since ≤ W.clock) (hline : ∀ g f d, r = .queued g f d → ∀ q f' x d st t', q ≠ e.self →
      W.role q = .queued g f' x d st t' → B.seat (.chain (.fe g)) f' q →
        (since < t' → B.inLine g f f') ∧ (t' < since → B.inLine g f' f)) :
    let V := ((W.after e.self s).stamped w.stamp).setRole e.self (World.connected e want since W.clock r)
    V.Inv V.untold B.calm := by
  have hi' := ht.inv hi ((Called.of_ends hi h hno).served ht hi ha) hs fun _ _ _ _ _ _ _ h => h
  have hrole := ht.idle hs hr
  have hfront : (((W.after e.self s).stamped w.stamp).role e.self).frontend := by
    rw [show ((W.after e.self s).stamped w.stamp).role e.self = _ from hrole]
    trivial
  have habs : ((W.after e.self s).stamped w.stamp).role e.self ≠ .absent := by
    rw [show ((W.after e.self s).stamped w.stamp).role e.self = _ from hrole]
    simp
  refine Inv.untold_setRole ?_ habs
  cases h with
  | queued g f d B hst hl hgave hf hv =>
    refine hi'.asFrontend hfront (show (Role.queued g f want d e.stat since).frontend from trivial)
      ⟨⟨hf.seat, hf.entry⟩, Nat.lt_succ_of_le hsince⟩ fun g' f' x d' st t heq q f'' x' d'' st' t' hne hq => ?_
    cases heq
    have hq := ht.wasQueued hs hq
    have ho := ht.other hi hne (by simp [hq]) (by simp [hq, Role.leads])
    have hfit := hi.fit q
    rw [hq] at hfit
    exact hline g f d rfl q f'' x' d'' st' t' hne hq (ht.seat hi ho hfit.1.seat)
  | kept g f b C B hst hfresh hgave h3 hun hst' hl hf hback hrun =>
    obtain ⟨g', q, h0, hne, hserv, hheld⟩ := ht.connected hi ha hs (by simp [hr, Role.frontend])
      (calls_eq hi hst hno hst') hun h3
    refine hi'.asFrontend hfront (show (Role.running f b ⟨e.self, W.clock⟩).frontend from trivial)
      ⟨hf, rfl, Nat.lt_succ_self _, fun y hy => ?_, .inr ⟨hback, g', q, h0, hserv, .inl hheld⟩⟩
      fun _ _ _ _ _ _ h => by cases h
    intro hyc
    have := (hi.books.receipts y hy).1
    rw [hyc] at this
    exact Nat.lt_irrefl _ this
  | sent g b C B hst hfresh hgave h3 hun hst' hl hrun =>
    exact hi'.asFrontend hfront trivial trivial fun _ _ _ _ _ _ h => by cases h
  | failed g b n sw C B hn hle hst hfresh hgave hst' hl hun hfree =>
    exact hi'.asFrontend hfront trivial trivial fun _ _ _ _ _ _ h => by cases h
  | nothing sw B hst hgave hl =>
    exact hi'.asFrontend hfront trivial trivial fun _ _ _ _ _ _ h => by cases h

/-- Nothing is before the head of a list. -/
lemma not_inLine_head {l : List SlotNum} {x y : SlotNum} (hnd : l.Nodup) (hh : l.head? = some y) :
    ¬ [x, y].Sublist l := by
  cases l with
  | nil => simp at hh
  | cons z l =>
    obtain rfl : z = y := by simpa using hh
    intro hl
    have hz := (List.nodup_cons.mp hnd).1
    cases hl with
    | cons _ hl => exact hz (hl.subset (by simp))
    | cons_cons _ hl => exact hz (hl.subset (by simp))

lemma Ends.waits {d : Bool} (h : Ends e w A (.queued g f d) B) : B.Waits g f e.self e.entry := by
  cases h with
  | queued g f d B hs hl hgave hf hv => exact hf

/-- Only backend parents are killed. -/
lemma Runner.unkilled (h : W.Runner due e w A) (hi : W.Inv due A) (hs : Steps w A C)
    (hq : W.role q ≠ .absent) (hl : ¬ (W.role q).leads) : .kill q .kill true ∉ C.log := by
  intro hm
  have h0 : q ≠ 0 := by
    rintro rfl
    exact hq hi.books.zero
  obtain hm | ⟨g, hg, hp⟩ | hm | hm := hs.killed hi.rep.wf hi.inv h0 hm
  · simp [hi.log] at hm
  · exact hl (hp ▸ hi.heads g hg (hp ▸ hq))
  · have hev : (Event.spawn q).loud := trivial
    exact hq (h.births q ((hs.loud hev hm).resolve_left (by simp [hi.log]))).2.1
  · obtain ⟨rfl, hl'⟩ := h.heads q hm
    exact hl hl'

/-- A frontend that waits keeps its place in the sections of others. -/
lemma Runner.queued (h : W.Runner due e w A) (hi : W.Inv due A) (hs : Steps w A C) (hq : q ≠ e.self)
    {x d : Bool} {st : Stat} {t : ℕ} (hr : W.role q = .queued g f x d st t) :
    C.seat (.chain (.fe g)) f q ∧ f ∈ C.lst (.fe g) ∧ t < W.clock := by
  have hfit := hi.fit q
  rw [hr] at hfit
  have hseat := hs.seat hi.rep.wf hi.inv ((h.live q).mpr (by simp [hr])) (fun hm => hq (h.me q hm))
    (h.unkilled hi hs (by simp [hr]) (by simp [hr, Role.leads])) hfit.1.seat
  exact ⟨hseat, ((hi.inv.steps hi.rep.wf hs).2.mem _ f).mpr hseat.2.1, hfit.2⟩

/-- A frontend that is in the queue since `since` may be given a backend: at once if nobody is
queued, or else if it is in front and has been signalled, and nobody has been queued for longer. -/
def inTurn (W : World) (p : Pid) (since : ℕ) : Event → Prop
  | .assign g f _ h sig => (h = 0 ∧ sig = false ∨ h = f ∧ sig = true) ∧
      ∀ q f' x d st t, q ≠ p → W.role q = .queued g f' x d st t → since ≤ t
  | _ => False

/-- The first round of a frontend. -/
lemma Inv.runsConnect (want : Bool) {didClean : Bool} (hi : W.Inv W.untold A) (ha : W.Answers e [])
    (hr : W.role e.self = .idle didClean) (hd : W.dead e.self = none) :
    let V := W.setRole e.self (.idle true)
    Runs (frontendConnect e want didClean) (fun r B =>
      Ends e (V.asking e (V.inTurn e.self W.clock)) A r B ∧
        ∀ g f d, r = .queued g f d → (B.lst (.fe g)).getLast? = some f) A := by
  have hV := hi.lowerFrontend (e := e) (by simp [hr, Role.frontend]) hd ha
  have hrunner := hV.asking (T := (W.setRole e.self (.idle true)).inTurn e.self W.clock) fun _ => id
  -- nobody else is in the queue when the frontend is given a backend
  refine runs_frontendConnect hV.acts hi.inv hi.rep.wf hV.unhurt (fun C f g b hs hnil _ => ?_)
    (fun C f g b hs hf hone _ => ?_) fun r B h hl => ⟨h, hl⟩
  · refine .inl ⟨.inl ⟨rfl, rfl⟩, fun q f' x d st t hq hrq => ?_⟩
    have := (hrunner.queued hV.inv hs hq hrq).2.1
    simp [hnil] at this
  · refine .inl ⟨.inr ⟨rfl, rfl⟩, fun q f' x d st t hq hrq => ?_⟩
    obtain ⟨hf', hmem, -⟩ := hrunner.queued hV.inv hs hq hrq
    rw [hone, List.mem_singleton] at hmem
    exact absurd (hf'.2.2.symm.trans (hmem ▸ hf.2.2)) hq

lemma Inv.connect {want : Bool} (hi : W.Inv W.untold A) (ha : W.Answers e [])
    (h : W.step (.connect e want) = some W') :
    ∃ B W₀ due s r0 r, W.Section e [] (W₀.asking e (W₀.inTurn e.self W.clock)).calling A B W' W₀ due s r0
      (World.connected e want W.clock W.clock r) ∧
      Ends e (W₀.asking e (W₀.inTurn e.self W.clock)) A r B := by
  rw [step] at h
  split at h <;> try cases h
  rename_i didClean hr
  split at h <;> try cases h
  rename_i hd
  obtain ⟨r, s, hm, rfl⟩ := sect_some h
  obtain ⟨B, hB, hends, hlast⟩ := (hi.runsConnect want ha hr hd).result hi.rep hm
  have hV := hi.lowerFrontend (e := e) (by simp [hr, Role.frontend]) hd ha
  set V := W.setRole e.self (.idle true) with hVdef
  have hrole : V.role e.self = .idle true := by simp [hVdef]
  have hrunner := hV.asking (T := V.inTurn e.self W.clock) fun _ => id
  set w := V.asking e (V.inTurn e.self W.clock) with hw
  have hno : ∀ b n, ¬ w.tells (.connect b n) := fun b n => not_asking id (by simp)
  have hfork : ∀ q g b, ¬ w.tells (.fork q g b) := fun q g b => not_asking id (by simp)
  have ht := (Called.of_ends hV.inv hends hno).turn hrunner hV.inv (hends.steps hi.inv hi.rep.wf)
    hends.noLoose hfork
  have hW' : (W.after e.self s).setRole e.self (World.connected e want W.clock W.clock r) =
      ((V.after e.self s).stamped w.stamp).setRole e.self (World.connected e want W.clock W.clock r) := by
    rw [hVdef, after_lower (by simp [hr]) (by simp)]
    rfl
  rw [hW']
  refine ⟨B, V, V.untold, s, .idle true, r, ⟨rfl, hV.inv, ht, hB, rfl, ?_⟩, hends⟩
  refine Ends.raise hends ht hV.inv hV.answers hno hB hrole (Nat.le_refl _) fun g f d heq q f' x d' st t hq hrq hf' => ?_
  subst heq
  have htime := (hrunner.queued hV.inv .refl hq hrq).2.2
  refine ⟨fun hlt => absurd (Nat.lt_trans hlt htime) (Nat.lt_irrefl _), fun _ => ?_⟩
  -- the last one in the queue is behind all the others
  obtain ⟨l, hl⟩ := List.getLast?_eq_some_iff.mp (hlast g f d rfl)
  have hwB := (ht.ainv hV.inv).2
  have hne : f' ≠ f := by
    rintro rfl
    exact hq (hf'.2.2.symm.trans (Ends.waits hends).seat.2.2)
  have hmem := (hwB.mem _ f').mpr hf'.2.1
  rw [hl, List.mem_append, List.mem_singleton] at hmem
  rw [AFile.inLine, hl]
  exact (List.singleton_sublist.mpr (hmem.resolve_right hne)).append (.refl [f])

/-- A round after a wait. -/
lemma Inv.runsWake {changed want didSpawn : Bool} {stat : Stat} {since : ℕ} (hi : W.Inv W.untold A)
    (ha : W.Fair (.wake e changed)) (hr : W.role e.self = .queued g f want didSpawn stat since)
    (hd : W.dead e.self = none) :
    let V := W.setRole e.self (.idle true)
    Runs (frontendWake e want g f didSpawn changed) (fun r B =>
      Ends e (V.asking e (V.inTurn e.self since)) A r B ∧
        ∀ g' f' d', r = .queued g' f' d' → g' = g ∧ f' = f ∧ Shrunk A B ∧ .free g ∉ B.log) A := by
  obtain ⟨ha, hstat⟩ := ha
  have hfit := hi.fit e.self
  rw [hr] at hfit
  obtain ⟨hf, hsince⟩ := hfit
  have hV := hi.lowerFrontend (e := e) (by simp [hr, Role.frontend]) hd ha
  have hrunner := hV.asking (T := (W.setRole e.self (.idle true)).inTurn e.self since) fun _ => id
  refine runs_frontendWake hV.acts hi.inv hi.rep.wf hV.unhurt hf.seat (fun hc hv => ?_)
    (fun C b hs hfC hsh hhead _ => .inl ⟨.inr ⟨rfl, rfl⟩, fun q f' x d st t hq hrq => ?_⟩)
    fun r B h hq => ⟨h, fun g' f' d' heq => ?_⟩
  · rw [Env.entry, hstat _ _ _ _ _ _ hr hc]
    exact hf.entry hv
  · obtain ⟨hg, hf', hsh, hfree⟩ := hq g' f' d' heq
    exact ⟨hg, hf', hsh, fun hm => by simpa [hi.log] using hfree hm⟩
  · -- nobody in front means that nobody has been there for longer
    by_contra hlt
    obtain ⟨hf', hmem, -⟩ := hrunner.queued hV.inv hs hq hrq
    have hrq : W.role q = .queued g f' x d st t := by simpa [hq] using hrq
    have hl := hi.line q e.self g f' f x want d didSpawn st stat t since hrq hr (Nat.lt_of_not_le hlt)
    have hwC := (hi.inv.steps hi.rep.wf hs).2
    have hl := hsh.inLine hi.rep.wf hl hmem ((hwC.mem _ f).mpr hfC.2.1)
    exact not_inLine_head (hwC.nodup (.fe g)) hhead hl

lemma Inv.wake {changed : Bool} (hi : W.Inv W.untold A) (ha : W.Fair (.wake e changed))
    (h : W.step (.wake e changed) = some W') :
    ∃ B W₀ due s r0 r want g f since, (∃ d st, W.role e.self = .queued g f want d st since) ∧
      W.Section e [] (W₀.asking e (W₀.inTurn e.self since)).calling A B W' W₀ due s r0
        (World.connected e want since W.clock r) ∧
      Ends e (W₀.asking e (W₀.inTurn e.self since)) A r B := by
  rw [step] at h
  split at h <;> try cases h
  rename_i g f want didSpawn stat since hr
  split at h <;> try cases h
  rename_i hd
  obtain ⟨r, s, hm, rfl⟩ := sect_some h
  obtain ⟨B, hB, hends, hsame⟩ := (hi.runsWake ha hr hd).result hi.rep hm
  obtain ⟨ha, hstat⟩ := ha
  have hfit := hi.fit e.self
  rw [hr] at hfit
  obtain ⟨hf, hsince⟩ := hfit
  have hV := hi.lowerFrontend (e := e) (by simp [hr, Role.frontend]) hd ha
  set V := W.setRole e.self (.idle true) with hVdef
  have hrole : V.role e.self = .idle true := by simp [hVdef]
  have hrunner := hV.asking (T := V.inTurn e.self since) fun _ => id
  set w := V.asking e (V.inTurn e.self since) with hw
  have hno : ∀ b n, ¬ w.tells (.connect b n) := fun b n => not_asking id (by simp)
  have hfork : ∀ q g b, ¬ w.tells (.fork q g b) := fun q g b => not_asking id (by simp)
  have hwas : ∀ q g f x d st t, q ≠ e.self → V.role q = .queued g f x d st t →
      W.role q = .queued g f x d st t := fun q g f x d st t hq h => by
    simpa [hVdef, hq] using h
  have ht := (Called.of_ends hV.inv hends hno).turn hrunner hV.inv (hends.steps hi.inv hi.rep.wf)
    hends.noLoose hfork
  have hW' : (W.after e.self s).setRole e.self (World.connected e want since W.clock r) =
      ((V.after e.self s).stamped w.stamp).setRole e.self (World.connected e want since W.clock r) := by
    rw [hVdef, after_lower (by simp [hr]) (by simp)]
    rfl
  rw [hW']
  refine ⟨B, V, V.untold, s, .idle true, r, want, g, f, since, ⟨didSpawn, stat, hr⟩,
    ⟨rfl, hV.inv, ht, hB, rfl, ?_⟩, hends⟩
  refine Ends.raise hends ht hV.inv hV.answers hno hB hrole hsince.le fun g' f' d heq q f'' x d' st t hq hrq hf'' => ?_
  obtain ⟨rfl, rfl, hsh, -⟩ := hsame g' f' d heq
  subst heq
  have hwB := (ht.ainv hV.inv).2
  have hmem := (hwB.mem _ _).mpr (Ends.waits hends).seat.2.1
  have hmem' := (hwB.mem _ _).mpr hf''.2.1
  have hq' := hwas q g' f'' x d' st t hq hrq
  exact ⟨fun hlt => hsh.inLine hi.rep.wf
      (hi.line e.self q g' f' f'' want x didSpawn d' stat st since t hr hq' hlt) hmem hmem',
    fun hlt => hsh.inLine hi.rep.wf
      (hi.line q e.self g' f'' f' x want d' didSpawn st stat t since hq' hr hlt) hmem' hmem⟩

/-! ### Backend parents -/

/-- A backend parent that expects nothing any more. -/
lemma Inv.lowerParent (hi : W.Inv due A) (hr : (W.role e.self).leads) (hd : W.dead e.self = none)
    (ha : W.Answers e []) : (W.setRole e.self .done).Ready due e A := by
  have hp : W.role e.self ≠ .absent := fun h => by simp [h, Role.leads] at hr
  exact ⟨hi.asParent hr trivial trivial fun _ _ _ _ => .inr rfl, ⟨by simp, hd⟩, by simp [Role.bare],
    ha.setRole hp⟩

namespace Ready

lemma leading (h : W.Ready due e A) (hr : W.role e.self = .done)
    (hdied : ∀ q s v, ⟨q, s, v⟩ ∈ cs → W.role q = .absent ∧ ∀ x, due q x → x = .reaped s v)
    (hlost : ∀ q x, W.role q = .absent → due q x → (∀ s v, ⟨q, s, v⟩ ∉ cs) → ∃ s v, x = .lost s v) :
    W.Runner due e (W.leading e cs) A :=
  h.runner rfl rfl rfl (fun _ => False.elim) (fun _ => id) (fun q hq => ⟨hq, by simp [hr, Role.leads]⟩)
    (fun q hq => by
      obtain ⟨_, _, _, _, hq⟩ := hq
      cases hq)
    (fun _ => False.elim) hdied hlost

lemma leads (h : W.Ready due e A) : Leads e (W.leading e cs) :=
  { h.fits rfl rfl with
    live := h.runs.1
    boss := rfl
    heads := rfl
    fork := fun p g b => ⟨fun ⟨_, _, _, hq, heq⟩ => by cases heq; exact hq, fun hp => ⟨p, g, b, hp, rfl⟩⟩
    max := rfl }

/-- A parent is no backend, and its children are new. -/
lemma pids (h : W.Ready due e A) (hr : W.role e.self = .done) : Pids e A where
  self b g hb hp := by
    obtain ⟨_, hs, -⟩ := h.inv.listed b g hb (by rw [hp, hr]; simp)
    rw [hp, hr] at hs
    cases hs
  child p hp := by
    have hfree := h.answers.fork p hp
    refine ⟨hfree.1, ?_, fun b g hb => (h.inv.not_named hfree (AFile.live_of hb)).1⟩
    rintro rfl
    exact h.runs.1 hfree.2.1

/-- A section of a parent. -/
lemma parentTurn (h : W.Ready due e A) (hr : W.role e.self = .done)
    (hrun : W.Runner due e (W.leading e cs) A) (hs : Steps (W.leading e cs) A B)
    (hborn : ∀ q g b, .fork q g b ∈ B.log → B.serves g b q ∧ (B.be b).feRunning = b ∧
      (B.be b).maturity = 0 ∧ (B.gr g).beStarting = q) : W.Turn due e (W.leading e cs) A B :=
  { hrun with
    steps := hs
    loose := fun _ => Steps.loose hs h.inv.rep.wf h.inv.inv fun _ => id
    taken := fun n _ _ ht => absurd ht (h.inv.noneTaken hs (by simp) n)
    calls := by
      rw [h.inv.noCalls hs (by simp)]
      exact Nat.zero_le 1
    spawn := fun q hq => by
      have hev : (Event.spawn q).loud := trivial
      exact absurd hq (h.inv.noEvent hs hev (by simp))
    fork := fun q g b hq => by
      have hev : (Event.fork q g b).loud := trivial
      obtain ⟨_, _, _, hf, heq⟩ := (hs.loud hev hq).resolve_left (by simp [h.inv.log])
      cases heq
      have hev' : (Event.spawn q).loud := trivial
      obtain ⟨h1, h2, h3, h4⟩ := hborn q g b hq
      exact ⟨h.answers.fork q hf, hr, h1, h2, h3, h4, h.inv.noEvent hs hev' (by simp)⟩ }

end Ready

/-- The children of a parent serve its group. -/
lemma Turn.kin (ht : W.Turn due e w A B) (hi : W.Inv due A) (hs : Rep s B)
    (hold : ∀ q sv, W.parent q = some e.self → W.role q = .backend sv → sv.g = g)
    (hborn : ∀ q g' b, .fork q g' b ∈ B.log → g' = g) {sv : Server}
    (hp : (W.after e.self s).parent q = some e.self)
    (hr : (W.after e.self s).role q = .backend sv) : sv.g = g := by
  have hr : W.roleAfter e.self s.log q = .backend sv := hr
  rw [show s.log = B.log from hs.log] at hr
  obtain ⟨-, hp⟩ | ⟨-, g', b, hf⟩ := Turn.after_parent hs.log hp
  · obtain ⟨-, s', hs', -⟩ := hi.books.kin q _ hp
    rw [ht.role (by simp [hs']), hs'] at hr
    cases hr
    exact hold q s' hp hs'
  · obtain ⟨hfree, -, -, -, -, -, hno⟩ := ht.fork q g' b hf
    obtain ⟨-, ⟨hsp, -⟩ | ⟨g'', b', hf', hr'⟩⟩ := ht.newcomer hfree.2.1 (by rw [hr]; simp)
    · exact absurd hsp hno
    · rw [hr] at hr'
      cases hr'
      exact hborn q g'' b' hf'

/-- What a parent is after its section: done, or in the loop for group `g`. -/
inductive Leading (W : World) (e : Env) (B : AFile) : Role → Prop
  | done : Leading W e B .done
  | parent (g : SlotNum) (answered : Bool) (hg : B.own g = .chain .group)
      (hp : (B.gr g).beParent = e.self)
      (hold : ∀ q sv, W.parent q = some e.self → W.role q = .backend sv → sv.g = g)
      (hborn : ∀ q g' b, .fork q g' b ∈ B.log → g' = g) : Leading W e B (.parent g none answered)

lemma Leading.raise (h : W.Leading e B ro) (ht : W.Turn due e (W.leading e cs) A B) (hi : W.Inv due A)
    (hs : Rep s B) (hr : W.role e.self = .done)
    (hdue : ∀ g b q x, B.serves g b q → (B.be b).feRunning ≠ 0 → (B.be b).feRunning ≠ b →
      due q x → W.untold q x) :
    let V := ((W.after e.self s).stamped (W.leading e cs).stamp).setRole e.self ro
    V.Inv V.untold B.calm := by
  have hserved := ht.served hi (hi.noCalls ht.steps (by simp)) (hi.noneTaken ht.steps (by simp))
  have hi' := ht.inv hi hserved hs hdue
  have hrole : (W.after e.self s).role e.self = .done := by
    rw [ht.ownRole hs, hr]
    rfl
  have hrole : ((W.after e.self s).stamped (W.leading e cs).stamp).role e.self = .done := hrole
  have hl : (((W.after e.self s).stamped (W.leading e cs).stamp).role e.self).leads := by
    rw [hrole]
    trivial
  refine Inv.untold_setRole ?_ (by rw [hrole]; simp)
  cases h with
  | done => exact hi'.asParent hl trivial trivial fun _ _ _ _ => .inr rfl
  | parent g answered hg hp hold hborn =>
    exact hi'.asParent hl (show (Role.parent g none answered).leads from trivial) (fun _ => ⟨hg, hp⟩)
      fun q sv hq hrq => .inl ⟨none, answered, by rw [ht.kin hi hs hold hborn hq hrq]⟩

/-- The first section of a backend parent. -/
lemma Inv.runsInit (hi : W.Inv W.untold A) (ha : W.Answers e []) (hr : W.role e.self = .born)
    (hd : W.dead e.self = none) :
    let w := (W.setRole e.self .done).leading e []
    Runs (parentInit e) (fun r B =>
      r = none ∧ Steps (w.growing fun _ => False) A B ∧ (∀ p g b, .fork p g b ∉ B.log) ∨
      ∃ g, r = some g ∧ Steps (w.growing (· = g)) A B ∧ B.own g = .chain .group ∧
        (B.gr g).beParent = e.self ∧ Born g A B) A := by
  have hV := hi.lowerParent (e := e) (by simp [hr, Role.leads]) hd ha
  have hnofork : ∀ p g b, .fork p g b ∉ A.log := by simp [hi.log]
  refine runs_parentInit hV.leads hi.inv hi.rep.wf hV.unhurt (hV.pids (by simp)) hnofork
    (fun B hs => .inl ⟨rfl, ?_, fun p g b hm => ?_⟩) fun g B hs hg hp hb => .inr ⟨g, rfl, hs, hg, hp, hb⟩
  · exact (hs.mono (Who.mute_le _)).mono (Who.meek_le _)
  · exact hnofork p g b (Steps.quiet hs trivial hm)

lemma leading_growing_le (W : World) (e : Env) (cs : List Child) (P : SlotNum → Prop) :
    ((W.leading e cs).growing P).Le (W.leading e cs) := Who.growing_le _ fun _ _ => trivial

lemma Inv.init (hi : W.Inv W.untold A) (ha : W.Answers e []) (h : W.step (.init e) = some W') :
    ∃ B W₀ due s r0 ro, W.Section e [] (W₀.leading e []) A B W' W₀ due s r0 ro ∧
      (ro = .done ∧ Steps ((W₀.leading e []).growing fun _ => False) A B ∨
        ∃ g, ro = .parent g none false ∧ Steps ((W₀.leading e []).growing (· = g)) A B) := by
  rw [step] at h
  split at h <;> try cases h
  rename_i hr
  split at h <;> try cases h
  rename_i hd
  obtain ⟨r, s, hm, rfl⟩ := sect_some h
  obtain ⟨B, hB, hend⟩ := (hi.runsInit ha hr hd).result hi.rep hm
  have hs : Steps ((W.setRole e.self .done).leading e []) A B := by
    obtain ⟨-, hs, -⟩ | ⟨g, -, hs, -⟩ := hend <;> exact hs.mono (leading_growing_le _ _ _ _)
  have hV := hi.lowerParent (e := e) (by simp [hr, Role.leads]) hd ha
  set V := W.setRole e.self .done with hVdef
  have hrole : V.role e.self = .done := by simp [hVdef]
  have hrunner : V.Runner W.untold e (V.leading e []) A :=
    hV.leading hrole (by simp) fun q x _ hd _ => hd.2
  set w := V.leading e [] with hw
  have hnofork : ∀ p g b, .fork p g b ∉ A.log := by simp [hi.log]
  have ht := hV.parentTurn hrole hrunner hs fun q g b hq => by
    obtain ⟨-, -, hno⟩ | ⟨g', -, -, -, -, hb⟩ := hend
    · exact absurd hq (hno q g b)
    · obtain ⟨rfl, h⟩ := (hb q g b hq).resolve_left (hnofork q g b)
      exact h
  -- a process that has just been started has no children
  have hnone : ∀ q, V.parent q ≠ some e.self := fun q hq => by
    obtain ⟨-, _, -, ⟨_, _, h⟩ | h⟩ := hi.books.kin q _ hq <;> simp [hr] at h
  have hl : V.Leading e B (r.elim .done fun g => .parent g none false) := by
    obtain ⟨rfl, -⟩ | ⟨g, rfl, -, hg, hp, hb⟩ := hend
    · exact .done
    · exact .parent g false hg hp (fun q _ hq => absurd hq (hnone q))
        fun q g' b hq => ((hb q g' b hq).resolve_left (hnofork q g' b)).1
  have hW' : (W.after e.self s).setRole e.self (r.elim .done fun g => .parent g none false) =
      ((V.after e.self s).stamped w.stamp).setRole e.self (r.elim .done fun g => .parent g none false) := by
    rw [hVdef, after_lower (by simp [hr]) (by simp)]
    rfl
  rw [hW']
  refine ⟨B, V, W.untold, s, .done, _, ⟨rfl, hV.inv, ht, hB, rfl, ?_⟩, ?_⟩
  · exact hl.raise ht hV.inv hB hrole fun _ _ _ _ _ _ _ hd => hd.setRole (by simp [hr])
  · obtain ⟨rfl, hs, -⟩ | ⟨g, rfl, hs, -⟩ := hend
    · exact .inl ⟨rfl, hs⟩
    · exact .inr ⟨g, rfl, hs⟩

/-! ### Children that have been waited for -/

lemma collect_cons (W : World) (c : Child) (cs : List Child) : W.collect (c :: cs) =
    ((W.conclude (W.role c.pid).held (.reaped c.onSig c.val)).bury c.pid).collect cs := rfl

lemma collect_frame (W : World) (cs : List Child) : (W.collect cs).file = W.file ∧
    (W.collect cs).sock = W.sock ∧ (W.collect cs).clock = W.clock ∧ (W.collect cs).stamp = W.stamp ∧
    (W.collect cs).receipts = W.receipts ∧ (W.collect cs).ran = W.ran := by
  induction cs generalizing W with
  | nil => exact ⟨rfl, rfl, rfl, rfl, rfl, rfl⟩
  | cons c cs ih => exact ih _

lemma collect_of (hq : ∀ c ∈ cs, c.pid ≠ q) : (W.collect cs).role q = W.role q ∧
    (W.collect cs).dead q = W.dead q ∧ (W.collect cs).parent q = W.parent q ∧
    (W.collect cs).usr1 q = W.usr1 q := by
  induction cs generalizing W with
  | nil => exact ⟨rfl, rfl, rfl, rfl⟩
  | cons c cs ih =>
    obtain ⟨hne, hq⟩ := List.forall_mem_cons.mp hq
    rw [collect_cons]
    obtain ⟨h1, h2, h3, h4⟩ :=
      ih (W := (W.conclude (W.role c.pid).held (.reaped c.onSig c.val)).bury c.pid) hq
    rw [h1, h2, h3, h4]
    simp [bury, conclude, hne.symm]

lemma collect_absent (h : W.role q = .absent) : (W.collect cs).role q = .absent := by
  induction cs generalizing W with
  | nil => exact h
  | cons c cs ih =>
    rw [collect_cons]
    refine ih ?_
    simp only [bury, conclude, update_apply]
    split
    · rfl
    · exact h

lemma collect_gone {c : Child} (hc : c ∈ cs) : (W.collect cs).role c.pid = .absent := by
  induction cs generalizing W with
  | nil => simp at hc
  | cons c' cs ih =>
    rw [collect_cons]
    rcases List.mem_cons.mp hc with rfl | hc
    · exact collect_absent (by simp [bury])
    · exact ih hc

lemma Answers.collect (h : W.Answers e cs) : (W.collect cs).Answers e [] := by
  obtain ⟨hfile, hsock, -⟩ := collect_frame W cs
  refine h.congr hfile hsock (fun q hq => collect_absent hq) fun q hq => ?_
  have hne : ∀ c ∈ cs, c.pid ≠ q := by
    rintro c hc rfl
    exact hq (collect_gone hc)
  exact ⟨by rwa [(collect_of hne).1] at hq, hne⟩

/-- The children of a parent are backends of its group. -/
lemma Inv.offspring {woken : Option Woken} {answered : Bool} (hi : W.Inv due A)
    (hr : W.role e.self = .parent g woken answered) (hcs : W.children e.self cs) {c : Child} (hc : c ∈ cs) :
    c.pid ≠ e.self ∧ ∃ sv, W.role c.pid = .backend sv ∧ sv.g = g := by
  obtain ⟨-, sv, hs, hl⟩ := hi.books.kin _ _ (hcs.2 c hc).1
  refine ⟨fun heq => ?_, sv, hs, ?_⟩
  · rw [heq, hr] at hs
    cases hs
  · obtain ⟨_, _, h⟩ | h := hl
    · rw [hr] at h
      cases h
      rfl
    · simp [hr] at h

lemma Inv.ready_iterate {woken : Option Woken} {answered : Bool} (hi : W.Inv W.untold A)
    (ha : W.Answers e cs) (hr : W.role e.self = .parent g woken answered) (hd : W.dead e.self = none)
    (hcs : W.children e.self cs) :
    let V := (W.collect cs).setRole e.self .done
    V.Ready (fun q x => W.untold q x ∨ ∃ c ∈ cs, c.pid = q ∧ x = .reaped c.onSig c.val) e A ∧
      ∀ c ∈ cs, V.role c.pid = .absent := by
  have hself : ∀ c ∈ cs, c.pid ≠ e.self := fun c hc => (hi.offspring hr hcs hc).1
  obtain ⟨hrU, hdU, -, -⟩ := collect_of (W := W) hself
  have hiU := hi.collected hcs.1 fun c hc => by simp [(hcs.2 c hc).2]
  refine ⟨hiU.lowerParent ?_ (hdU.trans hd) ha.collect, fun c hc => ?_⟩
  · simp [hrU, hr, Role.leads]
  · simp [hself c hc, collect_gone hc]

lemma Inv.runsIterate {woken : Woken} {answered : Bool} (hi : W.Inv W.untold A) (ha : W.Answers e cs)
    (hr : W.role e.self = .parent g (some woken) answered) (hd : W.dead e.self = none)
    (hcs : W.children e.self cs) :
    Runs (parentIteration e g woken.usr1 woken.alrm cs) (fun r B =>
      Steps ((((W.collect cs).setRole e.self .done).leading e cs).growing (· = g)) A B ∧
        (∀ c ∈ cs, B.noBe c.pid) ∧
        (r = true ∧ (∀ p g b, .fork p g b ∉ B.log) ∨ r = false ∧ Waited e g cs woken.usr1 A B)) A := by
  have hfit := hi.fit e.self
  rw [hr] at hfit
  obtain ⟨hg, hp⟩ := hfit hd
  obtain ⟨hV, hgone⟩ := hi.ready_iterate ha hr hd hcs
  have hhere : ∀ c ∈ cs, W.role c.pid ≠ .absent := fun c hc => by
    obtain ⟨-, sv, hs, -⟩ := hi.offspring hr hcs hc
    simp [hs]
  refine runs_parentIteration (hV.leads.growing (· = g)) rfl hi.inv hi.rep.wf hV.unhurt hg hp (hV.pids (by simp))
    hi.ranked.distinct ⟨fun c hc => ⟨fun hl => hl (hgone c hc), hc⟩, fun p sig v hc => ⟨_, hc, rfl⟩,
      fun c hc b g' hb hpid => ?_, fun c hc => ⟨fun h0 => ?_, fun hf => ?_⟩⟩ (by simp [hi.log])
    (fun B hs hno hf => ⟨hs, hno, .inl ⟨rfl, hf⟩⟩)
    fun B hs hno hwait => ⟨hs.mono (Who.meek_le _), hno, .inr ⟨rfl, hwait⟩⟩
  · obtain ⟨s', hs', h1, -⟩ := hi.listed b g' hb (by rw [hpid]; exact hhere c hc)
    obtain ⟨-, sv, hs, h2⟩ := hi.offspring hr hcs hc
    rw [hpid, hs] at hs'
    cases hs'
    exact h1.symm.trans h2
  · exact hhere c hc (h0 ▸ hi.books.zero)
  · exact hhere c hc (ha.fork _ hf).2.1

/-- A round of the loop of a backend parent. -/
lemma Inv.iterate (hi : W.Inv W.untold A) (ha : W.Answers e cs) (h : W.step (.iterate e cs) = some W') :
    ∃ g woken answered B W₀ due s r0 ro, W.role e.self = .parent g (some woken) answered ∧
      W.Section e cs (W₀.leading e cs) A B W' W₀ due s r0 ro ∧
      Steps ((W₀.leading e cs).growing (· = g)) A B ∧
      (ro = .done ∨
        ro = .parent g none (answered || woken.delivered) ∧ Waited e g cs woken.usr1 A B) := by
  rw [step] at h
  split at h <;> try cases h
  rename_i g woken answered hr
  split at h <;> try cases h
  rename_i hcond
  obtain ⟨hd, hcs⟩ := hcond
  obtain ⟨r, s, hm, rfl⟩ := sect_some h
  obtain ⟨hrU, -⟩ := collect_of (W := W) fun c hc => (hi.offspring hr hcs hc).1
  obtain ⟨B, hB, hs, hnobe, hend⟩ := (hi.runsIterate ha hr hd hcs).result
    ((collect_frame W cs).1 ▸ hi.rep) hm
  obtain ⟨hV, hgone⟩ := hi.ready_iterate ha hr hd hcs
  have hhere : ∀ c ∈ cs, W.role c.pid ≠ .absent := fun c hc => by
    obtain ⟨-, sv, hs, -⟩ := hi.offspring hr hcs hc
    simp [hs]
  obtain ⟨hnd, hcs⟩ := hcs
  set U := W.collect cs with hUdef
  set V := U.setRole e.self .done with hVdef
  have hrole : V.role e.self = .done := by simp [hVdef]
  have hrunner : V.Runner (fun q x => W.untold q x ∨ ∃ c ∈ cs, c.pid = q ∧ x = .reaped c.onSig c.val) e
      (V.leading e cs) A := by
    refine hV.leading hrole (fun q sig v hc => ⟨hgone _ hc, fun x hx => ?_⟩) fun q x hq hx hno => ?_
    · obtain hx | ⟨c, hc', rfl, rfl⟩ := hx
      · exact absurd hx.1 (hhere _ hc)
      · rw [List.inj_on_of_nodup_map hnd hc' hc rfl]
    · obtain hx | ⟨c, hc, rfl, -⟩ := hx
      · exact hx.2
      · exact absurd hc (hno c.onSig c.val)
  set w := V.leading e cs with hw
  have ht := hV.parentTurn hrole hrunner (hs.mono (leading_growing_le _ _ _ _)) fun q g' b hq => by
    obtain ⟨-, hno⟩ | ⟨-, hwait⟩ := hend
    · exact absurd hq (hno q g' b)
    · obtain ⟨rfl, h⟩ := hwait.born q g' b hq
      exact h
  have hold : ∀ q sv, V.parent q = some e.self → V.role q = .backend sv → sv.g = g := by
    intro q sv hq hrq
    have hne : q ≠ e.self := by
      rintro rfl
      simp [hrole] at hrq
    have hne' : ∀ c ∈ cs, c.pid ≠ q := by
      rintro c hc rfl
      simp [hgone c hc] at hrq
    obtain ⟨h1, -, h2, -⟩ := collect_of (W := W) hne'
    obtain ⟨-, s', hs', ⟨_, _, h⟩ | h⟩ := hi.books.kin q _ (h2.symm.trans hq)
    · rw [hr] at h
      cases h
      have : V.role q = .backend s' := by simp [hVdef, hne, hUdef, h1, hs']
      rw [hrq] at this
      cases this
      rfl
    · simp [hr] at h
  have hl : V.Leading e B (if r = true then .done else .parent g none (answered || woken.delivered)) := by
    obtain ⟨rfl, -⟩ | ⟨rfl, hwait⟩ := hend
    · exact .done
    · exact .parent g _ hwait.own hwait.parent hold fun q g' b hq => (hwait.born q g' b hq).1
  have hW' : (U.after e.self s).setRole e.self
        (if r = true then .done else .parent g none (answered || woken.delivered)) =
      ((V.after e.self s).stamped w.stamp).setRole e.self
        (if r = true then .done else .parent g none (answered || woken.delivered)) := by
    rw [hVdef, after_lower (by simp [hrU, hr]) (by simp)]
    rfl
  rw [hW']
  refine ⟨g, woken, answered, B, V, _, s, .done, _, hr, ⟨rfl, hV.inv, ht, hB, rfl, ?_⟩, hs, ?_⟩
  · refine hl.raise ht hV.inv hB hrole fun g' b q x hserv _ _ hx => ?_
    obtain hx | ⟨c, hc, rfl, -⟩ := hx
    · refine ⟨?_, hx.2⟩
      have hne : q ≠ e.self := by
        rintro rfl
        simp [untold, hr] at hx
      simp [hVdef, hne, hUdef, collect_absent hx.1]
    · exact absurd hserv.2 (hnobe c hc b g' hserv.1)
  · obtain ⟨rfl, -⟩ | ⟨rfl, hwait⟩ := hend
    · exact .inl rfl
    · exact .inr ⟨rfl, hwait⟩

end World

end SpeedyCgi.TempFile
