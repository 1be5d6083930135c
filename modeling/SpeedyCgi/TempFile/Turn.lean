import SpeedyCgi.TempFile.Safe

/-!
One section keeps the invariant.

The process that runs the section is taken as one that expects nothing of the file; what it knows
afterwards is added when the section is over.
-/

namespace SpeedyCgi.TempFile

open Function

variable {W W' : World} {A B C : AFile} {w : Who} {e : Env} {p q r : Pid} {g b f n : SlotNum}
  {due : Pid → End → Prop} {s : St}

/-- When the backends last came to put themselves on the wait list. -/
def World.stamped (W : World) (stamp : SlotNum → ℕ) : World := { W with stamp }

/-- The file between two sections. -/
@[simps -fullyApplied] def AFile.calm (A : AFile) : AFile := { A with log := [] }

lemma Rep.calm (h : Rep s A) : Rep { file := s.file } A.calm := { h with log := rfl }

lemma AInv.calm (h : AInv A) : AInv A.calm :=
  ⟨⟨h.paired.backend, h.paired.frontend⟩,
    ⟨h.housed.chain, h.housed.name, h.housed.nameSlot, h.housed.bare⟩,
    ⟨h.signalled.waiting, h.signalled.running⟩,
    ⟨h.found.order, h.found.names, h.found.form, h.found.distinct, h.found.single, h.found.alone⟩⟩

lemma AFile.not_taken_calm : ¬ A.calm.taken n := by
  rintro ⟨g, f, h, sig, hm⟩
  simp at hm

lemma forked_some {log : List Event} (h : forked log q = some (g, b)) : .fork q g b ∈ log := by
  obtain ⟨ev, hm, hev⟩ := List.exists_of_findSome?_eq_some h
  cases ev <;> simp at hev
  obtain ⟨rfl, rfl, rfl⟩ := hev
  exact hm

lemma forked_none {log : List Event} (h : forked log q = none) : .fork q g b ∉ log := by
  intro hm
  have := List.findSome?_eq_none_iff.mp h _ hm
  simp at this

lemma Ranked.congr {w' : Who} (h : Ranked w A) (hst : w.stamp = w'.stamp)
    (hlive : ∀ q, w.live q ↔ w'.live q) : Ranked w' A where
  lined g := (h.lined g).imp fun hxy hy => by
    rw [← hst]
    exact hxy hy
  distinct := h.distinct
  manned := h.manned
  fledgling b g hb hm h0 hgone := h.fledgling b g hb hm h0 fun hg =>
    hgone (hg.imp_left fun hl => by rwa [← hlive])

namespace World

/-- A process keeps what it is in the sections of others, but for new connections. -/
lemma roleAfter_of {log : List Event} (hs : .spawn q ∉ log) (hf : forked log q = none) :
    W.roleAfter p log q = (W.role q).receive (W.arrivals p log q) := by
  simp only [roleAfter, if_neg hs, hf]

@[simp] lemma receive_leads {l : List Sock} {r : Role} : (r.receive l).leads ↔ r.leads := by
  cases r <;> rfl

lemma receive_ne_absent {l : List Sock} {r : Role} : r.receive l ≠ .absent ↔ r ≠ .absent := by
  cases r <;> simp [Role.receive]

lemma held_receive {l : List Sock} {r : Role} {c : Conn} (h : c ∈ (r.receive l).held) :
    c ∈ r.held ∨ ∃ x ∈ l, x.conn = c := by
  cases r with
  | backend s =>
    simp only [Role.receive, Role.held, List.map_append, List.mem_append] at h ⊢
    rcases h with (h | h) | h
    · exact .inl (.inl h)
    · exact .inr (List.mem_map.mp h)
    · exact .inl (.inr h)
  | _ => exact .inl h

lemma held_of_receive {l : List Sock} {r : Role} {c : Conn} (h : c ∈ r.held) :
    c ∈ (r.receive l).held := by
  cases r with
  | backend s =>
    simp only [Role.receive, Role.held, List.map_append, List.mem_append] at h ⊢
    exact h.imp_left .inl
  | _ => exact h

/-- The other backends find in the file what they expect, with the connections of the section. -/
def Served (W : World) (e : Env) (B : AFile) : Prop := ∀ q s, q ≠ e.self → W.role q = .backend s →
  ({ s with backlog := s.backlog ++ W.arrivals e.self B.log q } : Server).Fits B q

/-- The process `e.self` is to run a section as `w`. -/
structure Runner (W : World) (due : Pid → End → Prop) (e : Env) (w : Who) (A : AFile) : Prop where
  self : w.self = e.self
  live : ∀ q, w.live q ↔ W.role q ≠ .absent
  me : ∀ q, w.me q → q = e.self
  boss : ∀ q, w.boss q → q = e.self
  heads : ∀ q, w.heads q → q = e.self ∧ (W.role e.self).leads
  stamp : ∀ n, w.stamp n ≤ W.clock
  order : Ranked w A
  runs : W.runs e.self
  bare : (W.role e.self).bare
  births : ∀ q, w.tells (.spawn q) → W.free q
  ran : ∀ v, w.ran v → (W.role e.self).held = [] ∧ ∀ x, due e.self x → x = .reported v
  died : ∀ q s v, w.died q s v → W.role q = .absent ∧ ∀ x, due q x → x = .reaped s v
  lost : ∀ q x, W.role q = .absent → due q x → (∀ s v, ¬ w.died q s v) → ∃ s v, x = .lost s v

/-- A section of `e.self`, with what is known of it. -/
structure Turn (W : World) (due : Pid → End → Prop) (e : Env) (w : Who) (A B : AFile) : Prop
    extends W.Runner due e w A where
  steps : Steps w A B
  loose : NoLoose A B
  taken : ∀ n g, B.own n = .chain (.be g) → B.taken n → (B.be n).feRunning ≠ 0
  calls : (calls B.log).length ≤ 1
  spawn : ∀ q, .spawn q ∈ B.log → W.free q
  fork : ∀ q g b, .fork q g b ∈ B.log → W.free q ∧ W.role e.self = .done ∧ B.serves g b q ∧
    (B.be b).feRunning = b ∧ (B.be b).maturity = 0 ∧ (B.gr g).beStarting = q ∧ .spawn q ∉ B.log

namespace Inv

lemma log (hi : W.Inv due A) : A.log = [] := hi.rep.log.symm

lemma not_named (hi : W.Inv due A) (hq : W.free q) (hn : A.live n) :
    (A.be n).pid ≠ q ∧ (A.fe n).pid ≠ q ∧ (A.gr n).beParent ≠ q ∧ (A.gr n).beStarting ≠ q := by
  have hr := (hi.rep.range n).mp hn.1
  have hp : W.file.prev n ≠ n := fun h => hn.2 ((hi.rep.selfPrev n hn.1).mp h)
  by_contra hno
  refine hq.2.2 ⟨n, ?_, hp, ?_⟩
  · rw [List.mem_range'_1]
    rw [show W.file.slotsAlloced = A.alloced from hi.rep.alloced]
    exact ⟨Nat.pos_of_ne_zero hr.1, Nat.lt_one_add_iff.mpr hr.2⟩
  · rw [show W.file.be = A.be from hi.rep.be, show W.file.fe = A.fe from hi.rep.fe,
      show W.file.gr = A.gr from hi.rep.gr]
    by_contra h
    exact hno (by simpa [not_or] using h)

end Inv

namespace Turn

lemma noSpawn (h : W.Turn due e w A B) (hq : W.role q ≠ .absent) : .spawn q ∉ B.log := fun hm =>
  hq (h.spawn q hm).2.1

lemma noFork (h : W.Turn due e w A B) (hq : W.role q ≠ .absent) : forked B.log q = none := by
  cases hf : forked B.log q with
  | none => rfl
  | some gb => exact absurd (h.fork q gb.1 gb.2 (forked_some hf)).1.2.1 hq

lemma role (h : W.Turn due e w A B) (hq : W.role q ≠ .absent) :
    W.roleAfter e.self B.log q = (W.role q).receive (W.arrivals e.self B.log q) :=
  roleAfter_of (h.noSpawn hq) (h.noFork hq)

lemma ainv (h : W.Turn due e w A B) (hi : W.Inv due A) : AInv B ∧ B.Wf :=
  hi.inv.steps hi.rep.wf h.steps

/-- Only backend parents are killed. -/
lemma notKilled (h : W.Turn due e w A B) (hi : W.Inv due A) (hq : W.role q ≠ .absent)
    (hl : ¬ (W.role q).leads) : .kill q .kill true ∉ B.log := by
  intro hm
  have h0 : q ≠ 0 := by
    rintro rfl
    exact hq hi.books.zero
  obtain hm | ⟨g, hg, hp⟩ | hm | hm := h.steps.killed hi.rep.wf hi.inv h0 hm
  · simp [hi.log] at hm
  · exact hl (hp ▸ hi.heads g hg (hp ▸ hq))
  · exact h.noSpawn hq hm
  · obtain ⟨rfl, hl'⟩ := h.heads q hm
    exact hl hl'

lemma unhurt (h : W.Turn due e w A B) (hi : W.Inv due A) : .kill e.self .kill true ∉ B.log := by
  have := h.steps.unhurt (by simp [AFile.unhurt, hi.log])
  rwa [AFile.unhurt, h.self] at this

/-! ### The others -/

/-- What a process is after a section that was not there before. -/
lemma newcomer (h : W.Turn due e w A B) (hq : W.role q = .absent)
    (hq' : W.roleAfter e.self B.log q ≠ .absent) : W.free q ∧
      (.spawn q ∈ B.log ∧ W.roleAfter e.self B.log q = .born ∨ ∃ g b, .fork q g b ∈ B.log ∧
        W.roleAfter e.self B.log q = .backend { g, b }) := by
  by_cases hs : .spawn q ∈ B.log
  · exact ⟨h.spawn q hs, .inl ⟨hs, by simp [roleAfter, hs]⟩⟩
  cases hf : forked B.log q with
  | some gb =>
    obtain ⟨g, b⟩ := gb
    exact ⟨(h.fork q g b (forked_some hf)).1, .inr ⟨g, b, forked_some hf, by
      simp [roleAfter, hs, hf]⟩⟩
  | none =>
    rw [roleAfter_of hs hf, hq] at hq'
    exact absurd rfl hq'

/-- A backend slot of a process that was there before. -/
lemma bePid (h : W.Turn due e w A B) (hi : W.Inv due A) (hb : B.own b = .chain (.be g))
    (h0 : (B.be b).pid ≠ 0) : A.own b = .chain (.be g) ∧ (A.be b).pid = (B.be b).pid ∨
      .fork (B.be b).pid g b ∈ B.log := by
  have hall : ∀ C, Steps w A C → (∀ ev ∈ C.log, ev ∈ B.log) → C.own b = .chain (.be g) →
      (C.be b).pid ≠ 0 → A.own b = .chain (.be g) ∧ (A.be b).pid = (C.be b).pid ∨
        .fork (C.be b).pid g b ∈ B.log := by
    intro C hs
    induction hs with
    | refl => exact fun _ hb _ => .inl ⟨hb, rfl⟩
    | tail hs hr ih =>
      intro hL hb h0
      obtain ⟨ha', hw'⟩ := hi.inv.steps hi.rep.wf hs
      obtain ⟨hb', hp⟩ | hp | hp := hr.1.bePid hw' ha' hb
      · rw [← hp] at h0 ⊢
        exact ih (fun ev hev => hL ev (hr.1.log hev)) hb' h0
      · exact absurd hp h0
      · exact .inr (hL _ (hr.1.log hp))
  exact hall B h.steps (fun _ => id) hb h0

lemma self_ne_zero (h : W.Turn due e w A B) (hi : W.Inv due A) : e.self ≠ 0 := fun h0 =>
  h.runs.1 (h0 ▸ hi.books.zero)

lemma ranked (h : W.Turn due e w A B) (hi : W.Inv due A) : Ranked w B := by
  refine h.order.steps hi.rep.wf hi.inv (fun q hq => ?_) h.steps
  rw [h.me q hq]
  exact h.self_ne_zero hi

lemma listed (h : W.Turn due e w A B) (hi : W.Inv due A) (hb : B.own b = .chain (.be g))
    (hq : W.roleAfter e.self B.log (B.be b).pid ≠ .absent) :
    ∃ s, W.roleAfter e.self B.log (B.be b).pid = .backend s ∧ s.g = g ∧ s.b = b := by
  have h0 : (B.be b).pid ≠ 0 := by
    intro h0
    rw [h0] at hq
    by_cases hz : W.role 0 = .absent
    · exact (h.newcomer hz hq).1.1 rfl
    · exact hz hi.books.zero
  obtain ⟨hb', hp⟩ | hf := h.bePid hi hb h0
  · have hold : W.role (B.be b).pid ≠ .absent := fun hab =>
      (hi.not_named (h.newcomer hab hq).1 (by simp [AFile.live, hb'])).1 hp
    obtain ⟨s, hs, h1, h2⟩ := hi.listed b g hb' (by rwa [hp])
    rw [h.role hold, ← hp, hs]
    exact ⟨_, rfl, h1, h2⟩
  · obtain ⟨hfree, -, hserv, -, -, -, hno⟩ := h.fork _ g b hf
    obtain ⟨hs, -⟩ | ⟨g', b', hf', hr⟩ := (h.newcomer hfree.2.1 hq).2
    · exact absurd hs hno
    · have hserv' := (h.fork _ g' b' hf').2.2.1
      obtain rfl := (h.ranked hi).distinct b b' g g' hb hserv'.1 hserv'.2.symm h0
      obtain rfl : g = g' := by simpa [hb] using hserv'.1
      exact ⟨_, hr, rfl, rfl⟩

/-- A process that is there and is not the one that runs the section. -/
structure Other (W : World) (e : Env) (B : AFile) (q : Pid) : Prop where
  here : W.role q ≠ .absent
  ne : q ≠ e.self
  alive : .kill q .kill true ∉ B.log

lemma other (h : W.Turn due e w A B) (hi : W.Inv due A) (hq : q ≠ e.self)
    (hr : W.role q ≠ .absent) (hl : ¬ (W.role q).leads) : Other W e B q :=
  ⟨hr, hq, h.notKilled hi hr hl⟩

lemma Other.live (ho : Other W e B q) (h : W.Turn due e w A B) : w.live q := (h.live q).mpr ho.here

lemma Other.notMe (ho : Other W e B q) (h : W.Turn due e w A B) : ¬ w.me q := fun hm =>
  ho.ne (h.me q hm)

lemma waits (h : W.Turn due e w A B) (hi : W.Inv due A) (ho : Other W e B q) {v : ScrSlot}
    (hf : A.Waits g f q v) : B.Waits g f q v :=
  h.steps.waits hi.rep.wf hi.inv (ho.live h) (ho.notMe h) ho.alive hf

lemma seat (h : W.Turn due e w A B) (hi : W.Inv due A) (ho : Other W e B q) {p : Place}
    (hf : A.seat p f q) : B.seat p f q :=
  h.steps.seat hi.rep.wf hi.inv (ho.live h) (ho.notMe h) ho.alive hf

lemma leads (h : W.Turn due e w A B) (hi : W.Inv due A) (ho : Other W e B q)
    (hg : A.own g = .chain .group) (hp : (A.gr g).beParent = q) :
    B.own g = .chain .group ∧ (B.gr g).beParent = q := by
  refine h.steps.leads hi.rep.wf hi.inv (ho.live h) ?_ (fun hb => ho.ne (h.boss q hb)) ho.alive hg hp
  rintro rfl
  exact ho.here hi.books.zero

/-! ### The other backends -/

/-- A backend slot whose socket has been removed is not that of a process that was there before. -/
lemma unserved (h : W.Turn due e w A B) (hi : W.Inv due A) (hq : W.role q ≠ .absent)
    (hun : .unlink b ∈ B.log) : ¬ B.serves g b q := by
  have h0 : q ≠ 0 := fun h0 => hq (h0 ▸ hi.books.zero)
  have hall : ∀ C, Steps w A C → (∀ ev ∈ C.log, ev ∈ B.log) → .unlink b ∈ C.log → ¬ C.serves g b q := by
    intro C hs
    induction hs with
    | refl => simp [hi.log]
    | @tail C D hs hr ih =>
      intro hL hun hserv
      obtain ⟨ha', hw'⟩ := hi.inv.steps hi.rep.wf hs
      have hlog : ∀ ev ∈ C.log, ev ∈ B.log := fun ev hev => hL ev (hr.1.log hev)
      obtain hun | hun := hr.1.unlinked hun
      · obtain ⟨hb, hp⟩ | hp | hp := hr.1.bePid hw' ha' hserv.1
        · exact ih hlog hun ⟨hb, hp.trans hserv.2⟩
        · exact h0 (hserv.2.symm.trans hp)
        · rw [hserv.2] at hp
          exact forked_none (h.noFork hq) (hlog _ hp)
      · exact hun g hserv.1
  exact hall B h.steps (fun _ => id) hun

lemma notServes (h : W.Turn due e w A B) (hi : W.Inv due A) (hq : W.role q ≠ .absent)
    (hb : ¬ A.serves g b q) : ¬ B.serves g b q := by
  intro hserv
  have h0 : (B.be b).pid ≠ 0 := fun h0 => hq (hserv.2 ▸ h0 ▸ hi.books.zero)
  obtain ⟨hb', hp⟩ | hf := h.bePid hi hserv.1 h0
  · exact hb ⟨hb', hp.trans hserv.2⟩
  · rw [hserv.2] at hf
    exact forked_none (h.noFork hq) hf

/-- A backend in use stays so. -/
lemma busy (h : W.Turn due e w A B) (hi : W.Inv due A) (ho : Other W e B q) (hs : Steps w A C)
    (hL : ∀ ev ∈ C.log, ev ∈ B.log) (hb : A.serves g b q) (hrun : (A.be b).feRunning ≠ 0) :
    (C.serves g b q ∧ Aged b A C) ∧
      ((C.be b).feRunning = (A.be b).feRunning ∨ (C.be b).feRunning = b) :=
  hs.busy hi.rep.wf hi.inv (ho.live h) (fun h0 => ho.here (h0 ▸ hi.books.zero)) (ho.notMe h)
    (fun hm => ho.alive (hL _ hm)) hb hrun

lemma slot_ne_zero (hi : W.Inv due A) (hb : A.serves g b q) : b ≠ 0 := by
  rintro rfl
  have := hb.1
  simp [hi.rep.wf.zero] at this

lemma Busy.after (h : W.Turn due e w A B) (hi : W.Inv due A) (ho : Other W e B q) {sv : Server}
    (hb : sv.Busy A q) : sv.Busy B q := by
  obtain ⟨⟨h1, h2⟩, h3⟩ := h.busy hi ho h.steps (fun _ => id) hb.serves hb.run
  refine ⟨h1, ?_, h2 hb.mature⟩
  rcases h3 with h3 | h3 <;> rw [h3]
  · exact hb.run
  · exact slot_ne_zero hi hb.serves

/-- A backend that has not been given away. -/
lemma fits (h : W.Turn due e w A B) (hi : W.Inv due A) (ho : Other W e B q) {sv : Server}
    (hr : W.role q = .backend sv) (hno : ¬ B.taken sv.b) : sv.Fits B q := by
  have hfit := hi.fit q
  rw [hr] at hfit
  simp only [Fit, Server.Fits] at hfit ⊢
  have hstart : A.serves sv.g sv.b q ∧ (A.be sv.b).feRunning = sv.b ∧ sv.backlog = [] ∧ sv.taken = [] →
      B.serves sv.g sv.b q ∧ (B.be sv.b).feRunning = sv.b ∧ sv.backlog = [] ∧ sv.taken = [] := by
    rintro ⟨hb, hrun, hnil⟩
    obtain ⟨⟨h1, -⟩, h3⟩ := h.busy hi ho h.steps (fun _ => id) hb (by
      rw [hrun]
      exact slot_ne_zero hi hb)
    exact ⟨h1, h3.elim (fun h3 => h3.trans hrun) id, hnil⟩
  split at hfit
  · exact hstart hfit
  · exact hstart hfit
  · refine ⟨hfit.1, ?_⟩
    obtain ⟨hidle, hnil⟩ | ⟨hbusy, hc⟩ | ⟨hb, hl⟩ := hfit.2
    · obtain ⟨⟨h1, h2⟩, h3⟩ | ht | hun := h.steps.unclaimed hi.rep.wf hi.inv (ho.live h)
        (fun h0 => ho.here (h0 ▸ hi.books.zero)) ho.alive hidle.serves hidle.run
      · exact .inl ⟨⟨h1, h3, h2 hidle.mature⟩, hnil⟩
      · exact absurd ht hno
      · exact .inr (.inr ⟨h.unserved hi ho.here hun, by simp [hnil]⟩)
    · exact .inr (.inl ⟨Busy.after h hi ho hbusy, hc⟩)
    · exact .inr (.inr ⟨h.notServes hi ho.here hb, hl⟩)
  · exact hfit.imp_left (Busy.after h hi ho)
  · exact hfit.imp_left (Busy.after h hi ho)
  · exact hfit.imp_left (Busy.after h hi ho)
  · trivial

/-- In a section without connections all the other backends keep what they expect. -/
lemma served (h : W.Turn due e w A B) (hi : W.Inv due A) (hcalls : TempFile.calls B.log = [])
    (hno : ∀ n, ¬ B.taken n) : W.Served e B := by
  intro q sv hq hr
  have ho := h.other hi hq (by simp [hr]) (by simp [hr, Role.leads])
  have harr : W.arrivals e.self B.log q = [] := by simp [arrivals, hcalls]
  rw [harr, List.append_nil]
  exact h.fits hi ho hr (hno _)

/-! ### The other frontends -/

/-- The connections that a process had it still has. -/
lemma held_after (h : W.Turn due e w A B) {c : Conn} (hc : c ∈ (W.role q).held) :
    c ∈ (W.roleAfter e.self B.log q).held := by
  by_cases hq : W.role q = .absent
  · rw [hq] at hc
    simp [Role.held] at hc
  · rw [h.role hq]
    exact held_of_receive hc

/-- The process that a backend slot names is not killed. -/
lemma servesNotKilled (h : W.Turn due e w A B) (hi : W.Inv due A) (hb : A.serves g b q)
    (hq : W.role q ≠ .absent) : .kill q .kill true ∉ B.log := by
  obtain ⟨s, hs, -⟩ := hi.listed b g hb.1 (by rwa [hb.2])
  rw [hb.2] at hs
  exact h.notKilled hi hq (by simp [hs, Role.leads])

/-- A frontend that runs has its status, or will be told; so has that of this section, as long as
it does nothing for itself. -/
lemma pays (h : W.Turn due e w A B) (hi : W.Inv due A) (hq : W.role q ≠ .absent) (hme : ¬ w.me q)
    (hk : .kill q .kill true ∉ B.log) {c : Conn} (hlog : s.log = B.log)
    (hf : A.seat (.chain .feRun) f q) (hp : W.Pays due A f b c) :
    (W.after e.self s).Pays due B f b c := by
  have hstay := (h.live q).mpr hq
  obtain ⟨h0, x, hx, hsh⟩ | ⟨hback, g, q', h0, hb, hc⟩ := hp
  · obtain ⟨h1, h2, h3⟩ := h.steps.settled hi.rep.wf hi.inv hstay hme hk hf h0
    exact .inl ⟨h1, x, hx, by rwa [h2, h3]⟩
  · have hno : ∀ x, W.ended c = some x → c ∉ (W.role q').held := fun x hx hm => by
      rw [(hi.books.held q' c hm).2] at hx
      cases hx
    have hgone : B.gone w q' → W.role q' = .absent := fun hg => by
      by_contra hq'
      obtain hg | hg := hg
      · exact hg ((h.live q').mpr hq')
      · exact h.servesNotKilled hi hb hq' hg
    have habs : W.role q' = .absent → c ∉ (W.role q').held := fun hq' => by
      rw [hq']
      simp [Role.held]
    cases h.steps.told hi.rep.wf hi.inv hstay hme hk hf h0 hb hback with
    | nothing hb' _ hback' _ _ =>
      refine .inr ⟨hback', g, q', h0, hb', hc.imp_left fun hc => ?_⟩
      show c ∈ (W.roleAfter e.self s.log q').held
      rw [hlog]
      exact h.held_after hc
    | reported hback' hme hsig hval =>
      obtain rfl := h.me q' hme
      obtain ⟨hnil, hdue⟩ := h.ran _ hval
      obtain ⟨x, hx, hd⟩ := hc.resolve_left (by rw [hnil]; simp)
      exact .inl ⟨hback', x, hx, by rw [hdue x hd]; exact ⟨hsig, rfl⟩⟩
    | died hback' hg hst =>
      obtain ⟨hq', hdue⟩ := h.died _ _ _ hst
      obtain ⟨x, hx, hd⟩ := hc.resolve_left (habs hq')
      exact .inl ⟨hback', x, hx, by rw [hdue x hd]; exact ⟨rfl, rfl⟩⟩
    | lost hback' hg hsig hval hnd =>
      have hq' := hgone hg
      obtain ⟨x, hx, hd⟩ := hc.resolve_left (habs hq')
      obtain ⟨sig, val, rfl⟩ := h.lost q' x hq' hd hnd
      exact .inl ⟨hback', _, hx, hsig, hval⟩

end Turn

lemma Fit.calm {ro : Role} (h : W.Fit due A q ro) : W.Fit due A.calm q ro := by
  cases ro with
  | queued g f want d stat since => exact ⟨⟨h.1.seat, h.1.entry⟩, h.2⟩
  | backend s =>
    have hbusy : s.Busy A q → s.Busy A.calm q := fun h => ⟨h.serves, h.run, h.mature⟩
    have hidle : s.Idle A q → s.Idle A.calm q := fun h => ⟨h.serves, h.run, h.mature⟩
    simp only [Fit, Server.Fits] at h ⊢
    split at h
    · exact h
    · exact h
    · exact ⟨h.1, h.2.imp (And.imp_left hidle) (Or.imp_left (And.imp_left hbusy))⟩
    · exact h.imp_left hbusy
    · exact h.imp_left hbusy
    · exact h.imp_left hbusy
    · trivial
  | _ => exact h

namespace Turn

lemma after_dead (h : W.Turn due e w A B) (hlog : s.log = B.log) (hq : W.role q ≠ .absent) :
    (W.after e.self s).dead q = none ↔ W.dead q = none ∧ .kill q .kill true ∉ B.log := by
  have hne : W.roleAfter e.self B.log q ≠ .absent := by
    rw [h.role hq]
    exact receive_ne_absent.mpr hq
  simp only [after, hlog]
  by_cases hk : .kill q .kill true ∈ B.log <;> simp [hk, hne]

/-- A new process has not died; `init` does not count. -/
lemma after_clean (h : W.Turn due e w A B) (hi : W.Inv due A) (hlog : s.log = B.log)
    (hq : (W.after e.self s).role q = .absent) : (W.after e.self s).dead q = none ∧
      (W.after e.self s).usr1 q = false ∧ (W.after e.self s).parent q = none := by
  have hq' : W.roleAfter e.self B.log q = .absent := by
    rw [← hlog]
    exact hq
  have hab : W.role q = .absent := by
    by_contra hno
    rw [h.role hno] at hq'
    exact receive_ne_absent.mpr hno hq'
  obtain ⟨h1, h2, h3⟩ := hi.books.clean q hab
  have hf : forked B.log q = none := by
    cases hf : forked B.log q with
    | none => rfl
    | some gb =>
      by_cases hs : .spawn q ∈ B.log <;> simp [roleAfter, hs, hf] at hq'
  simp [after, hlog, hq', h1, h2, h3, hf]

/-- The parents of backends. -/
lemma after_parent (hlog : s.log = B.log)
    (hq : (W.after e.self s).parent q = some r) : .kill r .kill true ∉ B.log ∧ W.parent q = some r ∨
      r = e.self ∧ ∃ g b, .fork q g b ∈ B.log := by
  simp only [after, hlog] at hq
  cases hf : forked B.log q with
  | some gb =>
    have heq : e.self = r := by simpa [hf] using hq
    exact .inr ⟨heq.symm, gb.1, gb.2, forked_some hf⟩
  | none =>
    refine .inl ?_
    simp only [hf, Option.isSome_none, Bool.false_eq_true, if_false, Option.filter_eq_some_iff] at hq
    exact ⟨by simpa using hq.2, hq.1⟩

lemma fit (h : W.Turn due e w A B) (hi : W.Inv due A) (hserved : W.Served e B)
    (hlog : s.log = B.log) (q : Pid) :
    (W.after e.self s).Fit due B q ((W.after e.self s).role q) := by
  show (W.after e.self s).Fit due B q (W.roleAfter e.self s.log q)
  rw [hlog]
  have hfit := hi.fit q
  by_cases hq : W.role q = .absent
  · by_cases hq' : W.roleAfter e.self B.log q = .absent
    · rw [hq']
      trivial
    · obtain ⟨-, ⟨-, hr⟩ | ⟨g, b, hf, hr⟩⟩ := h.newcomer hq hq'
      · rw [hr]
        trivial
      · rw [hr]
        obtain ⟨-, -, hb, hrun, -⟩ := h.fork q g b hf
        exact ⟨hb, hrun, rfl, rfl⟩
  rw [h.role hq]
  by_cases hself : q = e.self
  · have hbare := h.bare
    rw [← hself] at hbare
    cases hr : W.role q with
    | queued | running | parent => simp [hr, Role.bare] at hbare
    | backend s' =>
      have hleave : s'.phase = .leaving := by simpa [hr, Role.bare] using hbare
      simp only [Role.receive, Fit, Server.Fits, hleave]
    | _ => trivial
  cases hr : W.role q with
  | queued g f want d stat since =>
    rw [hr] at hfit
    exact ⟨h.waits hi (h.other hi hself hq (by simp [hr, Role.leads])) hfit.1,
      Nat.lt_succ_of_lt hfit.2⟩
  | running f b c =>
    rw [hr] at hfit
    obtain ⟨hf, hc, ht, hrec, hp⟩ := hfit
    have ho := h.other hi hself hq (by simp [hr, Role.leads])
    exact ⟨h.seat hi ho hf, hc, Nat.lt_succ_of_lt ht, hrec, h.pays hi hq (ho.notMe h) ho.alive hlog hf hp⟩
  | parent g woken answered =>
    rw [hr] at hfit
    intro hd
    obtain ⟨hd, hk⟩ := (h.after_dead hlog hq).mp hd
    obtain ⟨hg, hp⟩ := hfit hd
    exact h.leads hi ⟨hq, hself, hk⟩ hg hp
  | backend s' =>
    simpa only [Role.receive, Fit] using hserved q s' hself hr
  | _ => trivial

/-- The books are kept: the only new connection is that of this section. -/
lemma books (h : W.Turn due e w A B) (hi : W.Inv due A) (hlog : s.log = B.log) :
    (W.after e.self s).Books := by
  have hb := hi.books
  have hrole : ∀ q, (W.after e.self s).role q = W.roleAfter e.self B.log q := fun q => by
    rw [← hlog]
    rfl
  -- where the connections of a process come from
  have hheld : ∀ q c, c ∈ ((W.after e.self s).role q).held → c ∈ (W.role q).held ∨
      c = ⟨e.self, W.clock⟩ ∧ ∃ x ∈ TempFile.calls B.log, W.sock x.1 = some q := by
    intro q c hc
    rw [hrole] at hc
    by_cases hq : W.role q = .absent
    · by_cases hq' : W.roleAfter e.self B.log q = .absent
      · simp [hq', Role.held] at hc
      · obtain ⟨-, ⟨-, hr⟩ | ⟨g, b, -, hr⟩⟩ := h.newcomer hq hq' <;> simp [hr, Role.held] at hc
    rw [h.role hq] at hc
    obtain hc | ⟨x, hx, rfl⟩ := held_receive hc
    · exact .inl hc
    · obtain ⟨y, hy, hx⟩ := List.mem_flatMap.mp hx
      split at hx
      · next heq =>
        obtain ⟨i, -, rfl⟩ := List.mem_map.mp hx
        exact .inr ⟨rfl, y, hy, heq⟩
      · simp at hx
  have hnew : ∀ q, (⟨e.self, W.clock⟩ : Conn) ∉ (W.role q).held := fun q hm =>
    Nat.lt_irrefl _ (hb.held q _ hm).1
  refine ⟨?_, fun q hq => h.after_clean hi hlog hq, fun q r hr => ?_,
    fun n => Nat.lt_succ_of_lt (hb.past n), fun q c hc => ?_, fun q q' c hc hc' => ?_,
    fun c x hx => Nat.lt_succ_of_lt (hb.ended c x hx),
    fun x hx => (hb.receipts x hx).imp_left Nat.lt_succ_of_lt, hb.nodup⟩
  · rw [hrole]
    by_contra hz
    exact (h.newcomer hb.zero hz).1.1 rfl
  · obtain ⟨hk, hr⟩ | ⟨rfl, g, b, hf⟩ := after_parent hlog hr
    · obtain ⟨hd, s', hs', hl⟩ := hb.kin q r hr
      have hr' : W.role r ≠ .absent := by
        rcases hl with ⟨wk, a, hl⟩ | hl <;> simp [hl]
      refine ⟨(h.after_dead hlog hr').mpr ⟨hd, hk⟩, _, by rw [hrole, h.role (by simp [hs']), hs']; rfl, ?_⟩
      rw [hrole, h.role hr']
      rcases hl with ⟨wk, a, hl⟩ | hl
      · exact .inl ⟨wk, a, by rw [hl]; rfl⟩
      · exact .inr (by rw [hl]; rfl)
    · obtain ⟨hfree, hdone, -, -, -, -, hno⟩ := h.fork q g b hf
      refine ⟨(h.after_dead hlog h.runs.1).mpr ⟨h.runs.2, h.unhurt hi⟩, ?_⟩
      have hq' : W.roleAfter e.self B.log q ≠ .absent := fun hq' => by
        have := h.after_clean hi hlog ((hrole q).trans hq')
        rw [hr] at this
        simp at this
      obtain ⟨hs, -⟩ | ⟨g', b', -, hr'⟩ := (h.newcomer hfree.2.1 hq').2
      · exact absurd hs hno
      · refine ⟨_, (hrole q).trans hr', .inr ?_⟩
        rw [hrole, h.role h.runs.1, hdone]
        rfl
  · obtain hc | ⟨rfl, -⟩ := hheld q c hc
    · exact (hb.held q c hc).imp_left Nat.lt_succ_of_lt
    · refine ⟨Nat.lt_succ_self _, ?_⟩
      cases hx : W.ended ⟨e.self, W.clock⟩ with
      | none => exact hx
      | some x => exact absurd (hb.ended _ x hx) (Nat.lt_irrefl _)
  · obtain hc | ⟨rfl, x, hx, hs⟩ := hheld q c hc
    · obtain hc' | ⟨rfl, -⟩ := hheld q' c hc'
      · exact hb.once q q' c hc hc'
      · exact absurd hc (hnew q)
    · obtain hc' | ⟨-, x', hx', hs'⟩ := hheld q' _ hc'
      · exact absurd hc' (hnew q')
      · have hone := h.calls
        rcases hy : TempFile.calls B.log with _ | ⟨y, _ | ⟨z, l⟩⟩
        · simp [hy] at hx
        · rw [hy, List.mem_singleton] at hx hx'
          rw [hx] at hs
          rw [hx', hs] at hs'
          exact Option.some.inj hs'
        · simp [hy] at hone

lemma heads_after (h : W.Turn due e w A B) (hi : W.Inv due A) (hg : B.own g = .chain .group)
    (hq : W.roleAfter e.self B.log (B.gr g).beParent ≠ .absent) :
    (W.roleAfter e.self B.log (B.gr g).beParent).leads := by
  have h0 : (B.gr g).beParent ≠ 0 := by
    intro h0
    rw [h0] at hq
    by_cases hz : W.role 0 = .absent
    · exact (h.newcomer hz hq).1.1 rfl
    · exact hz hi.books.zero
  by_cases hs : .spawn (B.gr g).beParent ∈ B.log
  · simp [roleAfter, hs, Role.leads]
  obtain ⟨hg', hp⟩ | hm | hm := h.steps.parent hi.rep.wf hi.inv h0 hg rfl
  · have hold : W.role (B.gr g).beParent ≠ .absent := fun hab =>
      (hi.not_named (h.newcomer hab hq).1 (by simp [AFile.live, hg'])).2.2.1 hp
    rw [h.role hold, receive_leads, ← hp]
    exact hi.heads g hg' (hp ▸ hold)
  · exact absurd hm hs
  · obtain ⟨heq, hl⟩ := h.heads _ hm
    rw [heq, h.role h.runs.1, receive_leads]
    exact hl

lemma sock_after (h : W.Turn due e w A B) (hi : W.Inv due A) (hlog : s.log = B.log)
    (hb : (W.after e.self s).sock b = some q) : (W.after e.self s).dead q = none ∧
      ∃ s', (W.after e.self s).role q = .backend s' ∧ s'.b = b ∧ B.serves s'.g b q := by
  have hold : .unlink b ∉ B.log ∧ W.sock b = some q := by
    simp only [after, hlog] at hb
    split at hb
    · cases hb
    · exact ⟨‹_›, (Option.filter_eq_some_iff.mp hb).1⟩
  obtain ⟨hd, s', hs', rfl, hserv⟩ := hi.sock b q hold.2
  have hq : W.role q ≠ .absent := by simp [hs']
  have hk := h.notKilled hi hq (by simp [hs', Role.leads])
  have hserv' := (h.steps.serves hi.rep.wf hi.inv ((h.live q).mpr hq)
    (fun h0 => hq (h0 ▸ hi.books.zero)) hk hserv).resolve_right hold.1
  refine ⟨(h.after_dead hlog hq).mpr ⟨hd, hk⟩, ?_⟩
  show ∃ s'', W.roleAfter e.self s.log q = .backend s'' ∧ _
  rw [hlog, h.role hq, hs']
  exact ⟨_, rfl, rfl, hserv'.1⟩

/-- The order of the queues. -/
lemma line_after (h : W.Turn due e w A B) (hi : W.Inv due A) {q q' : Pid} {f f' : SlotNum}
    {x x' d d' : Bool} {st st' : Stat} {t t' : ℕ}
    (hq : W.roleAfter e.self B.log q = .queued g f x d st t)
    (hq' : W.roleAfter e.self B.log q' = .queued g f' x' d' st' t') (ht : t < t') :
    B.inLine g f f' := by
  -- who waits after the section waited before, and has not run it
  have hold : ∀ q f x d st t, W.roleAfter e.self B.log q = .queued g f x d st t →
      W.role q = .queued g f x d st t ∧ Other W e B q ∧ A.seat (.chain (.fe g)) f q := by
    intro q f x d st t hq
    by_cases hab : W.role q = .absent
    · obtain ⟨-, ⟨-, hr⟩ | ⟨g, b, -, hr⟩⟩ := h.newcomer hab (by simp [hq]) <;> simp [hr] at hq
    rw [h.role hab] at hq
    have hr : W.role q = .queued g f x d st t := by
      cases hr : W.role q <;> rw [hr] at hq <;> simp [Role.receive] at hq ⊢
      exact hq
    have hfit := hi.fit q
    rw [hr] at hfit
    refine ⟨hr, h.other hi ?_ hab (by simp [hr, Role.leads]), hfit.1.seat⟩
    rintro rfl
    have := h.bare
    simp [hr, Role.bare] at this
  obtain ⟨hr, ho, hf⟩ := hold q f x d st t hq
  obtain ⟨hr', ho', hf'⟩ := hold q' f' x' d' st' t' hq'
  exact h.steps.inLine hi.rep.wf hi.inv (ho.live h) (ho'.live h) (ho.notMe h) (ho'.notMe h) ho.alive
    ho'.alive hf hf' (hi.line q q' g f f' x x' d d' st st' t t' hr hr' ht)

lemma stamped (h : W.Turn due e w A B) (hi : W.Inv due A) (hserved : W.Served e B) (hs : Rep s B) :
    ((W.after e.self s).stamped w.stamp).Inv due B.calm := by
  have hlog : s.log = B.log := hs.log
  have hrole : ∀ q, ((W.after e.self s).stamped w.stamp).role q = W.roleAfter e.self B.log q :=
    fun q => by
      rw [← hlog]
      rfl
  obtain ⟨haB, -⟩ := h.ainv hi
  have hr := h.ranked hi
  refine ⟨hs.calm, haB.calm, fun n hn => hi.still n (h.loose n hn), ⟨?_, hr.distinct, hr.manned, ?_⟩,
    fun q => (h.fit hi hserved hlog q).calm, fun b g hb hq => ?_, fun g hg hq => ?_,
    fun b q hb => h.sock_after hi hlog hb, fun q q' g f f' x x' d d' st st' t t' hq hq' ht => ?_,
    { h.books hi hlog with past := fun n => Nat.lt_succ_of_le (h.stamp n) }⟩
  · intro g
    obtain ⟨-, hwB⟩ := h.ainv hi
    have hidle : ∀ n ∈ B.lst (.be g), B.calm.idle n → B.idle n := fun n hn hidle =>
      ⟨hidle.1, fun ht => h.taken n g ((hwB.mem _ n).mp hn) ht hidle.1⟩
    refine (hr.lined g).imp_of_mem fun {x y} hx hy hxy hi' => ?_
    obtain ⟨h1, h2⟩ := hxy (hidle y hy hi')
    exact ⟨⟨h1.1, AFile.not_taken_calm⟩, h2⟩
  · intro b g hb hm h0 hgone
    have hq : W.roleAfter e.self B.log (B.be b).pid ≠ .absent := by
      rw [← hrole]
      exact not_not.mp (not_or.mp hgone).1
    by_cases hold : W.role (B.be b).pid = .absent
    · obtain ⟨hfree, ⟨-, hborn⟩ | ⟨g', b', hf, -⟩⟩ := h.newcomer hold hq
      · obtain ⟨s', hs', -⟩ := h.listed hi hb hq
        simp [hborn] at hs'
      · obtain ⟨-, -, hserv, -, -, hst, -⟩ := h.fork _ g' b' hf
        obtain rfl := hr.distinct b b' g g' hb hserv.1 hserv.2.symm h0
        obtain rfl : g = g' := by simpa using hb.symm.trans hserv.1
        exact hst
    · refine hr.fledgling b g hb hm h0 fun hg => ?_
      obtain hg | hg := hg
      · exact hg ((h.live _).mpr hold)
      · obtain ⟨s', hs', -⟩ := h.listed hi hb hq
        refine h.notKilled hi hold (fun hl => ?_) hg
        rw [h.role hold] at hs'
        have := receive_leads (l := W.arrivals e.self B.log (B.be b).pid) |>.mpr hl
        simp [hs', Role.leads] at this
  · obtain ⟨s', hs', h1⟩ := h.listed hi hb (by rwa [← hrole])
    exact ⟨s', (hrole _).trans hs', h1⟩
  · rw [hrole] at hq ⊢
    exact h.heads_after hi hg hq
  · rw [hrole] at hq hq'
    exact h.line_after hi hq hq' ht

end Turn

/-- The ends that have been told need not be remembered. -/
lemma Inv.narrow (hi : W.Inv due A) {due' : Pid → End → Prop}
    (h : ∀ g b q x, A.serves g b q → (A.be b).feRunning ≠ 0 → (A.be b).feRunning ≠ b → due q x →
      due' q x) : W.Inv due' A := by
  refine ⟨hi.rep, hi.inv, hi.still, hi.ranked, fun q => ?_, hi.listed, hi.heads, hi.sock, hi.line,
    hi.books⟩
  have hfit := hi.fit q
  cases hr : W.role q with
  | running f b c =>
    rw [hr] at hfit
    obtain ⟨hf, hc, ht, hrec, hp⟩ := hfit
    refine ⟨hf, hc, ht, hrec, hp.imp_right ?_⟩
    rintro ⟨hback, g, q', h0, hb, hc⟩
    obtain ⟨_, -, hrun⟩ := (hi.inv.paired.frontend f hf.2.1).resolve_left
      (hback ▸ Turn.slot_ne_zero hi hb)
    rw [hback] at hrun
    refine ⟨hback, g, q', h0, hb, hc.imp_right fun ⟨x, hx, hd⟩ => ⟨x, hx, h g b q' x hb ?_ ?_ hd⟩⟩
    · rw [hrun]
      exact hf.ne_zero hi.rep.wf
    · rintro heq
      have := hb.1
      rw [← heq, hrun, hf.2.1] at this
      cases this
  | _ =>
    rw [hr] at hfit
    exact hfit

/-- A backend with a frontend is not one that has just been started. -/
lemma Turn.untold (h : W.Turn due e w A B) (hi : W.Inv due A) (hs : Rep s B) (hb : B.serves g b q)
    (hne : (B.be b).feRunning ≠ b) {x : End} (hx : W.untold q x) : (W.after e.self s).untold q x := by
  obtain ⟨hq, hx⟩ := hx
  refine ⟨by_contra fun hq' => ?_, hx⟩
  have hrole : (W.after e.self s).role q = W.roleAfter e.self B.log q := by
    rw [← hs.log]
    rfl
  rw [hrole] at hq'
  obtain ⟨s', hs', -⟩ := h.listed hi hb.1 (by rwa [hb.2])
  rw [hb.2] at hs'
  obtain ⟨hfree, ⟨-, hr⟩ | ⟨g', b', hf, -⟩⟩ := h.newcomer hq hq'
  · simp [hr] at hs'
  · obtain ⟨-, -, hserv, hrun, -⟩ := h.fork q g' b' hf
    obtain rfl := (h.ranked hi).distinct b b' g g' hb.1 hserv.1 (hb.2.trans hserv.2.symm)
      (by rw [hb.2]; exact hfree.1)
    exact hne hrun

/-- A section keeps the invariant, if nobody who still waits for an end has missed it. -/
theorem Turn.inv (h : W.Turn due e w A B) (hi : W.Inv due A) (hserved : W.Served e B) (hs : Rep s B)
    (hdue : ∀ g b q x, B.serves g b q → (B.be b).feRunning ≠ 0 → (B.be b).feRunning ≠ b →
      due q x → W.untold q x) :
    ((W.after e.self s).stamped w.stamp).Inv (W.after e.self s).untold B.calm := by
  refine (h.stamped hi hserved hs).narrow fun g b q x hb h0 hne hd => ?_
  have hb : B.serves g b q := hb
  exact h.untold hi hs hb hne (hdue g b q x hb h0 hne hd)

end World

end SpeedyCgi.TempFile
