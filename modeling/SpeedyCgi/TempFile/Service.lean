import SpeedyCgi.TempFile.Queue

/-!
Frontends and backends serve each other.

A frontend is given a backend in its turn, with its script as it is; one frontend at most connects
to a backend before the backend waits again; and a frontend is told how its own run has ended.
-/

namespace SpeedyCgi.TempFile

open Function Lib.Dll Lib.Wp

variable {W W' : World} {A B : AFile} {w : Who} {e : Env} {a : Act} {p q : Pid} {g b f n : SlotNum}
  {s : St} {cs : List Child} {c : Conn}

lemma mem_calls {log : List Event} {n : ℕ} : .connect b n ∈ log ↔ (b, n) ∈ calls log := by
  simp only [calls, List.mem_filterMap]
  constructor
  · intro h
    exact ⟨_, h, rfl⟩
  · rintro ⟨ev, h, hev⟩
    cases ev <;> simp at hev
    obtain ⟨rfl, rfl⟩ := hev
    exact h

namespace World

/-- A section in which somebody connects to backend `b`. -/
def connects (a : Act) (W' : World) (b : SlotNum) : Prop :=
  a.env.isSome ∧ ∃ n, .connect b n ∈ W'.log

/-- A step in which backend `b` does not put itself on the wait list. -/
def Unput (b : SlotNum) (W W' : World) : Prop := ∃ a, W.Fair a ∧ W.step a = some W' ∧ ¬ W.Puts a b

/-- No group has `b` as a backend that waits. -/
def busy (W : World) (b : SlotNum) : Prop :=
  ∀ g, W.file.At b (.chain (.be g)) → (W.file.be b).feRunning ≠ 0

/-- A backend that somebody connects to waits until then. -/
lemma Inv.connects (hi : W.Inv W.untold A) (hf : W.Fair a) (h : W.step a = some W')
    (hc : connects a W' b) : ¬ W.busy b ∧ W'.busy b := by
  obtain ⟨hsect, n, hn⟩ := hc
  cases hi.moves hf h with
  | quiet ha => simp [ha] at hsect
  | sect e cs w B W₀ due s r0 ro ha h hmax hputs hturn hcall =>
    rw [h.log, mem_calls] at hn
    cases hcall with
    | nobody hcalls => simp [hcalls] at hn
    | one g b' n' C hs _ hfresh hcalls _ _ hend =>
      obtain ⟨rfl, -⟩ : b = b' ∧ n = n' := by simpa [hcalls] using hn
      obtain ⟨hb, h0⟩ := hs.waiting hi.rep.wf hi.inv (by simp) hfresh.own hfresh.waiting
      refine ⟨fun hbusy => hbusy g (hi.at_chain.mpr hb) (by rw [hi.file_be, h0]), fun g' hb' => ?_⟩
      rw [h.inv.at_chain] at hb'
      rw [h.inv.file_be]
      obtain ⟨-, -, hrun⟩ | ⟨-, hfree⟩ := hend
      · exact hrun
      · have hb' : B.own b = .chain (.be g') := hb'
        simp [hfree] at hb'

lemma Unput.busy (hs : Unput b W W') (h : Reachable W) (hb : W.busy b) : W'.busy b := by
  obtain ⟨a, hf, hst, hno⟩ := hs
  intro g hg h0
  obtain ⟨hg', h0'⟩ := ((pairing h).2.2 a W' hf hst g b hg h0).resolve_right hno
  exact hb g hg' h0'

/-- A backend that does not wait is not waiting before it puts itself on the wait list. -/
lemma busy_of_unput {W₁ W₂ : World} (h : Reachable W₁) (hb : W₁.busy b)
    (hs : Relation.ReflTransGen (Unput b) W₁ W₂) : Reachable W₂ ∧ W₂.busy b := by
  induction hs with
  | refl => exact ⟨h, hb⟩
  | tail _ hs ih =>
    have hs' := Unput.busy hs ih.1 ih.2
    obtain ⟨a, hf, hst, -⟩ := hs
    exact ⟨.step ih.1 hf hst, hs'⟩

/-- A frontend is given a backend at once if nobody is queued, or in front of the queue once it has
been signalled, and then nobody is queued for longer. Nobody else connects to a backend before it
waits again, and so a backend accepts the three sockets of one connection. -/
theorem assignment (h : Reachable W) :
    (∀ g f, W.file.At f (.chain (.fe g)) → (W.file.fe f).sentSig = true → W.file.head (.fe g) = f) ∧
    (∀ a e cs W', W.Fair a → a.env = some (e, cs) → W.step a = some W' →
      ∀ g f b hd sig, .assign g f b hd sig ∈ W'.log → (hd = 0 ∧ sig = false ∨ hd = f ∧ sig = true) ∧
        ∀ q f' x d st t, q ≠ e.self → W.role q = .queued g f' x d st t → W.since e.self ≤ t) ∧
    (∀ a b W₁ W₂ a' W₃, W.Fair a → W.step a = some W₁ → connects a W₁ b →
      Relation.ReflTransGen (Unput b) W₁ W₂ → W₂.Fair a' → W₂.step a' = some W₃ →
      ¬ connects a' W₃ b) ∧
    ∀ p W', W.step (.accept p) = some W' → ∃ s s' c, W.role p = .backend s ∧ s.backlog = socks c 3 ∧
      W'.role p = .backend s' ∧ s'.taken = socks c 3 := by
  obtain ⟨A, hi⟩ := h.inv
  refine ⟨fun g f hf hsig => ?_, fun a e cs W' hf ha hst g f b hd sig hm => ?_,
    fun a b W₁ W₂ a' W₃ hf hst hc hs hf' hst' hc' => ?_, fun p W' hst => ?_⟩
  · rw [hi.at_chain] at hf
    rw [hi.file_fe] at hsig
    obtain ⟨t, hl, -⟩ := hi.rep.chains _ (Usable.of_own hi.rep hf)
    obtain ⟨l, hl'⟩ := List.head?_eq_some_iff.mp (hi.inv.signalled.waiting g f hf hsig)
    rw [show W.file.head (.fe g) = _ from hl.head_eq, hl', List.headD_cons]
  · cases hi.moves hf hst with
    | quiet ha' => simp [ha] at ha'
    | sect e' cs' w B W₀ due s r0 ro ha' h hmax hputs hturn hcall =>
      obtain ⟨rfl, rfl⟩ : e = e' ∧ cs = cs' := by simpa [ha] using ha'
      rw [h.log] at hm
      have hev : (Event.assign g f b hd sig).loud := trivial
      exact hturn g f b hd sig ((h.turn.steps.loud hev hm).resolve_left (by simp [h.inv₀.log]))
  · have hb := (hi.connects hf hst hc).2
    obtain ⟨h₂, hb₂⟩ := busy_of_unput (.step h hf hst) hb hs
    obtain ⟨A₂, hi₂⟩ := h₂.inv
    exact (hi₂.connects hf' hst' hc').1 hb₂
  · rw [step] at hst
    split at hst <;> try cases hst
    rename_i s hr
    split at hst <;> cases hst
    rename_i hc
    have hfit := hi.fit p
    rw [hr] at hfit
    simp only [Fit, Server.Fits, hc.2.1] at hfit
    obtain ⟨-, ⟨-, hnil⟩ | ⟨-, c, hback⟩ | ⟨-, hlt⟩⟩ := hfit
    · simp [hnil] at hc
    · exact ⟨s, _, c, hr, hback, update_self .., by rw [hback]; rfl⟩
    · exact absurd hc.2.2 (Nat.not_le_of_lt hlt)

theorem assignment_served : ∃ W : World, ∃ W', W.step (.accept 4) = some W' ∧ ∃ s s' c,
    W.role 4 = .backend s ∧ s.backlog = socks c 3 ∧ W'.role 4 = .backend s' ∧ s'.taken = socks c 3 := by
  obtain ⟨W, hW, h⟩ := exists_of_play (fun W => (W.step (.accept 4)).isSome) (served.take 6) (x := true)
    (by decide +kernel)
  obtain ⟨W', hs⟩ := Option.isSome_iff_exists.mp h
  exact ⟨W, W', hs, (assignment hW).2.2.2 4 W' hs⟩

/-! ### The script as it is -/

end World

/-- Backend `b` serves group `g`, which runs the script as process `e.self` has looked at it. -/
structure File.Offers (F : File) (e : Env) (g b : SlotNum) : Prop where
  backend : F.At b (.chain (.be g))
  group : F.isGroup g
  valid : F.valid g
  entry : ∃ n, F.At n (.chain (.script g)) ∧ F.scr n = ⟨e.stat.dev, e.stat.ino, e.stat.mtime⟩

lemma Rep.offers {sw : Bool} (hs : Rep s B) (hi : AInv B) (hg : B.Got g f b sw q e.entry) (h0 : b ≠ 0) :
    s.file.Offers e g b := by
  obtain ⟨-, -, hfresh⟩ := hg.ready h0
  obtain ⟨n, hn, hscr⟩ := hfresh.entry
  have hgroup := hi.housed.chain b _ g hfresh.own rfl
  refine ⟨(hs.at_chain hi.housed).mpr hfresh.own, hs.isGroup_iff.mpr hgroup,
    (hs.valid_iff hgroup).mpr hfresh.valid, n, (hs.at_chain hi.housed).mpr hn, ?_⟩
  rw [hs.scr, hscr]
  rfl

namespace World

lemma Inv.offersStart {didClean sw : Bool} (hi : W.Inv W.untold A) (ha : W.Answers e [])
    (hr : W.role e.self = .idle didClean) (hd : W.dead e.self = none)
    (hm : connectStart e didClean { file := W.file } = .ok ((f, .got g b sw), s)) (h0 : b ≠ 0) :
    s.file.Offers e g b := by
  have hV := hi.lowerFrontend (e := e) (by simp [hr, Role.frontend]) hd ha
  have hruns : Runs (connectStart e didClean) (fun r B => AInv B ∧ ∀ f g b sw, r = (f, .got g b sw) →
      B.Got g f b sw e.self e.entry) A := by
    refine runs_connectStart (hV.acts (T := fun _ => True)) hi.inv hi.rep.wf hV.unhurt
      (fun _ _ _ _ _ _ _ => .inl trivial) (fun _ _ _ _ _ _ _ _ => .inl trivial)
      (fun f g d B hs _ _ _ _ _ => ⟨(hi.inv.steps hi.rep.wf hs).1, by simp⟩)
      fun f g b sw B hs _ hgot _ => ⟨(hi.inv.steps hi.rep.wf hs).1, fun f' g' b' sw' heq => ?_⟩
    cases heq
    exact hgot
  obtain ⟨B, hB, hinv, hgot⟩ := hruns.result hi.rep hm
  exact hB.offers hinv (hgot f g b sw rfl) h0

lemma Inv.offersWake {changed want didSpawn sw : Bool} {stat : Stat} {since : ℕ} {g' : SlotNum}
    (hi : W.Inv W.untold A) (hf : W.Fair (.wake e changed))
    (hr : W.role e.self = .queued g f want didSpawn stat since) (hd : W.dead e.self = none)
    (hm : getABackendWake e g f didSpawn changed { file := W.file } = .ok (.got g' b sw, s)) (h0 : b ≠ 0) :
    g' = g ∧ s.file.Offers e g b := by
  obtain ⟨ha, hstat⟩ := hf
  have hV := hi.lowerFrontend (e := e) (by simp [hr, Role.frontend]) hd ha
  have hfit := hi.fit e.self
  rw [hr] at hfit
  have hruns : Runs (getABackendWake e g f didSpawn changed) (fun r B => AInv B ∧
      ∀ g' b sw, r = .got g' b sw → g' = g ∧ B.Got g f b sw e.self e.entry) A := by
    refine runs_getABackendWake (hV.acts (T := fun _ => True)) hi.inv hi.rep.wf hV.unhurt hfit.1.seat
      (fun hc hv => ?_) (fun _ _ _ _ _ _ _ => .inl trivial)
      (fun d B hs _ _ _ _ _ _ => ⟨(hi.inv.steps hi.rep.wf hs).1, by simp⟩)
      fun b sw B hs _ hgot _ => ⟨(hi.inv.steps hi.rep.wf hs).1, fun g' b' sw' heq => ?_⟩
    · -- what the frontend looked at before is what it sees now
      rw [Env.entry, hstat _ _ _ _ _ _ hr hc]
      exact hfit.1.entry hv
    · cases heq
      exact ⟨rfl, hgot⟩
  obtain ⟨B, hB, hinv, hgot⟩ := hruns.result hi.rep hm
  obtain ⟨rfl, hgot⟩ := hgot g' b sw rfl
  exact ⟨rfl, hB.offers hinv hgot h0⟩

/-- The group of a frontend that waits is not freed in the sections of others. -/
lemma Section.keepsGroup {W₀ : World} {due : Pid → End → Prop} {r0 ro : Role} {x d : Bool} {st : Stat}
    {t : ℕ} (h : W.Section e cs w A B W' W₀ due s r0 ro) (hp : p ≠ e.self)
    (hr : W'.role p = .queued g f x d st t) : .free g ∉ W'.log := by
  -- the process has been waiting before
  have hr₀ := (h.sameRole hp hr (by simp) (by simp) (by simp)).1
  have hfit := h.inv₀.fit p
  rw [hr₀] at hfit
  have ho := h.turn.other h.inv₀ hp (by simp [hr₀]) (by simp [hr₀, Role.leads])
  intro hfree
  rw [h.log] at hfree
  have := h.turn.steps.kept h.inv₀.rep.wf h.inv₀.inv (ho.live h.turn) (ho.notMe h.turn) ho.alive
    hfit.1.seat hfree
  simp [h.inv₀.log] at this

lemma Inv.keepsGroup {x x' d d' : Bool} {st st' : Stat} {t t' : ℕ} (hi : W.Inv W.untold A) (hf : W.Fair a)
    (h : W.step a = some W') (hr : W.role p = .queued g f x d st t)
    (hr' : W'.role p = .queued g f x' d' st' t') : W'.file = W.file ∨ .free g ∉ W'.log := by
  cases hi.moves hf h with
  | quiet ha hfile => exact .inl hfile
  | sect e cs w B W₀ due s r0 ro ha hsect =>
    refine .inr ?_
    by_cases hp : p = e.self
    swap
    · exact hsect.keepsGroup hp hr'
    -- only a wait can be over for the frontend itself
    subst hp
    cases a with
    | wake e' changed =>
      obtain ⟨rfl, rfl⟩ : e' = e ∧ [] = cs := by simpa [Act.env] using ha
      rw [step, hr] at h
      simp only at h
      split at h <;> try cases h
      rename_i hd
      obtain ⟨r, s', hm, rfl⟩ := sect_some h
      obtain ⟨B', hB', -, hsame⟩ := (hi.runsWake hf hr hd).result hi.rep hm
      have hr' : World.connected e' x t W.clock r = .queued g f x' d' st' t' := by simpa using hr'
      cases r with
      | queued g' f' d'' =>
        obtain ⟨rfl, rfl, -, hfree⟩ := hsame g' f' d'' rfl
        have hlog : s'.log = B'.log := hB'.log
        exact fun hm => hfree (hlog ▸ hm)
      | kept | sent | failed => cases hr'
    | connect e' | collect e' | init e' | put e' | accepted e' | report e' | iterate e' =>
      obtain rfl : e' = e := congrArg Prod.fst (Option.some.inj ha)
      simp [step, hr] at h
    | _ => cases ha

/-- A frontend is given a backend of a valid group that runs its script as the frontend has looked at
it last; and until then its group is not freed. -/
theorem freshness (h : Reachable W) :
    (∀ e want didClean f g b sw s, W.Fair (.connect e want) → W.role e.self = .idle didClean →
      W.dead e.self = none → connectStart e didClean { file := W.file } = .ok ((f, .got g b sw), s) →
      b ≠ 0 → s.file.Offers e g b) ∧
    (∀ e changed g f want didSpawn stat since g' b sw s, W.Fair (.wake e changed) →
      W.role e.self = .queued g f want didSpawn stat since → W.dead e.self = none →
      getABackendWake e g f didSpawn changed { file := W.file } = .ok (.got g' b sw, s) → b ≠ 0 →
      g' = g ∧ s.file.Offers e g b) ∧
    (∀ p g f want didSpawn stat since, W.role p = .queued g f want didSpawn stat since →
      W.file.isGroup g ∧ W.file.At f (.chain (.fe g)) ∧ (W.file.fe f).pid = p) ∧
    ∀ a W' p g f x d st t x' d' st' t', W.Fair a → W.step a = some W' →
      W.role p = .queued g f x d st t → W'.role p = .queued g f x' d' st' t' →
      W'.file = W.file ∨ .free g ∉ W'.log := by
  obtain ⟨A, hi⟩ := h.inv
  refine ⟨fun e want didClean f g b sw s hf hr hd hm h0 => hi.offersStart hf hr hd hm h0,
    fun e changed g f want didSpawn stat since g' b sw s hf hr hd hm h0 => hi.offersWake hf hr hd hm h0,
    fun p g f want didSpawn stat since hr => ?_,
    fun a W' p g f x d st t x' d' st' t' hf hst hr hr' => hi.keepsGroup hf hst hr hr'⟩
  have hfit := hi.fit p
  rw [hr] at hfit
  obtain ⟨-, hown, hpid⟩ := hfit.1.seat
  rw [hi.isGroup_iff, hi.at_chain, hi.file_fe]
  exact ⟨hi.inv.housed.chain f _ g hown rfl, hown, hpid⟩

theorem freshness_served : ∃ W : World, W.role 2 = .queued 2 1 true true ⟨1, 1, 1⟩ 1 ∧
    W.file.isGroup 2 ∧ W.file.At 1 (.chain (.fe 2)) ∧ (W.file.fe 1).pid = 2 := by
  obtain ⟨W, hW, h⟩ := exists_of_play (fun W => W.role 2) (served.take 5)
    (x := .queued 2 1 true true ⟨1, 1, 1⟩ 1) (by decide +kernel)
  exact ⟨W, h, (freshness hW).2.2.1 2 _ _ _ _ _ _ h⟩

end World

end SpeedyCgi.TempFile
