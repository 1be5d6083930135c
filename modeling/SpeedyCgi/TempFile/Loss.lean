import SpeedyCgi.TempFile.Discharge

/-!
Requests that nobody runs.

A backend leaves without the lock: if nobody connects to it for a while, or if it has accepted a
connection and finds its group invalid. It ends with exit status 0 then. A frontend that is connected
to it and keeps its slot is told that its run has ended like this, although there was no run.
-/

namespace SpeedyCgi.TempFile

open Function Lib.Wp

variable {W W' : World} {A B : AFile} {w : Who} {e : Env} {a : Act} {p q : Pid} {g b f n : SlotNum}
  {s : St} {cs : List Child} {c : Conn} {x : End}

/-- It is decided whether the backend runs what it is connected to. -/
def Phase.decided : Phase → Bool
  | .running | .ran _ | .leaving => true
  | _ => false

/-- A backend in `backend_accept`, or just behind it, ends by `all_done` only. -/
def Role.mayExit : Role → Bool
  | .backend s => decide (s.phase ≠ .waiting ∧ s.phase ≠ .accepted)
  | _ => true

namespace World

/-- A frontend waits for the exit status of connection `c`. -/
def Awaits (W : World) (c : Conn) : Prop := ∃ p f b, W.role p = .running f b c ∧ W.dead p = none

/-- No process fails. -/
def Orderly (W : World) : Act → Prop
  | .exit p onSig _ => onSig = true ∨ (W.role p).mayExit = true
  | _ => True

/-- The frontend that connects wants the exit status. -/
def Wants (W : World) : Act → Prop
  | .connect _ want => want = true
  | .wake e _ => ∃ g f d stat since, W.role e.self = .queued g f true d stat since
  | _ => False

/-- No backend that is all done, and still listed as waiting, accepts three connections. -/
def Refuses (W : World) (e : Env) : Prop := ∀ b q s, W.sock b = some q → W.role q = .backend s →
  s.phase = .leaving → (W.file.be b).feRunning = 0 → e.connects b < 3

/-- No backend leaves while a frontend that is connected to it waits for the exit status, and no such
frontend connects to a backend that leaves. -/
def Patient (W : World) : Act → Prop
  | .quit q => ∀ c ∈ (W.role q).held, ¬ W.Awaits c
  | .accepted e => ∀ s, W.role e.self = .backend s → ¬ W.file.valid s.g →
      ∀ c ∈ (W.role e.self).held, ¬ W.Awaits c
  | .connect e want => W.Wants (.connect e want) → W.Refuses e
  | .wake e fileChanged => W.Wants (.wake e fileChanged) → W.Refuses e
  | _ => True

/-- Nobody waits for a run that has not been and will not be, or has been told of one. -/
structure Honest (W : World) : Prop where
  told : ∀ c x v, W.Awaits c → W.ended c = some x → x.shows false v → W.ran c = true
  decided : ∀ q s, W.role q = .backend s → (s.phase.decided = true ∨ ∃ v, W.dead q = some (false, v)) →
    ∀ c ∈ (W.role q).held, W.Awaits c → W.ran c = true
  paid : ∀ c v, (c, false, v) ∈ W.receipts → W.ran c = true

/-! ### Frontends that wait for their status -/

lemma returns_connectRest {want : Bool} (r : Got) :
    Returns (fun r => ∀ f b, r = .kept f b → want = true) (connectRest e want n r) := by
  cases r with
  | wait => exact returns_pure (by simp)
  | got g b sw =>
    refine returns_bind fun _ => returns_bind fun _ => returns_ite (fun _ => returns_ite (fun hw => ?_)
      fun _ => ?_) fun _ => returns_bind fun _ => returns_pure (by simp)
    · exact fun _ _ _ _ _ _ _ => hw
    · exact returns_bind fun _ => returns_bind fun _ => returns_bind fun _ => returns_bind fun _ =>
        returns_pure (by simp)

lemma connected_running {want : Bool} {since now : ℕ} {r : TempFile.Section}
    (h : connected e want since now r = .running f b c) : r = .kept f b ∧ c = ⟨e.self, now⟩ := by
  cases r <;> cases h
  exact ⟨rfl, rfl⟩

/-- In the step a frontend that wants the exit status is connected to backend `b`. -/
structure Joins (W : World) (a : Act) (W' : World) (e : Env) (b : SlotNum) : Prop where
  wants : W.Wants a
  env : a.env = some (e, [])
  calls : calls W'.log = [(b, 3)]
  three : 3 ≤ e.connects b

/-- The frontend has connected three sockets if it is connected. -/
lemma Section.joined {W₀ : World} {due : Pid → End → Prop} {r0 : Role} {T : Event → Prop} {want : Bool}
    {since : ℕ} {r : TempFile.Section}
    (h : W.Section e [] (W₀.asking e T).calling A B W' W₀ due s r0 (connected e want since W.clock r))
    (hends : Ends e (W₀.asking e T) A r B) (hno : ∀ b n, ¬ T (.connect b n))
    (hr : W'.role e.self = .running f b c) : calls W'.log = [(b, 3)] ∧ 3 ≤ e.connects b := by
  obtain ⟨rfl, -⟩ := connected_running (h.roleSelf.symm.trans hr)
  rw [h.log]
  cases hends with
  | kept g f b C B hs hfresh hgave h3 hun hs' =>
    exact ⟨calls_eq h.inv₀ hs (fun b n => not_asking (hno b n) (by simp)) hs', h3⟩

/-- Nobody waits for the status of a connection that is not there yet. -/
lemma Inv.awaits_past (hi : W.Inv W.untold A) (hc : W.Awaits c) : c.time < W.clock := by
  obtain ⟨p, f, b, hr, -⟩ := hc
  have hfit := hi.fit p
  rw [hr] at hfit
  exact hfit.2.2.1

lemma awaits_step (hi : W.Inv W.untold A) (hf : W.Fair a) (h : W.step a = some W') (hc : W'.Awaits c) :
    W.Awaits c ∨ ∃ e b, W.Joins a W' e b ∧ c = ⟨e.self, W.clock⟩ := by
  obtain ⟨p, f, b, hr, hd⟩ := hc
  cases hi.moves hf h with
  | quiet ha =>
    left
    cases rests h ha p with
    | same _ hr' hd' => exact ⟨p, f, b, hr'.symm.trans hr, hd'.symm.trans hd⟩
    | exit _ _ _ hd' => cases hd.symm.trans hd'
    | other _ _ hrun => exact absurd hr (hrun f b c)
    | backend _ _ _ _ hr' => cases hr.symm.trans hr'
  | sect e cs w B W₀ due s r0 ro ha hsect =>
    by_cases hp : p = e.self
    swap
    · left
      obtain ⟨hr₀, hrW⟩ := hsect.sameRole hp hr (by simp) (by simp) (by simp)
      have hhere : W₀.role p ≠ .absent := by simp [hr₀]
      refine ⟨p, f, b, hrW, (hsect.dead₀ hp hhere).symm.trans ?_⟩
      rw [hsect.after] at hd
      exact ((hsect.turn.after_dead hsect.rep.log hhere).mp hd).1
    subst hp
    obtain ⟨ro', hro, hb⟩ := becomes h ha
    rw [hr] at hro
    cases hb with
    | connect want didClean r s' hrW hdW hm =>
      obtain ⟨rfl, rfl⟩ := connected_running hro.symm
      obtain ⟨B, W₀, due, s, r0, r, hsect, hends⟩ := hi.connect hf h
      obtain ⟨hcalls, h3⟩ := hsect.joined hends (fun _ _ => id) hr
      have hw : want = true := returns_bind (fun _ => returns_connectRest _) _ _ _ hm f b rfl
      exact .inr ⟨e, b, ⟨hw, rfl, hcalls, h3⟩, rfl⟩
    | wake changed want d g f' stat since r s' hrW hdW hm =>
      obtain ⟨rfl, rfl⟩ := connected_running hro.symm
      obtain ⟨B, W₀, due, s, r0, r, want', g', f'', since', -, hsect, hends⟩ := hi.wake hf h
      obtain ⟨hcalls, h3⟩ := hsect.joined hends (fun _ _ => id) hr
      obtain rfl : want = true := returns_bind (fun _ => returns_connectRest _) _ _ _ hm f b rfl
      exact .inr ⟨e, b, ⟨⟨g, f', d, stat, since, hrW⟩, rfl, hcalls, h3⟩, rfl⟩
    | collect f' b' c' log ro' hrW hdW hro' =>
      obtain rfl | rfl := hro'
      · exact .inl ⟨e.self, f, b, roleAfter_eq hro.symm (by simp) (by simp), hdW⟩
      · cases hro
    | init r => cases r <;> cases hro
    | iterate cs' g woken answered ended => cases ended <;> cases hro
    | put | accepted | report => cases hro

lemma awaits_of_step (hi : W.Inv W.untold A) (hf : W.Fair a) (h : W.step a = some W') (hno : ¬ W.Wants a)
    (hc : W'.Awaits c) : W.Awaits c := by
  obtain hc | ⟨e, b, hj, -⟩ := awaits_step hi hf h hc
  · exact hc
  · exact absurd hj.wants hno

/-! ### Backends that have ended -/

lemma collect_dead {y : Bool × ℕ} (h : (W.collect cs).dead q = some y) : W.dead q = some y := by
  induction cs generalizing W with
  | nil => exact h
  | cons child cs ih =>
    rw [collect_cons] at h
    have h := ih h
    have hne : q ≠ child.pid := by
      rintro rfl
      simp [bury] at h
    simpa [bury, conclude, hne] using h

/-- Who is killed in a section does not end with an exit status. -/
lemma Section.exited {W₀ : World} {due : Pid → End → Prop} {r0 ro : Role} {v : ℕ}
    (h : W.Section e cs w A B W' W₀ due s r0 ro) (hd : W'.dead q = some (false, v)) :
    W.dead q = some (false, v) := by
  rw [h.after] at hd
  have hd : (W₀.after e.self s).dead q = some (false, v) := hd
  have hd₀ : W₀.dead q = some (false, v) := by
    simp only [World.after] at hd
    split at hd
    · cases hx : W₀.dead q with
      | none => simp [hx] at hd
      | some x => simpa [hx] using hd
    · exact hd
  rw [h.before] at hd₀
  exact collect_dead hd₀

/-! ### The step -/

/-- The backend that is connected listens, and nobody has been connected to it before. -/
lemma Inv.joined {sv : Server} (hi : W.Inv W.untold A) (hf : W.Fair a) (h : W.step a = some W')
    (hp : W.Patient a) (hj : W.Joins a W' e b) (hb : W.sock b = some q) (hr : W.role q = .backend sv) :
    sv.phase.decided = false ∧ W.dead q = none := by
  obtain ⟨hd, sv', hsv, hb', hserv⟩ := hi.sock b q hb
  obtain rfl : sv = sv' := by simpa [hr] using hsv
  refine ⟨?_, hd⟩
  have hidle : (A.be b).feRunning = 0 := by
    cases hi.moves hf h with
    | quiet ha => simp [hj.env] at ha
    | sect e' cs w B W₀ due s r0 ro ha hsect hmax hputs hturn hcall =>
      have hcalls : calls B.log = [(b, 3)] := hsect.log ▸ hj.calls
      cases hcall with
      | nobody hno => simp [hno] at hcalls
      | one g b' n C hs hlog hfresh hone =>
        obtain ⟨rfl, -⟩ : b' = b ∧ n = 3 := by simpa [hone] using hcalls
        exact (hs.waiting hi.rep.wf hi.inv (by simp) hfresh.own hfresh.waiting).2
  have hfit := hi.fit q
  rw [hr] at hfit
  have hbusy : ¬ sv.Busy A q := fun hbusy => hbusy.run (hb' ▸ hidle)
  cases hphase : sv.phase with
  | start | ready | waiting | accepted => rfl
  | running | ran val =>
    simp only [Fit, Server.Fits, hphase] at hfit
    exact absurd hfit.1 hbusy
  | leaving =>
    have hno : W.Refuses e := by
      obtain ⟨hw, ha, -⟩ := hj
      cases a with
      | connect e' want | wake e' changed =>
        obtain rfl : e' = e := congrArg Prod.fst (Option.some.inj ha)
        exact hp hw
      | _ => exact hw.elim
    have := hno b q sv hb hr hphase (hi.file_be ▸ hidle)
    exact absurd hj.three (Nat.not_le_of_lt this)

/-- The connections of a backend after the section of another process. -/
lemma Section.receives {W₀ : World} {due : Pid → End → Prop} {r0 ro : Role} {sv : Server}
    (h : W.Section e cs w A B W' W₀ due s r0 ro) (hq : q ≠ e.self) (hr : W'.role q = .backend sv)
    (hc : c ∈ (Role.backend sv).held) : ∃ sv₀, W.role q = .backend sv₀ ∧
      sv.phase = sv₀.phase ∧ (c ∈ (W.role q).held ∨ c = ⟨e.self, W.clock⟩ ∧
        ∃ x ∈ calls W'.log, W.sock x.1 = some q) := by
  obtain hnil | ⟨sv₀, hr₀, rfl⟩ := h.backend hq hr
  · simp [hnil] at hc
  refine ⟨sv₀, hr₀, rfl, ?_⟩
  have hclock : W₀.clock = W.clock := by
    rw [h.before]
    exact (collect_frame W cs).2.2.1
  have hsock : W₀.sock = W.sock := by
    rw [h.before]
    exact (collect_frame W cs).2.1
  have hrecv : (Role.backend { sv₀ with backlog := sv₀.backlog ++ W₀.arrivals e.self B.log q }) =
    (W.role q).receive (W₀.arrivals e.self B.log q) := by rw [hr₀]; rfl
  rw [hrecv] at hc
  obtain hc | ⟨y, hy, rfl⟩ := held_receive hc
  · exact .inl hc
  · obtain ⟨x, hx, hy⟩ := List.mem_flatMap.mp hy
    split at hy
    · obtain ⟨i, -, rfl⟩ := List.mem_map.mp hy
      exact .inr ⟨by rw [← hclock], x, h.log ▸ hx, by rwa [← hsock]⟩
    · simp at hy

namespace Honest

/-- A backend ends, or decides what it runs, in good order. -/
lemma decided_step {sv : Server} (ih : W.Honest) (hi : W.Inv W.untold A) (hf : W.Fair a) (ho : W.Orderly a)
    (hp : W.Patient a) (h : W.step a = some W') (hr : W'.role q = .backend sv)
    (hs : sv.phase.decided = true ∨ ∃ v, W'.dead q = some (false, v)) (hc : c ∈ (W'.role q).held)
    (hw : W'.Awaits c) : W'.ran c = true := by
  have hold : ∀ sv₀, W.role q = .backend sv₀ →
      (sv₀.phase.decided = true ∨ ∃ v, W.dead q = some (false, v)) → c ∈ (W.role q).held →
      W'.ran c = true := by
    intro sv₀ hr₀ hs₀ hc₀
    obtain hw | ⟨e, b, hj, rfl⟩ := awaits_step hi hf h hw
    · exact (history_step h).2 _ (ih.decided q sv₀ hr₀ hs₀ c hc₀ hw)
    · exact absurd (hi.books.held q _ hc₀).1 (Nat.lt_irrefl _)
  cases hi.moves hf h with
  | quiet ha =>
    cases rests h ha q with
    | same _ hr' hd' => exact hold sv (hr'.symm.trans hr) (by rwa [← hd']) (by rwa [← hr'])
    | exit onSig val hr' hd' =>
      have hr₀ := hr'.symm.trans hr
      rw [hr'] at hc
      refine hold sv hr₀ (.inl ?_) hc
      obtain hs | ⟨v, hv⟩ := hs
      · exact hs
      · obtain ⟨rfl, rfl⟩ : onSig = false ∧ val = v := by simpa [hd'] using hv
        have hmay := ho.resolve_left (by simp)
        rw [hr₀] at hmay hc
        have hfit := hi.fit q
        rw [hr₀] at hfit
        -- a backend that has not come to wait has no connections
        cases hphase : sv.phase with
        | start | ready =>
          simp only [Fit, Server.Fits, hphase] at hfit
          simp [Role.held, hfit] at hc
        | waiting | accepted => simp [Role.mayExit, hphase] at hmay
        | running | ran | leaving => rfl
    | other _ hback => exact absurd hr (hback sv)
    | backend _ s s' hr₀ hr' hd' hheld hphase =>
      obtain rfl : s' = sv := by simpa [hr'] using hr
      have hdec := hs.resolve_right (by simp [hd'])
      have hc₀ : c ∈ (W.role q).held := hr₀ ▸ hheld c (hr' ▸ hc)
      obtain hphase | hphase | ⟨-, rfl⟩ | ⟨hrun, -⟩ := hphase
      · simp [hphase, Phase.decided] at hdec
      · simp [hphase, Phase.decided] at hdec
      · exact absurd (awaits_of_step hi hf h id hw) (hp c hc₀)
      · exact hold s hr₀ (.inl (by simp [hrun, Phase.decided])) hc₀
  | sect e cs w B W₀ due s r0 ro ha hsect =>
    by_cases hq : q = e.self
    swap
    · rw [hr] at hc
      obtain ⟨sv₀, hr₀, hphase, hc | ⟨rfl, x, hx, hsock⟩⟩ := hsect.receives hq hr hc
      · rw [hphase] at hs
        refine hold sv₀ hr₀ ?_ hc
        obtain hs | ⟨v, hv⟩ := hs
        · exact .inl hs
        · exact .inr ⟨v, hsect.exited hv⟩
      · -- it is connected in this section
        obtain hw | ⟨e', b, hj, -⟩ := awaits_step hi hf h hw
        · exact absurd (hi.awaits_past hw) (Nat.lt_irrefl _)
        · obtain rfl : x = (b, 3) := by simpa [hj.calls] using hx
          obtain ⟨hno, hd⟩ := hi.joined hf h hp hj hsock hr₀
          rw [hphase, hno] at hs
          obtain ⟨v, hv⟩ := hs.resolve_left (by simp)
          cases hd.symm.trans (hsect.exited hv)
    subst hq
    obtain ⟨ro', hro, hb⟩ := becomes h ha
    rw [hr] at hro hc
    have hfit := hi.fit e.self
    cases hb with
    | put sv₀ ok hr₀ hd hphase =>
      cases hro
      rw [hr₀] at hfit
      simp only [Fit, Server.Fits, hphase] at hfit
      simp [Role.held, hfit] at hc
    | report more sv₀ val ok hr₀ hd hphase =>
      cases hro
      rw [hr₀] at hfit
      simp only [Fit, Server.Fits, hphase] at hfit
      simp [Role.held, hfit.2.1] at hc
    | accepted sv₀ ok s' hr₀ hd hphase hm hran =>
      cases hro
      obtain ⟨-, -, -, -, hok⟩ := (hi.runsAccepted hf hr₀ hd hphase).result hi.rep hm
      rw [hr₀] at hfit
      simp only [Fit, Server.Fits, hphase] at hfit
      cases ok with
      | true => exact hran rfl c (by simpa [Role.held, hfit.2.1] using hc)
      | false =>
        have hw := awaits_of_step hi hf h id hw
        have hg := hi.inv.housed.chain _ _ _ hfit.1.serves.1 rfl
        refine absurd hw (hp sv₀ hr₀ (fun hv => ?_) c (by rwa [hr₀]))
        cases hok ((hi.valid_iff hg).mp hv)
    | collect f b c' log ro hrun hd hro' =>
      obtain rfl | rfl := hro'
      · obtain hnil | ⟨sv₀, hr₀, -⟩ := roleAfter_backend hro.symm
        · simp [hnil] at hc
        · cases hrun.symm.trans hr₀
      · cases hro
    | connect want didClean r | wake changed want d g f stat since r => cases r <;> cases hro
    | init r => cases r <;> cases hro
    | iterate cs' g woken answered ended => cases ended <;> cases hro

lemma told_step {v : ℕ} (ih : W.Honest) (hi : W.Inv W.untold A) (hf : W.Fair a) (h : W.step a = some W')
    (hw : W'.Awaits c) (hx : W'.ended c = some x) (hsh : x.shows false v) : W'.ran c = true := by
  obtain hw | ⟨e, b, hj, rfl⟩ := awaits_step hi hf h hw
  · refine (history_step h).2 c ?_
    obtain hx | ⟨-, hfin⟩ := finishes h hx
    · exact ih.told c x v hw hx hsh
    cases hfin with
    | reported hr hran hc =>
      refine ih.decided _ _ hr (.inl (by simp [hran, Phase.decided])) c ?_ hw
      rw [hr, Role.held, List.map_append]
      exact List.mem_append_right _ hc
    | reaped hmem hparent hdead hc =>
      obtain ⟨-, sv, hr, -⟩ := hi.books.kin _ _ hparent
      exact ih.decided _ sv hr (.inr ⟨_, hsh.1 ▸ hdead⟩) c hc hw
    | lost => cases hsh.1
  · -- the run for a new connection has not ended
    obtain hx | ⟨-, hfin⟩ := finishes h hx
    · exact absurd (hi.books.ended _ x hx) (Nat.lt_irrefl _)
    · cases hfin <;> exact hj.wants.elim

lemma paid_step {v : ℕ} (ih : W.Honest) (hi : W.Inv W.untold A) (hf : W.Fair a) (h : W.step a = some W')
    (hr : (c, false, v) ∈ W'.receipts) : W'.ran c = true := by
  obtain heq | ⟨e, f, b, c', y, rfl, hrun, -, heq⟩ := (history_step h).1
  · exact (history_step h).2 _ (ih.paid c v (heq ▸ hr))
  obtain ⟨-, B, -, hi', -⟩ := hi.turns hf h
  obtain ⟨-, x, hx, hsh⟩ := hi'.books.receipts _ hr
  rw [heq] at hr
  obtain hr | hr := List.mem_cons.mp hr
  · cases hr
    have hd : W.dead e.self = none := by
      obtain ⟨ro, -, hb⟩ := becomes h rfl
      cases hb
      assumption
    have hx := (finishes h hx).resolve_right fun ⟨_, hfin⟩ => by cases hfin
    exact (history_step h).2 _ (ih.told c x v ⟨e.self, f, b, hrun, hd⟩ hx hsh)
  · exact (history_step h).2 _ (ih.paid c v hr)

lemma step (ih : W.Honest) (hi : W.Inv W.untold A) (hf : W.Fair a) (ho : W.Orderly a) (hp : W.Patient a)
    (h : W.step a = some W') : W'.Honest where
  told _ _ _ hw hx hsh := ih.told_step hi hf h hw hx hsh
  decided _ _ hr hs _ hc hw := ih.decided_step hi hf ho hp h hr hs hc hw
  paid _ _ hr := ih.paid_step hi hf h hr

end Honest

/-- In a run in which no backend leaves that a frontend waits for, and no frontend that is going to
wait connects to a backend that leaves, a frontend that is told of an exit status has had its run. -/
theorem ran_of_receipt
    (h : Lib.Lts.ReachOk step init (fun W a => W.Fair a ∧ W.Orderly a ∧ W.Patient a) W) :
    ∀ c v, (c, false, v) ∈ W.receipts → W.ran c = true := by
  have hh : W.Honest := by
    refine Lib.Lts.ReachOk.inv (P := Honest) ⟨?_, ?_, ?_⟩ ?_ h
    · rintro c x v ⟨p, f, b, hr, -⟩
      cases hr
    · intro q s hr
      cases hr
    · intro c v hr
      cases hr
    · intro W a W' hW ih ⟨hf, ho, hp⟩ hs
      obtain ⟨A, hi⟩ := Reachable.inv (hW.mono fun _ _ h => h.1)
      exact ih.step hi hf ho hp hs
  exact hh.paid

def orderly (W : World) : Deed → Bool
  | .exit p onSig _ => onSig || (W.role p).mayExit
  | _ => true

/-- Enough for a deed to be patient. -/
def patient (W : World) : Deed → Bool
  | .quit q => (W.role q).held.isEmpty
  | .accepted pl => match W.role pl.self with
    | .backend s => W.file.valid s.g
    | _ => true
  | .connect pl _ | .wake pl _ => pl.connects.all fun c => (W.sock c.1).all fun q =>
    match W.role q with
    | .backend s => s.phase ≠ .leaving
    | _ => true
  | _ => true

lemma orderly_act {d : Deed} (h : W.orderly d = true) : W.Orderly d.act := by
  cases d with
  | exit p onSig val => exact (Bool.or_eq_true _ _).mp h
  | _ => trivial

lemma refuses_of_test {pl : Plan} (h : (pl.connects.all fun c => (W.sock c.1).all fun q =>
    match W.role q with
    | .backend s => decide (s.phase ≠ .leaving)
    | _ => true) = true) : W.Refuses pl.env := by
  intro b q s hb hr hphase _
  cases hc : pl.connects with
  | none => simp [Plan.env, hc]
  | some c =>
    simp only [Plan.env, hc]
    split
    · subst b
      simp [hc, hb, hr, hphase] at h
    · exact Nat.zero_lt_succ 2

lemma patient_act {d : Deed} (h : W.patient d = true) : W.Patient d.act := by
  cases d with
  | quit q =>
    have hnil : (W.role q).held = [] := by simpa [patient] using h
    intro c hc
    simp [hnil] at hc
  | accepted pl =>
    intro s hr hv
    simp only [patient, show W.role pl.self = .backend s from hr] at h
    simp [hv] at h
  | connect pl | wake pl => exact fun _ => refuses_of_test h
  | _ => trivial

lemma orderly_patient (W : World) (d : Deed) (h : (W.orderly d && W.patient d) = true) :
    W.Orderly d.act ∧ W.Patient d.act := by
  rw [Bool.and_eq_true] at h
  exact ⟨orderly_act h.1, patient_act h.2⟩

/-- Backend 4 waits for a connection as long as it is to, and leaves; then frontend 2, which finds it
on the wait list, connects to it and is told of its end by parent 3. -/
def forsaken : List Deed := [
  .arrive 2, .connect { self := 2, spawn := .spawned 3 } true, .init { self := 3, fork := some 4 },
  .listen 4, .put { self := 4 }, .quit 4, .wake { self := 2, connects := some (4, 3) } false,
  .exit 4 false 0, .rouse 3 { delivered := false, usr1 := false },
  .iterate { self := 3 } [⟨4, false, 0⟩], .collect { self := 2 }]

/-- The frontend has collected exit status 0 of a run that there has not been. -/
theorem receipt_unran : ∃ W, Lib.Lts.ReachOk step init (fun W a => W.Fair a ∧ W.Orderly a) W ∧
    W.receipts = [(⟨2, 4⟩, false, 0)] ∧ W.ran ⟨2, 4⟩ = false := by
  obtain ⟨W, hW, h⟩ := exists_of_tested Orderly orderly (fun _ _ h => orderly_act h)
    (fun W => (W.receipts, W.ran ⟨2, 4⟩)) forsaken (x := ([(⟨2, 4⟩, false, 0)], false)) (by decide +kernel)
  exact ⟨W, hW, Prod.mk.inj h⟩

theorem ran_of_receipt_served : ∃ W : World, W.receipts = [(⟨2, 4⟩, false, 7)] ∧ W.ran ⟨2, 4⟩ = true := by
  obtain ⟨W, hW, h⟩ := exists_of_tested (fun W a => W.Orderly a ∧ W.Patient a)
    (fun W d => W.orderly d && W.patient d) orderly_patient (fun W => W.receipts)
    (served ++ [.collect { self := 2 }]) (x := [(⟨2, 4⟩, false, 7)]) (by decide +kernel)
  exact ⟨W, h, ran_of_receipt hW _ 7 (by rw [h]; simp)⟩

end World

end SpeedyCgi.TempFile
