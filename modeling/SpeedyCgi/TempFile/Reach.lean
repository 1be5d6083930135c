import SpeedyCgi.TempFile.Sections

/-!
The invariant holds in every state that any run reaches.
-/

namespace SpeedyCgi.TempFile

open Function

variable {W W' : World} {A B : AFile} {w : Who} {e : Env} {a : Act} {p q : Pid} {g b f n : SlotNum}
  {cs : List Child}

/-- The layout of a file just created. -/
@[simps] def AFile.start : AFile :=
  { own := fun _ => .out, lst := fun _ => [], free := [], alloced := 0, scr := fun _ => {}
    be := fun _ => {}, fe := fun _ => {}, gr := fun _ => {}, grnm := fun _ => zeroName, log := [] }

lemma rep_start : Rep { file := .empty } .start where
  alloced := rfl
  scr := rfl
  be := rfl
  fe := rfl
  gr := rfl
  grnm := rfl
  log := rfl
  chains c _ := ⟨0, .nil, fun _ => rfl⟩
  freeList := rfl
  mem c n := by simp
  freeMem n := by simp
  freeNodup := List.nodup_nil
  range n := by
    simp only [AFile.start_own, AFile.start_alloced]
    simp
  selfPrev n hn := by simp at hn
  usable c n hn := by simp at hn
  name g n hn := by simp at hn

lemma ainv_start : AInv .start where
  paired := ⟨fun _ _ h => by simp at h, fun _ h => by simp at h⟩
  housed := ⟨fun _ _ _ h => by simp at h, fun _ _ h => by simp at h, fun _ h => by simp at h,
    fun _ h => by simp at h⟩
  signalled := ⟨fun _ _ h => by simp at h, fun _ h => by simp at h⟩
  found := ⟨List.Pairwise.nil, fun _ _ _ _ h => by simp at h, fun _ _ h => by simp at h,
    fun _ _ _ h => by simp at h, fun _ h => by simp at h, fun _ _ _ _ h => by simp at h⟩

namespace World

lemma inv_init : init.Inv init.untold .start where
  rep := rep_start
  inv := ainv_start
  still n := by simp
  ranked := ⟨fun _ => List.Pairwise.nil, fun _ _ _ _ h => by simp at h, fun _ _ h => by simp at h,
    fun _ _ h => by simp at h⟩
  fit q := trivial
  listed b g h := by simp at h
  heads g h := by simp at h
  sock b q h := by simp [init] at h
  line q q' g f f' x x' d d' st st' t t' h := by simp [init] at h
  books := ⟨rfl, fun _ _ => ⟨rfl, rfl, rfl⟩, fun _ _ h => by simp [init] at h, fun n => Nat.zero_lt_one,
    fun q c h => by simp [init, Role.held] at h, fun q q' c h => by simp [init, Role.held] at h,
    fun c x h => by simp [init] at h, fun r h => by simp [init] at h, List.nodup_nil⟩

end World

/-- The process that runs a section in a step, and the children it has waited for. -/
def Act.env : Act → Option (Env × List Child)
  | .connect e _ | .wake e _ | .collect e | .init e | .put e | .accepted e | .report e _ => some (e, [])
  | .iterate e cs => some (e, cs)
  | _ => none

/-- The same section in a part where no backend puts itself on the wait list. -/
@[simps] def Who.unput (w : Who) : Who := { w with puts := fun _ => False }

namespace World

/-- The step is one in which backend `b` puts itself on the wait list: it waits afterwards. -/
def Puts (W : World) (a : Act) (b : SlotNum) : Prop :=
  ∃ e s W' s', (a = .put e ∨ ∃ more, a = .report e more) ∧ W.role e.self = .backend s ∧ s.b = b ∧
    W.step a = some W' ∧ W'.role e.self = .backend s' ∧ s'.phase = .waiting

/-- What a process is that has run a section. -/
inductive Becomes (W W' : World) (e : Env) : Act → Role → Prop
  | connect (want didClean : Bool) (r : TempFile.Section) (s : St) (hr : W.role e.self = .idle didClean)
      (hd : W.dead e.self = none)
      (hm : frontendConnect e want didClean { file := W.file } = .ok (r, s)) :
      Becomes W W' e (.connect e want) (connected e want W.clock W.clock r)
  | wake (changed want d : Bool) (g f : SlotNum) (stat : Stat) (since : ℕ) (r : TempFile.Section) (s : St)
      (hr : W.role e.self = .queued g f want d stat since) (hd : W.dead e.self = none)
      (hm : frontendWake e want g f d changed { file := W.file } = .ok (r, s)) :
      Becomes W W' e (.wake e changed) (connected e want since W.clock r)
  | collect (f b : SlotNum) (c : Conn) (log : List Event) (ro : Role) (hr : W.role e.self = .running f b c)
      (hd : W.dead e.self = none) (hro : ro = W.roleAfter e.self log e.self ∨ ro = .idle true) :
      Becomes W W' e (.collect e) ro
  | init (r : Option SlotNum) (hr : W.role e.self = .born) (hd : W.dead e.self = none) :
      Becomes W W' e (.init e) (r.elim .done fun g => .parent g none false)
  | iterate (cs : List Child) (g : SlotNum) (woken : Woken) (answered ended : Bool)
      (hr : W.role e.self = .parent g (some woken) answered) (hd : W.dead e.self = none) :
      Becomes W W' e (.iterate e cs)
        (if ended = true then .done else .parent g none (answered || woken.delivered))
  | put (sv : Server) (ok : Bool) (hr : W.role e.self = .backend sv) (hd : W.dead e.self = none)
      (hphase : sv.phase = .ready) :
      Becomes W W' e (.put e) (.backend { sv with phase := if ok = true then .waiting else .leaving })
  | accepted (sv : Server) (ok : Bool) (s : St) (hr : W.role e.self = .backend sv)
      (hd : W.dead e.self = none) (hphase : sv.phase = .accepted)
      (hm : perlAccepted e sv.g { file := W.file } = .ok (ok, s))
      (hran : ok = true → ∀ c ∈ sv.taken.map Sock.conn, W'.ran c = true) :
      Becomes W W' e (.accepted e) (.backend { sv with phase := if ok = true then .running else .leaving })
  | report (more : Bool) (sv : Server) (val : ℕ) (ok : Bool) (hr : W.role e.self = .backend sv)
      (hd : W.dead e.self = none) (hphase : sv.phase = .ran val) :
      Becomes W W' e (.report e more)
        (.backend { sv with phase := if ok = true then .waiting else .leaving, taken := [] })

/-- Since when the process has been in a queue. -/
def since (W : World) (p : Pid) : ℕ :=
  match W.role p with
  | .queued _ _ _ _ _ since => since
  | _ => W.clock

/-- Who is neither new nor a backend after a section has been so before. -/
lemma roleAfter_eq {log : List Event} {r : Role} (h : W.roleAfter p log q = r) (hborn : r ≠ .born)
    (hback : ∀ sv, r ≠ .backend sv) : W.role q = r := by
  unfold roleAfter at h
  split at h
  · exact absurd h.symm hborn
  split at h
  · exact absurd h.symm (hback _)
  cases hr : W.role q with
  | backend sv =>
    rw [hr] at h
    exact absurd h.symm (hback _)
  | _ => rwa [hr] at h

lemma roleAfter_backend {log : List Event} {sv : Server} (h : W.roleAfter p log q = .backend sv) :
    (Role.backend sv).held = [] ∨ ∃ sv₀, W.role q = .backend sv₀ ∧
      sv = { sv₀ with backlog := sv₀.backlog ++ W.arrivals p log q } := by
  unfold roleAfter at h
  split at h
  · cases h
  split at h
  · cases h
    exact .inl rfl
  cases hr : W.role q with
  | backend sv₀ =>
    rw [hr] at h
    exact .inr ⟨sv₀, rfl, (Role.backend.inj h).symm⟩
  | _ => rw [hr] at h; cases h

lemma becomes (h : W.step a = some W') (ha : a.env = some (e, cs)) :
    ∃ ro, W'.role e.self = ro ∧ W.Becomes W' e a ro := by
  cases a with
  | iterate e' cs' =>
    obtain ⟨rfl, rfl⟩ : e' = e ∧ cs' = cs := by simpa [Act.env] using ha
    rw [step] at h
    split at h <;> try cases h
    rename_i hr
    split at h <;> try cases h
    rename_i hd
    obtain ⟨r, s, -, rfl⟩ := sect_some h
    exact ⟨_, update_self .., .iterate cs' _ _ _ r hr hd.1⟩
  | connect e' want =>
    obtain rfl : e' = e := congrArg Prod.fst (Option.some.inj ha)
    rw [step] at h
    split at h <;> try cases h
    rename_i hr
    split at h <;> try cases h
    rename_i hd
    obtain ⟨r, s, hm, rfl⟩ := sect_some h
    exact ⟨_, update_self .., .connect want _ r s hr hd hm⟩
  | wake e' changed =>
    obtain rfl : e' = e := congrArg Prod.fst (Option.some.inj ha)
    rw [step] at h
    split at h <;> try cases h
    rename_i hr
    split at h <;> try cases h
    rename_i hd
    obtain ⟨r, s, hm, rfl⟩ := sect_some h
    exact ⟨_, update_self .., .wake changed _ _ _ _ _ _ r s hr hd hm⟩
  | collect e' =>
    obtain rfl : e' = e := congrArg Prod.fst (Option.some.inj ha)
    rw [step] at h
    split at h <;> try cases h
    rename_i hr
    split at h <;> try cases h
    rename_i hd
    obtain ⟨r, s, -, rfl⟩ := sect_some h
    cases r with
    | none => exact ⟨_, rfl, .collect _ _ _ s.log _ hr hd (.inl rfl)⟩
    | some x => exact ⟨_, update_self .., .collect _ _ _ s.log _ hr hd (.inr rfl)⟩
  | init e' =>
    obtain rfl : e' = e := congrArg Prod.fst (Option.some.inj ha)
    rw [step] at h
    split at h <;> try cases h
    rename_i hr
    split at h <;> try cases h
    rename_i hd
    obtain ⟨r, s, -, rfl⟩ := sect_some h
    exact ⟨_, update_self .., .init r hr hd⟩
  | put e' =>
    obtain rfl : e' = e := congrArg Prod.fst (Option.some.inj ha)
    rw [step] at h
    split at h <;> try cases h
    rename_i sv hr
    split at h <;> try cases h
    rename_i hd
    obtain ⟨ok, s, -, rfl⟩ := sect_some h
    exact ⟨_, update_self .., .put sv ok hr hd.1 hd.2⟩
  | accepted e' =>
    obtain rfl : e' = e := congrArg Prod.fst (Option.some.inj ha)
    rw [step] at h
    split at h <;> try cases h
    rename_i sv hr
    split at h <;> try cases h
    rename_i hd
    obtain ⟨ok, s, hm, rfl⟩ := sect_some h
    cases ok with
    | true => exact ⟨_, update_self .., .accepted sv true s hr hd.1 hd.2 hm fun _ c hc => by
        simpa using .inr (List.mem_map.mp hc)⟩
    | false => exact ⟨_, update_self .., .accepted sv false s hr hd.1 hd.2 hm (by simp)⟩
  | report e' more =>
    obtain rfl : e' = e := congrArg Prod.fst (Option.some.inj ha)
    rw [step] at h
    split at h <;> try cases h
    rename_i sv hr
    split at h <;> try cases h
    rename_i val hv
    split at h <;> try cases h
    rename_i hd
    obtain ⟨ok, s, -, rfl⟩ := sect_some h
    exact ⟨_, update_self .., .report more sv val ok hr hd hv⟩
  | _ => cases ha

/-- What a process is after a step without a section. -/
inductive Rests (W W' : World) (q : Pid) : Act → Prop
  | same (a : Act) (hr : W'.role q = W.role q) (hd : W'.dead q = W.dead q) : Rests W W' q a
  | exit (onSig : Bool) (val : ℕ) (hr : W'.role q = W.role q) (hd : W'.dead q = some (onSig, val)) :
      Rests W W' q (.exit q onSig val)
  | other (a : Act) (hback : ∀ s, W'.role q ≠ .backend s) (hrun : ∀ f b c, W'.role q ≠ .running f b c) :
      Rests W W' q a
  | backend (a : Act) (s s' : Server) (hr : W.role q = .backend s) (hr' : W'.role q = .backend s')
      (hd : W'.dead q = none) (hheld : ∀ c, c ∈ (Role.backend s').held → c ∈ (Role.backend s).held)
      (hphase : s'.phase = .ready ∨ s'.phase = .accepted ∨ s'.phase = .leaving ∧ a = .quit q ∨
        s.phase = .running ∧ ∃ val, s'.phase = .ran val) : Rests W W' q a

lemma rests (h : W.step a = some W') (ha : a.env = none) (q : Pid) : W.Rests W' q a := by
  -- one process becomes something else
  have hsame : ∀ p r, W'.role = update W.role p r → W'.dead = W.dead →
      (q = p → W.Rests W' q a) → W.Rests W' q a := by
    intro p r hr hd hq
    rcases eq_or_ne q p with rfl | hne
    · exact hq rfl
    · exact .same a (by rw [hr, update_of_ne hne]) (by rw [hd])
  cases a with
  | arrive p =>
    rw [step] at h
    split at h <;> cases h
    refine hsame p _ rfl rfl ?_
    rintro rfl
    exact .other _ (by simp) (by simp)
  | rouse p woken =>
    rw [step] at h
    split at h <;> try cases h
    split at h <;> cases h
    refine hsame p _ rfl rfl ?_
    rintro rfl
    exact .other _ (by simp) (by simp)
  | listen p =>
    rw [step] at h
    split at h <;> try cases h
    rename_i s hr
    split at h <;> cases h
    rename_i hc
    refine hsame p _ rfl rfl ?_
    rintro rfl
    exact .backend _ s _ hr (update_self ..) hc.1 (fun _ => id) (.inl rfl)
  | accept p =>
    rw [step] at h
    split at h <;> try cases h
    rename_i s hr
    split at h <;> cases h
    rename_i hc
    refine hsame p _ rfl rfl ?_
    rintro rfl
    refine .backend _ s _ hr (update_self ..) hc.1 (fun c hc => ?_) (.inr (.inl rfl))
    obtain ⟨x, hx, rfl⟩ := List.mem_map.mp hc
    refine List.mem_map_of_mem (List.mem_append_left _ ?_)
    exact (List.mem_append.mp hx).elim List.mem_of_mem_drop List.mem_of_mem_take
  | quit p =>
    rw [step] at h
    split at h <;> try cases h
    rename_i s hr
    split at h <;> cases h
    rename_i hc
    refine hsame p _ rfl rfl ?_
    rintro rfl
    exact .backend _ s _ hr (update_self ..) hc.1 (fun _ => id) (.inr (.inr (.inl ⟨rfl, rfl⟩)))
  | finish p val =>
    rw [step] at h
    split at h <;> try cases h
    rename_i s hr
    split at h <;> cases h
    rename_i hc
    refine hsame p _ rfl rfl ?_
    rintro rfl
    exact .backend _ s _ hr (update_self ..) hc.1 (fun _ => id) (.inr (.inr (.inr ⟨hc.2, val, rfl⟩)))
  | exit p onSig val =>
    rw [step] at h
    split at h <;> cases h
    rcases eq_or_ne q p with rfl | hne
    · exact .exit onSig val rfl (update_self ..)
    · exact .same _ rfl (update_of_ne hne _ _)
  | reap p =>
    rw [step] at h
    split at h <;> cases h
    rcases eq_or_ne q p with rfl | hne
    · exact .other _ (by simp [bury]) (by simp [bury])
    · exact .same _ (by simp [bury, conclude, hne]) (by simp [bury, conclude, hne])
  | _ => cases ha

/-- A step leaves the file alone, or is a section that has followed the rules. -/
inductive Moves (W : World) (a : Act) (W' : World) (A : AFile) : Prop
  | quiet (ha : a.env = none) (hfile : W'.file = W.file) (hlog : W'.log = W.log)
      (h : W'.Inv W'.untold A)
  | sect (e : Env) (cs : List Child) (w : Who) (B : AFile) (W₀ : World) (due : Pid → End → Prop) (s : St)
      (r0 ro : Role) (ha : a.env = some (e, cs)) (h : W.Section e cs w A B W' W₀ due s r0 ro)
      (hmax : w.max = e.maxBackends)
      (hputs : ∀ b, w.puts b → (W'.file.be b).feRunning = b ∨ W.Puts a b)
      (hturn : ∀ g f b hd sig, w.tells (.assign g f b hd sig) →
        W.inTurn e.self (W.since e.self) (.assign g f b hd sig))
      (hcall : Called e w.unput A B)

/-- Signals are nothing the invariant is about, as long as only processes have them. -/
lemma Inv.withUsr1 {due : Pid → End → Prop} (hi : W.Inv due A) {usr1 : Pid → Bool}
    (h : ∀ q, W.role q = .absent → usr1 q = false) : ({ W with usr1 } : World).Inv due A where
  rep := hi.rep
  inv := hi.inv
  still := hi.still
  ranked := ⟨hi.ranked.lined, hi.ranked.distinct, hi.ranked.manned, hi.ranked.fledgling⟩
  fit := hi.fit
  listed := hi.listed
  heads := hi.heads
  sock := hi.sock
  line := hi.line
  books := { hi.books with
    clean := fun q hq => ⟨(hi.books.clean q hq).1, h q hq, (hi.books.clean q hq).2.2⟩ }

/-- A backend between its sections. -/
lemma Inv.quietBackend {s s' : Server} (hi : W.Inv W.untold A) (hp : W.role p = .backend s) (hg : s'.g = s.g)
    (hb : s'.b = s.b) (hheld : ∀ c, c ∈ (Role.backend s').held ↔ c ∈ (Role.backend s).held)
    (hfit : s'.Fits A p) :
    (W.setRole p (.backend s')).Inv (W.setRole p (.backend s')).untold A :=
  (hi.asBackend hp hg hb hheld hfit).untold_setRole (by simp [hp])

/-- A section in which nobody is connected. -/
lemma Section.sect {cs : List Child} {W₀ : World} {due : Pid → End → Prop} {s : St} {r0 ro : Role}
    (h : W.Section e cs w A B W' W₀ due s r0 ro) (ha : a.env = some (e, cs)) (hmax : w.max = e.maxBackends)
    (hputs : ∀ b, w.puts b → (W'.file.be b).feRunning = b ∨ W.Puts a b)
    (hno : ∀ ev, w.tells ev → ev.birth) : W.Moves a W' A :=
  .sect e cs w B W₀ due s r0 ro ha h hmax hputs (fun _ _ _ _ _ ht => (hno _ ht).elim)
    (.nobody (h.inv₀.noCalls h.turn.steps fun _ _ ht => hno _ ht)
      (h.inv₀.noneTaken h.turn.steps fun _ _ _ _ _ ht => hno _ ht))

lemma Section.role {cs : List Child} {W₀ : World} {due : Pid → End → Prop} {s : St} {r0 ro : Role}
    (h : W.Section e cs w A B W' W₀ due s r0 ro) (hq : q ≠ e.self) : W₀.role q = (W.collect cs).role q := by
  rw [h.before]
  exact update_of_ne hq _ _

lemma Section.roleSelf {W₀ : World} {due : Pid → End → Prop} {r0 ro : Role}
    (h : W.Section e cs w A B W' W₀ due s r0 ro) : W'.role e.self = ro := by
  rw [h.after]
  exact update_self ..

/-- A section of a backend that puts itself on the wait list, or does not get there. -/
lemma Section.serves {W₀ : World} {due : Pid → End → Prop} {s : St} {r0 : Role} {sv sv' : Server}
    {ran : ℕ → Prop} {stamp : SlotNum → ℕ}
    (h : W.Section e [] (W₀.serving e sv.b ran stamp) A B W' W₀ due s r0 (.backend sv'))
    (ha : a.env = some (e, [])) (hact : a = .put e ∨ ∃ more, a = .report e more)
    (hr : W.role e.self = .backend sv) (hs : W.step a = some W')
    (hout : (B.be sv.b).feRunning = sv.b ∨ sv'.phase = .waiting) : W.Moves a W' A := by
  refine h.sect ha rfl (fun b hb => ?_) fun _ => False.elim
  obtain rfl : b = sv.b := hb
  refine hout.imp (fun hout => ?_) fun hwait => ⟨e, sv, W', sv', hact, hr, rfl, hs, h.roleSelf, hwait⟩
  rwa [show W'.file.be = B.be from h.inv.rep.be]

lemma Section.log {W₀ : World} {due : Pid → End → Prop} {r0 ro : Role}
    (h : W.Section e cs w A B W' W₀ due s r0 ro) : W'.log = B.log := by
  rw [h.after]
  exact h.rep.log

lemma Section.roleOther {W₀ : World} {due : Pid → End → Prop} {r0 ro : Role}
    (h : W.Section e cs w A B W' W₀ due s r0 ro) (hp : p ≠ e.self) :
    W'.role p = W₀.roleAfter e.self B.log p := by
  rw [← show s.log = B.log from h.rep.log, h.after]
  exact update_of_ne hp _ _

/-- Who is there in a section is no child that has been waited for. -/
lemma Section.noChild {W₀ : World} {due : Pid → End → Prop} {r0 ro : Role}
    (h : W.Section e cs w A B W' W₀ due s r0 ro) (hp : p ≠ e.self) (h0 : W₀.role p ≠ .absent) :
    ∀ c ∈ cs, c.pid ≠ p := by
  rintro c hc rfl
  rw [h.role hp, collect_gone hc] at h0
  exact h0 rfl

lemma Section.role₀ {W₀ : World} {due : Pid → End → Prop} {r0 ro : Role}
    (h : W.Section e cs w A B W' W₀ due s r0 ro) (hp : p ≠ e.self) (h0 : W₀.role p ≠ .absent) :
    W₀.role p = W.role p :=
  (h.role hp).trans (collect_of (h.noChild hp h0)).1

lemma Section.dead₀ {W₀ : World} {due : Pid → End → Prop} {r0 ro : Role}
    (h : W.Section e cs w A B W' W₀ due s r0 ro) (hp : p ≠ e.self) (h0 : W₀.role p ≠ .absent) :
    W₀.dead p = W.dead p := by
  rw [← (collect_of (W := W) (h.noChild hp h0)).2.1, h.before]
  rfl

/-- A process that is neither new nor a backend has been the same before. -/
lemma Section.sameRole {W₀ : World} {due : Pid → End → Prop} {r0 ro r : Role}
    (h : W.Section e cs w A B W' W₀ due s r0 ro) (hp : p ≠ e.self) (hr : W'.role p = r) (h0 : r ≠ .absent)
    (hborn : r ≠ .born) (hback : ∀ sv, r ≠ .backend sv) : W₀.role p = r ∧ W.role p = r := by
  have hr₀ : W₀.role p = r := roleAfter_eq ((h.roleOther hp).symm.trans hr) hborn hback
  exact ⟨hr₀, (h.role₀ hp (by rwa [hr₀])).symm.trans hr₀⟩

/-- A backend is new, or has been one before. -/
lemma Section.backend {W₀ : World} {due : Pid → End → Prop} {r0 ro : Role} {sv : Server}
    (h : W.Section e cs w A B W' W₀ due s r0 ro) (hp : p ≠ e.self) (hr : W'.role p = .backend sv) :
    (Role.backend sv).held = [] ∨ ∃ sv₀, W.role p = .backend sv₀ ∧
      sv = { sv₀ with backlog := sv₀.backlog ++ W₀.arrivals e.self B.log p } := by
  rw [h.roleOther hp] at hr
  refine (roleAfter_backend hr).imp_right fun ⟨sv₀, hr₀, hsv⟩ => ⟨sv₀, ?_, hsv⟩
  exact (h.role₀ hp (by simp [hr₀])).symm.trans hr₀

/-- The others wait in the queue during a section. -/
lemma Section.inTurn {W₀ : World} {due : Pid → End → Prop} {s : St} {r0 ro : Role} {ev : Event} {t : ℕ}
    (h : W.Section e [] w A B W' W₀ due s r0 ro) (ht : W₀.inTurn e.self t ev) : W.inTurn e.self t ev := by
  cases ev with
  | assign g f b hd sig =>
    exact ht.imp_right fun ht q f' x d st t' hq hr => ht q f' x d st t' hq ((h.role hq).trans hr)
  | _ => exact ht

lemma Called.mono {w' : Who} (h : Called e w A B) (hle : w.Le w') : Called e w' A B := by
  cases h with
  | nobody hcalls hno => exact .nobody hcalls hno
  | one g b n C hs hlog hfresh hcalls htaken hle' hend =>
    exact .one g b n C (hs.mono hle) hlog hfresh hcalls htaken hle' hend

/-- A section of `speedy_frontend_connect`. -/
lemma Section.call {W₀ : World} {due : Pid → End → Prop} {s : St} {r0 ro : Role} {T : Event → Prop}
    {r : TempFile.Section} (h : W.Section e [] (W₀.asking e T).calling A B W' W₀ due s r0 ro)
    (hends : Ends e (W₀.asking e T) A r B) (ha : a.env = some (e, [])) (hno : ∀ b n, ¬ T (.connect b n))
    (hT : ∀ g f b hd sig, T (.assign g f b hd sig) →
      W.inTurn e.self (W.since e.self) (.assign g f b hd sig)) : W.Moves a W' A := by
  have hno' : ∀ b n, ¬ (W₀.asking e T).tells (.connect b n) := fun b n =>
    not_asking (hno b n) (by simp)
  refine .sect e [] _ B W₀ due s r0 ro ha h rfl (fun _ => False.elim) (fun g f b hd sig ht => ?_)
    ((Called.of_ends h.inv₀ hends hno').mono (Who.le_calling _))
  obtain (ht | ⟨q, -, ht⟩) | ⟨b', n, ht⟩ := ht
  · exact hT g f b hd sig ht
  · cases ht
  · cases ht

/-- Every step keeps the invariant. -/
theorem Inv.moves (hi : W.Inv W.untold A) (hf : W.Fair a) (h : W.step a = some W') :
    W.Moves a W' A := by
  cases a with
  | arrive p =>
    rw [step] at h
    split at h <;> cases h
    refine .quiet rfl rfl rfl ((hi.arrived hf).narrow fun g b q x hserv _ _ hd => ⟨?_, hd.2⟩)
    -- no slot names the new process
    have hne : q ≠ p := by
      rintro rfl
      exact (hi.not_named hf (AFile.live_of hserv.1)).1 hserv.2
    simpa [hne] using hd.1
  | connect e want =>
    have hs : W.since e.self = W.clock := by
      rw [step] at h
      split at h <;> try cases h
      simp [since, *]
    obtain ⟨B, W₀, due, s, r0, r, h, hends⟩ := hi.connect hf h
    exact h.call hends rfl (fun _ _ => id) fun g f b hd sig ht => hs ▸ h.inTurn ht
  | wake e changed =>
    obtain ⟨B, W₀, due, s, r0, r, want, g, f, since, ⟨d, st, hr⟩, h, hends⟩ := hi.wake hf h
    have hs : W.since e.self = since := by simp [World.since, hr]
    exact h.call hends rfl (fun _ _ => id) fun g f b hd sig ht => hs ▸ h.inTurn ht
  | collect e =>
    obtain ⟨B, W₀, due, s, r0, ro, h⟩ := hi.collect hf h
    refine h.sect rfl rfl (fun _ => False.elim) fun ev hev => ?_
    obtain ⟨q, -, rfl⟩ := hev.resolve_left id
    trivial
  | init e =>
    obtain ⟨B, W₀, due, s, r0, ro, h, -⟩ := hi.init hf h
    refine h.sect rfl rfl (fun _ => False.elim) fun ev hev => ?_
    obtain ⟨q, g, b, -, rfl⟩ := hev
    trivial
  | iterate e cs =>
    obtain ⟨g, woken, answered, B, W₀, due, s, r0, ro, -, h, -, -⟩ := hi.iterate hf h
    refine h.sect rfl rfl (fun _ => False.elim) fun ev hev => ?_
    obtain ⟨q, g, b, -, rfl⟩ := hev
    trivial
  | put e =>
    obtain ⟨sv, B, W₀, due, s, r0, sv', hr, hsect, hout⟩ := hi.put hf h
    exact hsect.serves rfl (.inl rfl) hr h hout
  | accepted e =>
    obtain ⟨sv, B, W₀, due, s, r0, ro, hr, -, h⟩ := hi.accepted hf h
    exact h.sect rfl rfl (fun _ => False.elim) fun _ => False.elim
  | report e more =>
    obtain ⟨sv, val, B, W₀, due, s, r0, sv', hr, -, hsect, hout⟩ := hi.report hf h
    exact hsect.serves rfl (.inr ⟨more, rfl⟩) hr h hout
  | rouse p woken =>
    rw [step] at h
    split at h <;> try cases h
    rename_i g answered hr
    split at h <;> cases h
    have hfit := hi.fit p
    rw [hr] at hfit
    have hi' := hi.asParent (p := p) (by simp [hr, Role.leads])
      (show (Role.parent g (some woken) (answered && !woken.delivered)).leads from trivial) hfit
      fun q s hq hs => by
        obtain ⟨-, s', hs', ⟨_, _, h⟩ | h⟩ := hi.books.kin q p hq
        · rw [hs] at hs'
          cases hs'
          rw [hr] at h
          cases h
          exact .inl ⟨_, _, rfl⟩
        · simp [hr] at h
    refine .quiet rfl rfl rfl ((hi'.untold_setRole (by simp [hr])).withUsr1 fun q hq => ?_)
    have hne : q ≠ p := by
      rintro rfl
      simp at hq
    have := (hi.books.clean q (by simpa [hne] using hq)).2.1
    simpa [hne] using this
  | listen p =>
    rw [step] at h
    split at h <;> try cases h
    rename_i s hr
    split at h <;> cases h
    rename_i hc
    exact .quiet rfl rfl rfl ((hi.listened hr hc.1 hc.2).mono fun q x hd => hd.setRole (by simp [hr]))
  | accept p =>
    rw [step] at h
    split at h <;> try cases h
    rename_i s hr
    split at h <;> cases h
    rename_i hc
    obtain ⟨-, hphase, hlen⟩ := hc
    have hfit := hi.fit p
    rw [hr] at hfit
    simp only [Fit, Server.Fits, hphase] at hfit
    obtain ⟨htaken, ⟨-, hnil⟩ | ⟨hbusy, c, hc⟩ | ⟨-, hlt⟩⟩ := hfit
    · simp [hnil] at hlen
    · have hdrop : s.backlog.drop 3 = [] := by rw [hc]; rfl
      have htake : s.backlog.take 3 = s.backlog := by rw [hc]; rfl
      refine .quiet rfl rfl rfl (hi.quietBackend hr rfl rfl (fun c' => ?_) ?_)
      · simp [Role.held, htaken, hdrop, htake]
      · exact ⟨⟨hbusy.serves, hbusy.run, hbusy.mature⟩, hdrop, c, htake.trans hc⟩
    · exact absurd hlen (Nat.not_le_of_lt hlt)
  | quit p =>
    rw [step] at h
    split at h <;> try cases h
    rename_i s hr
    split at h <;> cases h
    have hfit : ({ s with phase := .leaving } : Server).Fits A p := trivial
    exact .quiet rfl rfl rfl (hi.quietBackend hr rfl rfl (fun _ => Iff.rfl) hfit)
  | finish p val =>
    rw [step] at h
    split at h <;> try cases h
    rename_i s hr
    split at h <;> cases h
    rename_i hc
    have hfit := hi.fit p
    rw [hr] at hfit
    simp only [Fit, Server.Fits, hc.2] at hfit
    obtain ⟨⟨h1, h2, h3⟩, hfit⟩ := hfit
    have hfit' : ({ s with phase := .ran val } : Server).Fits A p := ⟨⟨h1, h2, h3⟩, hfit⟩
    exact .quiet rfl rfl rfl (hi.quietBackend hr rfl rfl (fun _ => Iff.rfl) hfit')
  | exit p onSig val =>
    rw [step] at h
    split at h <;> cases h
    rename_i hr
    exact .quiet rfl rfl rfl (hi.exited hr _)
  | reap p =>
    rw [step] at h
    split at h <;> cases h
    rename_i x hd hp
    refine .quiet rfl rfl rfl (hi.buried (by simp [hd]) (fun q y hy => ⟨?_, hy.2⟩) fun _ => ⟨?_, x.1, x.2, rfl⟩)
    · simp only [bury, conclude, update_apply]
      split
      · rfl
      · exact hy.1
    · simp [bury]

/-- The states that any run reaches. -/
theorem Reachable.inv (h : Reachable W) : ∃ A, W.Inv W.untold A := by
  refine Lib.Lts.ReachOk.inv (P := fun W => ∃ A, W.Inv W.untold A) ⟨_, inv_init⟩ ?_ h
  intro W a W' _ ⟨A, hi⟩ hok hs
  cases hi.moves hok hs with
  | quiet ha hfile hlog h => exact ⟨A, h⟩
  | sect e cs w B W₀ due s r0 ro ha h => exact ⟨_, h.inv⟩

end World

end SpeedyCgi.TempFile
