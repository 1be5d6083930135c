import SpeedyCgi.TempFile.Loss

/-!
The slots that processes remember.

Between two sections a process knows its slots by number only, and the file may change as it likes.
The number stays right as long as the process will use it: nobody frees the slot or takes it for
something else, and no two processes have one slot. `file_close` removes the file when it has neither
groups nor running frontends, and nobody remembers a slot then.
-/

namespace SpeedyCgi.TempFile

open Function

variable {W W' : World} {A B : AFile} {w : Who} {e : Env} {a : Act} {p q : Pid} {g b f n : SlotNum}
  {s : St} {cs : List Child} {sv : Server} {c : Chain}

/-- The slot that a process has for itself, if it goes on to use it. -/
def Role.slot : Role → Option SlotNum
  | .queued _ f .. | .running f .. => some f
  | .parent g .. => some g
  | .backend s => if s.phase = .leaving then none else some s.b
  | _ => none

/-- The list that the slot is in. -/
def Role.chain : Role → Chain
  | .queued g .. => .fe g
  | .running .. => .feRun
  | .backend s => .be s.g
  | _ => .group

/-- The process that a slot of list `c` names. -/
def File.owner (F : File) (n : SlotNum) : Chain → Pid
  | .be _ => (F.be n).pid
  | .fe _ | .feRun => (F.fe n).pid
  | .group => (F.gr n).beParent
  | .script _ => 0

/-- `file_close`: no groups are left. -/
def File.removable (F : File) : Prop := F.head .group = 0 ∧ F.head .feRun = 0

instance (F : File) : Decidable F.removable := inferInstanceAs (Decidable (_ ∧ _))

namespace World

/-- The slot that a backend remembers is its slot. -/
def listed (W : World) (p : Pid) (s : Server) : Prop :=
  W.file.At s.b (.chain (.be s.g)) ∧ (W.file.be s.b).pid = p

/-- A backend in `backend_accept` whose slot has been freed, because somebody could not connect to it. -/
def dropped (W : World) (p : Pid) : Prop :=
  ∃ s, W.role p = .backend s ∧ s.phase = .waiting ∧ s.backlog.length < 3 ∧ ¬ W.listed p s

/-- Process `p` has slot `n` for itself, and may use it. -/
def owns (W : World) (p : Pid) (n : SlotNum) : Prop :=
  W.dead p = none ∧ (W.role p).slot = some n ∧ ¬ W.dropped p

lemma Inv.listed_iff (hi : W.Inv W.untold A) : W.listed p sv ↔ A.serves sv.g sv.b p := by
  rw [World.listed, hi.at_chain, hi.file_be]
  rfl

/-- A backend that does not leave has its slot, or else it waits for nothing. -/
lemma Inv.backendListed (hi : W.Inv W.untold A) (hr : W.role p = .backend sv) (hl : sv.phase ≠ .leaving) :
    A.serves sv.g sv.b p ∨ sv.phase = .waiting ∧ sv.backlog.length < 3 ∧ ¬ A.serves sv.g sv.b p := by
  have hfit := hi.fit p
  rw [hr] at hfit
  cases hphase : sv.phase with
  | leaving => exact absurd hphase hl
  | waiting =>
    simp only [Fit, Server.Fits, hphase] at hfit
    obtain ⟨-, ⟨hidle, -⟩ | ⟨hbusy, -⟩ | ⟨hno, hlt⟩⟩ := hfit
    · exact .inl hidle.serves
    · exact .inl hbusy.serves
    · exact .inr ⟨rfl, hlt, hno⟩
  | start | ready =>
    simp only [Fit, Server.Fits, hphase] at hfit
    exact .inl hfit.1
  | accepted | running | ran =>
    simp only [Fit, Server.Fits, hphase] at hfit
    exact .inl hfit.1.serves

/-- The slot of a process is in its list and names the process. -/
lemma Inv.owned (hi : W.Inv W.untold A) (h : W.owns p n) :
    A.own n = .chain (W.role p).chain ∧ W.file.owner n (W.role p).chain = p := by
  obtain ⟨hd, hn, hdrop⟩ := h
  have hfit := hi.fit p
  cases hr : W.role p with
  | queued g f want d stat since =>
    rw [hr] at hfit hn
    obtain rfl : f = n := Option.some.inj hn
    obtain ⟨-, hown, hpid⟩ := hfit.1.seat
    exact ⟨hown, by simpa [Role.chain, File.owner, hi.file_fe] using hpid⟩
  | running f b c =>
    rw [hr] at hfit hn
    obtain rfl : f = n := Option.some.inj hn
    obtain ⟨⟨-, hown, hpid⟩, -⟩ := hfit
    exact ⟨hown, by simpa [Role.chain, File.owner, hi.file_fe] using hpid⟩
  | parent g woken answered =>
    rw [hr] at hfit hn
    obtain rfl : g = n := Option.some.inj hn
    obtain ⟨hown, hpid⟩ := hfit hd
    exact ⟨hown, by simpa [Role.chain, File.owner, hi.file_gr] using hpid⟩
  | backend sv =>
    rw [hr] at hn
    by_cases hl : sv.phase = .leaving
    · simp [Role.slot, hl] at hn
    obtain rfl : sv.b = n := by simpa [Role.slot, hl] using hn
    obtain hserv | ⟨hphase, hlt, hno⟩ := hi.backendListed hr hl
    · exact ⟨hserv.1, by simpa [Role.chain, File.owner, hi.file_be] using hserv.2⟩
    · exact absurd ⟨sv, hr, hphase, hlt, mt hi.listed_iff.mp hno⟩ hdrop
  | absent | idle | born | done => simp [hr, Role.slot] at hn

/-- Without a section a backend that lives keeps its slot number, and does not begin to wait. -/
lemma server_of_quiet (h : W.step a = some W') (ha : a.env = none) (hr : W.role p = .backend sv)
    (hd : W.dead p = none) :
    W'.role p = .backend sv ∨ ∃ s', W'.role p = .backend s' ∧ s'.g = sv.g ∧ s'.b = sv.b ∧
      (s'.phase = .leaving ∨ s'.phase = .accepted ∧ 3 ≤ sv.backlog.length ∨ sv.phase ≠ .waiting) := by
  cases a with
  | arrive p' =>
    rw [step] at h
    split at h <;> cases h
    have hne : p ≠ p' := by rintro rfl; simp [hr] at *
    exact .inl (by simpa [hne] using hr)
  | rouse p' woken =>
    rw [step] at h
    split at h <;> try cases h
    split at h <;> cases h
    have hne : p ≠ p' := by rintro rfl; simp [hr] at *
    exact .inl (by simpa [hne] using hr)
  | listen p' | accept p' | quit p' | finish p' val =>
    rw [step] at h
    split at h <;> try cases h
    rename_i s₀ hr₀
    split at h <;> cases h
    rename_i hc
    rcases eq_or_ne p p' with rfl | hne
    · obtain rfl : sv = s₀ := by simpa [hr] using hr₀
      exact .inr ⟨_, update_self .., rfl, rfl, by simp [hc]⟩
    · exact .inl (by simpa [hne] using hr)
  | exit p' onSig val =>
    rw [step] at h
    split at h <;> cases h
    exact .inl hr
  | reap p' =>
    rw [step] at h
    split at h <;> cases h
    have hne : p ≠ p' := by rintro rfl; simp [hd] at *
    exact .inl (by simpa [bury, conclude, hne] using hr)
  | _ => cases ha

/-- A slot that a waiting backend has lost does not come back to it. -/
lemma Inv.dropped_step (hi : W.Inv W.untold A) (hf : W.Fair a) (h : W.step a = some W')
    (hd : W.dead p = none) (hp : W.dropped p) :
    W'.dropped p ∨ ∃ s, W'.role p = .backend s ∧ s.phase = .leaving := by
  obtain ⟨sv, hr, hphase, hlt, hno⟩ := hp
  have hserv : ¬ A.serves sv.g sv.b p := mt hi.listed_iff.mpr hno
  cases hi.moves hf h with
  | quiet ha hfile hlog hi' =>
    obtain hr' | ⟨s', hr', -, -, hleave | ⟨-, hback⟩ | hph⟩ := server_of_quiet h ha hr hd
    · exact .inl ⟨sv, hr', hphase, hlt, mt hi'.listed_iff.mp hserv⟩
    · exact .inr ⟨s', hr', hleave⟩
    · omega
    · exact absurd hphase hph
  | sect e cs w B W₀ due s r0 ro ha hsect =>
    by_cases hself : p = e.self
    · -- a backend that waits runs no section
      subst hself
      obtain ⟨ro', -, hb⟩ := becomes h ha
      cases hb <;> simp_all
    have hcs : ∀ c ∈ cs, c.pid ≠ p := by
      rintro c hc rfl
      have hdead := ((env_children h ha (List.ne_nil_of_mem hc)).2.2 c hc).2
      cases hd.symm.trans hdead
    have hr₀ : W₀.role p = .backend sv := (hsect.role hself).trans ((collect_of hcs).1.trans hr)
    have hhere : W₀.role p ≠ .absent := by simp [hr₀]
    have hr' := hsect.roleOther hself
    rw [hsect.turn.role hhere, hr₀, Role.receive] at hr'
    have hserv' : ¬ B.calm.serves sv.g sv.b p := hsect.turn.notServes hsect.inv₀ hhere hserv
    have hfit := hsect.inv.fit p
    rw [hr'] at hfit
    simp only [Fit, Server.Fits, hphase] at hfit
    obtain ⟨-, ⟨hidle, -⟩ | ⟨hbusy, -⟩ | ⟨-, hlt'⟩⟩ := hfit
    · exact absurd hidle.serves hserv'
    · exact absurd hbusy.serves hserv'
    · exact .inl ⟨_, hr', hphase, hlt', mt hsect.inv.listed_iff.mp hserv'⟩

/-- Without groups and running frontends all slots are free. -/
lemma Inv.allFree (hi : W.Inv W.untold A) (h : W.file.removable) (hn : A.own n ≠ .out) :
    A.own n = .free := by
  have hnil : ∀ c, W.file.head c = 0 → A.Usable c → A.lst c = [] := by
    intro c h0 hu
    obtain ⟨t, hl, -⟩ := hi.rep.chains c hu
    exact hl.head_eq_zero.mp h0
  have hgroup : ∀ g, A.own g ≠ .chain .group := by
    intro g hg
    rw [← hi.rep.mem, hnil .group h.1 Rep.usable_group] at hg
    cases hg
  cases hown : A.own n with
  | out => exact absurd hown hn
  | loose => exact absurd hown (hi.still n)
  | free => rfl
  | name g => exact absurd (hi.inv.housed.name n g hown) (hgroup g)
  | chain c =>
    cases c with
    | group => exact absurd hown (hgroup n)
    | feRun =>
      rw [← hi.rep.mem, hnil .feRun h.2 (by rintro _ ⟨⟩)] at hown
      cases hown
    | script g | be g | fe g => exact absurd (hi.inv.housed.chain n _ g hown rfl) (hgroup g)

/-- A slot that a process has for itself is in the right list and names the process, so that no other
process has it; a backend that has lost its slot while it waits will not use it; and once the file may
be removed, nobody has a slot and all of them are free. -/
theorem retained (h : Reachable W) :
    (∀ p n, W.owns p n → W.file.At n (.chain (W.role p).chain) ∧
      W.file.owner n (W.role p).chain = p) ∧
    (∀ p q n, W.owns p n → W.owns q n → p = q) ∧
    (∀ a W' p, W.Fair a → W.step a = some W' → W.dead p = none → W.dropped p →
      W'.dropped p ∨ ∃ s, W'.role p = .backend s ∧ s.phase = .leaving) ∧
    (W.file.removable → (∀ p n, ¬ W.owns p n) ∧
      ∀ n, n ≠ 0 ∧ n ≤ W.file.slotsAlloced → W.file.At n .free) := by
  obtain ⟨A, hi⟩ := h.inv
  refine ⟨fun p n hp => ?_, fun p q n hp hq => ?_, fun a W' p hf hst hd => hi.dropped_step hf hst hd,
    fun hrem => ⟨fun p n hp => ?_, fun n hn => ?_⟩⟩
  · obtain ⟨hown, hpid⟩ := hi.owned hp
    exact ⟨hi.at_chain.mpr hown, hpid⟩
  · obtain ⟨hown, hpid⟩ := hi.owned hp
    obtain ⟨hown', hpid'⟩ := hi.owned hq
    -- one slot is in one list
    have hc : (W.role p).chain = (W.role q).chain := Place.chain.inj (hown.symm.trans hown')
    rw [← hpid, ← hpid', hc]
  · obtain ⟨hown, -⟩ := hi.owned hp
    cases hown.symm.trans (hi.allFree hrem (by simp [hown]))
  · rw [hi.at_iff (by simp) (by simp)]
    have halloced : W.file.slotsAlloced = A.alloced := hi.rep.alloced
    exact hi.allFree hrem ((hi.rep.range n).mpr ⟨hn.1, halloced ▸ hn.2⟩)

/-- Frontend 2 runs on backend 4, whose parent is process 3: three slots for the three of them. -/
theorem retained_served : ∃ W : World, W.role 2 = .running 1 4 ⟨2, 4⟩ ∧
    W.file.At 1 (.chain .feRun) ∧ (W.file.fe 1).pid = 2 := by
  obtain ⟨W, hW, h⟩ := exists_of_play (fun W => (W.role 2, W.dead 2)) (served.take 6)
    (x := (.running 1 4 ⟨2, 4⟩, none)) (by decide +kernel)
  obtain ⟨hr, hd⟩ := Prod.mk.inj h
  have hdrop : ¬ W.dropped 2 := by
    rintro ⟨s, hs, -⟩
    cases hr.symm.trans hs
  have hown := (retained hW).1 2 1 ⟨hd, by rw [hr]; rfl, hdrop⟩
  rw [hr] at hown
  exact ⟨W, hr, hown⟩

end World

end SpeedyCgi.TempFile
