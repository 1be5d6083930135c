import SpeedyCgi.TempFile.Limits

/-!
How a backend parent answers a request for a backend.

A frontend that wants another backend lists the parent as starting and signals it. The parent then
lists its new child instead, or nobody. It leaves itself listed if it finds that the group has as many
backends as it may have, or if it does not find the signal.
-/

namespace SpeedyCgi.TempFile

open Function Lib.Dll

variable {W W' : World} {A B : AFile} {w : Who} {e : Env} {a : Act} {p q : Pid} {g b f n : SlotNum}
  {s : St} {cs : List Child}

/-- The backends left once the parent has removed its children that have died. -/
lemma collected_eq_filter {pid : SlotNum → Pid} {l : List SlotNum}
    (hinj : ∀ b ∈ l, ∀ b' ∈ l, pid b = pid b' → pid b ∈ cs.map Child.pid → b = b') (hnd : l.Nodup) :
    collected pid l cs = l.filter fun b => pid b ∉ cs.map Child.pid := by
  induction cs generalizing l with
  | nil => simp [collected]
  | cons c cs ih =>
    -- the first one with the pid of the child is the only one
    have hone : l.eraseP (fun b => pid b = c.pid) = l.filter fun b => pid b ≠ c.pid := by
      have hmem : ∀ b ∈ l, ∀ b' ∈ l, pid b = c.pid → pid b' = c.pid → b = b' :=
        fun b hb b' hb' h h' => hinj b hb b' hb' (h.trans h'.symm) (by simp [h])
      clear ih hinj
      induction l with
      | nil => rfl
      | cons x l ihl =>
        rw [List.nodup_cons] at hnd
        by_cases hx : pid x = c.pid
        · have hno : ∀ b ∈ l, pid b ≠ c.pid := by
            rintro b hb hpid
            obtain rfl := hmem b (List.mem_cons_of_mem _ hb) x List.mem_cons_self hpid hx
            exact hnd.1 hb
          rw [List.eraseP_cons_of_pos (by simpa using hx), List.filter_cons_of_neg (by simpa using hx)]
          exact (List.filter_eq_self.mpr fun b hb => by simpa using hno b hb).symm
        · rw [List.eraseP_cons_of_neg (by simpa using hx), List.filter_cons_of_pos (by simpa using hx),
            ihl hnd.2 fun b hb b' hb' => hmem b (List.mem_cons_of_mem _ hb) b' (List.mem_cons_of_mem _ hb')]
    have hsub : ∀ b ∈ l.filter (fun b => pid b ≠ c.pid), b ∈ l := fun b hb => List.mem_of_mem_filter hb
    rw [show collected pid l (c :: cs) = collected pid (l.eraseP fun b => pid b = c.pid) cs from rfl, hone,
      ih (fun b hb b' hb' h hm => hinj b (hsub b hb) b' (hsub b' hb') h (List.mem_cons_of_mem _ hm))
        (hnd.filter _), List.filter_filter]
    refine List.filter_congr fun b _ => ?_
    by_cases hx : pid b = c.pid <;> simp [hx]

namespace World

/-- Parent `p` is asked for a backend, and is not signalled. -/
structure Asked (W : World) (p : Pid) (g : SlotNum) : Prop where
  runs : W.dead p = none
  valid : W.file.valid g
  starting : (W.file.gr g).beStarting = p
  silent : W.usr1 p = false

/-- A parent that is asked for a backend notices it and has room for one: if it has been signalled and
is listed as starting, it finds the signal, and its group has fewer backends than it may have. -/
def Roomy (W : World) : Act → Prop
  | .iterate e cs => ∀ g woken answered l, W.role e.self = .parent g (some woken) answered →
      woken.delivered = true → W.file.valid g → (W.file.gr g).beStarting = e.self →
        W.file.Holds (.be g) l → woken.usr1 = true ∧ (e.maxBackends = 0 ∨
          (l.filter fun b => (W.file.be b).pid ∉ cs.map Child.pid).length < e.maxBackends)
  | _ => True

/-- A parent in its loop has not been asked, or it has not answered yet. -/
def Answering (W : World) : Prop := ∀ p g woken answered, W.role p = .parent g woken answered →
  W.Asked p g → answered = false ∨ ∃ x, woken = some x ∧ x.delivered = true

lemma Section.usr1 {W₀ : World} {due : Pid → End → Prop} {r0 ro : Role}
    (h : W.Section e cs w A B W' W₀ due s r0 ro) (hcs : ∀ c ∈ cs, c.pid ≠ p) : W'.usr1 p =
      (W.usr1 p || decide (.kill p .usr1 true ∈ B.log ∧ W₀.roleAfter e.self B.log p ≠ .absent)) := by
  have hu : W₀.usr1 p = W.usr1 p := by
    rw [← (collect_of (W := W) hcs).2.2.2, h.before]
    rfl
  rw [h.after, ← hu, ← show s.log = B.log from h.rep.log]
  rfl

/-- Nobody asks a parent without a signal. -/
lemma Section.asked {W₀ : World} {due : Pid → End → Prop} {r0 ro : Role} {woken : Option Woken}
    {answered : Bool} (h : W.Section e cs w A B W' W₀ due s r0 ro) (hi : W.Inv W.untold A)
    (hp : p ≠ e.self) (hr : W'.role p = .parent g woken answered) (ha : W'.Asked p g) :
    W.role p = .parent g woken answered ∧ W.Asked p g := by
  obtain ⟨hr₀, hrW⟩ := h.sameRole hp hr (by simp) (by simp) (by simp)
  have hhere : W₀.role p ≠ .absent := by simp [hr₀]
  have hlive : w.live p := (h.turn.live p).mpr hhere
  have h0 : p ≠ 0 := fun h0 => hhere (h0 ▸ h.inv₀.books.zero)
  have hboss : ¬ w.boss p := fun hb => hp (h.turn.boss p hb)
  have hlog : s.log = B.log := h.rep.log
  obtain ⟨hrun, hval, hst, husr1⟩ := ha
  -- it has neither died nor been signalled in the section
  have hdead : W₀.dead p = none ∧ .kill p .kill true ∉ B.log := by
    rw [h.after] at hrun
    exact (h.turn.after_dead hlog hhere).mp hrun
  have hsig : W.usr1 p = false ∧ .kill p .usr1 true ∉ B.log := by
    have hafter : W₀.roleAfter e.self B.log p ≠ .absent := by
      rw [h.turn.role hhere]
      exact receive_ne_absent.mpr hhere
    rw [h.usr1 (h.noChild hp hhere)] at husr1
    simpa [hafter] using husr1
  have hd : W.dead p = none := (h.dead₀ hp hhere).symm.trans hdead.1
  have hfit := hi.fit p
  rw [hrW] at hfit
  obtain ⟨hg, hgp⟩ := hfit hd
  obtain ⟨hgB, -⟩ := h.turn.steps.leads hi.rep.wf hi.inv hlive h0 hboss hdead.2 hg hgp
  have hnobe : A.noBe p := by
    intro b g' hb hpid
    obtain ⟨sv, hsv, -⟩ := hi.listed b g' hb (by simp [hpid, hrW])
    rw [hpid, hrW] at hsv
    cases hsv
  rw [h.inv.file_gr] at hst
  have hstA := ((h.turn.steps.starting hi.rep.wf hi.inv h0 hnobe hboss hsig.2 (h.turn.noSpawn hhere)
    fun g b => forked_none (h.turn.noFork hhere)).2 g hgB hst).2
  rw [h.inv.valid_iff hgB] at hval
  have hvalA := h.turn.steps.valid hi.rep.wf hi.inv hlive h0 hboss hdead.2 hg hgp hval
  exact ⟨hrW, hd, (hi.valid_iff hg).mpr hvalA, by rwa [hi.file_gr], hsig.1⟩

/-- Only the sections of parents make parents. -/
lemma parent_step {woken : Option Woken} {answered : Bool} (h : W.step a = some W')
    (ha : a.env = some (e, cs)) (hr : W'.role e.self = .parent g woken answered) :
    answered = false ∨ a = .iterate e cs := by
  obtain ⟨ro, hro, hb⟩ := becomes h ha
  rw [hr] at hro
  cases hb with
  | connect want didClean r | wake changed want d g f stat since r => cases r <;> cases hro
  | collect f b c log ro hrun hd hro' =>
    subst hro
    obtain hro' | hro' := hro'
    · cases hrun.symm.trans (roleAfter_eq hro'.symm (by simp) (by simp))
    · cases hro'
  | init r =>
    cases r <;> cases hro
    exact .inl rfl
  | iterate cs' =>
    obtain rfl : cs' = cs := by simpa [Act.env] using ha
    exact .inr rfl
  | put | accepted | report => cases hro

/-- A parent that has been asked finds the signal, and has fewer backends left than it may have. -/
lemma Inv.room {woken : Woken} {answered : Bool} (hi : W.Inv W.untold A) (hroom : W.Roomy (.iterate e cs))
    (hcs : W.children e.self cs) (hr : W.role e.self = .parent g (some woken) answered)
    (hdel : woken.delivered = true) (hd : W.dead e.self = none) (hv : A.valid g)
    (hst : (A.gr g).beStarting = e.self) : woken.usr1 = true ∧
    below e.maxBackends (TempFile.collected (fun b => (A.be b).pid) (A.lst (.be g)) cs).length = true := by
  have hfit := hi.fit e.self
  rw [hr] at hfit
  obtain ⟨hg, -⟩ := hfit hd
  have hu : A.Usable (.be g) := by
    rintro _ ⟨⟩
    exact AFile.live_of hg
  obtain ⟨hfound, hless⟩ := hroom g woken answered (A.lst (.be g)) hr hdel ((hi.valid_iff hg).mpr hv)
    (by rwa [hi.file_gr]) (hi.rep.holds_lst hu)
  refine ⟨hfound, ?_⟩
  rw [below, decide_eq_true_eq, collected_eq_filter (fun b hb b' hb' heq hm => ?_) (hi.rep.wf.nodup _)]
  · rwa [hi.file_be] at hless
  · obtain ⟨c, hc, hpid⟩ := List.mem_map.mp hm
    refine hi.ranked.distinct b b' g g ((hi.rep.wf.mem _ b).mp hb) ((hi.rep.wf.mem _ b').mp hb') heq ?_
    rw [← hpid]
    intro h0
    obtain ⟨-, sv, hsv, -⟩ := hi.offspring hr hcs hc
    rw [h0, hi.books.zero] at hsv
    cases hsv

lemma iterate_cond (h : W.step (.iterate e cs) = some W') :
    (W.role e.self).leads ∧ W.dead e.self = none ∧ W.children e.self cs := by
  rw [step] at h
  split at h <;> try cases h
  rename_i hr
  split at h <;> try cases h
  rename_i hcond
  exact ⟨by simp [hr, Role.leads], hcond⟩

/-- A step in which a parent that is asked notices it and has room keeps this. -/
lemma Inv.answering (hi : W.Inv W.untold A) (hf : W.Fair a) (hroom : W.Roomy a) (h : W.step a = some W')
    (ih : W.Answering) : W'.Answering := by
  intro p g woken answered hr hasked
  cases hi.moves hf h with
  | quiet ha hfile hlog hi' =>
    have hback : (W'.dead p = none → W.dead p = none) → (W'.usr1 p = false → W.usr1 p = false) →
        W.Asked p g := fun hdead husr1 =>
      ⟨hdead hasked.runs, hfile ▸ hasked.valid, hfile ▸ hasked.starting, husr1 hasked.silent⟩
    cases a with
    | rouse p' x =>
      rw [step] at h
      split at h <;> try cases h
      rename_i g' ans hr'
      split at h <;> cases h
      rcases eq_or_ne p p' with rfl | hne
      · obtain ⟨rfl, rfl, rfl⟩ : g' = g ∧ some x = woken ∧ (ans && !x.delivered) = answered := by
          simpa using hr
        cases hdel : x.delivered with
        | true => exact .inr ⟨x, rfl, hdel⟩
        | false =>
          have hu : W.usr1 p = false := by simpa [hdel] using hasked.silent
          refine (ih p g' none ans hr' (hback id fun _ => hu)).imp (fun h => by simp [h]) ?_
          rintro ⟨_, h, -⟩
          cases h
      · refine ih p g woken answered (by simpa [hne] using hr) (hback id fun h => ?_)
        simpa [hne] using h
    | arrive p' =>
      rw [step] at h
      split at h <;> cases h
      have hr : update W.role p' (.idle false) p = .parent g woken answered := hr
      rcases eq_or_ne p p' with rfl | hne
      · simp at hr
      · exact ih p g woken answered (by simpa [hne] using hr) (hback id id)
    | listen p' | accept p' | quit p' | finish p' =>
      rw [step] at h
      split at h <;> try cases h
      split at h <;> cases h
      rcases eq_or_ne p p' with rfl | hne
      · simp at hr
      · exact ih p g woken answered (by simpa [hne] using hr) (hback id id)
    | exit p' onSig val =>
      rw [step] at h
      split at h <;> cases h
      refine ih p g woken answered hr (hback (fun h => ?_) id)
      rcases eq_or_ne p p' with rfl | hne
      · simp at h
      · simpa [hne] using h
    | reap p' =>
      rw [step] at h
      split at h <;> cases h
      have hne : p ≠ p' := by
        rintro rfl
        simp [bury] at hr
      refine ih p g woken answered (by simpa [bury, conclude, hne] using hr) (hback ?_ ?_) <;>
        simp [bury, conclude, hne]
    | _ => cases ha
  | sect e cs w B W₀ due s r0 ro ha hsect =>
    by_cases hp : p = e.self
    swap
    · obtain ⟨hr, hasked⟩ := hsect.asked hi hp hr hasked
      exact ih p g woken answered hr hasked
    subst hp
    obtain hans | rfl := parent_step h ha hr
    · exact .inl hans
    obtain ⟨g', x, ans, B', W₁, due', s', r1, ro', hrW', hsect', -, hend⟩ := hi.iterate hf h
    obtain rfl | ⟨rfl, hwait⟩ := hend
    · have := hsect'.roleSelf
      rw [hr] at this
      cases this
    obtain ⟨rfl, rfl, rfl⟩ : g = g' ∧ woken = none ∧ answered = (ans || x.delivered) := by
      simpa using hr.symm.trans hsect'.roleSelf
    obtain ⟨hrun, hval, hst, husr1⟩ := hasked
    rw [hsect'.inv.file_gr] at hst
    rw [hsect'.inv.valid_iff hwait.own] at hval
    obtain ⟨hstA, hbelow⟩ := hwait.starting hst
    have hvA := hwait.valid hval
    obtain ⟨-, hd, hcs⟩ := iterate_cond h
    cases hdel : x.delivered with
    | true =>
      obtain ⟨hfound, hless⟩ := hi.room hroom hcs hrW' hdel hd hvA hstA
      rw [hbelow hfound hvA] at hless
      cases hless
    | false =>
      rw [Bool.or_false]
      have hfit := hi.fit e.self
      rw [hrW'] at hfit
      rw [hsect'.usr1 fun c hc => (hi.offspring hrW' hcs hc).1, Bool.or_eq_false_iff] at husr1
      refine (ih e.self _ _ _ hrW' ⟨hd, (hi.valid_iff (hfit hd).1).mpr hvA, ?_, husr1.1⟩).imp_right ?_
      · rw [hi.file_gr, hstA]
      · rintro ⟨y, hy, hdel'⟩
        obtain rfl : x = y := by simpa using hy
        rw [hdel] at hdel'
        cases hdel'

/-- In a run in which each parent that is asked notices it and has room, a parent that has answered its
last signal and waits for the next is not listed as starting. -/
theorem discharged (h : Lib.Lts.ReachOk step init (fun W a => W.Fair a ∧ W.Roomy a) W) :
    ∀ p g, W.role p = .parent g none true → W.dead p = none → W.file.valid g → W.usr1 p = false →
      (W.file.gr g).beStarting ≠ p := by
  have hans : W.Answering := by
    refine Lib.Lts.ReachOk.inv (P := Answering) (fun p g _ _ hr => by cases hr) ?_ h
    intro W a W' hW ih hok hs
    obtain ⟨A, hi⟩ := Reachable.inv (hW.mono fun _ _ h => h.1)
    exact hi.answering hok.1 hok.2 hs ih
  intro p g hr hd hv hu hst
  obtain h | ⟨_, h, -⟩ := hans p g none true hr ⟨hd, hv, hst, hu⟩ <;> cases h

/-- Frontend 2 is served by backend 4 of parent 3, where `m` is its `MaxBackends` and `n` that of the
frontends; then frontend 5 asks for another backend. -/
def another (m n : ℕ) : List Deed := [
  .arrive 2, .connect { self := 2, maxBackends := n, spawn := .spawned 3 } true,
  .init { self := 3, maxBackends := m, fork := some 4 }, .listen 4, .put { self := 4 },
  .wake { self := 2, maxBackends := n, connects := some (4, 3) } false, .accept 4, .accepted { self := 4 },
  .arrive 5, .connect { self := 5, maxBackends := n } true]

/-- Parent 3 does a round of its loop. -/
def round (m : ℕ) (woken : Woken) (cs : List Child) : List Deed :=
  [.rouse 3 woken, .iterate { self := 3, maxBackends := m, fork := some 6 } cs]

/-- Enough for a deed to be roomy. -/
def roomy (W : World) : Deed → Bool
  | .iterate pl _ => pl.maxBackends = 0 && match W.role pl.self with
    | .parent _ (some woken) _ => woken.usr1 || !woken.delivered
    | _ => true
  | _ => true

lemma roomy_act {d : Deed} (h : W.roomy d = true) : W.Roomy d.act := by
  cases d with
  | iterate pl cs =>
    intro g woken answered l hr hdel _ _ _
    obtain ⟨hmax, hfound⟩ := (Bool.and_eq_true _ _).mp h
    rw [show W.role pl.self = .parent g (some woken) answered from hr] at hfound
    exact ⟨by simpa [hdel] using hfound, .inl (of_decide_eq_true hmax)⟩
  | _ => trivial

theorem discharged_unlimited : ∃ W : World, W.role 3 = .parent 2 none true ∧ W.dead 3 = none ∧
    W.file.valid 2 ∧ W.usr1 3 = false ∧ (W.file.gr 2).beStarting ≠ 3 := by
  obtain ⟨W, hW, h⟩ := exists_of_tested Roomy roomy (fun _ _ h => roomy_act h)
    (fun W => (W.role 3, W.dead 3, W.usr1 3, decide (W.file.valid 2)))
    (another 0 0 ++ round 0 { delivered := true, usr1 := true } [])
    (x := (.parent 2 none true, none, false, true)) (by decide +kernel)
  simp only [Prod.mk.injEq, decide_eq_true_eq] at h
  obtain ⟨hr, hd, hu, hv⟩ := h
  exact ⟨W, hr, hd, hv, hu, discharged hW 3 2 hr hd hv hu⟩

/-- A parent that finds that the group has as many backends as it may have stays listed as starting. -/
theorem discharged_full : ∃ W : World, Reachable W ∧ W.role 3 = .parent 2 none true ∧ W.dead 3 = none ∧
    W.file.valid 2 ∧ W.usr1 3 = false ∧ (W.file.gr 2).beStarting = 3 := by
  obtain ⟨W, hW, h⟩ := exists_of_play (fun W => (W.role 3, W.dead 3, decide (W.file.valid 2), W.usr1 3,
    (W.file.gr 2).beStarting)) (another 1 2 ++ round 1 { delivered := true, usr1 := true } [])
    (x := (.parent 2 none true, none, true, false, 3)) (by decide +kernel)
  simp only [Prod.mk.injEq, decide_eq_true_eq] at h
  exact ⟨W, hW, h⟩

/-- So does one whose backend ends when it is asked, if the `SIGCHLD` hides the `SIGUSR1`. The group has
no backend left then. -/
theorem discharged_lost : ∃ W : World, Reachable W ∧ W.role 3 = .parent 2 none true ∧ W.dead 3 = none ∧
    W.file.valid 2 ∧ W.usr1 3 = false ∧ (W.file.gr 2).beStarting = 3 ∧ W.file.head (.be 2) = 0 := by
  obtain ⟨W, hW, h⟩ := exists_of_play (fun W => (W.role 3, decide (W.dead 3 = none ∧ W.file.valid 2 ∧
      W.usr1 3 = false ∧ (W.file.gr 2).beStarting = 3 ∧ W.file.head (.be 2) = 0)))
    (another 0 0 ++ [.exit 4 true 9] ++ round 0 { delivered := true, usr1 := false } [⟨4, true, 9⟩])
    (x := (.parent 2 none true, true)) (by decide +kernel)
  simp only [Prod.mk.injEq, decide_eq_true_eq] at h
  exact ⟨W, hW, h⟩

end World

end SpeedyCgi.TempFile
