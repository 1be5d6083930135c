import SpeedyCgi.TempFile.Delivery

/-!
How many backends a group has.

Only the backend parents of a group start backends for it, each in its own section, and none while
another process is starting one. As long as the parents of a group agree about `MaxBackends`, the
group has no more backends than that, whoever asks for more.
-/

namespace SpeedyCgi.TempFile

open Function

variable {W W' : World} {A B : AFile} {w : Who} {e : Env} {a : Act} {p q : Pid} {g b f n : SlotNum}
  {s : St} {cs : List Child} {L : ℕ} {M M' : SlotNum → ℕ}

/-- A slot that has been freed in a section may have come into use again, but not by the same rule. -/
lemma Rule.freed (hr : Rule w A B) (hw : A.Wf) (h : .free n ∈ B.log) :
    .free n ∈ A.log ∨ B.own n = .free := by
  obtain hr | hr := hr
  · cases hr with
    | note ev hev =>
      simp only [AFile.note_log, List.mem_cons] at h
      obtain rfl | h := h
      · simp [Event.quiet, Event.loud] at hev
      · exact .inl h
    | feDrop f | feDispose g f | feDone f | feGone f b | beDispose g b =>
      simp at h ⊢
      grind
    | _ => exact .inl (by simpa using h)
  · cases hr with
    | invalidate g evs hg hv hevs =>
      have h : .free n ∈ evs ∨ .free n ∈ (A.clear g).log := by simpa using h
      obtain ⟨p, ok, h⟩ | h := h.imp_left (hevs _)
      · cases h
      rw [AFile.mem_clear_log] at h
      refine h.imp_right fun h => ?_
      rw [AFile.reorder_own, AFile.notes_own, A.clear_own g hw, if_pos]
      obtain ⟨m, hm, h⟩ | ⟨h0, h⟩ := h
      · obtain rfl : n = m := by simpa using h
        exact .inl ((hw.mem _ n).mp hm)
      · exact .inr ⟨h0, by simpa using h⟩
    | groupRemove g =>
      simp at h ⊢
      grind
    | _ => exact .inl (by simpa using h)

/-- A slot that is no group has no backends. -/
lemma AInv.noBes (ha : AInv A) (hw : A.Wf) (hg : A.own g ≠ .chain .group) : A.lst (.be g) = [] :=
  List.eq_nil_iff_forall_not_mem.mpr fun b hb => hg (ha.housed.chain b _ g ((hw.mem _ b).mp hb) rfl)

/-- A section keeps to the limit of a group, which it may also have freed. -/
lemma Steps.limited (hs : Steps w A B) (hw : A.Wf) (ha : AInv A) (hlog : .free g ∉ A.log)
    (hmax : w.grows g → w.max = L ∧ L ≠ 0)
    (h : (A.lst (.be g)).length ≤ L ∨ .free g ∈ B.log) : (B.lst (.be g)).length ≤ L := by
  induction hs with
  | refl => exact h.resolve_right hlog
  | tail hs hr ih =>
    rename_i C D
    obtain ⟨haC, hwC⟩ := ha.steps hw hs
    obtain ⟨hr, hwD⟩ := hr
    by_cases hg : D.own g = .chain .group
    swap
    · simp [(haC.rule hwC hr).noBes hwD hg]
    have ih := ih (h.imp_right fun hf => (hr.freed hwC hf).resolve_right (by simp [hg]))
    obtain hlen | ⟨hgrow, hlen, hlt⟩ := hr.length hwC haC g
    · exact hlen.trans ih
    · obtain ⟨rfl, h0⟩ := hmax hgrow
      omega

/-- Who acts in a section. -/
def Deed.plan : Deed → Option Plan
  | .connect pl _ | .wake pl _ | .collect pl | .init pl | .iterate pl _ | .put pl | .accepted pl
  | .report pl _ => some pl
  | _ => none

lemma Deed.env_act {d : Deed} (ha : d.act.env = some (e, cs)) : ∃ pl, d.plan = some pl ∧ pl.env = e := by
  cases d with
  | connect | wake | collect | init | iterate | put | accepted | report =>
    exact ⟨_, rfl, congrArg Prod.fst (Option.some.inj ha)⟩
  | _ => cases ha

namespace World

/-- The process is a backend parent in its loop for group `g`. -/
def leads (W : World) (p : Pid) (g : SlotNum) : Prop := ∃ woken answered, W.role p = .parent g woken answered

/-- The runs in which the backend parents of group `g` have `MaxBackends` at `M g` until the group is
freed. Anybody may send a `SIGUSR1`. -/
inductive Limited : World → (SlotNum → ℕ) → Prop
  | init (M : SlotNum → ℕ) : Limited init M
  | step {W W' : World} {M M' : SlotNum → ℕ} {a : Act} (h : Limited W M) (hf : W.Fair a)
      (hs : W.step a = some W')
      (hsame : ∀ g, W.file.isGroup g → W'.file = W.file ∨ .free g ∉ W'.log → M' g = M g)
      (hmax : ∀ e cs g, a.env = some (e, cs) → W.leads e.self g ∨ W'.leads e.self g →
        e.maxBackends = M' g ∧ M' g ≠ 0) : Limited W' M'
  | usr1 {W : World} {M : SlotNum → ℕ} (h : Limited W M) (p : Pid) (hp : W.role p ≠ .absent) :
      Limited { W with usr1 := update W.usr1 p true } M

/-- A section of anybody starts backends for its own group alone. -/
lemma Inv.grows (hi : W.Inv W.untold A) (hf : W.Fair a) (h : W.step a = some W')
    (ha : a.env = some (e, cs)) : ∃ w B, Steps w A B ∧ W'.Inv W'.untold B.calm ∧ W'.log = B.log ∧
      w.max = e.maxBackends ∧ ∀ g, w.grows g → W.leads e.self g ∨ W'.leads e.self g := by
  cases a with
  | init e' =>
    obtain ⟨rfl, rfl⟩ : e' = e ∧ [] = cs := by simpa [Act.env] using ha
    obtain ⟨B, W₀, due, s, r0, ro, h, hgrow⟩ := hi.init hf h
    obtain ⟨-, hs⟩ | ⟨g, rfl, hs⟩ := hgrow
    · exact ⟨_, B, hs, h.inv, h.log, rfl, fun _ => False.elim⟩
    · refine ⟨_, B, hs, h.inv, h.log, rfl, fun g' hg' => .inr ?_⟩
      obtain rfl : g' = g := hg'
      exact ⟨_, _, h.roleSelf⟩
  | iterate e' cs' =>
    obtain ⟨rfl, rfl⟩ : e' = e ∧ cs' = cs := by simpa [Act.env] using ha
    obtain ⟨g, woken, answered, B, W₀, due, s, r0, ro, hr, h, hs, -⟩ := hi.iterate hf h
    refine ⟨_, B, hs, h.inv, h.log, rfl, fun g' hg' => .inl ?_⟩
    obtain rfl : g' = g := hg'
    exact ⟨_, _, hr⟩
  | connect e' want =>
    obtain ⟨rfl, rfl⟩ : e' = e ∧ [] = cs := by simpa [Act.env] using ha
    obtain ⟨B, W₀, due, s, r0, r, h, -⟩ := hi.connect hf h
    exact ⟨_, B, h.turn.steps, h.inv, h.log, rfl, fun _ => False.elim⟩
  | wake e' changed =>
    obtain ⟨rfl, rfl⟩ : e' = e ∧ [] = cs := by simpa [Act.env] using ha
    obtain ⟨B, W₀, due, s, r0, r, want, g, f, since, -, h, -⟩ := hi.wake hf h
    exact ⟨_, B, h.turn.steps, h.inv, h.log, rfl, fun _ => False.elim⟩
  | collect e' =>
    obtain ⟨rfl, rfl⟩ : e' = e ∧ [] = cs := by simpa [Act.env] using ha
    obtain ⟨B, W₀, due, s, r0, ro, h⟩ := hi.collect hf h
    exact ⟨_, B, h.turn.steps, h.inv, h.log, rfl, fun _ => False.elim⟩
  | put e' =>
    obtain ⟨rfl, rfl⟩ : e' = e ∧ [] = cs := by simpa [Act.env] using ha
    obtain ⟨sv, B, W₀, due, s, r0, ro, -, h, -⟩ := hi.put hf h
    exact ⟨_, B, h.turn.steps, h.inv, h.log, rfl, fun _ => False.elim⟩
  | accepted e' =>
    obtain ⟨rfl, rfl⟩ : e' = e ∧ [] = cs := by simpa [Act.env] using ha
    obtain ⟨sv, B, W₀, due, s, r0, ro, -, -, h⟩ := hi.accepted hf h
    exact ⟨_, B, h.turn.steps, h.inv, h.log, rfl, fun _ => False.elim⟩
  | report e' more =>
    obtain ⟨rfl, rfl⟩ : e' = e ∧ [] = cs := by simpa [Act.env] using ha
    obtain ⟨sv, val, B, W₀, due, s, r0, ro, -, -, h, -⟩ := hi.report hf h
    exact ⟨_, B, h.turn.steps, h.inv, h.log, rfl, fun _ => False.elim⟩
  | _ => cases ha

/-- What holds in such runs. -/
lemma Limited.inv (h : Limited W M) : ∃ A, W.Inv W.untold A ∧
    ∀ g, A.own g = .chain .group → (A.lst (.be g)).length ≤ M g := by
  induction h with
  | init M => exact ⟨_, inv_init, fun g hg => by simp at hg⟩
  | step _ hf hs hsame hmax ih =>
    rename_i W W' M M' a _
    obtain ⟨A, hi, hlim⟩ := ih
    cases ha : a.env with
    | none =>
      cases hi.moves hf hs with
      | quiet _ hfile hlog hi' =>
        refine ⟨A, hi', fun g hg => ?_⟩
        rw [hsame g (hi.isGroup_iff.mpr hg) (.inl hfile)]
        exact hlim g hg
      | sect e cs w B W₀ due s r0 ro ha' => simp [ha] at ha'
    | some x =>
      obtain ⟨e, cs⟩ := x
      obtain ⟨w, B, hsteps, hi', hlog, hm, hgrow⟩ := hi.grows hf hs ha
      refine ⟨_, hi', fun g hg => ?_⟩
      refine hsteps.limited hi.rep.wf hi.inv (by simp [hi.log]) (fun hg => ?_) ?_
      · rw [hm]
        exact hmax e cs g ha (hgrow g hg)
      · by_cases hfree : .free g ∈ B.log
        · exact .inr hfree
        · refine .inl ?_
          by_cases hgA : A.own g = .chain .group
          · rw [hsame g (hi.isGroup_iff.mpr hgA) (.inr (hlog ▸ hfree))]
            exact hlim g hgA
          · simp [hi.inv.noBes hi.rep.wf hgA]
  | usr1 _ p hp ih =>
    obtain ⟨A, hi, hlim⟩ := ih
    refine ⟨A, ?_, hlim⟩
    exact hi.withUsr1 fun q hq => by
      have hne : q ≠ p := by
        rintro rfl
        exact hp hq
      rw [update_of_ne hne]
      exact (hi.books.clean q hq).2.1

/-- Whatever else happens, a group has no more backends than the limit of its parents, and at most one
that lives has never waited, which is the process listed as starting. -/
theorem spawn_limits (h : Limited W M) (hg : W.file.isGroup g) :
    (∀ l, W.file.Holds (.be g) l → l.length ≤ M g) ∧
    (∀ b, W.file.At b (.chain (.be g)) → (W.file.be b).maturity = 0 →
      W.role (W.file.be b).pid ≠ .absent → (W.file.be b).pid = (W.file.gr g).beStarting) ∧
    ∀ b b', W.file.At b (.chain (.be g)) → (W.file.be b).maturity = 0 →
      W.role (W.file.be b).pid ≠ .absent → W.file.At b' (.chain (.be g)) →
      (W.file.be b').maturity = 0 → W.role (W.file.be b').pid ≠ .absent → b = b' := by
  obtain ⟨A, hi, hlim⟩ := h.inv
  have hgA := hi.isGroup_iff.mp hg
  have hstart : ∀ b, W.file.At b (.chain (.be g)) → (W.file.be b).maturity = 0 →
      W.role (W.file.be b).pid ≠ .absent → (W.file.be b).pid = (W.file.gr g).beStarting := by
    intro b hb hm hlive
    rw [hi.at_chain] at hb
    rw [hi.file_be] at hm hlive ⊢
    rw [hi.file_gr]
    refine (hi.ranked.fledgling b g hb hm (fun h0 => ?_) (fun hgone => ?_)).symm
    · rw [h0] at hlive
      exact hlive hi.books.zero
    · obtain hgone | hk := hgone
      · exact hgone hlive
      · simp [hi.log] at hk
  refine ⟨fun l hl => ?_, hstart, fun b b' hb hm hlive hb' hm' hlive' => ?_⟩
  · have hu : A.Usable (.be g) := by
      rintro _ ⟨⟩
      exact AFile.live_of hgA
    rw [hi.rep.holds_iff hu] at hl
    exact hl ▸ hlim g hgA
  · have heq := (hstart b hb hm hlive).trans (hstart b' hb' hm' hlive').symm
    rw [hi.at_chain] at hb hb'
    rw [hi.file_be] at heq hlive
    exact hi.ranked.distinct b b' g g hb hb' heq fun h0 => hlive (h0 ▸ hi.books.zero)

/-- A play in which everybody has the same `MaxBackends`. -/
lemma play_limited {ds : List Deed} (h0 : L ≠ 0) (h : Limited W fun _ => L)
    (hall : ∀ d ∈ ds, ∀ pl, d.plan = some pl → pl.maxBackends = L) (hp : W.play ds = some W') :
    Limited W' fun _ => L := by
  refine play_keeps (P := fun W => Limited W fun _ => L) h (fun V d V' hV hd hf hs => ?_) hall hp
  refine .step hV (fair_act hf) hs (fun _ _ _ => rfl) fun e cs g ha _ => ⟨?_, h0⟩
  obtain ⟨pl, hpl, rfl⟩ := Deed.env_act ha
  exact hd pl hpl

/-- The parent has started its one backend, and has been asked for another since. -/
theorem spawn_limits_one : ∃ W : World, W.role 3 = .parent 2 none false ∧
    W.role 4 = .backend { g := 2, b := 4 } ∧ ∀ l, W.file.Holds (.be 2) l → l.length ≤ 1 := by
  obtain ⟨W, hW, h⟩ := Option.map_eq_some_iff.mp (show (init.play [.arrive 2,
    .connect { self := 2, maxBackends := 1, spawn := .spawned 3 } true,
    .init { self := 3, maxBackends := 1, fork := some 4 }]).map
    (fun W => (W.role 3, W.dead 3, W.role 4)) =
      some (.parent 2 none false, none, .backend { g := 2, b := 4 }) by decide +kernel)
  simp only [Prod.mk.injEq] at h
  obtain ⟨h3, hd, h4⟩ := h
  have hlim := play_limited (L := 1) (by decide) (.init _) (by simp [Deed.plan]) hW
  have hlim := hlim.usr1 3 (by simp [h3])
  obtain ⟨A, hi, -⟩ := hlim.inv
  have hfit := hi.fit 3
  rw [show ({ W with usr1 := update W.usr1 3 true } : World).role 3 = _ from h3] at hfit
  exact ⟨_, h3, h4, (spawn_limits hlim (hi.isGroup_iff.mpr (hfit hd).1)).1⟩

end World

end SpeedyCgi.TempFile
