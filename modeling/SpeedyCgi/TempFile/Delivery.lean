import SpeedyCgi.TempFile.Service

/-!
How frontends are told the end of their runs.

The run for a connection ends once: when the backend reports what `onerun` has returned, or else when
it is waited for. What the frontend is told is that end. The end of a backend that nobody has reported
is seen only by its backend parent; once that is gone, the frontend is told that the backend has been
killed.
-/

namespace SpeedyCgi.TempFile

open Function

variable {W W' : World} {A B : AFile} {w : Who} {e : Env} {a : Act} {p q : Pid} {g b f n : SlotNum}
  {s : St} {cs : List Child} {c : Conn} {x : End}

namespace World

/-- What ends the run for connection `c`. -/
inductive Finishes (W : World) (c : Conn) : Act → End → Prop
  | reported {e : Env} {more : Bool} {sv : Server} {val : ℕ} (hr : W.role e.self = .backend sv)
      (hran : sv.phase = .ran val) (hc : c ∈ sv.taken.map Sock.conn) :
      Finishes W c (.report e more) (.reported val)
  | reaped {e : Env} {cs : List Child} {child : Child} (hmem : child ∈ cs)
      (hparent : W.parent child.pid = some e.self)
      (hdead : W.dead child.pid = some (child.onSig, child.val))
      (hc : c ∈ (W.role child.pid).held) :
      Finishes W c (.iterate e cs) (.reaped child.onSig child.val)
  | lost {q : Pid} {sig : Bool} {val : ℕ} (hparent : W.parent q = none)
      (hdead : W.dead q = some (sig, val)) (hc : c ∈ (W.role q).held) :
      Finishes W c (.reap q) (.lost sig val)

/-! ### Runs that end -/

lemma ended_conclude {l : List Conn} {y : End} (hx : (W.conclude l y).ended c = some x) :
    W.ended c = some x ∨ W.ended c = none ∧ c ∈ l ∧ x = y := by
  simp only [conclude] at hx
  split at hx
  · rename_i hc
    exact .inr ⟨hc.2, hc.1, (Option.some.inj hx).symm⟩
  · exact .inl hx

lemma conclude_kept {l : List Conn} {y : End} (hx : W.ended c = some x) :
    (W.conclude l y).ended c = some x := by
  simp only [conclude]
  rw [if_neg (by simp [hx])]
  exact hx

lemma ended_collect (hnd : (cs.map Child.pid).Nodup) (hx : (W.collect cs).ended c = some x) :
    W.ended c = some x ∨ W.ended c = none ∧ ∃ child ∈ cs, c ∈ (W.role child.pid).held ∧
      x = .reaped child.onSig child.val := by
  induction cs generalizing W with
  | nil => exact .inl hx
  | cons child cs ih =>
    rw [List.map_cons, List.nodup_cons] at hnd
    rw [collect_cons] at hx
    have hend : ∀ V : World, (V.bury child.pid).ended = V.ended := fun _ => rfl
    obtain h | ⟨h, child', hmem, hc, rfl⟩ := ih hnd.2 hx
    · rw [hend] at h
      exact (ended_conclude h).imp_right fun ⟨h0, hc, hx⟩ => ⟨h0, child, by simp, hc, hx⟩
    · -- the children before it are other processes
      have hne : child'.pid ≠ child.pid := by
        intro heq
        exact hnd.1 (heq ▸ List.mem_map_of_mem hmem)
      have hrole : ((W.conclude (W.role child.pid).held (.reaped child.onSig child.val)).bury
          child.pid).role child'.pid = W.role child'.pid := by
        simp [bury, conclude, hne]
      rw [hrole] at hc
      refine .inr ⟨?_, child', List.mem_cons_of_mem _ hmem, hc, rfl⟩
      cases h0 : W.ended c with
      | none => rfl
      | some y =>
        rw [hend, conclude_kept h0] at h
        cases h

lemma collect_kept (hx : W.ended c = some x) : (W.collect cs).ended c = some x := by
  induction cs generalizing W with
  | nil => exact hx
  | cons child cs ih =>
    rw [collect_cons]
    exact ih (W := (W.conclude _ _).bury child.pid) (conclude_kept hx)

lemma sect_ended {α : Type} {m : M α} {k : α → World → World} {V : World} (h : V.sect p m k = some W')
    (hk : ∀ r V, (k r V).ended = V.ended) : W'.ended = V.ended := by
  obtain ⟨r, s, -, rfl⟩ := sect_some h
  rw [hk]
  rfl

/-- In a step runs end, or nothing is changed about that. -/
inductive Concludes (W : World) (W' : World) : Act → Prop
  | same (a : Act) (h : W'.ended = W.ended) : Concludes W W' a
  | report (e : Env) (more : Bool) (sv : Server) (val : ℕ) (hr : W.role e.self = .backend sv)
      (hran : sv.phase = .ran val)
      (h : W'.ended = (W.conclude (sv.taken.map Sock.conn) (.reported val)).ended) :
      Concludes W W' (.report e more)
  | iterate (e : Env) (cs : List Child) (hcs : W.children e.self cs)
      (h : W'.ended = (W.collect cs).ended) : Concludes W W' (.iterate e cs)
  | reap (q : Pid) (y : Bool × ℕ) (hdead : W.dead q = some y) (hparent : W.parent q = none)
      (h : W'.ended = (W.conclude (W.role q).held (.lost y.1 y.2)).ended) : Concludes W W' (.reap q)

lemma concludes (h : W.step a = some W') : W.Concludes W' a := by
  cases a with
  | report e more =>
    rw [step] at h
    split at h <;> try cases h
    split at h <;> try cases h
    split at h <;> try cases h
    exact .report e more _ _ ‹_› ‹_› (sect_ended h fun _ _ => rfl)
  | iterate e cs =>
    rw [step] at h
    split at h <;> try cases h
    split at h <;> try cases h
    rename_i hd
    refine .iterate e cs hd.2 (sect_ended h fun r V => ?_)
    rfl
  | reap q =>
    rw [step] at h
    split at h <;> cases h
    exact .reap q _ ‹_› ‹_› rfl
  | connect | wake | init | put =>
    rw [step] at h
    split at h <;> try cases h
    split at h <;> try cases h
    exact .same _ (sect_ended h fun _ _ => rfl)
  | collect e =>
    rw [step] at h
    split at h <;> try cases h
    split at h <;> try cases h
    refine .same _ (sect_ended h fun r V => ?_)
    cases r <;> rfl
  | accepted e =>
    rw [step] at h
    split at h <;> try cases h
    split at h <;> try cases h
    refine .same _ (sect_ended h fun r V => ?_)
    split <;> rfl
  | arrive | exit =>
    rw [step] at h
    split at h <;> cases h
    exact .same _ rfl
  | rouse | listen | accept | quit | finish =>
    rw [step] at h
    split at h <;> try cases h
    split at h <;> cases h
    exact .same _ rfl

lemma finishes (h : W.step a = some W') (hx : W'.ended c = some x) :
    W.ended c = some x ∨ W.ended c = none ∧ W.Finishes c a x := by
  cases concludes h with
  | same a heq => exact .inl (heq ▸ hx)
  | report e more sv val hr hran heq =>
    rw [heq] at hx
    exact (ended_conclude hx).imp_right fun ⟨h0, hc, hx⟩ => ⟨h0, hx ▸ .reported hr hran hc⟩
  | iterate e cs hcs heq =>
    rw [heq] at hx
    refine (ended_collect hcs.1 hx).imp_right fun ⟨h0, child, hmem, hc, hx⟩ => ⟨h0, ?_⟩
    obtain ⟨hparent, hdead⟩ := hcs.2 child hmem
    exact hx ▸ .reaped hmem hparent hdead hc
  | reap q y hdead hparent heq =>
    rw [heq] at hx
    exact (ended_conclude hx).imp_right fun ⟨h0, hc, hx⟩ => ⟨h0, hx ▸ .lost hparent hdead hc⟩

lemma ended_kept (h : W.step a = some W') (hx : W.ended c = some x) : W'.ended c = some x := by
  cases concludes h with
  | same a heq => rwa [heq]
  | report e more sv val hr hran heq => rw [heq]; exact conclude_kept hx
  | iterate e cs hcs heq => rw [heq]; exact collect_kept hx
  | reap q y hdead hparent heq => rw [heq]; exact conclude_kept hx

/-! ### Receipts -/

/-- Only a frontend that finds its status gets a receipt, and does not run any more; and `onerun` is
not taken back. -/
lemma history_step (h : W.step a = some W') : (W'.receipts = W.receipts ∨
    ∃ e f b c y, a = .collect e ∧ W.role e.self = .running f b c ∧ W'.role e.self = .idle true ∧
      W'.receipts = (c, y) :: W.receipts) ∧ ∀ c, W.ran c = true → W'.ran c = true := by
  cases a with
  | collect e =>
    rw [step] at h
    split at h <;> try cases h
    rename_i f b c hr
    split at h <;> try cases h
    obtain ⟨r, s, -, rfl⟩ := sect_some h
    cases r with
    | none => exact ⟨.inl rfl, fun _ => id⟩
    | some y => exact ⟨.inr ⟨e, f, b, c, y, rfl, hr, by simp, rfl⟩, fun _ => id⟩
  | report e more =>
    rw [step] at h
    split at h <;> try cases h
    split at h <;> try cases h
    split at h <;> try cases h
    obtain ⟨r, s, -, rfl⟩ := sect_some h
    exact ⟨.inl rfl, fun _ => id⟩
  | iterate e cs =>
    rw [step] at h
    split at h <;> try cases h
    split at h <;> try cases h
    obtain ⟨r, s, -, rfl⟩ := sect_some h
    obtain ⟨-, -, -, -, hrec, hran⟩ := collect_frame W cs
    exact ⟨.inl hrec, fun c hc => (congrFun hran c).trans hc⟩
  | accepted e =>
    rw [step] at h
    split at h <;> try cases h
    split at h <;> try cases h
    obtain ⟨r, s, -, rfl⟩ := sect_some h
    cases r with
    | true => exact ⟨.inl rfl, fun c hc => (Bool.or_eq_true _ _).mpr (.inl hc)⟩
    | false => exact ⟨.inl rfl, fun _ => id⟩
  | connect | wake | init | put =>
    rw [step] at h
    split at h <;> try cases h
    split at h <;> try cases h
    obtain ⟨r, s, -, rfl⟩ := sect_some h
    exact ⟨.inl rfl, fun _ => id⟩
  | arrive | exit | reap =>
    rw [step] at h
    split at h <;> cases h
    exact ⟨.inl rfl, fun _ => id⟩
  | rouse | listen | accept | quit | finish =>
    rw [step] at h
    split at h <;> try cases h
    split at h <;> cases h
    exact ⟨.inl rfl, fun _ => id⟩

/-! ### Backend parents -/

lemma Section.parent {W₀ : World} {due : Pid → End → Prop} {r0 ro : Role}
    (h : W.Section e cs w A B W' W₀ due s r0 ro) : W₀.parent = (W.collect cs).parent := by
  rw [h.before]
  rfl

/-- The process that runs a section is there. -/
lemma env_here (h : W.step a = some W') (ha : a.env = some (e, cs)) : W.role e.self ≠ .absent := by
  obtain ⟨ro, -, hb⟩ := becomes h ha
  cases hb <;> simp [*]

lemma env_children (h : W.step a = some W') (ha : a.env = some (e, cs)) (hmem : cs ≠ []) :
    a = .iterate e cs ∧ W.children e.self cs := by
  cases a with
  | iterate e' cs' =>
    obtain ⟨rfl, rfl⟩ : e' = e ∧ cs' = cs := Prod.mk.inj (Option.some.inj ha)
    rw [step] at h
    split at h <;> try cases h
    split at h <;> try cases h
    exact ⟨rfl, (‹_ ∧ _›).2⟩
  | connect | wake | collect | init | put | accepted | report =>
    exact absurd (congrArg Prod.snd (Option.some.inj ha)).symm hmem
  | _ => cases ha

/-- A backend is the child of its backend parent until it has been waited for, or the parent is gone. -/
lemma Inv.childKept (hi : W.Inv W.untold A) (hf : W.Fair a) (h : W.step a = some W')
    (hp : W.parent q = some p) : W'.parent q = some p ∨ W'.dead p ≠ none ∨
      ∃ e cs, a = .iterate e cs ∧ e.self = p ∧ ∃ child ∈ cs, child.pid = q := by
  cases hi.moves hf h with
  | quiet ha =>
    cases a with
    | exit p' onSig val =>
      rw [step] at h
      split at h <;> cases h
      rcases eq_or_ne p p' with rfl | hne
      · exact .inr (.inl (by simp))
      · exact .inl (by simp [hp, hne])
    | reap q' =>
      rw [step] at h
      split at h <;> cases h
      have hne : q ≠ q' := by
        rintro rfl
        exact absurd (hp.symm.trans ‹W.parent q = none›) (by simp)
      exact .inl (by simp [bury, conclude, hne, hp])
    | arrive =>
      rw [step] at h
      split at h <;> cases h
      exact .inl hp
    | rouse | listen | accept | quit | finish =>
      rw [step] at h
      split at h <;> try cases h
      split at h <;> cases h
      exact .inl hp
    | _ => cases ha
  | sect e cs w B W₀ due s r0 ro ha hsect =>
    by_cases hmem : ∃ child ∈ cs, child.pid = q
    · -- the parent has waited for it
      obtain ⟨child, hc, rfl⟩ := hmem
      obtain ⟨rfl, hcs⟩ := env_children h ha (List.ne_nil_of_mem hc)
      have hself : e.self = p := Option.some.inj ((hcs.2 child hc).1.symm.trans hp)
      exact .inr (.inr ⟨e, cs, rfl, hself, child, hc, rfl⟩)
    have hp₀ : W₀.parent q = some p := by
      rw [hsect.parent, (collect_of fun child hc heq => hmem ⟨child, hc, heq⟩).2.2.1, hp]
    obtain ⟨-, sv, hq, hlead⟩ := hsect.inv₀.books.kin q p hp₀
    have hpr : W₀.role p ≠ .absent := by
      obtain ⟨_, _, hr⟩ | hr := hlead <;> simp [hr]
    have hlog : s.log = B.log := hsect.rep.log
    by_cases hk : .kill p .kill true ∈ s.log
    · refine .inr (.inl ?_)
      rw [hsect.after]
      have hafter : W₀.roleAfter e.self s.log p ≠ .absent := by
        rw [hlog, hsect.turn.role hpr]
        exact receive_ne_absent.mpr hpr
      simp [after, hk, hafter]
    · refine .inl ?_
      rw [hsect.after]
      have hno : forked s.log q = none := hlog ▸ hsect.turn.noFork (by simp [hq])
      simp [after, hno, hp₀, hk]

/-- A backend that is new is the child of the process that has forked it. -/
lemma Inv.childNew {sv : Server} (hi : W.Inv W.untold A) (hf : W.Fair a) (h : W.step a = some W')
    (hq : W.role q = .absent) (hq' : W'.role q = .backend sv) :
    ∃ e cs, a.env = some (e, cs) ∧ W'.parent q = some e.self := by
  cases hi.moves hf h with
  | quiet ha =>
    -- without a section a backend is made of a backend
    cases rests h ha q with
    | same _ hr | exit _ _ hr => cases (hr.symm.trans hq').symm.trans hq
    | other _ hback => exact absurd hq' (hback sv)
    | backend _ _ _ hr => cases hq.symm.trans hr
  | sect e cs w B W₀ due s r0 ro ha hsect =>
    have hne : q ≠ e.self := by
      rintro rfl
      exact env_here h ha hq
    have hlog : s.log = B.log := hsect.rep.log
    have hafter : W₀.roleAfter e.self B.log q = .backend sv := (hsect.roleOther hne).symm.trans hq'
    have hq₀ : W₀.role q = .absent := by
      rw [hsect.role hne]
      exact collect_absent hq
    refine ⟨e, cs, ha, ?_⟩
    obtain ⟨-, ⟨-, hborn⟩ | ⟨g, b, hfork, -⟩⟩ := hsect.turn.newcomer hq₀ (by simp [hafter])
    · rw [hafter] at hborn
      cases hborn
    · have hsome : (forked s.log q).isSome := by
        rw [hlog]
        by_contra hnone
        exact forked_none (Option.not_isSome_iff_eq_none.mp hnone) hfork
      rw [hsect.after]
      simp [after, hsome]

/-! ### Delivery -/

/-- A frontend collects once, and not before its run has ended; what it collects is how the run has
ended. The run ends with the report of the backend, or with what the process that waits for the backend
is told; that is the backend parent, as long as it is there. -/
theorem delivery (h : Reachable W) :
    (W.receipts.map Prod.fst).Nodup ∧
    (∀ c sig v, (c, sig, v) ∈ W.receipts → ∃ x, W.ended c = some x ∧ x.shows sig v) ∧
    (∀ p f b c, W.role p = .running f b c → c.fe = p ∧ (∀ r ∈ W.receipts, r.1 ≠ c) ∧
      ((W.file.fe f).backend = 0 →
        ∃ x, W.ended c = some x ∧ x.shows (W.file.fe f).exitOnSig (W.file.fe f).exitVal)) ∧
    (∀ q p, W.parent q = some p → W.dead p = none ∧ ∃ s, W.role q = .backend s ∧
      ((∃ woken answered, W.role p = .parent s.g woken answered) ∨ W.role p = .done)) ∧
    ∀ a W', W.Fair a → W.step a = some W' →
      (W'.receipts = W.receipts ∨ ∃ e f b c y, a = .collect e ∧ W.role e.self = .running f b c ∧
        W'.role e.self = .idle true ∧ W'.receipts = (c, y) :: W.receipts) ∧
      (∀ c x, W.ended c = some x → W'.ended c = some x) ∧
      (∀ c x, W.ended c = none → W'.ended c = some x → W.Finishes c a x) ∧
      (∀ q s, W.role q = .absent → W'.role q = .backend s →
        ∃ e cs, a.env = some (e, cs) ∧ W'.parent q = some e.self) ∧
      ∀ q p, W.parent q = some p → W'.parent q = some p ∨ W'.dead p ≠ none ∨
        ∃ e cs, a = .iterate e cs ∧ e.self = p ∧ ∃ child ∈ cs, child.pid = q := by
  obtain ⟨A, hi⟩ := h.inv
  refine ⟨hi.books.nodup, fun c sig v hr => (hi.books.receipts _ hr).2, fun p f b c hr => ?_,
    hi.books.kin, fun a W' hf hst => ⟨(history_step hst).1, fun c x => ended_kept hst, fun c x h0 hx => ?_,
      fun q s => hi.childNew hf hst, fun q p => hi.childKept hf hst⟩⟩
  · have hfit := hi.fit p
    rw [hr] at hfit
    obtain ⟨hseat, hc, -, hno, hpay⟩ := hfit
    refine ⟨hc, hno, fun h0 => ?_⟩
    rw [hi.file_fe] at h0 ⊢
    obtain ⟨-, hx⟩ | ⟨hb, g, q, -, hserv, -⟩ := hpay
    · exact hx
    · -- a backend is not slot 0
      exact absurd (hb.symm.trans h0) (Turn.slot_ne_zero hi hserv)
  · exact ((finishes hst hx).resolve_left fun h => by simp [h0] at h).2

/-- The frontend has collected what the backend has reported. -/
theorem delivery_served : ∃ W : World, W.receipts = [(⟨2, 4⟩, false, 7)] ∧
    ∃ x, W.ended ⟨2, 4⟩ = some x ∧ x.shows false 7 := by
  obtain ⟨W, hW, h⟩ := exists_of_play (fun W => W.receipts) (served ++ [.collect { self := 2 }])
    (x := [(⟨2, 4⟩, false, 7)]) (by decide +kernel)
  exact ⟨W, h, (delivery hW).2.1 _ _ _ (by rw [h]; simp)⟩

end World

end SpeedyCgi.TempFile
