import SpeedyCgi.TempFile.Queue

/-!
What `speedy_script_find` finds.

A search with a group name finds the group of that name. A search without one takes the first group
that has the script as it is, be it a group of a name or not.
-/

namespace SpeedyCgi.TempFile

open Function Lib.Dll Lib.Wp

variable {W : World} {A B : AFile} {w : Who} {e : Env} {g g' n : SlotNum} {s : St}

/-- Group `g` is for scripts with this `Group` option. -/
def File.isFor (F : File) (e : Env) (g : SlotNum) : Prop :=
  if doingSingleScript e = true then (F.gr g).nameSlot = 0
  else (F.gr g).nameSlot ≠ 0 ∧ F.grnm (F.gr g).nameSlot = strncpy grNameLen e.group

/-- Group `g` has an entry for the script as it is. -/
def File.has (F : File) (e : Env) (g : SlotNum) : Prop :=
  ∃ n, F.At n (.chain (.script g)) ∧ F.scr n = ⟨e.stat.dev, e.stat.ino, e.stat.mtime⟩

/-- What a search is to find. -/
structure File.Finds (F : File) (e : Env) (g : SlotNum) : Prop where
  group : F.isGroup g
  valid : F.valid g
  first : F.head .group = g
  entry : F.At (F.head (.script g)) (.chain (.script g)) ∧
    F.scr (F.head (.script g)) = ⟨e.stat.dev, e.stat.ino, e.stat.mtime⟩
  identity : F.isFor e g
  /-- no group of that identity has the script as it was at another time -/
  fresh : ∀ g' n, F.isFor e g' → F.At n (.chain (.script g')) → (F.scr n).devNum = e.stat.dev →
    (F.scr n).inoNum = e.stat.ino → (F.scr n).mtime = e.stat.mtime

/-- The first group that has the script as it is has no name. -/
def File.plain (F : File) (e : Env) : Prop :=
  ∀ i g j, F.Holds .group (i ++ g :: j) → (∀ g' ∈ i, ¬ F.has e g') → F.has e g →
    (F.gr g).nameSlot = 0

namespace Rep

lemma has_iff (hs : Rep s A) (ha : AInv A) (h1 : doingSingleScript e = true) :
    s.file.has e g ↔ A.exact e g := by
  simp only [File.has, hs.at_chain ha.housed, hs.scr, AFile.exact, AFile.here, h1, true_or, true_and,
    hs.wf.mem]
  rfl

lemma isFor_here (hs : Rep s A) (h1 : doingSingleScript e = false) : s.file.isFor e g ↔ A.here e g := by
  simp [File.isFor, AFile.here, h1, hs.gr, hs.grnm]

/-- Of two groups of one identity with the script, whatever its time, both are the same. -/
lemma isFor_unique (hs : Rep s A) (ha : AInv A) {n n' : SlotNum} (h : s.file.isFor e g)
    (h' : s.file.isFor e g') (hn : A.own n = .chain (.script g)) (hn' : A.own n' = .chain (.script g'))
    (heq : (A.scr n).same (A.scr n')) : g = g' := by
  cases h1 : doingSingleScript e with
  | true =>
    rw [File.isFor, if_pos h1, hs.gr] at h h'
    exact ha.found.alone g g' n n' hn hn' h h' heq
  | false =>
    rw [hs.isFor_here h1] at h h'
    exact ha.here_unique h1 (ha.housed.chain n _ g hn rfl) (ha.housed.chain n' _ g' hn' rfl) h h'

lemma finds (hs : Rep s A) (ha : AInv A) (hg : A.found e g) (hfirst : (A.lst .group).head? = some g)
    (hid : s.file.isFor e g) : s.file.Finds e g := by
  obtain ⟨n, hn, hscr⟩ := hg.head
  have hown : A.own n = .chain (.script g) := (hs.wf.mem _ n).mp (List.mem_of_mem_head? hn)
  have hhead : s.file.head (.script g) = n := by
    obtain ⟨t, hl, -⟩ := hs.chains _ (Usable.of_own hs hown)
    obtain ⟨l, hl'⟩ := List.head?_eq_some_iff.mp hn
    rw [show s.file.head (.script g) = _ from hl.head_eq, hl', List.headD_cons]
  have hentry : s.file.At n (.chain (.script g)) ∧ s.file.scr n = e.entry :=
    ⟨(hs.at_chain ha.housed).mpr hown, hs.scr ▸ hscr⟩
  refine ⟨hs.isGroup_iff.mpr hg.own, (hs.valid_iff hg.own).mpr hg.valid, ?_, hhead ▸ hentry, hid,
    fun g' n' hid' hn' hdev hino => ?_⟩
  · obtain ⟨t, hl, -⟩ := hs.chains .group usable_group
    obtain ⟨l, hl'⟩ := List.head?_eq_some_iff.mp hfirst
    rw [show s.file.head .group = _ from hl.head_eq, hl', List.headD_cons]
  · rw [hs.at_chain ha.housed] at hn'
    rw [hs.scr] at hdev hino ⊢
    have hsame : (A.scr n).same (A.scr n') := by
      rw [hscr]
      exact ⟨hdev.symm, hino.symm⟩
    obtain rfl := hs.isFor_unique ha hid hid' hown hn' hsame
    obtain rfl := ha.found.distinct g n n' hown hn' hsame
    rw [hscr]
    rfl

end Rep

/-! ### The search -/

lemma first_unique {α : Type} {P : α → Prop} {i j i' j' : List α} {x y : α}
    (h : i ++ x :: j = i' ++ y :: j') (hi : ∀ z ∈ i, ¬ P z) (hx : P x) (hi' : ∀ z ∈ i', ¬ P z)
    (hy : P y) : x = y := by
  induction i generalizing i' with
  | nil =>
    cases i' with
    | nil => exact (List.cons.inj h).1
    | cons z i' => exact absurd ((List.cons.inj h).1 ▸ hx) (hi' z List.mem_cons_self)
  | cons z i ih =>
    cases i' with
    | nil => exact absurd ((List.cons.inj h).1 ▸ hy) (hi z List.mem_cons_self)
    | cons z' i' =>
      exact ih (List.cons.inj h).2 (fun z hz => hi z (List.mem_cons_of_mem _ hz))
        fun z hz => hi' z (List.mem_cons_of_mem _ hz)

/-- Without a name, the group found is unnamed if and only if the first one with the script is. -/
lemma Origin.plain {s' : St} (ho : Origin e A B g) (hs : Rep s A) (ha : AInv A) (hB : Rep s' B)
    (h1 : doingSingleScript e = true) : s'.file.isFor e g ↔ s.file.plain e := by
  have hlst : ∀ l, s.file.Holds .group l ↔ l = A.lst .group := fun l => hs.holds_iff Rep.usable_group
  rw [File.isFor, if_pos h1, hB.gr]
  constructor
  · intro h0 i g₀ j hl hi hg₀
    rw [hlst] at hl
    simp only [hs.has_iff ha h1] at hi hg₀
    obtain ⟨⟨i', j', hl', hi', hg⟩, hname⟩ | ⟨hno, -⟩ := ho
    · obtain rfl := first_unique (hl.trans hl') hi hg₀ hi' hg
      rw [hs.gr, ← hname, h0]
    · exact absurd hg₀ (hno g₀ (hl ▸ by simp))
  · intro hplain
    obtain ⟨⟨i, j, hl, hi, hg⟩, hname⟩ | ⟨-, hnew⟩ := ho
    · rw [hname, ← hs.gr]
      refine hplain i g j ((hlst _).mpr hl.symm) (fun g' hg' => ?_) ((hs.has_iff ha h1).mpr hg)
      rw [hs.has_iff ha h1]
      exact hi g' hg'
    · exact hnew h1

lemma scriptFind_finds (hfit : Fits e w) (ha : AInv A) (hs : Rep s A) :
    (∃ d, Die.Allowed d ∧ scriptFind e s = .error d) ∨ ∃ g s', scriptFind e s = .ok (g, s') ∧
      (s'.file.Finds e g ↔ doingSingleScript e = false ∨ s.file.plain e) := by
  have hruns : Runs (scriptFind e) (fun g B => AInv B ∧ B.found e g ∧
      (B.lst .group).head? = some g ∧ Origin e A B g) A :=
    runs_scriptFind hfit ha hs.wf fun B g hst _ hfound hfirst ho =>
      ⟨(ha.steps hs.wf hst).1, hfound, hfirst, ho⟩
  have hwp := hruns s hs
  rw [wp] at hwp
  split at hwp
  · rename_i g s' hm
    obtain ⟨B, hB, haB, hfound, hfirst, ho⟩ := hwp
    refine .inr ⟨g, s', hm, fun h => ?_, fun h => hB.finds haB hfound hfirst ?_⟩
    · cases h1 : doingSingleScript e with
      | false => exact .inl rfl
      | true => exact .inr ((ho.plain hs ha hB h1).mp h.identity)
    · cases h1 : doingSingleScript e with
      | false => exact (hB.isFor_here h1).mpr hfound.here
      | true => exact (ho.plain hs ha hB h1).mpr (h.resolve_left (by simp [h1]))
  · exact .inl ⟨_, hwp, ‹_›⟩

namespace World

/-- Process `e.self` searches for its script in state `s`: a frontend in `get_a_backend`, or a backend
parent that has just been started. -/
inductive Searches (W : World) (e : Env) : St → Prop
  | frontend {didClean : Bool} {f : SlotNum} {s : St} (ha : W.Answers e [])
      (hr : W.role e.self = .idle didClean) (hd : W.dead e.self = none)
      (hm : connectEnter e didClean { file := W.file } = .ok (f, s)) : Searches W e s
  | parent (ha : W.Answers e []) (hr : W.role e.self = .born) (hd : W.dead e.self = none) :
      Searches W e { file := W.file }

/-- The group that is found is valid and the first one, has the script as it is in front of its scripts,
and is for scripts with this `Group` option; and no such group has the script as it was at another time.
For a script without a group this is so only if the first group that has the script has no name. -/
theorem script_find (h : Reachable W) (hs : W.Searches e s) :
    (∃ d, Die.Allowed d ∧ scriptFind e s = .error d) ∨ ∃ g s', scriptFind e s = .ok (g, s') ∧
      (s'.file.Finds e g ↔ doingSingleScript e = false ∨ s.file.plain e) := by
  obtain ⟨A, hi⟩ := h.inv
  cases hs with
  | frontend ha hr hd hm =>
    have hV := hi.lowerFrontend (e := e) (by simp [hr, Role.frontend]) hd ha
    have hact := hV.acts (T := fun _ => True)
    obtain ⟨B, hB, hst⟩ := (runs_connectEnter hact hi.inv hi.rep.wf
      (Q := fun _ B => Steps _ A B) fun _ _ hst _ _ _ _ _ => hst).result hi.rep hm
    exact scriptFind_finds hact.toFits (hi.inv.steps hi.rep.wf hst).1 hB
  | parent ha hr hd =>
    have hV := hi.lowerParent (e := e) (by simp [hr, Role.leads]) hd ha
    have hfit : Fits e ((W.setRole e.self .done).who e.self 0) := hV.fits rfl rfl
    exact scriptFind_finds hfit hi.inv hi.rep

/-- Frontend 2 runs the script in group `abc`, then comes frontend 5. -/
def shared : List Deed := [
  .arrive 2, .connect { self := 2, group := [97, 98, 99], spawn := .spawned 3 } true, .arrive 5]

/-- The group that a frontend finds, and the slot of its name. -/
def searched (pl : Plan) (W : World) : Option (SlotNum × SlotNum) :=
  match connectEnter pl.env false { file := W.file } with
  | .ok (_, s) => match scriptFind pl.env s with
    | .ok (g, s') => some (g, (s'.file.gr g).nameSlot)
    | .error _ => none
  | .error _ => none

lemma searches_of_searched (pl : Plan) (hl : W.allows pl = true) (hr : W.role pl.self = .idle false)
    (hd : W.dead pl.self = none) (h : searched pl W = some (g, n)) : ∃ s s', W.Searches pl.env s ∧
      scriptFind pl.env s = .ok (g, s') ∧ (s'.file.gr g).nameSlot = n := by
  unfold searched at h
  split at h <;> try cases h
  rename_i f s hm
  split at h <;> cases h
  exact ⟨s, _, .frontend (answers_of_allows hl) hr hd hm, ‹_›, rfl⟩

theorem script_find_named : ∃ (W : World) (e : Env) (s : St) (g : SlotNum) (s' : St),
    W.Searches e s ∧ scriptFind e s = .ok (g, s') ∧ s'.file.Finds e g := by
  obtain ⟨W, hW, h⟩ := exists_of_play
    (fun W => (W.role 5, W.dead 5, searched { self := 5, group := [97, 98, 99] } W)) shared
    (x := (.idle false, none, some (2, 3))) (by decide +kernel)
  simp only [Prod.mk.injEq] at h
  obtain ⟨hr, hd, h⟩ := h
  obtain ⟨s, s', hs, hm, -⟩ := searches_of_searched { self := 5, group := [97, 98, 99] } rfl hr hd h
  obtain ⟨d, -, hm'⟩ | ⟨g, s'', hm', hiff⟩ := script_find hW hs
  · rw [hm] at hm'
    cases hm'
  · exact ⟨W, _, s, g, s'', hs, hm', hiff.mpr (.inl (by decide))⟩

/-- A script without a group is run in a group with a name. -/
theorem script_find_shared : ∃ (W : World) (e : Env) (s : St) (g : SlotNum) (s' : St),
    Reachable W ∧ W.Searches e s ∧ doingSingleScript e = true ∧ scriptFind e s = .ok (g, s') ∧
      ¬ s'.file.isFor e g ∧ ¬ s'.file.Finds e g := by
  obtain ⟨W, hW, h⟩ := exists_of_play (fun W => (W.role 5, W.dead 5, searched { self := 5 } W)) shared
    (x := (.idle false, none, some (2, 3))) (by decide +kernel)
  simp only [Prod.mk.injEq] at h
  obtain ⟨hr, hd, h⟩ := h
  obtain ⟨s, s', hs, hm, hname⟩ := searches_of_searched { self := 5 } rfl hr hd h
  have hno : ¬ s'.file.isFor (Plan.env { self := 5 }) 2 := by
    rw [File.isFor, if_pos (by decide), hname]
    decide
  exact ⟨W, _, s, 2, s', hW, hs, by decide, hm, hno, fun hF => hno hF.identity⟩

end World

end SpeedyCgi.TempFile
