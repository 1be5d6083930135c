import SpeedyCgi.TempFile.World

/-!
Runs that can be evaluated.

A deed is an act whose answers are data: `kill` succeeds, one backend at most accepts connections,
and what `fork` gives is fixed. Whether the deed is fair can be decided, so a list of deeds that can
be played shows that a state is reachable.
-/

namespace SpeedyCgi.TempFile

/-- Who acts, its options, and what the system answers. -/
structure Plan where
  self : Pid
  group : List UInt8 := [110, 111, 110, 101]
  maxBackends : ℕ := 0
  stat : Stat := ⟨1, 1, 1⟩
  /-- the backend that accepts connections, and how many -/
  connects : Option (SlotNum × ℕ) := none
  spawn : Spawn := .noChild
  fork : Option Pid := none

def Plan.env (pl : Plan) : Env where
  self := pl.self
  alive _ _ := true
  group := pl.group
  maxBackends := pl.maxBackends
  stat := pl.stat
  room := 1000
  connects b := match pl.connects with
    | some (b', n) => if b = b' then n else 0
    | none => 0
  spawn := pl.spawn
  fork := pl.fork

inductive Deed
  | arrive (p : Pid)
  | connect (pl : Plan) (want : Bool)
  | wake (pl : Plan) (fileChanged : Bool)
  | collect (pl : Plan)
  | init (pl : Plan)
  | rouse (p : Pid) (woken : Woken)
  | iterate (pl : Plan) (cs : List Child)
  | listen (p : Pid)
  | put (pl : Plan)
  | accept (p : Pid)
  | quit (p : Pid)
  | accepted (pl : Plan)
  | finish (p : Pid) (val : ℕ)
  | report (pl : Plan) (more : Bool)
  | exit (p : Pid) (onSig : Bool) (val : ℕ)
  | reap (p : Pid)

def Deed.act : Deed → Act
  | .arrive p => .arrive p
  | .connect pl want => .connect pl.env want
  | .wake pl fileChanged => .wake pl.env fileChanged
  | .collect pl => .collect pl.env
  | .init pl => .init pl.env
  | .rouse p woken => .rouse p woken
  | .iterate pl cs => .iterate pl.env cs
  | .listen p => .listen p
  | .put pl => .put pl.env
  | .accept p => .accept p
  | .quit p => .quit p
  | .accepted pl => .accepted pl.env
  | .finish p val => .finish p val
  | .report pl more => .report pl.env more
  | .exit p onSig val => .exit p onSig val
  | .reap p => .reap p

namespace World

variable {W : World}

instance (q : Pid) : Decidable (W.free q) := inferInstanceAs (Decidable (_ ∧ _ ∧ ¬ _))

def allows (W : World) (pl : Plan) : Bool :=
  pl.connects.all (fun c => c.2 = 0 ∨ W.sock c.1 ≠ none) && pl.spawn.child.all (fun q => W.free q) &&
    pl.fork.all fun q => W.free q

lemma answers_of_allows {pl : Plan} {cs : List Child} (h : W.allows pl = true) : W.Answers pl.env cs := by
  simp only [allows, Bool.and_eq_true, Option.all_eq_true, decide_eq_true_eq] at h
  obtain ⟨⟨hconn, hspawn⟩, hfork⟩ := h
  refine ⟨fun _ _ _ _ _ => rfl, fun b hb => ?_, hspawn, hfork⟩
  cases hc : pl.connects with
  | none => simp [Plan.env, hc] at hb
  | some c =>
    simp only [Plan.env, hc] at hb
    split at hb
    · subst b
      exact (hconn c hc).resolve_left hb
    · exact absurd rfl hb

/-- The deed is fair. -/
def fair (W : World) : Deed → Bool
  | .arrive p => W.free p
  | .connect pl _ | .collect pl | .init pl | .iterate pl _ | .put pl | .accepted pl | .report pl _ =>
    W.allows pl
  | .wake pl fileChanged => W.allows pl && match W.role pl.self with
    | .queued _ _ _ _ stat _ => fileChanged || pl.stat = stat
    | _ => true
  | _ => true

lemma fair_act {d : Deed} (h : W.fair d = true) : W.Fair d.act := by
  cases d with
  | arrive p => exact (by simpa [fair] using h : W.free p)
  | wake pl fileChanged =>
    simp only [fair, Bool.and_eq_true] at h
    refine ⟨answers_of_allows h.1, fun g f want d stat since hr hc => ?_⟩
    have hr : W.role pl.self = _ := hr
    have h2 := h.2
    rw [hr] at h2
    exact (by simpa [hc] using h2 : pl.stat = stat)
  | connect | collect | init | iterate | put | accepted | report => exact answers_of_allows h
  | _ => trivial

/-- The state after deeds that are fair and possible. -/
def play (W : World) (ds : List Deed) : Option World :=
  Lib.Lts.runOk (fun W d => step W d.act) fair W ds

/-- What fair steps by deeds of a kind keep holds after a play of such deeds. -/
lemma play_keeps {W' : World} {ds : List Deed} {P : World → Prop} {ok : Deed → Prop} (h : P W)
    (hstep : ∀ V d V', P V → ok d → V.fair d = true → V.step d.act = some V' → P V')
    (hok : ∀ d ∈ ds, ok d) (hp : W.play ds = some W') : P W' :=
  Lib.Lts.runOk_keeps h (fun V d hd V' hV => hstep V d V' hV (hok d hd)) hp

lemma play_reachable {W' : World} {ds : List Deed} (h : Reachable W) (hp : W.play ds = some W') :
    Reachable W' :=
  play_keeps h (fun _ _ _ hV (_ : True) hf hs => .step hV (fair_act hf) hs)
    (fun _ _ => trivial) hp

/-- Frontend 2 queues up and starts the parent 3, which starts backend 4; the backend serves the
frontend, and waits again. -/
def served : List Deed := [
  .arrive 2, .connect { self := 2, spawn := .spawned 3 } true, .init { self := 3, fork := some 4 },
  .listen 4, .put { self := 4 }, .wake { self := 2, connects := some (4, 3) } false, .accept 4,
  .accepted { self := 4 }, .finish 4 7, .report { self := 4 } true]

/-- What a play ends with holds in a reachable state. -/
lemma exists_of_play {β : Type} (f : World → β) {x : β} (ds : List Deed)
    (h : (init.play ds).map f = some x) : ∃ W, Reachable W ∧ f W = x := by
  obtain ⟨W, hW, hf⟩ := Option.map_eq_some_iff.mp h
  exact ⟨W, play_reachable .init hW, hf⟩

/-- What a play of deeds that pass a test ends with holds in a state reached by such steps. -/
lemma exists_of_tested {β : Type} (ok : World → Act → Prop) (test : World → Deed → Bool)
    (htest : ∀ V d, test V d = true → ok V d.act) (f : World → β) {x : β} (ds : List Deed)
    (h : (Lib.Lts.runOk (fun W d => step W d.act) (fun W d => W.fair d && test W d) init ds).map f =
      some x) : ∃ W, Lib.Lts.ReachOk step init (fun W a => W.Fair a ∧ ok W a) W ∧ f W = x := by
  obtain ⟨W, hW, hf⟩ := Option.map_eq_some_iff.mp h
  refine ⟨W, Lib.Lts.runOk_keeps .init (fun V d _ V' hV hok hs => ?_) hW, hf⟩
  rw [Bool.and_eq_true] at hok
  exact .step hV ⟨fair_act hok.1, htest V d hok.2⟩ hs

end World

end SpeedyCgi.TempFile
