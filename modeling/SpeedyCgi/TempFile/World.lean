import SpeedyCgi.Lib.Lts
import SpeedyCgi.TempFile.BackendMain

/-!
The processes around the temp file.

Frontends, backends and backend parents run their locked sections, one at a time and in any
order. Between its sections a process does what it does without the lock: it waits for signals,
accepts connections, runs the script, dies. A process that has died is there until it is waited
for: by its backend parent, or by `init` if it has none.

`stamp`, `ended`, `ran`, `receipts` and `log` are history: nothing the programs do depends on
them.
-/

namespace SpeedyCgi.TempFile

open Function

/-- A connection of a frontend: the process, and when. -/
structure Conn where
  fe : Pid
  time : ℕ
  deriving DecidableEq, Repr

/-- A socket of a connection; stdin, stdout and stderr are 0, 1 and 2. -/
structure Sock where
  conn : Conn
  fd : ℕ
  deriving DecidableEq, Repr

/-- The first `n` sockets of a connection, in the order in which `speedy_ipc_connect` connects
them. -/
def socks (c : Conn) (n : ℕ) : List Sock := (List.range n).map (Sock.mk c)

/-- How the run for a connection ended. -/
inductive End
  /-- the backend reported what `onerun` returned -/
  | reported (val : ℕ)
  /-- the backend ended without a report, and its parent waited for it -/
  | reaped (onSig : Bool) (val : ℕ)
  /-- the backend ended without a report, and its parent was not there any more -/
  | lost (onSig : Bool) (val : ℕ)
  deriving DecidableEq, Repr

/-- Where a backend stands between its sections. -/
inductive Phase
  /-- before `speedy_ipc_listen` -/
  | start
  /-- before it puts itself on the wait list for the first time -/
  | ready
  /-- in `backend_accept` -/
  | waiting
  /-- behind `backend_accept` -/
  | accepted
  /-- in `onerun` -/
  | running
  /-- behind `onerun` -/
  | ran (val : ℕ)
  /-- in `all_done` -/
  | leaving
  deriving DecidableEq, Repr

/-- A backend: its slots, its connections that wait to be accepted, and those it has accepted. -/
structure Server where
  g : SlotNum
  b : SlotNum
  phase : Phase := .start
  backlog : List Sock := []
  taken : List Sock := []
  deriving DecidableEq, Repr

/-- What `speedy_sig_wait` of a backend parent has left. `delivered` says that the handler has run for
a `SIGUSR1`, `usr1` and `alrm` are what `speedy_sig_got` finds. A handler that is interrupted by
that of another signal can lose one of the two, so a `SIGUSR1` that was delivered need not be found. -/
structure Woken where
  delivered : Bool
  usr1 : Bool
  alrm : Bool := false
  got : usr1 = true → delivered = true := by decide
  deriving DecidableEq, Repr

/-- What a process is. -/
inductive Role
  | absent
  /-- a frontend before a round of `speedy_frontend_connect` -/
  | idle (didClean : Bool)
  /-- waiting in `get_a_backend_hard`, in the queue since time `since`; `stat` is the script as
  it was looked at last -/
  | queued (g f : SlotNum) (want didSpawn : Bool) (stat : Stat) (since : ℕ)
  /-- connected to backend `b`, with frontend slot `f` -/
  | running (f b : SlotNum) (c : Conn)
  /-- a backend parent that has just been started -/
  | born
  /-- a backend parent in its loop: what has woken it if it does not wait for signals, and whether it
  has finished a round for the last `SIGUSR1` -/
  | parent (g : SlotNum) (woken : Option Woken) (answered : Bool)
  | backend (s : Server)
  /-- a backend parent that does not use the file any more -/
  | done
  deriving DecidableEq, Repr

/-- The connections that a process has not finished with. -/
def Role.held : Role → List Conn
  | .backend s => (s.backlog ++ s.taken).map Sock.conn
  | _ => []

/-- Sockets arrive at the process. -/
def Role.receive : Role → List Sock → Role
  | .backend s, l => .backend { s with backlog := s.backlog ++ l }
  | r, _ => r

structure World where
  file : File
  role : Pid → Role
  /-- how a process ended that has not been waited for -/
  dead : Pid → Option (Bool × ℕ)
  /-- a `SIGUSR1` is pending -/
  usr1 : Pid → Bool
  /-- the process that forked the backend, as long as it lives -/
  parent : Pid → Option Pid
  /-- the process that listens on the socket of a slot -/
  sock : SlotNum → Option Pid
  clock : ℕ
  /-- when a backend last came to put itself on the wait list -/
  stamp : SlotNum → ℕ
  ended : Conn → Option End
  /-- `onerun` has been called for the connection -/
  ran : Conn → Bool
  /-- the exit status that frontends have collected -/
  receipts : List (Conn × Bool × ℕ)
  /-- the events of the last section -/
  log : List Event

namespace World

variable (W : World)

@[simps -fullyApplied] def setRole (p : Pid) (r : Role) : World :=
  { W with role := update W.role p r }

/-- The runs for the connections in `cs` end with `x`. -/
def conclude (cs : List Conn) (x : End) : World :=
  { W with ended := fun c => if c ∈ cs ∧ W.ended c = none then some x else W.ended c }

/-- The process does not exist any more. -/
def bury (p : Pid) : World :=
  { W with
    role := update W.role p .absent
    dead := update W.dead p none
    usr1 := update W.usr1 p false
    parent := update W.parent p none }

/-- `waitpid` returns the children `cs`. -/
def collect (cs : List Child) : World :=
  cs.foldl (fun W c => (W.conclude (W.role c.pid).held (.reaped c.onSig c.val)).bury c.pid) W

/-- The sockets that a section of `p` has connected to process `q`. -/
def arrivals (p : Pid) (log : List Event) (q : Pid) : List Sock :=
  (calls log).flatMap fun c => if W.sock c.1 = some q then socks ⟨p, W.clock⟩ c.2 else []

/-- What process `q` is after a section of process `p`. -/
def roleAfter (p : Pid) (log : List Event) (q : Pid) : Role :=
  if .spawn q ∈ log then .born
  else match forked log q with
    | some (g, b) => .backend { g, b }
    | none => (W.role q).receive (W.arrivals p log q)

/-- A locked section of process `p` has ended in `s`. -/
def after (p : Pid) (s : St) : World :=
  { W with
    file := s.file
    role := W.roleAfter p s.log
    dead := fun q =>
      if .kill q .kill true ∈ s.log ∧ W.roleAfter p s.log q ≠ .absent then
        some ((W.dead q).getD (true, 9))
      else W.dead q
    usr1 := fun q =>
      W.usr1 q || decide (.kill q .usr1 true ∈ s.log ∧ W.roleAfter p s.log q ≠ .absent)
    parent := fun q =>
      if (forked s.log q).isSome then some p
      else (W.parent q).filter fun r => .kill r .kill true ∉ s.log
    sock := fun b =>
      if .unlink b ∈ s.log then none else (W.sock b).filter fun r => .kill r .kill true ∉ s.log
    clock := W.clock + 1
    log := s.log }

/-- A locked section of process `p`, if it does not end in the middle. -/
def sect {α : Type} (p : Pid) (m : M α) (k : α → World → World) : Option World :=
  match m { file := W.file } with
  | .ok (r, s) => some (k r (W.after p s))
  | .error _ => none

/-- What a frontend is after a section of `speedy_frontend_connect` at time `now`; `since` is when
it joined the queue. -/
def connected (e : Env) (want : Bool) (since now : ℕ) : Section → Role
  | .queued g f didSpawn => .queued g f want didSpawn e.stat since
  | .kept f b => .running f b ⟨e.self, now⟩
  | .sent _ | .failed _ => .idle true

/-- Backend `e.self` has put itself on the wait list at time `now`, or is all done. -/
def waits (e : Env) (s : Server) (now : ℕ) (ok : Bool) (W : World) : World :=
  { W.setRole e.self (.backend { s with phase := if ok = true then .waiting else .leaving }) with
    stamp := update W.stamp s.b now }

end World

inductive Act
  /-- a frontend starts -/
  | arrive (p : Pid)
  /-- a round of `speedy_frontend_connect` to its end or the first wait; `want` says that the
  caller wants the exit status -/
  | connect (e : Env) (want : Bool)
  /-- what follows a wait in `get_a_backend_hard` -/
  | wake (e : Env) (fileChanged : Bool)
  /-- `speedy_frontend_collect_status` in `doit` -/
  | collect (e : Env)
  /-- the first section of a backend parent -/
  | init (e : Env)
  /-- `speedy_sig_wait` of a backend parent returns -/
  | rouse (p : Pid) (woken : Woken)
  /-- the round of its loop that follows, in which `waitpid` finds the children `cs` -/
  | iterate (e : Env) (cs : List Child)
  /-- `speedy_ipc_listen` of a new backend -/
  | listen (p : Pid)
  /-- the first section of a backend -/
  | put (e : Env)
  /-- `speedy_ipc_accept` takes three sockets -/
  | accept (p : Pid)
  /-- a backend leaves without a lock: after a timeout or a signal, or if `getppid` is 1 -/
  | quit (p : Pid)
  /-- the section after the accept -/
  | accepted (e : Env)
  /-- `onerun` returns -/
  | finish (p : Pid) (val : ℕ)
  /-- the section after the run; `more` says that `MaxRuns` has not been reached -/
  | report (e : Env) (more : Bool)
  /-- a process ends, by a signal or not -/
  | exit (p : Pid) (onSig : Bool) (val : ℕ)
  /-- a process without a backend parent is waited for -/
  | reap (p : Pid)

namespace World

variable (W : World)

/-- The process is there and has not ended. -/
def runs (p : Pid) : Prop := W.role p ≠ .absent ∧ W.dead p = none

instance (p : Pid) : Decidable (W.runs p) := inferInstanceAs (Decidable (_ ∧ _))

/-- What `waitpid` may return to process `p`. -/
def children (p : Pid) (cs : List Child) : Prop :=
  (cs.map Child.pid).Nodup ∧
    ∀ c ∈ cs, W.parent c.pid = some p ∧ W.dead c.pid = some (c.onSig, c.val)

instance (p : Pid) (cs : List Child) : Decidable (W.children p cs) :=
  inferInstanceAs (Decidable (_ ∧ _))

/-- The system. -/
def step (W : World) : Act → Option World
  | .arrive p => if W.role p = .absent then some (W.setRole p (.idle false)) else none
  | .connect e want =>
    match W.role e.self with
    | .idle didClean =>
      if W.dead e.self = none then
        W.sect e.self (frontendConnect e want didClean) fun r W' =>
          W'.setRole e.self (connected e want W.clock W.clock r)
      else none
    | _ => none
  | .wake e fileChanged =>
    match W.role e.self with
    | .queued g f want didSpawn _ since =>
      if W.dead e.self = none then
        W.sect e.self (frontendWake e want g f didSpawn fileChanged) fun r W' =>
          W'.setRole e.self (connected e want since W.clock r)
      else none
    | _ => none
  | .collect e =>
    match W.role e.self with
    | .running f _ c =>
      if W.dead e.self = none then
        W.sect e.self (frontendCollectStatus e f) fun r W' =>
          match r with
          | some x => { W'.setRole e.self (.idle true) with receipts := (c, x) :: W.receipts }
          | none => W'
      else none
    | _ => none
  | .init e =>
    match W.role e.self with
    | .born =>
      if W.dead e.self = none then
        W.sect e.self (parentInit e) fun r W' =>
          W'.setRole e.self (r.elim .done fun g => .parent g none false)
      else none
    | _ => none
  | .rouse p woken =>
    match W.role p with
    | .parent g none answered =>
      if W.dead p = none ∧ (woken.delivered = true → W.usr1 p = true) then
        some { W.setRole p (.parent g (some woken) (answered && !woken.delivered)) with
          usr1 := update W.usr1 p (W.usr1 p && !woken.delivered) }
      else none
    | _ => none
  | .iterate e cs =>
    match W.role e.self with
    | .parent g (some woken) answered =>
      if W.dead e.self = none ∧ W.children e.self cs then
        (W.collect cs).sect e.self (parentIteration e g woken.usr1 woken.alrm cs) fun r W' =>
          W'.setRole e.self (if r = true then .done else .parent g none (answered || woken.delivered))
      else none
    | _ => none
  | .listen p =>
    match W.role p with
    | .backend s =>
      if W.dead p = none ∧ s.phase = .start then
        some { W.setRole p (.backend { s with phase := .ready }) with
          sock := update W.sock s.b (some p) }
      else none
    | _ => none
  | .put e =>
    match W.role e.self with
    | .backend s =>
      if W.dead e.self = none ∧ s.phase = .ready then
        W.sect e.self (perlWait e s.g s.b false) (waits e s W.clock)
      else none
    | _ => none
  | .accept p =>
    match W.role p with
    | .backend s =>
      if W.dead p = none ∧ s.phase = .waiting ∧ 3 ≤ s.backlog.length then
        some (W.setRole p (.backend
          { s with phase := .accepted, backlog := s.backlog.drop 3, taken := s.backlog.take 3 }))
      else none
    | _ => none
  | .quit p =>
    match W.role p with
    | .backend s =>
      if W.dead p = none ∧ (s.phase = .waiting ∨ s.phase = .ready ∧ W.parent p = none) then
        some (W.setRole p (.backend { s with phase := .leaving }))
      else none
    | _ => none
  | .accepted e =>
    match W.role e.self with
    | .backend s =>
      if W.dead e.self = none ∧ s.phase = .accepted then
        W.sect e.self (perlAccepted e s.g) fun r W' =>
          if r = true then
            { W'.setRole e.self (.backend { s with phase := .running }) with
              ran := fun c => W.ran c || decide (c ∈ s.taken.map Sock.conn) }
          else W'.setRole e.self (.backend { s with phase := .leaving })
      else none
    | _ => none
  | .finish p val =>
    match W.role p with
    | .backend s =>
      if W.dead p = none ∧ s.phase = .running then
        some (W.setRole p (.backend { s with phase := .ran val }))
      else none
    | _ => none
  | .report e more =>
    match W.role e.self with
    | .backend s =>
      match s.phase with
      | .ran val =>
        if W.dead e.self = none then
          (W.conclude (s.taken.map Sock.conn) (.reported val)).sect e.self
            (perlNext e s.g s.b val more (W.parent e.self).isNone)
            (waits e { s with taken := [] } W.clock)
        else none
      | _ => none
    | _ => none
  | .exit p onSig val =>
    if W.runs p then
      some { W with
        dead := update W.dead p (some (onSig, val))
        sock := fun b => (W.sock b).filter (· ≠ p)
        parent := fun q => (W.parent q).filter (· ≠ p) }
    else none
  | .reap p =>
    match W.dead p, W.parent p with
    | some x, none => some ((W.conclude (W.role p).held (.lost x.1 x.2)).bury p)
    | _, _ => none

/-- No file, no process. -/
def init : World :=
  { file := .empty, role := fun _ => .absent, dead := fun _ => none, usr1 := fun _ => false
    parent := fun _ => none, sock := fun _ => none, clock := 1, stamp := fun _ => 0
    ended := fun _ => none, ran := fun _ => false, receipts := [], log := [] }

end World

/-- A slot in use names the process. -/
def File.names (f : File) (q : Pid) : Prop :=
  ∃ n ∈ List.range' 1 f.slotsAlloced, f.prev n ≠ n ∧
    ((f.be n).pid = q ∨ (f.fe n).pid = q ∨ (f.gr n).beParent = q ∨ (f.gr n).beStarting = q)

instance (f : File) (q : Pid) : Decidable (f.names q) := List.decidableBEx ..

namespace World

variable (W : World)

/-- A pid that a new process may get: it is not used while a slot names it. -/
def free (q : Pid) : Prop := q ≠ 0 ∧ W.role q = .absent ∧ ¬ W.file.names q

/-- What the system answers in a section, in which `waitpid` finds the children `cs`. -/
structure Answers (e : Env) (cs : List Child) : Prop where
  /-- `kill` does not fail if the process is there; one that ends during the section may have been
  found before -/
  alive : ∀ log q, W.role q ≠ .absent → (∀ c ∈ cs, c.pid ≠ q) → .kill q .kill true ∉ log →
    e.alive log q = true
  connects : ∀ b, e.connects b ≠ 0 → W.sock b ≠ none
  spawn : ∀ q, e.spawn.child = some q → W.free q
  fork : ∀ q, e.fork = some q → W.free q

/-- What is assumed of the system. -/
def Fair (W : World) : Act → Prop
  | .arrive p => W.free p
  | .connect e _ | .collect e | .init e | .put e | .accepted e | .report e _ => W.Answers e []
  | .wake e fileChanged => W.Answers e [] ∧ ∀ g f want didSpawn stat since,
      W.role e.self = .queued g f want didSpawn stat since → fileChanged = false → e.stat = stat
  | .iterate e cs => W.Answers e cs
  | _ => True

/-- The states that any run reaches. -/
abbrev Reachable : World → Prop := Lib.Lts.ReachOk step init Fair

end World

end SpeedyCgi.TempFile
