import SpeedyCgi.TempFile.FollowParent
import SpeedyCgi.TempFile.Others
import SpeedyCgi.TempFile.World

/-!
What is true between any two sections.

The processes agree with the file: a frontend that waits is in the queue of its group, one that
runs is connected to a backend that has its connection or has its status already, a backend parent
is the parent of its group, and a backend serves its group as far as it has come.
-/

namespace SpeedyCgi.TempFile

open Function

variable {W W' : World} {A B : AFile} {w : Who} {e : Env} {p q r : Pid} {g b f n : SlotNum}
  {due : Pid → End → Prop}

/-! ### The invariant -/

/-- The exit status that belongs to the end of a run; nobody has seen that of a lost one. -/
def End.shows : End → Bool → ℕ → Prop
  | .reported val, sig, v => sig = false ∧ v = val
  | .reaped onSig val, sig, v => sig = onSig ∧ v = val
  | .lost .., sig, v => sig = true ∧ v = 9

/-- The processes that may be the parent of a group. -/
def Role.leads : Role → Prop
  | .born | .parent .. | .done => True
  | _ => False

def Role.frontend : Role → Prop
  | .idle _ | .queued .. | .running .. => True
  | _ => False

/-- Nothing in the file has to be as the process expects. -/
def Role.bare : Role → Prop
  | .absent | .idle _ | .born | .done => True
  | .backend s => s.phase = .leaving
  | _ => False

/-- The backend is in use, and not for the first time on the wait list. -/
structure Server.Busy (s : Server) (A : AFile) (q : Pid) : Prop where
  serves : A.serves s.g s.b q
  run : (A.be s.b).feRunning ≠ 0
  mature : (A.be s.b).maturity ≠ 0

/-- The backend waits and is listed as waiting. -/
structure Server.Idle (s : Server) (A : AFile) (q : Pid) : Prop where
  serves : A.serves s.g s.b q
  run : (A.be s.b).feRunning = 0
  mature : (A.be s.b).maturity ≠ 0

/-- What a backend finds in the file. One that waits may have been removed, after a connection
that failed; then nobody will connect to it any more. -/
def Server.Fits (s : Server) (A : AFile) (q : Pid) : Prop :=
  match s.phase with
  | .start | .ready =>
    A.serves s.g s.b q ∧ (A.be s.b).feRunning = s.b ∧ s.backlog = [] ∧ s.taken = []
  | .waiting => s.taken = [] ∧ (s.Idle A q ∧ s.backlog = [] ∨
      s.Busy A q ∧ (∃ c, s.backlog = socks c 3) ∨ ¬ A.serves s.g s.b q ∧ s.backlog.length < 3)
  | .accepted | .running | .ran _ => s.Busy A q ∧ s.backlog = [] ∧ ∃ c, s.taken = socks c 3
  | .leaving => True

namespace World

/-- Frontend slot `f` has the status of connection `c`, or the backend has not finished with it;
`due` are the ends of runs that have not been told to the frontends yet. -/
def Pays (W : World) (due : Pid → End → Prop) (A : AFile) (f b : SlotNum) (c : Conn) : Prop :=
  (A.fe f).backend = 0 ∧
    (∃ x, W.ended c = some x ∧ x.shows (A.fe f).exitOnSig (A.fe f).exitVal) ∨
  (A.fe f).backend = b ∧ ∃ g q, q ≠ 0 ∧ A.serves g b q ∧
    (c ∈ (W.role q).held ∨ ∃ x, W.ended c = some x ∧ due q x)

/-- What a process finds in the file. -/
def Fit (W : World) (due : Pid → End → Prop) (A : AFile) (q : Pid) : Role → Prop
  | .queued g f _ _ stat since =>
    A.Waits g f q ⟨stat.dev, stat.ino, stat.mtime⟩ ∧ since < W.clock
  | .running f b c => A.seat (.chain .feRun) f q ∧ c.fe = q ∧ c.time < W.clock ∧
      (∀ r ∈ W.receipts, r.1 ≠ c) ∧ W.Pays due A f b c
  | .parent g _ _ => W.dead q = none → A.own g = .chain .group ∧ (A.gr g).beParent = q
  | .backend s => s.Fits A q
  | _ => True

/-- Who runs a section, as far as it is the same for all of them. -/
@[simps] def who (W : World) (p : Pid) (max : ℕ) : Who :=
  { self := p, live := fun q => W.role q ≠ .absent, me := fun _ => False, boss := fun _ => False
    heads := fun _ => False, died := fun _ _ _ => False, tells := fun _ => False
    ran := fun _ => False, max := max, grows := fun _ => False, puts := fun _ => False, stamp := W.stamp }

/-- What is true of the processes whatever the file says. -/
structure Books (W : World) : Prop where
  zero : W.role 0 = .absent
  clean : ∀ q, W.role q = .absent → W.dead q = none ∧ W.usr1 q = false ∧ W.parent q = none
  kin : ∀ q p, W.parent q = some p → W.dead p = none ∧ ∃ s, W.role q = .backend s ∧
    ((∃ woken answered, W.role p = .parent s.g woken answered) ∨ W.role p = .done)
  past : ∀ n, W.stamp n < W.clock
  held : ∀ q, ∀ c ∈ (W.role q).held, c.time < W.clock ∧ W.ended c = none
  once : ∀ q q' c, c ∈ (W.role q).held → c ∈ (W.role q').held → q = q'
  ended : ∀ c x, W.ended c = some x → c.time < W.clock
  receipts : ∀ r ∈ W.receipts, r.1.time < W.clock ∧
    ∃ x, W.ended r.1 = some x ∧ x.shows r.2.1 r.2.2
  nodup : (W.receipts.map Prod.fst).Nodup

structure Inv (W : World) (due : Pid → End → Prop) (A : AFile) : Prop where
  rep : Rep { file := W.file } A
  inv : AInv A
  still : ∀ n, A.own n ≠ .loose
  ranked : Ranked (W.who 0 0) A
  fit : ∀ q, W.Fit due A q (W.role q)
  /-- a backend slot that names a process is the slot of that process -/
  listed : ∀ b g, A.own b = .chain (.be g) → W.role (A.be b).pid ≠ .absent →
    ∃ s, W.role (A.be b).pid = .backend s ∧ s.g = g ∧ s.b = b
  heads : ∀ g, A.own g = .chain .group → W.role (A.gr g).beParent ≠ .absent →
    (W.role (A.gr g).beParent).leads
  sock : ∀ b q, W.sock b = some q → W.dead q = none ∧
    ∃ s, W.role q = .backend s ∧ s.b = b ∧ A.serves s.g b q
  line : ∀ q q' g f f' x x' d d' st st' t t', W.role q = .queued g f x d st t →
    W.role q' = .queued g f' x' d' st' t' → t < t' → A.inLine g f f'
  books : W.Books

/-- Between two sections the ends that have not been told are those of backends that nobody has
waited for. -/
def untold (W : World) (q : Pid) (x : End) : Prop := W.role q = .absent ∧ ∃ sig val, x = .lost sig val

end World

end SpeedyCgi.TempFile
