import Mathlib.Logic.Function.Basic
import Mathlib.Tactic.Common
import SpeedyCgi.Lib.Lts

/-!
The lock on the temp file: `speedy_file.c` and the programs that call it.

Every process runs `speedy_file_set_state`, `file_lock`, `file_unlock`, `remove_file` and
`file_close` one atomic access at a time: one system call, or one load or store of the mapped
head. Between two accesses any other process may run, and any process may die. The rest of the
file (its list heads and slots) is a value of type `C` that the holder of the lock writes as it
likes.

An incarnation is one file created under the temp-file name, numbered in order of creation. A
process that dies or executes `DIE` disappears and the kernel drops its lock.

`left`, `cleared`, `unlinks`, `acquired` and `slots` are history: nothing the program does
depends on them.
-/

namespace SpeedyCgi.FileLock

open Function

abbrev Pid := ℕ
abbrev Inc := ℕ

/-- `FS_CLOSED`, `FS_OPEN`, `FS_HAVESLOTS` and `FS_CORRUPT`. -/
inductive FsState | closed | «open» | haveSlots | corrupt
  deriving DecidableEq, Repr

/-- The comparison `s < FS_HAVESLOTS`. -/
def FsState.low : FsState → Bool
  | .closed | .open => true
  | .haveSlots | .corrupt => false

/-- Where a program stands with respect to the temp file. The frontend runs
`speedy_frontend_connect` and then the copy loop of `doit`; the backend is the child of
`start_child`; the parent is `main` of the backend program. -/
inductive Client
  /-- before the next locked section of `speedy_frontend_connect` -/
  | feStart
  | feLocked
  /-- unlocked in `get_a_backend_hard` -/
  | feQueued
  /-- in the copy loop with `fslotnum`, between two polls -/
  | feKept
  | fePolling
  /-- child of `start_child` before its `FS_CLOSED` -/
  | beForked
  /-- in `speedy_perl_run`, between two locked sections -/
  | beUnlocked
  | beLocked
  /-- a process forked by the perl script that returned: `all_done` is all it does -/
  | beStray
  | beDone
  | parStart
  | parLocked
  | parUnlocked
  | parDone
  deriving DecidableEq, Repr

/-- The `speedy_file_set_state` calls a program can make next, and where it stands after. -/
def Client.calls : Client → List (FsState × Client)
  | .feStart => [(.corrupt, .feLocked)]
  | .feLocked => [(.haveSlots, .feQueued), (.haveSlots, .feKept), (.open, .feStart)]
  | .feQueued => [(.corrupt, .feLocked)]
  | .feKept => [(.corrupt, .fePolling)]
  | .fePolling => [(.open, .feKept), (.open, .feStart)]
  | .beForked => [(.closed, .beUnlocked)]
  | .beUnlocked => [(.corrupt, .beLocked), (.closed, .beDone)]
  | .beLocked => [(.haveSlots, .beUnlocked), (.closed, .beDone)]
  | .beStray => [(.closed, .beDone)]
  | .parStart => [(.corrupt, .parLocked)]
  | .parLocked => [(.haveSlots, .parUnlocked), (.closed, .parDone)]
  | .parUnlocked => [(.corrupt, .parLocked)]
  | .beDone | .parDone => []

/-- The program still holds slot numbers that it will use under a later lock. -/
def Client.keeps : Client → Bool
  | .feStart | .beStray | .beDone | .parStart | .parDone => false
  | _ => true

/-- The three calls of `remove_file`: after the `create_time` test, after the `lock_owner`
test, and in `file_close`. -/
inductive Site | time | owner | close
  deriving DecidableEq, Repr

/-- The next access of a process. -/
inductive Pc
  /-- outside `speedy_file.c` -/
  | idle
  /-- top of the loop of `file_lock`: open the file if `file_fd` is -1 -/
  | opening
  | setlkw
  /-- fill in `create_time` if it is still zero -/
  | stamp
  /-- compare `create_time` with our copy -/
  | compare
  /-- test `lock_owner` -/
  | owner
  /-- test `file_removed` -/
  | removed
  /-- store our pid in `lock_owner` and return from `file_lock` -/
  | own
  /-- `file_close`: are there groups or running frontends left? -/
  | empty
  /-- `unlink` in `remove_file` -/
  | unlink (s : Site)
  /-- `FILE_HEAD.file_removed = 1` in `remove_file` -/
  | mark (s : Site)
  /-- `FILE_HEAD.lock_owner = 0` in `file_unlock` -/
  | clear
  /-- `F_UNLCK` -/
  | unlock
  /-- `close` in `file_close2` -/
  | shut
  /-- `waitpid` in `be_parent_spawn` -/
  | wait (h : Pid)
  /-- the helper child of `be_parent_spawn`, with incarnation `i` mapped -/
  | helper (i : Inc)
  deriving DecidableEq, Repr

/-- The static variables of `speedy_file.c`, the call in progress and the program around it. -/
structure Proc where
  fd : Option Inc := none
  fileLocked : Bool := false
  curState : FsState := .closed
  fileCreateTime : ℕ := 0
  tries : ℕ := 0
  /-- argument of the `speedy_file_set_state` in progress -/
  target : FsState := .closed
  /-- where the program stands once the call returns -/
  goal : Client
  client : Client
  /-- the incarnation the retained slot numbers come from -/
  slots : Option Inc := none
  pc : Pc := .idle
  deriving DecidableEq

/-- The file without `create_time` and `lock_owner`. -/
structure Image (C : Type*) where
  fileRemoved : Bool
  content : C
  deriving DecidableEq

/-- An incarnation of the file: the fields of the head that the lock uses, the rest of the
file, and the process holding the write lock. -/
structure Inode (C : Type*) where
  createTime : ℕ
  lockOwner : Pid
  fileRemoved : Bool
  content : C
  holder : Option Pid
  /-- the file when `file_unlock` last returned -/
  left : Image C
  /-- the file when `file_unlock` last cleared `lock_owner` -/
  cleared : Image C

def Inode.image {C : Type*} (n : Inode C) : Image C := ⟨n.fileRemoved, n.content⟩

/-- What a successful return of `file_lock` found. -/
structure Acquired (C : Type*) where
  inc : Inc
  /-- the incarnation linked at the name -/
  linked : Option Inc
  found : Image C
  left : Image C
  cleared : Image C
  /-- the incarnation of the slot numbers the locked section is about to use -/
  used : Option Inc

structure World (C : Type*) where
  /-- the directory entry for the temp-file name -/
  dir : Option Inc
  /-- how many incarnations there have been -/
  next : Inc
  inode : Inc → Inode C
  proc : Pid → Option Proc
  /-- for each `unlink`: the incarnation locked by the caller and the one taken off the name -/
  unlinks : List (Inc × Option Inc)
  acquired : List (Acquired C)

inductive Act (C : Type*)
  /-- a frontend or a backend parent starts -/
  | spawn (p : Pid) (c : Client)
  /-- `speedy_file_set_state`; `reopen` is the timed re-open of `file_lock` or a descriptor
  found to be no longer ours -/
  | call (p : Pid) (s : FsState) (next : Client) (reopen : Bool)
  /-- the next access of `p`, `now` being the time of day -/
  | step (p : Pid) (now : ℕ)
  /-- the holder of the lock changes the file -/
  | write (p : Pid) (c : C)
  /-- `start_child` forks `q` -/
  | fork (p q : Pid)
  /-- the perl script forks `q`, which returns to `cleanup_after_perl` -/
  | stray (p q : Pid)
  /-- `be_parent_spawn` forks the helper `h` -/
  | helper (p h : Pid)
  /-- the helper stores `be_parent` or `be_starting` -/
  | helperWrite (h : Pid) (c : C)
  | die (p : Pid)

/-- The process that acts. -/
def Act.actor {C : Type*} : Act C → Pid
  | .spawn p _ | .call p _ _ _ | .step p _ | .write p _ | .fork p _ | .stray p _ | .helper p _
  | .helperWrite p _ | .die p => p

namespace World

variable {C : Type*} (w : World C)

def setProc (p : Pid) (P : Proc) : World C := { w with proc := update w.proc p (some P) }

def setInode (i : Inc) (n : Inode C) : World C := { w with inode := update w.inode i n }

/-- The process disappears; its lock goes with it. -/
def exit (p : Pid) : World C :=
  { w with
    proc := update w.proc p none
    inode := fun i =>
      if (w.inode i).holder = some p then { w.inode i with holder := none } else w.inode i }

@[simp] lemma setProc_proc (p q : Pid) (P : Proc) :
    (w.setProc p P).proc q = if q = p then some P else w.proc q := by
  simp [setProc, update_apply]

@[simp] lemma setProc_inode (p : Pid) (P : Proc) : (w.setProc p P).inode = w.inode := rfl
@[simp] lemma setProc_dir (p : Pid) (P : Proc) : (w.setProc p P).dir = w.dir := rfl
@[simp] lemma setProc_next (p : Pid) (P : Proc) : (w.setProc p P).next = w.next := rfl
@[simp] lemma setProc_unlinks (p : Pid) (P : Proc) : (w.setProc p P).unlinks = w.unlinks := rfl
@[simp] lemma setProc_acquired (p : Pid) (P : Proc) : (w.setProc p P).acquired = w.acquired := rfl

@[simp] lemma setInode_inode (i j : Inc) (n : Inode C) :
    (w.setInode i n).inode j = if j = i then n else w.inode j := by
  simp [setInode, update_apply]

@[simp] lemma setInode_proc (i : Inc) (n : Inode C) : (w.setInode i n).proc = w.proc := rfl
@[simp] lemma setInode_dir (i : Inc) (n : Inode C) : (w.setInode i n).dir = w.dir := rfl
@[simp] lemma setInode_next (i : Inc) (n : Inode C) : (w.setInode i n).next = w.next := rfl
@[simp] lemma setInode_unlinks (i : Inc) (n : Inode C) : (w.setInode i n).unlinks = w.unlinks := rfl
@[simp] lemma setInode_acquired (i : Inc) (n : Inode C) :
    (w.setInode i n).acquired = w.acquired := rfl

@[simp] lemma exit_proc (p q : Pid) : (w.exit p).proc q = if q = p then none else w.proc q := by
  simp [exit, update_apply]

@[simp] lemma exit_inode (p : Pid) (i : Inc) : (w.exit p).inode i =
    if (w.inode i).holder = some p then { w.inode i with holder := none } else w.inode i := rfl
@[simp] lemma exit_dir (p : Pid) : (w.exit p).dir = w.dir := rfl
@[simp] lemma exit_next (p : Pid) : (w.exit p).next = w.next := rfl
@[simp] lemma exit_unlinks (p : Pid) : (w.exit p).unlinks = w.unlinks := rfl
@[simp] lemma exit_acquired (p : Pid) : (w.exit p).acquired = w.acquired := rfl

end World

/-- `speedy_file_set_state` returns. A program that keeps slot numbers and had none yet got them
in this section. -/
def Proc.finish (P : Proc) : Proc :=
  { P with
    pc := .idle
    curState := P.target
    client := P.goal
    slots := if P.goal.keeps then P.slots.or P.fd else none }

/-- The retained slot numbers that the section about to be entered works on: `file_close` only
looks at the head. -/
def Proc.used (P : Proc) : Option Inc := if P.target = .corrupt then P.slots else none

variable {C : Type*} (zero : C) (noSlots : C → Bool)

/-- The start of `speedy_file_set_state` up to the first access it makes. -/
def startCall (P : Proc) (s : FsState) (next : Client) (reopen : Bool) : Proc :=
  let P := { P with target := s, goal := next }
  if s = P.curState then P.finish
  else match s with
    | .corrupt =>
      if P.fileLocked then P.finish
      else { P with pc := .opening, tries := 5, fd := if reopen then none else P.fd }
    | .haveSlots | .open => if P.fileLocked then { P with pc := .clear } else P.finish
    | .closed =>
      if P.curState.low then { P with pc := .shut }
      else if P.fileLocked then { P with pc := .empty }
      else { P with pc := .opening, tries := 5, fd := if reopen then none else P.fd }

/-- The inode of a file just created. -/
def freshInode : Inode C := ⟨0, 0, false, zero, none, ⟨false, zero⟩, ⟨false, zero⟩⟩

/-- Where `remove_file` returns to. -/
def Site.back : Site → Pc
  | .time => .owner
  | .owner => .removed
  | .close => .clear

/-- The outcome of an access: the process dies, or both it and the inode change. -/
inductive Out (C : Type*)
  | die
  | go (P : Proc) (n : Inode C)

/-- The next access of a process `p` that has the file `n` open; `none` if it must wait. -/
def access (p : Pid) (P : Proc) (n : Inode C) (now : ℕ) : Option (Out C) :=
  match P.pc with
  | .setlkw =>
    if n.holder = none then some (.go { P with pc := .stamp } { n with holder := some p }) else none
  | .stamp =>
    if n.createTime ≠ 0 then some (.go { P with pc := .compare } n)
    else if now = 0 then none
    else some (.go { P with pc := .compare } { n with createTime := now })
  | .compare =>
    if P.fileCreateTime = 0 ∨ P.curState.low then
      some (.go { P with fileCreateTime := n.createTime, pc := .owner } n)
    else if P.fileCreateTime ≠ n.createTime then some (.go { P with pc := .unlink .time } n)
    else some (.go { P with pc := .owner } n)
  | .owner =>
    if n.lockOwner ≠ 0 then some (.go { P with pc := .unlink .owner } n)
    else some (.go { P with pc := .removed } n)
  | .removed =>
    if !n.fileRemoved then some (.go { P with pc := .own } n)
    else if !P.curState.low then some .die
    else if P.tries ≤ 1 then some .die
    else some (.go { P with fd := none, tries := P.tries - 1, pc := .opening }
      { n with holder := none })
  | .own =>
    let P := { P with fileLocked := true }
    if P.target = .corrupt then some (.go P.finish { n with lockOwner := p })
    else some (.go { P with pc := .empty } { n with lockOwner := p })
  | .empty => some (.go { P with pc := if noSlots n.content then .unlink .close else .clear } n)
  | .unlink s => some (.go { P with pc := .mark s } n)
  | .mark s => some (.go { P with pc := s.back } { n with fileRemoved := true })
  | .clear => some (.go { P with pc := .unlock } { n with lockOwner := 0, cleared := n.image })
  | .unlock =>
    let P := { P with fileLocked := false }
    if P.target = .closed then
      some (.go { P with pc := .shut } { n with holder := none, left := n.image })
    else some (.go P.finish { n with holder := none, left := n.image })
  | _ => none

/-- What an access does to the directory and to the history. -/
def World.record (w : World C) (P : Proc) (i : Inc) : World C :=
  match P.pc with
  | .unlink _ => { w with dir := none, unlinks := (i, w.dir) :: w.unlinks }
  | .own =>
    let n := w.inode i
    { w with acquired := ⟨i, w.dir, n.image, n.left, n.cleared, P.used⟩ :: w.acquired }
  | _ => w

@[simp] lemma World.record_inode (w : World C) (P : Proc) (i : Inc) :
    (w.record P i).inode = w.inode := by
  unfold World.record; split <;> rfl

@[simp] lemma World.record_proc (w : World C) (P : Proc) (i : Inc) :
    (w.record P i).proc = w.proc := by
  unfold World.record; split <;> rfl

@[simp] lemma World.record_next (w : World C) (P : Proc) (i : Inc) :
    (w.record P i).next = w.next := by
  unfold World.record; split <;> rfl

/-- `open` with `O_CREAT`. -/
def openFile (w : World C) : World C × Inc :=
  match w.dir with
  | some i => (w, i)
  | none =>
    ({ w.setInode w.next (freshInode zero) with dir := some w.next, next := w.next + 1 }, w.next)

/-- The next access of a process. -/
def next (w : World C) (p : Pid) (P : Proc) (now : ℕ) : Option (World C) :=
  match P.pc with
  | .opening =>
    match P.fd with
    | some _ => some (w.setProc p { P with pc := .setlkw })
    | none =>
      some ((openFile zero w).1.setProc p { P with fd := some (openFile zero w).2, pc := .setlkw })
  | .shut => some (w.setProc p { P with fd := none }.finish)
  | .wait h => if w.proc h = none then some (w.setProc p { P with pc := .idle }) else none
  | _ =>
    P.fd.bind fun i => (access noSlots p P (w.inode i) now).map fun
      | .die => w.exit p
      | .go P' n => ((w.record P i).setInode i n).setProc p P'

/-- `speedy_file_fork_child` in a child that goes on as `c`. -/
def Proc.forkChild (P : Proc) (c : Client) : Proc :=
  { P with
    fileLocked := false
    curState := if P.curState = .corrupt then .haveSlots else P.curState
    goal := c
    client := c }

/-- The system. -/
def step (w : World C) : Act C → Option (World C)
  | .spawn p c =>
    if p ≠ 0 ∧ w.proc p = none ∧ (c = .feStart ∨ c = .parStart) then
      some (w.setProc p { goal := c, client := c })
    else none
  | .call p s c reopen =>
    (w.proc p).bind fun P =>
      if P.pc = .idle ∧ (s, c) ∈ P.client.calls then
        some (w.setProc p (startCall P s c reopen))
      else none
  | .step p now => (w.proc p).bind fun P => next zero noSlots w p P now
  | .write p c =>
    (w.proc p).bind fun P => P.fd.bind fun i =>
      if P.pc = .idle ∧ P.fileLocked then
        some (w.setInode i { w.inode i with content := c })
      else none
  | .fork p q =>
    (w.proc p).bind fun P =>
      if q ≠ 0 ∧ w.proc q = none ∧ P.pc = .idle ∧ P.client = .parLocked then
        some (w.setProc q (P.forkChild .beForked))
      else none
  | .stray p q =>
    (w.proc p).bind fun P =>
      if q ≠ 0 ∧ w.proc q = none ∧ P.pc = .idle ∧ P.client = .beUnlocked then
        some (w.setProc q { P.forkChild .beStray with slots := none })
      else none
  | .helper p h =>
    (w.proc p).bind fun P => P.fd.bind fun i =>
      if h ≠ 0 ∧ w.proc h = none ∧ P.pc = .idle ∧ P.client = .feLocked then
        some ((w.setProc p { P with pc := .wait h }).setProc h
          { P.forkChild .beDone with slots := none, pc := .helper i })
      else none
  | .helperWrite h c =>
    (w.proc h).bind fun P =>
      match P.pc with
      | .helper i => some (w.setInode i { w.inode i with content := c })
      | _ => none
  | .die p => if w.proc p = none then none else some (w.exit p)

/-- No file, no process. -/
def init : World C :=
  { dir := none, next := 0, inode := fun _ => freshInode zero, proc := fun _ => none
    unlinks := [], acquired := [] }

end SpeedyCgi.FileLock
