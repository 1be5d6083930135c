import SpeedyCgi.Copy.CopyBuf
import Mathlib.Logic.Function.Basic

/-!
The copy loop of the frontend.

`doit` has its descriptors, three copy buffers and the flags of its loop; `pc` is the place in the
loop. What `poll` finds ready, what `readv` and `writev` do, whether a signal came and the backend's
status could be collected, and which side of a `fork` is looked at are given to each step. `reply`
remembers the call of `speedy_frontend_proto2`: the first byte, and whether the socket was open.
-/

namespace SpeedyCgi.Copy

open Lib.Lts

/-! ### File descriptors -/

inductive FdState
  | unknown
  | close
  | block
  | noblock
deriving DecidableEq

/-- What the frontend knows about its descriptors, and which ones are open. -/
structure Fds where
  state : ℕ → FdState
  isOpen : ℕ → Bool

/-- `fd_change` to a state other than `FD_CLOSE`: the `fcntl` fails on a descriptor not open. -/
def fdSetfl (fd : ℕ) (state : FdState) (f : Fds) : Fds :=
  { f with state := Function.update f.state fd (if f.isOpen fd then state else .close) }

def fdChange (fd : ℕ) (state : FdState) (f : Fds) : Fds :=
  if state ≠ f.state fd ∧ f.state fd ≠ .close then
    if state = .close then
      let f := if f.state fd = .noblock ∧ fd ≤ 2 then fdSetfl fd .block f else f
      ⟨Function.update f.state fd .close, Function.update f.isOpen fd false⟩
    else fdSetfl fd state f
  else f

def fdInit (fd : ℕ) (state : FdState) (f : Fds) : Fds :=
  fdChange fd state { f with state := Function.update f.state fd .unknown }

def fdClosed (f : Fds) (fd : ℕ) : Bool := f.state fd = .close

/-! ### The copy buffers -/

abbrev CB_IN : Fin 3 := 0
abbrev CB_OUT : Fin 3 := 1
abbrev CB_ERR : Fin 3 := 2

/-- Where `doit` is: before the tests of a buffer, before a read or a write of it, behind the reads
and writes of all of them, in `poll`, or out of the loop. -/
inductive Pc
  | tests (i : Fin 3)
  | io (i : Fin 3) (doRead doWrite : Bool)
  | exits
  | poll
  | done
deriving DecidableEq

structure Doit where
  fds : Fds
  socks : Fin 3 → ℕ
  cb : Fin 3 → CopyBuf
  inIsTty : Bool
  gotStdout : Bool
  stopSockReads : Bool
  readStopped : Fin 3 → Bool
  backendExited : Bool
  amChild : Bool
  pc : Pc
  reply : Option (Int × Bool)

def myCopydone (s : Doit) (i : Fin 3) : Bool :=
  speedyCbCopydone (s.cb i) && (s.gotStdout || i ≠ CB_OUT || (s.cb i).eof)

def myCanread (s : Doit) (i : Fin 3) : Bool :=
  !(i ≠ CB_IN && s.stopSockReads && s.readStopped i) &&
    (speedyCbCanread (s.cb i) || !s.gotStdout && i = CB_OUT && !(s.cb i).eof)

def tryClose (s : Doit) (i : Fin 3) : Doit :=
  if myCopydone s i then
    { s with fds := fdChange (s.cb i).wrfd .close (fdChange (s.cb i).rdfd .close s.fds) }
  else s

/-! ### Before the loop -/

/-- How `doit` starts: the descriptors that are open then, the options and the request, and what
`speedy_frontend_connect` leaves open. The sockets are created one after the other, each of them
the lowest descriptor that is not open. -/
structure Launch where
  isOpen : ℕ → Bool
  inIsTty : Bool
  bufsizPost : ℕ
  bufsizGet : ℕ
  ibuf : Contents
  opened : ℕ → Bool
  socks : Fin 3 → ℕ
  still : ∀ fd, isOpen fd → opened fd
  fresh : ∀ i, ¬isOpen (socks i)
  sock_open : ∀ i, opened (socks i)
  sock_lt : socks 0 < socks 1 ∧ socks 1 < socks 2

/-- The descriptors when the sockets are there. -/
def Launch.fds (l : Launch) : Fds :=
  let f : Fds := ⟨fun _ => .unknown, l.isOpen⟩
  let f := fdInit 2 .noblock (fdInit 1 .noblock (fdInit 0 .noblock f))
  let f := { f with isOpen := l.opened }
  fdInit (l.socks 2) .noblock (fdInit (l.socks 1) .noblock (fdInit (l.socks 0) .noblock f))

/-- The copy buffers, with no more i/o on descriptors that are not open. -/
def Launch.cb (l : Launch) (i : Fin 3) : CopyBuf :=
  match i with
  | 0 =>
    let b := speedyCbInit (max l.bufsizPost l.ibuf.alloced) 0 (l.socks 0) (some l.ibuf)
    if fdClosed l.fds 0 then speedyCbSeteof b else b
  | 1 =>
    let b := speedyCbInit l.bufsizGet (l.socks 1) 1 none
    if fdClosed l.fds 1 then speedyCbSetWriteErr b ebadf else b
  | 2 =>
    let b := speedyCbInit 512 (l.socks 2) 2 none
    if fdClosed l.fds 2 then speedyCbSetWriteErr b ebadf else b

def doitSetup (l : Launch) : Doit :=
  let s : Doit :=
    { fds := l.fds
      socks := l.socks
      cb := l.cb
      inIsTty := l.isOpen 0 && l.inIsTty
      gotStdout := false
      stopSockReads := false
      readStopped := fun _ => false
      backendExited := false
      amChild := false
      pc := .tests 0
      reply := none }
  tryClose (tryClose (tryClose s 0) 1) 2

/-! ### The loop -/

inductive Event
  | ready (rd wr : Bool)
  | read (junk : ℕ → UInt8) (r : ReadRes)
  | write (r : WriteRes)
  | exits (sig collected child : Bool)
  | poll (failed : Bool)

def nextBuf (i : Fin 3) : Pc := if i = 2 then .exits else .tests (i + 1)

/-- The end of the inner loop: on with the reads and writes of this buffer, or try to close it. -/
def ioDone (s : Doit) (i : Fin 3) (doRead doWrite : Bool) : Doit :=
  if doRead || doWrite then { s with pc := .io i doRead doWrite }
  else { tryClose s i with pc := nextBuf i }

/-- What comes of the first byte of the backend's stdout. -/
def firstByte (s : Doit) : Doit :=
  { s with
    gotStdout := true
    cb := Function.update s.cb CB_OUT (speedyCbShift (s.cb CB_OUT)).2
    reply := some ((speedyCbShift (s.cb CB_OUT)).1, s.fds.isOpen (s.socks 2)) }

/-- A read of a buffer has left `b` of it. -/
def readDone (s : Doit) (i : Fin 3) (doWrite : Bool) (b : CopyBuf) : Doit :=
  let dataRead : Bool := speedyCbDataLen b > speedyCbDataLen (s.cb i)
  let s := { s with
    cb := Function.update s.cb i b
    readStopped := if dataRead then s.readStopped else Function.update s.readStopped i true }
  let s := if !s.gotStdout && i = CB_OUT && dataRead then firstByte s else s
  ioDone s i false (doWrite || speedyCbCanwrite (s.cb i) && ((s.cb i).eof || dataRead))

/-- A write of a buffer has left `b` of it. -/
def writeDone (s : Doit) (i : Fin 3) (b : CopyBuf) : Doit :=
  let sz := speedyCbDataLen (s.cb i)
  let s := { s with cb := Function.update s.cb i b }
  ioDone s i (myCanread s i && speedyCbDataLen b < sz && !(i = 0 && s.inIsTty)) false

/-- Out of the loop. -/
def finish (s : Doit) : Doit :=
  { s with
    fds := fdChange 2 .block (fdChange 1 .block (fdChange 0 .block s.fds))
    pc := .done }

def bothDone (s : Doit) : Bool := myCopydone s CB_OUT && myCopydone s CB_ERR

/-- The part of the loop behind the reads and writes. -/
def afterIo (sig collected child : Bool) (s : Doit) : Doit :=
  if s.backendExited then
    if s.amChild then
      if bothDone s then finish s else { s with pc := .poll }
    else if !speedyCbCanwrite (s.cb CB_OUT) && !speedyCbCanwrite (s.cb CB_ERR) then
      if bothDone s then finish s
      else if s.readStopped 1 && s.readStopped 2 then
        if child then { s with amChild := true, stopSockReads := false, pc := .poll }
        else finish s
      else { s with pc := .poll }
    else { s with pc := .poll }
  else if sig then
    let s := { s with backendExited := collected }
    if collected then
      if bothDone s then finish s
      else { s with stopSockReads := true, readStopped := fun _ => false, pc := .tests 0 }
    else { s with pc := .poll }
  else { s with pc := .poll }

def doitStep (s : Doit) : Event → Option Doit
  | .ready rd wr => match s.pc with
    | .tests i =>
      let doRead := myCanread s i && rd
      let doWrite := speedyCbCanwrite (s.cb i) && wr
      some { s with pc := if doRead || doWrite then .io i doRead doWrite else nextBuf i }
    | _ => none
  | .read junk r => match s.pc with
    | .io i true doWrite => (speedyCbRead junk r (s.cb i)).map (readDone s i doWrite)
    | _ => none
  | .write r => match s.pc with
    | .io i false true => (speedyCbWrite r (s.cb i)).map (writeDone s i)
    | _ => none
  | .exits sig collected child => match s.pc with
    | .exits => some (afterIo sig collected child s)
    | _ => none
  | .poll failed => match s.pc with
    | .poll => some { s with pc := if failed then .done else .tests 0 }
    | _ => none

end SpeedyCgi.Copy
