import Mathlib.Algebra.Order.Ring.Int
import Mathlib.Logic.Function.Basic
import Mathlib.Tactic.Common

/-!
The temp file and its slots: `speedy_file.h`, `speedy_slot.h` and `speedy_slot.c`.

The file is one array of slots. A slot is a union of five records; here each record has an array
of its own, indexed by slot numbers, and so has each link field. The ends of all lists, those in
the file head and those in the group slots, are in `head` and `tail`.

A program runs inside one locked section. It changes the file, and it does things that other
processes can see: it sends signals, frees slots, unlinks and connects sockets, forks. These are
kept in a log, newest first. It may die: `DIE`, `speedy_util_die` and a slot number out of range
end the process in the middle of the section.
-/

namespace SpeedyCgi.TempFile

open Function

abbrev SlotNum := ℕ
abbrev Pid := ℕ

/-- `MAX_SLOTS`, for a `slotnum_t` of 16 bits. -/
def maxSlots : ℕ := 65530

/-- `GR_NAMELEN` -/
def grNameLen : ℕ := 12

structure ScrSlot where
  devNum : ℕ := 0
  inoNum : ℕ := 0
  mtime : ℕ := 0
  deriving DecidableEq, Repr

structure BeSlot where
  pid : Pid := 0
  feRunning : SlotNum := 0
  maturity : ℕ := 0
  deriving DecidableEq, Repr

structure FeSlot where
  pid : Pid := 0
  exitVal : ℕ := 0
  backend : SlotNum := 0
  exitOnSig : Bool := false
  sentSig : Bool := false
  deriving DecidableEq, Repr

/-- `gr_slot_t` without the ends of its lists. -/
structure GrSlot where
  beStarting : Pid := 0
  beParent : Pid := 0
  nameSlot : SlotNum := 0
  deriving DecidableEq, Repr

/-- The linked lists: the group list, the running frontends, and the scripts, backends and
waiting frontends of each group. -/
inductive Chain
  | group
  | feRun
  | script (g : SlotNum)
  | be (g : SlotNum)
  | fe (g : SlotNum)
  deriving DecidableEq, Repr

/-- A group slot has `script_head` but no `script_tail`. -/
def Chain.hasTail : Chain → Bool
  | .script _ => false
  | _ => true

structure File where
  next : SlotNum → SlotNum
  prev : SlotNum → SlotNum
  /-- `group_head`, `fe_run_head`, `script_head`, `be_head`, `fe_head` -/
  head : Chain → SlotNum
  /-- `group_tail`, `fe_run_tail`, `be_tail`, `fe_tail` -/
  tail : Chain → SlotNum
  slotFree : SlotNum
  slotsAlloced : SlotNum
  scr : SlotNum → ScrSlot
  be : SlotNum → BeSlot
  fe : SlotNum → FeSlot
  gr : SlotNum → GrSlot
  grnm : SlotNum → List UInt8

/-- A name slot of zeros. -/
def zeroName : List UInt8 := List.replicate grNameLen 0

/-- A file just created. -/
def File.empty : File :=
  { next := fun _ => 0, prev := fun _ => 0, head := fun _ => 0, tail := fun _ => 0
    slotFree := 0, slotsAlloced := 0
    scr := fun _ => {}, be := fun _ => {}, fe := fun _ => {}, gr := fun _ => {}
    grnm := fun _ => zeroName }

/-- `speedy_bzero` of slot `n`. -/
def File.bzero (f : File) (n : SlotNum) : File :=
  { f with
    next := update f.next n 0
    prev := update f.prev n 0
    head := fun c => if c = .script n ∨ c = .be n ∨ c = .fe n then 0 else f.head c
    tail := fun c => if c = .script n ∨ c = .be n ∨ c = .fe n then 0 else f.tail c
    scr := update f.scr n {}
    be := update f.be n {}
    fe := update f.fe n {}
    gr := update f.gr n {}
    grnm := update f.grnm n zeroName }

/-- The signals the programs send; `0` only asks whether the process is there. -/
inductive Sig | zero | alrm | usr1 | term | kill
  deriving DecidableEq, Repr

/-- What a locked section does besides changing the file. -/
inductive Event
  | kill (pid : Pid) (sig : Sig) (ok : Bool)
  | free (n : SlotNum)
  /-- `speedy_ipc_cleanup` -/
  | unlink (b : SlotNum)
  /-- `speedy_ipc_connect`, with the number of sockets that were connected -/
  | connect (b : SlotNum) (n : ℕ)
  /-- frontend `f` got backend `b` of group `g`; `fe_head` and its `sent_sig` at that moment -/
  | assign (g f b feHead : SlotNum) (sentSig : Bool)
  /-- the backend parent started by `be_parent_spawn` -/
  | spawn (pid : Pid)
  /-- the backend with slot `b` of group `g` started by `start_child` -/
  | fork (pid : Pid) (g b : SlotNum)
  deriving DecidableEq, Repr

/-- The connections in a log, newest first. -/
def calls (log : List Event) : List (SlotNum × ℕ) :=
  log.filterMap fun
    | .connect b n => some (b, n)
    | _ => none

/-- The backends that were given to frontends, newest first. -/
def assigned (log : List Event) : List SlotNum :=
  log.filterMap fun
    | .assign _ _ b _ _ => some b
    | _ => none

/-- The slots of the backend that was forked with this pid. -/
def forked (log : List Event) (q : Pid) : Option (SlotNum × SlotNum) :=
  log.findSome? fun
    | .fork p g b => if p = q then some (g, b) else none
    | _ => none

/-- How a process ends in the middle of a section. -/
inductive Die
  | slotRange
  | freeingFree
  | freeZero
  | outOfSlots
  | fileTooSmall
  | listsCorrupt
  | fork
  /-- a pointer to the tail of a list is followed that is `NULL` -/
  | nullTail
  /-- a loop of the source went round more often than there are slots -/
  | loop
  deriving DecidableEq, Repr

/-- The ends that do not come from a damaged file. -/
def Die.Allowed (d : Die) : Prop := d = .outOfSlots ∨ d = .fileTooSmall ∨ d = .fork

structure St where
  file : File
  log : List Event := []

abbrev M := StateT St (Except Die)

/-- What `fork` gives the frontend in `be_parent_spawn`. -/
inductive Spawn
  /-- the first fork fails -/
  | failed
  /-- the helper cannot fork -/
  | noChild
  /-- the helper is killed before its first store -/
  | lost (pid : Pid)
  /-- the helper is killed between its two stores -/
  | half (pid : Pid)
  | spawned (pid : Pid)
  deriving DecidableEq, Repr

/-- The process that the helper has forked. -/
def Spawn.child : Spawn → Option Pid
  | .failed | .noChild => none
  | .lost pid | .half pid | .spawned pid => some pid

/-- `struct stat` of the script, as far as it is compared. -/
structure Stat where
  dev : ℕ
  ino : ℕ
  mtime : ℕ
  deriving DecidableEq, Repr

/-- The process that runs a section, its options, and what the system answers. -/
structure Env where
  self : Pid
  /-- does `kill` find the process, after these events of the section -/
  alive : List Event → Pid → Bool
  /-- `OPTVAL_GROUP`, the bytes before the NUL -/
  group : List UInt8
  /-- `OPTVAL_MAXBACKENDS` -/
  maxBackends : ℕ
  stat : Stat
  /-- how many slots the file has room for -/
  room : ℕ
  /-- how many of the three connections to a backend are accepted by the system -/
  connects : SlotNum → ℕ
  spawn : Spawn
  fork : Option Pid

/-! ### Reading and writing -/

def modifyFile (h : File → File) : M Unit := modify fun s => { s with file := h s.file }

def note (ev : Event) : M Unit := modify fun s => { s with log := ev :: s.log }

/-- A statement under an `if` without `else`. -/
def onlyIf (c : Prop) [Decidable c] (m : M Unit) : M Unit := if c then m else pure ()

/-- `SLOT_CHECK` -/
def slotCheck (n : SlotNum) : M Unit := do
  let s ← get
  if n = 0 ∨ s.file.slotsAlloced < n then throw .slotRange else pure ()

/-- A load from slot `n`. -/
def readAt {α : Type} (n : SlotNum) (r : File → α) : M α := do
  slotCheck n
  let s ← get
  return r s.file

/-- A store to slot `n`. -/
def writeAt (n : SlotNum) (h : File → File) : M Unit := do
  slotCheck n
  modifyFile h

/-- `speedy_slot_next` -/
def slotNext (n : SlotNum) : M SlotNum := readAt n fun f => f.next n

/-- `speedy_slot_prev` -/
def slotPrev (n : SlotNum) : M SlotNum := readAt n fun f => f.prev n

def setNext (n v : SlotNum) : M Unit := writeAt n fun f => { f with next := update f.next n v }

def setPrev (n v : SlotNum) : M Unit := writeAt n fun f => { f with prev := update f.prev n v }

def getScr (n : SlotNum) : M ScrSlot := readAt n fun f => f.scr n
def getBe (n : SlotNum) : M BeSlot := readAt n fun f => f.be n
def getFe (n : SlotNum) : M FeSlot := readAt n fun f => f.fe n
def getGr (n : SlotNum) : M GrSlot := readAt n fun f => f.gr n
def getGrnm (n : SlotNum) : M (List UInt8) := readAt n fun f => f.grnm n

def modifyScr (n : SlotNum) (h : ScrSlot → ScrSlot) : M Unit :=
  writeAt n fun f => { f with scr := update f.scr n (h (f.scr n)) }

def modifyBe (n : SlotNum) (h : BeSlot → BeSlot) : M Unit :=
  writeAt n fun f => { f with be := update f.be n (h (f.be n)) }

def modifyFe (n : SlotNum) (h : FeSlot → FeSlot) : M Unit :=
  writeAt n fun f => { f with fe := update f.fe n (h (f.fe n)) }

def modifyGr (n : SlotNum) (h : GrSlot → GrSlot) : M Unit :=
  writeAt n fun f => { f with gr := update f.gr n (h (f.gr n)) }

def modifyGrnm (n : SlotNum) (h : List UInt8 → List UInt8) : M Unit :=
  writeAt n fun f => { f with grnm := update f.grnm n (h (f.grnm n)) }

def getHead (c : Chain) : M SlotNum := do
  let s ← get
  return s.file.head c

def getTail (c : Chain) : M SlotNum := do
  let s ← get
  return s.file.tail c

def setHead (c : Chain) (v : SlotNum) : M Unit :=
  modifyFile fun f => { f with head := update f.head c v }

/-- A store to the tail of a list that may have none. -/
def setTail (c : Chain) (v : SlotNum) : M Unit :=
  onlyIf (c.hasTail = true) (modifyFile fun f => { f with tail := update f.tail c v })

/-- A load through the pointer to the tail of a list. -/
def derefTail (c : Chain) : M SlotNum := do
  onlyIf (c.hasTail = false) (throw .nullTail)
  getTail c

/-- `speedy_util_kill`, true if it succeeds. -/
def utilKill (e : Env) (pid : Pid) (sig : Sig) : M Bool :=
  if pid = 0 then pure false
  else if pid = e.self then pure true
  else do
    let s ← get
    note (.kill pid sig (e.alive s.log pid))
    return e.alive s.log pid

/-! ### Lists -/

/-- `speedy_slot_remove` -/
def slotRemove (slotnum : SlotNum) (c : Chain) : M Unit := do
  let n ← slotNext slotnum
  let p ← slotPrev slotnum
  onlyIf (n ≠ 0) (setPrev n p)
  onlyIf (p ≠ 0) (setNext p n)
  let head ← getHead c
  onlyIf (head = slotnum) (setHead c n)
  let tail ← getTail c
  onlyIf (tail = slotnum) (setTail c p)

/-- `speedy_slot_insert` -/
def slotInsert (slotnum : SlotNum) (c : Chain) : M Unit := do
  let head ← getHead c
  setNext slotnum head
  setPrev slotnum 0
  onlyIf (head ≠ 0) (setPrev head slotnum)
  setHead c slotnum
  let tail ← getTail c
  onlyIf (tail = 0) (setTail c slotnum)

/-- `speedy_slot_append` -/
def slotAppend (slotnum : SlotNum) (c : Chain) : M Unit := do
  let tail ← derefTail c
  setPrev slotnum tail
  setNext slotnum 0
  onlyIf (tail ≠ 0) (setNext tail slotnum)
  setTail c slotnum
  let head ← getHead c
  onlyIf (head = 0) (setHead c slotnum)

/-- The loop of `speedy_slot_insert_sorted`; `next_ptr` points to the head of the list if `p` is
`0` and else to the `next_slot` of `p`. -/
def insertSortedLoop (slotnum : SlotNum) (c : Chain) (compar : SlotNum → SlotNum → M Int) :
    ℕ → SlotNum → M Unit
  | 0, _ => throw .loop
  | fuel + 1, p => do
    let y ← (if p = 0 then getHead c else slotNext p)
    if y = 0 then slotAppend slotnum c
    else do
      let diff ← compar slotnum y
      if diff ≤ 0 then do
        setNext slotnum y
        let py ← slotPrev y
        setPrev slotnum py
        setPrev y slotnum
        if p = 0 then setHead c slotnum else setNext p slotnum
      else insertSortedLoop slotnum c compar fuel y

/-- How often a loop over one list can go round. -/
def loopFuel : M ℕ := do
  let s ← get
  return s.file.slotsAlloced + 1

/-- `speedy_slot_insert_sorted` -/
def slotInsertSorted (slotnum : SlotNum) (c : Chain) (compar : SlotNum → SlotNum → M Int) :
    M Unit := do
  let fuel ← loopFuel
  insertSortedLoop slotnum c compar fuel 0

/-- `speedy_slot_move_head` -/
def slotMoveHead (slotnum : SlotNum) (c : Chain) : M Unit := do
  let head ← getHead c
  onlyIf (head ≠ slotnum) (do slotRemove slotnum c; slotInsert slotnum c)

/-- `speedy_slot_move_tail` -/
def slotMoveTail (slotnum : SlotNum) (c : Chain) : M Unit := do
  let tail ← derefTail c
  onlyIf (tail ≠ slotnum) (do slotRemove slotnum c; slotAppend slotnum c)

/-- `speedy_slot_alloc` -/
def slotAlloc (e : Env) : M SlotNum := do
  let s ← get
  if s.file.slotFree ≠ 0 then do
    let n ← slotNext s.file.slotFree
    modifyFile fun f => { f with slotFree := n }
    modifyFile fun f => f.bzero s.file.slotFree
    return s.file.slotFree
  else if maxSlots ≤ s.file.slotsAlloced + 1 then throw .outOfSlots
  else if e.room < s.file.slotsAlloced + 1 then throw .fileTooSmall
  else do
    modifyFile fun f => { f with slotsAlloced := f.slotsAlloced + 1 }
    modifyFile fun f => f.bzero (s.file.slotsAlloced + 1)
    return s.file.slotsAlloced + 1

/-- `speedy_slot_free` -/
def slotFree (slotnum : SlotNum) : M Unit :=
  if slotnum = 0 then throw .freeZero
  else do
    let p ← slotPrev slotnum
    if p = slotnum then throw .freeingFree
    else do
      setPrev slotnum slotnum
      let s ← get
      setNext slotnum s.file.slotFree
      modifyFile fun f => { f with slotFree := slotnum }
      note (.free slotnum)

end SpeedyCgi.TempFile
