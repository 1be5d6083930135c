import SpeedyCgi.Lib.Codec
import SpeedyCgi.Lib.CString
import SpeedyCgi.Lib.Wp

/-!
The frontend's side of a request: the buffer that `speedy_frontend_mkenv` builds and the reply of
`speedy_frontend_proto2`.

A `SpeedyBuf` holds the bytes added so far; it carries the fact that they fit into what is
allocated, so a write past the end is an `overrun` and builds nothing. Sizes are `int`s: a size
that an `int` cannot hold is an `overflow`.
-/

namespace SpeedyCgi.Request

open Lib.Codec Lib.CString

abbrev Bytes := List UInt8

/-- How both programs represent an `int` and a `long long`. -/
structure Abi where
  int : Rep UInt8 (BitVec 32)
  longLong : Rep UInt8 (BitVec 64)

structure SpeedyDevIno where
  i : BitVec 64
  d : BitVec 64
deriving DecidableEq

namespace Abi

/-- The `sizeof(SpeedyDevIno)` bytes of a `SpeedyDevIno`. -/
def devIno (abi : Abi) : Rep UInt8 (BitVec 64 × BitVec 64) := abi.longLong.pair abi.longLong

def littleEndian : Abi := ⟨Rep.littleEndian 4, Rep.littleEndian 8⟩

end Abi

def maxShortStr : ℕ := 255
def speedyCwdInScript : UInt8 := 0
def speedyCwdDevino : UInt8 := 1
def speedyCwdUnknown : UInt8 := 2
def speedyReallocMult : ℕ := 2
def intMax : ℕ := 2 ^ 31 - 1

structure SpeedyBuf where
  buf : Bytes
  alloced : ℕ
  le : buf.length ≤ alloced
deriving DecidableEq

def SpeedyBuf.len (b : SpeedyBuf) : ℕ := b.buf.length

lemma SpeedyBuf.le_enlarged (b : SpeedyBuf) (minToAdd : ℕ) :
    b.buf.length ≤ max (b.alloced * speedyReallocMult) (b.len + minToAdd) := by
  have := b.le
  simp only [speedyReallocMult]
  omega

inductive Fault
  | overrun
  | overflow
  | scriptMissing
deriving DecidableEq

abbrev Enc := StateT SpeedyBuf (Except Fault)

def enlargeBuf (minToAdd : ℕ) : Enc Unit := do
  let b ← get
  let newSize := b.alloced * speedyReallocMult
  let minSize := b.len + minToAdd
  if newSize > intMax ∨ minSize > intMax then throw .overflow
  else set (⟨b.buf, max newSize minSize, b.le_enlarged minToAdd⟩ : SpeedyBuf)

def bufEnlarge (l : ℕ) : Enc Unit := do
  let b ← get
  if b.len + l > intMax then throw .overflow
  else if b.len + l > b.alloced then enlargeBuf l

def add2 (s : Bytes) : Enc Unit := do
  let b ← get
  if h : (b.buf ++ s).length ≤ b.alloced then set (⟨b.buf ++ s, b.alloced, h⟩ : SpeedyBuf)
  else throw .overrun

def add (s : Bytes) : Enc Unit := do
  bufEnlarge s.length
  add2 s

def addChar2 (c : UInt8) : Enc Unit := add2 [c]

def addChar (c : UInt8) : Enc Unit := do
  bufEnlarge 1
  addChar2 c

variable (abi : Abi)

def addDevino (x : SpeedyDevIno) : Enc Unit := add (abi.devIno.put (x.i, x.d))

/-- The first half of `ADD_STRING`. -/
def addStringLen (l : ℕ) : Enc Unit :=
  if l ≥ maxShortStr then do
    bufEnlarge (abi.int.size + 1)
    addChar2 (UInt8.ofNat maxShortStr)
    add2 (abi.int.put (BitVec.ofNat 32 l))
  else addChar (UInt8.ofNat l)

def addString (s : Bytes) : Enc Unit := do
  addStringLen abi s.length
  add s

def addStrings : List CStr → Enc Unit
  | [] => addChar 0
  | s :: p => do
    if s.length ≠ 0 then addString abi (bytes s)
    addStrings p

def allocBuf (n : ℕ) : SpeedyBuf := ⟨[], n, Nat.zero_le _⟩

/-- What the frontend sends: its environment, the script's argument vector, the script's name and
identity, and what it says about the cwd (`dirStat` is what `stat(".")` finds, if it succeeds). -/
structure FeRequest where
  envp : List CStr
  scrArgv : List CStr
  scriptFname : Option CStr
  script : SpeedyDevIno
  scriptHasCwd : Bool
  dirStat : Option SpeedyDevIno

/-- How the cwd is passed over. -/
def addCwd (r : FeRequest) : Enc Unit :=
  if r.scriptHasCwd then addChar speedyCwdInScript
  else match r.dirStat with
    | some x => do
      addChar speedyCwdDevino
      addDevino abi x
    | none => addChar speedyCwdUnknown

def addRequest (r : FeRequest) (fname : CStr) : Enc Unit := do
  addStrings abi r.envp
  addStrings abi r.scrArgv.tail
  addString abi (bytes fname)
  addDevino abi r.script
  addCwd abi r

def speedyFrontendMkenv (r : FeRequest) (minAlloc : BitVec 32) : Except Fault SpeedyBuf :=
  match r.scriptFname with
  | none => .error .scriptMissing
  | some fname =>
    Prod.snd <$> addRequest abi r fname (allocBuf (max 512 minAlloc.toInt).toNat)

def strBufsize (l : ℕ) : ℕ := 1 + (if l ≥ maxShortStr then abi.int.size else 0) + l

/-- The `write` loop, given what each `write` does: it fails for good, or takes some bytes (none
when the socket is not ready). -/
def sendLoop : List (Option ℕ) → Bytes → Bytes
  | [], _ => []
  | none :: _, _ => []
  | some n :: ns, bp =>
    bp.take n ++ if (bp.drop n).isEmpty then [] else sendLoop ns (bp.drop n)

/-- The buffer with the cwd, or with an empty string when `getcwd` fails. -/
def proto2Buf (cwd : Option CStr) : Except Fault SpeedyBuf :=
  match cwd with
  | some s => Prod.snd <$> addString abi (bytes s) (allocBuf (strBufsize abi s.length))
  | none => Prod.snd <$> addString abi [] (allocBuf (strBufsize abi 0))

def speedyFrontendProto2 (firstByte : UInt8) (cwd : Option CStr) (writes : List (Option ℕ)) :
    Except Fault Bytes :=
  if firstByte = 0 then .ok []
  else (fun b => sendLoop writes b.buf) <$> proto2Buf abi cwd

end SpeedyCgi.Request
