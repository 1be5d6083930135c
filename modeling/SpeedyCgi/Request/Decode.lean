import SpeedyCgi.Request.Encode

/-!
The backend's side of a request: `get_string` and the reads of `onerun` up to the point where the
script may read its input.

A `PerlIO_read` that meets the end of the stream leaves the rest of its buffer undefined, and so
does a negative length: both are the error `short`.
-/

namespace SpeedyCgi.Request

open Lib.Codec

inductive ReadError
  | protocolError
  | short
deriving DecidableEq

abbrev PerlIO := Reader UInt8 ReadError

variable (abi : Abi)

def readString (sz : Int) : PerlIO Bytes :=
  if sz < 0 then throw .short else items .short sz.toNat

/-- `none` stands for the `NULL` that is returned for a string of length zero. -/
def getString : PerlIO (Option Bytes) := do
  match ← next with
  | none => throw .protocolError
  | some sz =>
    if sz = 0 then pure none
    else if sz.toNat = maxShortStr then do
      let sz ← abi.int.read .short
      some <$> readString sz.toInt
    else some <$> readString sz.toNat

def devinoGet : PerlIO SpeedyDevIno :=
  (fun x => ⟨x.1, x.2⟩) <$> abi.devIno.read .short

/-- What `onerun` has read from its standard input. -/
structure BeRequest where
  env : List Bytes
  argv : List Bytes
  scrPath : Option Bytes
  feScr : SpeedyDevIno
  cwdWhere : Option UInt8
  feCwd : Option SpeedyDevIno
deriving DecidableEq

def onerun : PerlIO BeRequest := do
  let env ← collectAll .protocolError (getString abi)
  let argv ← collectAll .protocolError (getString abi)
  let scrPath ← getString abi
  let feScr ← devinoGet abi
  let cwdWhere ← next
  if cwdWhere = some speedyCwdDevino then
    let feCwd ← devinoGet abi
    pure ⟨env, argv, scrPath, feScr, cwdWhere, some feCwd⟩
  else pure ⟨env, argv, scrPath, feScr, cwdWhere, none⟩

end SpeedyCgi.Request
