import SpeedyCgi.Options.CmdLine
import Mathlib.Logic.Function.Basic

/-!
The options and how a program gets their values at its start: `speedy_opt_set`, `speedy_opt_get`,
`process_speedy_opts`, `speedy_opt_init`, and the vectors made from them.

A table holds what each option's record says: its value, and whether it is no longer the default.
The version message at the end of `speedy_opt_init` is left out: it changes no option.
-/

namespace SpeedyCgi.Options

open Lib.CString

inductive OptType
  | str
  | whole
  | natural
  | toggle
deriving DecidableEq

/-- The options of the file `optdefs`, in the order of the table. -/
inductive OptName
  | backendProg
  | beCheckTimeout
  | beSpawns
  | bufsizGet
  | bufsizPost
  | group
  | maxBackends
  | maxRuns
  | perlArgs
  | restatTimeout
  | timeout
  | tmpBase
  | version
deriving DecidableEq

inductive OptVal
  | str (s : Option CStr)
  | int (v : Int)
deriving DecidableEq

def speedyOptdefs : List OptName :=
  [.backendProg, .beCheckTimeout, .beSpawns, .bufsizGet, .bufsizPost, .group, .maxBackends,
    .maxRuns, .perlArgs, .restatTimeout, .timeout, .tmpBase, .version]

namespace OptName

def name : OptName → CStr
  | backendProg => str "BACKENDPROG"
  | beCheckTimeout => str "BECHECKTIMEOUT"
  | beSpawns => str "BESPAWNS"
  | bufsizGet => str "BUFSIZGET"
  | bufsizPost => str "BUFSIZPOST"
  | group => str "GROUP"
  | maxBackends => str "MAXBACKENDS"
  | maxRuns => str "MAXRUNS"
  | perlArgs => str "PERLARGS"
  | restatTimeout => str "RESTATTIMEOUT"
  | timeout => str "TIMEOUT"
  | tmpBase => str "TMPBASE"
  | version => str "VERSION"

def letter : OptName → Option CChar
  | backendProg => some (ch 'p')
  | bufsizGet => some (ch 'B')
  | bufsizPost => some (ch 'b')
  | group => some (ch 'g')
  | maxBackends => some (ch 'M')
  | maxRuns => some (ch 'r')
  | timeout => some (ch 't')
  | tmpBase => some (ch 'T')
  | version => some (ch 'v')
  | beCheckTimeout | beSpawns | perlArgs | restatTimeout => none

def type : OptName → OptType
  | backendProg | group | perlArgs | tmpBase => .str
  | maxBackends | maxRuns | timeout => .whole
  | beCheckTimeout | beSpawns | bufsizGet | bufsizPost | restatTimeout => .natural
  | version => .toggle

/-- The defaults; the one of `BackendProg` is known when the programs are built. -/
def defval (bin : CStr) : OptName → OptVal
  | backendProg => .str (some bin)
  | beCheckTimeout => .int 1
  | beSpawns => .int 1
  | bufsizGet => .int 131072
  | bufsizPost => .int 131072
  | group => .str (some (str "none"))
  | maxBackends => .int 0
  | maxRuns => .int 500
  | perlArgs => .str none
  | restatTimeout => .int 5
  | timeout => .int 3600
  | tmpBase => .str (some (str "/tmp/speedy"))
  | version => .int 0

end OptName

structure OptTable where
  val : OptName → OptVal
  changed : OptName → Bool

def OptTable.default (bin : CStr) : OptTable := ⟨OptName.defval bin, fun _ => false⟩

def OptTable.store (t : OptTable) (o : OptName) (v : OptVal) : OptTable :=
  ⟨Function.update t.val o v, Function.update t.changed o true⟩

/-- The value that `speedy_opt_set` makes of a string, unless it rejects it. -/
def optSetVal (o : OptName) (old : OptVal) (value : CStr) : Option OptVal :=
  match o.type with
  | .str => some (.str (some (if o = .group ∧ value = [] then str "default" else value)))
  | .toggle => some (.int (if old = .int 0 then 1 else 0))
  | .whole => if atoi value < 0 then none else some (.int (atoi value))
  | .natural => if atoi value < 1 then none else some (.int (atoi value))

def speedyOptSet (t : OptTable) (o : OptName) (value : CStr) : OptTable :=
  match optSetVal o (t.val o) value with
  | some v => t.store o v
  | none => t

def speedyOptGet (t : OptTable) (o : OptName) : CStr :=
  match t.val o with
  | .str s => s.getD []
  | .int v => showUnsigned v

def optidxFromLetter (c : CChar) : Option OptName := speedyOptdefs.find? fun o => o.letter = some c

/-- The program ends with the message `Unknown speedy option`. -/
inductive Death
  | unknownOption (letter : Option CChar)
deriving DecidableEq

/-- The option and the value that a speedy option stands for. -/
def optOf (s : CStr) : Option (OptName × CStr) :=
  ((s.drop 1).head?.bind optidxFromLetter).map fun o => (o, s.drop 2)

def processSpeedyOpts (t : OptTable) : List CStr → Except Death OptTable
  | [] => .ok t
  | s :: l =>
    match optOf s with
    | some (o, value) => processSpeedyOpts (speedyOptSet t o value) l
    | none => .error (.unknownOption (s.drop 1).head?)

/-- The option and the value that a variable of the environment stands for. -/
def envOf (s : CStr) : Option (OptName × CStr) :=
  if str "SPEEDY_" <+: s then
    let optname := s.drop 7
    if ch '=' ∈ optname then
      (speedyOptdefs.find? fun o => o.name = (optname.takeWhile (· ≠ ch '=')).map toupper).map
        fun o => (o, (optname.dropWhile (· ≠ ch '=')).drop 1)
    else none
  else none

def setFromEnv (t : OptTable) (s : CStr) : OptTable :=
  match envOf s with
  | some (o, value) => speedyOptSet t o value
  | none => t

/-- The options changed so far, as speedy options. -/
def changedOpts (t : OptTable) : List CStr :=
  speedyOptdefs.filterMap fun o =>
    if t.changed o then o.letter.map fun c => ch '-' :: c :: speedyOptGet t o else none

/-- The words of the option `PerlArgs`, if it was changed. -/
def perlArgsWords (t : OptTable) : List CStr :=
  if t.changed .perlArgs then strlistSplit [speedyOptGet t .perlArgs] else []

structure OptState where
  table : OptTable
  perlArgv : List CStr
  execArgv : List CStr
  execEnvp : List CStr
  scriptArgvLoc : ℕ

def speedyOptInit (t : OptTable) (argv envp : List CStr) : Except Death OptState := do
  let s := cmdlineSplit argv [str "perl"]
  let perlArgv := s.perlArgs ++ perlArgsWords t
  let speedyOpts := s.speedyOpts ++ changedOpts t
  let t ← processSpeedyOpts t s.speedyOpts
  pure {
    table := envp.foldl setFromEnv t
    perlArgv
    execArgv := printArgs perlArgv speedyOpts s.scriptArgs
    execEnvp := envp
    scriptArgvLoc := (printArgs perlArgv speedyOpts []).length }

def speedyOptSetScriptArgv (st : OptState) (argv : List CStr) : OptState :=
  { st with execArgv := st.execArgv.take st.scriptArgvLoc ++ argv }

def speedyOptScriptArgv (st : OptState) : List CStr := st.execArgv.drop st.scriptArgvLoc

def speedyOptScriptFname (st : OptState) : Option CStr := (speedyOptScriptArgv st).head?

def speedyOptExecArgv (st : OptState) : List CStr :=
  speedyOptGet st.table .backendProg :: st.execArgv.tail

end SpeedyCgi.Options
