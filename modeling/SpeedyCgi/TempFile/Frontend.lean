import SpeedyCgi.TempFile.Group

/-!
`speedy_frontend.c`: the locked sections of a frontend.

`speedy_frontend_connect` holds the lock from the allocation of its slot until it either has an
outcome or waits in `get_a_backend_hard`; `Got` and `Section` say which. What follows the wait is
a section of its own.
-/

namespace SpeedyCgi.TempFile

/-- `speedy_frontend_collect_status` -/
def frontendCollectStatus (e : Env) (f : SlotNum) : M (Option (Bool × ℕ)) := do
  let fslot ← getFe f
  onlyIf (fslot.backend ≠ 0) (do
    let alive ← backendAlive e fslot.backend
    onlyIf (alive = false) (backendDied e fslot.backend))
  let fslot ← getFe f
  if fslot.backend = 0 then do
    frontendRemoveRunning f
    return some (fslot.exitOnSig, fslot.exitVal)
  else return none

def cleanRunningLoop (e : Env) : ℕ → M Unit
  | 0 => throw .loop
  | fuel + 1 => do
    let tail ← getTail .feRun
    if tail = 0 then pure ()
    else do
      let fslot ← getFe tail
      let alive ← utilKill e fslot.pid .zero
      if alive = true then pure ()
      else do
        frontendRemoveRunning tail
        cleanRunningLoop e fuel

/-- `speedy_frontend_clean_running` -/
def frontendCleanRunning (e : Env) : M Unit := do
  let fuel ← loopFuel
  cleanRunningLoop e fuel

/-- `be_parent_spawn` -/
def beParentSpawn (e : Env) (g : SlotNum) : M Unit :=
  match e.spawn with
  | .failed => throw .fork
  | .noChild => pure ()
  | .lost pid => note (.spawn pid)
  | .half pid => do
    note (.spawn pid)
    modifyGr g fun s => { s with beParent := pid }
  | .spawned pid => do
    note (.spawn pid)
    modifyGr g fun s => { s with beParent := pid }
    modifyGr g fun s => { s with beStarting := pid }

/-- `backend_check`: the value returned and `did_spawn`. -/
def backendCheck (e : Env) (g : SlotNum) (didSpawn : Bool) : M (Bool × Bool) := do
  let starting ← groupBeStarting e g
  if starting ≠ 0 then return (true, didSpawn)
  else if didSpawn = true then return (false, didSpawn)
  else do
    let gslot ← getGr g
    onlyIf (gslot.beParent = 0) (beParentSpawn e g)
    let below ← belowMaxbe e g
    if below = true then do
      let started ← groupStartBe e g
      if started = true then do
        let gslot ← getGr g
        modifyGr g fun s => { s with beStarting := gslot.beParent }
        return (true, true)
      else return (true, didSpawn)
    else do
      let _ ← groupParentSig e g .zero
      return (true, didSpawn)

/-- The loop of `fe_prev`. -/
def fePrevLoop : ℕ → SlotNum → M (SlotNum × SlotNum)
  | 0, _ => throw .loop
  | fuel + 1, g => do
    let n ← slotNext g
    let g ← (if n = 0 then getHead .group else pure n)
    if g = 0 then throw .listsCorrupt
    else do
      slotCheck g
      let f ← getTail (.fe g)
      if f = 0 then fePrevLoop fuel g else return (g, f)

/-- `fe_prev`; the loop may go round the whole group list and on to where it started. -/
def fePrev (g f : SlotNum) : M (SlotNum × SlotNum) := do
  let p ← slotPrev f
  if p ≠ 0 then return (g, p)
  else do
    let fuel ← loopFuel
    fePrevLoop (fuel + fuel) g

def checkPrevLoop (e : Env) : ℕ → SlotNum → SlotNum → M Unit
  | 0, _, _ => throw .loop
  | fuel + 1, g, f => do
    let fslot ← getFe f
    let alive ← utilKill e fslot.pid .zero
    if alive = true then pure ()
    else do
      let prev ← fePrev g f
      frontendDispose g f
      groupCleanup e g
      if prev.2 = f then pure () else checkPrevLoop e fuel prev.1 prev.2

/-- `frontend_check_prev` -/
def frontendCheckPrev (e : Env) (g f : SlotNum) : M Unit := do
  let prev ← fePrev g f
  let fuel ← loopFuel
  checkPrevLoop e fuel prev.1 prev.2

/-- `frontend_ping`: the value returned and `did_spawn`. -/
def frontendPing (e : Env) (g f : SlotNum) (didSpawn : Bool) : M (Bool × Bool) := do
  frontendCheckPrev e g f
  let p ← slotPrev f
  if p ≠ 0 then return (true, didSpawn) else backendCheck e g didSpawn

/-- Where one round of the loop in `get_a_backend_hard` ends. -/
inductive Hard
  | wait (didSpawn : Bool)
  | leave (spawnWorking : Bool) (b : SlotNum)
  deriving DecidableEq, Repr

/-- The loop of `get_a_backend_hard` from its top to the unlocking of the file. -/
def hardRound (e : Env) (g f : SlotNum) (didSpawn : Bool) : M Hard := do
  groupSendsigs e g
  let fslot ← getFe f
  modifyFe f fun s => { s with sentSig := false }
  let feHead ← getHead (.fe g)
  let b ← (if fslot.sentSig = true then beWaitGet e g else pure 0)
  if b ≠ 0 then do
    note (.assign g f b feHead fslot.sentSig)
    return .leave true b
  else do
    let ping ← frontendPing e g f didSpawn
    if ping.1 = false then return .leave false 0
    else do
      let valid ← groupIsvalid g
      if valid = false then return .leave true 0 else return .wait ping.2

/-- Where `get_a_backend` stands when it unlocks the file or returns. -/
inductive Got
  | wait (g : SlotNum) (didSpawn : Bool)
  | got (g b : SlotNum) (spawnWorking : Bool)
  deriving DecidableEq, Repr

/-- `get_a_backend` after the search for a backend. -/
def getABackendEnd (e : Env) (g f : SlotNum) (spawnWorking : Bool) (b : SlotNum) : M Got := do
  groupCleanup e g
  modifyFe f fun s => { s with backend := b }
  return .got g b spawnWorking

/-- The end of `get_a_backend_hard`, unless it waits. -/
def hardEnd (e : Env) (g f : SlotNum) : Hard → M Got
  | .wait didSpawn => return .wait g didSpawn
  | .leave spawnWorking b => do
    slotCheck g
    slotRemove f (.fe g)
    getABackendEnd e g f spawnWorking b

/-- `get_a_backend` up to its first wait. -/
def getABackend (e : Env) (f : SlotNum) : M Got := do
  let g ← scriptFind e
  slotCheck g
  let feHead ← getHead (.fe g)
  let b ← (if feHead = 0 then beWaitGet e g else pure 0)
  if b ≠ 0 then do
    note (.assign g f b feHead false)
    getABackendEnd e g f true b
  else do
    slotAppend f (.fe g)
    let r ← hardRound e g f false
    hardEnd e g f r

/-- `get_a_backend_hard` after a wait; `fileChanged` is what `speedy_script_changed` found. -/
def getABackendWake (e : Env) (g f : SlotNum) (didSpawn fileChanged : Bool) : M Got := do
  let valid ← groupIsvalid g
  if valid = false ∨ fileChanged = true then hardEnd e g f (.leave true 0)
  else do
    let r ← hardRound e g f didSpawn
    hardEnd e g f r

/-- `speedy_ipc_connect` of three sockets, in the order of their numbers. -/
def ipcConnect (e : Env) (b : SlotNum) : M Bool := do
  let s ← get
  let n := if .unlink b ∈ s.log then 0 else min 3 (e.connects b)
  note (.connect b n)
  return decide (n = 3)

/-- How a locked section of `speedy_frontend_connect` ends. -/
inductive Section
  /-- unlocked in `get_a_backend_hard` -/
  | queued (g f : SlotNum) (didSpawn : Bool)
  /-- connected to `b`, with `*fslotnum_p` set to `f` -/
  | kept (f b : SlotNum)
  /-- connected, and the frontend slot freed -/
  | sent (b : SlotNum)
  /-- not connected: once more round the loop, unless spawning does not work -/
  | failed (spawnWorking : Bool)
  deriving DecidableEq, Repr

/-- `speedy_frontend_connect` after `get_a_backend`; `want` says that `fslotnum_p` is not null. -/
def connectRest (e : Env) (want : Bool) (f : SlotNum) : Got → M Section
  | .wait g didSpawn => return .queued g f didSpawn
  | .got g _ spawnWorking => do
    let fslot ← getFe f
    let b := fslot.backend
    let connected ← (if spawnWorking = true ∧ b ≠ 0 then do
        let c ← ipcConnect e b
        onlyIf (c = false) (backendDispose e g b)
        return c
      else return false)
    if connected = true then do
      if want = true then do
        modifyBe b fun s => { s with feRunning := f }
        slotInsert f .feRun
        let bslot ← getBe b
        modifyGr g fun s => { s with beStarting := bslot.pid }
        return .kept f b
      else do
        modifyBe b fun s => { s with feRunning := b }
        let bslot ← getBe b
        modifyGr g fun s => { s with beStarting := bslot.pid }
        slotFree f
        return .sent b
    else do
      slotFree f
      return .failed spawnWorking

/-- A round of `speedy_frontend_connect` up to `get_a_backend`. -/
def connectEnter (e : Env) (didClean : Bool) : M SlotNum := do
  onlyIf (didClean = false) (frontendCleanRunning e)
  let f ← slotAlloc e
  modifyFe f fun s => { s with pid := e.self }
  return f

/-- A round of `speedy_frontend_connect` up to the end or the first wait of `get_a_backend`. -/
def connectStart (e : Env) (didClean : Bool) : M (SlotNum × Got) := do
  let f ← connectEnter e didClean
  let r ← getABackend e f
  return (f, r)

/-- The first locked section of a round of `speedy_frontend_connect`. -/
def frontendConnect (e : Env) (want didClean : Bool) : M Section := do
  let r ← connectStart e didClean
  connectRest e want r.1 r.2

/-- The section of `speedy_frontend_connect` after a wait. -/
def frontendWake (e : Env) (want : Bool) (g f : SlotNum) (didSpawn fileChanged : Bool) :
    M Section := do
  let r ← getABackendWake e g f didSpawn fileChanged
  connectRest e want f r

end SpeedyCgi.TempFile
