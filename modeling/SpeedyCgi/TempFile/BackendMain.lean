import SpeedyCgi.TempFile.Frontend

/-!
`speedy_backend_main.c`, the locked sections of the backend parent, and those of
`speedy_perl_run` in `speedy_perl.c`.
-/

namespace SpeedyCgi.TempFile

/-! ### The backend parent -/

def findPidLoop (pid : Pid) : ℕ → SlotNum → M SlotNum
  | 0, _ => throw .loop
  | fuel + 1, b =>
    if b = 0 then return 0
    else do
      let bslot ← getBe b
      if bslot.pid = pid then return b
      else do
        let next ← slotNext b
        findPidLoop pid fuel next

/-- `find_pid` -/
def findPid (g : SlotNum) (pid : Pid) : M SlotNum := do
  slotCheck g
  let b ← getHead (.be g)
  let fuel ← loopFuel
  findPidLoop pid fuel b

/-- What `waitpid` says of a dead child: its pid, whether a signal ended it, and the signal or
the exit status. -/
structure Child where
  pid : Pid
  onSig : Bool
  val : ℕ
  deriving DecidableEq, Repr

/-- `collect_child`, for the children that `waitpid` finds. -/
def collectChild (e : Env) (g : SlotNum) : List Child → M Unit
  | [] => pure ()
  | c :: cs => do
    let b ← findPid g c.pid
    onlyIf (b ≠ 0) (do
      backendExited e b c.onSig c.val
      backendDispose e g b)
    collectChild e g cs

/-- `start_child` in the parent. Without a child it does what is written for a `fork` that fails; a real
one looks to it as if it were the child, and it leaves the file with `lock_owner` set, so that nobody
goes on in this incarnation of it. -/
def startChild (e : Env) (g : SlotNum) : M Unit := do
  let pid ← groupBeStarting e g
  if pid ≠ 0 ∧ pid ≠ e.self then pure ()
  else do
    let below ← belowMaxbe e g
    if below = false then pure ()
    else do
      let b ← backendCreateSlot e g
      match e.fork with
      | none => do
        modifyGr g fun s => { s with beStarting := 0 }
        backendDispose e g b
      | some pid => do
        note (.fork pid g b)
        modifyGr g fun s => { s with beStarting := pid }
        modifyBe b fun s => { s with pid := pid }

/-- The loop of `do_cleanup` over the backends. -/
def cleanupBes (e : Env) (g : SlotNum) : ℕ → SlotNum → M Unit
  | 0, _ => throw .loop
  | fuel + 1, b =>
    if b = 0 then pure ()
    else do
      let next ← slotNext b
      let alive ← backendAlive e b
      onlyIf (alive = false) (backendDispose e g b)
      cleanupBes e g fuel next

/-- `do_cleanup` once it has the group to look at. -/
def doCleanupGroup (e : Env) (g : SlotNum) : M Unit := do
  let alive ← groupParentSig e g .zero
  onlyIf (alive = false) (do
    groupInvalidate e g
    slotCheck g
    let b ← getHead (.be g)
    let fuel ← loopFuel
    cleanupBes e g fuel b
    groupCleanup e g)

/-- `do_cleanup` -/
def doCleanup (e : Env) (g : SlotNum) : M Unit := do
  let p ← slotPrev g
  let prev ← (if p = 0 then getTail .group else pure p)
  onlyIf (prev ≠ 0 ∧ prev ≠ g) (doCleanupGroup e prev)

/-- The first section of `main`: the group, or none if another parent takes care of it. -/
def parentInit (e : Env) : M (Option SlotNum) := do
  let g ← scriptFind e
  let gslot ← getGr g
  let other ← (if gslot.beParent ≠ 0 ∧ gslot.beParent ≠ e.self then groupStartBe e g
    else pure false)
  if other = true then return none
  else do
    modifyGr g fun s => { s with beParent := e.self }
    startChild e g
    return some g

/-- One round of the loop in `main`, true if the loop ends here. -/
def parentIteration (e : Env) (g : SlotNum) (usr1 alrm : Bool) (cs : List Child) : M Bool := do
  collectChild e g cs
  let valid ← groupIsvalid g
  onlyIf (valid = true ∧ usr1 = true) (startChild e g)
  doCleanup e g
  slotCheck g
  let haveChildren ← getHead (.be g)
  if alrm = true ∧ haveChildren = 0 then do
    groupCleanup e g
    return true
  else return false

/-! ### The backend -/

/-- If we were listed as starting, turn that off. -/
def started (e : Env) (g : SlotNum) : M Unit := do
  let gslot ← getGr g
  onlyIf (gslot.beStarting = e.self) (modifyGr g fun s => { s with beStarting := 0 })

/-- `speedy_perl_run` before the accept: false if it is all done. -/
def perlWait (e : Env) (g b : SlotNum) (again : Bool) : M Bool := do
  let valid ← groupIsvalid g
  if valid = false then return false
  else do
    modifyBe b fun s => { s with maturity := if again = true then 2 else 1 }
    beWaitPut g b
    started e g
    groupSendsigs e g
    return true

/-- `speedy_perl_run` after the accept: false if it is all done. -/
def perlAccepted (e : Env) (g : SlotNum) : M Bool := do
  let valid ← groupIsvalid g
  if valid = false then return false
  else do
    started e g
    groupSendsigs e g
    return true

/-- `speedy_perl_run` after `onerun`. -/
def perlRan (e : Env) (b : SlotNum) (exitVal : ℕ) : M Unit := backendExited e b false exitVal

/-- `speedy_perl_run` after its last run. -/
def perlLast (e : Env) (g : SlotNum) : M Unit := do
  let valid ← groupIsvalid g
  onlyIf (valid = true) (do
    let _ ← groupStartBe e g)

/-- `speedy_perl_run` from the end of `onerun` to the unlocking of the file: false if it is all
done. `more` says that `MaxRuns` has not been reached, `orphan` is `getppid() == 1`. -/
def perlNext (e : Env) (g b : SlotNum) (exitVal : ℕ) (more orphan : Bool) : M Bool := do
  perlRan e b exitVal
  if more = true then
    if orphan = true then return false else perlWait e g b true
  else do
    perlLast e g
    return false

end SpeedyCgi.TempFile
