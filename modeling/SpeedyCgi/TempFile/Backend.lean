import SpeedyCgi.TempFile.Slot

/-!
`speedy_backend.c`, and the two functions of `speedy_frontend.c` that take a frontend off its
list.

`fe_running` of a backend is `0` while the backend waits for work, the backend itself while it is
in use without a frontend to report to, and else the slot of the frontend that waits for its exit
status.
-/

namespace SpeedyCgi.TempFile

/-- `speedy_frontend_dispose` -/
def frontendDispose (g f : SlotNum) : M Unit :=
  onlyIf (f ≠ 0) (do
    slotCheck g
    slotRemove f (.fe g)
    slotFree f)

/-- `speedy_frontend_remove_running` -/
def frontendRemoveRunning (f : SlotNum) : M Unit := do
  let fslot ← getFe f
  onlyIf (fslot.backend ≠ 0) (do
    let bslot ← getBe fslot.backend
    onlyIf (bslot.feRunning = f)
      (modifyBe fslot.backend fun b => { b with feRunning := fslot.backend }))
  slotRemove f .feRun
  slotFree f

/-- `speedy_backend_exited` -/
def backendExited (e : Env) (b : SlotNum) (exitOnSig : Bool) (exitVal : ℕ) : M Unit := do
  let bslot ← getBe b
  onlyIf (bslot.feRunning ≠ 0) (do
    modifyBe b fun s => { s with feRunning := b }
    onlyIf (bslot.feRunning ≠ b) (do
      modifyFe bslot.feRunning fun s =>
        { s with backend := 0, exitOnSig := exitOnSig, exitVal := exitVal }
      let fslot ← getFe bslot.feRunning
      let ok ← utilKill e fslot.pid .usr1
      onlyIf (ok = false) (frontendRemoveRunning bslot.feRunning)))

/-- `speedy_backend_died`: simulate `SIGKILL`. -/
def backendDied (e : Env) (b : SlotNum) : M Unit := backendExited e b true 9

/-- `speedy_backend_alive` -/
def backendAlive (e : Env) (b : SlotNum) : M Bool := do
  let bslot ← getBe b
  utilKill e bslot.pid .zero

/-- `speedy_backend_dispose` -/
def backendDispose (e : Env) (g b : SlotNum) : M Unit :=
  onlyIf (g ≠ 0 ∧ b ≠ 0) (do
    slotCheck g
    let bslot ← getBe b
    onlyIf (bslot.feRunning ≠ 0) (backendDied e b)
    slotRemove b (.be g)
    note (.unlink b)
    slotFree b)

/-- `do_sort`: waiting backends first, the more mature ones before the others. -/
def doSort (a b : SlotNum) : M Int := do
  let x ← getBe a
  let y ← getBe b
  let diff : Int := (if y.feRunning ≠ 0 then 0 else 1) - (if x.feRunning ≠ 0 then 0 else 1)
  if diff ≠ 0 then return diff
  else return (y.maturity : Int) - x.maturity

/-- `speedy_backend_be_wait_put` -/
def beWaitPut (g b : SlotNum) : M Unit := do
  slotCheck g
  modifyBe b fun s => { s with feRunning := 0 }
  slotRemove b (.be g)
  slotInsertSorted b (.be g) doSort

/-- `speedy_backend_create_slot` -/
def backendCreateSlot (e : Env) (g : SlotNum) : M SlotNum := do
  slotCheck g
  let b ← slotAlloc e
  modifyBe b fun s => { s with feRunning := b }
  slotAppend b (.be g)
  return b

def removeBeWaitLoop (e : Env) : ℕ → SlotNum → M Unit
  | 0, _ => throw .loop
  | fuel + 1, b =>
    if b = 0 then pure ()
    else do
      let bslot ← getBe b
      if bslot.feRunning ≠ 0 then pure ()
      else do
        let next ← slotNext b
        let _ ← utilKill e bslot.pid .term
        removeBeWaitLoop e fuel next

/-- `speedy_backend_remove_be_wait` -/
def removeBeWait (e : Env) (g : SlotNum) : M Unit := do
  slotCheck g
  let b ← getHead (.be g)
  let fuel ← loopFuel
  removeBeWaitLoop e fuel b

def countBesLoop (max : ℕ) : ℕ → SlotNum → ℕ → M ℕ
  | 0, _, _ => throw .loop
  | fuel + 1, b, count =>
    if b ≠ 0 ∧ count < max then do
      let next ← slotNext b
      countBesLoop max fuel next (count + 1)
    else return count

/-- `count_bes` -/
def countBes (g : SlotNum) (max : ℕ) : M ℕ := do
  slotCheck g
  let b ← getHead (.be g)
  let fuel ← loopFuel
  countBesLoop max fuel b 0

/-- `speedy_backend_below_maxbe` -/
def belowMaxbe (e : Env) (g : SlotNum) : M Bool :=
  if e.maxBackends = 0 then return true
  else do
    let n ← countBes g e.maxBackends
    return decide (n < e.maxBackends)

end SpeedyCgi.TempFile
