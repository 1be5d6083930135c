import SpeedyCgi.TempFile.Backend

/-!
`speedy_group.c`, `speedy_backend_be_wait_get` of `speedy_backend.c`, and `speedy_script_find`
of `speedy_script.c`.

A group is valid as long as it has scripts. Valid groups stand before the invalid ones in the
group list.
-/

namespace SpeedyCgi.TempFile

/-- `DOING_SINGLE_SCRIPT`: the option is `none`. -/
def doingSingleScript (e : Env) : Bool := e.group = [110, 111, 110, 101]

/-- `speedy_group_isvalid` -/
def groupIsvalid (g : SlotNum) : M Bool := do
  slotCheck g
  let head ← getHead (.script g)
  return decide (head ≠ 0)

/-- The loop of `speedy_group_invalidate` over the script list. -/
def freeScripts : ℕ → SlotNum → M Unit
  | 0, _ => throw .loop
  | fuel + 1, s =>
    if s = 0 then pure ()
    else do
      let next ← slotNext s
      slotFree s
      freeScripts fuel next

/-- Remove scripts from the script list. -/
def freeScriptList (g : SlotNum) : M Unit := do
  let head ← getHead (.script g)
  let fuel ← loopFuel
  freeScripts fuel head
  setHead (.script g) 0

/-- `speedy_group_invalidate` -/
def groupInvalidate (e : Env) (g : SlotNum) : M Unit := do
  let valid ← groupIsvalid g
  onlyIf (valid = true) (do
    freeScriptList g
    let gslot ← getGr g
    onlyIf (gslot.nameSlot ≠ 0) (do
      slotFree gslot.nameSlot
      modifyGr g fun s => { s with nameSlot := 0 })
    removeBeWait e g
    slotMoveTail g .group)

/-- `speedy_group_be_starting` -/
def groupBeStarting (e : Env) (g : SlotNum) : M Pid := do
  let gslot ← getGr g
  if gslot.beStarting = 0 then return 0
  else do
    let ok ← utilKill e gslot.beStarting .zero
    if ok = true then return gslot.beStarting
    else do
      modifyGr g fun s => { s with beStarting := 0 }
      return 0

/-- `speedy_backend_be_wait_get` -/
def beWaitGet (e : Env) (g : SlotNum) : M SlotNum := do
  slotCheck g
  let head ← getHead (.be g)
  let starting ← groupBeStarting e g
  if starting ≠ 0 ∨ head = 0 then return 0
  else do
    let bslot ← getBe head
    if bslot.feRunning ≠ 0 then return 0
    else do
      slotMoveTail head (.be g)
      return head

/-- The inner loop of `speedy_group_sendsigs`. -/
def sendsigsLoop (e : Env) (g : SlotNum) : ℕ → SlotNum → M Unit
  | 0, _ => throw .loop
  | fuel + 1, f =>
    if f = 0 then pure ()
    else do
      let fslot ← getFe f
      let next ← slotNext f
      let ok ← utilKill e fslot.pid .alrm
      if ok = true then modifyFe f fun s => { s with sentSig := true }
      else do
        frontendDispose g f
        sendsigsLoop e g fuel next

/-- `speedy_group_sendsigs`; its outer loop ends in a `break`. -/
def groupSendsigs (e : Env) (g : SlotNum) : M Unit := do
  slotCheck g
  let f ← getHead (.fe g)
  let b ← getHead (.be g)
  onlyIf (b ≠ 0 ∧ f ≠ 0) (do
    let bslot ← getBe b
    let fuel ← loopFuel
    onlyIf (bslot.feRunning = 0) (sendsigsLoop e g fuel f))

/-- `speedy_group_cleanup` -/
def groupCleanup (e : Env) (g : SlotNum) : M Unit := do
  slotCheck g
  let b ← getHead (.be g)
  let f ← getHead (.fe g)
  onlyIf (b = 0 ∧ f = 0) (do
    let gslot ← getGr g
    let _ ← utilKill e gslot.beParent .kill
    groupInvalidate e g
    slotRemove g .group
    slotFree g)

/-- `strncpy` of a string, which ends at its first NUL, into `n` bytes. -/
def strncpy (n : ℕ) (s : List UInt8) : List UInt8 :=
  (s.takeWhile (· ≠ 0)).take n ++ List.replicate (n - (s.takeWhile (· ≠ 0)).length) 0

/-- `!strncmp`: the bytes agree up to a NUL or the `n`-th one. -/
def strncmpEq : ℕ → List UInt8 → List UInt8 → Bool
  | 0, _, _ => true
  | n + 1, a, b => a.headD 0 == b.headD 0 && (a.headD 0 == 0 || strncmpEq n a.tail b.tail)

/-- `speedy_group_create` -/
def groupCreate (e : Env) : M SlotNum := do
  let g ← slotAlloc e
  slotInsert g .group
  onlyIf (doingSingleScript e = false) (do
    let n ← slotAlloc e
    modifyGr g fun s => { s with nameSlot := n }
    modifyGrnm n fun _ => strncpy grNameLen e.group)
  return g

/-- `speedy_group_parent_sig` -/
def groupParentSig (e : Env) (g : SlotNum) (sig : Sig) : M Bool := do
  let gslot ← getGr g
  let ok ← utilKill e gslot.beParent sig
  if ok = true then return true
  else do
    groupInvalidate e g
    modifyGr g fun s => { s with beParent := 0 }
    return false

/-- `speedy_group_start_be` -/
def groupStartBe (e : Env) (g : SlotNum) : M Bool := do
  let gslot ← getGr g
  if gslot.beParent ≠ 0 ∧ gslot.beParent = gslot.beStarting then return true
  else groupParentSig e g .usr1

/-- `speedy_group_name_match` -/
def groupNameMatch (e : Env) (g : SlotNum) : M Bool := do
  let gslot ← getGr g
  if gslot.nameSlot = 0 then return false
  else do
    let name ← getGrnm gslot.nameSlot
    return strncmpEq grNameLen name e.group

/-- The search of a script list for the device and inode of the script. -/
def scriptSearch (e : Env) : ℕ → SlotNum → M SlotNum
  | 0, _ => throw .loop
  | fuel + 1, s =>
    if s = 0 then return 0
    else do
      let sslot ← getScr s
      if sslot.devNum = e.stat.dev ∧ sslot.inoNum = e.stat.ino then return s
      else do
        let next ← slotNext s
        scriptSearch e fuel next

/-- What `speedy_script_find` does with one group: the script slot if it is up to date. -/
def scriptInGroup (e : Env) (g : SlotNum) : M SlotNum := do
  let head ← getHead (.script g)
  let fuel ← loopFuel
  let s ← scriptSearch e fuel head
  if s = 0 then return 0
  else do
    let sslot ← getScr s
    if sslot.mtime ≠ e.stat.mtime then do
      groupInvalidate e g
      return 0
    else do
      slotMoveHead s (.script g)
      return s

/-- The loop of `speedy_script_find` over the groups: the group found, or `0`, and `name_match`. -/
def scriptFindLoop (e : Env) : ℕ → SlotNum → SlotNum → M (SlotNum × SlotNum)
  | 0, _, _ => throw .loop
  | fuel + 1, g, nameMatch =>
    if g = 0 then return (0, nameMatch)
    else do
      let next ← slotNext g
      let valid ← groupIsvalid g
      if valid = false then return (0, nameMatch)
      else do
        let here ← (if doingSingleScript e then pure true else groupNameMatch e g)
        if here = false then scriptFindLoop e fuel next nameMatch
        else do
          let s ← scriptInGroup e g
          if s ≠ 0 then return (g, g)
          else scriptFindLoop e fuel next (if doingSingleScript e then nameMatch else g)

/-- The part of `speedy_script_find` after its loop when no slot was found. -/
def scriptAdd (e : Env) (nameMatch : SlotNum) : M SlotNum := do
  let valid ← (if nameMatch = 0 then pure false else groupIsvalid nameMatch)
  let g ← (if valid = false then groupCreate e else pure nameMatch)
  let s ← slotAlloc e
  modifyScr s fun _ => ⟨e.stat.dev, e.stat.ino, e.stat.mtime⟩
  slotInsert s (.script g)
  return g

/-- `speedy_script_find` -/
def scriptFind (e : Env) : M SlotNum := do
  let head ← getHead .group
  let fuel ← loopFuel
  let found ← scriptFindLoop e fuel head 0
  let g ← (if found.1 = 0 then scriptAdd e found.2 else pure found.1)
  slotMoveHead g .group
  return g

end SpeedyCgi.TempFile
