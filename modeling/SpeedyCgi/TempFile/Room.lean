import SpeedyCgi.TempFile.Queue

/-!
The room in the file: `file_lock` of `speedy_file.c` makes the file larger before a section begins,
and the section has to do with that.

No section calls `speedy_slot_alloc` more than `MIN_SLOTS_FREE` times. This is a matter of how the
programs are put together, whatever the file looks like; a frontend takes up to four slots (its own,
and a group, a name and a script), and so does a backend parent that begins.
-/

namespace SpeedyCgi.TempFile

open Function Lib.Wp Lib.Lts

/-- `MIN_SLOTS_FREE` -/
def minSlotsFree : ℕ := 5

/-- `FILE_ALLOC_CHUNK` -/
def fileAllocChunk : ℕ := 512

/-- Program `m` is put together from at most `k` calls of `speedy_slot_alloc` on any path, and from
parts that neither take a slot nor make room for more. -/
inductive Allocs (e : Env) : {α : Type} → ℕ → M α → Prop
  | pure {α : Type} (a : α) : Allocs e 0 (pure a : M α)
  | throw {α : Type} (d : Die) (hd : d ≠ .fileTooSmall) : Allocs e 0 (throw d : M α)
  | get : Allocs e 0 (get : M St)
  | modifyFile (h : File → File) (hfree : ∀ f, (h f).slotFree = f.slotFree)
      (halloced : ∀ f, (h f).slotsAlloced = f.slotsAlloced) : Allocs e 0 (modifyFile h)
  | note (ev : Event) : Allocs e 0 (note ev)
  | slotFree (n : SlotNum) : Allocs e 0 (slotFree n)
  | slotAlloc : Allocs e 1 (slotAlloc e)
  | bind {α β : Type} {k l : ℕ} {m : M α} {f : α → M β} (hm : Allocs e k m)
      (hf : ∀ a, Allocs e l (f a)) : Allocs e (k + l) (m >>= f)
  | mono {α : Type} {k l : ℕ} {m : M α} (h : Allocs e k m) (hkl : k ≤ l) : Allocs e l m

section
variable {e : Env} {α β : Type} {k l : ℕ}

attribute [grind ←] Allocs.pure Allocs.throw Allocs.get Allocs.note Allocs.slotFree Allocs.slotAlloc

@[grind ←] lemma quiet_bind {m : M α} {f : α → M β} (hm : Allocs e 0 m) (hf : ∀ a, Allocs e 0 (f a)) :
    Allocs e 0 (m >>= f) := .bind hm hf

@[grind ←] lemma quiet_onlyIf {c : Prop} [Decidable c] {m : M Unit} (h : Allocs e 0 m) :
    Allocs e 0 (onlyIf c m) := by
  unfold onlyIf
  grind

@[grind ←] lemma quiet_slotCheck (n : SlotNum) : Allocs e 0 (slotCheck n) := by unfold slotCheck; grind

@[grind ←] lemma quiet_readAt (n : SlotNum) (r : File → α) : Allocs e 0 (readAt n r) := by
  unfold readAt
  grind

lemma quiet_writeAt (n : SlotNum) {h : File → File} (hfree : ∀ f, (h f).slotFree = f.slotFree)
    (halloced : ∀ f, (h f).slotsAlloced = f.slotsAlloced) : Allocs e 0 (writeAt n h) :=
  quiet_bind (quiet_slotCheck n) fun _ => .modifyFile h hfree halloced

/-! ### Loads, stores and lists -/

@[grind ←] lemma quiet_slotNext (n : SlotNum) : Allocs e 0 (slotNext n) := quiet_readAt ..
@[grind ←] lemma quiet_slotPrev (n : SlotNum) : Allocs e 0 (slotPrev n) := quiet_readAt ..
@[grind ←] lemma quiet_setNext (n v : SlotNum) : Allocs e 0 (setNext n v) :=
  quiet_writeAt n (fun _ => rfl) fun _ => rfl
@[grind ←] lemma quiet_setPrev (n v : SlotNum) : Allocs e 0 (setPrev n v) :=
  quiet_writeAt n (fun _ => rfl) fun _ => rfl
@[grind ←] lemma quiet_getScr (n : SlotNum) : Allocs e 0 (getScr n) := quiet_readAt ..
@[grind ←] lemma quiet_getBe (n : SlotNum) : Allocs e 0 (getBe n) := quiet_readAt ..
@[grind ←] lemma quiet_getFe (n : SlotNum) : Allocs e 0 (getFe n) := quiet_readAt ..
@[grind ←] lemma quiet_getGr (n : SlotNum) : Allocs e 0 (getGr n) := quiet_readAt ..
@[grind ←] lemma quiet_getGrnm (n : SlotNum) : Allocs e 0 (getGrnm n) := quiet_readAt ..
@[grind ←] lemma quiet_modifyScr (n : SlotNum) (h : ScrSlot → ScrSlot) : Allocs e 0 (modifyScr n h) :=
  quiet_writeAt n (fun _ => rfl) fun _ => rfl
@[grind ←] lemma quiet_modifyBe (n : SlotNum) (h : BeSlot → BeSlot) : Allocs e 0 (modifyBe n h) :=
  quiet_writeAt n (fun _ => rfl) fun _ => rfl
@[grind ←] lemma quiet_modifyFe (n : SlotNum) (h : FeSlot → FeSlot) : Allocs e 0 (modifyFe n h) :=
  quiet_writeAt n (fun _ => rfl) fun _ => rfl
@[grind ←] lemma quiet_modifyGr (n : SlotNum) (h : GrSlot → GrSlot) : Allocs e 0 (modifyGr n h) :=
  quiet_writeAt n (fun _ => rfl) fun _ => rfl
@[grind ←] lemma quiet_modifyGrnm (n : SlotNum) (h : List UInt8 → List UInt8) :
    Allocs e 0 (modifyGrnm n h) := quiet_writeAt n (fun _ => rfl) fun _ => rfl
@[grind ←] lemma quiet_getHead (c : Chain) : Allocs e 0 (getHead c) := by unfold getHead; grind
@[grind ←] lemma quiet_getTail (c : Chain) : Allocs e 0 (getTail c) := by unfold getTail; grind
@[grind ←] lemma quiet_setHead (c : Chain) (v : SlotNum) : Allocs e 0 (setHead c v) :=
  .modifyFile _ (fun _ => rfl) fun _ => rfl
@[grind ←] lemma quiet_setTail (c : Chain) (v : SlotNum) : Allocs e 0 (setTail c v) :=
  quiet_onlyIf (.modifyFile _ (fun _ => rfl) fun _ => rfl)
@[grind ←] lemma quiet_derefTail (c : Chain) : Allocs e 0 (derefTail c) := by unfold derefTail; grind
@[grind ←] lemma quiet_utilKill (e' : Env) (pid : Pid) (sig : Sig) : Allocs e 0 (utilKill e' pid sig) := by
  unfold utilKill
  grind
@[grind ←] lemma quiet_slotRemove (n : SlotNum) (c : Chain) : Allocs e 0 (slotRemove n c) := by
  unfold slotRemove
  repeat' first | with_reducible apply quiet_bind | intro _ | split | grind

@[grind ←] lemma quiet_slotInsert (n : SlotNum) (c : Chain) : Allocs e 0 (slotInsert n c) := by
  unfold slotInsert
  repeat' first | with_reducible apply quiet_bind | intro _ | split | grind

@[grind ←] lemma quiet_slotAppend (n : SlotNum) (c : Chain) : Allocs e 0 (slotAppend n c) := by
  unfold slotAppend
  repeat' first | with_reducible apply quiet_bind | intro _ | split | grind

@[grind ←] lemma quiet_loopFuel : Allocs e 0 loopFuel := by
  unfold loopFuel
  repeat' first | with_reducible apply quiet_bind | intro _ | split | grind

@[grind ←] lemma quiet_slotMoveHead (n : SlotNum) (c : Chain) : Allocs e 0 (slotMoveHead n c) := by
  unfold slotMoveHead
  repeat' first | with_reducible apply quiet_bind | intro _ | split | grind

@[grind ←] lemma quiet_slotMoveTail (n : SlotNum) (c : Chain) : Allocs e 0 (slotMoveTail n c) := by
  unfold slotMoveTail
  repeat' first | with_reducible apply quiet_bind | intro _ | split | grind

/-! ### Backends, groups and frontends -/

@[grind ←] lemma quiet_doSort (a b : SlotNum) : Allocs e 0 (doSort a b) := by
  unfold doSort
  repeat' first | with_reducible apply quiet_bind | intro _ | split | grind

@[grind ←] lemma quiet_insertSortedLoop (n : SlotNum) (c : Chain) (fuel : ℕ) (p : SlotNum) :
    Allocs e 0 (insertSortedLoop n c doSort fuel p) := by
  induction fuel generalizing p with
  | zero => exact .throw _ (by decide)
  | succ fuel ih =>
    unfold insertSortedLoop
    repeat' first | with_reducible apply quiet_bind | intro _ | split | grind

@[grind ←] lemma quiet_slotInsertSorted (n : SlotNum) (c : Chain) :
    Allocs e 0 (slotInsertSorted n c doSort) := by
  unfold slotInsertSorted
  repeat' first | with_reducible apply quiet_bind | intro _ | split | grind

@[grind ←] lemma quiet_frontendDispose (g f : SlotNum) : Allocs e 0 (frontendDispose g f) := by
  unfold frontendDispose
  repeat' first | with_reducible apply quiet_bind | intro _ | split | grind

@[grind ←] lemma quiet_frontendRemoveRunning (f : SlotNum) :
    Allocs e 0 (frontendRemoveRunning f) := by
  unfold frontendRemoveRunning
  repeat' first | with_reducible apply quiet_bind | intro _ | split | grind

@[grind ←] lemma quiet_backendExited (b : SlotNum) (sig : Bool) (val : ℕ) :
    Allocs e 0 (backendExited e b sig val) := by
  unfold backendExited
  repeat' first | with_reducible apply quiet_bind | intro _ | split | grind

@[grind ←] lemma quiet_backendDied (b : SlotNum) : Allocs e 0 (backendDied e b) := by
  unfold backendDied
  repeat' first | with_reducible apply quiet_bind | intro _ | split | grind

@[grind ←] lemma quiet_backendAlive (b : SlotNum) : Allocs e 0 (backendAlive e b) := by
  unfold backendAlive
  repeat' first | with_reducible apply quiet_bind | intro _ | split | grind

@[grind ←] lemma quiet_backendDispose (g b : SlotNum) : Allocs e 0 (backendDispose e g b) := by
  unfold backendDispose
  repeat' first | with_reducible apply quiet_bind | intro _ | split | grind

@[grind ←] lemma quiet_removeBeWaitLoop (fuel : ℕ) (b : SlotNum) :
    Allocs e 0 (removeBeWaitLoop e fuel b) := by
  induction fuel generalizing b with
  | zero => exact .throw _ (by decide)
  | succ fuel ih =>
    unfold removeBeWaitLoop
    repeat' first | with_reducible apply quiet_bind | intro _ | split | grind

@[grind ←] lemma quiet_removeBeWait (g : SlotNum) : Allocs e 0 (removeBeWait e g) := by
  unfold removeBeWait
  repeat' first | with_reducible apply quiet_bind | intro _ | split | grind

@[grind ←] lemma quiet_countBesLoop (max fuel : ℕ) (b : SlotNum) (count : ℕ) :
    Allocs e 0 (countBesLoop max fuel b count) := by
  induction fuel generalizing b count with
  | zero => exact .throw _ (by decide)
  | succ fuel ih =>
    unfold countBesLoop
    repeat' first | with_reducible apply quiet_bind | intro _ | split | grind

@[grind ←] lemma quiet_countBes (g : SlotNum) (max : ℕ) : Allocs e 0 (countBes g max) := by
  unfold countBes
  repeat' first | with_reducible apply quiet_bind | intro _ | split | grind

@[grind ←] lemma quiet_belowMaxbe (g : SlotNum) : Allocs e 0 (belowMaxbe e g) := by
  unfold belowMaxbe
  repeat' first | with_reducible apply quiet_bind | intro _ | split | grind

@[grind ←] lemma quiet_groupIsvalid (g : SlotNum) : Allocs e 0 (groupIsvalid g) := by
  unfold groupIsvalid
  repeat' first | with_reducible apply quiet_bind | intro _ | split | grind

@[grind ←] lemma quiet_freeScripts (fuel : ℕ) (s : SlotNum) : Allocs e 0 (freeScripts fuel s) := by
  induction fuel generalizing s with
  | zero => exact .throw _ (by decide)
  | succ fuel ih =>
    unfold freeScripts
    repeat' first | with_reducible apply quiet_bind | intro _ | split | grind

@[grind ←] lemma quiet_freeScriptList (g : SlotNum) : Allocs e 0 (freeScriptList g) := by
  unfold freeScriptList
  repeat' first | with_reducible apply quiet_bind | intro _ | split | grind

@[grind ←] lemma quiet_groupInvalidate (g : SlotNum) : Allocs e 0 (groupInvalidate e g) := by
  unfold groupInvalidate
  refine quiet_bind (quiet_groupIsvalid g) fun _ => quiet_onlyIf ?_
  repeat' first | with_reducible apply quiet_bind | intro _ | split | grind

@[grind ←] lemma quiet_groupBeStarting (g : SlotNum) : Allocs e 0 (groupBeStarting e g) := by
  unfold groupBeStarting
  repeat' first | with_reducible apply quiet_bind | intro _ | split | grind

@[grind ←] lemma quiet_beWaitGet (g : SlotNum) : Allocs e 0 (beWaitGet e g) := by
  unfold beWaitGet
  repeat' first | with_reducible apply quiet_bind | intro _ | split | grind

@[grind ←] lemma quiet_sendsigsLoop (g : SlotNum) (fuel : ℕ) (f : SlotNum) :
    Allocs e 0 (sendsigsLoop e g fuel f) := by
  induction fuel generalizing f with
  | zero => exact .throw _ (by decide)
  | succ fuel ih =>
    unfold sendsigsLoop
    repeat' first | with_reducible apply quiet_bind | intro _ | split | grind

@[grind ←] lemma quiet_groupSendsigs (g : SlotNum) : Allocs e 0 (groupSendsigs e g) := by
  unfold groupSendsigs
  repeat' first | with_reducible apply quiet_bind | intro _ | split | grind

@[grind ←] lemma quiet_groupCleanup (g : SlotNum) : Allocs e 0 (groupCleanup e g) := by
  unfold groupCleanup
  repeat' first | with_reducible apply quiet_bind | intro _ | split | grind

@[grind ←] lemma quiet_groupParentSig (g : SlotNum) (sig : Sig) :
    Allocs e 0 (groupParentSig e g sig) := by
  unfold groupParentSig
  repeat' first | with_reducible apply quiet_bind | intro _ | split | grind

@[grind ←] lemma quiet_groupStartBe (g : SlotNum) : Allocs e 0 (groupStartBe e g) := by
  unfold groupStartBe
  repeat' first | with_reducible apply quiet_bind | intro _ | split | grind

@[grind ←] lemma quiet_groupNameMatch (g : SlotNum) : Allocs e 0 (groupNameMatch e g) := by
  unfold groupNameMatch
  repeat' first | with_reducible apply quiet_bind | intro _ | split | grind

@[grind ←] lemma quiet_scriptSearch (fuel : ℕ) (s : SlotNum) :
    Allocs e 0 (scriptSearch e fuel s) := by
  induction fuel generalizing s with
  | zero => exact .throw _ (by decide)
  | succ fuel ih =>
    unfold scriptSearch
    repeat' first | with_reducible apply quiet_bind | intro _ | split | grind

@[grind ←] lemma quiet_scriptInGroup (g : SlotNum) : Allocs e 0 (scriptInGroup e g) := by
  unfold scriptInGroup
  repeat' first | with_reducible apply quiet_bind | intro _ | split | grind

@[grind ←] lemma quiet_scriptFindLoop (fuel : ℕ) (g nameMatch : SlotNum) :
    Allocs e 0 (scriptFindLoop e fuel g nameMatch) := by
  induction fuel generalizing g nameMatch with
  | zero => exact .throw _ (by decide)
  | succ fuel ih =>
    unfold scriptFindLoop
    repeat' first | with_reducible apply quiet_bind | intro _ | split | grind

@[grind ←] lemma quiet_frontendCollectStatus (f : SlotNum) :
    Allocs e 0 (frontendCollectStatus e f) := by
  unfold frontendCollectStatus
  repeat' first | with_reducible apply quiet_bind | intro _ | split | grind

@[grind ←] lemma quiet_cleanRunningLoop (fuel : ℕ) : Allocs e 0 (cleanRunningLoop e fuel) := by
  induction fuel with
  | zero => exact .throw _ (by decide)
  | succ fuel ih =>
    unfold cleanRunningLoop
    repeat' first | with_reducible apply quiet_bind | intro _ | split | grind

@[grind ←] lemma quiet_frontendCleanRunning : Allocs e 0 (frontendCleanRunning e) := by
  unfold frontendCleanRunning
  repeat' first | with_reducible apply quiet_bind | intro _ | split | grind

@[grind ←] lemma quiet_beParentSpawn (g : SlotNum) : Allocs e 0 (beParentSpawn e g) := by
  unfold beParentSpawn
  repeat' first | with_reducible apply quiet_bind | intro _ | split | grind

@[grind ←] lemma quiet_backendCheck (g : SlotNum) (didSpawn : Bool) :
    Allocs e 0 (backendCheck e g didSpawn) := by
  unfold backendCheck
  repeat' first | with_reducible apply quiet_bind | intro _ | split | grind

@[grind ←] lemma quiet_fePrevLoop (fuel : ℕ) (g : SlotNum) : Allocs e 0 (fePrevLoop fuel g) := by
  induction fuel generalizing g with
  | zero => exact .throw _ (by decide)
  | succ fuel ih =>
    unfold fePrevLoop
    repeat' first | with_reducible apply quiet_bind | intro _ | split | grind

@[grind ←] lemma quiet_fePrev (g f : SlotNum) : Allocs e 0 (fePrev g f) := by
  unfold fePrev
  repeat' first | with_reducible apply quiet_bind | intro _ | split | grind

@[grind ←] lemma quiet_checkPrevLoop (fuel : ℕ) (g f : SlotNum) :
    Allocs e 0 (checkPrevLoop e fuel g f) := by
  induction fuel generalizing g f with
  | zero => exact .throw _ (by decide)
  | succ fuel ih =>
    unfold checkPrevLoop
    repeat' first | with_reducible apply quiet_bind | intro _ | split | grind

@[grind ←] lemma quiet_frontendCheckPrev (g f : SlotNum) :
    Allocs e 0 (frontendCheckPrev e g f) := by
  unfold frontendCheckPrev
  repeat' first | with_reducible apply quiet_bind | intro _ | split | grind

@[grind ←] lemma quiet_frontendPing (g f : SlotNum) (didSpawn : Bool) :
    Allocs e 0 (frontendPing e g f didSpawn) := by
  unfold frontendPing
  repeat' first | with_reducible apply quiet_bind | intro _ | split | grind

@[grind ←] lemma quiet_hardRound (g f : SlotNum) (didSpawn : Bool) :
    Allocs e 0 (hardRound e g f didSpawn) := by
  unfold hardRound
  repeat' first | with_reducible apply quiet_bind | intro _ | split | grind

@[grind ←] lemma quiet_getABackendEnd (g f : SlotNum) (spawnWorking : Bool) (b : SlotNum) :
    Allocs e 0 (getABackendEnd e g f spawnWorking b) := by
  unfold getABackendEnd
  repeat' first | with_reducible apply quiet_bind | intro _ | split | grind

@[grind ←] lemma quiet_hardEnd (g f : SlotNum) (r : Hard) : Allocs e 0 (hardEnd e g f r) := by
  unfold hardEnd
  repeat' first | with_reducible apply quiet_bind | intro _ | split | grind

@[grind ←] lemma quiet_getABackendWake (g f : SlotNum) (didSpawn changed : Bool) :
    Allocs e 0 (getABackendWake e g f didSpawn changed) := by
  unfold getABackendWake
  repeat' first | with_reducible apply quiet_bind | intro _ | split | grind

@[grind ←] lemma quiet_ipcConnect (b : SlotNum) : Allocs e 0 (ipcConnect e b) := by
  unfold ipcConnect
  repeat' first | with_reducible apply quiet_bind | intro _ | split | grind

@[grind ←] lemma quiet_connectRest (want : Bool) (f : SlotNum) (r : Got) :
    Allocs e 0 (connectRest e want f r) := by
  unfold connectRest
  repeat' first | with_reducible apply quiet_bind | intro _ | split | grind

@[grind ←] lemma quiet_findPidLoop (pid : Pid) (fuel : ℕ) (b : SlotNum) :
    Allocs e 0 (findPidLoop pid fuel b) := by
  induction fuel generalizing b with
  | zero => exact .throw _ (by decide)
  | succ fuel ih =>
    unfold findPidLoop
    repeat' first | with_reducible apply quiet_bind | intro _ | split | grind

@[grind ←] lemma quiet_findPid (g : SlotNum) (pid : Pid) : Allocs e 0 (findPid g pid) := by
  unfold findPid
  repeat' first | with_reducible apply quiet_bind | intro _ | split | grind

@[grind ←] lemma quiet_collectChild (g : SlotNum) (cs : List Child) :
    Allocs e 0 (collectChild e g cs) := by
  induction cs with
  | nil => exact .pure ()
  | cons c cs ih =>
    unfold collectChild
    repeat' first | with_reducible apply quiet_bind | intro _ | split | grind

@[grind ←] lemma quiet_cleanupBes (g : SlotNum) (fuel : ℕ) (b : SlotNum) :
    Allocs e 0 (cleanupBes e g fuel b) := by
  induction fuel generalizing b with
  | zero => exact .throw _ (by decide)
  | succ fuel ih =>
    unfold cleanupBes
    repeat' first | with_reducible apply quiet_bind | intro _ | split | grind

@[grind ←] lemma quiet_doCleanupGroup (g : SlotNum) : Allocs e 0 (doCleanupGroup e g) := by
  unfold doCleanupGroup
  repeat' first | with_reducible apply quiet_bind | intro _ | split | grind

@[grind ←] lemma quiet_doCleanup (g : SlotNum) : Allocs e 0 (doCleanup e g) := by
  unfold doCleanup
  repeat' first | with_reducible apply quiet_bind | intro _ | split | grind

@[grind ←] lemma quiet_beWaitPut (g b : SlotNum) : Allocs e 0 (beWaitPut g b) := by
  unfold beWaitPut
  repeat' first | with_reducible apply quiet_bind | intro _ | split | grind

@[grind ←] lemma quiet_started (g : SlotNum) : Allocs e 0 (started e g) := by
  unfold started
  repeat' first | with_reducible apply quiet_bind | intro _ | split | grind

@[grind ←] lemma quiet_perlWait (g b : SlotNum) (again : Bool) :
    Allocs e 0 (perlWait e g b again) := by
  unfold perlWait
  repeat' first | with_reducible apply quiet_bind | intro _ | split | grind

@[grind ←] lemma quiet_perlAccepted (g : SlotNum) : Allocs e 0 (perlAccepted e g) := by
  unfold perlAccepted
  repeat' first | with_reducible apply quiet_bind | intro _ | split | grind

@[grind ←] lemma quiet_perlLast (g : SlotNum) : Allocs e 0 (perlLast e g) := by
  unfold perlLast
  repeat' first | with_reducible apply quiet_bind | intro _ | split | grind

@[grind ←] lemma quiet_perlRan (b : SlotNum) (val : ℕ) : Allocs e 0 (perlRan e b val) := by
  unfold perlRan
  repeat' first | with_reducible apply quiet_bind | intro _ | split | grind

@[grind ←] lemma quiet_perlNext (g b : SlotNum) (val : ℕ) (more orphan : Bool) :
    Allocs e 0 (perlNext e g b val more orphan) := by
  unfold perlNext
  repeat' first | with_reducible apply quiet_bind | intro _ | split | grind

/-! ### The sections that take slots -/

lemma Allocs.before {m : M α} {f : α → M β} (hm : Allocs e 0 m) (hf : ∀ a, Allocs e k (f a)) :
    Allocs e k (m >>= f) := by
  rw [← Nat.zero_add k]
  exact .bind hm hf

lemma Allocs.behind {m : M α} {f : α → M β} (hm : Allocs e k m) (hf : ∀ a, Allocs e 0 (f a)) :
    Allocs e k (m >>= f) := .bind hm hf

lemma Allocs.onlyIf {c : Prop} [Decidable c] {m : M Unit} (h : Allocs e k m) :
    Allocs e k (onlyIf c m) := by
  unfold TempFile.onlyIf
  split
  · exact h
  · exact .mono (.pure ()) (Nat.zero_le k)

/-- A group and its name. -/
lemma allocs_groupCreate : Allocs e (1 + 1) (groupCreate e) := by
  unfold groupCreate
  refine .bind .slotAlloc fun g => .before (quiet_slotInsert g .group) fun _ => ?_
  refine .behind (.onlyIf (.behind .slotAlloc fun n => ?_)) fun _ => .pure g
  exact quiet_bind (quiet_modifyGr ..) fun _ => quiet_modifyGrnm ..

lemma allocs_scriptAdd (nameMatch : SlotNum) : Allocs e (2 + 1) (scriptAdd e nameMatch) := by
  have hgroup : ∀ valid : Bool,
      Allocs e 2 (if valid = false then groupCreate e else pure nameMatch) := by
    intro valid
    split
    · exact allocs_groupCreate
    · exact .mono (.pure _) (by omega)
  unfold scriptAdd
  refine .before ?_ fun valid => .bind (hgroup valid) fun g => .behind .slotAlloc fun s => ?_
  · split <;> grind
  · repeat' first | with_reducible apply quiet_bind | intro _ | grind

lemma allocs_scriptFind : Allocs e 3 (scriptFind e) := by
  have hadd : ∀ found : SlotNum × SlotNum,
      Allocs e 3 (if found.1 = 0 then scriptAdd e found.2 else pure found.1) := by
    intro found
    split
    · exact allocs_scriptAdd found.2
    · exact .mono (.pure _) (by omega)
  unfold scriptFind
  refine .before (quiet_getHead _) fun head => .before quiet_loopFuel fun fuel =>
    .before (quiet_scriptFindLoop ..) fun found => .behind (hadd found) fun g => ?_
  exact quiet_bind (quiet_slotMoveHead g .group) fun _ => .pure g

lemma allocs_getABackend (f : SlotNum) : Allocs e 3 (getABackend e f) := by
  unfold getABackend
  refine .behind allocs_scriptFind fun g => ?_
  repeat' first | with_reducible apply quiet_bind | intro _ | split | grind

lemma allocs_connectEnter (didClean : Bool) : Allocs e 1 (connectEnter e didClean) := by
  unfold connectEnter
  refine .before (quiet_onlyIf quiet_frontendCleanRunning) fun _ => .behind .slotAlloc fun f => ?_
  exact .before (quiet_modifyFe ..) fun _ => .pure _

/-- A frontend takes a slot for itself and those of `speedy_script_find`. -/
lemma allocs_frontendConnect (want didClean : Bool) : Allocs e (1 + 3) (frontendConnect e want didClean) := by
  unfold frontendConnect connectStart
  exact .behind (.bind (allocs_connectEnter didClean) fun f => .behind (allocs_getABackend f) fun r => .pure _)
    fun r => quiet_connectRest ..

lemma quiet_frontendWake (want : Bool) (g f : SlotNum) (didSpawn changed : Bool) :
    Allocs e 0 (frontendWake e want g f didSpawn changed) :=
  quiet_bind (quiet_getABackendWake ..) fun _ => quiet_connectRest ..

lemma allocs_startChild (g : SlotNum) : Allocs e 1 (startChild e g) := by
  have hcreate : Allocs e 1 (backendCreateSlot e g) := by
    unfold backendCreateSlot
    refine .before (quiet_slotCheck g) fun _ => .behind .slotAlloc fun b => ?_
    repeat' first | with_reducible apply quiet_bind | intro _ | grind
  have hnone : Allocs e 1 (pure () : M Unit) := .mono (.pure ()) (by omega)
  unfold startChild
  refine .before (quiet_groupBeStarting g) fun pid => ?_
  split
  · exact hnone
  refine .before (quiet_belowMaxbe g) fun below => ?_
  split
  · exact hnone
  refine .behind hcreate fun b => ?_
  repeat' first | with_reducible apply quiet_bind | intro _ | split | grind

/-- A backend parent takes the slots of `speedy_script_find` and one for a backend. -/
lemma allocs_parentInit : Allocs e (3 + 1) (parentInit e) := by
  unfold parentInit
  refine .bind allocs_scriptFind fun g => .before (quiet_getGr g) fun gslot => .before ?_ fun other => ?_
  · split <;> grind
  split
  · exact .mono (.pure none) (by omega)
  · exact .before (quiet_modifyGr ..) fun _ => .behind (allocs_startChild g) fun _ => .pure _

lemma allocs_parentIteration (g : SlotNum) (usr1 alrm : Bool) (cs : List Child) :
    Allocs e 1 (parentIteration e g usr1 alrm cs) := by
  unfold parentIteration
  refine .before (quiet_collectChild g cs) fun _ => .before (quiet_groupIsvalid g) fun valid =>
    .behind (.onlyIf (allocs_startChild g)) fun _ => ?_
  repeat' first | with_reducible apply quiet_bind | intro _ | split | grind

/-! ### What they need -/

/-- There were `n` slots, and there are `n'` behind a program that could take `k`. -/
def Grown (e : Env) (k n n' : ℕ) : Prop :=
  n ≤ n' ∧ n' ≤ n + k ∧ (n' = n ∨ n' < maxSlots ∧ n' ≤ e.room)

lemma Grown.refl (n : ℕ) : Grown e k n n := ⟨le_rfl, Nat.le_add_right n k, .inl rfl⟩

lemma Grown.trans {n₁ n₂ n₃ : ℕ} (h : Grown e k n₁ n₂) (h' : Grown e l n₂ n₃) : Grown e (k + l) n₁ n₃ := by
  unfold Grown at *
  omega

/-- A program that could take `k` slots finds the file too small only if it has no room for them. -/
lemma Allocs.grown {m : M α} (h : Allocs e k m) (s : St) :
    wp (fun d => d = .fileTooSmall → e.room < s.file.slotsAlloced + k) m
      (fun _ s' => Grown e k s.file.slotsAlloced s'.file.slotsAlloced) s := by
  induction h generalizing s with
  | pure a => exact .refl _
  | throw d hd => exact fun h => absurd h hd
  | get => exact .refl _
  | modifyFile h hfree halloced =>
    unfold TempFile.modifyFile
    rw [wp_modify, halloced]
    exact .refl _
  | note ev => exact .refl _
  | slotFree n =>
    unfold TempFile.slotFree slotPrev setPrev setNext readAt writeAt slotCheck TempFile.modifyFile TempFile.note
    simp only [wp_ite, wp_bind, wp_get, wp_throw, wp_pure, wp_modify]
    repeat' split
    all_goals first | exact .refl _ | exact fun h => by cases h
  | slotAlloc =>
    unfold TempFile.slotAlloc slotNext readAt slotCheck TempFile.modifyFile
    simp only [wp_ite, wp_bind, wp_get, wp_throw, wp_pure, wp_modify]
    split
    · split
      · exact fun h => by cases h
      · exact .refl _
    split
    · exact fun h => by cases h
    split
    · exact fun _ => ‹_›
    · rename_i hmax hroom
      exact ⟨Nat.le_succ _, le_rfl, .inr ⟨not_le.mp hmax, not_lt.mp hroom⟩⟩
  | bind hm hf ihm ihf =>
    rw [wp_bind]
    refine wp_imp (ihm s) (fun d h hd => ?_) fun a s₁ h₁ => wp_imp (ihf a s₁) (fun d h hd => ?_)
      fun _ s₂ h₂ => h₁.trans h₂
    · exact (h hd).trans_le (by omega)
    · refine (h hd).trans_le ?_
      rw [← Nat.add_assoc]
      exact Nat.add_le_add_right h₁.2.1 _
  | mono h hkl ih =>
    refine wp_imp (ih s) (fun d h hd => (h hd).trans_le (Nat.add_le_add_left hkl _)) fun _ s₁ h₁ => ?_
    exact ⟨h₁.1, h₁.2.1.trans (Nat.add_le_add_left hkl _), h₁.2.2⟩

/-- `sizeof(file_head_t)` and `sizeof(slot_t)`. -/
structure Sizes where
  head : ℕ
  slot : ℕ
  pos : 0 < slot
  chunk : head + minSlotsFree * slot ≤ fileAllocChunk

/-- What `file_lock` makes of the size of the file. -/
def Sizes.fileLock (z : Sizes) (size slotsAlloced : ℕ) : ℕ :=
  if size < z.head ∨ size < z.head + z.slot * (slotsAlloced + minSlotsFree) then size + fileAllocChunk
  else size

/-- How many slots a file of this size has room for. -/
def Sizes.room (z : Sizes) (size : ℕ) : ℕ := (size - z.head) / z.slot

/-- The slots there are fit into the file. -/
def Sizes.Fits (z : Sizes) (size slotsAlloced : ℕ) : Prop :=
  size = 0 ∧ slotsAlloced = 0 ∨ z.head + z.slot * slotsAlloced ≤ size

lemma Sizes.Fits.fileLock {z : Sizes} {size n : ℕ} (h : z.Fits size n) :
    z.head + z.slot * (n + minSlotsFree) ≤ z.fileLock size n := by
  have hchunk := z.chunk
  rw [Nat.mul_comm] at hchunk
  unfold Sizes.fileLock
  rw [Nat.mul_add]
  split
  · obtain ⟨rfl, rfl⟩ | h := h <;> omega
  · omega

lemma Sizes.room_le {z : Sizes} {size n : ℕ} (h : z.head + z.slot * n ≤ size) : n ≤ z.room size := by
  unfold Sizes.room
  rw [Nat.le_div_iff_mul_le z.pos, Nat.mul_comm]
  omega

lemma Sizes.le_of_room {z : Sizes} {size n : ℕ} (hsize : z.head ≤ size) (h : n ≤ z.room size) :
    z.head + z.slot * n ≤ size := by
  unfold Sizes.room at h
  rw [Nat.le_div_iff_mul_le z.pos, Nat.mul_comm] at h
  omega

/-- The slots that there are after a section have all been given room. -/
lemma Sizes.Fits.grown {z : Sizes} {size n n' : ℕ} (h : z.Fits size n)
    (hroom : e.room = z.room (z.fileLock size n)) (hg : Grown e k n n') :
    z.Fits (z.fileLock size n) n' := by
  have hlock := h.fileLock
  rw [Nat.mul_add] at hlock
  obtain ⟨-, -, rfl | ⟨-, hle⟩⟩ := hg
  · exact .inr (by omega)
  · rw [hroom] at hle
    exact .inr (z.le_of_room (by omega) hle)

end

/-! ### Any number of sections -/

namespace World

variable {W W' : World} {a : Act} {e : Env} {p : Pid}

/-- The system with the size of the file: each section begins with `file_lock`, and has the room that
this leaves. -/
def stepSized (z : Sizes) (X : World × ℕ) (a : Act) : Option (World × ℕ) :=
  match a.env with
  | none => (X.1.step a).map fun W' => (W', X.2)
  | some (e, _) =>
    if e.room = z.room (z.fileLock X.2 X.1.file.slotsAlloced) then
      (X.1.step a).map fun W' => (W', z.fileLock X.2 X.1.file.slotsAlloced)
    else none

/-- No section takes more than `MIN_SLOTS_FREE` slots. -/
lemma program_allocs {m : M Unit} (h : W.program a = some m) :
    ∃ e cs, a.env = some (e, cs) ∧ Allocs e minSlotsFree m := by
  have hunit : ∀ {e : Env} {α : Type} {m : M α} (k : ℕ), Allocs e k m → k ≤ minSlotsFree →
      Allocs e minSlotsFree (do let _ ← m) := fun k hm hk => .behind (.mono hm hk) fun _ => .pure ()
  cases a with
  | iterate e cs =>
    rw [program] at h
    split at h <;> try cases h
    split at h <;> cases h
    exact ⟨e, cs, rfl, hunit 1 (allocs_parentIteration ..) (by decide)⟩
  | report e more =>
    rw [program] at h
    split at h <;> try cases h
    split at h <;> try cases h
    split at h <;> cases h
    exact ⟨e, [], rfl, hunit 0 (quiet_perlNext ..) (by decide)⟩
  | connect | wake | collect | init | put | accepted =>
    rw [program] at h
    split at h <;> try cases h
    split at h <;> cases h
    first
    | exact ⟨_, [], rfl, hunit 4 (allocs_frontendConnect _ _) (by decide)⟩
    | exact ⟨_, [], rfl, hunit 4 allocs_parentInit (by decide)⟩
    | exact ⟨_, [], rfl, hunit 0 (by grind [quiet_frontendWake]) (by decide)⟩
  | _ => cases h

lemma sect_file {α : Type} {m : M α} {k : α → World → World} (h : W.sect p m k = some W')
    (hk : ∀ r W, (k r W).file = W.file) :
    ∃ s, (do let _ ← m : M Unit) { file := W.file } = .ok ((), s) ∧ W'.file = s.file := by
  obtain ⟨r, s, hm, rfl⟩ := sect_some h
  refine ⟨s, eq_of_wp ?_, hk r _⟩
  rw [wp_bind]
  simp only [wp_pure]
  simp only [wp, hm]

/-- What a step does to the file, its section has done. -/
lemma step_program (h : W.step a = some W') : (a.env = none ∧ W'.file = W.file) ∨
    ∃ m s, a.env ≠ none ∧ W.program a = some m ∧ m { file := W.file } = .ok ((), s) ∧ W'.file = s.file := by
  cases a with
  | iterate e cs =>
    rw [step] at h
    split at h <;> try cases h
    split at h <;> try cases h
    rename_i hd
    obtain ⟨s, hm, hs⟩ := sect_file h fun _ _ => rfl
    rw [(collect_frame W cs).1] at hm
    exact .inr ⟨_, s, by simp [Act.env], by simp only [program, and_self, if_true, *], hm, hs⟩
  | report e more =>
    rw [step] at h
    split at h <;> try cases h
    split at h <;> try cases h
    split at h <;> try cases h
    obtain ⟨s, hm, hs⟩ := sect_file h fun _ _ => rfl
    exact .inr ⟨_, s, by simp [Act.env], by simp only [program, if_true, *], hm, hs⟩
  | connect | wake | collect | init | put | accepted =>
    rw [step] at h
    split at h <;> try cases h
    split at h <;> try cases h
    obtain ⟨s, hm, hs⟩ := sect_file h fun _ _ => by first | rfl | (dsimp only; split <;> rfl)
    exact .inr ⟨_, s, by simp [Act.env], by simp only [program, and_self, if_true, *], hm, hs⟩
  | _ =>
    refine .inl ⟨rfl, ?_⟩
    rw [step] at h
    repeat' split at h
    all_goals cases h
    all_goals rfl

/-- The size of the file and its slots fit in every state that is reached, and there are not too many
slots. -/
lemma fits_reach {z : Sizes} {X : World × ℕ} (h : Reach (stepSized z) (init, 0) X) :
    z.Fits X.2 X.1.file.slotsAlloced ∧ X.1.file.slotsAlloced < maxSlots := by
  refine h.inv (P := fun X => z.Fits X.2 X.1.file.slotsAlloced ∧ X.1.file.slotsAlloced < maxSlots)
    ⟨.inl ⟨rfl, rfl⟩, by decide⟩ fun X a X' _ hX _ hs => ?_
  obtain ⟨hfits, hmax⟩ := hX
  unfold stepSized at hs
  split at hs
  · rename_i ha
    obtain ⟨W', hstep, rfl⟩ := Option.map_eq_some_iff.mp hs
    obtain ⟨-, hfile⟩ | ⟨_, _, hne, _⟩ := step_program hstep
    · simp only [hfile]
      exact ⟨hfits, hmax⟩
    · exact absurd ha hne
  · rename_i e cs ha
    split at hs
    · rename_i hroom
      obtain ⟨W', hstep, rfl⟩ := Option.map_eq_some_iff.mp hs
      obtain ⟨hnone, -⟩ | ⟨m, s, -, hm, hrun, hfile⟩ := step_program hstep
      · rw [ha] at hnone
        cases hnone
      · obtain ⟨e', cs', ha', hallocs⟩ := program_allocs hm
        obtain ⟨rfl, rfl⟩ : e = e' ∧ cs = cs' := by
          rw [ha] at ha'
          simpa using ha'
        have hgrown := wp_ok (hallocs.grown { file := X.1.file }) hrun
        simp only [hfile]
        refine ⟨hfits.grown hroom hgrown, ?_⟩
        obtain ⟨-, -, heq | ⟨hlt, -⟩⟩ := hgrown
        · rw [heq]; exact hmax
        · exact hlt
    · cases hs

/-- `file_lock` makes room for `MIN_SLOTS_FREE` slots more, and no section takes more than that; so no
section finds the file too small, and slot numbers stay below `MAX_SLOTS`. -/
theorem slot_space (z : Sizes) {W : World} {size : ℕ} (h : Reach (stepSized z) (init, 0) (W, size)) :
    W.file.slotsAlloced < maxSlots ∧
    z.head + z.slot * (W.file.slotsAlloced + minSlotsFree) ≤ z.fileLock size W.file.slotsAlloced ∧
    ∀ a e cs m, a.env = some (e, cs) → e.room = z.room (z.fileLock size W.file.slotsAlloced) →
      W.program a = some m →
      Allocs e minSlotsFree m ∧ m { file := W.file } ≠ .error .fileTooSmall ∧
      ∀ s, m { file := W.file } = .ok ((), s) →
        s.file.slotsAlloced ≤ W.file.slotsAlloced + minSlotsFree ∧ s.file.slotsAlloced < maxSlots := by
  obtain ⟨hfits, hmax⟩ := fits_reach h
  refine ⟨hmax, hfits.fileLock, fun a e cs m ha hroom hm => ?_⟩
  obtain ⟨e', cs', ha', hallocs⟩ := program_allocs hm
  obtain ⟨rfl, rfl⟩ : e = e' ∧ cs = cs' := by
    rw [ha] at ha'
    simpa using ha'
  have hgrown := hallocs.grown { file := W.file }
  refine ⟨hallocs, fun herr => ?_, fun s hs => ?_⟩
  · have hlt : e.room < W.file.slotsAlloced + minSlotsFree := by simpa [wp, herr] using hgrown
    exact absurd (z.room_le hfits.fileLock) (by rw [← hroom]; exact not_le.mpr hlt)
  · obtain ⟨-, hle, heq | ⟨hlt, -⟩⟩ := wp_ok hgrown hs
    · exact ⟨hle, by rw [heq]; exact hmax⟩
    · exact ⟨hle, hlt⟩

/-- Sizes as they are for longs of 64 bits. -/
def longSizes : Sizes := ⟨44, 32, by decide, by decide⟩

/-- A frontend and its group have taken three slots, and the file has room for the next section. -/
theorem slot_space_queued : ∃ W, Reach (stepSized longSizes) (init, 0) (W, 512) ∧
    W.file.slotsAlloced = 3 ∧
    ∀ m, W.program (.wake { ({ self := 2 } : Plan).env with room := 14 } false) = some m →
      m { file := W.file } ≠ .error .fileTooSmall := by
  have hrun : (run (stepSized longSizes) (init, 0) [.arrive 2,
      .connect { ({ self := 2, spawn := .spawned 3 } : Plan).env with room := 14 } true]).map
        (fun X => (X.2, X.1.file.slotsAlloced)) = some (512, 3) := by decide +kernel
  obtain ⟨⟨W, size⟩, hW, hf⟩ := exists_reach _ _ hrun
  obtain ⟨rfl, hn⟩ := Prod.mk.inj hf
  have hroom : 14 = longSizes.room (longSizes.fileLock 512 W.file.slotsAlloced) := by
    simp only at hn
    rw [hn]
    decide
  exact ⟨W, hW, hn, fun m hm => ((slot_space longSizes hW).2.2 _ _ [] m rfl hroom hm).2.1⟩

end World

end SpeedyCgi.TempFile
