import SpeedyCgi.Cwd.Chdir
import SpeedyCgi.Lib.Wp
import SpeedyCgi.Lib.Lts
import Mathlib.Tactic.Simps.Basic

/-!
The directories that a backend remembers: `cwd_hash`, `scr_hash` and the reference counts.

A `SpeedyCwd` is entered under its device and inode and under its path. Each of the two entries may
be taken over by another structure, and a structure that is freed deletes both keys without looking
whose they are. So no entry ever refers to a structure that is gone: the keys of an entry are always
among the two of the structure it refers to.
-/

namespace SpeedyCgi.Cwd

open Function Lib.CString Lib.Wp Lib.Lts

/-- `NIB_TO_HEX` -/
def nibToHex (n : ℕ) : CChar := (str "0123456789abcdef").getD n (ch '0')

/-- `HEX_CVT`, with `cnt` digits left. -/
def hexCvt : ℕ → BitVec 64 → CStr
  | 0, _ => []
  | cnt + 1, i =>
    nibToHex (i &&& 15).toNat ::
      if i.sshiftRight 4 = 0 then [] else hexCvt cnt (i.sshiftRight 4)

/-- `devino_str` -/
def devinoStr (devino : DevIno) : CStr := hexCvt 16 devino.i ++ ch '_' :: hexCvt 16 devino.d

/-- A `SpeedyCwd *`. -/
abbrev CwdPtr := ℕ

structure SpeedyCwd where
  refcnt : ℤ
  path : Path
  devino : DevIno

/-- `SpeedyScript`, as far as directories go. -/
structure SpeedyScript where
  lastCwd : Option CwdPtr := none

/-- The memory of a backend. -/
structure Backend where
  proc : Proc
  /-- the structures that are allocated -/
  cwds : CwdPtr → Option SpeedyCwd
  /-- the next structure to be made -/
  next : CwdPtr
  /-- the structures freed so far -/
  freed : List CwdPtr
  cwdHash : CStr → Option CwdPtr
  scripts : List SpeedyScript
  scrHash : CStr → Option ℕ

inductive Crash where
  /-- a `NULL` pointer is followed -/
  | null
  /-- memory is used that was freed -/
  | freed
  deriving DecidableEq

abbrev BeM := StateT Backend (Except Crash)

def readCwd (c : CwdPtr) : BeM SpeedyCwd := do
  match (← get).cwds c with
  | some cwd => pure cwd
  | none => throw .freed

@[simps -fullyApplied] def Backend.setCwd (b : Backend) (c : CwdPtr) (cwd : SpeedyCwd) : Backend :=
  { b with cwds := update b.cwds c (some cwd) }

def writeCwd (c : CwdPtr) (cwd : SpeedyCwd) : BeM Unit := modify (·.setCwd c cwd)

@[simps -fullyApplied] def addScr (devino : DevIno) (b : Backend) : Backend :=
  { b with
    scripts := b.scripts ++ [{ lastCwd := none }]
    scrHash := update b.scrHash (devinoStr devino) (some b.scripts.length) }

/-- `find_scr` -/
def findScr (devino : DevIno) : BeM ℕ := do
  let b ← get
  match b.scrHash (devinoStr devino) with
  | some scr => pure scr
  | none => do
    modify (addScr devino)
    pure b.scripts.length

@[simps -fullyApplied] def Backend.setProc (b : Backend) (p : Proc) : Backend := { b with proc := p }

@[simps -fullyApplied] def freeCwd (c : CwdPtr) (cwd : SpeedyCwd) (b : Backend) : Backend :=
  { b with
    cwds := update b.cwds c none
    freed := c :: b.freed
    cwdHash := update (update b.cwdHash (devinoStr cwd.devino) none) cwd.path none }

/-- `cwd_refcnt_dec` -/
def cwdRefcntDec (c : CwdPtr) : BeM Unit := do
  let cwd ← readCwd c
  let cwd := { cwd with refcnt := cwd.refcnt - 1 }
  if cwd.refcnt = 0 then modify (freeCwd c cwd) else writeCwd c cwd

@[simps -fullyApplied] def addCwd (cwd : SpeedyCwd) (b : Backend) : Backend :=
  { b with
    cwds := update b.cwds b.next (some cwd)
    next := b.next + 1
    cwdHash := update (update b.cwdHash (devinoStr cwd.devino) (some b.next)) cwd.path (some b.next) }

/-- `cwd_new`; nobody calls it with `NULL`. -/
def cwdNew (sys : Sys) (path : Path) : BeM (Option CwdPtr) := do
  let b ← get
  let r := chdirPath sys path (some (sys.junk b.proc.clock)) b.proc
  modify (·.setProc r.2.2)
  if r.1 = true then do
    modify (addCwd { refcnt := 0, path := path, devino := r.2.1.getD 0 })
    pure (some b.next)
  else pure none

def scrLastCwd (b : Backend) (scr : ℕ) : Option CwdPtr := (b.scripts[scr]?).bind (·.lastCwd)

@[simps -fullyApplied] def Backend.setLastCwd (b : Backend) (scr : ℕ) (c : CwdPtr) : Backend :=
  { b with scripts := b.scripts.set scr { lastCwd := some c } }

/-- `store_last_cwd` -/
def storeLastCwd (scr : ℕ) (cwd : Option CwdPtr) : BeM Unit := do
  let prevPtr := scrLastCwd (← get) scr
  match cwd with
  | none => throw .null
  | some c => do
    let v ← readCwd c
    writeCwd c { v with refcnt := v.refcnt + 1 }
    modify (·.setLastCwd scr c)
    match prevPtr with
    | some prev => cwdRefcntDec prev
    | none => pure ()

/-- `fname_dir` -/
def fnameDir : Option Path → Option Path
  | none => none
  | some p =>
    -- the reversed path from its last slash on
    match p.reverse.dropWhile (· ≠ ch '/') with
    | [] => none
    | _ :: dir => some (if dir = [] then p.take 1 else dir.reverse)

/-- What the frontend says of its directory. -/
inductive CwdWhere where
  | inScript
  | devino (feCwd : DevIno)
  | unknown

structure Request where
  scrPath : Option Path
  feScr : DevIno
  cwdWhere : CwdWhere
  /-- what the frontend answers when it is asked for its path -/
  proto2 : Option Path

/-- `quick_cd`, in the backend. -/
def quickCdTo (sys : Sys) (dest : DevIno) : BeM Bool := do
  let b ← get
  modify (·.setProc (quickCd sys dest b.proc).2)
  pure (quickCd sys dest b.proc).1

/-- `chdir_path_sv` -/
def chdirPathSv (sys : Sys) (path : Path) : BeM Bool := do
  let b ← get
  modify (·.setProc (chdirPath sys path none b.proc).2.2)
  pure (chdirPath sys path none b.proc).1

/-- The path in `last_cwd`, if its device and inode are those of `feCwd`. -/
def tryLast (sys : Sys) (scr : ℕ) (feCwd : DevIno) : BeM Bool := do
  match scrLastCwd (← get) scr with
  | some c => do
    let cwd ← readCwd c
    if feCwd = cwd.devino then chdirPathSv sys cwd.path else pure false
  | none => pure false

/-- The path in `cwd_hash`. -/
def tryHash (sys : Sys) (feCwd : DevIno) : BeM (Bool × Option CwdPtr) := do
  match (← get).cwdHash (devinoStr feCwd) with
  | some c => do
    let cwd ← readCwd c
    let done ← chdirPathSv sys cwd.path
    pure (done, some c)
  | none => pure (false, none)

/-- How `onerun` looks for directory `feCwd` without asking: `done` and `cwd`. -/
def search (sys : Sys) (scr : ℕ) (feCwd : DevIno) : BeM (Bool × Option CwdPtr) := do
  if (← quickCdTo sys feCwd) = true then pure (true, none)
  else if (← tryLast sys scr feCwd) = true then pure (true, none)
  else tryHash sys feCwd

/-- How `onerun` goes to the directory that holds the script. -/
def cdScriptDir (sys : Sys) (dir : Path) : BeM (Option CwdPtr) := do
  match (← get).cwdHash dir with
  | some c => do
    let cwd ← readCwd c
    if (← quickCdTo sys cwd.devino) = true then pure (some c) else cwdNew sys dir
  | none => cwdNew sys dir

/-- If the search has failed, `onerun` asks the frontend for its path. -/
def askPath (sys : Sys) (proto2 : Option Path) (done : Bool) (cwd : Option CwdPtr) :
    BeM (Option CwdPtr) :=
  if done = true then pure cwd
  else match proto2 with
    | some dir => cwdNew sys dir
    | none => pure cwd

/-- If `onerun` has used a structure, it remembers that. -/
def storeUsed (scr : ℕ) : Option CwdPtr → BeM Unit
  | some c => storeLastCwd scr (some c)
  | none => pure ()

/-- What `onerun` does about the directory: `did_proto2`, as it is at the end of the search. -/
def onerunCwd (sys : Sys) (req : Request) : BeM Bool := do
  let scr ← findScr req.feScr
  match req.cwdWhere with
  | .inScript =>
    match fnameDir req.scrPath with
    | some dir => do
      let cwd ← cdScriptDir sys dir
      storeLastCwd scr cwd
      pure false
    | none => pure false
  | .devino feCwd => do
    let found ← search sys scr feCwd
    let cwd ← askPath sys req.proto2 found.1 found.2
    storeUsed scr cwd
    pure !found.1
  | .unknown => do
    let cwd ← askPath sys req.proto2 false none
    storeUsed scr cwd
    pure true

/-- A request, and what the script does to the process. -/
structure Turn where
  req : Request
  cwd : DevIno
  fds : Fd → Option DevIno
  clock : ℕ

def serve (sys : Sys) (b : Backend) (t : Turn) : Option Backend :=
  match onerunCwd sys t.req b with
  | .ok (_, b) =>
    some (b.setProc { b.proc with cwd := t.cwd, fds := t.fds, clock := b.proc.clock + t.clock })
  | .error _ => none

/-- A backend that has not served anybody. -/
def newBackend (cwd : DevIno) (fds : Fd → Option DevIno) : Backend where
  proc := { cwd := cwd, cwdFd := none, fds := fds, clock := 0 }
  cwds := fun _ => none
  next := 0
  freed := []
  cwdHash := fun _ => none
  scripts := []
  scrHash := fun _ => none

/-! ### Reference counts -/

/-- How many scripts remember the structure. -/
def Backend.refs (b : Backend) (c : CwdPtr) : ℕ := (b.scripts.map (·.lastCwd)).count (some c)

/-- What the structures and the hashes have to do with each other. -/
structure Wf (b : Backend) : Prop where
  next : ∀ c, b.next ≤ c → b.cwds c = none
  freed : ∀ c, c ∈ b.freed ↔ c < b.next ∧ b.cwds c = none
  nodup : b.freed.Nodup
  hash : ∀ k c, b.cwdHash k = some c →
    ∃ v, b.cwds c = some v ∧ (k = devinoStr v.devino ∨ k = v.path)
  scrs : ∀ k i, b.scrHash k = some i → i < b.scripts.length

/-- The counts are right, but for structure `counted`, which has one reference more than the scripts
hold; and `held` may be allocated although there is no reference. -/
structure Inv (counted held : Option CwdPtr) (b : Backend) : Prop extends Wf b where
  refcnt : ∀ c v, b.cwds c = some v → v.refcnt = b.refs c + if counted = some c then 1 else 0
  live : ∀ c, (∃ v, b.cwds c = some v) ↔ 0 < b.refs c ∨ counted = some c ∨ held = some c

section
variable {ok : Crash → Prop} {b : Backend} {c : CwdPtr} {scr : ℕ} {counted held : Option CwdPtr}
  {v v' : SpeedyCwd} {sys : Sys}

@[simp] lemma refs_setProc (b : Backend) (p : Proc) (c : CwdPtr) : (b.setProc p).refs c = b.refs c := rfl
@[simp] lemma refs_setCwd (b : Backend) (v : SpeedyCwd) (c c' : CwdPtr) :
    (b.setCwd c v).refs c' = b.refs c' := rfl
@[simp] lemma refs_freeCwd (b : Backend) (v : SpeedyCwd) (c c' : CwdPtr) :
    (freeCwd c v b).refs c' = b.refs c' := rfl
@[simp] lemma refs_addCwd (b : Backend) (v : SpeedyCwd) (c : CwdPtr) : (addCwd v b).refs c = b.refs c := rfl
@[simp] lemma refs_addScr (b : Backend) (d : DevIno) (c : CwdPtr) : (addScr d b).refs c = b.refs c := by
  simp [Backend.refs, addScr]

lemma refs_setCwd_setLastCwd (b : Backend) (v : SpeedyCwd) (c c' c'' : CwdPtr) (scr : ℕ) :
    ((b.setCwd c v).setLastCwd scr c').refs c'' = (b.setLastCwd scr c').refs c'' := rfl

/-- A script that remembers another structure gives up one reference and takes one. -/
lemma refs_setLastCwd (hscr : scr < b.scripts.length) (c c' : CwdPtr) :
    (b.setLastCwd scr c).refs c' + (if scrLastCwd b scr = some c' then 1 else 0) =
      b.refs c' + if c = c' then 1 else 0 := by
  have hlen : scr < (b.scripts.map (·.lastCwd)).length := by simpa using hscr
  have hset : (b.scripts.set scr { lastCwd := some c }).map (·.lastCwd) =
      (b.scripts.map (·.lastCwd)).set scr (some c) := by simp [List.map_set]
  have hlast : scrLastCwd b scr = (b.scripts.map (·.lastCwd))[scr] := by
    simp [scrLastCwd, List.getElem?_eq_getElem hscr]
  unfold Backend.refs Backend.setLastCwd
  rw [hset, List.count_set hlen, ← hlast]
  simp only [beq_iff_eq, Option.some.injEq]
  have hpos : scrLastCwd b scr = some c' → 0 < (b.scripts.map (·.lastCwd)).count (some c') := by
    intro h
    exact List.count_pos_iff.mpr (by rw [← h, hlast]; exact List.getElem_mem hlen)
  split
  · have := hpos ‹_›
    omega
  · omega

lemma Inv.setProc (h : Inv counted held b) (p : Proc) : Inv counted held (b.setProc p) :=
  ⟨⟨h.next, h.freed, h.nodup, h.hash, h.scrs⟩, h.refcnt, h.live⟩

lemma Inv.addScr (h : Inv counted held b) (d : DevIno) : Inv counted held (addScr d b) := by
  refine ⟨⟨h.next, h.freed, h.nodup, h.hash, fun k i hk => ?_⟩, fun c v hc => ?_, fun c => ?_⟩
  · simp only [addScr_scrHash, addScr_scripts, update_apply, List.length_append, List.length_singleton] at hk ⊢
    split at hk
    · obtain rfl : b.scripts.length = i := by simpa using hk
      omega
    · exact Nat.lt_succ_of_lt (h.scrs k i hk)
  · rw [refs_addScr]; exact h.refcnt c v hc
  · rw [refs_addScr]; exact h.live c

lemma Wf.ptr_lt (h : Wf b) (hc : b.cwds c = some v) : c < b.next := by
  by_contra hn
  rw [h.next c (not_lt.mp hn)] at hc
  cases hc

/-- A structure that is allocated may as well be held. -/
lemma Inv.hold (h : Inv none none b) (hc : b.cwds c = some v) : Inv none (some c) b := by
  refine ⟨h.toWf, h.refcnt, fun c' => ?_⟩
  have hc' := h.live c'
  rcases eq_or_ne c c' with rfl | hne
  · simp [hc]
  · simpa [hne] using hc'

lemma Wf.setCwd (h : Wf b) (hc : b.cwds c = some v) (hd : v'.devino = v.devino)
    (hp : v'.path = v.path) : Wf (b.setCwd c v') := by
  refine ⟨fun c' hc' => ?_, fun c' => ?_, h.nodup, fun k c' hk => ?_, h.scrs⟩
  · have hne : c' ≠ c := ((h.ptr_lt hc).trans_le hc').ne'
    simpa [hne] using h.next c' hc'
  · rcases eq_or_ne c' c with rfl | hne
    · simpa [hc] using h.freed c'
    · simpa [hne] using h.freed c'
  · obtain ⟨w, hw, hkw⟩ := h.hash k c' hk
    rcases eq_or_ne c' c with rfl | hne
    · obtain rfl : v = w := by rw [hc] at hw; simpa using hw
      exact ⟨v', by simp, by rwa [hd, hp]⟩
    · exact ⟨w, by simpa [hne] using hw, hkw⟩

/-- A structure that is freed takes all its entries along. -/
lemma Inv.freeCwd (h : Inv (some c) none b) (hc : b.cwds c = some v)
    (hd : v'.devino = v.devino) (hp : v'.path = v.path) (h0 : b.refs c = 0) :
    Inv none none (freeCwd c v' b) := by
  refine ⟨⟨fun c' hc' => ?_, fun c' => ?_, ?_, fun k c' hk => ?_, h.scrs⟩, fun c' w hw => ?_, fun c' => ?_⟩
  · rcases eq_or_ne c' c with rfl | hne
    · simp
    · simpa [hne] using h.next c' hc'
  · rcases eq_or_ne c' c with rfl | hne
    · simp [h.ptr_lt hc]
    · simpa [hne] using h.freed c'
  · refine List.nodup_cons.mpr ⟨fun hm => ?_, h.nodup⟩
    rw [((h.freed c).mp hm).2] at hc
    cases hc
  · simp only [freeCwd_cwdHash, freeCwd_cwds, update_apply, hd, hp] at hk ⊢
    split at hk
    · cases hk
    split at hk
    · cases hk
    rename_i hkp hkd
    obtain ⟨w, hw, hkw⟩ := h.hash k c' hk
    rcases eq_or_ne c' c with rfl | hne
    · -- the keys of `c` are among the two that are deleted
      obtain rfl : v = w := by rw [hc] at hw; simpa using hw
      rcases hkw with hkw | hkw
      · exact absurd hkw hkd
      · exact absurd hkw hkp
    · exact ⟨w, by simpa [hne] using hw, hkw⟩
  · have hne : c' ≠ c := by rintro rfl; simp at hw
    have := h.refcnt c' w (by simpa [hne] using hw)
    simpa [hne.symm] using this
  · rcases eq_or_ne c' c with rfl | hne
    · simp [h0]
    · simpa [hne, hne.symm] using h.live c'

/-- A new structure takes over the entries of its two keys. -/
lemma Inv.addCwd (h : Inv none none b) (h0 : v.refcnt = 0) : Inv none (some b.next) (addCwd v b) := by
  have href : b.refs b.next = 0 := by
    by_contra hr
    obtain ⟨w, hw⟩ := (h.live b.next).mpr (.inl (by omega))
    exact absurd (h.ptr_lt hw) (lt_irrefl _)
  refine ⟨⟨fun c hc => ?_, fun c => ?_, h.nodup, fun k c hk => ?_, h.scrs⟩, fun c w hw => ?_, fun c => ?_⟩
  · have hc' : b.next + 1 ≤ c := hc
    have hne : c ≠ b.next := Nat.ne_of_gt hc'
    simpa [hne] using h.next c (Nat.le_of_succ_le hc')
  · rcases eq_or_ne c b.next with rfl | hne
    · simp [h.freed]
    · have hlt : c < b.next + 1 ↔ c < b.next :=
        ⟨fun h => lt_of_le_of_ne (Nat.lt_succ_iff.mp h) hne, Nat.lt_succ_of_lt⟩
      simp [hne, h.freed, hlt]
  · simp only [addCwd_cwdHash, addCwd_cwds, update_apply] at hk ⊢
    split at hk
    · obtain rfl : b.next = c := by simpa using hk
      exact ⟨v, by simp, .inr ‹_›⟩
    split at hk
    · obtain rfl : b.next = c := by simpa using hk
      exact ⟨v, by simp, .inl ‹_›⟩
    obtain ⟨w, hw, hkw⟩ := h.hash k c hk
    have hne : c ≠ b.next := (h.ptr_lt hw).ne
    exact ⟨w, by simpa [hne] using hw, hkw⟩
  · rcases eq_or_ne c b.next with rfl | hne
    · obtain rfl : v = w := by simpa using hw
      simp [href, h0]
    · simpa using h.refcnt c w (by simpa [hne] using hw)
  · rcases eq_or_ne c b.next with rfl | hne
    · simp
    · simpa [hne, hne.symm] using h.live c

/-! ### What the functions do -/

lemma wp_readCwd {Q : SpeedyCwd → Backend → Prop} (hc : b.cwds c = some v) (hQ : Q v b) :
    wp ok (readCwd c) Q b := by
  unfold readCwd
  simp only [wp_bind, wp_get, hc, wp_pure]
  exact hQ

lemma wp_findScr (h : Inv counted held b) (d : DevIno) :
    wp ok (findScr d) (fun scr b' => (Inv counted held b' ∧ scr < b'.scripts.length) ∧
      b'.scrHash (devinoStr d) = some scr ∧
      (b' = b ∨ b.scrHash (devinoStr d) = none ∧ b' = addScr d b)) b := by
  unfold findScr
  simp only [wp_bind, wp_get]
  cases hd : b.scrHash (devinoStr d) with
  | some scr => exact ⟨⟨h, h.scrs _ _ hd⟩, hd, .inl rfl⟩
  | none => exact ⟨⟨h.addScr d, by simp⟩, by simp, .inr ⟨rfl, rfl⟩⟩

lemma wp_cwdRefcntDec (h : Inv (some c) none b) :
    wp ok (cwdRefcntDec c) (fun _ b' => Inv none none b' ∧ b'.proc = b.proc) b := by
  obtain ⟨v, hv⟩ := (h.live c).mpr (.inr (.inl rfl))
  have hrefcnt := h.refcnt c v hv
  rw [if_pos rfl] at hrefcnt
  unfold cwdRefcntDec
  rw [wp_bind]
  refine wp_readCwd hv ?_
  rw [wp_ite]
  split
  · rename_i h0
    exact ⟨h.freeCwd hv rfl rfl (by simp only at h0; omega), rfl⟩
  · rename_i h0
    refine ⟨⟨h.setCwd hv rfl rfl, fun c' w hw => ?_, fun c' => ?_⟩, rfl⟩
    · rcases eq_or_ne c' c with rfl | hne
      · obtain rfl : _ = w := by simpa using hw
        simp [hrefcnt]
      · simpa [hne.symm] using h.refcnt c' w (by simpa [hne] using hw)
    · rcases eq_or_ne c' c with rfl | hne
      · have : 0 < b.refs c' := by simp only at h0; omega
        simp [this]
      · simpa [hne, hne.symm] using h.live c'

/-- The structure held gets its reference, and the one remembered before has one too many. -/
lemma Inv.setLastCwd (h : Inv none (some c) b) (hscr : scr < b.scripts.length) (hv : b.cwds c = some v) :
    Inv (scrLastCwd b scr) none ((b.setCwd c { v with refcnt := v.refcnt + 1 }).setLastCwd scr c) := by
  have hwf : Wf (b.setCwd c { v with refcnt := v.refcnt + 1 }) := h.setCwd hv rfl rfl
  refine ⟨⟨hwf.next, hwf.freed, hwf.nodup, hwf.hash, fun k i hk => ?_⟩, fun c' w hw => ?_, fun c' => ?_⟩
  · simpa using hwf.scrs k i hk
  · have hsum := refs_setLastCwd hscr c c'
    rw [refs_setCwd_setLastCwd]
    rcases eq_or_ne c c' with rfl | hne
    · obtain rfl : _ = w := by simpa using hw
      have hr := h.refcnt c v hv
      rw [if_neg (by simp)] at hr
      rw [if_pos rfl] at hsum
      simp only [hr]
      split_ifs at hsum ⊢ <;> omega
    · have hr := h.refcnt c' w (by simpa [hne.symm] using hw)
      rw [if_neg (by simp)] at hr
      rw [if_neg hne] at hsum
      rw [hr]
      split_ifs at hsum ⊢ <;> omega
  · have hsum := refs_setLastCwd hscr c c'
    have hlive : (∃ w, ((b.setCwd c { v with refcnt := v.refcnt + 1 }).setLastCwd scr c).cwds c' =
        some w) ↔ 0 < b.refs c' ∨ c = c' := by
      rcases eq_or_ne c c' with rfl | hne
      · simp
      · simpa [hne, hne.symm] using h.live c'
    have hsplit : 0 < b.refs c' ∨ c = c' ↔ 0 < b.refs c' + if c = c' then 1 else 0 := by
      split_ifs <;> simp [*]
    rw [hlive, refs_setCwd_setLastCwd, hsplit, ← hsum]
    split_ifs <;> simp [*]

lemma wp_storeLastCwd (h : Inv none (some c) b) (hscr : scr < b.scripts.length) :
    wp ok (storeLastCwd scr (some c)) (fun _ b' => Inv none none b' ∧ b'.proc = b.proc) b := by
  obtain ⟨v, hv⟩ := (h.live c).mpr (.inr (.inr rfl))
  have hmid := h.setLastCwd hscr hv
  unfold storeLastCwd
  simp only [wp_bind, wp_get]
  refine wp_readCwd hv ?_
  unfold writeCwd
  simp only [wp_modify]
  cases hp : scrLastCwd b scr with
  | none => exact ⟨hp ▸ hmid, rfl⟩
  | some prev =>
    rw [hp] at hmid
    exact wp_mono (wp_cwdRefcntDec hmid) fun _ b' hb' => ⟨hb'.1, hb'.2⟩

/-- `cwd_new` goes where `chdir_path` goes, and remembers what it says. -/
lemma wp_cwdNew (h : Inv none none b) (path : Path) :
    wp ok (cwdNew sys path) (fun r b' => Inv none r b' ∧ b'.scripts = b.scripts ∧
      b'.proc = (chdirPath sys path (some (sys.junk b.proc.clock)) b.proc).2.2) b := by
  unfold cwdNew
  simp only [wp_bind, wp_get, wp_modify, wp_ite, wp_pure]
  have hproc := h.setProc (chdirPath sys path (some (sys.junk b.proc.clock)) b.proc).2.2
  split
  · exact ⟨hproc.addCwd rfl, rfl, rfl⟩
  · exact ⟨hproc, rfl, rfl⟩

lemma cwdNew_eq (sys : Sys) (path : Path) (b : Backend) {r : Bool × Option DevIno × Proc}
    (hr : chdirPath sys path (some (sys.junk b.proc.clock)) b.proc = r) :
    cwdNew sys path b = .ok (if r.1 = true then
      (some b.next, addCwd { refcnt := 0, path := path, devino := r.2.1.getD 0 } (b.setProc r.2.2))
      else (none, b.setProc r.2.2)) := by
  subst hr
  refine eq_of_wp ?_
  unfold cwdNew
  simp only [wp_bind, wp_get, wp_modify, wp_ite, wp_pure]
  split <;> rfl

/-- What `cwd_new` has stored is right exactly if `stat` is not needed for it. -/
lemma cwdNew_tells_iff (sys : Sys) (b : Backend) {path : Path} (hpath : path ≠ []) :
    (∀ c b', cwdNew sys path b = .ok (some c, b') →
      ∃ v, b'.cwds c = some v ∧ Tells sys b.proc.clock v.devino b'.proc.cwd) ↔
    ∀ dir, target sys path b.proc = some dir → fstatTells sys b.proc.clock = true ∨
      sys.statDot b.proc.clock = false ∨ sys.junk b.proc.clock = dir := by
  rw [← chdirPath_tells_iff sys hpath, cwdNew_eq sys path b rfl]
  obtain ⟨-, hsome, -⟩ := chdirPath_spec sys hpath (some (sys.junk b.proc.clock)) b.proc
  constructor
  · intro h hdone
    rw [if_pos hdone] at h
    obtain ⟨v, hv, htells⟩ := h _ _ rfl
    obtain rfl : _ = v := by simpa using hv
    refine ⟨_, hsome, ?_⟩
    rw [hsome] at htells
    exact htells
  · intro h c b' hrun
    split at hrun
    · obtain ⟨d, hd, htells⟩ := h ‹_›
      obtain ⟨rfl, rfl⟩ : b.next = c ∧ _ = b' := by simpa using hrun
      exact ⟨{ refcnt := 0, path := path, devino := d }, by simp [hd], htells⟩
    · simp at hrun

/-- Where `chdir_path` has ended, what `quick_cd` has reached and what `cwd_new` has stored are told
right exactly if `fstat` can tell, or nothing can, or the directory is the one told before. -/
theorem directory_told_iff (sys : Sys) (b : Backend) :
    (∀ path old, path ≠ [] → (((chdirPath sys path (some old) b.proc).1 = true →
      ∃ d, (chdirPath sys path (some old) b.proc).2.1 = some d ∧
        Tells sys b.proc.clock d (chdirPath sys path (some old) b.proc).2.2.cwd) ↔
      ∀ dir, target sys path b.proc = some dir → fstatTells sys b.proc.clock = true ∨
        sys.statDot b.proc.clock = false ∨ old = dir)) ∧
    (∀ dest, dest ≠ 0 →
      (((quickCd sys dest b.proc).1 = true → (quickCd sys dest b.proc).2.cwd = dest) ↔
      leadsTo sys dest b.proc ∨ b.proc.cwd = dest ∨ fstatTells sys (b.proc.clock + 1) = true ∨
        sys.statDot (b.proc.clock + 1) = false ∨ leftover sys b.proc ≠ dest)) ∧
    ∀ path, path ≠ [] → ((∀ c b', cwdNew sys path b = .ok (some c, b') →
      ∃ v, b'.cwds c = some v ∧ Tells sys b.proc.clock v.devino b'.proc.cwd) ↔
      ∀ dir, target sys path b.proc = some dir → fstatTells sys b.proc.clock = true ∨
        sys.statDot b.proc.clock = false ∨ sys.junk b.proc.clock = dir) :=
  ⟨fun _ old hpath => chdirPath_tells_iff sys hpath old _,
    fun _ hdest => quickCd_right_iff sys hdest _, fun _ hpath => cwdNew_tells_iff sys b hpath⟩

/-- Directories that cannot be opened, and a descriptor that `fchdir` does not accept. -/
def unreadable : Sys where
  chdir _ _ := some ⟨2, 1⟩
  openDot _ := false
  fstat _ := true
  statDot _ := true
  fchdir _ := false
  junk _ := 0

/-- In directory 2, with a descriptor that is open on directory 3. -/
def elsewhere : Proc where
  cwd := ⟨2, 1⟩
  cwdFd := some prefFdCwd
  fds := fun _ => some ⟨3, 1⟩
  clock := 0

/-- An unreadable directory is taken for the one before. -/
theorem not_directory_told :
    ¬ (∀ (sys : Sys) (path : Path) (old : DevIno) (p : Proc), path ≠ [] →
      (chdirPath sys path (some old) p).1 = true → ∃ d, (chdirPath sys path (some old) p).2.1 = some d ∧
        Tells sys p.clock d (chdirPath sys path (some old) p).2.2.cwd) ∧
    ¬ (∀ (sys : Sys) (dest : DevIno) (p : Proc), dest ≠ 0 →
      (quickCd sys dest p).1 = true → (quickCd sys dest p).2.cwd = dest) := by
  constructor
  · intro h
    have := (chdirPath_tells_iff unreadable (show str "/a" ≠ [] by decide) ⟨3, 1⟩ elsewhere).mp
      (h _ _ _ _ (by decide))
    exact absurd (this ⟨2, 1⟩ (by decide)) (by decide)
  · intro h
    exact absurd (h unreadable ⟨3, 1⟩ elsewhere (by decide) (by decide)) (by decide)

/-- A directory that can be opened is told. -/
theorem directory_told_readable :
    ∃ d, (chdirPath { unreadable with openDot := fun _ => true } (str "/a") (some ⟨3, 1⟩)
      elsewhere).2.1 = some d ∧ Tells { unreadable with openDot := fun _ => true } 0 d ⟨2, 1⟩ :=
  ((directory_told_iff { unreadable with openDot := fun _ => true }
    ((newBackend 0 fun _ => none).setProc elsewhere)).1 (str "/a") ⟨3, 1⟩ (by decide)).mpr (fun _ _ => .inl rfl) (by decide)

lemma wp_quickCdTo (dest : DevIno) :
    wp ok (quickCdTo sys dest) (fun r b' => r = (quickCd sys dest b.proc).1 ∧
      b' = b.setProc (quickCd sys dest b.proc).2) b := by
  unfold quickCdTo
  simp only [wp_bind, wp_get, wp_modify, wp_pure, and_self]

lemma wp_chdirPathSv (path : Path) :
    wp ok (chdirPathSv sys path) (fun r b' => r = (chdirPath sys path none b.proc).1 ∧
      b' = b.setProc (chdirPath sys path none b.proc).2.2) b := by
  unfold chdirPathSv
  simp only [wp_bind, wp_get, wp_modify, wp_pure, and_self]

lemma wp_cdScriptDir (h : Inv none none b) (dir : Path) :
    wp ok (cdScriptDir sys dir) (fun r b' => Inv none r b' ∧ b'.scripts = b.scripts) b := by
  unfold cdScriptDir
  simp only [wp_bind, wp_get]
  cases hd : b.cwdHash dir with
  | none => exact wp_mono (wp_cwdNew h dir) fun _ _ h' => ⟨h'.1, h'.2.1⟩
  | some c =>
    obtain ⟨v, hv, -⟩ := h.hash dir c hd
    simp only [wp_bind]
    refine wp_readCwd hv (wp_mono (wp_quickCdTo v.devino) ?_)
    rintro r b' ⟨-, rfl⟩
    rw [wp_ite]
    split
    · exact ⟨(h.hold hv).setProc _, rfl⟩
    · exact wp_mono (wp_cwdNew (h.setProc _) dir) fun _ _ h' => ⟨h'.1, h'.2.1⟩

end

end SpeedyCgi.Cwd
