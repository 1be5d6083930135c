import SpeedyCgi.Cwd.Cache

/-!
What one request does to the directories of a backend, and what any number of them do.

Without asking the frontend, `onerun` tries `quick_cd` and then the paths it has saved for the device
and inode it was given: first the one this script was in before, then the one in the hash.
-/

namespace SpeedyCgi.Cwd

open Function Lib.CString Lib.Wp Lib.Lts

/-- The path in `last_cwd`, if it was directory `feCwd`. -/
def lastPath (b : Backend) (lastCwd : Option CwdPtr) (feCwd : DevIno) : Option Path :=
  lastCwd.bind fun c => (b.cwds c).bind fun cwd =>
    if feCwd = cwd.devino then some cwd.path else none

/-- The path in `cwd_hash`. -/
def hashPath (b : Backend) (feCwd : DevIno) : Option Path :=
  (b.cwdHash (devinoStr feCwd)).bind fun c => (b.cwds c).map (·.path)

/-- The saved paths that `onerun` tries for directory `feCwd`. -/
def savedPaths (b : Backend) (lastCwd : Option CwdPtr) (feCwd : DevIno) : List Path :=
  (lastPath b lastCwd feCwd).toList ++ (hashPath b feCwd).toList

/-- To the first path of a list that can be gone to. -/
def goFirst (sys : Sys) : List Path → Proc → Bool × Proc
  | [], p => (false, p)
  | path :: paths, p =>
    let r := chdirPath sys path none p
    if r.1 = true then (true, r.2.2) else goFirst sys paths r.2.2

/-- The directory that the first path leads to that leads anywhere. -/
def firstDir (sys : Sys) : List Path → Proc → Option DevIno
  | [], _ => none
  | path :: paths, p =>
    if path = [] then some p.cwd
    else match target sys path p with
      | some dir => some dir
      | none => firstDir sys paths (tick p)

lemma target_congr {sys : Sys} {path : Path} {p q : Proc} (hcwd : p.cwd = q.cwd)
    (hclock : p.clock = q.clock) : target sys path p = target sys path q := by
  unfold target
  rw [hcwd, hclock]

lemma firstDir_congr {sys : Sys} {paths : List Path} {p q : Proc} (hcwd : p.cwd = q.cwd)
    (hclock : p.clock = q.clock) : firstDir sys paths p = firstDir sys paths q := by
  induction paths generalizing p q with
  | nil => rfl
  | cons path paths ih =>
    unfold firstDir
    have hnext := @ih (tick p) (tick q) hcwd (by simp [tick, hclock])
    rw [target_congr hcwd hclock, hcwd, hnext]

lemma goFirst_spec (sys : Sys) (paths : List Path) (p : Proc) :
    (goFirst sys paths p).1 = (firstDir sys paths p).isSome ∧
    (goFirst sys paths p).2.cwd = (firstDir sys paths p).getD p.cwd := by
  induction paths generalizing p with
  | nil => exact ⟨rfl, rfl⟩
  | cons path paths ih =>
    unfold goFirst firstDir
    by_cases hpath : path = []
    · simp [hpath, chdirPath]
    · obtain ⟨h1, -, h3, h4⟩ := chdirPath_spec sys hpath none p
      simp only [if_neg hpath, h1]
      cases htarget : target sys path p with
      | some dir => simpa [htarget] using h3
      | none =>
        rw [htarget] at h3
        have hnext : firstDir sys paths (chdirPath sys path none p).2.2 = firstDir sys paths (tick p) :=
          firstDir_congr h3 h4
        simpa [hnext, h3] using ih (chdirPath sys path none p).2.2

lemma goFirst_append (sys : Sys) (l l' : List Path) (p : Proc) :
    goFirst sys (l ++ l') p =
      if (goFirst sys l p).1 = true then goFirst sys l p else goFirst sys l' (goFirst sys l p).2 := by
  induction l generalizing p with
  | nil => rfl
  | cons path l ih =>
    rw [List.cons_append, goFirst, goFirst]
    by_cases h : (chdirPath sys path none p).1 = true
    · simp [h]
    · simp only [h]
      exact ih _

lemma goFirst_singleton (sys : Sys) (path : Path) (p : Proc) :
    goFirst sys [path] p = ((chdirPath sys path none p).1, (chdirPath sys path none p).2.2) := by
  simp only [goFirst]
  split <;> simp [*]

section
variable {ok : Crash → Prop} {b b' : Backend} {scr : ℕ} {sys : Sys} {req : Request}

lemma wp_tryLast (h : Inv none none b) (feCwd : DevIno) :
    wp ok (tryLast sys scr feCwd) (fun r b' =>
      r = (goFirst sys (lastPath b (scrLastCwd b scr) feCwd).toList b.proc).1 ∧
      b' = b.setProc (goFirst sys (lastPath b (scrLastCwd b scr) feCwd).toList b.proc).2) b := by
  unfold tryLast lastPath
  simp only [wp_bind, wp_get]
  cases hs : scrLastCwd b scr with
  | none => exact ⟨rfl, rfl⟩
  | some c =>
    have href : 0 < b.refs c := by
      obtain ⟨s, hs, hc⟩ := Option.bind_eq_some_iff.mp hs
      exact List.count_pos_iff.mpr (List.mem_map.mpr ⟨s, List.mem_of_getElem? hs, hc⟩)
    obtain ⟨v, hv⟩ := (h.live c).mpr (.inl href)
    simp only [wp_bind, Option.bind_some, hv]
    refine wp_readCwd hv ?_
    rw [wp_ite]
    split
    · refine wp_mono (wp_chdirPathSv v.path) ?_
      rintro r b' ⟨rfl, rfl⟩
      simp [goFirst_singleton]
    · exact ⟨rfl, rfl⟩

lemma wp_tryHash (h : Inv none none b) (feCwd : DevIno) :
    wp ok (tryHash sys feCwd) (fun r b' => (∀ c ∈ r.2, ∃ v, b.cwds c = some v) ∧
      r.1 = (goFirst sys (hashPath b feCwd).toList b.proc).1 ∧
      b' = b.setProc (goFirst sys (hashPath b feCwd).toList b.proc).2) b := by
  unfold tryHash hashPath
  simp only [wp_bind, wp_get]
  cases hc : b.cwdHash (devinoStr feCwd) with
  | none => exact ⟨by simp, rfl, rfl⟩
  | some c =>
    obtain ⟨v, hv, -⟩ := h.hash _ c hc
    simp only [wp_bind, Option.bind_some, hv]
    refine wp_readCwd hv (wp_mono (wp_chdirPathSv v.path) ?_)
    rintro r b' ⟨rfl, rfl⟩
    exact ⟨by simp [hv], by simp [goFirst_singleton]⟩

/-- Where the search for directory `feCwd` ends, and whether it has found it. -/
def found (sys : Sys) (b : Backend) (lastCwd : Option CwdPtr) (feCwd : DevIno) : Bool × Proc :=
  if (quickCd sys feCwd b.proc).1 = true then quickCd sys feCwd b.proc
  else goFirst sys (savedPaths b lastCwd feCwd) (quickCd sys feCwd b.proc).2

/-- What `onerun` does without asking. -/
lemma wp_search (h : Inv none none b) (feCwd : DevIno) :
    wp ok (search sys scr feCwd) (fun r b' => (∀ c ∈ r.2, ∃ v, b.cwds c = some v) ∧
      r.1 = (found sys b (scrLastCwd b scr) feCwd).1 ∧
      b' = b.setProc (found sys b (scrLastCwd b scr) feCwd).2) b := by
  unfold search found
  rw [wp_bind]
  refine wp_mono (wp_quickCdTo feCwd) ?_
  rintro r b₁ ⟨rfl, rfl⟩
  rw [wp_ite]
  split
  · exact ⟨by simp, by simp [*]⟩
  have hq := h.setProc (quickCd sys feCwd b.proc).2
  rw [wp_bind]
  refine wp_mono (wp_tryLast hq feCwd) ?_
  rintro r b₁ ⟨rfl, rfl⟩
  rw [wp_ite, savedPaths, goFirst_append]
  split
  · rename_i hlast
    have hlast : (goFirst sys (lastPath b (scrLastCwd b scr) feCwd).toList (quickCd sys feCwd b.proc).2).1
      = true := hlast
    rw [if_pos hlast]
    exact ⟨by simp, hlast.symm, rfl⟩
  · rename_i hlast
    have hlast : ¬ (goFirst sys (lastPath b (scrLastCwd b scr) feCwd).toList
      (quickCd sys feCwd b.proc).2).1 = true := hlast
    rw [if_neg hlast]
    exact wp_tryHash (hq.setProc _) feCwd

lemma savedPaths_findScr {d feCwd : DevIno} (hscr : b'.scrHash (devinoStr d) = some scr)
    (hb : b' = b ∨ b.scrHash (devinoStr d) = none ∧ b' = addScr d b) :
    savedPaths b' (scrLastCwd b' scr) feCwd =
      savedPaths b ((b.scrHash (devinoStr d)).bind (scrLastCwd b)) feCwd := by
  rcases hb with rfl | ⟨hnone, rfl⟩
  · rw [hscr, Option.bind_some]
  · obtain rfl : b.scripts.length = scr := by simpa using hscr
    simp [savedPaths, hnone, scrLastCwd, lastPath, hashPath]

lemma wp_askPath {cwd : Option CwdPtr} {done : Bool} {proto2 : Option Path} (h : Inv none none b)
    (hcwd : ∀ c ∈ cwd, ∃ v, b.cwds c = some v) :
    wp ok (askPath sys proto2 done cwd) (fun cwd b' => Inv none cwd b' ∧ b'.scripts = b.scripts ∧
      (done = true → b'.proc = b.proc)) b := by
  have hcwd : Inv none cwd b := by
    cases cwd with
    | none => exact h
    | some c =>
      obtain ⟨v, hv⟩ := hcwd c rfl
      exact h.hold hv
  unfold askPath
  rw [wp_ite]
  split
  · exact ⟨hcwd, rfl, fun _ => rfl⟩
  · cases proto2 with
    | none => exact ⟨hcwd, rfl, fun _ => rfl⟩
    | some dir => exact wp_mono (wp_cwdNew h dir) fun _ _ h' => ⟨h'.1, h'.2.1, fun hd => absurd hd ‹_›⟩

lemma wp_storeUsed {cwd : Option CwdPtr} (h : Inv none cwd b) (hscr : scr < b.scripts.length) :
    wp ok (storeUsed scr cwd) (fun _ b' => Inv none none b' ∧ b'.proc = b.proc) b := by
  cases cwd with
  | none => exact ⟨h, rfl⟩
  | some c => exact wp_storeLastCwd h hscr

/-- What `onerun` does about a directory that is given by its device and inode. -/
lemma wp_onerunCwd_devino (sys : Sys) (h : Inv none none b) {feCwd : DevIno} (hreq : req.cwdWhere = .devino feCwd) :
    wp ok (onerunCwd sys req) (fun asked b' => Inv none none b' ∧
      asked = !(found sys b ((b.scrHash (devinoStr req.feScr)).bind (scrLastCwd b)) feCwd).1 ∧
      (asked = false →
        b'.proc = (found sys b ((b.scrHash (devinoStr req.feScr)).bind (scrLastCwd b)) feCwd).2)) b := by
  unfold onerunCwd
  rw [wp_bind]
  refine wp_mono (wp_findScr h req.feScr) ?_
  rintro scr b₁ ⟨⟨h₁, hscr⟩, hhash, hb₁⟩
  have hfound : found sys b₁ (scrLastCwd b₁ scr) feCwd =
      found sys b ((b.scrHash (devinoStr req.feScr)).bind (scrLastCwd b)) feCwd := by
    have hproc : b₁.proc = b.proc := by rcases hb₁ with rfl | ⟨-, rfl⟩ <;> rfl
    unfold found
    rw [hproc, savedPaths_findScr hhash hb₁]
  simp only [hreq, wp_bind]
  refine wp_mono (wp_search h₁ feCwd) ?_
  rintro r b₂ ⟨hcwd, hdone, rfl⟩
  refine wp_mono (wp_askPath (h₁.setProc _) hcwd) ?_
  rintro cwd b₃ ⟨h₃, hscripts, hproc⟩
  refine wp_mono (wp_storeUsed h₃ (by rw [hscripts]; exact hscr)) ?_
  rintro _ b₄ ⟨h₄, hproc₄⟩
  rw [hfound] at hdone hproc
  refine ⟨h₄, by rw [hdone], fun hasked => ?_⟩
  rw [hproc₄, hproc (by simpa using hasked)]
  rfl

/-- Every request keeps the counts right, and follows no pointer to a structure that is gone. -/
lemma wp_onerunCwd (sys : Sys) (req : Request) (h : Inv none none b) :
    wp (fun e => e = .null ∧ req.cwdWhere = .inScript) (onerunCwd sys req)
      (fun _ b' => Inv none none b') b := by
  cases hreq : req.cwdWhere with
  | devino feCwd => exact wp_mono (wp_onerunCwd_devino sys h hreq) fun _ _ h' => h'.1
  | inScript =>
    unfold onerunCwd
    rw [wp_bind]
    refine wp_mono (wp_findScr h req.feScr) ?_
    rintro scr b₁ ⟨⟨h₁, hscr⟩, -, -⟩
    simp only [hreq]
    cases fnameDir req.scrPath with
    | none => exact h₁
    | some dir =>
      simp only [wp_bind]
      refine wp_mono (wp_cdScriptDir h₁ dir) ?_
      rintro cwd b₂ ⟨h₂, hscripts⟩
      cases cwd with
      | none =>
        unfold storeLastCwd
        simp
      | some c => exact wp_mono (wp_storeLastCwd h₂ (by rw [hscripts]; exact hscr)) fun _ _ h' => h'.1
  | unknown =>
    unfold onerunCwd
    rw [wp_bind]
    refine wp_mono (wp_findScr h req.feScr) ?_
    rintro scr b₁ ⟨⟨h₁, hscr⟩, -, -⟩
    simp only [hreq, wp_bind]
    refine wp_mono (wp_askPath h₁ (by simp)) ?_
    rintro cwd b₂ ⟨h₂, hscripts, -⟩
    exact wp_mono (wp_storeUsed h₂ (by rw [hscripts]; exact hscr)) fun _ _ h' => h'.1

end

/-! ### Any number of requests -/

section
variable {sys : Sys} {cwd : DevIno} {fds : Fd → Option DevIno} {b b' : Backend}

lemma inv_newBackend (cwd : DevIno) (fds : Fd → Option DevIno) : Inv none none (newBackend cwd fds) := by
  refine ⟨⟨fun _ _ => rfl, fun c => ?_, List.nodup_nil, fun k c hk => ?_, fun k i hk => ?_⟩,
    fun c v hv => ?_, fun c => ?_⟩
  · simp [newBackend]
  · cases hk
  · cases hk
  · cases hv
  · simp [newBackend, Backend.refs]

lemma Inv.served (h : Reach (serve sys) (newBackend cwd fds) b) : Inv none none b := by
  refine h.inv (inv_newBackend cwd fds) fun b t b' _ hb _ hs => ?_
  have hwp := wp_onerunCwd sys t.req hb
  unfold serve at hs
  split at hs
  · rename_i r b₁ hrun
    obtain rfl := Option.some.inj hs
    exact (wp_ok hwp hrun).setProc _
  · cases hs

/-- After every request a structure is referred to as often as it counts, is freed exactly when that
is never, and every entry of the hash leads to one that is allocated; the only thing that can go
wrong is a `NULL` directory of a script path. -/
theorem cached_counted (h : Reach (serve sys) (newBackend cwd fds) b) :
    (∀ c v, b.cwds c = some v → v.refcnt = b.refs c) ∧
    (∀ c, c < b.next → (b.cwds c = none ↔ b.refs c = 0)) ∧
    ((∀ c, c ∈ b.freed ↔ c < b.next ∧ b.refs c = 0) ∧ b.freed.Nodup) ∧
    (∀ k c, b.cwdHash k = some c → ∃ v, b.cwds c = some v) ∧
    ∀ req e, onerunCwd sys req b = .error e → e = .null ∧ req.cwdWhere = .inScript := by
  have hb := Inv.served h
  have hnone : ∀ c, b.cwds c = none ↔ b.refs c = 0 := by
    intro c
    have hl := hb.live c
    simp only [reduceCtorEq, or_false] at hl
    rw [← Option.not_isSome_iff_eq_none, Option.isSome_iff_exists, hl]
    omega
  refine ⟨fun c v hv => ?_, fun c _ => hnone c, ⟨fun c => ?_, hb.nodup⟩, fun k c hk => ?_,
    fun req e he => ?_⟩
  · simpa using hb.refcnt c v hv
  · rw [hb.freed, hnone]
  · obtain ⟨v, hv, -⟩ := hb.hash k c hk
    exact ⟨v, hv⟩
  · have hwp := wp_onerunCwd sys req hb
    simpa [wp, he] using hwp

/-- Until time 4 path `/a` leads to directory 1, later to directory 2. -/
def replaced : Sys where
  chdir t path := if path = str "/a" then some ⟨if t < 4 then 1 else 2, 1⟩ else none
  openDot _ := true
  fstat _ := true
  statDot _ := true
  fchdir _ := true
  junk _ := 0

/-- A request of script 7 for directory 1, followed by a script that goes to directory 9. -/
def visit : Turn where
  req := ⟨some (str "s"), ⟨7, 1⟩, .devino ⟨1, 1⟩, some (str "/a")⟩
  cwd := ⟨9, 1⟩
  fds _ := none
  clock := 0

/-- A structure whose entries have been taken over is freed. -/
theorem cached_counted_taken : ∃ b : Backend, Reach (serve replaced) (newBackend ⟨9, 1⟩ fun _ => none) b ∧
    b.next = 2 ∧ (0 ∈ b.freed ↔ 0 < b.next ∧ b.refs 0 = 0) ∧ b.freed = [0] := by
  obtain ⟨b, hb, hf⟩ : ∃ b : Backend, Reach (serve replaced) (newBackend ⟨9, 1⟩ fun _ => none) b ∧
      (b.next, b.freed) = (2, [0]) :=
    exists_reach (fun b : Backend => (b.next, b.freed))
      [visit, { visit with req := { visit.req with cwdWhere := .unknown } }] (by decide +kernel)
  obtain ⟨hnext, hfreed⟩ := Prod.mk.inj hf
  exact ⟨b, hb, hnext, (cached_counted hb).2.2.1.1 0, hfreed⟩

/-- The search for directory `feCwd` cannot end elsewhere: the cached descriptor leads there; or what
`chdir_path` says of the current directory is right, and the first saved path that leads anywhere
leads there. -/
def Right (sys : Sys) (b : Backend) (lastCwd : Option CwdPtr) (feCwd : DevIno) : Prop :=
  leadsTo sys feCwd b.proc ∨
  if said sys (b.proc.clock + 1) b.proc.cwd (leftover sys b.proc) = feCwd then b.proc.cwd = feCwd
  else ∀ dir, firstDir sys (savedPaths b lastCwd feCwd) (tick (tick b.proc)) = some dir → dir = feCwd

lemma found_right (lastCwd : Option CwdPtr) (feCwd : DevIno) :
    ((found sys b lastCwd feCwd).1 = true → (found sys b lastCwd feCwd).2.cwd = feCwd) ↔
      Right sys b lastCwd feCwd := by
  obtain ⟨h1, h2, h3⟩ := quickCd_spec sys feCwd b.proc
  unfold found Right
  rw [h1]
  by_cases hl : leadsTo sys feCwd b.proc
  · simp [hl, h2]
  by_cases hs : said sys (b.proc.clock + 1) b.proc.cwd (leftover sys b.proc) = feCwd
  · simp [hl, hs, h1, h2]
  · rw [if_neg hl] at h2 h3
    have hfirst : firstDir sys (savedPaths b lastCwd feCwd) (quickCd sys feCwd b.proc).2 =
        firstDir sys (savedPaths b lastCwd feCwd) (tick (tick b.proc)) := firstDir_congr h2 h3
    obtain ⟨h4, h5⟩ := goFirst_spec sys (savedPaths b lastCwd feCwd) (quickCd sys feCwd b.proc).2
    simp only [hl, hs, or_self, decide_false, Bool.false_eq_true, if_false, false_or, h4, h5, hfirst]
    cases firstDir sys (savedPaths b lastCwd feCwd) (tick (tick b.proc)) <;> simp

/-- A backend that has not asked the frontend is in the frontend's directory exactly if its search
could not end elsewhere. -/
theorem negotiated_iff (h : Reach (serve sys) (newBackend cwd fds) b) {req : Request} {feCwd : DevIno}
    (hreq : req.cwdWhere = .devino feCwd) :
    (∀ b', onerunCwd sys req b = .ok (false, b') → b'.proc.cwd = feCwd) ↔
      Right sys b ((b.scrHash (devinoStr req.feScr)).bind (scrLastCwd b)) feCwd := by
  rw [← found_right]
  obtain ⟨asked, b₁, hrun, -, hasked, hproc⟩ :=
    exists_of_wp (wp_onerunCwd_devino sys (Inv.served h) hreq)
  constructor
  · intro hok hfound
    have : asked = false := by rw [hasked, hfound]; rfl
    subst this
    rw [← hproc rfl]
    exact hok _ hrun
  · intro hok b' hb'
    obtain ⟨rfl, rfl⟩ : asked = false ∧ b₁ = b' := by rw [hrun] at hb'; simpa using hb'
    rw [hproc rfl]
    exact hok (by simpa using hasked)

/-- What was saved leads elsewhere now, and nobody looks. -/
theorem not_negotiated : ∃ b b', Reach (serve replaced) (newBackend ⟨9, 1⟩ fun _ => none) b ∧
    visit.req.cwdWhere = .devino ⟨1, 1⟩ ∧ onerunCwd replaced visit.req b = .ok (false, b') ∧
    b'.proc.cwd = ⟨2, 1⟩ := by
  obtain ⟨b, hb, hf⟩ : ∃ b, Reach (serve replaced) (newBackend ⟨9, 1⟩ fun _ => none) b ∧
      ((onerunCwd replaced visit.req b).toOption.map fun r => (r.1, r.2.proc.cwd)) =
        some (false, ⟨2, 1⟩) :=
    exists_reach _ [visit] (by decide +kernel)
  obtain ⟨⟨asked, b'⟩, hb', hr⟩ := Option.map_eq_some_iff.mp hf
  obtain ⟨rfl, hcwd⟩ : asked = false ∧ b'.proc.cwd = ⟨2, 1⟩ := by simpa using hr
  refine ⟨b, b', hb, rfl, ?_, hcwd⟩
  revert hb'
  cases onerunCwd replaced visit.req b with
  | error e => intro h; cases h
  | ok r => intro h; cases h; rfl

/-- A backend that is asked for the directory it is in. -/
theorem negotiated_here : ∃ b : Backend, Reach (serve replaced) (newBackend ⟨9, 1⟩ fun _ => none) b ∧
    b.proc.clock = 3 ∧
    ∀ b', onerunCwd replaced { visit.req with cwdWhere := .devino ⟨9, 1⟩ } b = .ok (false, b') →
      b'.proc.cwd = ⟨9, 1⟩ := by
  obtain ⟨b, hb, hf⟩ : ∃ b : Backend, Reach (serve replaced) (newBackend ⟨9, 1⟩ fun _ => none) b ∧
      (b.proc.clock, b.proc.cwd) = (3, ⟨9, 1⟩) :=
    exists_reach (fun b : Backend => (b.proc.clock, b.proc.cwd)) [visit] (by decide +kernel)
  obtain ⟨hclock, hcwd⟩ := Prod.mk.inj hf
  refine ⟨b, hb, hclock, (negotiated_iff hb rfl).mpr (.inr ?_)⟩
  have hsaid : said replaced (b.proc.clock + 1) b.proc.cwd (leftover replaced b.proc) = ⟨9, 1⟩ := hcwd
  rw [if_pos hsaid, hcwd]

end

end SpeedyCgi.Cwd
