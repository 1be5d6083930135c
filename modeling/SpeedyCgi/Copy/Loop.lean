import SpeedyCgi.Copy.Arrival
import SpeedyCgi.Copy.CircInt
import SpeedyCgi.Copy.Poll
import SpeedyCgi.Copy.Sockets

/-!
The copy loop with its waiting.

`doitStep` is told what is ready. Here the loop asks that of `speedy_poll_isset`, after it has set the
descriptors that it waits for, and the kernel answers the wait. What `speedy_poll_init` is told is the
highest of the sockets.
-/

namespace SpeedyCgi.Copy

open Function Lib.Lts

structure Looped (π : Type) where
  doit : Doit
  pi : π

/-- What a wait ends with: an answer, nothing for five seconds or a signal, or another error. -/
inductive Waits
  | ready (answer : ℕ → Events)
  | nothing
  | failed

inductive Wake
  | tests
  | read (junk : ℕ → UInt8) (r : ReadRes)
  | write (r : WriteRes)
  | exits (gotSig collected child : Bool)
  | poll (w : Waits)

/-! ### What is waited for -/

def readSet (s : Doit) (i : Fin 3) : List (ℕ × Flag) :=
  if myCanread s i then [((s.cb i).rdfd, .speedyPollin)] else []

def writeSet (s : Doit) (i : Fin 3) : List (ℕ × Flag) :=
  if speedyCbCanwrite (s.cb i) then [((s.cb i).wrfd, .speedyPollout)] else []

/-- What is set before the loop, to read and write without a wait. -/
def firstSets (s : Doit) : List (ℕ × Flag) :=
  (if s.inIsTty then [] else readSet s CB_IN) ++ readSet s CB_OUT ++ readSet s CB_ERR ++
    writeSet s CB_IN

/-- What is set when the backend has exited, to read and write once more. -/
def exitSets (s : Doit) : List (ℕ × Flag) :=
  [((s.cb CB_OUT).rdfd, .speedyPollin), ((s.cb CB_OUT).wrfd, .speedyPollout),
    ((s.cb CB_ERR).rdfd, .speedyPollin), ((s.cb CB_ERR).wrfd, .speedyPollout)]

def waitSets (sig : ℕ) (s : Doit) : List (ℕ × Flag) :=
  (if s.backendExited then [] else [(sig, .speedyPollin)]) ++
    [CB_IN, CB_OUT, CB_ERR].flatMap fun i => readSet s i ++ writeSet s i

section
variable {π : Type} (I : PollImpl π) (sig : ℕ)

def setAll (sets : List (ℕ × Flag)) (pi : π) : Option π :=
  sets.foldlM (fun pi u => I.set u.1 u.2 pi) (I.reset pi)

/-- `speedy_poll_isset` behind a `&&`. -/
def ask (cond : Bool) (pi : π) (fd : ℕ) (flag : Flag) : Option Bool :=
  if cond then I.isset pi fd flag else some false

def askSig (gotSig : Bool) (x : Looped π) : Option Bool :=
  if x.doit.backendExited then some false
  else if gotSig then some true else I.isset x.pi sig .speedyPollin

/-! ### The loop -/

def tests (x : Looped π) (i : Fin 3) : Option (Looped π) :=
  (ask I (myCanread x.doit i) x.pi (x.doit.cb i).rdfd .speedyPollin).bind fun rd =>
    (ask I (speedyCbCanwrite (x.doit.cb i)) x.pi (x.doit.cb i).wrfd .speedyPollout).bind fun wr =>
      (doitStep x.doit (.ready rd wr)).map fun s => ⟨s, x.pi⟩

/-- Behind the reads and writes; they begin anew when the status of the backend has been collected. -/
def exits (gotSig collected child : Bool) (x : Looped π) : Option (Looped π) :=
  (askSig I sig gotSig x).bind fun b =>
    (doitStep x.doit (.exits b collected child)).bind fun s =>
      if s.pc = .tests CB_IN then (setAll I (exitSets s) x.pi).map fun pi => ⟨s, pi⟩
      else some ⟨s, x.pi⟩

def Waits.isFailed : Waits → Bool
  | .failed => true
  | _ => false

def Waits.leave (w : Waits) (pi : π) : π :=
  match w with
  | .ready answer => I.wait answer pi
  | .nothing => I.reset pi
  | .failed => pi

def poll (w : Waits) (x : Looped π) : Option (Looped π) :=
  (doitStep x.doit (.poll w.isFailed)).bind fun s =>
    (setAll I (waitSets sig x.doit) x.pi).map fun pi => ⟨s, w.leave I pi⟩

def loopStep (x : Looped π) : Wake → Option (Looped π)
  | .tests => match x.doit.pc with
    | .tests i => tests I x i
    | _ => none
  | .read junk r => (doitStep x.doit (.read junk r)).map fun s => ⟨s, x.pi⟩
  | .write r => (doitStep x.doit (.write r)).map fun s => ⟨s, x.pi⟩
  | .exits gotSig collected child => exits I sig gotSig collected child x
  | .poll w => poll I sig w x

/-- The loop from the first reads and writes on. -/
def loopRun (pi : π) (l : Launch) (es : List Wake) : Option (Looped π) :=
  (setAll I (firstSets (doitSetup l)) pi).bind fun pi => run (loopStep I sig) ⟨doitSetup l, pi⟩ es

end

/-- What `speedy_poll_init` is told. -/
def maxSock (l : Launch) : ℕ := max (max (l.socks CB_IN) (l.socks CB_OUT)) (l.socks CB_ERR)

/-! ### The descriptors of the buffers -/

/-- The descriptors that the loop waits for, and the flag of each. -/
def uses (sig : ℕ) (l : Launch) : List (ℕ × Flag) :=
  [(sig, .speedyPollin), (0, .speedyPollin), (l.socks CB_IN, .speedyPollout),
    (l.socks CB_OUT, .speedyPollin), (1, .speedyPollout), (l.socks CB_ERR, .speedyPollin),
    (2, .speedyPollout)]

/-- A buffer with the descriptors and the size of another. -/
def CopyBuf.SameSetup (b b' : CopyBuf) : Prop :=
  b'.rdfd = b.rdfd ∧ b'.wrfd = b.wrfd ∧ b'.maxsz = b.maxsz

lemma CopyBuf.SameSetup.trans {a b c : CopyBuf} (h : a.SameSetup b) (h' : b.SameSetup c) : a.SameSetup c :=
  ⟨h'.1.trans h.1, h'.2.1.trans h.2.1, h'.2.2.trans h.2.2⟩

lemma sameSetup_free {b b' : CopyBuf} (h : speedyCbFree b = some b') : b.SameSetup b' := by
  unfold speedyCbFree at h
  split at h
  · exact Option.some.inj h ▸ ⟨rfl, rfl, rfl⟩
  · obtain ⟨circ, -, rfl⟩ := Option.map_eq_some_iff.mp h
    exact ⟨rfl, rfl, rfl⟩

lemma sameSetup_enlarge {junk : ℕ → UInt8} {b b' : CopyBuf} (h : enlarge junk b = some b') :
    b.SameSetup b' := by
  unfold enlarge at h
  dsimp only at h
  split at h
  · obtain ⟨circ, -, rfl⟩ := Option.map_eq_some_iff.mp h
    exact ⟨rfl, rfl, rfl⟩
  · exact Option.some.inj h ▸ ⟨rfl, rfl, rfl⟩

lemma sameSetup_eof {b b' : CopyBuf} (h : (if speedyCbDataLen (speedyCbSeteof b) = 0 then
    speedyCbFree (speedyCbSeteof b) else some (speedyCbSeteof b)) = some b') : b.SameSetup b' := by
  split at h
  · have hs := sameSetup_free h
    exact hs
  · exact Option.some.inj h ▸ ⟨rfl, rfl, rfl⟩

lemma sameSetup_read {junk : ℕ → UInt8} {r : ReadRes} {b b' : CopyBuf}
    (h : speedyCbRead junk r b = some b') : b.SameSetup b' := by
  unfold speedyCbRead at h
  split at h
  · obtain ⟨e, he, h⟩ := Option.bind_eq_some_iff.mp h
    refine (sameSetup_enlarge he).trans ?_
    cases r with
    | data w =>
      obtain ⟨buf, -, h⟩ := Option.bind_eq_some_iff.mp h
      exact Option.some.inj h ▸ ⟨rfl, rfl, rfl⟩
    | notReady => exact Option.some.inj h ▸ ⟨rfl, rfl, rfl⟩
    | «end» => exact sameSetup_eof h
    | error => exact sameSetup_eof h
  · exact Option.some.inj h ▸ ⟨rfl, rfl, rfl⟩

lemma sameSetup_written {n : Int} {b b' : CopyBuf} (h : written n b = some b') : b.SameSetup b' := by
  simp only [written] at h
  split at h
  · split at h
    · have hs := sameSetup_free h
      exact hs
    · exact Option.some.inj h ▸ ⟨rfl, rfl, rfl⟩
  · exact Option.some.inj h ▸ ⟨rfl, rfl, rfl⟩

lemma sameSetup_write {r : WriteRes} {b b' : CopyBuf} (h : speedyCbWrite r b = some b') :
    b.SameSetup b' := by
  have hres : b.SameSetup (if b.writeErr = 0 then writeResult r b else (0, b)).2 := by
    split
    · cases r <;> exact ⟨rfl, rfl, rfl⟩
    · exact ⟨rfl, rfl, rfl⟩
  exact hres.trans (sameSetup_written h)

lemma sameSetup_shift (b : CopyBuf) : b.SameSetup (speedyCbShift b).2 := by
  unfold speedyCbShift
  split <;> exact ⟨rfl, rfl, rfl⟩

lemma Doit.Serves.sameSetup {s : Doit} {i : Fin 3} {e : Event} {b : CopyBuf} (h : s.Serves i e b) :
    (s.cb i).SameSetup b := by
  cases h with
  | read hpc h hb =>
    rcases hb with rfl | rfl
    · exact sameSetup_read h
    · exact (sameSetup_read h).trans (sameSetup_shift _)
  | write hpc h => exact sameSetup_write h

/-- All of the buffers have the descriptors that they had. -/
lemma doitStep_sameSetup {s s' : Doit} {e : Event} (h : doitStep s e = some s') (i : Fin 3) :
    (s.cb i).SameSetup (s'.cb i) := by
  obtain ⟨-, ⟨hcb, -⟩ | ⟨j, b, hb, hcb, -⟩⟩ := doitStep_bufs h
  · rw [hcb]
    exact ⟨rfl, rfl, rfl⟩
  · rw [hcb]
    by_cases hij : i = j
    · subst hij
      simpa using hb.sameSetup
    · simpa [hij] using ⟨rfl, rfl, rfl⟩

/-- The descriptors of the buffers. -/
lemma launch_fds (l : Launch) : (l.cb CB_IN).rdfd = 0 ∧ (l.cb CB_IN).wrfd = l.socks CB_IN ∧
    (l.cb CB_OUT).rdfd = l.socks CB_OUT ∧ (l.cb CB_OUT).wrfd = 1 ∧
    (l.cb CB_ERR).rdfd = l.socks CB_ERR ∧ (l.cb CB_ERR).wrfd = 2 := by
  simp only [Launch.cb]
  refine ⟨?_, ?_, ?_, ?_, ?_, ?_⟩ <;> split <;> rfl

/-- The buffers have the descriptors and the sizes that they had at the start. -/
def Doit.Of (l : Launch) (s : Doit) : Prop := ∀ i, (l.cb i).SameSetup (s.cb i)

lemma launch_maxsz_le {l : Launch} {n : ℕ} (hpost : max l.bufsizPost l.ibuf.alloced ≤ n)
    (hget : l.bufsizGet ≤ n) (herr : 512 ≤ n) (i : Fin 3) : (l.cb i).maxsz ≤ n := by
  obtain rfl | rfl | rfl := eq_cb i <;> simp only [Launch.cb] <;> split <;> assumption

lemma Relay.of_reachable {l : Launch} {r : Relay} (h : Relay.Reachable l r) : r.doit.Of l := by
  refine ReachOk.inv (P := fun r => r.doit.Of l) (fun _ => (setup_same l).1 ▸ ⟨rfl, rfl, rfl⟩)
    (fun r m r' _ hr _ hs i => ?_) h
  cases m with
  | feed j w =>
    simp only [step] at hs
    split at hs <;> cases hs
    exact hr i
  | hangup j =>
    cases hs
    exact hr i
  | act e =>
    obtain ⟨s, hstep, rfl⟩ := Option.map_eq_some_iff.mp hs
    exact (hr i).trans (doitStep_sameSetup hstep i)

/-- With options of at most 1 GiB no length and no position in the loop leaves the range of an `int`:
every buffer is one with `int` fields for which the operations are the same, and so is the size to
which `speedy_cb_read` enlarges it. -/
theorem Relay.sizes_fit {l : Launch} {r : Relay} (hget : 0 < l.bufsizGet) (h : Relay.Reachable l r)
    (hpost : max l.bufsizPost l.ibuf.alloced ≤ 2 ^ 30) (hle : l.bufsizGet ≤ 2 ^ 30) (i : Fin 3) :
    (∃ c, CircInt.Rep c (r.doit.cb i).circ ∧ c.Fits) ∧
      ((r.doit.cb i).circ.bufLen < (r.doit.cb i).maxsz →
        (r.doit.cb i).circ.bufLen + max minRead (r.doit.cb i).circ.bufLen < 2 ^ 31) := by
  have hwf := (inv_of_reachable hget h).wf i
  have hmax : (r.doit.cb i).maxsz ≤ 2 ^ 30 :=
    (of_reachable h i).2.2 ▸ launch_maxsz_le hpost hle (by decide) i
  refine ⟨CircInt.exists_rep hwf.circ.bounds (hwf.max.trans hmax), fun hlt => ?_⟩
  simp only [minRead]
  omega

lemma Doit.Of.rd {l : Launch} {s : Doit} (h : s.Of l) (sig : ℕ) (i : Fin 3) :
    ((s.cb i).rdfd, Flag.speedyPollin) ∈ uses sig l := by
  obtain ⟨h0, -, h1, -, h2, -⟩ := launch_fds l
  rw [(h i).1]
  obtain rfl | rfl | rfl := eq_cb i
  · simp [uses, h0]
  · simp [uses, h1]
  · simp [uses, h2]

lemma Doit.Of.wr {l : Launch} {s : Doit} (h : s.Of l) (sig : ℕ) (i : Fin 3) :
    ((s.cb i).wrfd, Flag.speedyPollout) ∈ uses sig l := by
  obtain ⟨-, h0, -, h1, -, h2⟩ := launch_fds l
  rw [(h i).2.1]
  obtain rfl | rfl | rfl := eq_cb i
  · simp [uses, h0]
  · simp [uses, h1]
  · simp [uses, h2]

lemma sig_mem (sig : ℕ) (l : Launch) : (sig, Flag.speedyPollin) ∈ uses sig l := List.mem_cons_self

lemma readSet_subset {l : Launch} {s : Doit} (h : s.Of l) (sig : ℕ) (i : Fin 3) :
    readSet s i ⊆ uses sig l := by
  unfold readSet
  split
  · simpa using h.rd sig i
  · exact List.nil_subset _

lemma writeSet_subset {l : Launch} {s : Doit} (h : s.Of l) (sig : ℕ) (i : Fin 3) :
    writeSet s i ⊆ uses sig l := by
  unfold writeSet
  split
  · simpa using h.wr sig i
  · exact List.nil_subset _

lemma firstSets_subset {l : Launch} {s : Doit} (h : s.Of l) (sig : ℕ) : firstSets s ⊆ uses sig l := by
  simp only [firstSets, List.append_subset]
  refine ⟨⟨⟨?_, readSet_subset h sig _⟩, readSet_subset h sig _⟩, writeSet_subset h sig _⟩
  split
  · exact List.nil_subset _
  · exact readSet_subset h sig _

lemma exitSets_subset {l : Launch} {s : Doit} (h : s.Of l) (sig : ℕ) : exitSets s ⊆ uses sig l := by
  simp only [exitSets, List.cons_subset]
  exact ⟨h.rd sig _, h.wr sig _, h.rd sig _, h.wr sig _, List.nil_subset _⟩

lemma waitSets_subset {l : Launch} {s : Doit} (h : s.Of l) (sig : ℕ) : waitSets sig s ⊆ uses sig l := by
  refine List.append_subset.mpr ⟨?_, fun u hu => ?_⟩
  rotate_left
  · obtain ⟨i, -, hu⟩ := List.mem_flatMap.mp hu
    exact List.append_subset.mpr ⟨readSet_subset h sig i, writeSet_subset h sig i⟩ hu
  split
  · exact List.nil_subset _
  · simpa using sig_mem sig l

/-! ### The loop as it is meant -/

section
variable {π : Type} {I : PollImpl π} {sig : ℕ} {l : Launch} {R : π → Round → Prop}

lemma setAll_asMeant (sets : List (ℕ × Flag)) (r : Round) : setAll asMeant sets r = some ⟨sets, none⟩ := by
  have hfold (sets : List (ℕ × Flag)) (r : Round) :
      sets.foldlM (fun r u => asMeant.set u.1 u.2 r) r = some ⟨r.sets ++ sets, r.answer⟩ := by
    induction sets generalizing r with
    | nil => simp
    | cons u sets ih => exact (ih (r.set u.1 u.2)).trans (by simp [Round.set])
  exact hfold sets _

/-- The same sets, one after the other. -/
lemma setAll_shows {uses sets : List (ℕ × Flag)} (hI : I.Shows uses R) (hsets : sets ⊆ uses) {x : π}
    {r : Round} (h : R x r) : ∃ x', setAll I sets x = some x' ∧ R x' ⟨sets, none⟩ := by
  have hfold (sets : List (ℕ × Flag)) (hsets : sets ⊆ uses) (x : π) (r : Round) (h : R x r)
      (hr : r.answer = none) : ∃ x', sets.foldlM (fun x u => I.set u.1 u.2 x) x = some x' ∧
        R x' ⟨r.sets ++ sets, none⟩ := by
    induction sets generalizing x r with
    | nil => exact ⟨x, rfl, by simpa [← hr] using h⟩
    | cons u sets ih =>
      obtain ⟨hu, hsets⟩ := List.cons_subset.mp hsets
      obtain ⟨x', hx', h'⟩ := hI.set x r u h hr hu
      obtain ⟨x'', hx'', h''⟩ := ih hsets x' _ h' hr
      refine ⟨x'', ?_, by simpa [Round.set] using h''⟩
      rw [List.foldlM_cons, hx']
      exact hx''
  exact hfold sets hsets _ _ (hI.reset x r h) rfl

variable (R l) in
/-- The same place in the loop, and the memory shows what is meant. -/
structure Looped.Shows (x : Looped π) (y : Looped Round) : Prop where
  doit : x.doit = y.doit
  pi : R x.pi y.pi
  of : y.doit.Of l

lemma ask_shows (hI : I.Shows (uses sig l) R) {x : π} {r : Round} (h : R x r) (cond : Bool)
    {u : ℕ × Flag} (hu : u ∈ uses sig l) : ask I cond x u.1 u.2 = ask asMeant cond r u.1 u.2 := by
  unfold ask
  split
  · exact hI.isset x r u h hu
  · rfl

lemma askSig_shows (hI : I.Shows (uses sig l) R) {x : Looped π} {y : Looped Round}
    (h : x.Shows l R y) (gotSig : Bool) : askSig I sig gotSig x = askSig asMeant sig gotSig y := by
  unfold askSig
  rw [h.doit]
  split
  · rfl
  · split
    · rfl
    · exact hI.isset x.pi y.pi _ h.pi (sig_mem sig l)

/-- Where `doitStep` leads, with the memory as it is. -/
lemma Looped.Shows.goes {x : Looped π} {y : Looped Round} (h : x.Shows l R y) (e : Event) :
    Option.Rel (fun s s' => s = s' ∧ s.Of l) (doitStep x.doit e) (doitStep y.doit e) := by
  rw [h.doit]
  cases hs : doitStep y.doit e with
  | none => exact .none
  | some s => exact .some ⟨rfl, fun i => (h.of i).trans (doitStep_sameSetup hs i)⟩

lemma loopStep_shows (hI : I.Shows (uses sig l) R) {x : Looped π} {y : Looped Round}
    (h : x.Shows l R y) (e : Wake) :
    Option.Rel (Looped.Shows l R) (loopStep I sig x e) (loopStep asMeant sig y e) := by
  cases e with
  | tests =>
    simp only [loopStep, h.doit]
    split
    next i hpc =>
      have hrd := ask_shows hI h.pi (myCanread y.doit i) (h.of.rd sig i)
      have hwr := ask_shows hI h.pi (speedyCbCanwrite (y.doit.cb i)) (h.of.wr sig i)
      unfold tests
      rw [h.doit, hrd, hwr]
      refine rel_bind_self _ fun rd => rel_bind_self _ fun wr => ?_
      exact rel_map (h.doit ▸ h.goes _) fun s s' ⟨hs, hof⟩ => ⟨hs, h.pi, hs ▸ hof⟩
    next => exact .none
  | read junk r => exact rel_map (h.goes _) fun s s' ⟨hs, hof⟩ => ⟨hs, h.pi, hs ▸ hof⟩
  | write r => exact rel_map (h.goes _) fun s s' ⟨hs, hof⟩ => ⟨hs, h.pi, hs ▸ hof⟩
  | exits gotSig collected child =>
    simp only [loopStep, exits, askSig_shows hI h]
    refine rel_bind_self _ fun b => rel_bind (h.goes _) fun s s' ⟨hs, hof⟩ => ?_
    subst hs
    split
    · obtain ⟨pi, hpi, hR⟩ := setAll_shows hI (exitSets_subset hof sig) h.pi
      rw [hpi, setAll_asMeant]
      exact .some ⟨rfl, hR, hof⟩
    · exact .some ⟨rfl, h.pi, hof⟩
  | poll w =>
    simp only [loopStep, poll]
    refine rel_bind (h.goes _) fun s s' ⟨hs, hof⟩ => ?_
    subst hs
    obtain ⟨pi, hpi, hR⟩ := setAll_shows hI (waitSets_subset h.of sig) h.pi
    rw [h.doit, hpi, setAll_asMeant]
    refine .some ⟨rfl, ?_, hof⟩
    cases w with
    | ready answer => exact hI.wait pi _ answer hR rfl
    | nothing => exact hI.reset pi _ hR
    | failed => exact hR

/-- A whole run. -/
theorem loopRun_shows (hI : I.Shows (uses sig l) R) {pi : π} {r : Round} (h : R pi r)
    (es : List Wake) :
    (loopRun I sig pi l es).map Looped.doit = (loopRun asMeant sig r l es).map Looped.doit := by
  have hof : (doitSetup l).Of l := fun i => by
    rw [(Relay.setup_same l).1]
    exact ⟨rfl, rfl, rfl⟩
  obtain ⟨pi', hpi, hR⟩ := setAll_shows hI (firstSets_subset hof sig) h
  rw [loopRun, loopRun, hpi, setAll_asMeant]
  exact map_eq_of_rel (run_rel (fun x y e h => loopStep_shows hI h e) ⟨rfl, hR, hof⟩ es)
    fun x y h => h.doit

end

/-! ### The memory is enough -/

section
variable {t : Table} {sig : ℕ} {l : Launch}

lemma socks_lt_socks (l : Launch) : l.socks CB_IN < l.socks CB_OUT ∧ l.socks CB_OUT < l.socks CB_ERR :=
  l.sock_lt

lemma maxSock_eq (l : Launch) : maxSock l = l.socks CB_ERR := by
  obtain ⟨h1, h2⟩ := socks_lt_socks l
  unfold maxSock
  omega

/-- Also 0 to 2 are no higher than the highest of three descriptors. -/
lemma uses_le (h : t.Leaves sig l) : ∀ u ∈ uses sig l, u.1 ≤ maxSock l := by
  obtain ⟨h1, h2⟩ := socks_lt_socks l
  have hsig := h.pipe_lt.1
  rw [maxSock_eq]
  simp only [uses, List.forall_mem_cons, List.not_mem_nil, false_imp_iff, implies_true, and_true]
  omega

/-- The sockets and the pipe are no descriptors that were open. -/
lemma apart (h : t.Leaves sig l) (h012 : ∀ fd ≤ 2, l.isOpen fd = true) :
    2 < sig ∧ sig < l.socks CB_IN ∧ l.socks CB_IN < l.socks CB_OUT ∧ l.socks CB_OUT < l.socks CB_ERR := by
  obtain ⟨hlt, hout, -⟩ := h.pipe_lt
  refine ⟨?_, hlt, socks_lt_socks l⟩
  by_contra hle
  rw [h012 sig (Nat.not_lt.mp hle)] at hout
  cases hout

lemma uses_one (h : t.Leaves sig l) (h012 : ∀ fd ≤ 2, l.isOpen fd = true) :
    ∀ u ∈ uses sig l, ∀ v ∈ uses sig l, u.1 = v.1 → u = v := by
  obtain ⟨h2, hsig, h1, h0⟩ := apart h h012
  have hnodup : ((uses sig l).map Prod.fst).Nodup := by
    simp only [uses, List.map_cons, List.map_nil, List.nodup_cons, List.mem_cons, List.not_mem_nil,
      or_false, not_or, not_false_eq_true, List.nodup_nil, and_true]
    omega
  exact fun u hu v hv => List.inj_on_of_nodup_map hnodup hu hv

/-- When the descriptors 0 to 2 are open at the start, the loop goes on with `poll`, and with `select`,
exactly as it is meant, and never beyond the memory of `speedy_poll_init`. -/
theorem waits_as_meant (h : t.Leaves sig l) (h012 : ∀ fd ≤ 2, l.isOpen fd = true)
    (junk : ℕ → PollFd) (junkSets : Flag → List Bool) (es : List Wake) :
    (loopRun withPoll sig (.speedyPollInit junk (maxSock l)) l es).map Looped.doit =
        (loopRun asMeant sig ⟨[], none⟩ l es).map Looped.doit ∧
      (maxSock l < fdSetsize →
        (loopRun withSelect sig (.speedyPollInit junkSets (maxSock l)) l es).map Looped.doit =
          (loopRun asMeant sig ⟨[], none⟩ l es).map Looped.doit) := by
  refine ⟨loopRun_shows (withPoll_shows (uses_le h) (uses_one h h012))
    ⟨.init _ junk, List.nil_subset _⟩ es, fun hm => loopRun_shows (withSelect_shows (uses_le h) hm) ?_ es⟩
  exact .init (fun u hu => Nat.lt_of_le_of_lt (uses_le h u hu) hm) junkSets

/-- The sockets are made twice, since the first backend does not answer. -/
def refusedOnce : Table :=
  (run Table.step (Table.start fun fd => fd < 3)
    [.scriptOpen 3, .prepare 4 5 6, .fileOpen 7, .refused, .prepare 4 5 6, .scriptOpen 3, .pipe 3 8]).get rfl

lemma refusedOnce_reach : Reach Table.step (Table.start fun fd => fd < 3) refusedOnce :=
  Reach.run .init (Option.some_get _).symm

lemma refusedOnce_ready : refusedOnce.Ready fun fd => fd < 3 := Table.ready refusedOnce_reach rfl

def launchRefused : Launch := Table.launch refusedOnce_ready false 4 4 ⟨[7], []⟩

/-- The request goes out, nothing comes, and the wait ends with some of stdout. -/
def oneRound : List Wake :=
  [.tests, .read (fun _ => 0) .notReady, .write (.took 1), .read (fun _ => 0) .notReady,
    .tests, .read (fun _ => 0) .notReady, .tests, .read (fun _ => 0) .notReady,
    .exits false false false, .poll (.ready fun fd e => fd = 5 && e = .pollIn), .tests, .tests]

lemma refusedOnce_leaves : refusedOnce.Leaves 3 launchRefused :=
  Table.leaves_launch refusedOnce_reach rfl ..

lemma launchRefused_isOpen (fd : ℕ) (h : fd ≤ 2) : launchRefused.isOpen fd = true :=
  decide_eq_true (Nat.lt_succ_of_le h)

theorem waits_as_meant_refused :
    ((loopRun withPoll 3 (.speedyPollInit (fun _ => ⟨9, fun _ => true, fun _ => true⟩)
        (maxSock launchRefused)) launchRefused oneRound).map Looped.doit =
          (loopRun asMeant 3 ⟨[], none⟩ launchRefused oneRound).map Looped.doit ∧
      (maxSock launchRefused < fdSetsize →
        (loopRun withSelect 3 (.speedyPollInit (fun _ => []) (maxSock launchRefused)) launchRefused
          oneRound).map Looped.doit =
            (loopRun asMeant 3 ⟨[], none⟩ launchRefused oneRound).map Looped.doit)) ∧
      (loopRun asMeant 3 ⟨[], none⟩ launchRefused oneRound).map (fun x => x.doit.pc) =
        some (.io 1 true false) :=
  ⟨waits_as_meant refusedOnce_leaves launchRefused_isOpen _ _ _, rfl⟩

/-! ### No descriptor that was closed -/

/-- A buffer has both of its descriptors open. -/
def Doit.Has (s : Doit) (i : Fin 3) : Prop :=
  s.fds.isOpen (s.cb i).rdfd = true ∧ s.fds.isOpen (s.cb i).wrfd = true

/-- Only the descriptors of a buffer that is done are closed, which is not read or written. -/
structure Doit.Tidy (l : Launch) (s : Doit) : Prop where
  of : s.Of l
  has : ∀ i, myCopydone s i = false → s.Has i
  busy : ∀ i doRead doWrite, s.pc = .io i doRead doWrite → s.Has i

lemma not_copydone_of_canread {s : Doit} {i : Fin 3} (h : myCanread s i = true) :
    myCopydone s i = false := by
  simp only [myCanread, speedyCbCanread, Bool.and_eq_true, Bool.or_eq_true] at h
  rcases h.2 with ⟨⟨-, he⟩, hw⟩ | ⟨hg, he⟩
  · simp_all [myCopydone, speedyCbCopydone]
  · simp_all [myCopydone]

lemma not_copydone_of_canwrite {s : Doit} {i : Fin 3} (h : speedyCbCanwrite (s.cb i) = true) :
    myCopydone s i = false := by
  simp only [speedyCbCanwrite, Bool.and_eq_true, decide_eq_true_eq] at h
  simp [myCopydone, speedyCbCopydone, h.1, h.2]

lemma myCopydone_congr {s s' : Doit} (hcb : s'.cb = s.cb) (hgot : s'.gotStdout = s.gotStdout)
    (i : Fin 3) : myCopydone s' i = myCopydone s i := by
  simp only [myCopydone, hcb, hgot]

variable (l) in
/-- The descriptors of different buffers are different. -/
def Apart : Prop := ∀ i j, i ≠ j → (l.cb i).rdfd ≠ (l.cb j).rdfd ∧ (l.cb i).rdfd ≠ (l.cb j).wrfd ∧
  (l.cb i).wrfd ≠ (l.cb j).rdfd ∧ (l.cb i).wrfd ≠ (l.cb j).wrfd

variable {s s' : Doit} {i : Fin 3}

/-- The buffers that are not done have their descriptors. -/
def Doit.Keeps (s : Doit) : Prop := ∀ i, myCopydone s i = false → s.Has i

lemma Doit.Keeps.tryClose (h : s.Keeps) (hap : Apart l) (hof : s.Of l) (i : Fin 3) :
    (Copy.tryClose s i).Keeps := by
  intro j hj
  have hsame := tryClose_same s i
  rw [myCopydone_congr hsame.cb hsame.gotStdout] at hj
  have hhas := h j hj
  unfold Doit.Has
  rw [hsame.cb]
  unfold Copy.tryClose
  split
  next hdone =>
    have hij : j ≠ i := by
      rintro rfl
      rw [hj] at hdone
      cases hdone
    obtain ⟨h1, h2, h3, h4⟩ := hap j i hij
    rw [← (hof i).1, ← (hof j).1] at h1
    rw [← (hof i).2.1, ← (hof j).1] at h2
    rw [← (hof i).1, ← (hof j).2.1] at h3
    rw [← (hof i).2.1, ← (hof j).2.1] at h4
    simp only [fdChange_isOpen h1, fdChange_isOpen h2, fdChange_isOpen h3, fdChange_isOpen h4]
    exact hhas
  next => exact hhas

lemma Doit.Keeps.ioDone (h : s.Keeps) (hap : Apart l) (hof : s.Of l) (hi : s.Has i)
    (doRead doWrite : Bool) : (Copy.ioDone s i doRead doWrite).Tidy l := by
  refine ⟨fun j => (ioDone_same s i doRead doWrite).cb ▸ hof j, ?_, ?_⟩ <;> unfold Copy.ioDone <;> split
  · exact h
  · exact h.tryClose hap hof i
  · intro j dr dw hj
    obtain ⟨rfl, -⟩ : i = j ∧ _ := by simpa using hj
    exact hi
  · exact fun j dr dw hj => absurd hj (nextBuf_ne i j dr dw)

/-- Buffer `i` is another after a read or write; its descriptors are open all the same. -/
lemma Doit.Tidy.served (h : s.Tidy l) {b : CopyBuf} (hb : (s.cb i).SameSetup b) (hi : s.Has i)
    (s' : Doit) (hcb : s'.cb = update s.cb i b) (hfds : s'.fds = s.fds) (hgot : s.gotStdout → s'.gotStdout) :
    s'.Of l ∧ s'.Keeps ∧ s'.Has i := by
  have hi' : s'.Has i := by
    simp only [Doit.Has, hcb, hfds, update_self, hb.1, hb.2]
    exact hi
  refine ⟨fun j => ?_, fun j hj => ?_, hi'⟩
  · rw [hcb]
    by_cases hij : j = i
    · subst hij
      simpa using (h.of j).trans hb
    · simpa [hij] using h.of j
  · by_cases hij : j = i
    · exact hij ▸ hi'
    · have hcbj : s'.cb j = s.cb j := by simp [hcb, hij]
      have hdone : myCopydone s j = false := by
        simp only [myCopydone, hcbj, Bool.and_eq_false_iff, Bool.or_eq_false_iff] at hj ⊢
        refine hj.imp_right fun hj => ⟨⟨?_, hj.1.2⟩, hj.2⟩
        have hg := hj.1.1
        cases hgs : s.gotStdout with
        | false => rfl
        | true => exact absurd (hgot hgs) (by simp [hg])
      have hhas := h.has j hdone
      rwa [Doit.Has, hcbj, hfds]

lemma afterIo_pc (s : Doit) (sig collected child : Bool) :
    (afterIo sig collected child s).gotStdout = s.gotStdout ∧
      ∀ i doRead doWrite, (afterIo sig collected child s).pc ≠ .io i doRead doWrite := by
  unfold afterIo
  dsimp only
  split_ifs <;> simp [finish]

lemma Doit.Tidy.step (h : s.Tidy l) (hap : Apart l) {e : Event} (hs : doitStep s e = some s') :
    s'.Tidy l := by
  cases e with
  | ready rd wr =>
    simp only [doitStep] at hs
    split at hs
    next i hpc =>
      obtain rfl := Option.some.inj hs
      refine ⟨h.of, h.has, fun j dr dw hj => ?_⟩
      dsimp only at hj
      split at hj
      next hio =>
        obtain ⟨rfl, -⟩ : i = j ∧ _ := by simpa using hj
        simp only [Bool.or_eq_true, Bool.and_eq_true] at hio
        exact h.has i (hio.elim (fun h => not_copydone_of_canread h.1)
          fun h => not_copydone_of_canwrite h.1)
      next => exact absurd hj (nextBuf_ne i j dr dw)
    next => cases hs
  | read junk r =>
    simp only [doitStep] at hs
    split at hs
    next i dw hpc =>
      obtain ⟨b, hb, rfl⟩ := Option.map_eq_some_iff.mp hs
      have hi := h.busy i true dw hpc
      unfold readDone
      dsimp only
      split
      next hfirst =>
        -- the first byte of stdout is taken off
        simp only [Bool.and_eq_true, decide_eq_true_eq] at hfirst
        obtain rfl := hfirst.1.2
        obtain ⟨hof, hkeeps, hhas⟩ := h.served ((sameSetup_read hb).trans (sameSetup_shift b)) hi
          (firstByte { s with cb := update s.cb CB_OUT b, readStopped := _ })
          (by simp [firstByte]) rfl fun _ => rfl
        exact hkeeps.ioDone hap hof hhas _ _
      next =>
        obtain ⟨hof, hkeeps, hhas⟩ := h.served (sameSetup_read hb) hi
          { s with cb := update s.cb i b, readStopped := _ } rfl rfl id
        exact hkeeps.ioDone hap hof hhas _ _
    next => cases hs
  | write r =>
    simp only [doitStep] at hs
    split at hs
    next i hpc =>
      obtain ⟨b, hb, rfl⟩ := Option.map_eq_some_iff.mp hs
      obtain ⟨hof, hkeeps, hhas⟩ := h.served (sameSetup_write hb) (h.busy i false true hpc)
        { s with cb := update s.cb i b } rfl rfl id
      exact hkeeps.ioDone hap hof hhas _ _
    next => cases hs
  | exits sig collected child =>
    simp only [doitStep] at hs
    split at hs
    next =>
      obtain rfl := Option.some.inj hs
      obtain ⟨hcb, -, hopen⟩ := afterIo_same s sig collected child
      obtain ⟨hgot, hpc⟩ := afterIo_pc s sig collected child
      refine ⟨fun j => hcb ▸ h.of j, fun j hj => ?_, fun j dr dw hj => absurd hj (hpc j dr dw)⟩
      rw [myCopydone_congr hcb hgot] at hj
      rw [Doit.Has, hcb, hopen]
      exact h.has j hj
    next => cases hs
  | poll failed =>
    simp only [doitStep] at hs
    split at hs
    next hpc =>
      obtain rfl := Option.some.inj hs
      refine ⟨h.of, h.has, fun j dr dw hj => ?_⟩
      cases failed <;> cases hj
    next => cases hs

end

end SpeedyCgi.Copy
