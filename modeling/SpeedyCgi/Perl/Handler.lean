import SpeedyCgi.Cwd.Devino
import SpeedyCgi.Script.Restat

/-!
The scripts that one interpreter runs: `find_scr`, `load_script`, `speedy_perl_init` and what
`onerun` does about the script.

With a group of several scripts, the text of each is made the body of a sub in a package of its own
the first time that a request asks for its device and inode, and every request calls the sub of its
own script. Without, the script is the main program, and a sub that is made is called by nobody.

The sub is kept by reference: scripts may give its name to another sub, and even then a request calls
the one that was made from its script.
-/

namespace SpeedyCgi.Perl

open Function Lib.CString Lib.Lts Script
open Cwd (DevIno devinoStr package devinoStr_injective)

abbrev Bytes := List UInt8

/-- What can be opened from a current directory. -/
abbrev Files := DevIno → Script.Files

/-- The name of the sub that a script becomes. -/
def handlerName (devino : DevIno) : CStr := package devino ++ str "::handler"

/-- The text that `load_script` evaluates. -/
def handlerText (devino : DevIno) (text : Bytes) : Bytes :=
  bytes (str "package " ++ package devino ++ str "; sub handler \x7b ") ++ text ++ bytes (str "; \x7d")

/-- The interpreter, as far as the code of scripts goes. -/
structure Interp where
  /-- the sub that a name stands for -/
  sub : CStr → Option ℕ
  /-- the text that a sub was made from, unless it is undefined -/
  body : ℕ → Option Bytes
  /-- `$@` is true -/
  evalError : Bool

inductive Code
  /-- the main program -/
  | main
  | handler (text : Bytes)
  deriving DecidableEq

/-- A call of `load_script` that has returned, and the text that it evaluated. -/
structure Load where
  devino : DevIno
  path : CStr
  cwd : DevIno
  time : ℕ
  text : Bytes
  deriving DecidableEq

/-- What `perl_run` ran for a request; none if there was no sub to call. -/
structure Run where
  devino : DevIno
  code : Option Code
  deriving DecidableEq

/-- A process with an interpreter. -/
structure Backend where
  /-- `DOING_SINGLE_SCRIPT` -/
  single : Bool
  now : ℕ
  interp : Interp
  /-- the `handler` of every `SpeedyScript`, a reference to a sub -/
  handlers : List (Option ℕ) := []
  scrHash : CStr → Option ℕ := fun _ => none
  /-- `$CGI::SpeedyCGI::_sub` -/
  sub : Option ℕ := none
  loads : List Load := []
  ran : List Run := []

/-- `find_scr`: the script, whether it is new, and the backend. -/
def findScr (devino : DevIno) (b : Backend) : ℕ × Bool × Backend :=
  match b.scrHash (devinoStr devino) with
  | some scr => (scr, false, b)
  | none => (b.handlers.length, true, { b with
      handlers := b.handlers ++ [none]
      scrHash := update b.scrHash (devinoStr devino) (some b.handlers.length) })

/-- `load_script`, where `compiled` is the interpreter that `eval_sv` leaves. -/
def loadScript (files : Files) (devino : DevIno) (scr : ℕ) (scrPath : CStr) (cwd : DevIno)
    (compiled : Interp) (b : Backend) : Except Death Backend :=
  match files cwd b.now scrPath with
  | none => .error (.die scrPath)
  | some file =>
    match if compiled.evalError then none else compiled.sub (handlerName devino) with
    | none => .error (.compile scrPath)
    | some cv => .ok { b with
        interp := compiled
        handlers := b.handlers.set scr (some cv)
        loads := ⟨devino, scrPath, cwd, b.now, handlerText devino file.bytes⟩ :: b.loads }

/-- How `speedy_perl_init` looks at the script before `perl_parse`. -/
def openDevfd (files : Files) (useDevfd : Bool) (cwd : DevIno) (s : Statics) : Except Death Statics :=
  if useDevfd then do
    let r ← scriptGetstat (files cwd) s
    scriptOpen (files cwd) r.2
  else .ok s

/-- How `speedy_perl_init` loads the script, if there is a group. -/
def preload (files : Files) (cwd : DevIno) (compiled : Interp) (scr : ℕ) (s : Statics) (b : Backend) :
    Except Death Backend :=
  let failure := scriptOpenFailure (files cwd) s
  if b.single = false ∧ failure.1 = 0 then do
    let r ← scriptGetstat (files cwd) failure.2
    loadScript files r.1.devino scr (r.2.fname.getD []) cwd compiled b
  else .ok b

/-- `speedy_perl_init`: `parsed` is the interpreter that `perl_parse` leaves at time `later`, and
`compiled` the one that `eval_sv` leaves. -/
def perlInit (files : Files) (single setuid : Bool) (cwd : DevIno) (later : ℕ)
    (parsed compiled : Interp) (s : Statics) : Except Death Backend := do
  let s ← openDevfd files (single && setuid) cwd s
  -- `perl_parse` and `cleanup_after_perl`
  let s := utilTimeInvalidate { s with now := later }
  let s := if single && setuid then scriptClose s else s
  let r ← scriptGetstat (files cwd) s
  let scr := findScr r.1.devino { single, now := later, interp := parsed }
  preload files cwd compiled scr.1 r.2 scr.2.2

/-- What a request says of its script. -/
structure Request where
  scrPath : CStr
  feScr : DevIno

/-- What `perl_run` is to run. -/
def Backend.code (b : Backend) : Option Code :=
  if b.single then some .main else (b.sub.bind b.interp.body).map .handler

/-- How `onerun` finds the script and loads it if it is new: the script, and the backend. -/
def loadNew (files : Files) (cwd : DevIno) (compiled : Interp) (r : Request) (b : Backend) :
    Except Death (ℕ × Backend) :=
  let scr := findScr r.feScr b
  if scr.2.1 then
    (loadScript files r.feScr scr.1 r.scrPath cwd compiled scr.2.2).map fun b => (scr.1, b)
  else .ok (scr.1, scr.2.2)

/-- What `onerun` does about the script. -/
def onerun (files : Files) (cwd : DevIno) (compiled : Interp) (r : Request) (b : Backend) :
    Except Death Backend := do
  let scr ← loadNew files cwd compiled r b
  let b := if b.single then scr.2 else { scr.2 with sub := (scr.2.handlers[scr.1]?).join }
  pure { b with ran := ⟨r.feScr, b.code⟩ :: b.ran }

inductive Act
  /-- time goes on -/
  | elapse (now : ℕ)
  /-- a request, whose current directory is `cwd` by then -/
  | request (r : Request) (cwd : DevIno) (compiled : Interp)
  /-- a script has run -/
  | perl (interp : Interp)

def step (files : Files) (b : Backend) : Act → Option Backend
  | .elapse now => if b.now ≤ now then some { b with now } else none
  | .request r cwd compiled =>
    match onerun files cwd compiled r b with
    | .ok b => some b
    | .error _ => none
  | .perl interp => some { b with interp }

/-- What Perl code may do to the subs of scripts: whatever it does to their names, it does not undefine
a sub that is referred to, and does not define the sub of a script that has not been found. -/
structure Keeps (b : Backend) (i : Interp) : Prop where
  body : ∀ cv, some cv ∈ b.handlers → i.body cv = b.interp.body cv
  sub : ∀ d, b.scrHash (devinoStr d) = none →
    i.sub (handlerName d) = b.interp.sub (handlerName d)

/-- What evaluating the text of a script may do. -/
structure Evaluates (b : Backend) (devino : DevIno) (text : Bytes) (i : Interp) : Prop extends
    Keeps b i where
  own : i.sub (handlerName devino) = none ∨
    i.sub (handlerName devino) = b.interp.sub (handlerName devino) ∨
    ∃ cv, i.sub (handlerName devino) = some cv ∧ i.body cv = some text

/-- What is assumed of the scripts. -/
def Fair (files : Files) (b : Backend) : Act → Prop
  | .elapse _ => True
  | .request r cwd compiled => b.scrHash (devinoStr r.feScr) = none →
    ∀ file, files cwd b.now r.scrPath = some file →
      Evaluates (findScr r.feScr b).2.2 r.feScr (handlerText r.feScr file.bytes) compiled
  | .perl interp => Keeps b interp

/-- A backend that has not served anybody: its process has looked at the script if at all since it
began, and none of the subs of scripts was there before. -/
structure Started (files : Files) (single : Bool) (b : Backend) : Prop where
  init : ∃ (setuid : Bool) (cwd : DevIno) (began waited later : ℕ) (parsed compiled : Interp)
    (s : Statics), perlInit files single setuid cwd later parsed compiled s = .ok b ∧
      Current (files cwd) began waited s ∧ 0 < waited ∧ 0 ≤ s.restatTimeout ∧ s.now ≤ later ∧
      (∀ d, parsed.sub (handlerName d) = none) ∧
      ∀ l ∈ b.loads, Evaluates (findScr l.devino { single, now := later, interp := parsed }).2.2
        l.devino l.text compiled

abbrev Reachable (files : Files) (b₀ : Backend) : Backend → Prop :=
  ReachOk (step files) b₀ (Fair files)

/-! ### The subs of scripts -/

section
variable {files : Files} {single : Bool} {b b₀ b' : Backend} {d d' : DevIno} {cwd : DevIno}
  {compiled : Interp} {path : CStr} {a : Act}

lemma handlerName_injective : Injective handlerName := fun _ _ h =>
  devinoStr_injective (List.append_cancel_left (List.append_cancel_right h))

/-- What a call of `load_script` has done. -/
structure Load.Read (files : Files) (l : Load) : Prop where
  read : ∃ file, files l.cwd l.time l.path = some file ∧ l.text = handlerText l.devino file.bytes

/-- What is known of every script; `loading` is one that has been found to be new. -/
structure Inv (files : Files) (loading : Option DevIno) (b : Backend) : Prop where
  lt : ∀ d i, b.scrHash (devinoStr d) = some i → i < b.handlers.length
  inj : ∀ d d' i, b.scrHash (devinoStr d) = some i → b.scrHash (devinoStr d') = some i → d = d'
  loaded : b.single = false → ∀ d i, loading ≠ some d → b.scrHash (devinoStr d) = some i →
    ∃ cv, b.handlers[i]? = some (some cv) ∧
      ∃ l ∈ b.loads, l.devino = d ∧ b.interp.body cv = some l.text
  fresh : ∀ d, loading = some d ∨ b.scrHash (devinoStr d) = none →
    b.interp.sub (handlerName d) = none ∧ ∀ l ∈ b.loads, l.devino ≠ d
  nodup : (b.loads.map (·.devino)).Nodup
  read : ∀ l ∈ b.loads, l.Read files
  ran : ∀ r ∈ b.ran, if b.single = true then r.code = some .main
    else ∃ l ∈ b.loads, l.devino = r.devino ∧ r.code = some (.handler l.text)

/-- `find_scr` of a script that is new, and of one that is not. -/
lemma Inv.findScr (h : Inv files none b) (d : DevIno) :
    Inv files (if (findScr d b).2.1 then some d else none) (findScr d b).2.2 ∧
    (findScr d b).2.2.scrHash (devinoStr d) = some (findScr d b).1 ∧
    ((findScr d b).2.1 = true ↔ b.scrHash (devinoStr d) = none) := by
  unfold Perl.findScr
  cases hd : b.scrHash (devinoStr d) with
  | some scr => exact ⟨by simpa using h, hd, by simp⟩
  | none =>
    refine ⟨⟨fun d' i hi => ?_, fun d₁ d₂ i h₁ h₂ => ?_, fun hs d' i hne hi => ?_, fun d' hd' => ?_,
      h.nodup, h.read, h.ran⟩, by simp, by simp⟩
    · simp only [update_apply, List.length_append, List.length_singleton] at hi ⊢
      split at hi
      · obtain rfl : b.handlers.length = i := by simpa using hi
        omega
      · exact Nat.lt_succ_of_lt (h.lt d' i hi)
    · have hnew : ∀ d, b.scrHash (devinoStr d) ≠ some b.handlers.length :=
        fun d hk => absurd (h.lt d _ hk) (by simp)
      simp only [update_apply] at h₁ h₂
      split at h₁ <;> split at h₂
      · exact devinoStr_injective (by simp [*])
      · obtain rfl : b.handlers.length = i := by simpa using h₁
        exact absurd h₂ (hnew d₂)
      · obtain rfl : b.handlers.length = i := by simpa using h₂
        exact absurd h₁ (hnew d₁)
      · exact h.inj d₁ d₂ i h₁ h₂
    · -- the script in question is another one
      have hne : devinoStr d' ≠ devinoStr d := by
        intro heq
        simp [devinoStr_injective heq] at hne
      have hi : b.scrHash (devinoStr d') = some i := by simpa [hne] using hi
      obtain ⟨cv, hhandler, hload⟩ := h.loaded hs d' i (by simp) hi
      exact ⟨cv, by rw [List.getElem?_append_left (h.lt d' i hi)]; exact hhandler, hload⟩
    · refine h.fresh d' (.inr ?_)
      rcases hd' with hd' | hd'
      · obtain rfl : d = d' := by simpa using hd'
        exact hd
      · simp only [update_apply] at hd'
        split at hd'
        · cases hd'
        · exact hd'

@[simp] lemma findScr_now (d : DevIno) (b : Backend) : (findScr d b).2.2.now = b.now := by
  unfold findScr; split <;> rfl
@[simp] lemma findScr_interp (d : DevIno) (b : Backend) : (findScr d b).2.2.interp = b.interp := by
  unfold findScr; split <;> rfl
@[simp] lemma findScr_single (d : DevIno) (b : Backend) : (findScr d b).2.2.single = b.single := by
  unfold findScr; split <;> rfl

lemma mem_loadScript {scr : ℕ} {file : File} (hl : loadScript files d scr path cwd compiled b = .ok b')
    (hfile : files cwd b.now path = some file) :
    ⟨d, path, cwd, b.now, handlerText d file.bytes⟩ ∈ b'.loads := by
  unfold loadScript at hl
  rw [hfile] at hl
  dsimp only at hl
  split at hl <;> cases hl
  exact List.mem_cons_self

/-- The handlers of scripts that have been loaded stay what they are. -/
lemma Inv.loaded_of_keeps {i : Interp} {loading : Option DevIno} (h : Inv files loading b)
    (hi : Keeps b i) (hs : b.single = false) {d : DevIno} {scr : ℕ} (hne : loading ≠ some d)
    (hscr : b.scrHash (devinoStr d) = some scr) : ∃ cv, b.handlers[scr]? = some (some cv) ∧
      ∃ l ∈ b.loads, l.devino = d ∧ i.body cv = some l.text := by
  obtain ⟨cv, hhandler, l, hl, hld, hbody⟩ := h.loaded hs d scr hne hscr
  exact ⟨cv, hhandler, l, hl, hld, (hi.body cv (List.mem_of_getElem? hhandler)).trans hbody⟩

/-- `load_script` of a script that is new. -/
lemma Inv.loadScript {scr : ℕ} (h : Inv files (some d) b) (hscr : b.scrHash (devinoStr d) = some scr)
    (hev : ∀ file, files cwd b.now path = some file →
      Evaluates b d (handlerText d file.bytes) compiled)
    (hl : loadScript files d scr path cwd compiled b = .ok b') :
    Inv files none b' ∧ b'.scrHash = b.scrHash ∧ b'.single = b.single := by
  unfold Perl.loadScript at hl
  split at hl
  · cases hl
  rename_i file hfile
  split at hl
  · cases hl
  rename_i cv hok
  cases hl
  obtain ⟨hkeeps, hown⟩ := hev file hfile
  obtain ⟨hnone, hnew⟩ := h.fresh d (.inl rfl)
  have hcv : compiled.sub (handlerName d) = some cv := by
    split at hok
    · cases hok
    · exact hok
  -- the sub was not there before
  have htext : compiled.body cv = some (handlerText d file.bytes) := by
    obtain hn | hn | ⟨cv', hn, hbody⟩ := hown
    · simp [hn] at hcv
    · simp [hn, hnone] at hcv
    · obtain rfl : cv' = cv := Option.some.inj (hn.symm.trans hcv)
      exact hbody
  refine ⟨⟨fun d' i hi => ?_, h.inj, fun hs d' i _ hi => ?_, fun d' hd' => ?_, ?_, ?_, fun r hr => ?_⟩,
    rfl, rfl⟩
  · simpa using h.lt d' i hi
  · by_cases hd' : d' = d
    · subst hd'
      obtain rfl : scr = i := Option.some.inj (hscr.symm.trans hi)
      exact ⟨cv, by simp [h.lt d' scr hi], _, List.mem_cons_self, rfl, htext⟩
    · obtain ⟨cv', hhandler, l, hl, hld, hbody⟩ :=
        h.loaded_of_keeps hkeeps hs (by simpa using Ne.symm hd') hi
      have hne : scr ≠ i := fun heq => hd' (h.inj d' d i hi (heq ▸ hscr))
      exact ⟨cv', by simpa [hne] using hhandler, l, List.mem_cons_of_mem _ hl, hld, hbody⟩
  · have hne : d' ≠ d := by
      rintro rfl
      simp [hscr] at hd'
    have hd' : b.scrHash (devinoStr d') = none := by simpa using hd'
    obtain ⟨hnone', hnew'⟩ := h.fresh d' (.inr hd')
    exact ⟨(hkeeps.sub d' hd').trans hnone', List.forall_mem_cons.mpr ⟨hne.symm, hnew'⟩⟩
  · exact List.nodup_cons.mpr ⟨by simpa using hnew, h.nodup⟩
  · exact List.forall_mem_cons.mpr ⟨⟨file, hfile, rfl⟩, h.read⟩
  · have hran := h.ran r hr
    dsimp only at hran ⊢
    split
    · rwa [if_pos ‹_›] at hran
    · rw [if_neg ‹_›] at hran
      obtain ⟨l, hl, hlr⟩ := hran
      exact ⟨l, List.mem_cons_of_mem _ hl, hlr⟩

/-- Without groups a script that was not loaded is none of anybody's concern. -/
lemma Inv.skip (h : Inv files (some d) b) (hs : b.single = true) : Inv files none b where
  lt := h.lt
  inj := h.inj
  loaded hs' := absurd (hs.symm.trans hs') (by simp)
  fresh d' hd' := h.fresh d' (.inr (by simpa using hd'))
  nodup := h.nodup
  read := h.read
  ran := h.ran

/-! ### Requests -/

lemma except_bind_ok {α β : Type} {m : Except Death α} {k : α → Except Death β} {x : β}
    (h : (m >>= k) = .ok x) : ∃ a, m = .ok a ∧ k a = .ok x := by
  cases m with
  | error e => cases h
  | ok a => exact ⟨a, rfl, h⟩

/-- The script of a request is found, and loaded if it is new. -/
lemma Inv.loadNew {r : Request} {scr : ℕ × Backend} (h : Inv files none b)
    (hf : Fair files b (.request r cwd compiled)) (hl : loadNew files cwd compiled r b = .ok scr) :
    Inv files none scr.2 ∧ scr.2.scrHash (devinoStr r.feScr) = some scr.1 ∧
      scr.2.single = b.single := by
  obtain ⟨hinv, hscr, hnew⟩ := h.findScr r.feScr
  simp only [Perl.loadNew] at hl
  split at hl
  · rename_i his
    rw [if_pos his] at hinv
    cases hload : Perl.loadScript files r.feScr (Perl.findScr r.feScr b).1 r.scrPath cwd compiled
      (Perl.findScr r.feScr b).2.2 with
    | error e => rw [hload] at hl; cases hl
    | ok b₁ =>
      rw [hload] at hl
      cases hl
      obtain ⟨hinv', hhash, hsingle⟩ :=
        hinv.loadScript hscr (fun file hfile => hf (hnew.mp his) file (by simpa using hfile)) hload
      exact ⟨hinv', by rw [hhash]; exact hscr, by simpa using hsingle⟩
  · rename_i his
    rw [if_neg his] at hinv
    cases hl
    exact ⟨hinv, hscr, by simp⟩

lemma Inv.onerun {r : Request} (h : Inv files none b) (hf : Fair files b (.request r cwd compiled))
    (hr : onerun files cwd compiled r b = .ok b') : Inv files none b' ∧ b'.single = b.single := by
  unfold Perl.onerun at hr
  obtain ⟨scr, hl, hr⟩ := except_bind_ok hr
  obtain ⟨hinv, hscr, hsingle⟩ := h.loadNew hf hl
  rw [← hsingle] at hr ⊢
  cases hr
  split
  · rename_i hs
    refine ⟨⟨hinv.lt, hinv.inj, hinv.loaded, hinv.fresh, hinv.nodup, hinv.read, ?_⟩, rfl⟩
    refine List.forall_mem_cons.mpr ⟨?_, hinv.ran⟩
    simp [hs, Backend.code]
  · rename_i hs
    have hs : scr.2.single = false := by simpa using hs
    obtain ⟨cv, hhandler, l, hl, hld, hbody⟩ := hinv.loaded hs r.feScr _ (by simp) hscr
    refine ⟨⟨hinv.lt, hinv.inj, hinv.loaded, hinv.fresh, hinv.nodup, hinv.read, ?_⟩, rfl⟩
    refine List.forall_mem_cons.mpr ⟨?_, hinv.ran⟩
    simp only [hs, Bool.false_eq_true, if_false]
    exact ⟨l, hl, hld, by simp [Backend.code, hhandler, hbody]⟩

lemma step_inv (h : Inv files none b) (hf : Fair files b a) (hs : step files b a = some b') :
    Inv files none b' ∧ b'.single = b.single := by
  cases a with
  | elapse now =>
    simp only [step] at hs
    split at hs <;> cases hs
    exact ⟨⟨h.lt, h.inj, h.loaded, h.fresh, h.nodup, h.read, h.ran⟩, rfl⟩
  | request r cwd compiled =>
    simp only [step] at hs
    split at hs <;> cases hs
    exact h.onerun hf ‹_›
  | perl interp =>
    cases hs
    refine ⟨⟨h.lt, h.inj, fun hs d i hne hi => h.loaded_of_keeps hf hs hne hi, fun d hd => ?_, h.nodup,
      h.read, h.ran⟩, rfl⟩
    have hd : b.scrHash (devinoStr d) = none := by simpa using hd
    obtain ⟨hnone, hnew⟩ := h.fresh d (.inr hd)
    exact ⟨(hf.sub d hd).trans hnone, hnew⟩

/-! ### The start -/

lemma openDevfd_current {useDevfd : Bool} {began waited : ℕ} {s t : Statics}
    (h : Current (files cwd) began waited s) (hpos : 0 < waited) (ht : 0 ≤ s.restatTimeout)
    (ho : openDevfd files useDevfd cwd s = .ok t) :
    Current (files cwd) began waited t ∧ Same s t := by
  unfold openDevfd at ho
  split at ho
  · obtain ⟨r, hr, ho⟩ := except_bind_ok ho
    obtain ⟨hcur, hsame, -⟩ := h.scriptOpen hpos ht (scriptGetstat_ok hr).1
    obtain ⟨hcur', hsame', -⟩ := hcur.scriptOpen hpos (hsame.restatTimeout ▸ ht) ho
    exact ⟨hcur', hsame'.now.trans hsame.now, hsame'.fname.trans hsame.fname,
      hsame'.restatTimeout.trans hsame.restatTimeout⟩
  · cases ho
    exact ⟨h, rfl, rfl, rfl⟩

/-- The script that `speedy_perl_init` has just looked at is open, so that it is loaded. -/
lemma Inv.preload {scr : ℕ} {s : Statics} (h : Inv files (some d) b)
    (hscr : b.scrHash (devinoStr d) = some scr) (hfound : Found s) (hd : s.stat.devino = d)
    (hev : ∀ l ∈ b'.loads, l.devino = d → Evaluates b l.devino l.text compiled)
    (hp : preload files cwd compiled scr s b = .ok b') : Inv files none b' ∧ b'.single = b.single := by
  unfold Perl.preload at hp
  dsimp only at hp
  rw [openFailure_found hfound] at hp
  split at hp
  · rename_i hgroup
    obtain ⟨r, hr, hload⟩ := except_bind_ok hp
    obtain ⟨ho, hstat⟩ := scriptGetstat_ok hr
    have hsame := scriptOpen_ok ho
    rw [openFailure_found hfound] at hsame
    obtain rfl : s = r.2 := congrArg Prod.snd hsame
    rw [hstat, hd] at hload
    obtain ⟨hinv, -, hsingle⟩ :=
      h.loadScript hscr (fun file hfile => hev _ (mem_loadScript hload hfile) rfl) hload
    exact ⟨hinv, hsingle⟩
  · rename_i hgroup
    cases hp
    exact ⟨h.skip (by simpa using hgroup), rfl⟩

lemma inv_empty (single : Bool) (now : ℕ) {interp : Interp}
    (h : ∀ d, interp.sub (handlerName d) = none) : Inv files none { single, now, interp } where
  lt _ _ hi := absurd hi (by simp)
  inj _ _ _ hi := absurd hi (by simp)
  loaded _ _ _ _ hi := absurd hi (by simp)
  fresh d _ := ⟨h d, by simp⟩
  nodup := List.nodup_nil
  read := by simp
  ran := by simp

lemma Started.inv (h : Started files single b) : Inv files none b ∧ b.single = single := by
  obtain ⟨setuid, cwd, began, waited, later, parsed, compiled, s, hinit, hcur, hpos, ht, hlater, hnone,
    hev⟩ := h.init
  unfold perlInit at hinit
  obtain ⟨s₁, hs₁, hinit⟩ := except_bind_ok hinit
  obtain ⟨hcur₁, hsame₁⟩ := openDevfd_current hcur hpos ht hs₁
  -- the clock is read again after `perl_parse`
  have hcur₂ := (hcur₁.later (hsame₁.now ▸ hlater)).invalidate
  have hcur₃ : Current (files cwd) began later (if (single && setuid) = true
      then scriptClose (utilTimeInvalidate { s₁ with now := later })
      else utilTimeInvalidate { s₁ with now := later }) := by
    split
    · exact hcur₂.close
    · exact hcur₂
  obtain ⟨r, hr, hinit⟩ := except_bind_ok hinit
  obtain ⟨ho, hstat⟩ := scriptGetstat_ok hr
  have hle : waited ≤ later := (hcur₁.later (hsame₁.now ▸ hlater)).le_now
  obtain ⟨-, -, hfound⟩ := hcur₃.scriptOpen (hpos.trans_le hle)
    (by split <;> exact hsame₁.restatTimeout ▸ ht) ho
  obtain ⟨hinv, hscr, hnew⟩ := (inv_empty single later hnone).findScr r.1.devino
  rw [if_pos (hnew.mpr rfl)] at hinv
  obtain ⟨hinv', hsingle⟩ :=
    hinv.preload hscr hfound (by rw [hstat]) (fun l hl hld => hld ▸ hev l hl) hinit
  exact ⟨hinv', by simpa using hsingle⟩

/-- Every request runs the code of its own script: the main program if there is no group, and else the
text that was read when the script was new, in its own package, whatever has become of the name of its
sub. No script is read again, and none that has been read can make a request fail. -/
theorem own_handler (h₀ : Started files single b₀) (h : Reachable files b₀ b) :
    (∀ r ∈ b.ran, if single = true then r.code = some .main
      else ∃ l ∈ b.loads, l.devino = r.devino ∧ r.code = some (.handler l.text)) ∧
    (b.loads.map (·.devino)).Nodup ∧
    (∀ l ∈ b.loads, l.Read files) ∧
    ∀ r cwd compiled e, onerun files cwd compiled r b = .error e → ∀ l ∈ b.loads, l.devino ≠ r.feScr := by
  have hinv : Inv files none b ∧ b.single = single := by
    refine h.inv (P := fun b => Inv files none b ∧ b.single = single) h₀.inv fun _ _ _ _ hb hf hs => ?_
    obtain ⟨hinv, hsingle⟩ := step_inv hb.1 hf hs
    exact ⟨hinv, hsingle.trans hb.2⟩
  obtain ⟨hinv, rfl⟩ := hinv
  refine ⟨hinv.ran, hinv.nodup, hinv.read, fun r cwd compiled e he l hl hld => ?_⟩
  -- a script that has been read is not new
  cases hd : b.scrHash (devinoStr r.feScr) with
  | none => exact (hinv.fresh _ (.inr hd)).2 l hl hld
  | some scr => simp [onerun, loadNew, findScr, hd] at he

/-- The interpreter in which a name stands for a sub made from a text. -/
def Interp.with (i : Interp) (name : CStr) (cv : ℕ) (text : Bytes) : Interp where
  sub := update i.sub name (some cv)
  body := update i.body cv (some text)
  evalError := false

lemma keeps_with {d : DevIno} {scr cv : ℕ} {text : Bytes} (hd : b.scrHash (devinoStr d) = some scr)
    (hcv : some cv ∉ b.handlers) : Keeps b (b.interp.with (handlerName d) cv text) where
  body cv' hcv' := by
    have hne : cv' ≠ cv := by
      rintro rfl
      exact hcv hcv'
    simp [Interp.with, hne]
  sub d' hd' := by
    have hne : d' ≠ d := by
      rintro rfl
      simp [hd] at hd'
    simp [Interp.with, handlerName_injective.ne hne]

lemma evaluates_with {cv : ℕ} {text : Bytes} (hd : b.scrHash (devinoStr d) = none)
    (hcv : some cv ∉ b.handlers) :
    Evaluates (findScr d b).2.2 d text (b.interp.with (handlerName d) cv text) := by
  refine ⟨?_, .inr (.inr ⟨cv, by simp [Interp.with], by simp [Interp.with]⟩)⟩
  rw [← findScr_interp d b]
  have hnew : (findScr d b).2.2.scrHash (devinoStr d) = some b.handlers.length := by
    simp [findScr, hd]
  exact keeps_with hnew (by simpa [findScr, hd] using hcv)

/-- Scripts `a` and `b`. -/
def twoScripts : Files := fun _ _ path =>
  if path = str "a" then some ⟨⟨⟨1, 1⟩, 1⟩, bytes (str "x")⟩
  else if path = str "b" then some ⟨⟨⟨7, 1⟩, 1⟩, bytes (str "y")⟩ else none

/-- Before any script. -/
def Interp.empty : Interp := ⟨fun _ => none, fun _ => none, false⟩

/-- Script `b`, which then gives the name of the handler of `a` to a sub of its own, and `a` again. -/
theorem own_handler_two : ∃ b : Backend,
    b.ran.map (·.code) = [some (.handler (handlerText ⟨1, 1⟩ (bytes (str "x")))),
      some (.handler (handlerText ⟨7, 1⟩ (bytes (str "y"))))] ∧
    b.interp.sub (handlerName ⟨1, 1⟩) = some 3 ∧ (b.loads.map (·.devino)).Nodup := by
  have hrun : ∃ b₀ b₁ b₂ b, perlInit twoScripts false false 0 1 .empty
        (Interp.empty.with (handlerName ⟨1, 1⟩) 1 (handlerText ⟨1, 1⟩ (bytes (str "x"))))
        { now := 1, fname := some (str "a") } = .ok b₀ ∧
      b₀.loads = [⟨⟨1, 1⟩, str "a", 0, 1, handlerText ⟨1, 1⟩ (bytes (str "x"))⟩] ∧
      b₀.scrHash (devinoStr ⟨7, 1⟩) = none ∧ b₀.handlers = [some 1] ∧
      step twoScripts b₀ (.request ⟨str "b", ⟨7, 1⟩⟩ 0
        (b₀.interp.with (handlerName ⟨7, 1⟩) 2 (handlerText ⟨7, 1⟩ (bytes (str "y"))))) = some b₁ ∧
      b₁.scrHash (devinoStr ⟨1, 1⟩) = some 0 ∧ b₁.handlers = [some 1, some 2] ∧
      step twoScripts b₁ (.perl (b₁.interp.with (handlerName ⟨1, 1⟩) 3 [])) = some b₂ ∧
      b₂.scrHash (devinoStr ⟨1, 1⟩) = some 0 ∧
      step twoScripts b₂ (.request ⟨str "a", ⟨1, 1⟩⟩ 0 b₂.interp) = some b ∧
      b.ran.map (·.code) = [some (.handler (handlerText ⟨1, 1⟩ (bytes (str "x")))),
        some (.handler (handlerText ⟨7, 1⟩ (bytes (str "y"))))] ∧
      b.interp.sub (handlerName ⟨1, 1⟩) = some 3 :=
    ⟨_, _, _, _, rfl, rfl, rfl, rfl, rfl, rfl, rfl, rfl, rfl, rfl, rfl, rfl⟩
  obtain ⟨b₀, b₁, b₂, b, h₀, hloads, hnew, hh₀, h₁, hknown₁, hh₁, h₂, hknown₂, h₃, hran, hname⟩ := hrun
  have hstarted : Started twoScripts false b₀ := by
    refine ⟨false, 0, 1, 1, 1, _, _, _, h₀, ⟨le_refl _, le_refl _, fun h => absurd rfl h,
      fun h => absurd rfl h⟩, by decide, by decide, le_refl _, fun _ => rfl, fun l hl => ?_⟩
    obtain rfl : l = _ := List.mem_singleton.mp (hloads ▸ hl)
    exact evaluates_with rfl (by simp)
  have hfair₁ : Fair twoScripts b₀ (.request ⟨str "b", ⟨7, 1⟩⟩ 0
      (b₀.interp.with (handlerName ⟨7, 1⟩) 2 (handlerText ⟨7, 1⟩ (bytes (str "y"))))) := by
    intro _ file hfile
    obtain rfl : _ = file :=
      Option.some.inj (show some ⟨⟨⟨7, 1⟩, 1⟩, bytes (str "y")⟩ = some file from hfile)
    exact evaluates_with hnew (by simp [hh₀])
  have hfair₂ : Fair twoScripts b₁ (.perl (b₁.interp.with (handlerName ⟨1, 1⟩) 3 [])) :=
    keeps_with hknown₁ (by simp [hh₁])
  have hfair₃ : Fair twoScripts b₂ (.request ⟨str "a", ⟨1, 1⟩⟩ 0 b₂.interp) := fun hnew => by
    rw [hknown₂] at hnew
    cases hnew
  exact ⟨b, hran, hname,
    (own_handler hstarted ((((ReachOk.init).step hfair₁ h₁).step hfair₂ h₂).step hfair₃ h₃)).2.1⟩

end

end SpeedyCgi.Perl
