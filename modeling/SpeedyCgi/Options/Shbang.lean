import SpeedyCgi.Lib.Lts
import SpeedyCgi.Options.ExecArgv
import SpeedyCgi.Options.SaveRestore

/-!
The options on the first line of the script: `speedy_opt_read_shbang` and `speedy_opt_perl_argv`.

They are not in the vector that the backend is started with; the backend reads the line again. The
Apache module reads the line of each request's script in one process, after the options have been
restored. A restore brings back the strings only, so the integers and toggles of the lines add up in
such a process, and a backend does not get them.
-/

namespace SpeedyCgi.Options

open Lib.CString Lib.Lts

/-! ### The line -/

def toChar (b : UInt8) : Option CChar := if h : b ≠ 0 then some ⟨b, h⟩ else none

/-- The string that begins at some bytes. -/
def cstr (s : List UInt8) : CStr := (s.takeWhile (· ≠ 0)).filterMap toChar

/-- What follows the interpreter on the first line, if the script begins with `#!`. -/
def shbangLine (maddr : List UInt8) : Option CStr :=
  if maddr.length > 2 ∧ maddr.take 2 = bytes (str "#!") then
    let s := (maddr.drop 2).dropWhile fun b => !(toChar b).any isspace
    some (cstr (s.takeWhile (· ≠ (ch '\n').val)))
  else none

/-- The part of the script that is mapped. -/
def scriptMmap (maxSize : ℕ) (script : List UInt8) : List UInt8 := script.take maxSize

/-- `speedy_opt_restore`, where `saved` is the table that `speedy_opt_save` has put away. The records
point to the saved values again; an integer or a toggle has its value in a cell of its own, which stays
as it is. -/
def OptTable.restore (saved t : OptTable) : OptTable where
  val o := if o.type = .str then saved.val o else t.val o
  changed := saved.changed

@[simp] lemma OptTable.restore_val (saved t : OptTable) (o : OptName) :
    (saved.restore t).val o = if o.type = .str then saved.val o else t.val o := rfl

/-- In memory it is the same. -/
theorem OptMem.Saved.restore_table {m₀ m : OptMem} (h₀ : m₀.Wf) (h : OptMem.Saved m₀ m)
    {saved t : OptTable} (hsaved : ∀ o, m₀.val o = some (saved.val o))
    (ht : ∀ o, m.val o = some (t.val o)) :
    ∃ m', m.speedyOptRestore = .ok m' ∧ ∀ o, m'.val o = some ((saved.restore t).val o) := by
  obtain ⟨m', hm', -, hstr, hint⟩ := h.restore h₀
  refine ⟨m', hm', fun o => ?_⟩
  rw [OptTable.restore_val]
  by_cases ho : o.type = .str
  · rw [hstr o ho, hsaved, if_pos ho]
  · rw [hint o ho, ht, if_neg ho]

structure OptProc where
  st : OptState
  gotShbang : Bool

namespace OptProc

def readShbang (script : List UInt8) (p : OptProc) : Except Death OptProc :=
  if p.gotShbang then .ok p
  else match shbangLine (scriptMmap 1024 script) with
    | none => .ok { p with gotShbang := true }
    | some line =>
      let s := cmdlineSplit [[], line] p.st.perlArgv
      (processSpeedyOpts p.st.table s.speedyOpts).map fun table =>
        { st := { p.st with table, perlArgv := [] :: s.perlArgs.tail }, gotShbang := true }

/-- `speedy_opt_init`; no line has been read. -/
def init (t : OptTable) (argv envp : List CStr) : Except Death OptProc :=
  (speedyOptInit t argv envp).map fun st => ⟨st, false⟩

def setScriptArgv (argv : List CStr) (p : OptProc) : OptProc := ⟨speedyOptSetScriptArgv p.st argv, false⟩

def restore (saved : OptTable) (p : OptProc) : OptProc :=
  { p with st := { p.st with table := saved.restore p.st.table } }

end OptProc

/-- The vector for the interpreter; `scriptName` stands for the script, if there is one. -/
def speedyOptPerlArgv (st : OptState) (scriptName : Option CStr) : List CStr :=
  st.perlArgv ++ scriptName.toList ++ (speedyOptScriptArgv st).drop (if scriptName.isSome then 1 else 0)

/-! ### The requests of one process -/

inductive ProcAct
  | restore
  | setScriptArgv (argv : List CStr)
  | readShbang (script : List UInt8)

/-- What a process does with its options after it has saved them. -/
def OptProc.step (saved : OptTable) (p : OptProc) : ProcAct → Option OptProc
  | .restore => some (p.restore saved)
  | .setScriptArgv argv => some (p.setScriptArgv argv)
  | .readShbang script => (p.readShbang script).toOption

/-- The settings of the line, and its perl arguments. -/
def shbangSettings (script : List UInt8) : List (OptName × CStr) :=
  (shbangLine (scriptMmap 1024 script)).elim [] fun line => settings [[], line]

def shbangPerlArgs (script : List UInt8) : List CStr :=
  (shbangLine (scriptMmap 1024 script)).elim [] fun line => (cmdlineSplit [[], line] []).perlArgs

/-- The name that perl is started under, which was `arg0` before. -/
def shbangArg0 (script : List UInt8) (arg0 : CStr) : CStr :=
  (shbangLine (scriptMmap 1024 script)).elim arg0 fun _ => []

/-- All options of the line are known. -/
def ShbangOk (script : List UInt8) : Prop :=
  ∀ line, shbangLine (scriptMmap 1024 script) = some line →
    ∀ s ∈ (cmdlineSplit [[], line] []).speedyOpts, (optOf s).isSome

/-- The settings of all lines that are read, where `gotShbang` says whether one has been read for the
script there is. -/
def linesRead : Bool → List ProcAct → List (OptName × CStr)
  | _, [] => []
  | gotShbang, .restore :: as => linesRead gotShbang as
  | _, .setScriptArgv _ :: as => linesRead false as
  | true, .readShbang _ :: as => linesRead true as
  | false, .readShbang script :: as => shbangSettings script ++ linesRead true as

section
variable {script : List UInt8} {p p' : OptProc}

namespace OptProc

/-- A line that has not been read yet is read, unless there is an option on it that is not known. -/
lemma readShbang_iff (hp : p.gotShbang = false) {arg0 : CStr} {rest : List CStr}
    (hperl : p.st.perlArgv = arg0 :: rest) :
    p.readShbang script = .ok p' ↔ ShbangOk script ∧ p' = ⟨{ p.st with
      table := setAll p.st.table (shbangSettings script)
      perlArgv := shbangArg0 script arg0 :: (rest ++ shbangPerlArgs script) }, true⟩ := by
  unfold readShbang ShbangOk shbangSettings shbangPerlArgs shbangArg0
  rw [hp, if_neg Bool.false_ne_true]
  cases shbangLine (scriptMmap 1024 script) with
  | none =>
    have heq : setAll p.st.table [] = p.st.table := rfl
    simp only [reduceCtorEq, false_imp_iff, implies_true, true_and, Option.elim_none, heq,
      List.append_nil, ← hperl, Except.ok.injEq]
    exact eq_comm
  | some line =>
    simp only [Option.some.injEq, forall_eq', Option.elim_some, settings]
    rw [cmdlineSplit_speedyOpts, cmdlineSplit_perlArgs, hperl, List.cons_append, List.tail_cons]
    cases ht : processSpeedyOpts p.st.table (cmdlineSplit [[], line] []).speedyOpts with
    | error e =>
      simp only [Except.map, reduceCtorEq, false_iff, not_and]
      intro hall
      rw [processSpeedyOpts_of hall] at ht
      cases ht
    | ok t =>
      obtain ⟨hall, rfl⟩ := processSpeedyOpts_ok ht
      simp only [Except.map, Except.ok.injEq]
      exact ⟨fun h => ⟨hall, h.symm⟩, fun h => h.2.symm⟩

/-- Whatever lines have been read, the vector for the backend has the options of `speedy_opt_init`. -/
def Kept (st : OptState) (p : OptProc) : Prop := ∃ table arg0 perl rest, p.st = { st with
  table
  perlArgv := arg0 :: perl
  execArgv := st.execArgv.take st.scriptArgvLoc ++ rest }

variable {st : OptState} {saved : OptTable}

lemma Kept.restore (h : p.Kept st) : (p.restore saved).Kept st := by
  obtain ⟨table, arg0, perl, rest, h⟩ := h
  exact ⟨_, arg0, perl, rest, by rw [OptProc.restore, h]⟩

lemma Kept.setScriptArgv (hloc : st.scriptArgvLoc ≤ st.execArgv.length) (h : p.Kept st)
    (argv : List CStr) : ∃ arg0 perl, (p.setScriptArgv argv).st = { st with
      table := p.st.table
      perlArgv := arg0 :: perl
      execArgv := st.execArgv.take st.scriptArgvLoc ++ argv } := by
  obtain ⟨table, arg0, perl, rest, h⟩ := h
  refine ⟨arg0, perl, ?_⟩
  simp only [OptProc.setScriptArgv, speedyOptSetScriptArgv, h]
  rw [List.take_left' (List.length_take_of_le hloc)]

lemma step_readShbang (hs : p.step saved (.readShbang script) = some p') :
    p.readShbang script = .ok p' := by
  simp only [OptProc.step] at hs
  cases hr : p.readShbang script with
  | error e => simp [hr, Except.toOption] at hs
  | ok q => simpa [hr, Except.toOption] using hs

lemma Kept.step (hloc : st.scriptArgvLoc ≤ st.execArgv.length) (h : p.Kept st) {a : ProcAct}
    (hs : p.step saved a = some p') : p'.Kept st := by
  cases a with
  | restore => exact Option.some.inj hs ▸ h.restore
  | setScriptArgv argv =>
    obtain rfl := Option.some.inj hs
    obtain ⟨arg0, perl, h⟩ := h.setScriptArgv hloc argv
    exact ⟨_, arg0, perl, argv, h⟩
  | readShbang script =>
    have hs := step_readShbang hs
    by_cases hp : p.gotShbang = true
    · rw [readShbang, if_pos hp] at hs
      exact Except.ok.inj hs ▸ h
    · obtain ⟨table, arg0, perl, rest, h⟩ := h
      obtain ⟨-, rfl⟩ := (readShbang_iff (Bool.not_eq_true _ ▸ hp) (by rw [h])).mp hs
      exact ⟨_, _, _, rest, by rw [h]⟩

/-- The integers and toggles are those of all lines that have been read. -/
lemma Kept.run_val (hloc : st.scriptArgvLoc ≤ st.execArgv.length) (h : p.Kept st) {as : List ProcAct}
    (hr : run (OptProc.step saved) p as = some p') {o : OptName} (ho : o.type ≠ .str) :
    p'.st.table.val o = after o (p.st.table.val o) (linesRead p.gotShbang as) := by
  induction as generalizing p with
  | nil =>
    obtain rfl : p = p' := Option.some.inj hr
    rfl
  | cons a as ih =>
    obtain ⟨q, hq, hr⟩ := Option.bind_eq_some_iff.mp hr
    have ih := ih (h.step hloc hq) hr
    cases a with
    | restore =>
      obtain rfl := Option.some.inj hq
      rw [ih]
      simp only [OptProc.restore, OptTable.restore_val, if_neg ho, linesRead]
    | setScriptArgv argv =>
      obtain rfl := Option.some.inj hq
      rw [ih]
      rfl
    | readShbang script =>
      have hq := step_readShbang hq
      cases hp : p.gotShbang with
      | true =>
        rw [readShbang, if_pos hp] at hq
        obtain rfl := Except.ok.inj hq
        rw [ih, hp]
        rfl
      | false =>
        obtain ⟨table, arg0, perl, rest, h⟩ := h
        obtain ⟨-, rfl⟩ := (readShbang_iff hp (by rw [h])).mp hq
        rw [ih, setAll_val, linesRead, after_append]

end OptProc

end

/-! ### The backend -/

/-- A backend is started with a vector whose options come through. -/
lemma backend_init (bin : CStr) {t : OptTable} {argv envp : List CStr} {st : OptState}
    (hinit : speedyOptInit t argv envp = .ok st)
    (hwords : (∀ w ∈ perlArgsWords t, isOpt w ∧ w ≠ str "--") ∧
      ∀ o, o.letter.isSome → t.changed o → ∀ c ∈ speedyOptGet t o, isspace c = false)
    {name : CStr} (hname : NonOpt name) (args : List CStr) (arg0 : CStr) :
    ∃ be, speedyOptInit (.default bin) (arg0 :: printArgs ((cmdlineSplit argv []).perlArgs ++
        perlArgsWords t) ((cmdlineSplit argv []).speedyOpts ++ changedOpts t) (name :: args)) envp =
          .ok be ∧
      (∀ o, be.table.val o =
        after o (o.defval bin) (settings argv ++ changedSettings t ++ envSettings envp)) ∧
      be.perlArgv = str "perl" :: ((cmdlineSplit argv []).perlArgs ++ perlArgsWords t) ∧
      speedyOptScriptArgv be = name :: args := by
  obtain ⟨hsome, -⟩ := speedyOptInit_val hinit
  obtain ⟨hperl, hopts, hscript⟩ := (@cmdlineSplit_printArgs arg0 ((cmdlineSplit argv []).perlArgs ++
    perlArgsWords t) ((cmdlineSplit argv []).speedyOpts ++ changedOpts t) name hname args _ rfl).mpr
      ((words_iff t argv).mpr hwords)
  obtain ⟨be, hbe⟩ := speedyOptInit_of (.default bin) envp (by
    rw [hopts]
    exact List.forall_mem_append.mpr ⟨hsome, fun s hs => changedOpts_isSome hs⟩)
  refine ⟨be, hbe, fun o => ?_, ?_, ?_⟩
  · rw [(speedyOptInit_val hbe).2 o, settings, hopts, List.filterMap_append, filterMap_changedOpts]
    rfl
  · obtain ⟨-, -, -, hp, -⟩ := speedyOptInit_eq hbe
    rw [hp, cmdlineSplit_perlArgs, hperl]
    simp [perlArgsWords, OptTable.default]
  · rw [scriptArgv_init hbe, cmdlineSplit_eq, hscript]

lemma loc_le {t : OptTable} {argv envp : List CStr} {st : OptState}
    (hinit : speedyOptInit t argv envp = .ok st) : st.scriptArgvLoc ≤ st.execArgv.length := by
  obtain ⟨-, -, -, -, hexec, -, hloc⟩ := speedyOptInit_eq hinit
  rw [hexec, hloc]
  simp [printArgs]

lemma kept_init {t : OptTable} {argv envp : List CStr} {st : OptState}
    (hinit : speedyOptInit t argv envp = .ok st) : OptProc.Kept st ⟨st, false⟩ := by
  obtain ⟨-, -, -, hperl, -⟩ := speedyOptInit_eq hinit
  rw [cmdlineSplit_perlArgs, List.append_assoc, List.singleton_append] at hperl
  exact ⟨st.table, str "perl", _, st.execArgv.drop st.scriptArgvLoc, by
    rw [List.take_append_drop, ← hperl]⟩

/-- The frontend's vector after a line was read, but for the program. -/
lemma execArgv_eq {t : OptTable} {argv envp : List CStr} {st : OptState}
    (hinit : speedyOptInit t argv envp = .ok st) (scriptArgv : List CStr) :
    (st.execArgv.take st.scriptArgvLoc ++ scriptArgv).tail =
      printArgs ((cmdlineSplit argv []).perlArgs ++ perlArgsWords t)
        ((cmdlineSplit argv []).speedyOpts ++ changedOpts t) scriptArgv := by
  obtain ⟨st', rfl, -, -, -, arg0, hexec⟩ := setScriptArgv_eq hinit [] scriptArgv
  exact (List.cons.inj hexec).2

/-- The values of the options in the backend, before it reads the line. -/
lemma backend_val {bin : CStr} {changes : List (OptName × CStr)} {t : OptTable}
    (ht : t = setAll (.default bin) changes) {argv envp : List CStr} {st : OptState}
    (hinit : speedyOptInit t argv envp = .ok st) (hprint : Printable t argv envp) {o : OptName}
    (ho : o.letter.isSome) :
    after o (o.defval bin) (settings argv ++ changedSettings t ++ envSettings envp) = st.table.val o := by
  have hwf : t.Wf bin := ht ▸ (OptTable.wf_default bin).setAll changes
  rw [(speedyOptInit_val hinit).2 o]
  exact (after_changed_iff hwf ho _ _).mpr ⟨hprint.kept o ho, hprint.toggled o ho⟩

/-- Frontend and backend and the script's first line, whatever requests the process has had: a backend
that it starts and that reads the same line has the values of the start overridden by this line, for
all options that have a letter, and gives perl the arguments of both. The process itself has them for
the strings; its integers and toggles are those of all lines that it has read, and it agrees with the
backend as far as the earlier ones make no difference. -/
theorem backend_follows {bin : CStr} {changes : List (OptName × CStr)} {t : OptTable}
    (ht : t = setAll (.default bin) changes) {argv envp : List CStr} {st : OptState}
    (hinit : speedyOptInit t argv envp = .ok st) (hprint : Printable t argv envp)
    {as : List ProcAct} {p : OptProc}
    (h : run (OptProc.step st.table) ⟨st, false⟩ as = some p) {name : CStr} (hname : NonOpt name)
    (args : List CStr) {script : List UInt8} {fe : OptProc}
    (hfe : ((p.restore st.table).setScriptArgv (name :: args)).readShbang script = .ok fe) :
    (∀ o, fe.st.table.val o = after o (st.table.val o)
      ((if o.type = .str then [] else linesRead false as) ++ shbangSettings script)) ∧
    ∃ be₀ be, OptProc.init (.default bin) (speedyOptExecArgv fe.st) fe.st.execEnvp = .ok be₀ ∧
      be₀.readShbang script = .ok be ∧
      (∀ o, o.letter.isSome →
        be.st.table.val o = after o (st.table.val o) (shbangSettings script) ∧
        (be.st.table.val o = fe.st.table.val o ↔ o.type = .str ∨
          after o (st.table.val o) (linesRead false as ++ shbangSettings script) =
            after o (st.table.val o) (shbangSettings script))) ∧
      ∀ scriptName, speedyOptPerlArgv be.st (some scriptName) = shbangArg0 script (str "perl") ::
        ((cmdlineSplit argv []).perlArgs ++ perlArgsWords t ++ shbangPerlArgs script ++
          scriptName :: args) := by
  have hloc := loc_le hinit
  have hkept : p.Kept st := (Reach.run .init h).inv (P := fun p => p.Kept st)
    (kept_init hinit) fun _ _ _ _ h _ hs => h.step hloc hs
  obtain ⟨arg0, perl, hst⟩ := hkept.restore.setScriptArgv hloc (name :: args)
  obtain ⟨hok, hfe⟩ := (OptProc.readShbang_iff rfl (by rw [hst])).mp hfe
  rw [hst] at hfe
  subst hfe
  have hval : ∀ o, (setAll (p.restore st.table).st.table (shbangSettings script)).val o =
      after o (st.table.val o)
        ((if o.type = .str then [] else linesRead false as) ++ shbangSettings script) := by
    intro o
    rw [setAll_val, after_append]
    simp only [OptProc.restore, OptTable.restore_val]
    split_ifs with ho
    · rfl
    · rw [(kept_init hinit).run_val hloc h ho]
  obtain ⟨-, -, -, -, -, henv, -⟩ := speedyOptInit_eq hinit
  obtain ⟨be, hbe, hbval, hperl, hscript⟩ := backend_init bin hinit
    ⟨hprint.perlArgs, hprint.blank⟩ hname args
      (speedyOptGet (setAll (p.restore st.table).st.table (shbangSettings script)) .backendProg)
  refine ⟨hval, ⟨be, false⟩, _, ?_, (OptProc.readShbang_iff rfl hperl).mpr ⟨hok, rfl⟩, fun o ho => ?_,
    fun scriptName => ?_⟩
  · simp only [OptProc.init, speedyOptExecArgv, execArgv_eq hinit, henv, hbe, Except.map]
  · -- the line changes the values that the process started with
    have hbe' : (setAll be.table (shbangSettings script)).val o =
        after o (st.table.val o) (shbangSettings script) := by
      rw [setAll_val, hbval, backend_val ht hinit hprint ho]
    refine ⟨hbe', ?_⟩
    simp only [hbe', hval]
    by_cases hstr : o.type = .str
    · simp [hstr]
    · simp only [hstr, false_or]
      exact eq_comm
  · have hargs : be.execArgv.drop be.scriptArgvLoc = name :: args := hscript
    simp [speedyOptPerlArgv, speedyOptScriptArgv, hargs]

def firstScript : List UInt8 := bytes (str "#!/bin/sp -- -r7\n")

def secondScript : List UInt8 := bytes (str "#!/bin/sp -T -- -gx -t9\nprint 1;\n")

/-- A directive has set `Timeout`. -/
def directives : OptTable := setAll (.default (str "/bin/be")) [(.timeout, str "60")]

def started : OptState :=
  match speedyOptInit directives [[]] [] with
  | .ok st => st
  | .error _ => ⟨directives, [], [], [], 0⟩

def firstRequest : List ProcAct := [.restore, .setScriptArgv [str "/a"], .readShbang firstScript]

lemma directives_printable : Printable directives [[]] [] := by
  refine ⟨fun w hw => ?_, fun o ho hc => ?_, fun o _ _ _ _ v hv => ?_, fun o _ hc ht => ?_⟩
  · cases hw
  · revert ho hc
    cases o <;> decide +kernel
  · cases hv
  · revert hc ht
    cases o <;> decide +kernel

/-- The first script has an option that the second has not: the process keeps it, the backend of the
second script does not get it. -/
theorem backend_follows_second : ∃ p fe be₀ be : OptProc,
    run (OptProc.step started.table) ⟨started, false⟩ firstRequest = some p ∧
    ((p.restore started.table).setScriptArgv [str "/b"]).readShbang secondScript = .ok fe ∧
    fe.st.table.val .maxRuns = .int 7 ∧ fe.st.table.val .timeout = .int 9 ∧
    fe.st.table.val .group = .str (some (str "x")) ∧
    OptProc.init (.default (str "/bin/be")) (speedyOptExecArgv fe.st) fe.st.execEnvp = .ok be₀ ∧
    be₀.readShbang secondScript = .ok be ∧
    be.st.table.val .maxRuns = .int 500 ∧ be.st.table.val .timeout = .int 9 ∧
    be.st.table.val .group = fe.st.table.val .group ∧
    speedyOptPerlArgv be.st (some (str "/tmp/s")) = [[], str "-T", str "/tmp/s"] := by
  have hinit : speedyOptInit directives [[]] [] = .ok started := rfl
  have hname : NonOpt (str "/b") := by decide +kernel
  have hsome : ((run (OptProc.step started.table) ⟨started, false⟩ firstRequest).bind fun p =>
      (((p.restore started.table).setScriptArgv [str "/b"]).readShbang secondScript).toOption).isSome :=
    by decide +kernel
  cases hp : run (OptProc.step started.table) ⟨started, false⟩ firstRequest with
  | none => simp [hp] at hsome
  | some p =>
    cases hfe : ((p.restore started.table).setScriptArgv [str "/b"]).readShbang secondScript with
    | error e => simp [hp, hfe, Except.toOption] at hsome
    | ok fe =>
      obtain ⟨hval, be₀, be, hbe₀, hbe, hbval, hargv⟩ := backend_follows rfl hinit
        directives_printable hp hname [] hfe
      refine ⟨p, fe, be₀, be, rfl, hfe, ?_, ?_, ?_, hbe₀, hbe, ?_, ?_, ?_, (hargv (str "/tmp/s")).trans ?_⟩
      · rw [hval]
        decide +kernel
      · rw [hval]
        decide +kernel
      · rw [hval]
        decide +kernel
      · rw [(hbval .maxRuns (by decide)).1]
        decide +kernel
      · rw [(hbval .timeout (by decide)).1]
        decide +kernel
      · exact (hbval .group (by decide)).2.mpr (.inl rfl)
      · decide +kernel

end SpeedyCgi.Options
