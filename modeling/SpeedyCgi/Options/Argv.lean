import SpeedyCgi.Options.OptInit
import SpeedyCgi.Request.Framing

/-!
What becomes of the script's arguments on their way from the frontend's command line to the
`@ARGV` of the backend.
-/

namespace SpeedyCgi.Options

open Lib.CString Request

/-- The request of a frontend with these options. -/
def frontendRequest (st : OptState) (environ : List CStr) (script : SpeedyDevIno)
    (dirStat : Option SpeedyDevIno) : FeRequest where
  envp := environ
  scrArgv := speedyOptScriptArgv st
  scriptFname := speedyOptScriptFname st
  script := script
  scriptHasCwd := false
  dirStat := dirStat

lemma printArgs_append (perl speedy script : List CStr) :
    printArgs perl speedy script = printArgs perl speedy [] ++ script := by
  simp [printArgs]

/-- What `speedy_opt_init` leaves behind. -/
lemma speedyOptInit_eq {t : OptTable} {argv envp : List CStr} {st : OptState}
    (h : speedyOptInit t argv envp = .ok st) :
    ∃ t', processSpeedyOpts t (cmdlineSplit argv [str "perl"]).speedyOpts = .ok t' ∧
      st.table = envp.foldl setFromEnv t' ∧
      st.perlArgv = (cmdlineSplit argv [str "perl"]).perlArgs ++ perlArgsWords t ∧
      st.execArgv = printArgs st.perlArgv
        ((cmdlineSplit argv [str "perl"]).speedyOpts ++ changedOpts t)
        (cmdlineSplit argv [str "perl"]).scriptArgs ∧
      st.execEnvp = envp ∧
      st.scriptArgvLoc = (printArgs st.perlArgv
        ((cmdlineSplit argv [str "perl"]).speedyOpts ++ changedOpts t) []).length := by
  unfold speedyOptInit at h
  cases hp : processSpeedyOpts t (cmdlineSplit argv [str "perl"]).speedyOpts with
  | error e => simp [hp, Bind.bind, Except.bind] at h
  | ok t' =>
    simp only [hp, Bind.bind, Except.bind, Pure.pure, Except.pure, Except.ok.injEq] at h
    subst h
    exact ⟨t', rfl, rfl, rfl, rfl, rfl, rfl⟩

lemma scriptArgv_init {t : OptTable} {argv envp : List CStr} {st : OptState}
    (h : speedyOptInit t argv envp = .ok st) :
    speedyOptScriptArgv st = (cmdlineSplit argv [str "perl"]).scriptArgs := by
  obtain ⟨-, -, -, -, hexec, -, hloc⟩ := speedyOptInit_eq h
  rw [speedyOptScriptArgv, hexec, printArgs_append, hloc]
  exact List.drop_left

/-- The script gets its arguments exactly when none of them is the empty string. -/
theorem script_argv_arrives (abi : Abi) {t : OptTable} {arg0 name : CStr} {pre : List CStr}
    (hpre : ∀ a ∈ pre, OptArg a) (hname : NonOpt name) (hne : name ≠ []) {args environ : List CStr}
    {st : OptState} (hinit : speedyOptInit t (arg0 :: (pre ++ name :: args)) environ = .ok st)
    (script : SpeedyDevIno) (dirStat : Option SpeedyDevIno)
    (hsize : (requestBytes abi (frontendRequest st environ script dirStat) name).length < maxTotal) :
    ∃ b, speedyFrontendMkenv abi (frontendRequest st environ script dirStat) 0 = .ok b ∧
      ∀ stream, ∃ r, onerun abi (b.buf ++ stream) = .ok (r, stream) ∧
        (r.argv = args.map bytes ↔ [] ∉ args) := by
  have hargv : speedyOptScriptArgv st = name :: args := by
    rw [scriptArgv_init hinit, cmdlineSplit_scriptArgs hpre hname]
  obtain ⟨b, hb, hbuf⟩ := mkenv_bytes abi (r := frontendRequest st environ script dirStat)
    (by simp [frontendRequest, speedyOptScriptFname, hargv]) hsize 0
  refine ⟨b, hb, fun stream => ⟨_, hbuf ▸ yields_onerun abi hne hsize stream, ?_⟩⟩
  have hrec : (received (frontendRequest st environ script dirStat) name).argv = nonempty args := by
    simp [received, frontendRequest, hargv]
  rw [hrec, nonempty, (List.map_injective_iff.mpr bytes_injective).eq_iff, List.filter_eq_self]
  constructor
  · intro h h0
    simpa using h [] h0
  · rintro h a ha
    cases a with
    | nil => exact (h ha).elim
    | cons => rfl

/-- `speedy -w -- -t5 script -x "1 2" --`. -/
theorem script_argv_arrives_options : ∃ st,
    speedyOptInit (.default []) (str "speedy" :: ([str "-w", str "--", str "-t5"] ++
      str "script" :: [str "-x", str "1 2", str "--"])) [str "A=1"] = .ok st ∧
    ∃ b, speedyFrontendMkenv .littleEndian (frontendRequest st [str "A=1"] ⟨1, 2⟩ none) 0 = .ok b ∧
      ∀ stream, ∃ r, onerun .littleEndian (b.buf ++ stream) = .ok (r, stream) ∧
        (r.argv = [str "-x", str "1 2", str "--"].map bytes ↔
          [] ∉ [str "-x", str "1 2", str "--"]) :=
  have hpre : ∀ a ∈ [str "-w", str "--", str "-t5"], OptArg a := by decide +kernel
  have hname : NonOpt (str "script") := by decide +kernel
  ⟨_, rfl, script_argv_arrives .littleEndian hpre hname (by decide +kernel) rfl ⟨1, 2⟩ none
    (by decide +kernel)⟩

/-- Of `speedy script "" x` the script gets one argument. -/
theorem empty_argument_lost : ∃ st b r,
    speedyOptInit (.default []) [str "speedy", str "script", [], str "x"] [] = .ok st ∧
    speedyFrontendMkenv .littleEndian (frontendRequest st [] ⟨1, 2⟩ none) 0 = .ok b ∧
    onerun .littleEndian b.buf = .ok (r, []) ∧ r.argv = [bytes (str "x")] ∧
    r.argv ≠ [[], str "x"].map bytes :=
  ⟨_, _, _, rfl, rfl, rfl, by decide +kernel, by decide +kernel⟩

end SpeedyCgi.Options
