import SpeedyCgi.Options.Argv
import SpeedyCgi.Options.Settings

/-!
The options that the backend gets from the vector it is started with.

The frontend prints its options into the vector, and the backend splits that like any command line.
`Printable` says when the printed vector means to the backend what it meant to the frontend.
-/

namespace SpeedyCgi.Options

open Lib.CString

/-! ### The options that were changed -/

/-- The changed options as settings. -/
def changedSettings (t : OptTable) : List (OptName × CStr) :=
  speedyOptdefs.filterMap fun o =>
    if t.changed o ∧ o.letter.isSome then some (o, speedyOptGet t o) else none

lemma optidx_letter {o : OptName} {c : CChar} (h : o.letter = some c) :
    optidxFromLetter c = some o := by
  cases o <;> simp only [OptName.letter, reduceCtorEq, Option.some.injEq] at h <;>
    (subst h; decide +kernel)

lemma optOf_printed {o : OptName} {c : CChar} (h : o.letter = some c) (value : CStr) :
    optOf (ch '-' :: c :: value) = some (o, value) := by
  simp [optOf, optidx_letter h]

lemma filterMap_changedOpts (t : OptTable) :
    (changedOpts t).filterMap optOf = changedSettings t := by
  rw [changedOpts, changedSettings, List.filterMap_filterMap]
  congr 1
  funext o
  cases hc : o.letter with
  | none => simp
  | some c =>
    by_cases ht : t.changed o = true
    · simp [ht, optOf_printed hc]
    · simp [ht]

lemma changedOpts_isSome {t : OptTable} {s : CStr} (hs : s ∈ changedOpts t) : (optOf s).isSome := by
  obtain ⟨o, -, ho⟩ := List.mem_filterMap.mp hs
  split at ho
  next =>
    obtain ⟨c, hc, rfl⟩ := Option.map_eq_some_iff.mp ho
    simp [optOf_printed hc]
  next => simp at ho

/-- Settings made from a list of options change each of these once. -/
lemma after_filterMap {p : OptName → Prop} [DecidablePred p] (g : OptName → CStr) {o : OptName}
    (v : OptVal) {l : List OptName} (hl : l.Nodup) :
    after o v (l.filterMap fun o' => if p o' then some (o', g o') else none) =
      if o ∈ l ∧ p o then (optSetVal o v (g o)).getD v else v := by
  induction l generalizing v with
  | nil => simp [after]
  | cons a l ih =>
    obtain ⟨hal, hl⟩ := List.nodup_cons.mp hl
    by_cases hp : p a
    · have hcons : after o v ((a :: l).filterMap fun o' => if p o' then some (o', g o') else none) =
          after o (if a = o then (optSetVal o v (g a)).getD v else v)
            (l.filterMap fun o' => if p o' then some (o', g o') else none) := by
        simp [after, hp]
      rw [hcons, ih _ hl]
      by_cases ha : a = o
      · subst ha
        simp [hal, hp]
      · simp [ha, Ne.symm ha]
    · have hcons : (a :: l).filterMap (fun o' => if p o' then some (o', g o') else none) =
          l.filterMap fun o' => if p o' then some (o', g o') else none := by simp [hp]
      rw [hcons, ih _ hl]
      by_cases ha : a = o
      · subst ha
        simp [hal, hp]
      · simp [Ne.symm ha]

lemma after_changedSettings (t : OptTable) (o : OptName) (v : OptVal) :
    after o v (changedSettings t) =
      if t.changed o ∧ o.letter.isSome then (optSetVal o v (speedyOptGet t o)).getD v else v := by
  have hmem : o ∈ speedyOptdefs := by cases o <;> decide
  rw [changedSettings, after_filterMap _ _ (by decide)]
  simp [hmem]

/-! ### The vector for the backend -/

/-- The backend finds in its argument vector the perl arguments, the speedy options and the script
arguments of the frontend, and with them and the frontend's environment it gives the options that
have a letter the values they have in the frontend. -/
def Reconstructed (bin : CStr) (t : OptTable) (argv : List CStr) (st : OptState)
    (scriptArgv : List CStr) : Prop :=
  (∀ s, s = cmdlineSplit (speedyOptExecArgv st) [] →
    s.perlArgs = st.perlArgv.tail ∧
      s.speedyOpts = (cmdlineSplit argv []).speedyOpts ++ changedOpts t ∧
      s.scriptArgs = scriptArgv) ∧
  ∃ be, speedyOptInit (.default bin) (speedyOptExecArgv st) st.execEnvp = .ok be ∧
    ∀ o, o.letter.isSome → be.table.val o = st.table.val o

/-- When the options that were changed before come through. -/
structure Printable (t : OptTable) (argv envp : List CStr) : Prop where
  perlArgs : ∀ w ∈ perlArgsWords t, isOpt w ∧ w ≠ str "--"
  blank : ∀ o, o.letter.isSome → t.changed o → ∀ c ∈ speedyOptGet t o, isspace c = false
  kept : ∀ o, o.letter.isSome → t.changed o → o.type ≠ .toggle →
    lastVal o (envSettings envp) = none → ∀ v, lastVal o (settings argv) = some v → v = t.val o
  toggled : ∀ o, o.letter.isSome → t.changed o → o.type = .toggle → t.val o = .int 1

/-! ### The values -/

lemma speedyOptInit_val {t : OptTable} {argv envp : List CStr} {st : OptState}
    (h : speedyOptInit t argv envp = .ok st) :
    (∀ s ∈ (cmdlineSplit argv []).speedyOpts, (optOf s).isSome) ∧
      ∀ o, st.table.val o = after o (t.val o) (settings argv ++ envSettings envp) := by
  obtain ⟨t', hp, htable, -⟩ := speedyOptInit_eq h
  rw [cmdlineSplit_speedyOpts] at hp
  obtain ⟨hall, rfl⟩ := processSpeedyOpts_ok hp
  refine ⟨hall, fun o => ?_⟩
  rw [htable, foldl_setFromEnv, setAll_val, setAll_val, after_append, settings]

lemma speedyOptInit_of (t : OptTable) {argv : List CStr} (envp : List CStr)
    (h : ∀ s ∈ (cmdlineSplit argv []).speedyOpts, (optOf s).isSome) :
    ∃ st, speedyOptInit t argv envp = .ok st := by
  have hp : processSpeedyOpts t (cmdlineSplit argv [str "perl"]).speedyOpts =
      .ok (setAll t (settings argv)) := by
    rw [cmdlineSplit_speedyOpts]
    exact processSpeedyOpts_of h
  simp only [speedyOptInit, hp, Bind.bind, Except.bind]
  exact ⟨_, rfl⟩

/-- Where the frontend and the backend set the same, but the backend sets what was changed before
once more. -/
lemma after_changed_iff {bin : CStr} {t : OptTable} (ht : t.Wf bin) {o : OptName}
    (ho : o.letter.isSome) (cmd env : List (OptName × CStr)) :
    after o (o.defval bin) (cmd ++ changedSettings t ++ env) = after o (t.val o) (cmd ++ env) ↔
      (t.changed o → o.type ≠ .toggle → lastVal o env = none →
        ∀ v, lastVal o cmd = some v → v = t.val o) ∧
      (t.changed o → o.type = .toggle → t.val o = .int 1) := by
  rw [after_append, after_append, after_append, after_changedSettings]
  by_cases hc : t.changed o = true
  · have hvalid := ht.valid o hc
    rw [if_pos ⟨hc, ho⟩]
    by_cases htog : o.type = .toggle
    · -- the toggle is set once more in the backend, so it had to be set in the frontend
      have hbit : Bit (t.val o) := by simpa [ValidVal, htog] using hvalid
      have hdef : o.defval bin = .int 0 := by
        cases o <;> simp_all [OptName.type, OptName.defval]
      have hset : ∀ v x, (optSetVal o v x).getD v = .int (if v = .int 0 then 1 else 0) := by
        intro v x
        simp [optSetVal, htog]
      rw [hset, hdef]
      simp only [hc, htog, ne_eq, not_true_eq_false, false_implies, implies_true, true_and,
        true_implies]
      rcases hbit with h | h <;> rcases after_toggle htog cmd with ⟨h0, h1⟩ | ⟨h0, h1⟩ <;>
        rcases after_toggle htog env with ⟨k0, k1⟩ | ⟨k0, k1⟩ <;> simp [h, h0, h1, k0, k1]
    · rw [optSetVal_get hvalid htog]
      simp only [after_eq htog, Option.getD_some, hc, htog, ne_eq, not_false_eq_true, true_implies,
        false_implies, and_true]
      cases lastVal o env with
      | some e => simp
      | none =>
        cases lastVal o cmd with
        | none => simp
        | some v => simp [eq_comm]
  · have hdef := ht.default o (by simpa using hc)
    simp [hc, hdef]

/-! ### The words -/

lemma optWord_printed {o : OptName} {c : CChar} (h : o.letter = some c) (value : CStr) :
    OptWord (ch '-' :: c :: value) ↔ ∀ d ∈ value, isspace d = false := by
  have hc : isspace c = false := by
    cases o <;> simp only [OptName.letter, reduceCtorEq, Option.some.injEq] at h <;>
      (subst h; decide)
  have hd : isspace (ch '-') = false := by decide
  have hopt : isOpt (ch '-' :: c :: value) := by simp [isOpt]
  simp only [OptWord, Word, hopt, and_true, ne_eq, reduceCtorEq, not_false_eq_true, true_and,
    List.forall_mem_cons, hc, hd]

lemma changedOpts_words (t : OptTable) :
    (∀ w ∈ changedOpts t, OptWord w) ↔
      ∀ o, o.letter.isSome → t.changed o → ∀ c ∈ speedyOptGet t o, isspace c = false := by
  constructor
  · intro h o ho hc
    obtain ⟨c, hletter⟩ := Option.isSome_iff_exists.mp ho
    refine (optWord_printed hletter _).mp (h _ (List.mem_filterMap.mpr ⟨o, ?_, ?_⟩))
    · cases o <;> decide
    · simp [hc, hletter]
  · intro h w hw
    obtain ⟨o, -, ho⟩ := List.mem_filterMap.mp hw
    split at ho
    next hc =>
      obtain ⟨c, hletter, rfl⟩ := Option.map_eq_some_iff.mp ho
      exact (optWord_printed hletter _).mpr (h o (by simp [hletter]) hc)
    next => simp at ho

lemma perlArgsWords_word {t : OptTable} {w : CStr} (hw : w ∈ perlArgsWords t) : Word w := by
  unfold perlArgsWords at hw
  split at hw
  · exact word_of_mem_split hw
  · simp at hw

/-- The words that have to come through on their own. -/
lemma words_iff (t : OptTable) (argv : List CStr) :
    ((∀ w ∈ (cmdlineSplit argv []).perlArgs ++ perlArgsWords t, PerlWord w) ∧
      ∀ w ∈ (cmdlineSplit argv []).speedyOpts ++ changedOpts t, OptWord w) ↔
      (∀ w ∈ perlArgsWords t, isOpt w ∧ w ≠ str "--") ∧
      ∀ o, o.letter.isSome → t.changed o → ∀ c ∈ speedyOptGet t o, isspace c = false := by
  have hwf := cmdlineSplit_wf argv []
  obtain ⟨l, hl, hperl⟩ := hwf.perl
  rw [List.nil_append] at hl
  rw [← changedOpts_words, List.forall_mem_append, List.forall_mem_append, hl]
  constructor
  · rintro ⟨⟨-, h⟩, -, h'⟩
    exact ⟨fun w hw => (h w hw).2, h'⟩
  · rintro ⟨h, h'⟩
    exact ⟨⟨hperl, fun w hw => ⟨perlArgsWords_word hw, h w hw⟩⟩, hwf.speedy, h'⟩

/-! ### The vector after the script's arguments have been replaced -/

lemma foldl_setScriptArgv {st : OptState} {head rest : List CStr}
    (hexec : st.execArgv = head ++ rest) (hloc : st.scriptArgvLoc = head.length)
    (earlier : List (List CStr)) :
    ∃ rest', earlier.foldl speedyOptSetScriptArgv st = { st with execArgv := head ++ rest' } := by
  induction earlier generalizing st rest with
  | nil => exact ⟨rest, by rw [← hexec]; rfl⟩
  | cons a l ih =>
    have hset : speedyOptSetScriptArgv st a = { st with execArgv := head ++ a } := by
      simp [speedyOptSetScriptArgv, hexec, hloc]
    rw [List.foldl_cons, hset]
    exact ih rfl hloc

lemma setScriptArgv_eq {t : OptTable} {argv envp : List CStr} {st : OptState}
    (h : speedyOptInit t argv envp = .ok st) (earlier : List (List CStr)) (scriptArgv : List CStr) :
    ∃ st', speedyOptSetScriptArgv (earlier.foldl speedyOptSetScriptArgv st) scriptArgv = st' ∧
      st'.table = st.table ∧ st'.execEnvp = envp ∧
      st'.perlArgv.tail = (cmdlineSplit argv []).perlArgs ++ perlArgsWords t ∧
      ∃ arg0, speedyOptExecArgv st' = arg0 ::
        printArgs ((cmdlineSplit argv []).perlArgs ++ perlArgsWords t)
          ((cmdlineSplit argv []).speedyOpts ++ changedOpts t) scriptArgv := by
  obtain ⟨-, -, -, hperl, hexec, henv, hloc⟩ := speedyOptInit_eq h
  rw [cmdlineSplit_perlArgs] at hperl
  rw [cmdlineSplit_speedyOpts] at hexec hloc
  rw [printArgs_append] at hexec
  obtain ⟨rest, hrest⟩ := foldl_setScriptArgv hexec hloc earlier
  refine ⟨_, rfl, ?_⟩
  simp only [hrest, speedyOptSetScriptArgv, speedyOptExecArgv, hloc, List.take_left']
  refine ⟨trivial, henv, by simp [hperl], speedyOptGet st.table .backendProg, ?_⟩
  simp [hperl, printArgs]

/-- The backend reconstructs the frontend's options exactly when they can be printed. -/
theorem exec_argv_reconstructs {bin : CStr} {changes : List (OptName × CStr)} {t : OptTable}
    (ht : t = setAll (.default bin) changes) {argv envp : List CStr} {st : OptState}
    (hinit : speedyOptInit t argv envp = .ok st) (earlier : List (List CStr)) {script : CStr}
    (hscript : script.head? = some (ch '/')) (args : List CStr) :
    Reconstructed bin t argv
        (speedyOptSetScriptArgv (earlier.foldl speedyOptSetScriptArgv st) (script :: args))
        (script :: args) ↔
      Printable t argv envp := by
  have hwf : t.Wf bin := ht ▸ (OptTable.wf_default bin).setAll changes
  obtain ⟨hsome, hval⟩ := speedyOptInit_val hinit
  obtain ⟨st', hst', htable, henv, hperl, arg0, hexec⟩ :=
    setScriptArgv_eq hinit earlier (script :: args)
  rw [hst', Reconstructed, hexec, henv, hperl, htable]
  have hsplit := @cmdlineSplit_printArgs arg0 ((cmdlineSplit argv []).perlArgs ++ perlArgsWords t)
    ((cmdlineSplit argv []).speedyOpts ++ changedOpts t) script (nonOpt_absolute hscript) args _ rfl
  rw [words_iff] at hsplit
  rw [forall_eq, hsplit]
  have hbackend (hwords : (∀ w ∈ perlArgsWords t, isOpt w ∧ w ≠ str "--") ∧
      ∀ o, o.letter.isSome → t.changed o → ∀ c ∈ speedyOptGet t o, isspace c = false) :
      ∃ be, speedyOptInit (.default bin) (arg0 :: printArgs ((cmdlineSplit argv []).perlArgs ++
        perlArgsWords t) ((cmdlineSplit argv []).speedyOpts ++ changedOpts t) (script :: args)) envp =
          .ok be ∧
        ∀ o, be.table.val o =
          after o (o.defval bin) (settings argv ++ changedSettings t ++ envSettings envp) := by
    obtain ⟨-, hopts, -⟩ := hsplit.mpr hwords
    obtain ⟨be, hbe⟩ := speedyOptInit_of (.default bin) envp (by
      rw [hopts]
      exact List.forall_mem_append.mpr ⟨hsome, fun s hs => changedOpts_isSome hs⟩)
    refine ⟨be, hbe, fun o => ?_⟩
    rw [(speedyOptInit_val hbe).2 o, settings, hopts, List.filterMap_append, filterMap_changedOpts]
    rfl
  constructor
  · rintro ⟨hwords, be, hbe, heq⟩
    obtain ⟨be', hbe', hval'⟩ := hbackend hwords
    obtain rfl : be' = be := Except.ok.inj (hbe'.symm.trans hbe)
    have hopt (o : OptName) (ho : o.letter.isSome) := (after_changed_iff hwf ho (settings argv)
      (envSettings envp)).mp (by rw [← hval', heq o ho, hval])
    exact ⟨hwords.1, hwords.2, fun o ho hc ht => (hopt o ho).1 hc ht,
      fun o ho hc ht => (hopt o ho).2 hc ht⟩
  · rintro ⟨hperl, hblank, hkept, htoggled⟩
    obtain ⟨be, hbe, hval'⟩ := hbackend ⟨hperl, hblank⟩
    refine ⟨⟨hperl, hblank⟩, be, hbe, fun o ho => ?_⟩
    rw [hval', hval]
    exact (after_changed_iff hwf ho _ _).mpr ⟨hkept o ho, htoggled o ho⟩

/-- A group name and perl options. -/
def webTable : OptTable :=
  setAll (.default (str "/bin/be")) [(.group, str "web"), (.perlArgs, str "-w -I/lib")]

lemma printable_web : Printable webTable [[]] [str "SPEEDY_TIMEOUT=60"] where
  perlArgs := by decide +kernel
  blank o := by cases o <;> decide +kernel
  kept o _ _ _ _ v hv := by
    have hno : lastVal o (settings [[]]) = none := rfl
    rw [hno] at hv
    cases hv
  toggled o := by cases o <;> decide +kernel

/-- They come through, and so does a timeout. -/
theorem exec_argv_reconstructs_sample : ∃ st,
    speedyOptInit webTable [[]] [str "SPEEDY_TIMEOUT=60"] = .ok st ∧
    Reconstructed (str "/bin/be") webTable [[]] (speedyOptSetScriptArgv st [str "/s", str "x"])
      [str "/s", str "x"] :=
  ⟨_, rfl, (exec_argv_reconstructs rfl rfl [] (by decide +kernel) [str "x"]).mpr printable_web⟩

/-- A group name with a blank in it does not: the backend takes what follows the blank for its
script. -/
theorem group_with_blank_lost : ∃ t st,
    t = setAll (.default (str "/bin/be")) [(.group, str "my group")] ∧
    speedyOptInit t [[]] [] = .ok st ∧
    ¬ Reconstructed (str "/bin/be") t [[]] (speedyOptSetScriptArgv st [str "/s"]) [str "/s"] :=
  ⟨_, _, rfl, rfl, fun h => absurd (h.1 _ rfl).2.2 (by decide +kernel)⟩

end SpeedyCgi.Options
