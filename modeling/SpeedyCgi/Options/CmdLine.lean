import SpeedyCgi.Lib.CString

/-!
How a command line is taken apart: `strlist_split` and `cmdline_split`.

A word is an option if it begins with `-`. The perl options of a command line are those before the
word `--`, the speedy options those behind it; the first word that is no option ends both, and
what follows belongs to the script.
-/

namespace SpeedyCgi.Options

open Lib.CString

/-- The words of `s`, where `beg` is what has been read of the current word. -/
def splitFrom : CStr → CStr → List CStr
  | beg, [] => if beg = [] then [] else [beg]
  | beg, c :: s =>
    if isspace c then (if beg = [] then splitFrom [] s else beg :: splitFrom [] s)
    else splitFrom (beg ++ [c]) s

/-- Split strings on whitespace. -/
def strlistSplit (l : List CStr) : List CStr := l.flatMap (splitFrom [])

/-- The state of `cmdline_split`: which kind of option it is at, and its three lists. -/
structure Split where
  doingSpeedyOpts : Bool
  perlArgs : List CStr
  speedyOpts : List CStr
  scriptArgs : List CStr
deriving DecidableEq

def isOpt (w : CStr) : Bool := w.head? = some (ch '-')

def Split.addOpt (s : Split) (p : CStr) : Split :=
  if !s.doingSpeedyOpts && p = str "--" then { s with doingSpeedyOpts := true }
  else if s.doingSpeedyOpts then { s with speedyOpts := s.speedyOpts ++ [p] }
  else { s with perlArgs := s.perlArgs ++ [p] }

/-- The loop over the arguments behind the first. -/
def splitArgs : Split → List CStr → Split
  | s, [] => s
  | s, arg :: l =>
    let p := strlistSplit [arg]
    if p.head?.all (!isOpt ·) then { s with scriptArgs := s.scriptArgs ++ arg :: l }
    else
      let s' := (p.takeWhile isOpt).foldl Split.addOpt s
      match p.dropWhile isOpt with
      | [] => splitArgs s' l
      | rest => { s' with scriptArgs := s'.scriptArgs ++ rest ++ l }

/-- `argv` is split behind `perlArgs`, what the list of perl arguments holds before. -/
def cmdlineSplit (argv perlArgs : List CStr) : Split :=
  splitArgs ⟨false, perlArgs, [], []⟩ argv.tail

/-! ### Words -/

/-- What `strlistSplit` puts out: something, without a blank in it. -/
def Word (w : CStr) : Prop := w ≠ [] ∧ ∀ c ∈ w, isspace c = false

lemma splitFrom_word {beg : CStr} (hb : ∀ c ∈ beg, isspace c = false) {s w : CStr}
    (hw : w ∈ splitFrom beg s) : Word w := by
  induction s generalizing beg with
  | nil =>
    simp only [splitFrom] at hw
    split at hw
    next => simp at hw
    next h => obtain rfl : w = beg := by simpa using hw
              exact ⟨h, hb⟩
  | cons c s ih =>
    simp only [splitFrom] at hw
    split at hw
    next hc =>
      split at hw
      next => exact ih (by simp) hw
      next h =>
        rcases List.mem_cons.mp hw with rfl | hw
        · exact ⟨h, hb⟩
        · exact ih (by simp) hw
    next hc =>
      have hc : isspace c = false := by simpa using hc
      exact ih (List.forall_mem_append.mpr ⟨hb, List.forall_mem_singleton.mpr hc⟩) hw

lemma word_of_mem_split {l : List CStr} {w : CStr} (hw : w ∈ strlistSplit l) : Word w := by
  obtain ⟨s, -, hs⟩ := List.mem_flatMap.mp hw
  exact splitFrom_word (by simp) hs

lemma splitFrom_nospace {beg s : CStr} (hs : ∀ c ∈ s, isspace c = false) :
    splitFrom beg s = if beg ++ s = [] then [] else [beg ++ s] := by
  induction s generalizing beg with
  | nil => simp [splitFrom]
  | cons c s ih =>
    have hc : isspace c = false := hs c List.mem_cons_self
    rw [splitFrom, if_neg (by simp [hc]), ih fun d hd => hs d (List.mem_cons_of_mem _ hd)]
    simp

/-- A word is split into itself. -/
lemma strlistSplit_word {w : CStr} (hw : Word w) : strlistSplit [w] = [w] := by
  simp [strlistSplit, splitFrom_nospace hw.2, hw.1]

/-- The first word begins where the string does, unless that begins with a blank. -/
lemma head_splitFrom {beg : CStr} (hb : beg ≠ []) (s : CStr) :
    ∃ t l, splitFrom beg s = (beg ++ t) :: l := by
  induction s generalizing beg with
  | nil => exact ⟨[], [], by rw [splitFrom, if_neg hb, List.append_nil]⟩
  | cons c s ih =>
    rw [splitFrom]
    split
    · exact ⟨[], splitFrom [] s, by rw [List.append_nil]⟩
    · obtain ⟨t, l, h⟩ := ih (List.append_ne_nil_of_right_ne_nil beg (List.cons_ne_nil c []))
      exact ⟨c :: t, l, by simp [h]⟩

/-- An argument is an option argument if it has words and all are options. -/
def OptArg (a : CStr) : Prop := strlistSplit [a] ≠ [] ∧ ∀ w ∈ strlistSplit [a], isOpt w

/-- An argument that the script gets as it is, with all behind it. -/
def NonOpt (a : CStr) : Prop := (strlistSplit [a]).head?.all (!isOpt ·)

instance (a : CStr) : Decidable (OptArg a) := inferInstanceAs (Decidable (_ ∧ _))
instance (a : CStr) : Decidable (NonOpt a) := inferInstanceAs (Decidable (_ = _))

/-- An absolute path is no option. -/
lemma nonOpt_absolute {a : CStr} (ha : a.head? = some (ch '/')) : NonOpt a := by
  obtain ⟨s, rfl⟩ : ∃ s, a = ch '/' :: s := ⟨a.tail, List.eq_cons_of_mem_head? ha⟩
  have hsplit : strlistSplit [ch '/' :: s] = splitFrom [ch '/'] s := by
    have : isspace (ch '/') = false := by decide
    simp [strlistSplit, splitFrom, this]
  obtain ⟨t, l, h⟩ := head_splitFrom (List.cons_ne_nil (ch '/') []) s
  have hopt : isOpt (ch '/' :: t) = false := by simp [isOpt]; decide
  simpa [NonOpt, hsplit, h] using hopt

/-! ### The loop over the arguments -/

@[simp] lemma addOpt_scriptArgs (s : Split) (p : CStr) :
    (s.addOpt p).scriptArgs = s.scriptArgs := by
  unfold Split.addOpt
  split <;> [rfl; split <;> rfl]

@[simp] lemma foldl_addOpt_scriptArgs (s : Split) (l : List CStr) :
    (l.foldl Split.addOpt s).scriptArgs = s.scriptArgs := by
  induction l generalizing s with
  | nil => rfl
  | cons p l ih => rw [List.foldl_cons, ih, addOpt_scriptArgs]

lemma splitArgs_nonOpt (s : Split) {a : CStr} (ha : NonOpt a) (l : List CStr) :
    splitArgs s (a :: l) = { s with scriptArgs := s.scriptArgs ++ a :: l } := by
  have ha' : (strlistSplit [a]).head?.all (!isOpt ·) = true := ha
  simp only [splitArgs, if_pos ha']

lemma splitArgs_optArg (s : Split) {a : CStr} (ha : OptArg a) (l : List CStr) :
    splitArgs s (a :: l) = splitArgs ((strlistSplit [a]).foldl Split.addOpt s) l := by
  obtain ⟨hne, hall⟩ := ha
  have hhead : ¬ (strlistSplit [a]).head?.all (!isOpt ·) = true := by
    obtain ⟨w, p, hp⟩ := List.exists_cons_of_ne_nil hne
    have := hall w (by simp [hp])
    simp [hp, this]
  have htake : (strlistSplit [a]).takeWhile isOpt = strlistSplit [a] :=
    List.takeWhile_eq_self_iff.mpr hall
  have hdrop : (strlistSplit [a]).dropWhile isOpt = [] :=
    List.dropWhile_eq_nil_iff.mpr hall
  simp only [splitArgs, if_neg hhead, htake, hdrop]

lemma splitArgs_append (s : Split) {pre : List CStr} (hpre : ∀ a ∈ pre, OptArg a) (l : List CStr) :
    splitArgs s (pre ++ l) = splitArgs ((strlistSplit pre).foldl Split.addOpt s) l := by
  induction pre generalizing s with
  | nil => rfl
  | cons a pre ih =>
    have hsplit : strlistSplit (a :: pre) = strlistSplit [a] ++ strlistSplit pre := by
      simp [strlistSplit]
    rw [List.cons_append, splitArgs_optArg s (hpre a List.mem_cons_self),
      ih _ fun b hb => hpre b (List.mem_cons_of_mem _ hb), hsplit, List.foldl_append]

/-- What follows the option arguments goes to the script as it is. -/
theorem cmdlineSplit_scriptArgs {arg0 : CStr} {pre : List CStr} (hpre : ∀ a ∈ pre, OptArg a)
    {name : CStr} (hname : NonOpt name) (args perlArgs : List CStr) :
    (cmdlineSplit (arg0 :: (pre ++ name :: args)) perlArgs).scriptArgs = name :: args := by
  rw [cmdlineSplit, List.tail_cons, splitArgs_append _ hpre, splitArgs_nonOpt _ hname]
  simp

lemma foldl_addOpt_perlArgs (p : List CStr) (s : Split) (l : List CStr) :
    l.foldl Split.addOpt { s with perlArgs := p ++ s.perlArgs } =
      { l.foldl Split.addOpt s with perlArgs := p ++ (l.foldl Split.addOpt s).perlArgs } := by
  induction l generalizing s with
  | nil => rfl
  | cons w l ih =>
    have hadd : Split.addOpt { s with perlArgs := p ++ s.perlArgs } w =
        { s.addOpt w with perlArgs := p ++ (s.addOpt w).perlArgs } := by
      unfold Split.addOpt
      split <;> [rfl; split <;> simp]
    rw [List.foldl_cons, hadd, ih]
    rfl

lemma splitArgs_perlArgs (p : List CStr) (s : Split) (l : List CStr) :
    splitArgs { s with perlArgs := p ++ s.perlArgs } l =
      { splitArgs s l with perlArgs := p ++ (splitArgs s l).perlArgs } := by
  induction l generalizing s with
  | nil => rfl
  | cons a l ih =>
    simp only [splitArgs]
    split
    next => rfl
    next =>
      rw [foldl_addOpt_perlArgs]
      split
      next => exact ih _
      next => rfl

/-- The perl arguments that a list has before only stand in front. -/
lemma cmdlineSplit_eq (argv p : List CStr) :
    cmdlineSplit argv p =
      { cmdlineSplit argv [] with perlArgs := p ++ (cmdlineSplit argv []).perlArgs } := by
  have := splitArgs_perlArgs p ⟨false, [], [], []⟩ argv.tail
  simpa [cmdlineSplit] using this

lemma cmdlineSplit_perlArgs (argv p : List CStr) :
    (cmdlineSplit argv p).perlArgs = p ++ (cmdlineSplit argv []).perlArgs := by
  rw [cmdlineSplit_eq]

lemma cmdlineSplit_speedyOpts (argv p : List CStr) :
    (cmdlineSplit argv p).speedyOpts = (cmdlineSplit argv []).speedyOpts := by
  rw [cmdlineSplit_eq]

/-! ### Options on their own -/

/-- A perl argument on a command line, as a word of its own. -/
def PerlWord (w : CStr) : Prop := Word w ∧ isOpt w ∧ w ≠ str "--"

/-- A speedy option on a command line, as a word of its own. -/
def OptWord (w : CStr) : Prop := Word w ∧ isOpt w

lemma optWord_dashes : OptWord (str "--") :=
  ⟨⟨by decide +kernel, by decide +kernel⟩, by decide +kernel⟩

lemma OptWord.optArg {w : CStr} (hw : OptWord w) : OptArg w := by
  simpa [OptArg, strlistSplit_word hw.1] using hw.2

lemma strlistSplit_words {l : List CStr} (hl : ∀ w ∈ l, Word w) : strlistSplit l = l := by
  induction l with
  | nil => rfl
  | cons w l ih =>
    have h := strlistSplit_word (hl w List.mem_cons_self)
    have ih := ih fun v hv => hl v (List.mem_cons_of_mem _ hv)
    simp only [strlistSplit, List.flatMap_cons, List.flatMap_nil, List.append_nil] at h ih ⊢
    rw [h, ih, List.singleton_append]

lemma foldl_perlWords {s : Split} (hs : s.doingSpeedyOpts = false) {l : List CStr}
    (hl : ∀ w ∈ l, w ≠ str "--") :
    l.foldl Split.addOpt s = { s with perlArgs := s.perlArgs ++ l } := by
  induction l generalizing s with
  | nil => simp
  | cons w l ih =>
    have hw := hl w List.mem_cons_self
    have hadd : s.addOpt w = { s with perlArgs := s.perlArgs ++ [w] } := by
      simp [Split.addOpt, hs, hw]
    rw [List.foldl_cons, hadd]
    refine (ih (by exact hs) fun v hv => hl v (List.mem_cons_of_mem _ hv)).trans ?_
    simp

lemma foldl_speedyOpts {s : Split} (hs : s.doingSpeedyOpts = true) (l : List CStr) :
    l.foldl Split.addOpt s = { s with speedyOpts := s.speedyOpts ++ l } := by
  induction l generalizing s with
  | nil => simp
  | cons w l ih =>
    have hadd : s.addOpt w = { s with speedyOpts := s.speedyOpts ++ [w] } := by
      simp [Split.addOpt, hs]
    rw [List.foldl_cons, hadd]
    refine (ih (by exact hs)).trans ?_
    simp

/-- The lists that `cmdline_split` can put out. -/
structure Split.Wf (s : Split) (perlArgs : List CStr) : Prop where
  perl : ∃ l, s.perlArgs = perlArgs ++ l ∧ ∀ w ∈ l, PerlWord w
  speedy : ∀ w ∈ s.speedyOpts, OptWord w

lemma Split.Wf.addOpt {s : Split} {perlArgs : List CStr} (hs : s.Wf perlArgs) {w : CStr}
    (hw : OptWord w) : (s.addOpt w).Wf perlArgs := by
  obtain ⟨⟨l, hl, hp⟩, ho⟩ := hs
  unfold Split.addOpt
  split
  next => exact ⟨⟨l, hl, hp⟩, ho⟩
  next h =>
    split
    next hd =>
      exact ⟨⟨l, hl, hp⟩, List.forall_mem_append.mpr ⟨ho, List.forall_mem_singleton.mpr hw⟩⟩
    next hd =>
      have hne : w ≠ str "--" := by simpa [hd] using h
      have hpw : PerlWord w := ⟨hw.1, hw.2, hne⟩
      exact ⟨⟨l ++ [w], by simp [hl],
        List.forall_mem_append.mpr ⟨hp, List.forall_mem_singleton.mpr hpw⟩⟩, ho⟩

lemma Split.Wf.foldl {s : Split} {perlArgs : List CStr} (hs : s.Wf perlArgs) {l : List CStr}
    (hl : ∀ w ∈ l, OptWord w) : (l.foldl Split.addOpt s).Wf perlArgs := by
  induction l generalizing s with
  | nil => exact hs
  | cons w l ih =>
    exact ih (hs.addOpt (hl w List.mem_cons_self)) fun v hv => hl v (List.mem_cons_of_mem _ hv)

lemma Split.Wf.splitArgs {s : Split} {perlArgs : List CStr} (hs : s.Wf perlArgs) (l : List CStr) :
    (splitArgs s l).Wf perlArgs := by
  induction l generalizing s with
  | nil => exact hs
  | cons a l ih =>
    rw [Options.splitArgs]
    split
    next => exact ⟨hs.perl, hs.speedy⟩
    next =>
      have htake : ((strlistSplit [a]).takeWhile isOpt |>.foldl Split.addOpt s).Wf perlArgs :=
        hs.foldl fun w hw => ⟨word_of_mem_split (List.takeWhile_subset _ hw),
          List.mem_takeWhile_imp hw⟩
      dsimp only
      split
      next => exact ih htake
      next => exact ⟨htake.perl, htake.speedy⟩

theorem cmdlineSplit_wf (argv perlArgs : List CStr) : (cmdlineSplit argv perlArgs).Wf perlArgs :=
  Split.Wf.splitArgs ⟨⟨[], by simp, by simp⟩, by simp⟩ _

/-- A vector of options, printed the way the backend gets it. -/
def printArgs (perl speedy script : List CStr) : List CStr :=
  perl ++ (if speedy = [] then [] else str "--" :: speedy) ++ script

/-- The printed form is read back exactly when each option is a word by itself. -/
theorem cmdlineSplit_printArgs {arg0 : CStr} {perl speedy : List CStr} {name : CStr}
    (hname : NonOpt name) {args : List CStr} {s : Split}
    (hs : s = cmdlineSplit (arg0 :: printArgs perl speedy (name :: args)) []) :
    s.perlArgs = perl ∧ s.speedyOpts = speedy ∧ s.scriptArgs = name :: args ↔
      (∀ w ∈ perl, PerlWord w) ∧ ∀ w ∈ speedy, OptWord w := by
  constructor
  · rintro ⟨hp, ho, -⟩
    have hwf : s.Wf [] := hs ▸ cmdlineSplit_wf _ _
    obtain ⟨l, hl, hpw⟩ := hwf.perl
    rw [hp, List.nil_append] at hl
    exact ⟨hl ▸ hpw, ho ▸ hwf.speedy⟩
  · rintro ⟨hp, ho⟩
    have hopt : ∀ a ∈ perl ++ (if speedy = [] then [] else str "--" :: speedy), OptWord a := by
      intro a ha
      rcases List.mem_append.mp ha with ha | ha
      · exact ⟨(hp a ha).1, (hp a ha).2.1⟩
      · split at ha
        next => simp at ha
        next =>
          rcases List.mem_cons.mp ha with rfl | ha
          · exact optWord_dashes
          · exact ho a ha
    have hperl : ∀ w ∈ perl, w ≠ str "--" := fun w hw => (hp w hw).2.2
    subst hs
    simp only [cmdlineSplit, List.tail_cons, printArgs]
    rw [splitArgs_append _ fun a ha => (hopt a ha).optArg, splitArgs_nonOpt _ hname,
      strlistSplit_words fun a ha => (hopt a ha).1, List.foldl_append, foldl_perlWords rfl hperl]
    split
    next h => simp [h]
    next h =>
      have hdash : Split.addOpt ⟨false, [] ++ perl, [], []⟩ (str "--") =
        ⟨true, [] ++ perl, [], []⟩ := rfl
      rw [List.foldl_cons, hdash, foldl_speedyOpts rfl]
      simp

end SpeedyCgi.Options
