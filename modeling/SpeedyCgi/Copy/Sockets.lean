import SpeedyCgi.Copy.Relay

/-!
The descriptors of the frontend before it copies.

While the sockets are made the script is open; the temp file is opened and closed as it likes, the
script is opened anew when it may have changed, and the sockets are closed when no backend answers
them. In the end the script is closed, and the pipe for the signals is made: its end for reading gets
the descriptor that the script had.
-/

namespace SpeedyCgi.Copy

open Function Lib.Lts

structure Table where
  isOpen : ℕ → Bool
  script : Option ℕ
  file : Option ℕ
  socks : Option (Fin 3 → ℕ)
  sigPipes : Option (ℕ × ℕ)

inductive Call
  | scriptOpen (fd : ℕ)
  | fileOpen (fd : ℕ)
  | fileClose
  /-- `speedy_ipc_connect_prepare` -/
  | prepare (a b c : ℕ)
  /-- `speedy_ipc_connect` fails -/
  | refused
  /-- the end of `speedy_frontend_connect`, and `pipe` -/
  | pipe (a b : ℕ)

namespace Table

variable (t : Table)

def close (fd : ℕ) : Table := { t with isOpen := update t.isOpen fd false }

/-- `fd` is the new descriptor: the lowest that is not open. -/
def new (fd : ℕ) : Option Table :=
  if t.isOpen fd = false ∧ ∀ k < fd, t.isOpen k = true then
    some { t with isOpen := update t.isOpen fd true }
  else none

def scriptClose : Table :=
  match t.script with
  | none => t
  | some fd => { t.close fd with script := none }

def threeSocks (a b c : ℕ) (i : Fin 3) : ℕ := if i = CB_IN then a else if i = CB_OUT then b else c

/-- The sockets are made one after the other. -/
def prepare (a b c : ℕ) : Option Table :=
  (((t.new a).bind fun t => t.new b).bind fun t => t.new c).map fun t =>
    { t with socks := some (threeSocks a b c) }

def step (t : Table) : Call → Option Table
  | .scriptOpen fd =>
    if t.sigPipes.isNone then (t.scriptClose.new fd).map fun t => { t with script := some fd }
    else none
  | .fileOpen fd =>
    if t.script.isSome && t.file.isNone then (t.new fd).map fun t => { t with file := some fd }
    else none
  | .fileClose => if t.script.isSome then t.file.map fun fd => { t.close fd with file := none } else none
  | .prepare a b c => if t.script.isSome && t.socks.isNone then t.prepare a b c else none
  | .refused => if t.script.isSome then t.socks.map fun socks =>
      { ((t.close (socks CB_IN)).close (socks CB_OUT)).close (socks CB_ERR) with socks := none } else none
  | .pipe a b =>
    if t.script.isSome && t.socks.isSome then
      ((t.scriptClose.new a).bind fun t => t.new b).map fun t => { t with sigPipes := some (a, b) }
    else none

/-- How the frontend is started. -/
def start (isOpen : ℕ → Bool) : Table := ⟨isOpen, none, none, none, none⟩

/-! ### The invariant -/

/-- `s` is the descriptor of the script, which then is that of the pipe. -/
structure Opened (isOpen : ℕ → Bool) (s : ℕ) (t : Table) : Prop where
  lowest : isOpen s = false ∧ ∀ k < s, isOpen k = true
  still : ∀ fd, isOpen fd = true → t.isOpen fd = true
  script_open : t.isOpen s = true
  script : t.script = some s ∧ t.sigPipes = none ∨
    t.script = none ∧ t.socks.isSome ∧ ∃ b, t.sigPipes = some (s, b)
  file : ∀ fd, t.file = some fd → s < fd ∧ t.isOpen fd = true ∧ isOpen fd = false
  socks : ∀ q, t.socks = some q → s < q CB_IN ∧ q CB_IN < q CB_OUT ∧ q CB_OUT < q CB_ERR ∧
    ∀ i, t.isOpen (q i) = true ∧ isOpen (q i) = false ∧ t.file ≠ some (q i)

variable {t} {isOpen : ℕ → Bool} {s fd : ℕ} {t' : Table}

lemma new_spec (h : t.new fd = some t') : t.isOpen fd = false ∧ (∀ k < fd, t.isOpen k = true) ∧
    t' = { t with isOpen := update t.isOpen fd true } := by
  unfold new at h
  split at h
  next hc => exact ⟨hc.1, hc.2, (Option.some.inj h).symm⟩
  next => cases h

lemma new_open (h : t.new fd = some t') {k : ℕ} (hk : t.isOpen k = true ∨ k = fd) :
    t'.isOpen k = true := by
  obtain ⟨-, -, rfl⟩ := new_spec h
  rcases hk with hk | rfl
  · by_cases hne : k = fd <;> simp [hne, hk]
  · simp

lemma new_rest (h : t.new fd = some t') :
    t'.script = t.script ∧ t'.file = t.file ∧ t'.sigPipes = t.sigPipes := by
  obtain ⟨-, -, rfl⟩ := new_spec h
  exact ⟨rfl, rfl, rfl⟩

/-- Two new descriptors come in order. -/
lemma lt_of_new {t'' : Table} {a b : ℕ} (ha : t.new a = some t') (hb : t'.new b = some t'') : a < b := by
  obtain ⟨-, hlow, rfl⟩ := new_spec ha
  obtain ⟨hb, -, -⟩ := new_spec hb
  rcases Nat.lt_trichotomy b a with hlt | rfl | hlt
  · simp [Nat.ne_of_lt hlt, hlow b hlt] at hb
  · simp at hb
  · exact hlt

namespace Opened

/-- A new descriptor is above that of the script, and was not open at the start. -/
lemma above (h : t.Opened isOpen s) (hfd : t.isOpen fd = false) : s < fd ∧ isOpen fd = false := by
  have hout : isOpen fd = false := by
    cases hfd' : isOpen fd with
    | false => rfl
    | true => rw [h.still fd hfd'] at hfd; cases hfd
  refine ⟨?_, hout⟩
  rcases Nat.lt_trichotomy fd s with hlt | rfl | hlt
  · rw [h.lowest.2 fd hlt] at hout
    cases hout
  · rw [h.script_open] at hfd
    cases hfd
  · exact hlt

lemma new (h : t.Opened isOpen s) (hnew : t.new fd = some t') : t'.Opened isOpen s := by
  have hopen {k : ℕ} (hk : t.isOpen k = true) : t'.isOpen k = true := new_open hnew (.inl hk)
  obtain ⟨hfd, -, rfl⟩ := new_spec hnew
  refine ⟨h.lowest, fun k hk => hopen (h.still k hk), hopen h.script_open, h.script,
    fun k hk => ?_, fun q hq => ?_⟩
  · obtain ⟨hlt, hk, hout⟩ := h.file k hk
    exact ⟨hlt, hopen hk, hout⟩
  · obtain ⟨h0, h1, h2, hi⟩ := h.socks q hq
    exact ⟨h0, h1, h2, fun i => ⟨hopen (hi i).1, (hi i).2⟩⟩

/-- A descriptor above that of the script is closed, which is that of the temp file or of none of the
others. -/
lemma close (h : t.Opened isOpen s) (hlt : s < fd) (hout : isOpen fd = false) (hfile : t.file ≠ some fd)
    (hsocks : ∀ q, t.socks = some q → ∀ i, q i ≠ fd) : (t.close fd).Opened isOpen s := by
  have hopen {k : ℕ} (hne : k ≠ fd) (hk : t.isOpen k = true) : (t.close fd).isOpen k = true := by
    simp [Table.close, hne, hk]
  refine ⟨h.lowest, fun k hk => hopen (by rintro rfl; simp [hk] at hout) (h.still k hk),
    hopen (Nat.ne_of_lt hlt) h.script_open, h.script, fun k hk => ?_, fun q hq => ?_⟩
  · obtain ⟨hk1, hk2, hk3⟩ := h.file k hk
    exact ⟨hk1, hopen (by rintro rfl; exact hfile hk) hk2, hk3⟩
  · obtain ⟨h0, h1, h2, hi⟩ := h.socks q hq
    exact ⟨h0, h1, h2, fun i => ⟨hopen (hsocks q hq i) (hi i).1, (hi i).2⟩⟩

lemma noFile (h : t.Opened isOpen s) : Opened isOpen s { t with file := none } :=
  ⟨h.lowest, h.still, h.script_open, h.script, fun k hk => by simp at hk, fun q hq =>
    let ⟨h0, h1, h2, hi⟩ := h.socks q hq
    ⟨h0, h1, h2, fun i => ⟨(hi i).1, (hi i).2.1, by simp⟩⟩⟩

lemma noSocks (h : t.Opened isOpen s) (hscript : t.script = some s) (hpipes : t.sigPipes = none) :
    Opened isOpen s { t with socks := none } :=
  ⟨h.lowest, h.still, h.script_open, .inl ⟨hscript, hpipes⟩, h.file, fun q hq => by simp at hq⟩

lemma fileOpen (h : t.Opened isOpen s) (hnew : t.new fd = some t') :
    Opened isOpen s { t' with file := some fd } := by
  have h' := h.new hnew
  obtain ⟨hfd, -, rfl⟩ := new_spec hnew
  obtain ⟨hlt, hout⟩ := h.above hfd
  refine ⟨h'.lowest, h'.still, h'.script_open, h'.script, fun k hk => ?_, fun q hq => ?_⟩
  · obtain rfl : fd = k := Option.some.inj hk
    simp [hlt, hout]
  · obtain ⟨h0, h1, h2, hi⟩ := h'.socks q hq
    refine ⟨h0, h1, h2, fun i => ⟨(hi i).1, (hi i).2.1, fun he => ?_⟩⟩
    -- a socket was open before
    obtain rfl : fd = q i := Option.some.inj he
    have hold := ((h.socks q hq).2.2.2 i).1
    rw [hfd] at hold
    cases hold

/-- A new descriptor is not that of the temp file. -/
lemma file_ne (h : t.Opened isOpen s) (hfd : t.isOpen fd = false) : t.file ≠ some fd := fun hf => by
  rw [(h.file fd hf).2.1] at hfd
  cases hfd

lemma prepare (h : t.Opened isOpen s) (hscript : t.script = some s) (hpipes : t.sigPipes = none)
    {a b c : ℕ} (hp : t.prepare a b c = some t') : t'.Opened isOpen s := by
  simp only [Table.prepare, Option.map_eq_some_iff, Option.bind_eq_some_iff] at hp
  obtain ⟨t3, ⟨t2, ⟨t1, ha, hb⟩, hc⟩, rfl⟩ := hp
  have h1 := h.new ha
  have h2 := h1.new hb
  have h3 := h2.new hc
  obtain ⟨hs1, hf1, hp1⟩ := new_rest ha
  obtain ⟨hs2, hf2, hp2⟩ := new_rest hb
  obtain ⟨hs3, hf3, hp3⟩ := new_rest hc
  have hfa := (new_spec ha).1
  have hfb := (new_spec hb).1
  have hfc := (new_spec hc).1
  refine ⟨h3.lowest, h3.still, h3.script_open, .inl ⟨(hs3.trans hs2).trans (hs1.trans hscript),
    (hp3.trans hp2).trans (hp1.trans hpipes)⟩, h3.file, fun q hq => ?_⟩
  obtain rfl : threeSocks a b c = q := Option.some.inj hq
  refine ⟨(h.above hfa).1, lt_of_new ha hb, lt_of_new hb hc, fun i => ?_⟩
  obtain rfl | rfl | rfl := eq_cb i
  · exact ⟨new_open hc (.inl (new_open hb (.inl (new_open ha (.inr rfl))))),
      (h.above hfa).2, hf3 ▸ hf2 ▸ hf1 ▸ h.file_ne hfa⟩
  · exact ⟨new_open hc (.inl (new_open hb (.inr rfl))), (h1.above hfb).2,
      hf3 ▸ hf2 ▸ h1.file_ne hfb⟩
  · exact ⟨new_open hc (.inr rfl), (h2.above hfc).2, hf3 ▸ h2.file_ne hfc⟩

lemma refused (h : t.Opened isOpen s) (hscript : t.script = some s) (hpipes : t.sigPipes = none)
    {q : Fin 3 → ℕ} (hq : t.socks = some q) :
    Opened isOpen s { ((t.close (q CB_IN)).close (q CB_OUT)).close (q CB_ERR) with socks := none } := by
  obtain ⟨h0, h1, h2, hi⟩ := h.socks q hq
  have hclose {t' : Table} (h' : t'.Opened isOpen s) (hfile : t'.file = t.file)
      (hsocks : t'.socks = none) (i : Fin 3) : (t'.close (q i)).Opened isOpen s := by
    refine h'.close ?_ (hi i).2.1 (hfile ▸ (hi i).2.2) fun q hq => by simp [hsocks] at hq
    obtain rfl | rfl | rfl := eq_cb i <;> omega
  exact hclose (hclose (hclose (h.noSocks hscript hpipes) rfl rfl CB_IN) rfl rfl CB_OUT) rfl rfl CB_ERR

/-- The script is closed and something opened: that gets its descriptor. -/
lemma eq_of_reopen (h : t.Opened isOpen s) (hscript : t.script = some s)
    (hnew : t.scriptClose.new fd = some t') : fd = s := by
  simp only [scriptClose, hscript] at hnew
  obtain ⟨hfd, hlow, -⟩ := new_spec hnew
  rcases Nat.lt_trichotomy fd s with hlt | rfl | hlt
  · simp [Table.close, Nat.ne_of_lt hlt, h.still fd (h.lowest.2 fd hlt)] at hfd
  · rfl
  · simpa [Table.close] using hlow s hlt

/-- The same with all that is above it. -/
lemma reopen (h : t.Opened isOpen s) (hscript : t.script = some s)
    (hnew : t.scriptClose.new fd = some t') :
    fd = s ∧ t' = { t with isOpen := t.isOpen, script := none } := by
  obtain rfl := h.eq_of_reopen hscript hnew
  obtain ⟨-, -, rfl⟩ := new_spec hnew
  refine ⟨rfl, ?_⟩
  have : update (update t.isOpen fd false) fd true = t.isOpen := by
    rw [update_idem, ← h.script_open, update_eq_self]
  simp only [scriptClose, hscript, Table.close, this]

end Opened

/-- One call. -/
lemma step_inv {c : Call} (h : t = start isOpen ∨ ∃ s, t.Opened isOpen s) (hs : t.step c = some t') :
    t' = start isOpen ∨ ∃ s, t'.Opened isOpen s := by
  refine .inr ?_
  rcases h with rfl | ⟨s, h⟩
  · -- at first the script is opened
    cases c with
    | scriptOpen fd =>
      obtain ⟨t1, hnew, rfl⟩ : ∃ t1, (start isOpen).new fd = some t1 ∧ { t1 with script := some fd } = t' := by
        simpa [step, start, scriptClose] using hs
      obtain ⟨hfd, hlow, rfl⟩ := new_spec hnew
      refine ⟨fd, ⟨hfd, hlow⟩, fun k hk => ?_, by simp, .inl ⟨rfl, rfl⟩, fun k hk => ?_, fun q hq => ?_⟩
      · by_cases hne : k = fd <;> simp [hne, start, hk]
      · cases hk
      · cases hq
    | fileOpen fd => simp [step, start] at hs
    | fileClose => simp [step, start] at hs
    | prepare a b c => simp [step, start] at hs
    | refused => simp [step, start] at hs
    | pipe a b => simp [step, start] at hs
  · refine ⟨s, ?_⟩
    rcases h.script with ⟨hscript, hpipes⟩ | ⟨hscript, -, b, hpipes⟩
    · cases c with
      | scriptOpen fd =>
        obtain ⟨t1, hnew, rfl⟩ : ∃ t1, t.scriptClose.new fd = some t1 ∧ { t1 with script := some fd } = t' := by
          simpa [step, hpipes] using hs
        obtain ⟨rfl, rfl⟩ := h.reopen hscript hnew
        exact ⟨h.lowest, h.still, h.script_open, .inl ⟨rfl, hpipes⟩, h.file, h.socks⟩
      | fileOpen fd =>
        simp only [step, hscript] at hs
        split at hs
        next =>
          obtain ⟨t1, hnew, rfl⟩ := Option.map_eq_some_iff.mp hs
          exact h.fileOpen hnew
        next => cases hs
      | fileClose =>
        obtain ⟨fd, hfile, rfl⟩ : ∃ fd, t.file = some fd ∧ { t.close fd with file := none } = t' := by
          simpa [step, hscript] using hs
        obtain ⟨hlt, -, hout⟩ := h.file fd hfile
        refine h.noFile.close hlt hout (by simp) fun q hq i he => ?_
        exact ((h.socks q hq).2.2.2 i).2.2 (he ▸ hfile)
      | prepare a b c =>
        simp only [step] at hs
        split at hs
        next => exact h.prepare hscript hpipes hs
        next => cases hs
      | refused =>
        obtain ⟨q, hq, rfl⟩ := Option.map_eq_some_iff.mp (by simpa [step, hscript] using hs)
        exact h.refused hscript hpipes hq
      | pipe a b =>
        simp only [step] at hs
        split at hs
        next hsocks =>
          obtain ⟨t2, hb, rfl⟩ := Option.map_eq_some_iff.mp hs
          obtain ⟨t1, ha, hb⟩ := Option.bind_eq_some_iff.mp hb
          obtain ⟨rfl, rfl⟩ := h.reopen hscript ha
          obtain ⟨hfb, hlow, rfl⟩ := new_spec hb
          rw [Bool.and_eq_true] at hsocks
          have h' : Opened isOpen a { t with script := none, sigPipes := some (a, b) } :=
            ⟨h.lowest, h.still, h.script_open, .inr ⟨rfl, hsocks.2, b, rfl⟩, h.file, h.socks⟩
          exact h'.new (if_pos ⟨hfb, hlow⟩)
        next => cases hs
    · cases c <;> simp [step, hscript, hpipes] at hs

/-- The end of every run: the pipe has the descriptor of the script, and the sockets come behind it. -/
theorem piped (h : Reach step (start isOpen) t) {a b : ℕ} (hpipes : t.sigPipes = some (a, b)) :
    ∃ q, t.socks = some q ∧ isOpen a = false ∧ t.isOpen a = true ∧ a < q CB_IN ∧
      q CB_IN < q CB_OUT ∧ q CB_OUT < q CB_ERR ∧ (∀ fd, isOpen fd = true → t.isOpen fd = true) ∧
      ∀ i, t.isOpen (q i) = true ∧ isOpen (q i) = false := by
  have hinv : t = start isOpen ∨ ∃ s, t.Opened isOpen s :=
    h.inv (.inl rfl) fun s c s' _ h _ hs => step_inv h hs
  obtain rfl | ⟨s, h⟩ := hinv
  · cases hpipes
  · obtain ⟨-, hsome, b', hb⟩ := h.script.resolve_left fun hn => by simp [hn.2] at hpipes
    obtain ⟨rfl, rfl⟩ : s = a ∧ b' = b := by simpa [hpipes, eq_comm] using hb
    obtain ⟨q, hq⟩ := Option.isSome_iff_exists.mp hsome
    obtain ⟨h0, h1, h2, hi⟩ := h.socks q hq
    exact ⟨q, hq, h.lowest.1, h.script_open, h0, h1, h2, h.still, fun i => ⟨(hi i).1, (hi i).2.1⟩⟩

/-- `doit` goes on with what a run has left, and with the pipe `sig`. -/
structure Leaves (t : Table) (sig : ℕ) (l : Launch) : Prop where
  reach : Reach step (start l.isOpen) t
  pipe : t.sigPipes.map Prod.fst = some sig
  socks : t.socks = some l.socks
  opened : t.isOpen = l.opened

/-- What `Launch` demands of the sockets. -/
structure Ready (t : Table) (isOpen : ℕ → Bool) : Prop where
  socks : t.socks = some (t.socks.getD fun _ => 0)
  still : ∀ fd, isOpen fd → t.isOpen fd
  fresh : ∀ i, ¬isOpen (t.socks.getD (fun _ => 0) i)
  sock_open : ∀ i, t.isOpen (t.socks.getD (fun _ => 0) i)
  sock_lt : t.socks.getD (fun _ => 0) 0 < t.socks.getD (fun _ => 0) 1 ∧
    t.socks.getD (fun _ => 0) 1 < t.socks.getD (fun _ => 0) 2

lemma ready (h : Reach step (start isOpen) t) {a b : ℕ} (hpipes : t.sigPipes = some (a, b)) :
    t.Ready isOpen := by
  obtain ⟨q, hq, -, -, -, h1, h2, hstill, hi⟩ := piped h hpipes
  have hget : t.socks.getD (fun _ => 0) = q := by simp [hq]
  refine ⟨hget ▸ hq, hstill, fun i => ?_, fun i => hget ▸ (hi i).1, hget ▸ ⟨h1, h2⟩⟩
  simp [hget, (hi i).2]

/-- How `doit` starts with these sockets. -/
def launch (h : t.Ready isOpen) (inIsTty : Bool) (bufsizPost bufsizGet : ℕ) (ibuf : Contents) :
    Launch where
  isOpen := isOpen
  inIsTty := inIsTty
  bufsizPost := bufsizPost
  bufsizGet := bufsizGet
  ibuf := ibuf
  opened := t.isOpen
  socks := t.socks.getD fun _ => 0
  still := h.still
  fresh := h.fresh
  sock_open := h.sock_open
  sock_lt := h.sock_lt

lemma leaves_launch (h : Reach step (start isOpen) t) {a b : ℕ} (hpipes : t.sigPipes = some (a, b))
    (inIsTty : Bool) (bufsizPost bufsizGet : ℕ) (ibuf : Contents) :
    t.Leaves a (launch (ready h hpipes) inIsTty bufsizPost bufsizGet ibuf) :=
  ⟨h, by simp [hpipes], (ready h hpipes).socks, rfl⟩

/-- The pipe is below the sockets, and was not open at the start. -/
theorem Leaves.pipe_lt {sig : ℕ} {l : Launch} (h : t.Leaves sig l) :
    sig < l.socks CB_IN ∧ l.isOpen sig = false ∧ l.opened sig = true := by
  obtain ⟨⟨a, b⟩, hpipes, rfl⟩ := Option.map_eq_some_iff.mp h.pipe
  obtain ⟨q, hq, hout, hopen, hlt, -⟩ := piped h.reach hpipes
  obtain rfl : l.socks = q := Option.some.inj (h.socks.symm.trans hq)
  exact ⟨hlt, hout, h.opened ▸ hopen⟩

end Table

end SpeedyCgi.Copy
