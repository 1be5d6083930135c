import SpeedyCgi.Lib.CString
import SpeedyCgi.Lib.Lts
import Mathlib.Data.List.Range
import Mathlib.Logic.Function.Basic

/-!
The socket on which a backend waits for frontends: `speedy_ipc_listen`, `speedy_ipc_listen_fixfd` and
`speedy_ipc_accept`, and `speedy_ipc_connect` at the other end.

A frontend that has taken the backend makes three connections, one after the other, with the temp file
locked; it may die between them, and then the temp file is corrupt. Between two requests the script may
have done anything to the descriptors of the process, so the backend looks at its listener again before
it waits. The numbers of files are not used again, and nobody else touches the files of the sockets.
-/

namespace SpeedyCgi.Ipc

open Function Lib.CString Lib.Lts

/-! ### The names of the sockets -/

/-- `"%x"` -/
def showHex (n : ℕ) : CStr := (Nat.toDigits 16 n).map ch

/-- `speedy_util_fname` -/
def speedyUtilFname (tmpbase : CStr) (euid uid : ℕ) (type : CChar) (num : ℕ) : CStr :=
  if euid = uid then tmpbase ++ ch '.' :: (showHex num ++ (ch '.' :: showHex euid ++ [ch '.', type]))
  else tmpbase ++ ch '.' :: (showHex num ++ (ch '.' :: showHex euid ++ ch '.' :: showHex uid ++
    [ch '.', type]))

lemma ch_digitChar_inj : ∀ a < 16, ∀ b < 16, ch (Nat.digitChar a) = ch (Nat.digitChar b) → a = b := by
  decide

lemma showHex_eq (n : ℕ) : showHex n =
    if n < 16 then [ch n.digitChar] else showHex (n / 16) ++ [ch (n % 16).digitChar] := by
  rw [showHex, Nat.toDigits_eq_if (by decide)]
  split <;> simp [showHex]

lemma showHex_injective : Injective showHex := by
  intro n
  induction n using Nat.strong_induction_on with
  | _ n ih =>
    intro m h
    have hne (k : ℕ) : showHex k ≠ [] := by simp [showHex, Nat.toDigits_ne_nil]
    rw [showHex_eq n, showHex_eq m] at h
    split at h <;> split at h
    next hn hm => exact ch_digitChar_inj n hn m hm (List.singleton_inj.mp h)
    next => exact absurd (List.append_eq_singleton_iff.mp h.symm) (by simp [hne])
    next => exact absurd (List.append_eq_singleton_iff.mp h) (by simp [hne])
    next hn hm =>
      -- the last digit, and those before it
      obtain ⟨hdiv, hmod⟩ := List.append_inj' h rfl
      have hlast := ch_digitChar_inj _ (Nat.mod_lt n (by decide)) _ (Nat.mod_lt m (by decide))
        (List.singleton_inj.mp hmod)
      have hrest := ih (n / 16) (by omega) hdiv
      omega

lemma speedyUtilFname_injective (tmpbase : CStr) (euid uid : ℕ) (type : CChar) :
    Injective (speedyUtilFname tmpbase euid uid type) := by
  intro n m h
  unfold speedyUtilFname at h
  split at h <;>
    exact showHex_injective (List.append_cancel_right (List.cons.inj (List.append_cancel_left h)).2)

/-! ### The process and its files -/

abbrev Fd := ℕ

/-- A file: what its device and inode stand for. -/
abbrev Ino := ℕ

/-- A connection: the frontend, and which of its three it is. -/
abbrev Conn := ℕ × ℕ

inductive Kind
  /-- a socket with the name that it is bound to -/
  | sock (sunPath : CStr) (listening : Bool)
  | conn (c : Conn)
  | other
deriving DecidableEq

inductive Phase
  | boot
  | top
  /-- `speedy_ipc_accept` has so many of the connections -/
  | accept (k : ℕ)
  | onerun
  | gone
deriving DecidableEq

def prefFdListener : Fd := 18

def numfds : ℕ := 3

def listenBacklog : ℕ := numfds

structure State where
  /-- the descriptors of the process -/
  fds : Fd → Option Ino
  kind : Ino → Kind
  next : Ino
  /-- the socket files -/
  path : CStr → Option Ino
  /-- the connections that nobody has accepted yet -/
  queue : Ino → List Conn
  listener : Option Fd
  listenerStbuf : Option Ino
  phase : Phase
  /-- the backend is on the list of those that wait -/
  waiting : Bool
  /-- the frontend that has taken the backend, and the connection that it makes next -/
  connecting : Option Conn
  /-- the slot is no longer the backend's -/
  lost : Bool
  /-- the frontends that have taken the backend -/
  taken : List ℕ
  /-- the files of the descriptors 0 to 2 at each start of `onerun` -/
  served : List (List Kind)

namespace State

variable (s : State)

/-- `fd` is the lowest descriptor that is free. -/
def lowest (fd : Fd) : Prop := s.fds fd = none ∧ ∀ k < fd, s.fds k ≠ none

instance (fd : Fd) : Decidable (s.lowest fd) := inferInstanceAs (Decidable (_ ∧ _))

def setFd (fd : Fd) (f : Option Ino) : State := { s with fds := update s.fds fd f }

/-- A new file, with the descriptor `fd`. -/
def create (fd : Fd) (k : Kind) : State :=
  { s with fds := update s.fds fd (some s.next), kind := update s.kind s.next k, next := s.next + 1 }

/-- `speedy_util_pref_fd`: the descriptor, and the process. -/
def prefFd (oldfd newfd : Fd) : Fd × State :=
  if newfd = oldfd then (oldfd, s) else (newfd, (s.setFd newfd (s.fds oldfd)).setFd oldfd none)

/-- What `getsockname` says of a descriptor. -/
def getsockname (fd : Fd) : Option CStr :=
  match (s.fds fd).map s.kind with
  | some (.sock sunPath _) => some sunPath
  | _ => none

/-- `listen` -/
def listen (fd : Fd) : State :=
  match s.fds fd with
  | some f => match s.kind f with
    | .sock sunPath _ => { s with kind := update s.kind f (.sock sunPath true) }
    | _ => s
  | none => s

/-- A new socket at `fd`, bound to `name`; what had the name has been removed if `unlinked`. -/
def bind (name : CStr) (fd : Fd) (unlinked : Bool) : Option State :=
  if s.lowest fd ∧ (s.path name = none ∨ unlinked) then
    some { s.create fd (.sock name false) with path := update s.path name (some s.next) }
  else none

/-- The socket that is to listen: the one at the preferred descriptor, if that has the name and the file
with this name is there and is the user's, or a new one at `fd`. -/
def getListener (name : CStr) (fd : Fd) (mine unlinked : Bool) : Option (Fd × State) :=
  if s.getsockname prefFdListener = some name ∧ s.path name ≠ none ∧ mine = true then
    some (prefFdListener, s)
  else (s.bind name fd unlinked).map fun s => (fd, s)

/-- The rest of `speedy_ipc_listen`, with the socket at `fd`. -/
def listenOn (fd : Fd) : State :=
  let s := s.listen fd
  let s := { s with listenerStbuf := s.fds fd }
  let p := s.prefFd fd prefFdListener
  { p.2 with listener := some p.1 }

/-- It is none if the process dies. -/
def speedyIpcListen (name : CStr) (fd : Fd) (mine unlinked : Bool) : Option State :=
  (s.getListener name fd mine unlinked).map fun x => x.2.listenOn x.1

def speedyIpcListenFixfd (name : CStr) (fd : Fd) (mine unlinked : Bool) : Option State :=
  match s.listener with
  | none => none
  | some l =>
    if s.fds l ≠ none ∧ s.fds l = s.listenerStbuf then some s
    else ({ s.setFd l none with listener := none }).speedyIpcListen name fd mine unlinked

/-- `do_accept`, where `accept` gets the descriptor `fd`; it waits as long as there is no connection. -/
def doAccept (fd pref : Fd) : Option State :=
  match s.listener.bind s.fds with
  | none => none
  | some f => match s.kind f, s.queue f with
    | .sock _ true, c :: q =>
      if s.lowest fd then
        some ((({ s with queue := update s.queue f q }).create fd (.conn c)).prefFd fd pref).2
      else none
    | _, _ => none

/-- What the descriptors 0 to 2 are when `onerun` starts. -/
def stdio : List Kind := (List.range numfds).filterMap fun fd => (s.fds fd).map s.kind

/-- `do_connect`: the socket with this name has to listen, to have room, and the process has to be there. -/
def doConnect (name : CStr) (c : Conn) : Option State :=
  match s.path name with
  | none => none
  | some f => match s.kind f with
    | .sock _ true =>
      if s.listener.bind s.fds = some f ∧ (s.queue f).length < listenBacklog then
        some { s with queue := update s.queue f (s.queue f ++ [c]) }
      else none
    | _ => none

/-- `speedy_backend_dispose`, by somebody who has locked the temp file. -/
def dispose (name : CStr) : State :=
  { s with path := update s.path name none, connecting := none, lost := true }

end State

/-! ### The runs -/

/-- What a script leaves at a descriptor: a file that was at some descriptor before, or one of those that
it has made. -/
inductive Leaves
  | had (fd : Fd)
  | made (i : ℕ)

inductive Act
  | listen (fd : Fd) (mine unlinked : Bool)
  /-- the section in which the backend goes on the list -/
  | fixfd (fd : Fd) (mine unlinked : Bool)
  | accept (fd : Fd)
  /-- the script makes files of these kinds and leaves these descriptors -/
  | script (leaves : Fd → Option Leaves) (kinds : List Kind)
  /-- the backend exits or is killed -/
  | leave
  | take (frontend : ℕ)
  | connect
  /-- the frontend that has taken the backend dies -/
  | feDies
  /-- somebody finds the backend dead -/
  | dispose
  /-- a backend listens that has this slot -/
  | otherListens (slot : ℕ)

namespace State

variable (fname : ℕ → CStr) (slot : ℕ)

def leftFd (s : State) (kinds : List Kind) : Leaves → Option Ino
  | .had fd => s.fds fd
  | .made i => if i < kinds.length then some (s.next + i) else none

/-- After the script the descriptors 0 to 2 are closed. -/
def afterScript (s : State) (leaves : Fd → Option Leaves) (kinds : List Kind) : State :=
  { s with
    fds := fun fd => if fd < numfds then none else (leaves fd).bind (s.leftFd kinds)
    kind := fun f => if f < s.next then s.kind f else kinds.getD (f - s.next) (s.kind f)
    next := s.next + kinds.length
    phase := .top }

def accepted (k : ℕ) (s : State) : State :=
  if k + 1 = numfds then { s with phase := .onerun, served := s.served ++ [s.stdio] }
  else { s with phase := .accept (k + 1) }

/-- One round of `speedy_ipc_connect`; if it fails the backend is disposed. -/
def connects (s : State) (c : Conn) : State :=
  match s.doConnect (fname slot) c with
  | some s => { s with connecting := if c.2 + 1 = numfds then none else some (c.1, c.2 + 1) }
  | none => s.dispose (fname slot)

def step (s : State) : Act → Option State
  | .listen fd mine unlinked =>
    if s.phase = .boot then
      (s.speedyIpcListen (fname slot) fd mine unlinked).map fun s => { s with phase := .top }
    else none
  | .fixfd fd mine unlinked =>
    if s.phase = .top then
      (s.speedyIpcListenFixfd (fname slot) fd mine unlinked).map fun s =>
        { s with phase := .accept 0, waiting := true }
    else none
  | .accept fd => match s.phase with
    | .accept k => (s.doAccept fd k).map (accepted k)
    | _ => none
  | .script leaves kinds => if s.phase = .onerun then some (s.afterScript leaves kinds) else none
  | .leave => if s.phase = .gone then none else some { s with fds := fun _ => none, phase := .gone }
  | .take c =>
    if s.waiting ∧ ¬s.lost then
      some { s with waiting := false, connecting := some (c, 0), taken := s.taken ++ [c] }
    else none
  | .connect => s.connecting.map (s.connects fname slot)
  | .feDies => if s.connecting.isSome then some { s with connecting := none, lost := true } else none
  | .dispose =>
    if s.phase = .gone ∧ s.connecting = none ∧ ¬s.lost then some (s.dispose (fname slot)) else none
  | .otherListens slot' =>
    if slot' = slot ∧ ¬s.lost then none
    else some { s with
      kind := update s.kind s.next (.sock (fname slot') true)
      path := update s.path (fname slot') (some s.next)
      next := s.next + 1 }

/-- How a backend starts that was forked with these descriptors and files. -/
def start (fds : Fd → Option Ino) (kind : Ino → Kind) (path : CStr → Option Ino) (next : Ino) : State where
  fds
  kind
  next
  path
  queue _ := []
  listener := none
  listenerStbuf := none
  phase := .boot
  waiting := false
  connecting := none
  lost := false
  taken := []
  served := []

end State

/-! ### What the calls do -/

namespace State

variable {fname : ℕ → CStr} {slot : ℕ} {s s' : State} {name : CStr} {fd pref : Fd} {f : Ino}

/-- The files that there are have been made. -/
structure Made (s : State) : Prop where
  fds : ∀ fd f, s.fds fd = some f → f < s.next
  path : ∀ p f, s.path p = some f → f < s.next

/-- The listener is `f`. -/
structure Named (name : CStr) (f : Ino) (s : State) : Prop where
  lt : f < s.next
  kind : s.kind f = .sock name true
  path : s.lost = false → s.path name = some f
  listener : s.listener = some prefFdListener
  stbuf : s.listenerStbuf = some f

/-- Nothing of the requests has changed. -/
structure SameRuns (s s' : State) : Prop where
  queue : s'.queue = s.queue
  waiting : s'.waiting = s.waiting
  connecting : s'.connecting = s.connecting
  lost : s'.lost = s.lost
  taken : s'.taken = s.taken
  served : s'.served = s.served

/-- A descriptor that was free is moved: the preferred one is closed, and no other. -/
lemma prefFd_eq {fds : Fd → Option Ino} (hfree : fds fd = none) (hs : s.fds = update fds fd (some f))
    (pref : Fd) : s.prefFd fd pref = (pref, { s with fds := update fds pref (some f) }) := by
  unfold prefFd
  split
  next h => rw [h, ← hs]
  next h =>
    have heq : update (update s.fds pref (s.fds fd)) fd none = update fds pref (some f) := by
      rw [hs, update_self, update_comm (Ne.symm h), update_idem, update_comm h, ← hfree, update_eq_self]
    simp only [setFd, heq]

lemma doAccept_spec (hl : s.listener.bind s.fds = some f) {b : CStr} (hk : s.kind f = .sock b true)
    (h : s.doAccept fd pref = some s') : ∃ c q, s.queue f = c :: q ∧ s' = { s with
      fds := update s.fds pref (some s.next)
      kind := update s.kind s.next (.conn c)
      next := s.next + 1
      queue := update s.queue f q } := by
  simp only [doAccept, hl, hk] at h
  split at h
  next b' c q hb hq =>
    split at h
    next hlow =>
      obtain rfl := Option.some.inj h
      refine ⟨c, q, hq, ?_⟩
      rw [prefFd_eq hlow.1 rfl]
      rfl
    next => cases h
  next => cases h

/-- The socket at `fd` listens, and what was at the preferred descriptor is closed. -/
lemma listenOn_eq {fds : Fd → Option Ino} {b : Bool} (hs : s.fds = update fds fd (some f))
    (hfree : fds fd = none ∨ fd = prefFdListener) (hk : s.kind f = .sock name b) : s.listenOn fd = { s with
      fds := update fds prefFdListener (some f)
      kind := update s.kind f (.sock name true)
      listener := some prefFdListener
      listenerStbuf := some f } := by
  have hfd : s.fds fd = some f := by rw [hs, update_self]
  have hlisten : s.listen fd = { s with kind := update s.kind f (.sock name true) } := by
    simp only [listen, hfd, hk]
  unfold listenOn
  rw [hlisten]
  rcases hfree with hfree | rfl
  · have hpref := prefFd_eq (s := { s with
      kind := update s.kind f (.sock name true), listenerStbuf := some f }) hfree hs prefFdListener
    simp only [hfd, hpref]
  · simp only [prefFd, if_true, hfd, hs]

lemma getsockname_eq_some (h : s.getsockname fd = some name) :
    ∃ f b, s.fds fd = some f ∧ s.kind f = .sock name b := by
  unfold getsockname at h
  split at h
  next p b hk =>
    obtain ⟨f, hf, hk⟩ := Option.map_eq_some_iff.mp hk
    exact ⟨f, b, hf, by rw [hk, Option.some.inj h]⟩
  next => cases h

/-- A socket that was there already at the preferred descriptor is the one that its name leads to. -/
def Inherits (name : CStr) (s : State) : Prop :=
  s.getsockname prefFdListener = some name → s.path name ≠ none → s.path name = s.fds prefFdListener

lemma speedyIpcListen_spec (hs : s.Made) (hinh : s.Inherits name) {mine unlinked : Bool}
    (h : s.speedyIpcListen name fd mine unlinked = some s') :
    (∃ f, s'.Named name f ∧ s'.fds prefFdListener = some f) ∧ s'.Made ∧ s.SameRuns s' := by
  obtain ⟨x, hx, rfl⟩ := Option.map_eq_some_iff.mp h
  unfold getListener at hx
  split at hx
  next hc =>
    -- the socket was there
    obtain ⟨hname, hpath, -⟩ := hc
    obtain rfl := Option.some.inj hx
    obtain ⟨f, b, hf, hk⟩ := getsockname_eq_some hname
    have hfds : s.fds = update s.fds prefFdListener (some f) := by rw [← hf, update_eq_self]
    rw [listenOn_eq hfds (.inr rfl) hk]
    refine ⟨⟨f, ⟨hs.fds _ _ hf, by simp, fun _ => (hinh hname hpath).trans hf, rfl, rfl⟩, by simp⟩,
      ⟨?_, hs.path⟩, ⟨rfl, rfl, rfl, rfl, rfl, rfl⟩⟩
    simpa only [← hfds] using hs.fds
  next =>
    obtain ⟨t, ht, rfl⟩ := Option.map_eq_some_iff.mp hx
    unfold bind at ht
    split at ht
    next hc =>
      obtain rfl := Option.some.inj ht
      have hk : (s.create fd (.sock name false)).kind s.next = .sock name false := update_self ..
      have heq := listenOn_eq (s := { s.create fd (.sock name false) with
        path := update s.path name (some s.next) }) rfl (.inl hc.1.1) hk
      rw [heq]
      refine ⟨⟨s.next, ⟨Nat.lt_succ_self _, by simp, by simp, rfl, rfl⟩, by simp⟩, ⟨fun k g hg => ?_,
        fun p g hg => ?_⟩, ⟨rfl, rfl, rfl, rfl, rfl, rfl⟩⟩
      · by_cases hk : k = prefFdListener
        · obtain rfl : s.next = g := by simpa [hk] using hg
          exact Nat.lt_succ_self _
        · exact Nat.lt_succ_of_lt (hs.fds k g (by simpa [hk] using hg))
      · by_cases hp : p = name
        · obtain rfl : s.next = g := by simpa [hp] using hg
          exact Nat.lt_succ_self _
        · exact Nat.lt_succ_of_lt (hs.path p g (by simpa [hp] using hg))
    next => cases ht

/-- Whatever the script has done, the listener is open at the preferred descriptor again. -/
lemma speedyIpcListenFixfd_spec (hs : s.Made) (hn : s.Named name f) {mine unlinked : Bool}
    (h : s.speedyIpcListenFixfd name fd mine unlinked = some s') :
    (∃ f, s'.Named name f ∧ s'.fds prefFdListener = some f) ∧ s'.Made ∧ s.SameRuns s' := by
  simp only [speedyIpcListenFixfd, hn.listener] at h
  split at h
  next hsame =>
    obtain rfl := Option.some.inj h
    exact ⟨⟨f, hn, hsame.2.trans hn.stbuf⟩, hs, ⟨rfl, rfl, rfl, rfl, rfl, rfl⟩⟩
  next =>
    have hmade : { s.setFd prefFdListener none with listener := none }.Made := by
      refine ⟨fun k g hg => ?_, hs.path⟩
      by_cases hk : k = prefFdListener
      · simp [setFd, hk] at hg
      · exact hs.fds k g (by simpa [setFd, hk] using hg)
    obtain ⟨hnamed, hmade, h⟩ :=
      speedyIpcListen_spec hmade (fun hname => by simp [getsockname, setFd] at hname) h
    exact ⟨hnamed, hmade, ⟨h.queue, h.waiting, h.connecting, h.lost, h.taken, h.served⟩⟩

end State


/-! ### The requests -/

namespace State

variable {fname : ℕ → CStr} {slot : ℕ} {s s' : State} {name : CStr} {fd : Fd} {f : Ino} {k c j : ℕ}

/-- The three connections of a frontend. -/
def triple (c : ℕ) : List Kind := [.conn (c, 0), .conn (c, 1), .conn (c, 2)]

/-- Nobody has the backend, and all who had it were served. -/
structure Idle (s : State) : Prop where
  waiting : s.waiting = false
  connecting : s.connecting = none
  lost : s.lost = false
  queue : ∀ f, s.queue f = []
  served : s.served = s.taken.map triple

structure Listens (name : CStr) (f : Ino) (s : State) : Prop extends s.Named name f where
  fd : s.fds prefFdListener = some f
  others : ∀ g ≠ f, s.queue g = []

structure Waits (f : Ino) (s : State) : Prop where
  waiting : s.waiting = true
  connecting : s.connecting = none
  lost : s.lost = false
  queue : s.queue f = []
  served : s.served = s.taken.map triple

/-- The frontend `c` has the backend and has made `j` connections, of which the backend has `k`. -/
structure Gets (f : Ino) (k c j : ℕ) (s : State) : Prop where
  waiting : s.waiting = false
  connecting : s.connecting = none ∨ s.connecting = some (c, j) ∧ j < numfds ∧ s.lost = false
  unlost : j = numfds → s.lost = false
  le : k ≤ j ∧ j ≤ numfds ∧ k < numfds
  queue : s.queue f = (List.range' k (j - k)).map (Prod.mk c)
  fds : ∀ i < k, (s.fds i).map s.kind = some (.conn (c, i))
  served : ∃ done, s.taken = done ++ [c] ∧ s.served = done.map triple

/-- All who had the backend were served, but for the last one. -/
def Done (s : State) : Prop :=
  ∃ done rest, s.taken = done ++ rest ∧ s.served = done.map triple ∧ rest.length + s.waiting.toNat ≤ 1

inductive Inv (name : CStr) (s : State) : Prop
  | boot (hphase : s.phase = .boot) (hidle : s.Idle) (hinh : s.Inherits name)
  | rest (hphase : s.phase = .top ∨ s.phase = .onerun) (hidle : s.Idle) {f : Ino} (hnamed : s.Named name f)
  | waits (hphase : s.phase = .accept 0) {f : Ino} (hlistens : s.Listens name f) (hwaits : s.Waits f)
  | gets {k c j : ℕ} (hphase : s.phase = .accept k) {f : Ino} (hlistens : s.Listens name f)
      (hgets : s.Gets f k c j)
  | gone (hphase : s.phase = .gone) (hdone : s.Done)

lemma Inv.done (h : s.Inv name) : s.Done := by
  cases h with
  | boot _ hidle => exact ⟨_, [], (List.append_nil _).symm, hidle.served, by simp [hidle.waiting]⟩
  | rest _ hidle => exact ⟨_, [], (List.append_nil _).symm, hidle.served, by simp [hidle.waiting]⟩
  | waits _ _ hwaits => exact ⟨_, [], (List.append_nil _).symm, hwaits.served, by simp [hwaits.waiting]⟩
  | gets _ _ hgets =>
    obtain ⟨done, htaken, hserved⟩ := hgets.served
    exact ⟨done, [_], htaken, hserved, by simp [hgets.waiting]⟩
  | gone _ hdone => exact hdone

lemma Inv.listen {mine unlinked : Bool} (hs : s.Made) (h : s.Inv name) (hphase : s.phase = .boot)
    (hlisten : s.speedyIpcListen name fd mine unlinked = some s') :
    s'.Made ∧ { s' with phase := .top }.Inv name := by
  cases h with
  | boot _ hidle hinh =>
    obtain ⟨⟨f, hnamed, -⟩, hmade, hsame⟩ := speedyIpcListen_spec hs hinh hlisten
    refine ⟨hmade, .rest (.inl rfl) ⟨?_, ?_, ?_, ?_, ?_⟩ (f := f)
      ⟨hnamed.lt, hnamed.kind, hnamed.path, hnamed.listener, hnamed.stbuf⟩⟩
    · exact hsame.waiting.trans hidle.waiting
    · exact hsame.connecting.trans hidle.connecting
    · exact hsame.lost.trans hidle.lost
    · exact fun f => (congrFun hsame.queue f).trans (hidle.queue f)
    · exact hsame.served.trans (hidle.served.trans (by rw [hsame.taken]))
  | rest hp => simp [hphase] at hp
  | waits hp => simp [hphase] at hp
  | gets hp => simp [hphase] at hp
  | gone hp => simp [hphase] at hp

lemma Inv.fixfd {mine unlinked : Bool} (hs : s.Made) (h : s.Inv name) (hphase : s.phase = .top)
    (hfixfd : s.speedyIpcListenFixfd name fd mine unlinked = some s') :
    s'.Made ∧ { s' with phase := .accept 0, waiting := true }.Inv name := by
  cases h with
  | rest _ hidle hnamed =>
    obtain ⟨⟨f, hnamed, hfd⟩, hmade, hsame⟩ := speedyIpcListenFixfd_spec hs hnamed hfixfd
    refine ⟨hmade, .waits rfl (f := f) ⟨⟨hnamed.lt, hnamed.kind, hnamed.path, hnamed.listener,
      hnamed.stbuf⟩, hfd, fun g _ => (congrFun hsame.queue g).trans (hidle.queue g)⟩ ⟨rfl, ?_, ?_, ?_, ?_⟩⟩
    · exact hsame.connecting.trans hidle.connecting
    · exact hsame.lost.trans hidle.lost
    · exact (congrFun hsame.queue f).trans (hidle.queue f)
    · exact hsame.served.trans (hidle.served.trans (by rw [hsame.taken]))
  | boot hp => simp [hphase] at hp
  | waits hp => simp [hphase] at hp
  | gets hp => simp [hphase] at hp
  | gone hp => simp [hphase] at hp

/-- The process after `do_accept`. -/
def took (s : State) (f : Ino) (k : ℕ) (c : Conn) (q : List Conn) : State := { s with
  fds := update s.fds k (some s.next)
  kind := update s.kind s.next (.conn c)
  next := s.next + 1
  queue := update s.queue f q }

lemma Made.took (hs : s.Made) (f : Ino) (k : ℕ) (c : Conn) (q : List Conn) : (s.took f k c q).Made := by
  refine ⟨fun fd g hg => ?_, fun p g hg => Nat.lt_succ_of_lt (hs.path p g hg)⟩
  by_cases hfd : fd = k
  · obtain rfl : s.next = g := by simpa [State.took, hfd] using hg
    exact Nat.lt_succ_self _
  · exact Nat.lt_succ_of_lt (hs.fds fd g (by simpa [State.took, hfd] using hg))

lemma Named.took (h : s.Named name f) (k : ℕ) (c : Conn) (q : List Conn) :
    (s.took f k c q).Named name f :=
  ⟨Nat.lt_succ_of_lt h.lt, by simp [State.took, h.lt.ne, h.kind], h.path, h.listener, h.stbuf⟩

lemma Gets.fds_took (hs : s.Made) (h : s.Gets f k c j) (q : List Conn) :
    ∀ i < k + 1, ((s.took f k (c, k) q).fds i).map (s.took f k (c, k) q).kind = some (.conn (c, i)) := by
  intro i hi
  rcases Nat.lt_succ_iff_lt_or_eq.mp hi with hi | rfl
  · obtain ⟨g, hg, hk⟩ := Option.map_eq_some_iff.mp (h.fds i hi)
    simp [State.took, hi.ne, hg, (hs.fds i g hg).ne, hk]
  · simp [State.took]

lemma stdio_eq (h : ∀ i < numfds, (s.fds i).map s.kind = some (.conn (c, i))) : s.stdio = triple c := by
  have h0 := h 0 (by decide)
  have h1 := h 1 (by decide)
  have h2 := h 2 (by decide)
  simp [stdio, numfds, List.range_succ, h0, h1, h2, triple]

lemma Listens.took (h : s.Listens name f) (hk : k < numfds) (c : Conn) (q : List Conn) :
    (s.took f k c q).fds prefFdListener = some f ∧ ∀ g ≠ f, (s.took f k c q).queue g = [] := by
  have hne : prefFdListener ≠ k := by
    rintro rfl
    exact absurd hk (by decide)
  exact ⟨by simp [State.took, hne, h.fd], fun g hg => by simp [State.took, hg, h.others g hg]⟩

/-- What the backend still has to accept are the connections from `k` on. -/
lemma Gets.queue_eq (h : s.Gets f k c j) {c' : Conn} {q : List Conn} (hq : s.queue f = c' :: q) :
    k < j ∧ c' = (c, k) ∧ q = (List.range' (k + 1) (j - (k + 1))).map (Prod.mk c) := by
  have hlt : k < j := by
    by_contra hge
    simp [h.queue, Nat.sub_eq_zero_of_le (Nat.le_of_not_lt hge)] at hq
  obtain ⟨rfl, rfl⟩ : (c, k) = c' ∧ (List.range' (k + 1) (j - (k + 1))).map (Prod.mk c) = q := by
    simpa [h.queue, show j - k = j - (k + 1) + 1 by omega, List.range'_succ] using hq
  exact ⟨hlt, rfl, rfl⟩

/-- The next connection is that of the frontend that has the backend. -/
lemma Inv.accept (hs : s.Made) (h : s.Inv name) (hphase : s.phase = .accept k)
    (haccept : s.doAccept fd k = some s') : (s'.accepted k).Made ∧ (s'.accepted k).Inv name := by
  cases h with
  | waits hp hlistens hwaits =>
    obtain ⟨c, q, hq, -⟩ := doAccept_spec (by rw [hlistens.listener]; exact hlistens.fd) hlistens.kind haccept
    simp [hwaits.queue] at hq
  | @gets k' c j hp f hlistens hgets =>
    obtain rfl : k = k' := by simpa [hphase] using hp
    obtain ⟨c', q, hq, rfl⟩ :=
      doAccept_spec (by rw [hlistens.listener]; exact hlistens.fd) hlistens.kind haccept
    obtain ⟨hlt, rfl, hqeq⟩ := hgets.queue_eq hq
    obtain ⟨-, hj, hk⟩ := hgets.le
    change ((s.took f k (c, k) q).accepted k).Made ∧ ((s.took f k (c, k) q).accepted k).Inv name
    have hmade := hs.took f k (c, k) q
    have hnamed := hlistens.toNamed.took k (c, k) q
    have hfds := hgets.fds_took hs q
    obtain ⟨hfd, hothers⟩ := hlistens.took hk (c, k) q
    have hqueue : (s.took f k (c, k) q).queue f = q := by simp [State.took]
    obtain ⟨done, htaken, hserved⟩ := hgets.served
    unfold accepted
    split
    next hlast =>
      -- all three are there
      have hj3 : j = numfds := by omega
      refine ⟨⟨hmade.fds, hmade.path⟩, .rest (.inr rfl) ⟨hgets.waiting, ?_, hgets.unlost hj3, fun g => ?_, ?_⟩
        ⟨hnamed.lt, hnamed.kind, hnamed.path, hnamed.listener, hnamed.stbuf⟩⟩
      · exact hgets.connecting.resolve_right fun h => absurd h.2.1 (by omega)
      · by_cases hg : g = f
        · exact hg ▸ hqueue.trans (by simp [hqeq, hj3, hlast])
        · exact hothers g hg
      · have hstdio := stdio_eq (hlast ▸ hfds)
        change s.served ++ [(s.took f k (c, k) q).stdio] = s.taken.map triple
        rw [hstdio, hserved, htaken, List.map_append, List.map_singleton]
    next hnot =>
      refine ⟨⟨hmade.fds, hmade.path⟩, .gets rfl ⟨⟨hnamed.lt, hnamed.kind, hnamed.path, hnamed.listener,
        hnamed.stbuf⟩, hfd, hothers⟩ ⟨hgets.waiting, hgets.connecting, hgets.unlost,
        ⟨hlt, hj, by omega⟩, hqueue.trans hqeq, hfds, done, htaken, hserved⟩⟩
  | boot hp => simp [hphase] at hp
  | rest hp => simp [hphase] at hp
  | gone hp => simp [hphase] at hp

lemma Made.afterScript (hs : s.Made) (leaves : Fd → Option Leaves) (kinds : List Kind) :
    (s.afterScript leaves kinds).Made := by
  refine ⟨fun fd g hg => ?_, fun p g hg => Nat.lt_add_right _ (hs.path p g hg)⟩
  simp only [State.afterScript] at hg ⊢
  split at hg
  next => cases hg
  next =>
    obtain ⟨l, -, hl⟩ := Option.bind_eq_some_iff.mp hg
    unfold leftFd at hl
    split at hl
    next fd' => exact Nat.lt_add_right _ (hs.fds fd' g hl)
    next i =>
      split at hl
      next hi =>
        obtain rfl := Option.some.inj hl
        exact Nat.add_lt_add_left hi _
      next => cases hl

lemma Inv.script (h : s.Inv name) (hphase : s.phase = .onerun) (leaves : Fd → Option Leaves)
    (kinds : List Kind) : (s.afterScript leaves kinds).Inv name := by
  cases h with
  | rest _ hidle hnamed =>
    refine .rest (.inl rfl) ⟨hidle.waiting, hidle.connecting, hidle.lost, hidle.queue, hidle.served⟩
      ⟨Nat.lt_add_right _ hnamed.lt, ?_, hnamed.path, hnamed.listener, hnamed.stbuf⟩
    simp [State.afterScript, hnamed.lt, hnamed.kind]
  | boot hp => simp [hphase] at hp
  | waits hp => simp [hphase] at hp
  | gets hp => simp [hphase] at hp
  | gone hp => simp [hphase] at hp

lemma Inv.take (h : s.Inv name) (hwaiting : s.waiting = true) (c : ℕ) :
    { s with waiting := false, connecting := some (c, 0), taken := s.taken ++ [c] }.Inv name := by
  cases h with
  | waits hp hlistens hwaits =>
    refine .gets (c := c) (j := 0) hp ⟨⟨hlistens.lt, hlistens.kind, hlistens.path, hlistens.listener,
      hlistens.stbuf⟩, hlistens.fd, hlistens.others⟩ ⟨rfl, .inr ⟨rfl, by decide, hwaits.lost⟩,
      fun h => absurd h (by decide), by decide, hwaits.queue, fun i hi => absurd hi (Nat.not_lt_zero i),
      _, rfl, hwaits.served⟩
  | gone hp hdone =>
    obtain ⟨done, rest, htaken, hserved, hle⟩ := hdone
    obtain rfl : rest = [] := List.length_eq_zero_iff.mp (by simpa [hwaiting] using hle)
    exact .gone hp ⟨done, [c], by simp [htaken], hserved, by simp⟩
  | boot _ hidle => simp [hidle.waiting] at hwaiting
  | rest _ hidle => simp [hidle.waiting] at hwaiting
  | gets _ _ hgets => simp [hgets.waiting] at hwaiting

/-- As long as the backend lives it gets the connection: its socket has the name, and there is room. -/
lemma Inv.doConnect (h : s.Inv name) {x : Conn} (hx : s.connecting = some x) : s.phase = .gone ∨
    ∃ f k c j, s.phase = .accept k ∧ s.Listens name f ∧ s.Gets f k c j ∧ x = (c, j) ∧ j < numfds ∧
      s.doConnect name x = some { s with queue := update s.queue f (s.queue f ++ [x]) } := by
  cases h with
  | @gets k c j hp f hlistens hgets =>
    obtain ⟨hconn, hj, hlost⟩ := hgets.connecting.resolve_left (by simp [hx])
    obtain rfl : x = (c, j) := Option.some.inj (hx.symm.trans hconn)
    refine .inr ⟨f, k, c, j, hp, hlistens, hgets, rfl, hj, ?_⟩
    have hl : s.listener.bind s.fds = some f := by rw [hlistens.listener]; exact hlistens.fd
    have hroom : (s.queue f).length < listenBacklog := by
      rw [hgets.queue, List.length_map, List.length_range']
      exact Nat.lt_of_le_of_lt (Nat.sub_le j k) hj
    simp only [State.doConnect, hlistens.path hlost, hlistens.kind, hl, hroom, and_self, if_true]
  | gone hp => exact .inl hp
  | boot _ hidle => simp [hidle.connecting] at hx
  | rest _ hidle => simp [hidle.connecting] at hx
  | waits _ _ hwaits => simp [hwaits.connecting] at hx

lemma doConnect_eq {x : Conn} (h : s.doConnect name x = some s') :
    ∃ f, s' = { s with queue := update s.queue f (s.queue f ++ [x]) } := by
  unfold State.doConnect at h
  split at h
  next => cases h
  next f hf =>
    split at h
    next =>
      split at h
      next => exact ⟨f, (Option.some.inj h).symm⟩
      next => cases h
    next => cases h

lemma Made.dispose (hs : s.Made) (name : CStr) : (s.dispose name).Made := by
  refine ⟨hs.fds, fun p g hg => ?_⟩
  by_cases hp : p = name
  · simp [State.dispose, hp] at hg
  · exact hs.path p g (by simpa [State.dispose, hp] using hg)

lemma Inv.connects (hs : s.Made) (h : s.Inv (fname slot)) {x : Conn} (hx : s.connecting = some x) :
    (s.connects fname slot x).Made ∧ (s.connects fname slot x).Inv (fname slot) := by
  have hdone := h.done
  rcases h.doConnect hx with hgone | ⟨f, k, c, j, hp, hlistens, hgets, rfl, hj, hconn⟩
  · unfold State.connects
    split
    next s' hs' =>
      obtain ⟨f, rfl⟩ := doConnect_eq hs'
      exact ⟨⟨hs.fds, hs.path⟩, .gone hgone hdone⟩
    next => exact ⟨hs.dispose _, .gone hgone hdone⟩
  · simp only [State.connects, hconn]
    obtain ⟨-, -, hlost⟩ := hgets.connecting.resolve_left (by simp [hx])
    obtain ⟨hkj, -, hk⟩ := hgets.le
    have hqueue : (List.range' k (j - k)).map (Prod.mk c) ++ [(c, j)] =
        (List.range' k (j + 1 - k)).map (Prod.mk c) := by
      rw [Nat.sub_add_comm hkj, List.range'_1_concat, Nat.add_sub_cancel' hkj]
      simp
    refine ⟨⟨hs.fds, hs.path⟩, .gets hp ⟨⟨hlistens.lt, hlistens.kind, hlistens.path, hlistens.listener,
      hlistens.stbuf⟩, hlistens.fd, fun g hg => ?_⟩ (c := c) (j := j + 1) ⟨hgets.waiting, ?_, fun _ => hlost,
      ⟨Nat.le_succ_of_le hkj, hj, hk⟩, ?_, hgets.fds, hgets.served⟩⟩
    · simp [hg, hlistens.others g hg]
    · by_cases hlast : j + 1 = numfds
      · exact .inl (if_pos hlast)
      · exact .inr ⟨if_neg hlast, by omega, hlost⟩
    · simp [hgets.queue, hqueue]

/-- A frontend that dies leaves the connections that it has made. -/
lemma Inv.feDies (h : s.Inv name) (hx : s.connecting.isSome) :
    { s with connecting := none, lost := true }.Inv name := by
  obtain ⟨x, hx⟩ := Option.isSome_iff_exists.mp hx
  have hdone := h.done
  rcases h.doConnect hx with hgone | ⟨f, k, c, j, hp, hlistens, hgets, rfl, hj, -⟩
  · exact .gone hgone hdone
  · exact .gets hp ⟨⟨hlistens.lt, hlistens.kind, nofun, hlistens.listener, hlistens.stbuf⟩, hlistens.fd,
      hlistens.others⟩ ⟨hgets.waiting, .inl rfl, fun h => absurd h hj.ne, hgets.le, hgets.queue, hgets.fds,
      hgets.served⟩

lemma Named.otherListens (h : s.Named (fname slot) f) (hinj : Injective fname) {slot' : ℕ}
    (hslot : slot' ≠ slot ∨ s.lost = true) : { s with
      kind := update s.kind s.next (.sock (fname slot') true)
      path := update s.path (fname slot') (some s.next)
      next := s.next + 1 }.Named (fname slot) f := by
  refine ⟨Nat.lt_succ_of_lt h.lt, by simp [h.lt.ne, h.kind], fun hlost => ?_, h.listener, h.stbuf⟩
  have hne : slot ≠ slot' := (hslot.resolve_right (by simp [show s.lost = false from hlost])).symm
  simp [hinj.ne hne, h.path hlost]

lemma Inv.otherListens (hs : s.Made) (h : s.Inv (fname slot)) (hinj : Injective fname) {slot' : ℕ}
    (hslot : slot' ≠ slot ∨ s.lost = true) : { s with
      kind := update s.kind s.next (.sock (fname slot') true)
      path := update s.path (fname slot') (some s.next)
      next := s.next + 1 }.Inv (fname slot) := by
  have hkind (fd : Fd) : (s.fds fd).map (update s.kind s.next (.sock (fname slot') true)) =
      (s.fds fd).map s.kind := by
    cases hfd : s.fds fd with
    | none => rfl
    | some g => simp [(hs.fds fd g hfd).ne]
  cases h with
  | boot hp hidle hinh =>
    refine .boot hp ⟨hidle.waiting, hidle.connecting, hidle.lost, hidle.queue, hidle.served⟩
      fun hname hpath => ?_
    have hne : slot ≠ slot' := (hslot.resolve_right (by simp [hidle.lost])).symm
    simp only [update_of_ne (hinj.ne hne)] at hpath ⊢
    refine hinh ?_ hpath
    simpa only [getsockname, hkind] using hname
  | rest hp hidle hnamed =>
    exact .rest hp ⟨hidle.waiting, hidle.connecting, hidle.lost, hidle.queue, hidle.served⟩
      (hnamed.otherListens hinj hslot)
  | waits hp hlistens hwaits =>
    exact .waits hp ⟨hlistens.toNamed.otherListens hinj hslot, hlistens.fd, hlistens.others⟩
      ⟨hwaits.waiting, hwaits.connecting, hwaits.lost, hwaits.queue, hwaits.served⟩
  | gets hp hlistens hgets =>
    exact .gets hp ⟨hlistens.toNamed.otherListens hinj hslot, hlistens.fd, hlistens.others⟩
      ⟨hgets.waiting, hgets.connecting, hgets.unlost, hgets.le, hgets.queue,
        fun i hi => (hkind i).trans (hgets.fds i hi), hgets.served⟩
  | gone hp hdone => exact .gone hp hdone

lemma Inv.step (hinj : Injective fname) (hs : s.Made) (h : s.Inv (fname slot)) {a : Act}
    (hstep : s.step fname slot a = some s') : s'.Made ∧ s'.Inv (fname slot) := by
  cases a with
  | listen fd mine unlinked =>
    obtain ⟨hp, hstep⟩ := Option.ite_none_right_eq_some.mp hstep
    obtain ⟨t, ht, rfl⟩ := Option.map_eq_some_iff.mp hstep
    obtain ⟨hmade, hinv⟩ := h.listen hs hp ht
    exact ⟨⟨hmade.fds, hmade.path⟩, hinv⟩
  | fixfd fd mine unlinked =>
    obtain ⟨hp, hstep⟩ := Option.ite_none_right_eq_some.mp hstep
    obtain ⟨t, ht, rfl⟩ := Option.map_eq_some_iff.mp hstep
    obtain ⟨hmade, hinv⟩ := h.fixfd hs hp ht
    exact ⟨⟨hmade.fds, hmade.path⟩, hinv⟩
  | accept fd =>
    simp only [State.step] at hstep
    split at hstep
    next k hp =>
      obtain ⟨t, ht, rfl⟩ := Option.map_eq_some_iff.mp hstep
      exact h.accept hs hp ht
    next => cases hstep
  | script leaves kinds =>
    obtain ⟨hp, rfl⟩ : s.phase = .onerun ∧ s.afterScript leaves kinds = s' := by
      simpa [State.step] using hstep
    exact ⟨hs.afterScript leaves kinds, h.script hp leaves kinds⟩
  | leave =>
    obtain ⟨-, rfl⟩ : s.phase ≠ .gone ∧ { s with fds := fun _ => none, phase := .gone } = s' := by
      simpa [State.step] using hstep
    exact ⟨⟨nofun, hs.path⟩, .gone rfl h.done⟩
  | take c =>
    obtain ⟨hwaiting, hstep⟩ := Option.ite_none_right_eq_some.mp hstep
    obtain rfl := Option.some.inj hstep
    exact ⟨⟨hs.fds, hs.path⟩, h.take hwaiting.1 c⟩
  | connect =>
    obtain ⟨x, hx, rfl⟩ := Option.map_eq_some_iff.mp hstep
    exact h.connects hs hx
  | feDies =>
    obtain ⟨hx, hstep⟩ := Option.ite_none_right_eq_some.mp hstep
    obtain rfl := Option.some.inj hstep
    exact ⟨⟨hs.fds, hs.path⟩, h.feDies hx⟩
  | dispose =>
    obtain ⟨hgone, hstep⟩ := Option.ite_none_right_eq_some.mp hstep
    obtain rfl := Option.some.inj hstep
    exact ⟨hs.dispose _, .gone hgone.1 h.done⟩
  | otherListens slot' =>
    simp only [State.step] at hstep
    split at hstep
    next => cases hstep
    next hslot =>
      obtain rfl := Option.some.inj hstep
      have hslot' : slot' ≠ slot ∨ s.lost = true := by
        by_cases h : slot' = slot
        · exact .inr (by simpa [h] using hslot)
        · exact .inl h
      refine ⟨⟨fun fd g hg => Nat.lt_succ_of_lt (hs.fds fd g hg), fun p g hg => ?_⟩,
        h.otherListens hs hinj hslot'⟩
      by_cases hp : p = fname slot'
      · obtain rfl : s.next = g := by simpa [hp] using hg
        exact Nat.lt_succ_self _
      · exact Nat.lt_succ_of_lt (hs.path p g (by simpa [hp] using hg))

/-- A request gets the three connections of one frontend, in the order in which the frontends took the
backend, and a frontend cannot fail to connect to a backend that lives: whatever the scripts did to the
descriptors, the socket listens under its name, and there is room in its queue. -/
theorem one_frontend (tmpbase : CStr) (euid uid slot : ℕ) {fds : Fd → Option Ino} {kind : Ino → Kind}
    {path : CStr → Option Ino} {next : Ino} (hmade : (start fds kind path next).Made)
    (hinh : (start fds kind path next).Inherits (speedyUtilFname tmpbase euid uid (ch 'S') slot))
    (h : Reach (step (speedyUtilFname tmpbase euid uid (ch 'S')) slot) (start fds kind path next) s) :
    (∃ done rest, s.taken = done ++ rest ∧ rest.length ≤ 1 ∧
      s.served = done.map fun c => [.conn (c, 0), .conn (c, 1), .conn (c, 2)]) ∧
    (∀ x, s.connecting = some x → s.phase ≠ .gone →
      (s.doConnect (speedyUtilFname tmpbase euid uid (ch 'S') slot) x).isSome) := by
  obtain ⟨-, hinv⟩ : s.Made ∧ s.Inv (speedyUtilFname tmpbase euid uid (ch 'S') slot) :=
    h.inv (P := fun s => s.Made ∧ s.Inv (speedyUtilFname tmpbase euid uid (ch 'S') slot))
      ⟨hmade, .boot rfl ⟨rfl, rfl, rfl, fun _ => rfl, rfl⟩ hinh⟩
      fun _ _ _ _ hinv _ hs => hinv.2.step (speedyUtilFname_injective ..) hinv.1 hs
  refine ⟨?_, fun x hx hphase => ?_⟩
  · obtain ⟨done, rest, htaken, hserved, hle⟩ := hinv.done
    exact ⟨done, rest, htaken, Nat.le_of_add_right_le hle, hserved⟩
  · obtain hgone | ⟨f, k, c, j, -, -, -, -, -, hconn⟩ := hinv.doConnect hx
    · exact absurd hgone hphase
    · exact hconn ▸ rfl

/-- The script closes the listener and leaves another file at its descriptor; the next frontend has made
one connection. -/
def secondRequest : State :=
  (run (step (speedyUtilFname (str "/tmp/speedy") 33 33 (ch 'S')) 4)
    (start (fun _ => none) (fun _ => .other) (fun _ => none) 0)
    [.listen 0 true true, .otherListens 5, .fixfd 0 true true, .take 7, .connect, .connect, .accept 0,
      .accept 1, .connect, .accept 2,
      .script (fun fd => if fd = prefFdListener then some (.made 0) else none) [.other],
      .fixfd 0 true true, .take 9, .connect]).get rfl

theorem one_frontend_second :
    ((∃ done rest, secondRequest.taken = done ++ rest ∧ rest.length ≤ 1 ∧
        secondRequest.served = done.map fun c => [.conn (c, 0), .conn (c, 1), .conn (c, 2)]) ∧
      (∀ x, secondRequest.connecting = some x → secondRequest.phase ≠ .gone →
        (secondRequest.doConnect (speedyUtilFname (str "/tmp/speedy") 33 33 (ch 'S') 4) x).isSome)) ∧
      secondRequest.served = [[.conn (7, 0), .conn (7, 1), .conn (7, 2)]] ∧
      secondRequest.taken = [7, 9] ∧ secondRequest.connecting = some (9, 1) :=
  have hmade : (start (fun _ => none) (fun _ => .other) (fun _ => none) 0).Made := ⟨nofun, nofun⟩
  ⟨one_frontend (str "/tmp/speedy") 33 33 4 hmade (fun h => nomatch h)
    (Reach.run .init (Option.some_get _).symm), rfl, rfl, rfl⟩

end State

end SpeedyCgi.Ipc
