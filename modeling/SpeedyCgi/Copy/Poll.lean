import SpeedyCgi.Copy.Channel
import SpeedyCgi.Lib.Lts
import Mathlib.Data.List.Nodup
import Mathlib.Data.List.Perm.Subperm

/-!
Waiting for descriptors: the two implementations of `speedy_poll.c`, and what `doit` asks of them.

With `poll` there is an array of the descriptors that are waited for, and a map from descriptors to
places in it; with `select` there are two sets. Memory is that of `speedy_poll_init`, which is told
the highest descriptor: an access outside of it is none. `doit` tells it the highest of its sockets,
but waits for the end of a pipe too that is made when the sockets are there.
-/

namespace SpeedyCgi.Copy

open Function Lib.Lts

/-- The bits of `events` and `revents`. -/
inductive PollBit
  | pollIn
  | pollOut
  | pollHup
  | pollErr
  | pollNval
  deriving DecidableEq

abbrev Events := PollBit → Bool

/-- `SPEEDY_POLLIN` and `SPEEDY_POLLOUT`, the flags that `speedy_poll_set` and `speedy_poll_isset` are
called with. -/
inductive Flag
  | speedyPollin
  | speedyPollout
  deriving DecidableEq

def Flag.events : Flag → Events
  | .speedyPollin => fun e => e ≠ .pollOut
  | .speedyPollout => fun e => e ≠ .pollIn

/-- `a & b` is not zero. -/
def Events.meets (a b : Events) : Bool :=
  [.pollIn, .pollOut, .pollHup, .pollErr, .pollNval].any fun e => a e && b e

/-- `a | b` -/
def Events.or (a b : Events) : Events := fun e => a e || b e

/-! ### With `poll` -/

structure PollFd where
  fd : ℕ
  events : Events
  revents : Events

structure PollInfo where
  fds : List PollFd
  fdmap : List (Option ℕ)
  maxfd : ℕ
  numfds : ℕ

namespace PollInfo

def speedyPollReset (pi : PollInfo) : PollInfo :=
  { pi with numfds := 0, fdmap := List.replicate (pi.maxfd + 1) none }

/-- `speedy_poll_init`, where `junk` is in the memory that it gets. -/
def speedyPollInit (junk : ℕ → PollFd) (maxfd : ℕ) : PollInfo :=
  speedyPollReset ⟨(List.range (maxfd + 1)).map junk, [], maxfd, 0⟩

def speedyPollSet (fd : ℕ) (flags : Flag) (pi : PollInfo) : Option PollInfo :=
  match pi.fdmap[fd]? with
  | none => none
  | some none =>
    if pi.numfds < pi.fds.length then
      some { pi with
        fdmap := pi.fdmap.set fd (some pi.numfds)
        fds := pi.fds.set pi.numfds ⟨fd, flags.events, flags.events⟩
        numfds := pi.numfds + 1 }
    else none
  | some (some i) => (pi.fds[i]?).map fun p =>
    { pi with fds := pi.fds.set i ⟨p.fd, p.events.or flags.events, p.revents.or flags.events⟩ }

def speedyPollIsset (pi : PollInfo) (fd : ℕ) (flag : Flag) : Option Bool :=
  match pi.fdmap[fd]? with
  | none => none
  | some none => some false
  | some (some i) => (pi.fds[i]?).map fun p => p.revents.meets flag.events

/-- `poll`, where `answer` is what is the matter with every descriptor. -/
def pollWait (answer : ℕ → Events) (pi : PollInfo) : PollInfo :=
  { pi with fds := pi.fds.mapIdx fun i p =>
      if i < pi.numfds then { p with revents := fun e => p.events e && answer p.fd e } else p }

end PollInfo

/-! ### With `select` -/

/-- `FD_SETSIZE` -/
def fdSetsize : ℕ := 1024

structure SelectInfo where
  fdset : Flag → List Bool
  maxfd : ℕ

namespace SelectInfo

def speedyPollReset (si : SelectInfo) : SelectInfo :=
  { si with fdset := fun _ => List.replicate fdSetsize false }

/-- `speedy_poll_init`, where `junk` is in the sets before. -/
def speedyPollInit (junk : Flag → List Bool) (maxfd : ℕ) : SelectInfo := speedyPollReset ⟨junk, maxfd⟩

def speedyPollSet (fd : ℕ) (flags : Flag) (si : SelectInfo) : Option SelectInfo :=
  if fd < (si.fdset flags).length then
    some { si with fdset := update si.fdset flags ((si.fdset flags).set fd true) }
  else none

def speedyPollIsset (si : SelectInfo) (fd : ℕ) (flag : Flag) : Option Bool := (si.fdset flag)[fd]?

/-- `select`, where `answer` is whether a descriptor is ready. -/
def pollWait (answer : ℕ → Flag → Bool) (si : SelectInfo) : SelectInfo :=
  { si with fdset := fun flag => (si.fdset flag).mapIdx fun fd b =>
      if fd ≤ si.maxfd then b && answer fd flag else b }

end SelectInfo

/-! ### What is meant -/

/-- The descriptors that are waited for, and what was the matter with each, once there was a wait. -/
structure Round where
  sets : List (ℕ × Flag)
  answer : Option (ℕ → Events)

namespace Round

def reset (_ : Round) : Round := ⟨[], none⟩

def set (fd : ℕ) (flags : Flag) (r : Round) : Round := { r with sets := r.sets ++ [(fd, flags)] }

def wait (answer : ℕ → Events) (r : Round) : Round := { r with answer := some answer }

/-- Before the wait a descriptor is set for what it is waited for. -/
def isset (r : Round) (fd : ℕ) (flag : Flag) : Bool :=
  (fd, flag) ∈ r.sets && r.answer.all fun answer => (answer fd).meets flag.events

end Round

/-- What `doit` is compiled with. -/
structure PollImpl (π : Type) where
  reset : π → π
  set : ℕ → Flag → π → Option π
  wait : (ℕ → Events) → π → π
  isset : π → ℕ → Flag → Option Bool

def withPoll : PollImpl PollInfo where
  reset := PollInfo.speedyPollReset
  set := PollInfo.speedyPollSet
  wait := PollInfo.pollWait
  isset := PollInfo.speedyPollIsset

/-- `select` finds a descriptor ready for a flag when one of the flag's events is the matter. -/
def withSelect : PollImpl SelectInfo where
  reset := SelectInfo.speedyPollReset
  set := SelectInfo.speedyPollSet
  wait answer := SelectInfo.pollWait fun fd flag => (answer fd).meets flag.events
  isset := SelectInfo.speedyPollIsset

def asMeant : PollImpl Round where
  reset := Round.reset
  set fd flags r := some (r.set fd flags)
  wait := Round.wait
  isset r fd flag := some (r.isset fd flag)

/-- All is done inside of the memory, and the answers are those that are meant, when it is about
descriptors and flags among `uses`. -/
structure PollImpl.Shows {π : Type} (I : PollImpl π) (uses : List (ℕ × Flag)) (R : π → Round → Prop) :
    Prop where
  reset : ∀ x r, R x r → R (I.reset x) r.reset
  set : ∀ x r u, R x r → r.answer = none → u ∈ uses →
    ∃ x', I.set u.1 u.2 x = some x' ∧ R x' (r.set u.1 u.2)
  wait : ∀ x r answer, R x r → r.answer = none → R (I.wait answer x) (r.wait answer)
  isset : ∀ x r u, R x r → u ∈ uses → I.isset x u.1 u.2 = some (r.isset u.1 u.2)

/-! ### The array and the map -/

/-- The flags that a descriptor was set with. -/
def setEvents (sets : List (ℕ × Flag)) (fd : ℕ) : Events := fun e =>
  sets.any fun x => x.1 = fd && x.2.events e

def Round.revents (r : Round) (fd : ℕ) : Events := fun e =>
  setEvents r.sets fd e && r.answer.all fun answer => answer fd e

/-- What the array and the map hold in a round. -/
structure PollInfo.Holds (m : ℕ) (pi : PollInfo) (r : Round) : Prop where
  maxfd : pi.maxfd = m
  fds : pi.fds.length = m + 1
  fdmap : pi.fdmap.length = m + 1
  unset : ∀ fd : ℕ, pi.fdmap[fd]? = some none → ∀ x ∈ r.sets, x.1 ≠ fd
  place : ∀ fd i : ℕ, pi.fdmap[fd]? = some (some i) → i < pi.numfds ∧ (∃ x ∈ r.sets, x.1 = fd) ∧
    pi.fds[i]? = some ⟨fd, setEvents r.sets fd, r.revents fd⟩
  used : ∀ i : ℕ, i < pi.numfds → ∃ fd : ℕ, pi.fdmap[fd]? = some (some i)

section
variable {m : ℕ} {pi : PollInfo} {r : Round} {sets : List (ℕ × Flag)} {fd : ℕ}

lemma setEvents_append (sets : List (ℕ × Flag)) (x : ℕ × Flag) (fd : ℕ) : setEvents (sets ++ [x]) fd =
    if x.1 = fd then (setEvents sets fd).or x.2.events else setEvents sets fd := by
  by_cases h : x.1 = fd <;> funext e <;> simp [setEvents, Events.or, h]

lemma setEvents_eq_empty (h : ∀ x ∈ sets, x.1 ≠ fd) : setEvents sets fd = fun _ => false := by
  funext e
  simp only [setEvents, List.any_eq_false, Bool.and_eq_true, decide_eq_true_eq, not_and]
  exact fun x hx hfd => absurd hfd (h x hx)

lemma setEvents_eq {x : ℕ × Flag} (hx : x ∈ sets) (h : ∀ y ∈ sets, y.1 = x.1 → y = x) :
    setEvents sets x.1 = x.2.events := by
  funext e
  rw [Bool.eq_iff_iff]
  simp only [setEvents, List.any_eq_true, Bool.and_eq_true, decide_eq_true_eq]
  exact ⟨fun ⟨y, hy, hfd, he⟩ => h y hy hfd ▸ he, fun he => ⟨x, hx, rfl, he⟩⟩

lemma Round.isset_set (h : r.answer = none) (u v : ℕ × Flag) :
    (r.set u.1 u.2).isset v.1 v.2 = (decide (v = u) || r.isset v.1 v.2) := by
  simp [Round.isset, Round.set, h, or_comm]

lemma Round.revents_eq (h : r.answer = none) (fd : ℕ) : r.revents fd = setEvents r.sets fd := by
  funext e
  simp [Round.revents, h]

namespace PollInfo

/-- Different places are those of different descriptors, so that there is room for one more that has
none. -/
lemma Holds.numfds_lt (h : pi.Holds m r) (hfd : pi.fdmap[fd]? = some none) :
    pi.numfds < pi.fds.length := by
  choose! f hf using h.used
  have hlt {fd : ℕ} {x : Option ℕ} (hx : pi.fdmap[fd]? = some x) : fd < m + 1 :=
    h.fdmap ▸ (List.getElem?_eq_some_iff.mp hx).1
  have hsub : fd :: (List.range pi.numfds).map f ⊆ List.range (m + 1) := by
    refine List.cons_subset.mpr ⟨List.mem_range.mpr (hlt hfd), fun k hk => ?_⟩
    obtain ⟨i, hi, rfl⟩ := List.mem_map.mp hk
    exact List.mem_range.mpr (hlt (hf i (List.mem_range.mp hi)))
  have hnodup : (fd :: (List.range pi.numfds).map f).Nodup := by
    refine List.nodup_cons.mpr ⟨fun hmem => ?_,
      List.Nodup.map_on (fun i hi j hj hij => ?_) List.nodup_range⟩
    · obtain ⟨i, hi, rfl⟩ := List.mem_map.mp hmem
      rw [hf i (List.mem_range.mp hi)] at hfd
      cases hfd
    · have hi' := hf i (List.mem_range.mp hi)
      rw [hij, hf j (List.mem_range.mp hj)] at hi'
      simpa using hi'.symm
  have hle := (List.subperm_of_subset hnodup hsub).length_le
  simp only [List.length_cons, List.length_map, List.length_range] at hle
  have hfds := h.fds
  omega

lemma Holds.reset (hmax : pi.maxfd = m) (hfds : pi.fds.length = m + 1) (r : Round) :
    pi.speedyPollReset.Holds m r.reset := by
  refine ⟨hmax, hfds, by simp [speedyPollReset, hmax], fun _ _ x hx => absurd hx (by simp [Round.reset]),
    fun fd i h => ?_, fun i h => absurd h (Nat.not_lt_zero i)⟩
  simp only [speedyPollReset, List.getElem?_replicate] at h
  split at h <;> cases h

lemma Holds.init (m : ℕ) (junk : ℕ → PollFd) : (speedyPollInit junk m).Holds m ⟨[], none⟩ := by
  refine Holds.reset (r := ⟨[], none⟩) ?_ ?_
  · rfl
  · simp

lemma Holds.set (h : pi.Holds m r) (ha : r.answer = none) (hfd : fd ≤ m) (flag : Flag) :
    ∃ pi', pi.speedyPollSet fd flag = some pi' ∧ pi'.Holds m (r.set fd flag) := by
  obtain ⟨x, hx⟩ : ∃ x, pi.fdmap[fd]? = some x :=
    ⟨_, List.getElem?_eq_getElem (h.fdmap ▸ Nat.lt_succ_of_le hfd)⟩
  have ha' : (r.set fd flag).answer = none := ha
  have hother {k : ℕ} (hk : fd ≠ k) : setEvents (r.sets ++ [(fd, flag)]) k = setEvents r.sets k := by
    rw [setEvents_append, if_neg hk]
  have hmem {k : ℕ} (hk : ∀ x ∈ r.sets, x.1 ≠ k) (hne : fd ≠ k) :
      ∀ x ∈ r.sets ++ [(fd, flag)], x.1 ≠ k := by
    simpa [or_imp, forall_and, hne] using hk
  simp only [speedyPollSet, hx]
  cases x with
  | none =>
    -- a new place behind the others
    have hlt := h.numfds_lt hx
    have hnew : setEvents (r.sets ++ [(fd, flag)]) fd = flag.events := by
      rw [setEvents_append, if_pos rfl, setEvents_eq_empty (h.unset fd hx)]
      funext e
      simp [Events.or]
    refine ⟨_, if_pos hlt, h.maxfd, by simpa using h.fds, by simpa using h.fdmap, fun k hk => ?_,
      fun k i hk => ?_, fun i hi => ?_⟩
    · have hne : fd ≠ k := by
        rintro rfl
        simp [List.getElem?_set_self', hx] at hk
      rw [List.getElem?_set_ne hne] at hk
      exact hmem (h.unset k hk) hne
    · rw [Round.revents_eq ha']
      by_cases hne : fd = k
      · subst hne
        obtain rfl : pi.numfds = i := by simpa [List.getElem?_set_self', hx] using hk
        refine ⟨Nat.lt_succ_self _, ⟨(fd, flag), by simp [Round.set], rfl⟩, ?_⟩
        rw [List.getElem?_set_self hlt, Round.set, hnew]
      · rw [List.getElem?_set_ne hne] at hk
        obtain ⟨hi, ⟨y, hy, hyk⟩, hfds⟩ := h.place k i hk
        refine ⟨Nat.lt_succ_of_lt hi, ⟨y, List.mem_append_left _ hy, hyk⟩, ?_⟩
        rw [List.getElem?_set_ne (Nat.ne_of_gt hi), hfds, Round.revents_eq ha, Round.set, hother hne]
    · rcases Nat.lt_succ_iff_lt_or_eq.mp hi with hi | rfl
      · obtain ⟨k, hk⟩ := h.used i hi
        refine ⟨k, ?_⟩
        rw [List.getElem?_set_ne (by rintro rfl; simp [hx] at hk)]
        exact hk
      · exact ⟨fd, by simp [List.getElem?_set_self', hx]⟩
  | some i =>
    obtain ⟨hi, -, hfds⟩ := h.place fd i hx
    simp only [hfds, Option.map_some]
    refine ⟨_, rfl, h.maxfd, by simpa using h.fds, h.fdmap, fun k hk => ?_, fun k j hk => ?_, h.used⟩
    · exact hmem (h.unset k hk) (by rintro rfl; simp [hx] at hk)
    · obtain ⟨hj, ⟨z, hz, hzk⟩, hfds'⟩ := h.place k j hk
      refine ⟨hj, ⟨z, List.mem_append_left _ hz, hzk⟩, ?_⟩
      rw [Round.revents_eq ha']
      by_cases hne : fd = k
      · subst hne
        obtain rfl : i = j := by simpa [hx] using hk
        have hlt : i < pi.fds.length := (List.getElem?_eq_some_iff.mp hfds).1
        rw [List.getElem?_set_self hlt, Round.revents_eq ha, Round.set, setEvents_append, if_pos rfl]
      · -- a place is that of one descriptor
        have hij : i ≠ j := by
          rintro rfl
          exact hne (by simpa using congrArg (Option.map PollFd.fd) (hfds.symm.trans hfds'))
        rw [List.getElem?_set_ne hij, hfds', Round.revents_eq ha, Round.set, hother hne]

lemma Holds.wait (h : pi.Holds m r) (answer : ℕ → Events) :
    (pi.pollWait answer).Holds m (r.wait answer) := by
  refine ⟨h.maxfd, by simpa [pollWait] using h.fds, h.fdmap, h.unset, fun fd i hi => ?_, h.used⟩
  obtain ⟨hlt, hset, hfds⟩ := h.place fd i hi
  refine ⟨hlt, hset, ?_⟩
  simp only [pollWait, List.getElem?_mapIdx, hfds, Option.map_some, if_pos hlt]
  rfl

end PollInfo

lemma Flag.meets_self (flag : Flag) : flag.events.meets flag.events = true := by
  cases flag <;> rfl

lemma Flag.meets_and (flag : Flag) (e : Events) :
    Events.meets (fun b => flag.events b && e b) flag.events = e.meets flag.events := by
  cases flag <;> simp [Events.meets, Flag.events]

lemma PollInfo.Holds.isset {uses : List (ℕ × Flag)} {u : ℕ × Flag} (h : pi.Holds m r) (hr : r.sets ⊆ uses)
    (hone : ∀ x ∈ uses, ∀ y ∈ uses, x.1 = y.1 → x = y) (hu : u ∈ uses) (hm : u.1 ≤ m) :
    pi.speedyPollIsset u.1 u.2 = some (r.isset u.1 u.2) := by
  obtain ⟨x, hx⟩ : ∃ x, pi.fdmap[u.1]? = some x :=
    ⟨_, List.getElem?_eq_getElem (h.fdmap ▸ Nat.lt_succ_of_le hm)⟩
  simp only [speedyPollIsset, hx]
  cases x with
  | none =>
    have hout : u ∉ r.sets := fun hmem => h.unset u.1 hx u hmem rfl
    simp [Round.isset, hout]
  | some i =>
    obtain ⟨-, ⟨y, hy, hyu⟩, hfds⟩ := h.place u.1 i hx
    obtain rfl : y = u := hone y (hr hy) u hu hyu
    have hrev : r.revents y.1 = fun e => y.2.events e && r.answer.all fun answer => answer y.1 e := by
      funext e
      rw [Round.revents, setEvents_eq hy fun z hz hzy => hone z (hr hz) y (hr hy) hzy]
    simp only [hfds, Option.map_some, Round.isset, hrev]
    cases r.answer with
    | none => simpa [hy] using y.2.meets_self
    | some answer => simpa [hy] using y.2.meets_and _

/-- With `poll`, when every descriptor is used with one flag only. -/
theorem withPoll_shows {uses : List (ℕ × Flag)} (hmax : ∀ u ∈ uses, u.1 ≤ m)
    (hone : ∀ x ∈ uses, ∀ y ∈ uses, x.1 = y.1 → x = y) :
    withPoll.Shows uses fun pi r => pi.Holds m r ∧ r.sets ⊆ uses where
  reset pi r h := ⟨.reset h.1.maxfd h.1.fds r, List.nil_subset _⟩
  set pi r u h ha hu := by
    obtain ⟨pi', hset, h'⟩ := h.1.set ha (hmax u hu) u.2
    exact ⟨pi', hset, h', List.append_subset.mpr ⟨h.2, by simpa using hu⟩⟩
  wait pi r answer h _ := ⟨h.1.wait answer, h.2⟩
  isset pi r u h hu := h.1.isset h.2 hone hu (hmax u hu)

end

/-! ### The sets -/

/-- What the sets hold of a round. -/
structure SelectInfo.Holds (m : ℕ) (uses : List (ℕ × Flag)) (si : SelectInfo) (r : Round) : Prop where
  maxfd : si.maxfd = m
  fdset : ∀ flag, (si.fdset flag).length = fdSetsize
  isset : ∀ u ∈ uses, (si.fdset u.2)[u.1]? = some (r.isset u.1 u.2)

lemma SelectInfo.Holds.reset {m : ℕ} {uses : List (ℕ × Flag)} {si : SelectInfo} (hmax : si.maxfd = m)
    (hlt : ∀ u ∈ uses, u.1 < fdSetsize) (r : Round) : si.speedyPollReset.Holds m uses r.reset where
  maxfd := hmax
  fdset _ := List.length_replicate
  isset u hu := by simp [SelectInfo.speedyPollReset, hlt u hu, Round.isset, Round.reset]

lemma SelectInfo.Holds.init {m : ℕ} {uses : List (ℕ × Flag)} (hlt : ∀ u ∈ uses, u.1 < fdSetsize)
    (junk : Flag → List Bool) : (speedyPollInit junk m).Holds m uses ⟨[], none⟩ := by
  refine Holds.reset (r := ⟨[], none⟩) ?_ hlt
  rfl

/-- With `select`, when the highest descriptor has a place in the sets. -/
theorem withSelect_shows {m : ℕ} {uses : List (ℕ × Flag)} (hmax : ∀ u ∈ uses, u.1 ≤ m)
    (hm : m < fdSetsize) : withSelect.Shows uses (SelectInfo.Holds m uses) where
  reset si r h := .reset h.maxfd (fun u hu => Nat.lt_of_le_of_lt (hmax u hu) hm) r
  set si r u h ha hu := by
    have hlt : u.1 < (si.fdset u.2).length := h.fdset u.2 ▸ Nat.lt_of_le_of_lt (hmax u hu) hm
    refine ⟨_, if_pos hlt, h.maxfd, fun flag => ?_, fun v hv => ?_⟩
    · by_cases hf : flag = u.2
      · subst hf
        simpa using h.fdset u.2
      · simpa [hf] using h.fdset flag
    · have hold := h.isset v hv
      rw [Round.isset_set ha]
      by_cases hvu : v = u
      · subst hvu
        simp [hlt]
      · by_cases hf : v.2 = u.2
        · have hne : u.1 ≠ v.1 := fun hfd => hvu (Prod.ext hfd.symm hf)
          simpa [hvu, hf, hne] using hf ▸ hold
        · simpa [hvu, hf] using hold
  wait si r answer h ha := by
    refine ⟨h.maxfd, fun flag => by simpa [withSelect, SelectInfo.pollWait] using h.fdset flag, fun u hu => ?_⟩
    have hle : u.1 ≤ si.maxfd := h.maxfd ▸ hmax u hu
    simp [withSelect, SelectInfo.pollWait, h.isset u hu, hle, Round.isset, Round.wait, ha]
  isset si r u h hu := h.isset u hu

end SpeedyCgi.Copy
