import SpeedyCgi.TempFile.Store

/-!
The rules of the queue.

What the programs do to the temp file, as rules on its layout: slots are allocated and freed,
frontends queue up, get backends and collect their status, backends wait and report, groups are
made, invalidated and removed. Whose section it is matters: `live` are the processes that are
there when the section begins, and `kill` finds them until the section itself kills them; some
rules are only for the slots of `me`, and some only for the groups of `boss`. Every program of the
source follows the rules, and what holds in every state of the file is proved about the rules.
-/

namespace SpeedyCgi.TempFile

open Function

/-- A group is valid while it has scripts. -/
def AFile.valid (A : AFile) (g : SlotNum) : Prop := A.lst (.script g) ≠ []

/-- Slot `x` leaves its list and is freed. -/
@[simps -fullyApplied] def AFile.discard (A : AFile) (x : SlotNum) (c : Chain) : AFile :=
  { A with
    own := update A.own x .free
    lst := update A.lst c ((A.lst c).erase x)
    free := x :: A.free
    log := .free x :: A.log }

/-- The entry is for the same device and inode. -/
def ScrSlot.same (a b : ScrSlot) : Prop := a.devNum = b.devNum ∧ a.inoNum = b.inoNum

def BeSlot.run (s : BeSlot) (f : SlotNum) : BeSlot := { s with feRunning := f }

/-- The scripts and the name of `g` are freed. -/
def AFile.clear (A : AFile) (g : SlotNum) : AFile :=
  if (A.gr g).nameSlot = 0 then A.dropScripts g
  else ((A.dropScripts g).release (A.gr g).nameSlot).setGr g { A.gr g with nameSlot := 0 }

/-- More events. -/
@[simps -fullyApplied] def AFile.notes (A : AFile) (evs : List Event) : AFile :=
  { A with log := evs ++ A.log }

/-- A new group in front of the others. -/
@[simps! -fullyApplied] def AFile.addGroup (A : AFile) (g : SlotNum) : AFile :=
  A.place g (.chain .group) .group (g :: A.lst .group)

/-- A new script in front of the others of its group. -/
@[simps! -fullyApplied] def AFile.addScript (A : AFile) (g s : SlotNum) (v : ScrSlot) : AFile :=
  (A.setScr s v).place s (.chain (.script g)) (.script g) (s :: A.lst (.script g))

def AFile.fresh (A : AFile) (n : SlotNum) : Prop := n ≠ 0 ∧ (A.own n = .free ∨ A.own n = .out)

/-- Signals sent to others, which change nothing in the file. -/
def Event.quiet (self : Pid) : Event → Prop
  | .kill p sig _ => p ≠ self ∧ sig ≠ .kill
  | _ => False

/-- Processes that are started. -/
def Event.birth : Event → Prop
  | .spawn _ | .fork .. => True
  | _ => False

/-- Processes that are started, and what a frontend does with a backend. -/
def Event.loud : Event → Prop
  | .connect .. | .assign .. | .spawn _ | .fork .. => True
  | _ => False

def Event.assigns : Event → Prop
  | .assign .. => True
  | _ => False

/-- Whose section it is. -/
structure Who where
  self : Pid
  live : Pid → Prop
  me : Pid → Prop
  boss : Pid → Prop
  /-- the parents that may take charge of a group -/
  heads : Pid → Prop
  /-- the children that `waitpid` has found, with how they ended -/
  died : Pid → Bool → ℕ → Prop
  /-- the loud events that may happen -/
  tells : Event → Prop
  /-- what the run of a backend may have ended with -/
  ran : ℕ → Prop
  /-- how many backends a group may have, `0` if as many as it likes -/
  max : ℕ
  /-- the groups that may get a new backend -/
  grows : SlotNum → Prop
  /-- the backends that may put themselves on the wait list -/
  puts : SlotNum → Prop
  /-- when each backend last put itself on the wait list -/
  stamp : SlotNum → ℕ

/-- The process may not be there any more. -/
def AFile.gone (A : AFile) (w : Who) (p : Pid) : Prop := ¬ w.live p ∨ .kill p .kill true ∈ A.log

/-- No backend has the pid. -/
def AFile.noBe (A : AFile) (q : Pid) : Prop := ∀ b g, A.own b = .chain (.be g) → (A.be b).pid ≠ q

/-- A backend with the pid has been on the wait list. -/
def AFile.grown (A : AFile) (q : Pid) : Prop :=
  ∀ b g, A.own b = .chain (.be g) → (A.be b).pid = q → (A.be b).maturity ≠ 0

/-- The backend has been given to a frontend in this section. -/
def AFile.taken (A : AFile) (b : SlotNum) : Prop := ∃ g f h sig, .assign g f b h sig ∈ A.log

/-- `do_sort` as a function of two slots. -/
def sortKey (x y : BeSlot) : Int :=
  if (if y.feRunning ≠ 0 then (0 : Int) else 1) - (if x.feRunning ≠ 0 then 0 else 1) ≠ 0 then
    (if y.feRunning ≠ 0 then (0 : Int) else 1) - (if x.feRunning ≠ 0 then 0 else 1)
  else (y.maturity : Int) - x.maturity

/-- Slot `b` at its place in a sorted list. -/
def AFile.sorted (A : AFile) (b : SlotNum) (l : List SlotNum) : List SlotNum :=
  l.takeWhile (fun y => decide (0 < sortKey (A.be b) (A.be y))) ++
    b :: l.dropWhile fun y => decide (0 < sortKey (A.be b) (A.be y))

/-- Backend `b` waits for a frontend. -/
@[simps! -fullyApplied] def AFile.setWaiting (A : AFile) (b : SlotNum) (m : ℕ) : AFile :=
  A.setBe b { A.be b with feRunning := 0, maturity := m }

/-- The rules for frontends, backends and backend parents. -/
inductive SlotRule (w : Who) (A : AFile) : AFile → Prop
  | note (ev : Event) (hev : ev.quiet w.self ∨ ev.loud ∧ ¬ ev.assigns ∧ w.tells ev) :
      SlotRule w A (A.note ev)
  /-- the parent of a group is killed -/
  | parentKill (g : SlotNum) (ok : Bool) (hg : A.own g = .chain .group)
      (hne : (A.gr g).beParent ≠ w.self) : SlotRule w A (A.note (.kill (A.gr g).beParent .kill ok))
  /-- `be_starting` is cleared, or set to a backend of the group, to a child just forked or to a
  parent that was signalled -/
  | starting (g : SlotNum) (s : Pid) (hg : A.own g = .chain .group)
      (hs : s = 0 ∨ s = (A.gr g).beStarting ∨ (∃ b, A.own b = .chain (.be g) ∧ (A.be b).pid = s) ∨
        .kill s .usr1 true ∈ A.log ∨ (∃ g b, .fork s g b ∈ A.log) ∨ w.boss s)
      (hold : (A.gr g).beStarting = 0 ∨ A.gone w (A.gr g).beStarting ∨ (A.gr g).beStarting = s ∨
        (A.gr g).beStarting = w.self ∧ A.grown w.self) :
      SlotRule w A (A.setGr g { A.gr g with beStarting := s })
  | parentGone (g : SlotNum) (hg : A.own g = .chain .group) (hp : A.gone w (A.gr g).beParent) :
      SlotRule w A (A.setGr g { A.gr g with beParent := 0 })
  | parentMe (g : SlotNum) (p : Pid) (hg : A.own g = .chain .group) (hme : w.heads p)
      (hp : (A.gr g).beParent = 0 ∨ (A.gr g).beParent = p) :
      SlotRule w A (A.setGr g { A.gr g with beParent := p })
  | parentNew (g : SlotNum) (p s : Pid) (hg : A.own g = .chain .group)
      (hp : (A.gr g).beParent = 0) (hlog : .spawn p ∈ A.log)
      (hs : s = (A.gr g).beStarting ∨ s = p ∧ (A.gr g).beStarting = 0) :
      SlotRule w A (A.setGr g { A.gr g with beParent := p, beStarting := s })
  /-- a frontend takes a slot -/
  | feNew (f : SlotNum) (fl : List SlotNum) (k : SlotNum) (p : Pid) (hf : A.fresh f) (hme : w.me p) :
      SlotRule w A ((A.alloc f fl k).setFe f { pid := p })
  | feDrop (f : SlotNum) (hf : A.own f = .loose) (hme : w.me (A.fe f).pid) :
      SlotRule w A (A.release f)
  | feBackend (f b : SlotNum) (hf : A.own f = .loose) (hme : w.me (A.fe f).pid) :
      SlotRule w A (A.setFe f { A.fe f with backend := b })
  | enqueue (g f : SlotNum) (hg : A.own g = .chain .group) (hf : A.own f = .loose)
      (hme : w.me (A.fe f).pid) (hsig : (A.fe f).sentSig = false) :
      SlotRule w A (A.place f (.chain (.fe g)) (.fe g) (A.lst (.fe g) ++ [f]))
  | dequeue (g f : SlotNum) (hf : A.own f = .chain (.fe g)) (hme : w.me (A.fe f).pid) :
      SlotRule w A (A.place f .loose (.fe g) ((A.lst (.fe g)).erase f))
  /-- a waiting frontend that is not there any more -/
  | feDispose (g f : SlotNum) (hf : A.own f = .chain (.fe g)) (hp : A.gone w (A.fe f).pid) :
      SlotRule w A (A.discard f (.fe g))
  | sendSig (g f : SlotNum) (hf : (A.lst (.fe g)).head? = some f) :
      SlotRule w A (A.setFe f { A.fe f with sentSig := true })
  | takeSig (f : SlotNum) (hme : w.me (A.fe f).pid) :
      SlotRule w A (A.setFe f { A.fe f with sentSig := false })
  /-- backend `b` reports to the frontend it ran for, or somebody reports how it ended -/
  | report (g b f : SlotNum) (sig : Bool) (val : ℕ) (hb : A.own b = .chain (.be g))
      (hf : (A.be b).feRunning = f) (hf0 : f ≠ 0) (hfb : f ≠ b)
      (hp : w.me (A.be b).pid ∧ sig = false ∧ w.ran val ∨
        A.gone w (A.be b).pid ∧ (w.died (A.be b).pid sig val ∨
          sig = true ∧ val = 9 ∧ ∀ s v, ¬ w.died (A.be b).pid s v)) :
      SlotRule w A ((A.setBe b ((A.be b).run b)).setFe f
        { A.fe f with backend := 0, exitOnSig := sig, exitVal := val })
  /-- a running frontend leaves that has its status -/
  | feDone (f : SlotNum) (hf : A.own f = .chain .feRun) (hb : (A.fe f).backend = 0)
      (hp : w.me (A.fe f).pid ∨ A.gone w (A.fe f).pid) : SlotRule w A (A.discard f .feRun)
  /-- a running frontend is removed that is not there any more -/
  | feGone (f b : SlotNum) (hf : A.own f = .chain .feRun) (hb : (A.fe f).backend = b) (hb0 : b ≠ 0)
      (hp : A.gone w (A.fe f).pid) :
      SlotRule w A ((A.setBe b ((A.be b).run b)).discard f .feRun)
  | beDispose (g b : SlotNum) (hb : A.own b = .chain (.be g))
      (hf : (A.be b).feRunning = 0 ∨ (A.be b).feRunning = b ∧ A.gone w (A.be b).pid) :
      SlotRule w A ((A.note (.unlink b)).discard b (.be g))
  /-- the backend in front goes to the end, and frontend `f` is to have it -/
  | assign (g f b h : SlotNum) (sig : Bool) (hb : (A.lst (.be g)).head? = some b)
      (hb0 : (A.be b).feRunning = 0) (hst : (A.gr g).beStarting = 0)
      (htell : w.tells (.assign g f b h sig)) :
      SlotRule w A ((A.reorder (.be g) ((A.lst (.be g)).erase b ++ [b])).note (.assign g f b h sig))
  | waitPut (g b : SlotNum) (m : ℕ) (hm : m ≠ 0) (hb : A.own b = .chain (.be g))
      (hf : (A.be b).feRunning = b) (hme : w.me (A.be b).pid) (hput : w.puts b)
      (hno : ∀ n, ¬ A.taken n) (hst : ∀ n ≠ b, w.stamp n < w.stamp b) :
      SlotRule w A ((A.setWaiting b m).reorder (.be g)
        ((A.setWaiting b m).sorted b ((A.lst (.be g)).erase b)))
  | beNew (g b : SlotNum) (fl : List SlotNum) (k : SlotNum) (hg : A.own g = .chain .group)
      (hb : A.fresh b) (hmax : w.max = 0 ∨ (A.lst (.be g)).length < w.max) (hgrow : w.grows g) :
      SlotRule w A (((A.alloc b fl k).setBe b { feRunning := b }).place b (.chain (.be g)) (.be g)
        (A.lst (.be g) ++ [b]))
  | bePid (g b : SlotNum) (p : Pid) (hb : A.own b = .chain (.be g)) (hp : (A.be b).pid = 0)
      (hlog : .fork p g b ∈ A.log) (hst : (A.gr g).beStarting = p) (hno : A.noBe p) :
      SlotRule w A (A.setBe b { A.be b with pid := p })
  /-- frontend `f` is connected to backend `b` and will collect its status -/
  | claim (g f b : SlotNum) (hf : A.own f = .loose) (hme : w.me (A.fe f).pid)
      (hfb : (A.fe f).backend = b) (hsig : (A.fe f).sentSig = false)
      (hb : A.own b = .chain (.be g)) (hb0 : (A.be b).feRunning = 0) (htaken : A.taken b) :
      SlotRule w A ((A.setBe b ((A.be b).run f)).place f (.chain .feRun) .feRun (f :: A.lst .feRun))
  /-- a frontend is connected to backend `b` that will not collect its status -/
  | claimAnon (g b : SlotNum) (hb : A.own b = .chain (.be g)) (hb0 : (A.be b).feRunning = 0)
      (htaken : A.taken b) :
      SlotRule w A (A.setBe b ((A.be b).run b))

/-- The rules for groups and scripts. -/
inductive GroupRule (w : Who) (A : AFile) : AFile → Prop
  | invalidate (g : SlotNum) (evs : List Event) (hg : A.own g = .chain .group) (hv : A.valid g)
      (hevs : ∀ ev ∈ evs, ∃ p ok, ev = .kill p .term ok) :
      GroupRule w A (((A.clear g).notes evs).reorder .group ((A.lst .group).erase g ++ [g]))
  | groupRemove (g : SlotNum) (hg : A.own g = .chain .group) (hb : A.lst (.be g) = [])
      (hf : A.lst (.fe g) = []) (hs : A.lst (.script g) = []) (hn : (A.gr g).nameSlot = 0)
      (hp : A.gone w (A.gr g).beParent ∨ w.boss (A.gr g).beParent) :
      GroupRule w A (A.discard g .group)
  /-- a new group without a name, and its script, which no other group has -/
  | groupNew (g s : SlotNum) (v : ScrSlot) (fl fl' : List SlotNum) (k k' : SlotNum) (hg : A.fresh g)
      (hs : A.fresh s) (hsg : s ≠ g)
      (hnew : ∀ g s, A.own s = .chain (.script g) → ¬ (A.scr s).same v) :
      GroupRule w A ((((A.alloc g fl k).addGroup g).alloc s fl' k').addScript g s v)
  /-- a new group with a name that no other group has, and its script -/
  | groupNamed (g n s : SlotNum) (grp : List UInt8) (v : ScrSlot) (fl fl' fl'' : List SlotNum)
      (k k' k'' : SlotNum) (hg : A.fresh g) (hn : A.fresh n) (hs : A.fresh s) (hng : n ≠ g)
      (hsg : s ≠ g) (hsn : s ≠ n)
      (hnew : ∀ g n, A.own n = .name g → A.grnm n ≠ strncpy grNameLen grp) :
      GroupRule w A ((((((A.alloc g fl k).addGroup g).alloc n fl' k').setName g n).setGrnm n
        (strncpy grNameLen grp)).alloc s fl'' k'' |>.addScript g s v)
  | scriptNew (g s : SlotNum) (v : ScrSlot) (fl : List SlotNum) (k : SlotNum)
      (hg : A.own g = .chain .group) (hv : A.valid g) (hn : (A.gr g).nameSlot ≠ 0)
      (hnew : ∀ s, A.own s = .chain (.script g) → ¬ (A.scr s).same v) (hs : A.fresh s) :
      GroupRule w A ((A.alloc s fl k).addScript g s v)
  | scriptFront (g s : SlotNum) (hs : A.own s = .chain (.script g)) :
      GroupRule w A (A.reorder (.script g) (s :: (A.lst (.script g)).erase s))
  | groupFront (g : SlotNum) (hg : A.own g = .chain .group) (hv : A.valid g) :
      GroupRule w A (A.reorder .group (g :: (A.lst .group).erase g))

inductive Rule (w : Who) (A B : AFile) : Prop
  | slot (h : SlotRule w A B)
  | group (h : GroupRule w A B)

end SpeedyCgi.TempFile
