import SpeedyCgi.Copy.Relay
import SpeedyCgi.Request.Framing

/-!
The request and the user's input on their way to the backend.

The buffer of stdin starts with the request, so what the backend reads is the request and then what
the user types; and the frontend closes its side of the socket only when all of that is written.
-/

namespace SpeedyCgi.Copy

open Function Lib.Lts

/-! ### Which descriptors a step closes -/

/-- Buffer `i` is `b` after a read, which may have taken off the first byte of stdout, or a write. -/
inductive Doit.Serves (s : Doit) (i : Fin 3) : Event → CopyBuf → Prop
  | read {junk : ℕ → UInt8} {res : ReadRes} {doWrite : Bool} {b₀ b : CopyBuf}
      (hpc : s.pc = .io i true doWrite) (h : speedyCbRead junk res (s.cb i) = some b₀)
      (hb : b = b₀ ∨ b = (speedyCbShift b₀).2) : Serves s i (.read junk res) b
  | write {res : WriteRes} {b : CopyBuf} (hpc : s.pc = .io i false true)
      (h : speedyCbWrite res (s.cb i) = some b) : Serves s i (.write res) b

/-- Only descriptors of buffer `b` are closed, and only if it is done. -/
def Doit.Closes (s : Doit) (b : CopyBuf) (s' : Doit) : Prop :=
  (∀ fd, fd ≠ b.rdfd → fd ≠ b.wrfd → s'.fds.isOpen fd = s.fds.isOpen fd) ∧
    (speedyCbCopydone b = false → s'.fds.isOpen = s.fds.isOpen)

lemma tryClose_closes (s : Doit) (i : Fin 3) : s.Closes (s.cb i) (tryClose s i) := by
  unfold tryClose
  split
  next hdone =>
    refine ⟨fun fd hr hw => ?_, fun hno => ?_⟩
    · rw [fdChange_isOpen hw, fdChange_isOpen hr]
    · simp [myCopydone, hno] at hdone
  next => exact ⟨fun _ _ _ => rfl, fun _ => rfl⟩

/-- Behind a read or write that has left `b` of buffer `i`. -/
lemma ioDone_closes {s t : Doit} {i : Fin 3} {b : CopyBuf} (hcb : t.cb = update s.cb i b)
    (hfds : t.fds = s.fds) (hsocks : t.socks = s.socks) (doRead doWrite : Bool) :
    (ioDone t i doRead doWrite).socks = s.socks ∧ (ioDone t i doRead doWrite).cb = update s.cb i b ∧
      s.Closes b (ioDone t i doRead doWrite) := by
  have hb : t.cb i = b := by rw [hcb, update_self]
  refine ⟨?_, (ioDone_same t i doRead doWrite).cb.trans hcb, ?_⟩ <;> unfold ioDone <;> split
  · exact hsocks
  · refine Eq.trans ?_ hsocks
    unfold tryClose
    split <;> rfl
  · exact ⟨fun _ _ _ => by rw [hfds], fun _ => by rw [hfds]⟩
  · have hcl := hb ▸ tryClose_closes t i
    rwa [Doit.Closes, hfds] at hcl

lemma afterIo_same (s : Doit) (sig collected child : Bool) :
    (afterIo sig collected child s).cb = s.cb ∧ (afterIo sig collected child s).socks = s.socks ∧
      (afterIo sig collected child s).fds.isOpen = s.fds.isOpen := by
  unfold afterIo
  dsimp only
  split_ifs <;> simp only [finish, fdChange_block_isOpen, and_self]

/-- A step serves one buffer and closes the descriptors of that if it is done, or it leaves the buffers
and the open descriptors alone. -/
lemma doitStep_bufs {s s' : Doit} {e : Event} (h : doitStep s e = some s') : s'.socks = s.socks ∧
    (s'.cb = s.cb ∧ s'.fds.isOpen = s.fds.isOpen ∨ ∃ i b, s.Serves i e b ∧
      s'.cb = update s.cb i b ∧ s.Closes b s') := by
  cases e with
  | ready rd wr =>
    simp only [doitStep] at h
    split at h
    next => exact Option.some.inj h ▸ ⟨rfl, .inl ⟨rfl, rfl⟩⟩
    next => simp at h
  | read junk res =>
    simp only [doitStep] at h
    split at h
    next i wr hpc =>
      obtain ⟨b, hb, rfl⟩ := Option.map_eq_some_iff.mp h
      unfold readDone
      dsimp only
      split
      next hfirst =>
        simp only [Bool.and_eq_true, decide_eq_true_eq] at hfirst
        obtain rfl := hfirst.1.2
        obtain ⟨hsocks, hcb, hcl⟩ := ioDone_closes (s := s) (i := CB_OUT) (b := (speedyCbShift b).2)
          (t := firstByte { s with cb := update s.cb CB_OUT b, readStopped := _ })
          (by simp [firstByte]) rfl rfl false _
        exact ⟨hsocks, .inr ⟨CB_OUT, _, .read hpc hb (.inr rfl), hcb, hcl⟩⟩
      next =>
        obtain ⟨hsocks, hcb, hcl⟩ := ioDone_closes (s := s) (i := i) (b := b)
          (t := { s with cb := update s.cb i b, readStopped := _ }) rfl rfl rfl false _
        exact ⟨hsocks, .inr ⟨i, b, .read hpc hb (.inl rfl), hcb, hcl⟩⟩
    next => simp at h
  | write res =>
    simp only [doitStep] at h
    split at h
    next i hpc =>
      obtain ⟨b, hb, rfl⟩ := Option.map_eq_some_iff.mp h
      unfold writeDone
      dsimp only
      obtain ⟨hsocks, hcb, hcl⟩ := ioDone_closes (s := s) (i := i) (b := b)
        (t := { s with cb := update s.cb i b }) rfl rfl rfl _ false
      exact ⟨hsocks, .inr ⟨i, b, .write hpc hb, hcb, hcl⟩⟩
    next => simp at h
  | exits sig collected child =>
    simp only [doitStep] at h
    split at h
    next =>
      obtain ⟨hcb, hsocks, hopen⟩ := afterIo_same s sig collected child
      exact Option.some.inj h ▸ ⟨hsocks, .inl ⟨hcb, hopen⟩⟩
    next => simp at h
  | poll failed =>
    simp only [doitStep] at h
    split at h
    next => exact Option.some.inj h ▸ ⟨rfl, .inl ⟨rfl, rfl⟩⟩
    next => simp at h

/-! ### The way to the backend -/

namespace Relay

variable {l : Launch} {r : Relay}

/-- A buffer keeps its descriptors, and one that is done stays so. -/
lemma Inv.serves (h : r.Inv l) {e : Event} (hf : Fair r (.act e)) {i : Fin 3} {b : CopyBuf}
    (hb : r.doit.Serves i e b) : b.rdfd = (r.doit.cb i).rdfd ∧ b.wrfd = (r.doit.cb i).wrfd ∧
      (speedyCbCopydone (r.doit.cb i) → speedyCbCopydone b) := by
  cases hb with
  | @read junk res doWrite b₀ _ hpc hread hb =>
    obtain ⟨b', hb', hk, herr, -⟩ := speedyCbRead_spec (h.wf i) (hf.1 i (by rw [hpc]; rfl))
    obtain rfl : b' = b₀ := Option.some.inj (hb'.symm.trans hread)
    obtain ⟨hk', herr', -⟩ := speedyCbShift_spec hk.wf
    have heof := (h.room i doWrite hpc).1
    have hdone (c : CopyBuf) (hc : c.writeErr = (r.doit.cb i).writeErr)
        (hi : speedyCbCopydone (r.doit.cb i)) : speedyCbCopydone c := by
      have hne : (r.doit.cb i).writeErr ≠ 0 := by simpa [speedyCbCopydone, heof] using hi
      simp [speedyCbCopydone, hc, hne]
    rcases hb with rfl | rfl
    · exact ⟨hk.fds.1, hk.fds.2, hdone _ herr⟩
    · exact ⟨hk'.fds.1.trans hk.fds.1, hk'.fds.2.trans hk.fds.2, hdone _ (herr'.trans herr)⟩
  | @write res _ hpc hwrite =>
    have hbusy := h.busy i false hpc
    have hspec : (r.doit.cb i).Keeps b ∧ ((r.doit.cb i).writeErr ≠ 0 → b.writeErr ≠ 0) := by
      by_cases herr : (r.doit.cb i).writeErr = 0
      · obtain ⟨b', hb', hk, -, -⟩ := speedyCbWrite_spec (h.wf i) herr (hf i (by rw [hpc]; rfl))
        obtain rfl : b' = b := Option.some.inj (hb'.symm.trans hwrite)
        exact ⟨hk, fun hne => absurd herr hne⟩
      · obtain ⟨b', hb', hk, -, herr'⟩ := speedyCbWrite_of_err (h.wf i) herr res
        obtain rfl : b' = b := Option.some.inj (hb'.symm.trans hwrite)
        exact ⟨hk, fun hne => herr' ▸ hne⟩
    refine ⟨hspec.1.fds.1, hspec.1.fds.2, fun hi => ?_⟩
    have hne : (r.doit.cb i).writeErr ≠ 0 := by simpa [speedyCbCopydone, hbusy] using hi
    simp [speedyCbCopydone, hspec.2 hne]

end Relay

end SpeedyCgi.Copy
