import Mathlib.Algebra.Order.Ring.Int
import Mathlib.Tactic.Common

/-!
Readers of a stream, and the words they read.

`Yields r w a`: in front of any stream, the word `w` is exactly what the reader `r` takes off it,
and `a` is what it returns. A `Rep` is a representation of the values of a type by words of one
length.
-/

namespace SpeedyCgi.Lib.Codec

variable {β ε α γ : Type}

/-- A program that takes what it reads off the front of a stream. -/
abbrev Reader (β ε α : Type) := StateT (List β) (Except ε) α

def Yields (r : Reader β ε α) (w : List β) (a : α) : Prop :=
  ∀ rest, r (w ++ rest) = .ok (a, rest)

lemma Yields.pure (a : α) : Yields (Pure.pure a : Reader β ε α) [] a := fun _ => rfl

lemma Yields.bind {r : Reader β ε α} {k : α → Reader β ε γ} {w v : List β} {a : α} {c : γ}
    (hr : Yields r w a) (hk : Yields (k a) v c) : Yields (r >>= k) (w ++ v) c := by
  intro rest
  simp only [Bind.bind, StateT.bind, List.append_assoc, hr (v ++ rest), Except.bind]
  exact hk rest

lemma Yields.map {r : Reader β ε α} {w : List β} {a : α} (f : α → γ) (hr : Yields r w a) :
    Yields (f <$> r) w (f a) := by
  intro rest
  simp only [Functor.map, StateT.map, hr rest, Bind.bind, Except.bind]
  rfl

lemma Yields.bind_pure {r : Reader β ε α} {w : List β} {a : α} (f : α → γ) (hr : Yields r w a) :
    Yields (r >>= fun x => Pure.pure (f x)) w (f a) := by
  simpa using hr.bind (k := fun x => Pure.pure (f x)) (Yields.pure (f a))

/-- The next item, if the stream has not ended. -/
def next : Reader β ε (Option β) := fun
  | [] => .ok (none, [])
  | b :: s => .ok (some b, s)

lemma yields_next (b : β) : Yields (next : Reader β ε (Option β)) [b] (some b) := fun _ => rfl

/-- The next `n` items, or the error `e` if the stream ends before. -/
def items (e : ε) (n : ℕ) : Reader β ε (List β) := fun s =>
  if n ≤ s.length then .ok (s.take n, s.drop n) else .error e

lemma yields_items (e : ε) (w : List β) : Yields (items e w.length) w w := by
  intro rest
  simp [items]

/-- What a reader returns, again and again until it returns nothing, at most `n` times. -/
def collect (e : ε) (r : Reader β ε (Option α)) : ℕ → Reader β ε (List α)
  | 0 => throw e
  | n + 1 => do
    match ← r with
    | none => pure []
    | some a => (a :: ·) <$> collect e r n

lemma yields_collect {e : ε} {r : Reader β ε (Option α)} {f : α → List β} {stop : List β}
    (hstop : Yields r stop none) {l : List α} (hl : ∀ a ∈ l, Yields r (f a) (some a)) {n : ℕ}
    (hn : l.length < n) : Yields (collect e r n) (l.flatMap f ++ stop) l := by
  induction l generalizing n with
  | nil =>
    obtain ⟨n, rfl⟩ : ∃ m, n = m + 1 := ⟨n - 1, by simp at hn; omega⟩
    have := hstop.bind (k := fun x => match x with
      | none => Pure.pure []
      | some a => (a :: ·) <$> collect e r n) (Yields.pure [])
    simpa [collect] using this
  | cons a l ih =>
    obtain ⟨n, rfl⟩ : ∃ m, n = m + 1 := ⟨n - 1, by simp at hn; omega⟩
    have hrest : Yields (collect e r n) (l.flatMap f ++ stop) l :=
      ih (fun b hb => hl b (List.mem_cons_of_mem _ hb)) (by simpa using hn)
    have := (hl a List.mem_cons_self).bind (k := fun x => match x with
      | none => Pure.pure []
      | some a => (a :: ·) <$> collect e r n) (hrest.map (a :: ·))
    simpa [collect] using this

/-- The same for as long as the stream lasts: enough when no pass of `r` reads nothing. -/
def collectAll (e : ε) (r : Reader β ε (Option α)) : Reader β ε (List α) := fun s =>
  collect e r (s.length + 1) s

lemma yields_collectAll {e : ε} {r : Reader β ε (Option α)} {f : α → List β} {stop : List β}
    (hstop : Yields r stop none) {l : List α} (hl : ∀ a ∈ l, Yields r (f a) (some a))
    (hf : ∀ a ∈ l, f a ≠ []) : Yields (collectAll e r) (l.flatMap f ++ stop) l := by
  have hlen : l.length ≤ (l.flatMap f).length := by
    clear hl
    induction l with
    | nil => simp
    | cons a l ih =>
      have ha := List.length_pos_iff.mpr (hf a List.mem_cons_self)
      have := ih fun b hb => hf b (List.mem_cons_of_mem _ hb)
      simp only [List.length_cons, List.flatMap_cons, List.length_append]
      omega
  intro rest
  exact yields_collect hstop hl (by simp only [List.length_append]; omega) rest

/-- The values of a type as words of one length. -/
structure Rep (β α : Type) where
  size : ℕ
  put : α → List β
  get : List β → α
  length_put : ∀ a, (put a).length = size
  get_put : ∀ a, get (put a) = a

attribute [simp] Rep.length_put Rep.get_put

namespace Rep

/-- Two values, one behind the other. -/
def pair (p : Rep β α) (q : Rep β γ) : Rep β (α × γ) where
  size := p.size + q.size
  put x := p.put x.1 ++ q.put x.2
  get w := (p.get (w.take p.size), q.get (w.drop p.size))
  length_put x := by simp
  get_put x := by
    have h1 : (p.put x.1 ++ q.put x.2).take p.size = p.put x.1 :=
      List.take_left' (p.length_put _)
    have h2 : (p.put x.1 ++ q.put x.2).drop p.size = q.put x.2 :=
      List.drop_left' (p.length_put _)
    simp [h1, h2]

def read (p : Rep β α) (e : ε) : Reader β ε α := p.get <$> items e p.size

lemma yields_read (p : Rep β α) (e : ε) (a : α) : Yields (p.read e) (p.put a) a := by
  have := (yields_items e (p.put a)).map p.get
  simpa [read] using this

/-- `n` bytes, the lowest first. -/
def bytes : ℕ → ℕ → List UInt8
  | 0, _ => []
  | n + 1, v => UInt8.ofNat v :: bytes n (v / 256)

def value : List UInt8 → ℕ
  | [] => 0
  | b :: w => b.toNat + 256 * value w

@[simp] lemma length_bytes (n v : ℕ) : (bytes n v).length = n := by
  induction n generalizing v with
  | zero => rfl
  | succ n ih => simp [bytes, ih]

lemma value_bytes (n v : ℕ) : value (bytes n v) = v % 256 ^ n := by
  induction n generalizing v with
  | zero => simp [bytes, value, Nat.mod_one]
  | succ n ih =>
    have h : (UInt8.ofNat v).toNat = v % 256 := by simp
    rw [bytes, value, ih, h, Nat.pow_succ, Nat.mul_comm (256 ^ n), Nat.mod_mul]

/-- The machine words of `8 * n` bits, the lowest byte first. -/
def littleEndian (n : ℕ) : Rep UInt8 (BitVec (8 * n)) where
  size := n
  put v := bytes n v.toNat
  get w := BitVec.ofNat (8 * n) (value w)
  length_put v := by simp
  get_put v := by
    have h : v.toNat < 256 ^ n := by
      have := v.isLt
      rwa [Nat.pow_mul] at this
    rw [value_bytes, Nat.mod_eq_of_lt h, BitVec.ofNat_toNat, BitVec.setWidth_eq]

end Rep

end SpeedyCgi.Lib.Codec
