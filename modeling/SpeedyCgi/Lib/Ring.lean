import Mathlib.Algebra.Order.Ring.Int
import Mathlib.Data.List.GetD
import Mathlib.Tactic.Common
import Mathlib.Tactic.SplitIfs

/-!
Data that lies in a block of memory and may wrap around its end.

`window buf beg len` are the `len` items from position `beg` on. They are read and written in at
most two straight pieces; `poke` writes one piece.
-/

namespace SpeedyCgi.Lib.Ring

variable {α : Type} [Inhabited α]

abbrev get (buf : List α) (i : ℕ) : α := buf.getD i default

/-- The position `x` of a block of `n`, for `x` up to once around. -/
def wrap (n x : ℕ) : ℕ := if x < n then x else x - n

lemma mod_eq_wrap {n x : ℕ} (h : x < 2 * n) : x % n = wrap n x := by
  unfold wrap
  split
  · exact Nat.mod_eq_of_lt (by assumption)
  · rw [Nat.mod_eq_sub_mod (by omega), Nat.mod_eq_of_lt (by omega)]

lemma wrap_lt {n x : ℕ} (h : x < 2 * n) : wrap n x < n := by
  unfold wrap
  split <;> omega

lemma wrap_wrap {n b m k : ℕ} (hb : b ≤ n) (hk : m + k < n) :
    wrap n (wrap n (b + m) + k) = wrap n (b + m + k) := by
  unfold wrap
  split_ifs <;> omega

def window (buf : List α) (beg len : ℕ) : List α :=
  (List.range len).map fun i => get buf (wrap buf.length (beg + i))

@[simp] lemma length_window (buf : List α) (beg len : ℕ) : (window buf beg len).length = len := by
  simp [window]

@[simp] lemma window_zero (buf : List α) (beg : ℕ) : window buf beg 0 = [] := rfl

lemma get_window {buf : List α} {beg len i : ℕ} (hi : i < len) :
    get (window buf beg len) i = get buf (wrap buf.length (beg + i)) := by
  simp [window, List.getD_eq_getElem?_getD, hi]

lemma ext_get {l l' : List α} (hlen : l.length = l'.length)
    (h : ∀ i < l.length, get l i = get l' i) : l = l' := by
  refine List.ext_getElem hlen fun i h₁ h₂ => ?_
  have := h i h₁
  simpa [List.getD_eq_getElem?_getD, h₁, h₂] using this

lemma get_append (l l' : List α) (i : ℕ) :
    get (l ++ l') i = if i < l.length then get l i else get l' (i - l.length) := by
  split
  · exact List.getD_append _ _ _ _ (by assumption)
  · exact List.getD_append_right _ _ _ _ (by omega)

lemma get_take {l : List α} {n i : ℕ} (hi : i < n) : get (l.take n) i = get l i := by
  simp [List.getD_eq_getElem?_getD, hi]

lemma get_drop (l : List α) (n i : ℕ) : get (l.drop n) i = get l (n + i) := by
  simp [List.getD_eq_getElem?_getD]

/-- What is in the data behind its first `m` items. -/
lemma window_add {buf : List α} {beg m n : ℕ} (hbeg : beg ≤ buf.length) (hn : m + n ≤ buf.length) :
    window buf beg (m + n) = window buf beg m ++ window buf (wrap buf.length (beg + m)) n := by
  refine ext_get (by simp) fun i hi => ?_
  rw [length_window] at hi
  rw [get_window hi, get_append, length_window]
  split
  next h => rw [get_window h]
  next h =>
    rw [get_window (by omega), wrap_wrap (by omega) (by omega)]
    congr 2
    omega

lemma drop_window {buf : List α} {beg len n : ℕ} (hbeg : beg ≤ buf.length) (hlen : len ≤ buf.length)
    (hn : n ≤ len) :
    (window buf beg len).drop n = window buf (wrap buf.length (beg + n)) (len - n) := by
  obtain ⟨k, rfl⟩ := Nat.exists_eq_add_of_le hn
  rw [window_add hbeg hlen, List.drop_left' (length_window ..), Nat.add_sub_cancel_left]

lemma take_window {buf : List α} {beg len n : ℕ} (hbeg : beg ≤ buf.length) (hlen : len ≤ buf.length)
    (hn : n ≤ len) : (window buf beg len).take n = window buf beg n := by
  obtain ⟨k, rfl⟩ := Nat.exists_eq_add_of_le hn
  rw [window_add hbeg hlen, List.take_left' (length_window ..)]

/-- Data that does not wrap is one piece. -/
lemma window_piece {buf : List α} {beg len : ℕ} (h : beg + len ≤ buf.length) :
    window buf beg len = (buf.drop beg).take len := by
  refine ext_get (by simp; omega) fun i hi => ?_
  rw [length_window] at hi
  rw [get_window hi, get_take hi, get_drop]
  congr 1
  unfold wrap
  split <;> omega

/-- `w` is written over what is at position `at`. -/
def poke (buf : List α) (pos : ℕ) (w : List α) : List α :=
  buf.take pos ++ w ++ buf.drop (pos + w.length)

omit [Inhabited α] in
@[simp] lemma length_poke {buf : List α} {pos : ℕ} {w : List α} (h : pos + w.length ≤ buf.length) :
    (poke buf pos w).length = buf.length := by
  simp only [poke, List.length_append, List.length_take, List.length_drop]
  omega

lemma get_poke {buf : List α} {pos : ℕ} {w : List α} (h : pos + w.length ≤ buf.length) (i : ℕ) :
    get (poke buf pos w) i =
      if pos ≤ i ∧ i < pos + w.length then get w (i - pos) else get buf i := by
  have hlen : (buf.take pos).length = pos := by simp; omega
  rw [poke, get_append, get_append, List.length_append, hlen]
  by_cases h1 : i < pos
  · rw [if_pos (by omega), if_pos h1, get_take h1, if_neg (by omega)]
  · by_cases h2 : i < pos + w.length
    · rw [if_pos h2, if_neg h1, if_pos ⟨by omega, h2⟩]
    · rw [if_neg h2, get_drop, if_neg (by omega)]
      congr 1
      omega

lemma get_poke_piece {buf : List α} {dest src len : ℕ} (hsrc : src + len ≤ buf.length)
    (hdest : dest + len ≤ buf.length) (i : ℕ) :
    get (poke buf dest ((buf.drop src).take len)) i =
      if dest ≤ i ∧ i < dest + len then get buf (src + (i - dest)) else get buf i := by
  have hlen : ((buf.drop src).take len).length = len := by simp; omega
  rw [get_poke (by rw [hlen]; exact hdest), hlen]
  split
  · rw [get_take (by omega), get_drop]
  · rfl

omit [Inhabited α] in
lemma length_poke_piece {buf : List α} {dest src len : ℕ} (hsrc : src + len ≤ buf.length)
    (hdest : dest + len ≤ buf.length) :
    (poke buf dest ((buf.drop src).take len)).length = buf.length := by
  have hlen : ((buf.drop src).take len).length = len := by simp; omega
  exact length_poke (by rw [hlen]; exact hdest)

/-- What is written at the beginning of the window comes first in it. -/
lemma window_poke {buf w : List α} {pos : ℕ} (h : pos + w.length ≤ buf.length) :
    window (poke buf pos w) pos buf.length = w ++ (window buf pos buf.length).drop w.length := by
  refine ext_get (by simp; omega) fun i hi => ?_
  rw [length_window] at hi
  rw [get_window hi, length_poke h, get_poke h, get_append, get_drop]
  have hpos : wrap buf.length (pos + i) = pos + i ∨ wrap buf.length (pos + i) + buf.length = pos + i := by
    unfold wrap
    split <;> omega
  have hlt : wrap buf.length (pos + i) < buf.length := wrap_lt (by omega)
  by_cases hw : i < w.length
  · rw [if_pos (by omega), if_pos hw]
    congr 1
    omega
  · rw [if_neg (by omega), if_neg hw, get_window (by omega)]
    congr 2
    omega

/-- The same where it goes on at the beginning of the block. -/
lemma window_poke_wrap {buf w w' : List α} {pos : ℕ} (h : pos + w.length = buf.length)
    (h' : w.length + w'.length ≤ buf.length) :
    window (poke (poke buf pos w) 0 w') pos buf.length =
      w ++ w' ++ (window buf pos buf.length).drop (w.length + w'.length) := by
  have hlen := length_poke (show pos + w.length ≤ buf.length by omega)
  have hpoke : 0 + w'.length ≤ (poke buf pos w).length := by omega
  refine ext_get (by simp; omega) fun i hi => ?_
  rw [length_window] at hi
  rw [get_window hi, length_poke hpoke, hlen, get_poke hpoke, get_poke (by omega), get_append, get_append,
    get_drop, List.length_append]
  have hpos : i < w.length ∧ wrap buf.length (pos + i) = pos + i ∨
      w.length ≤ i ∧ wrap buf.length (pos + i) + w.length = i := by
    unfold wrap
    split <;> omega
  rcases hpos with ⟨hw, hpos⟩ | ⟨hw, hpos⟩
  · rw [if_neg (by omega), if_pos (by omega), if_pos (by omega), if_pos hw]
    congr 1
    omega
  · by_cases hw' : i < w.length + w'.length
    · rw [if_pos (by omega), if_pos hw', if_neg (by omega)]
      congr 1
      omega
    · rw [if_neg (by omega), if_neg (by omega), if_neg hw', get_window (by omega)]
      congr 2
      omega

/-! ### A block that has grown

The block `b` begins with the items of `old`. Data that wrapped in `old` has to be put together
again: its beginning `k` items long goes to the new end, or its rest behind the beginning. -/

section Grown

variable {old b : List α} {beg len k : ℕ}

lemma window_grown (hb : ∀ i < old.length, get b i = get old i) (hn : old.length ≤ b.length)
    (h : beg + len ≤ old.length) : window b beg len = window old beg len := by
  refine ext_get (by simp) fun i hi => ?_
  rw [length_window] at hi
  rw [get_window hi, get_window hi]
  unfold wrap
  split_ifs <;> first | (exfalso; omega) | exact hb _ (by omega)

lemma window_moveFront (hb : ∀ i < old.length, get b i = get old i) (hn : old.length ≤ b.length)
    (hk : beg + k = old.length) (hlen : len ≤ old.length) (hwrap : k < len) :
    window (poke b (b.length - k) ((b.drop beg).take k)) (b.length - k) len = window old beg len := by
  have hsrc : beg + k ≤ b.length := by omega
  have hdest : b.length - k + k ≤ b.length := by omega
  refine ext_get (by simp) fun i hi => ?_
  rw [length_window] at hi
  rw [get_window hi, get_window hi, length_poke_piece hsrc hdest, get_poke_piece hsrc hdest]
  unfold wrap
  split_ifs <;> first
    | (exfalso; omega)
    | exact (hb _ (by omega)).trans (congrArg (get old) (by omega))

lemma window_moveRest (hb : ∀ i < old.length, get b i = get old i) (hk : beg + k = old.length)
    (hlen : len ≤ old.length) (hwrap : k < len) (hfits : beg + len ≤ b.length) :
    window (poke b old.length ((b.drop 0).take (len - k))) beg len = window old beg len := by
  have hdest : old.length + (len - k) ≤ b.length := by omega
  refine ext_get (by simp) fun i hi => ?_
  rw [length_window] at hi
  rw [get_window hi, get_window hi, length_poke_piece (by omega) hdest,
    get_poke_piece (by omega) hdest]
  unfold wrap
  split_ifs <;> first
    | (exfalso; omega)
    | exact (hb _ (by omega)).trans (congrArg (get old) (by omega))

lemma window_moveRest_wrap (hb : ∀ i < old.length, get b i = get old i)
    (hn : old.length ≤ b.length) (hk : beg + k = old.length) (hlen : len ≤ old.length)
    (hwrap : b.length < beg + len) {b' : List α}
    (hb' : b' = poke b old.length ((b.drop 0).take (b.length - old.length))) :
    window (poke b' 0 ((b'.drop (b.length - old.length)).take
      (len - k - (b.length - old.length)))) beg len = window old beg len := by
  have hdest : old.length + (b.length - old.length) ≤ b.length := by omega
  have hlen' : b'.length = b.length := hb' ▸ length_poke_piece (by omega) hdest
  have hget := get_poke_piece (show 0 + (b.length - old.length) ≤ b.length by omega) hdest
  rw [← hb'] at hget
  have hsrc : b.length - old.length + (len - k - (b.length - old.length)) ≤ b'.length := by omega
  have hdest' : 0 + (len - k - (b.length - old.length)) ≤ b'.length := by omega
  refine ext_get (by simp) fun i hi => ?_
  rw [length_window] at hi
  rw [get_window hi, get_window hi, length_poke_piece hsrc hdest', get_poke_piece hsrc hdest', hlen',
    hget, hget]
  unfold wrap
  split_ifs <;> first
    | (exfalso; omega)
    | exact (hb _ (by omega)).trans (congrArg (get old) (by omega))

end Grown

end SpeedyCgi.Lib.Ring
