import SpeedyCgi.Copy.Circ

/-!
The circular buffer with the `int` fields of `speedy_circ.h`.

A sum or a difference that no `int` holds wraps around, as it does in the machine, and `%` has the
sign of its first argument. A length becomes a `size_t` in an `iovec`; the base of a segment is kept
as its distance from `buf`. Where nothing overflows the buffer is the one with natural numbers, and
the rest of the copy code is about that one; this is where it stops being so.
-/

namespace SpeedyCgi.Copy.CircInt

structure IoVec where
  iovBase : ℤ
  iovLen : UInt64

structure CircBuf where
  buf : Bytes
  bufLen : Int32
  dataBeg : Int32
  dataLen : Int32

/-- An `int` stored in a `size_t`. -/
def toSize (n : Int32) : UInt64 := n.toInt64.toUInt64

/-- A `size_t` stored in an `int`. -/
def toInt (n : UInt64) : Int32 := n.toInt64.toInt32

def getSegs (bufLen beg len : Int32) : List IoVec :=
  if len = 0 then []
  else
    let firstSegLen := bufLen - beg
    if len ≤ firstSegLen then [⟨beg.toInt, toSize len⟩]
    else [⟨beg.toInt, toSize firstSegLen⟩, ⟨0, toSize (len - firstSegLen)⟩]

def speedyCircDataSegs (c : CircBuf) : List IoVec := getSegs c.bufLen c.dataBeg c.dataLen

def speedyCircFreeSegs (c : CircBuf) : List IoVec :=
  if c.bufLen = 0 then []
  else getSegs c.bufLen ((c.dataBeg + c.dataLen) % c.bufLen) (c.bufLen - c.dataLen)

def speedyCircFreeLen (c : CircBuf) : Int32 := c.bufLen - c.dataLen

def speedyCircAdjLen (c : CircBuf) (adjust : Int32) : CircBuf :=
  let dataLen := c.dataLen + adjust
  if adjust < 0 then
    if dataLen = 0 then { c with dataLen, dataBeg := 0 }
    else { c with dataLen, dataBeg := (c.dataBeg - adjust) % c.bufLen }
  else { c with dataLen }

def memmove (buf : Bytes) (dest src : ℤ) (len : UInt64) : Option Bytes :=
  if 0 ≤ dest ∧ 0 ≤ src then Copy.memmove buf dest.toNat src.toNat len.toNat else none

def memcpy (buf : Bytes) (dest src : ℤ) (len : UInt64) : Option Bytes :=
  if 0 ≤ dest ∧ 0 ≤ src then Copy.memcpy buf dest.toNat src.toNat len.toNat else none

def speedyCircRealloc (c : CircBuf) (newBuf : Bytes) (newBufLen : Int32) : Option CircBuf := do
  let c := { c with buf := newBuf }
  let c ←
    if newBufLen > c.bufLen then
      match speedyCircDataSegs c with
      | [d0, d1] =>
        if d0.iovLen ≤ d1.iovLen then do
          let dataBeg := toInt (toSize newBufLen - d0.iovLen)
          let buf ← memmove c.buf dataBeg.toInt d0.iovBase d0.iovLen
          pure { c with dataBeg, buf }
        else do
          let buf ← match getSegs newBufLen c.bufLen (toInt d1.iovLen) with
            | [fr] => memcpy c.buf fr.iovBase d1.iovBase fr.iovLen
            | [fr0, fr1] => do
              let buf ← memcpy c.buf fr0.iovBase d1.iovBase fr0.iovLen
              memmove buf fr1.iovBase (d1.iovBase + fr0.iovLen.toNat) fr1.iovLen
            | _ => pure c.buf
          pure { c with buf }
      | _ => pure c
    else pure c
  pure { c with bufLen := newBufLen }

/-! ### What the buffer holds -/

/-- The places that the segments name; none if one begins in front of the block. -/
def pieces (segs : List IoVec) : Option (List Copy.IoVec) :=
  segs.mapM fun v => if 0 ≤ v.iovBase then some ⟨v.iovBase.toNat, v.iovLen.toNat⟩ else none

def circContents (c : CircBuf) : Option Bytes :=
  (pieces (speedyCircDataSegs c)).map (gatherSegs c.buf)

structure CircBuf.Bounds (c : CircBuf) : Prop where
  len : c.bufLen.toInt = c.buf.length
  begPos : 0 ≤ c.dataBeg.toInt
  beg : c.dataBeg.toInt < c.bufLen.toInt ∨ c.dataBeg.toInt = 0
  lenPos : 0 ≤ c.dataLen.toInt
  data : c.dataLen.toInt ≤ c.bufLen.toInt

/-- The buffer is a queue of bytes, and stays the same queue in a larger block. -/
structure CircBuf.Queue (c : CircBuf) : Prop where
  cover : ∃ d f, pieces (speedyCircDataSegs c) = some d ∧ pieces (speedyCircFreeSegs c) = some f ∧
    (places d ++ places f).Perm (List.range c.buf.length)
  put : ∀ w k, k.toInt = (w.length : ℤ) → k ≤ speedyCircFreeLen c →
    ∃ buf, ((pieces (speedyCircFreeSegs c)).bind fun f => fillSegs c.buf f w) = some buf ∧
      (speedyCircAdjLen { c with buf } k).Bounds ∧
      circContents (speedyCircAdjLen { c with buf } k) = (circContents c).map (· ++ w)
  drop : ∀ k, 0 < k → k ≤ c.dataLen → (speedyCircAdjLen c (-k)).Bounds ∧
    circContents (speedyCircAdjLen c (-k)) = (circContents c).map (·.drop k.toInt.toNat)
  grow : ∀ b n, n.toInt = (b.length : ℤ) → c.bufLen < n → b.take c.buf.length = c.buf →
    ∃ c', speedyCircRealloc c b n = some c' ∧ c'.Bounds ∧ c'.bufLen = n ∧
      circContents c' = circContents c

/-- `data_beg + data_len` is an `int`; in a full buffer it may be one more. -/
def CircBuf.Fits (c : CircBuf) : Prop :=
  c.dataBeg.toInt + c.dataLen.toInt < 2 ^ 31 ∨
    c.dataLen = c.bufLen ∧ c.dataBeg.toInt + c.dataLen.toInt = 2 ^ 31

/-- Up to 1 GiB the sum is an `int` anyway. -/
lemma fits_of_le {c : CircBuf} (h : c.Bounds) (hle : c.bufLen.toInt ≤ 2 ^ 30) : c.Fits := by
  obtain ⟨-, hbp, hb, -, hd⟩ := h
  exact .inl (by omega)

/-! ### The same buffer with natural numbers -/

/-- `m` is the buffer `c`. -/
structure Rep (c : CircBuf) (m : Copy.CircBuf) : Prop where
  buf : c.buf = m.buf
  bufLen : c.bufLen.toInt = m.bufLen
  dataBeg : c.dataBeg.toInt = m.dataBeg
  dataLen : c.dataLen.toInt = m.dataLen

lemma bounds_iff {c : CircBuf} : c.Bounds ↔ ∃ m, Rep c m ∧ m.Bounds := by
  constructor
  · rintro ⟨hlen, hbp, hb, hlp, hd⟩
    refine ⟨⟨c.buf, c.bufLen.toInt.toNat, c.dataBeg.toInt.toNat, c.dataLen.toInt.toNat⟩,
      ⟨rfl, ?_, ?_, ?_⟩, ?_, ?_, ?_⟩ <;> dsimp only <;> omega
  · rintro ⟨m, ⟨hbuf, hlen, hbeg, hdata⟩, ⟨hl, hb, hd⟩⟩
    refine ⟨?_, ?_, ?_, ?_, ?_⟩
    · rw [hlen, hbuf, hl]
    · omega
    · omega
    · omega
    · omega

/-- Up to 1 GiB there is such a buffer for every one with natural numbers. -/
lemma exists_rep {m : Copy.CircBuf} (hm : m.Bounds) (hle : m.bufLen ≤ 2 ^ 30) :
    ∃ c, Rep c m ∧ c.Fits := by
  have hd := hm.data
  have hb : m.dataBeg ≤ m.bufLen := by
    have := hm.beg
    omega
  have hr : Rep ⟨m.buf, .ofInt m.bufLen, .ofInt m.dataBeg, .ofInt m.dataLen⟩ m :=
    ⟨rfl, Int32.toInt_ofInt_of_le (by omega) (by omega), Int32.toInt_ofInt_of_le (by omega) (by omega),
      Int32.toInt_ofInt_of_le (by omega) (by omega)⟩
  exact ⟨_, hr, fits_of_le (bounds_iff.mpr ⟨m, hr, hm⟩) (by rw [hr.bufLen]; omega)⟩

/-- A sum that an `int` holds. -/
lemma toInt_add {a b : Int32} (h : -2 ^ 31 ≤ a.toInt + b.toInt) (h' : a.toInt + b.toInt < 2 ^ 31) :
    (a + b).toInt = a.toInt + b.toInt := by
  rw [Int32.toInt_add]
  exact Int.bmod_eq_of_le (by omega) (by omega)

lemma ne_zero {a : Int32} (h : a.toInt ≠ 0) : a ≠ 0 := fun h0 => h (by rw [h0, Int32.toInt_zero])

lemma toInt_sub {a b : Int32} (h : -2 ^ 31 ≤ a.toInt - b.toInt) (h' : a.toInt - b.toInt < 2 ^ 31) :
    (a - b).toInt = a.toInt - b.toInt := by
  rw [Int32.toInt_sub]
  exact Int.bmod_eq_of_le (by omega) (by omega)

/-- Only the least `int` is not the negative of another one. -/
lemma toInt_neg {a : Int32} (h : -2 ^ 31 < a.toInt) : (-a).toInt = -a.toInt := by
  have ha := a.toInt_lt
  rw [Int32.toInt_neg]
  exact Int.bmod_eq_of_le (by omega) (by omega)

/-- A sum of two lengths that no `int` holds. -/
lemma toInt_add_wrap {a b : Int32} (h : 2 ^ 31 ≤ a.toInt + b.toInt) :
    (a + b).toInt = a.toInt + b.toInt - 2 ^ 32 := by
  have ha := a.toInt_lt
  have hb := b.toInt_lt
  rw [Int32.toInt_add, Int.bmod_def]
  rw [if_neg (by omega)]
  omega

lemma toSize_eq {n : Int32} {k : ℕ} (h : n.toInt = k) : toSize n = UInt64.ofNat k := by
  have hk : k < 2 ^ 64 := by
    have := n.toInt_lt
    omega
  apply UInt64.toNat_inj.mp
  rw [toSize, Int64.toNat_toUInt64_of_le (by rw [Int64.le_iff_toInt_le]; simp [h]),
    UInt64.toNat_ofNat_of_lt' hk]
  simpa using congrArg Int.toNat h

lemma toInt_ofNat {k : ℕ} (h : k < 2 ^ 31) : (toInt (UInt64.ofNat k)).toInt = k := by
  have hi : (UInt64.ofNat k).toInt64 = Int64.ofNat k := rfl
  rw [toInt, hi, Int64.toInt_toInt32, Int64.toInt_ofNat_of_lt (by omega)]
  exact Int.bmod_eq_of_le (by omega) (by omega)

def ofPiece (p : Copy.IoVec) : IoVec := ⟨p.iovBase, UInt64.ofNat p.iovLen⟩

lemma pieces_map {segs : List Copy.IoVec} (h : ∀ p ∈ segs, p.iovLen < 2 ^ 64) :
    pieces (segs.map ofPiece) = some segs := by
  induction segs with
  | nil => rfl
  | cons p segs ih =>
    have hp : (UInt64.ofNat p.iovLen).toNat = p.iovLen := UInt64.toNat_ofNat_of_lt' (h p (.head _))
    have := ih fun q hq => h q (.tail _ hq)
    unfold pieces at this ⊢
    rw [List.map_cons, List.mapM_cons, this]
    simp [ofPiece, hp]

section
variable {bufLen beg len : Int32} {B b l : ℕ}

lemma getSegs_eq (hB : bufLen.toInt = B) (hb : beg.toInt = b) (hl : len.toInt = l) (hle : b ≤ B) :
    getSegs bufLen beg len = (Copy.getSegs B b l).map ofPiece := by
  have hlt := bufLen.toInt_lt
  have hlen := len.toInt_lt
  have hfst : (bufLen - beg).toInt = (B - b : ℕ) := by
    rw [toInt_sub (by omega) (by omega)]
    omega
  have hzero : len = 0 ↔ l = 0 := by
    rw [← Int32.toInt_inj, hl]
    simp
  have hfits : len ≤ bufLen - beg ↔ l ≤ B - b := by
    rw [Int32.le_iff_toInt_le, hfst, hl]
    omega
  unfold getSegs Copy.getSegs
  simp only [hzero, hfits]
  split_ifs with h0 h1
  · rfl
  · simp [ofPiece, hb, toSize_eq hl]
  · have hsnd : (len - (bufLen - beg)).toInt = (l - (B - b) : ℕ) := by
      rw [toInt_sub (by omega) (by omega)]
      omega
    simp [ofPiece, hb, toSize_eq hfst, toSize_eq hsnd]

lemma pieces_getSegs (hB : bufLen.toInt = B) (hb : beg.toInt = b) (hl : len.toInt = l) (hle : b ≤ B) :
    pieces (getSegs bufLen beg len) = some (Copy.getSegs B b l) := by
  have hlt := bufLen.toInt_lt
  have hlen := len.toInt_lt
  rw [getSegs_eq hB hb hl hle]
  refine pieces_map fun p hp => ?_
  unfold Copy.getSegs at hp
  dsimp only at hp
  split_ifs at hp
  · simp at hp
  · obtain rfl : p = ⟨b, l⟩ := by simpa using hp
    dsimp only
    omega
  · obtain rfl | rfl : p = ⟨b, B - b⟩ ∨ p = ⟨0, l - (B - b)⟩ := by simpa using hp
    all_goals dsimp only; omega

end

variable {c : CircBuf} {m : Copy.CircBuf}

lemma Rep.pieces_data (h : Rep c m) (hm : m.Bounds) :
    pieces (speedyCircDataSegs c) = some (Copy.speedyCircDataSegs m) := by
  have := hm.beg
  exact pieces_getSegs h.bufLen h.dataBeg h.dataLen (by omega)

lemma Rep.contents (h : Rep c m) (hm : m.Bounds) :
    circContents c = some (Copy.circContents m) := by
  rw [circContents, h.pieces_data hm, Option.map_some, h.buf, Copy.circContents]

lemma Rep.freeLen (h : Rep c m) (hm : m.Bounds) :
    (speedyCircFreeLen c).toInt = Copy.speedyCircFreeLen m := by
  obtain ⟨-, hlen, -, hdata⟩ := h
  have hd := hm.data
  have hlt := c.bufLen.toInt_lt
  unfold speedyCircFreeLen Copy.speedyCircFreeLen
  rw [toInt_sub (by omega) (by omega)]
  omega

lemma Rep.pieces_free (h : Rep c m) (hm : m.Bounds) (hf : c.Fits) :
    pieces (speedyCircFreeSegs c) = some (Copy.speedyCircFreeSegs m) := by
  have hfree : (c.bufLen - c.dataLen).toInt = (m.bufLen - m.dataLen : ℕ) := h.freeLen hm
  obtain ⟨hbuf, hlen, hbeg, hdata⟩ := h
  have hzero : c.bufLen = 0 ↔ m.bufLen = 0 := by
    rw [← Int32.toInt_inj, hlen]
    simp
  unfold speedyCircFreeSegs Copy.speedyCircFreeSegs
  simp only [hzero]
  split_ifs with h0
  · rfl
  rcases hf with hf | ⟨hfull, -⟩
  · have hmod : ((c.dataBeg + c.dataLen) % c.bufLen).toInt =
        ((m.dataBeg + m.dataLen) % m.bufLen : ℕ) := by
      rw [Int32.toInt_mod, toInt_add (by omega) hf, hbeg, hdata, hlen]
      rfl
    exact pieces_getSegs hlen hmod hfree (Nat.le_of_lt (Nat.mod_lt _ (by omega)))
  · have hnone : m.bufLen - m.dataLen = 0 := by
      rw [hfull] at hdata
      omega
    have hnone' : c.bufLen - c.dataLen = 0 := by
      rw [hfull, Int32.sub_self]
    rw [hnone, hnone']
    rfl

lemma Rep.adjLen_add (h : Rep c m) {k : Int32} {n : ℕ} (hk : k.toInt = n)
    (hle : m.dataLen + n ≤ m.bufLen) :
    Rep (speedyCircAdjLen c k) (Copy.speedyCircAdjLen m n) := by
  obtain ⟨hbuf, hlen, hbeg, hdata⟩ := h
  have hlt := c.bufLen.toInt_lt
  have hpos : ¬ k < 0 := by
    rw [Int32.lt_iff_toInt_lt, hk]
    simp
  rw [Copy.adjLen_add]
  simp only [speedyCircAdjLen, if_neg hpos]
  refine ⟨hbuf, hlen, hbeg, ?_⟩
  rw [toInt_add (by omega) (by omega), hdata, hk]
  rfl

/-- Nothing overflows if the new beginning is an `int`, or the buffer becomes empty. -/
lemma Rep.adjLen_sub (h : Rep c m) {k : Int32} {n : ℕ} (hk : k.toInt = n)
    (hn : 0 < n) (hle : n ≤ m.dataLen) (hfit : n = m.dataLen ∨ m.dataBeg + n < 2 ^ 31) :
    Rep (speedyCircAdjLen c (-k)) (Copy.speedyCircAdjLen m (-n)) := by
  obtain ⟨hbuf, hlen, hbeg, hdata⟩ := h
  have hlt := k.toInt_lt
  have hneg : (-k).toInt = -n := by rw [toInt_neg (by omega), hk]
  have hdlen : (c.dataLen + -k).toInt = (m.dataLen - n : ℕ) := by
    have := c.dataLen.toInt_lt
    rw [toInt_add (by omega) (by omega)]
    omega
  have hzero : c.dataLen + -k = 0 ↔ m.dataLen ≤ n := by
    rw [← Int32.toInt_inj, hdlen, Int32.toInt_zero]
    omega
  have hneg' : -k < 0 := by
    rw [Int32.lt_iff_toInt_lt, hneg, Int32.toInt_zero]
    omega
  rw [Copy.adjLen_sub m hn]
  simp only [speedyCircAdjLen, if_pos hneg', hzero]
  split_ifs with h0
  · exact ⟨hbuf, hlen, rfl, hdlen⟩
  · refine ⟨hbuf, hlen, ?_, hdlen⟩
    dsimp only
    rw [Int32.toInt_mod, toInt_sub (by omega) (by omega), hneg, hbeg, hlen, Int.sub_neg]
    rfl

lemma memmove_cast {b : Bytes} {dest src len : ℕ} (hlen : len < 2 ^ 64) :
    memmove b dest src (UInt64.ofNat len) = Copy.memmove b dest src len := by
  rw [memmove, if_pos (by omega), UInt64.toNat_ofNat_of_lt' hlen]
  rfl

lemma memcpy_cast {b : Bytes} {dest src len : ℕ} (hlen : len < 2 ^ 64) :
    memcpy b dest src (UInt64.ofNat len) = Copy.memcpy b dest src len := by
  rw [memcpy, if_pos (by omega), UInt64.toNat_ofNat_of_lt' hlen]
  rfl

lemma getSegs_cases (B b l : ℕ) : Copy.getSegs B b l = [] ∨ Copy.getSegs B b l = [⟨b, l⟩] ∨
    B - b < l ∧ Copy.getSegs B b l = [⟨b, B - b⟩, ⟨0, l - (B - b)⟩] := by
  unfold Copy.getSegs
  dsimp only
  split_ifs with h0 h1
  · exact .inl rfl
  · exact .inr (.inl rfl)
  · exact .inr (.inr ⟨by omega, rfl⟩)

lemma size_le {p q : ℕ} (hp : p < 2 ^ 64) (hq : q < 2 ^ 64) :
    UInt64.ofNat p ≤ UInt64.ofNat q ↔ p ≤ q := by
  rw [UInt64.le_iff_toNat_le, UInt64.toNat_ofNat_of_lt' hp, UInt64.toNat_ofNat_of_lt' hq]

/-- Nothing overflows when the buffer grows. -/
lemma Rep.realloc (h : Rep c m) (hm : m.Bounds) {b : Bytes} {n : Int32} {N : ℕ} (hn : n.toInt = N)
    (hlt : m.bufLen < N) {m' : Copy.CircBuf} (hr : Copy.speedyCircRealloc m b N = some m') :
    ∃ c', speedyCircRealloc c b n = some c' ∧ Rep c' m' := by
  obtain ⟨hbuf, hlen, hbeg, hdata⟩ := h
  have hN := n.toInt_lt
  have hd := hm.data
  have hb' := hm.beg
  have hgt : n > c.bufLen := by
    rw [gt_iff_lt, Int32.lt_iff_toInt_lt, hn, hlen]
    omega
  have hsegs : speedyCircDataSegs { c with buf := b } =
      (Copy.getSegs m.bufLen m.dataBeg m.dataLen).map ofPiece :=
    getSegs_eq hlen hbeg hdata (by omega)
  have hsegs' : Copy.speedyCircDataSegs { m with buf := b } =
      Copy.getSegs m.bufLen m.dataBeg m.dataLen := rfl
  simp only [Copy.speedyCircRealloc, hsegs', if_pos (show N > m.bufLen from hlt)] at hr
  simp only [speedyCircRealloc, hsegs, if_pos hgt]
  rcases getSegs_cases m.bufLen m.dataBeg m.dataLen with hs | hs | ⟨hwrap, hs⟩
  · simp only [hs] at hr ⊢
    obtain rfl := Option.some.inj hr
    exact ⟨_, rfl, rfl, hn, hbeg, hdata⟩
  · simp only [hs] at hr ⊢
    obtain rfl := Option.some.inj hr
    exact ⟨_, rfl, rfl, hn, hbeg, hdata⟩
  -- the data wraps: `p` bytes at the end of the block and `q` at its beginning
  simp only [hs] at hr ⊢
  generalize hp : m.bufLen - m.dataBeg = p at hr hwrap ⊢
  generalize hq : m.dataLen - p = q at hr ⊢
  simp only [List.map_cons, List.map_nil, ofPiece, size_le (show p < 2 ^ 64 by omega)
    (show q < 2 ^ 64 by omega)]
  by_cases hpq : p ≤ q
  · rw [if_pos hpq] at hr ⊢
    have hto : (toInt (toSize n - UInt64.ofNat p)).toInt = (N - p : ℕ) := by
      rw [toSize_eq hn, ← UInt64.ofNat_sub (by omega), toInt_ofNat (by omega)]
    simp only [Option.bind_eq_bind, hto, memmove_cast (show p < 2 ^ 64 by omega)] at hr ⊢
    obtain ⟨b₁, hmove, hr⟩ := Option.bind_eq_some_iff.mp hr
    obtain rfl := Option.some.inj hr
    rw [hmove]
    exact ⟨_, rfl, rfl, hn, hto, hdata⟩
  · rw [if_neg hpq] at hr ⊢
    have hfr : getSegs n c.bufLen (toInt (UInt64.ofNat q)) = (Copy.getSegs N m.bufLen q).map ofPiece :=
      getSegs_eq hn hlen (toInt_ofNat (by omega)) (by omega)
    rw [hfr]
    rcases getSegs_cases N m.bufLen q with hs | hs | ⟨-, hs⟩
    · simp only [hs] at hr ⊢
      obtain rfl := Option.some.inj hr
      exact ⟨_, rfl, rfl, hn, hbeg, hdata⟩
    · simp only [hs, List.map_cons, List.map_nil, ofPiece] at hr ⊢
      simp only [Option.bind_eq_bind, memcpy_cast (show q < 2 ^ 64 by omega)] at hr ⊢
      obtain ⟨b₁, hmove, hr⟩ := Option.bind_eq_some_iff.mp hr
      obtain rfl := Option.some.inj hr
      rw [hmove]
      exact ⟨_, rfl, rfl, hn, hbeg, hdata⟩
    · simp only [hs, List.map_cons, List.map_nil, ofPiece] at hr ⊢
      generalize hr₀ : N - m.bufLen = r at hr ⊢
      have hsrc : ((0 : ℕ) : ℤ) + (UInt64.ofNat r).toNat = (0 + r : ℕ) := by
        rw [UInt64.toNat_ofNat_of_lt' (show r < 2 ^ 64 by omega)]
        rfl
      simp only [Option.bind_eq_bind, hsrc, memcpy_cast (show r < 2 ^ 64 by omega),
        memmove_cast (show q - r < 2 ^ 64 by omega)] at hr ⊢
      obtain ⟨b₁, hcopy, hr⟩ := Option.bind_eq_some_iff.mp hr
      obtain ⟨b₂, hmove, hr⟩ := Option.bind_eq_some_iff.mp hr
      obtain rfl := Option.some.inj hr
      simp only [hcopy, Option.bind_some, hmove]
      exact ⟨_, rfl, rfl, hn, hbeg, hdata⟩

/-! ### Where the sum of two lengths is no `int` -/

/-- The remainder of a negative number has its sign. -/
lemma tmod_neg {s n : ℤ} (hs : s < 0) (hn : -s < 2 * n) : s.tmod n = if -s < n then s else s + n := by
  obtain ⟨r, rfl⟩ : ∃ r, s = -r := ⟨-s, (Int.neg_neg s).symm⟩
  rw [Int.neg_tmod, Int.tmod_eq_emod_of_nonneg (by omega)]
  split_ifs with h
  · rw [Int.emod_eq_of_lt (by omega) (by omega)]
  · rw [← Int.sub_emod_right, Int.emod_eq_of_lt (by omega) (by omega)]
    omega

lemma head_getSegs {bufLen beg len : Int32} (h : len ≠ 0) :
    ∃ n segs, getSegs bufLen beg len = ⟨beg.toInt, n⟩ :: segs := by
  unfold getSegs
  rw [if_neg h]
  dsimp only
  split_ifs
  · exact ⟨_, _, rfl⟩
  · exact ⟨_, _, rfl⟩

/-- A free segment in front of the block, or one that the data has as well. -/
lemma not_queue_of_free (h : c.Bounds) (hlt : c.dataLen.toInt < c.bufLen.toInt)
    (hover : 2 ^ 31 ≤ c.dataBeg.toInt + c.dataLen.toInt) : ¬ c.Queue := by
  intro hq
  obtain ⟨d, f, hd, hf, hperm⟩ := hq.cover
  obtain ⟨m, hr, hm⟩ := bounds_iff.mp h
  have hfree : (c.bufLen - c.dataLen).toInt = (m.bufLen - m.dataLen : ℕ) := hr.freeLen hm
  obtain ⟨hbuf, hlen, hbeg, hdata⟩ := hr
  have hn := c.bufLen.toInt_lt
  have hb := hm.beg
  have hne : c.bufLen - c.dataLen ≠ 0 := ne_zero (by omega)
  have hzero : c.bufLen ≠ 0 := ne_zero (by omega)
  have hrem : ((c.dataBeg + c.dataLen) % c.bufLen).toInt ≤ 0 := by
    rw [Int32.toInt_mod, toInt_add_wrap hover, tmod_neg (by omega) (by omega)]
    split_ifs <;> omega
  rw [speedyCircFreeSegs, if_neg hzero] at hf
  rcases lt_or_eq_of_le hrem with hneg | h0
  · obtain ⟨n, segs, hs⟩ : ∃ n segs, getSegs c.bufLen ((c.dataBeg + c.dataLen) % c.bufLen)
        (c.bufLen - c.dataLen) = ⟨_, n⟩ :: segs := head_getSegs hne
    rw [hs, pieces, List.mapM_cons, if_neg (by dsimp only; omega)] at hf
    simp at hf
  · -- the block's first byte is free, and holds the data that wraps
    rw [pieces_getSegs (b := 0) hlen h0 hfree (Nat.zero_le _)] at hf
    obtain rfl := Option.some.inj hf
    have hdata' := Rep.pieces_data ⟨hbuf, hlen, hbeg, hdata⟩ hm
    rw [hd] at hdata'
    obtain rfl := Option.some.inj hdata'
    have hnd := hperm.nodup_iff.mpr List.nodup_range
    refine (List.nodup_append.mp hnd).2.2 0 ?_ 0 ?_ rfl
    · rw [← List.count_pos_iff, Copy.speedyCircDataSegs, count_places_getSegs hb hm.data,
        if_pos (by omega)]
      exact Nat.one_pos
    · rw [← List.count_pos_iff, count_places_getSegs (.inr rfl) (Nat.sub_le ..), if_pos (by omega)]
      exact Nat.one_pos

/-- A beginning in front of the block. -/
lemma not_queue_of_full (h : c.Bounds) (hfull : c.dataLen = c.bufLen)
    (hover : 2 ^ 31 < c.dataBeg.toInt + c.dataLen.toInt) : ¬ c.Queue := by
  intro hq
  obtain ⟨hlen, hbp, hb, hlp, hd⟩ := h
  have hn := c.bufLen.toInt_lt
  rw [hfull] at hover
  obtain ⟨k, hk⟩ : ∃ k : Int32, k.toInt = 2 ^ 31 - c.dataBeg.toInt :=
    ⟨.ofInt (2 ^ 31 - c.dataBeg.toInt), Int32.toInt_ofInt_of_le (by omega) (by omega)⟩
  have hpos : 0 < k := by
    rw [Int32.lt_iff_toInt_lt, hk, Int32.toInt_zero]
    omega
  have hle : k ≤ c.dataLen := by
    rw [Int32.le_iff_toInt_le, hk, hfull]
    omega
  have hneg : (-k).toInt = -k.toInt := toInt_neg (by omega)
  have hlt : -k < 0 := by
    rw [Int32.lt_iff_toInt_lt, hneg, Int32.toInt_zero]
    omega
  have hne : c.dataLen + -k ≠ 0 := ne_zero (by
    rw [toInt_add (by omega) (by omega), hfull]
    omega)
  have hbeg : (c.dataBeg - -k).toInt = -2 ^ 31 := by
    rw [Int32.toInt_sub, hneg, hk]
    rw [show c.dataBeg.toInt - -(2 ^ 31 - c.dataBeg.toInt) = 2 ^ 31 by omega]
    decide
  have hnew := (hq.drop k hpos hle).1.begPos
  simp only [speedyCircAdjLen, if_pos hlt, if_neg hne] at hnew
  rw [Int32.toInt_mod, hbeg, tmod_neg (by omega) (by omega)] at hnew
  split_ifs at hnew <;> omega

lemma fits_of_queue (h : c.Bounds) (hq : c.Queue) : c.Fits := by
  by_contra hf
  rw [CircBuf.Fits, not_or, not_and] at hf
  rcases eq_or_ne c.dataLen c.bufLen with hfull | hne
  · have := hf.2 hfull
    exact not_queue_of_full h hfull (by omega) hq
  · have hlt : c.dataLen.toInt < c.bufLen.toInt :=
      lt_of_le_of_ne h.data fun he => hne (Int32.toInt.inj he)
    exact not_queue_of_free h hlt (by omega) hq

/-- What is so of the buffer with natural numbers. -/
lemma queue_of_fits (h : c.Bounds) (hf : c.Fits) : c.Queue := by
  obtain ⟨m, hr, hm⟩ := bounds_iff.mp h
  obtain ⟨hcover, hput, hdrop, hgrow⟩ := circ_queue hm
  have hlen : c.buf.length = m.bufLen := by rw [hr.buf, hm.len]
  have hd := hm.data
  refine ⟨⟨_, _, hr.pieces_data hm, hr.pieces_free hm hf, by rw [hlen]; exact hcover⟩,
    fun w k hk hle => ?_, fun k hk hle => ?_, fun b n hn hlt hb => ?_⟩
  · have hfree : w.length ≤ Copy.speedyCircFreeLen m := by
      rw [Int32.le_iff_toInt_le, hk, hr.freeLen hm] at hle
      omega
    obtain ⟨buf, hfill, hbounds, hcont⟩ := hput w hfree
    have hsame : Rep { c with buf } { m with buf } := ⟨rfl, hr.bufLen, hr.dataBeg, hr.dataLen⟩
    have hrep := hsame.adjLen_add hk (by
      unfold Copy.speedyCircFreeLen at hfree
      dsimp only
      omega)
    refine ⟨buf, ?_, bounds_iff.mpr ⟨_, hrep, hbounds⟩, ?_⟩
    · rw [hr.pieces_free hm hf, Option.bind_some, hr.buf]
      exact hfill
    · rw [hrep.contents hbounds, hcont, hr.contents hm]
      rfl
  · rw [Int32.lt_iff_toInt_lt, Int32.toInt_zero] at hk
    rw [Int32.le_iff_toInt_le, hr.dataLen] at hle
    obtain ⟨i, hi⟩ : ∃ i : ℕ, k.toInt = i := ⟨k.toInt.toNat, by omega⟩
    obtain ⟨hbounds, hcont⟩ := hdrop i (by omega) (by omega)
    have hfit : i = m.dataLen ∨ m.dataBeg + i < 2 ^ 31 := by
      have h1 := hr.dataBeg
      have h2 := hr.dataLen
      rcases hf with hf | ⟨-, hf⟩ <;> omega
    have hrep := hr.adjLen_sub hi (by omega) (by omega) hfit
    refine ⟨bounds_iff.mpr ⟨_, hrep, hbounds⟩, ?_⟩
    rw [hrep.contents hbounds, hcont, hr.contents hm, hi]
    rfl
  · rw [Int32.lt_iff_toInt_lt, hr.bufLen, hn] at hlt
    obtain ⟨m', hm', hbounds, hlen', hcont⟩ := hgrow b (by omega) (by rw [← hlen, hb, hr.buf])
    obtain ⟨c', hc', hrep⟩ := hr.realloc hm hn (by omega) hm'
    refine ⟨c', hc', bounds_iff.mpr ⟨_, hrep, hbounds⟩, Int32.toInt.inj ?_, ?_⟩
    · rw [hrep.bufLen, ← hbounds.len, hlen', hn]
    · rw [hrep.contents hbounds, hcont, hr.contents hm]

/-- **A circular buffer is a queue of bytes as long as `data_beg + data_len` is an `int`.** -/
theorem circ_refines_iff (h : c.Bounds) : c.Queue ↔ c.Fits := ⟨fits_of_queue h, queue_of_fits h⟩

/-- A buffer of 1500000000 bytes, with 1200000000 bytes of data from position 1000000000 on. -/
def huge : CircBuf := ⟨List.replicate 1500000000 0, 1500000000, 1000000000, 1200000000⟩

lemma bounds_huge : huge.Bounds where
  len := by
    change (1500000000 : Int32).toInt = ((List.replicate 1500000000 (0 : UInt8)).length : ℤ)
    rw [List.length_replicate]
    decide
  begPos := by decide
  beg := .inl (by decide)
  lenPos := by decide
  data := by decide

/-- Not every buffer is a queue. -/
theorem huge_not_queue : ¬ ∀ c : CircBuf, c.Bounds → c.Queue := by
  intro hall
  exact not_queue_of_free bounds_huge (by decide) (by decide) (hall huge bounds_huge)

/-- Two bytes in front of the end of the block and one behind it, in a larger block; and a buffer that
is too large. -/
theorem circ_refines_iff_wrapped :
    (∃ c', speedyCircRealloc ⟨[3, 0, 1, 2], 4, 2, 3⟩ [3, 0, 1, 2, 0] 5 = some c' ∧
      circContents c' = some [1, 2, 3]) ∧ ¬ huge.Queue := by
  have hb : CircBuf.Bounds ⟨[3, 0, 1, 2], 4, 2, 3⟩ :=
    ⟨by decide, by decide, .inl (by decide), by decide, by decide⟩
  obtain ⟨c', hc', -, -, hcont⟩ := ((circ_refines_iff hb).mpr (fits_of_le hb (by decide))).grow
    [3, 0, 1, 2, 0] 5 (by decide) (by decide) rfl
  refine ⟨⟨c', hc', hcont⟩, fun hq => ?_⟩
  rcases (circ_refines_iff bounds_huge).mp hq with h | ⟨-, h⟩
  · exact absurd h (by decide)
  · exact absurd h (by decide)

end SpeedyCgi.Copy.CircInt
