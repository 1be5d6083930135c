import SpeedyCgi.Lib.Ring

/-!
The circular buffer.

`buf` is the block of memory itself, of `bufLen` bytes. Writing outside of it, or copying with
`memcpy` between pieces that overlap, is a fault (`none`). What a block holds where nothing has been
written is given by `junk`.

Sizes and positions are natural numbers. That they are those of the `int` fields, for buffers of up to
1 GiB and some larger ones, is the subject of `CircInt`.
-/

namespace SpeedyCgi.Copy

open Lib.Ring

abbrev Bytes := List UInt8

structure IoVec where
  iovBase : ℕ
  iovLen : ℕ
deriving DecidableEq

structure CircBuf where
  buf : Bytes
  bufLen : ℕ
  dataBeg : ℕ
  dataLen : ℕ
deriving DecidableEq

/-- Contents to begin with: some bytes in a block that is not smaller. -/
structure Contents where
  bytes : Bytes
  rest : Bytes

def Contents.alloced (c : Contents) : ℕ := c.bytes.length + c.rest.length

def speedyCircInit : Option Contents → CircBuf
  | some c => ⟨c.bytes ++ c.rest, c.alloced, 0, c.bytes.length⟩
  | none => ⟨[], 0, 0, 0⟩

def getSegs (bufLen beg len : ℕ) : List IoVec :=
  if len = 0 then []
  else
    let firstSegLen := bufLen - beg
    if len ≤ firstSegLen then [⟨beg, len⟩]
    else [⟨beg, firstSegLen⟩, ⟨0, len - firstSegLen⟩]

def speedyCircDataSegs (c : CircBuf) : List IoVec := getSegs c.bufLen c.dataBeg c.dataLen

def speedyCircFreeSegs (c : CircBuf) : List IoVec :=
  if c.bufLen = 0 then []
  else getSegs c.bufLen ((c.dataBeg + c.dataLen) % c.bufLen) (c.bufLen - c.dataLen)

def speedyCircFreeLen (c : CircBuf) : ℕ := c.bufLen - c.dataLen

def speedyCircAdjLen (c : CircBuf) (adjust : Int) : CircBuf :=
  let dataLen := (c.dataLen + adjust).toNat
  if adjust < 0 then
    if dataLen = 0 then { c with dataLen, dataBeg := 0 }
    else { c with dataLen, dataBeg := ((c.dataBeg - adjust) % c.bufLen).toNat }
  else { c with dataLen }

/-- Write `w` to the block. -/
def writeAt (buf : Bytes) (pos : ℕ) (w : Bytes) : Option Bytes :=
  if pos + w.length ≤ buf.length then some (poke buf pos w) else none

def memmove (buf : Bytes) (dest src len : ℕ) : Option Bytes :=
  if src + len ≤ buf.length then writeAt buf dest ((buf.drop src).take len) else none

def memcpy (buf : Bytes) (dest src len : ℕ) : Option Bytes :=
  if dest + len ≤ src ∨ src + len ≤ dest then memmove buf dest src len else none

/-- `buf` is the new block, which holds the bytes of the old one where that was. -/
def speedyCircRealloc (c : CircBuf) (buf : Bytes) (newBufLen : ℕ) : Option CircBuf := do
  let c := { c with buf := buf }
  let c ← match speedyCircDataSegs c with
    | [d0, d1] =>
      if newBufLen > c.bufLen then
        if d0.iovLen ≤ d1.iovLen then do
          let dataBeg := newBufLen - d0.iovLen
          let buf ← memmove c.buf dataBeg d0.iovBase d0.iovLen
          pure { c with dataBeg, buf }
        else do
          let buf ← match getSegs newBufLen c.bufLen d1.iovLen with
            | [fr] => memcpy c.buf fr.iovBase d1.iovBase fr.iovLen
            | [fr0, fr1] => do
              let buf ← memcpy c.buf fr0.iovBase d1.iovBase fr0.iovLen
              memmove buf fr1.iovBase (d1.iovBase + fr0.iovLen) fr1.iovLen
            | _ => pure c.buf
          pure { c with buf }
      else pure c
    | _ => pure c
  pure { c with bufLen := newBufLen }

/-- What `realloc` makes of a block. -/
def speedyRenew (junk : ℕ → UInt8) (buf : Bytes) (n : ℕ) : Bytes :=
  buf.take n ++ (List.range (n - buf.length)).map junk

/-- The bytes that `readv` puts into the pieces of a block, in their order. -/
def fillSegs (buf : Bytes) : List IoVec → Bytes → Option Bytes
  | [], _ => some buf
  | s :: segs, w => do
    let buf ← writeAt buf s.iovBase (w.take s.iovLen)
    fillSegs buf segs (w.drop s.iovLen)

/-- The bytes that `writev` finds in the pieces of a block. -/
def gatherSegs (buf : Bytes) (segs : List IoVec) : Bytes :=
  segs.flatMap fun s => (buf.drop s.iovBase).take s.iovLen

def segsLen (segs : List IoVec) : ℕ := (segs.map (·.iovLen)).sum

/-! ### What the buffer holds -/

/-- The block and the place of the data in it. -/
structure CircBuf.Wf (c : CircBuf) : Prop where
  len : c.buf.length = c.bufLen
  beg : c.dataBeg < c.bufLen ∨ c.dataBeg = 0
  data : c.dataLen ≤ c.bufLen
  empty : c.dataLen = 0 → c.dataBeg = 0

/-- The same for any place of data that is empty. -/
structure CircBuf.Bounds (c : CircBuf) : Prop where
  len : c.buf.length = c.bufLen
  beg : c.dataBeg < c.bufLen ∨ c.dataBeg = 0
  data : c.dataLen ≤ c.bufLen

lemma CircBuf.Wf.bounds {c : CircBuf} (h : c.Wf) : c.Bounds := ⟨h.len, h.beg, h.data⟩

def CircBuf.data (c : CircBuf) : Bytes := window c.buf c.dataBeg c.dataLen

lemma circInit_wf (contents : Option Contents) : (speedyCircInit contents).Wf := by
  cases contents with
  | none => exact ⟨rfl, .inr rfl, Nat.le_refl _, fun _ => rfl⟩
  | some c => exact ⟨by simp [speedyCircInit, Contents.alloced], .inr rfl,
      by simp [speedyCircInit, Contents.alloced], fun _ => rfl⟩

lemma data_circInit (contents : Option Contents) :
    (speedyCircInit contents).data = (contents.map (·.bytes)).getD [] := by
  cases contents with
  | none => rfl
  | some c =>
    rw [CircBuf.data, window_piece (by simp [speedyCircInit])]
    simp [speedyCircInit]

lemma segsLen_getSegs (bufLen beg len : ℕ) : segsLen (getSegs bufLen beg len) = len := by
  unfold getSegs
  split
  · simp [segsLen, *]
  · dsimp only
    split
    · simp [segsLen]
    · simp [segsLen]
      omega

/-- The pieces of the data, one behind the other, are the data. -/
lemma gatherSegs_data {c : CircBuf} (h : c.Bounds) :
    gatherSegs c.buf (speedyCircDataSegs c) = c.data := by
  obtain ⟨hlen, hbeg, hdata⟩ := h
  unfold speedyCircDataSegs getSegs CircBuf.data
  split
  next h0 => simp [gatherSegs, h0]
  next h0 =>
    dsimp only
    split
    next h1 =>
      rw [window_piece (by omega)]
      simp [gatherSegs]
    next h1 =>
      obtain ⟨k, hk⟩ := Nat.exists_eq_add_of_le (show c.bufLen - c.dataBeg ≤ c.dataLen by omega)
      have hwrap : wrap c.buf.length (c.dataBeg + (c.bufLen - c.dataBeg)) = 0 := by
        unfold wrap
        split_ifs <;> omega
      rw [hk, window_add (by omega) (by omega), hwrap, window_piece (by omega),
        window_piece (by omega)]
      simp [gatherSegs]

/-! ### Taking data out -/

lemma adjLen_add (c : CircBuf) (n : ℕ) :
    speedyCircAdjLen c n = { c with dataLen := c.dataLen + n } := by
  simp only [speedyCircAdjLen]
  rw [if_neg (by omega)]
  congr 1

lemma adjLen_sub (c : CircBuf) {n : ℕ} (hn : 0 < n) :
    speedyCircAdjLen c (-n) =
      { c with
        dataLen := c.dataLen - n
        dataBeg := if c.dataLen ≤ n then 0 else (c.dataBeg + n) % c.bufLen } := by
  have hlen : ((c.dataLen : Int) + -(n : Int)).toNat = c.dataLen - n := by omega
  simp only [speedyCircAdjLen, hlen]
  rw [if_pos (by omega)]
  split
  next h => rw [if_pos (by omega)]
  next h =>
    rw [if_neg (by omega)]
    congr 1
    rw [Int.sub_neg]
    exact_mod_cast Int.toNat_natCast ((c.dataBeg + n) % c.bufLen)

/-- Data is taken out at its beginning. -/
lemma adjLen_sub_data {c : CircBuf} (h : c.Bounds) {n : ℕ} (hn : 0 < n) (hle : n ≤ c.dataLen) :
    (speedyCircAdjLen c (-n)).Wf ∧ (speedyCircAdjLen c (-n)).data = c.data.drop n := by
  obtain ⟨hlen, hbeg, hdata⟩ := h
  rw [adjLen_sub c hn]
  split
  next he =>
    obtain rfl : c.dataLen = n := by omega
    exact ⟨⟨hlen, .inr rfl, by simp, fun _ => rfl⟩, by simp [CircBuf.data]⟩
  next he =>
    have hmod : (c.dataBeg + n) % c.bufLen = wrap c.bufLen (c.dataBeg + n) :=
      mod_eq_wrap (by omega)
    refine ⟨⟨hlen, .inl ?_, by simp only; omega, by simp only; omega⟩, ?_⟩
    · rw [hmod]
      exact wrap_lt (by omega)
    · rw [CircBuf.data, CircBuf.data, drop_window (by omega) (by omega) hle, hmod, hlen]

/-! ### Putting data in -/

lemma writeAt_eq {buf w : Bytes} {pos : ℕ} (h : pos + w.length ≤ buf.length) :
    writeAt buf pos w = some (poke buf pos w) := if_pos h

/-- What `readv` puts into the pieces from position `beg` on. -/
lemma fillSegs_getSegs {buf w : Bytes} {beg n : ℕ} (hbeg : beg < buf.length) (hn : n ≤ buf.length)
    (hw : w.length ≤ n) :
    ∃ buf', fillSegs buf (getSegs buf.length beg n) w = some buf' ∧ buf'.length = buf.length ∧
      window buf' beg buf.length = w ++ (window buf beg buf.length).drop w.length := by
  unfold getSegs
  by_cases h0 : n = 0
  · obtain rfl := List.length_eq_zero_iff.mp (show w.length = 0 by omega)
    exact ⟨buf, by rw [if_pos h0]; rfl, rfl, by simp⟩
  rw [if_neg h0]
  dsimp only
  by_cases h1 : n ≤ buf.length - beg
  · have hpoke : beg + w.length ≤ buf.length := by omega
    refine ⟨poke buf beg w, ?_, length_poke hpoke, window_poke hpoke⟩
    rw [if_pos h1]
    simp [fillSegs, List.take_of_length_le hw, writeAt_eq hpoke]
  rw [if_neg h1]
  by_cases h2 : w.length ≤ buf.length - beg
  · -- the second piece is not reached
    have hpoke : beg + w.length ≤ buf.length := by omega
    refine ⟨poke buf beg w, ?_, length_poke hpoke, window_poke hpoke⟩
    have hnil : writeAt (poke buf beg w) 0 [] = some (poke buf beg w) := by
      rw [writeAt_eq (by simp)]
      simp [poke]
    simp [fillSegs, List.take_of_length_le h2, List.drop_of_length_le h2, writeAt_eq hpoke, hnil]
  · -- up to the end of the block, and on at its beginning
    have hfst : (w.take (buf.length - beg)).length = buf.length - beg := by
      rw [List.length_take]
      omega
    have hsnd : (w.drop (buf.length - beg)).length = w.length - (buf.length - beg) := List.length_drop
    have hpoke : beg + (w.take (buf.length - beg)).length ≤ buf.length := by omega
    have hpoke' : 0 + (w.drop (buf.length - beg)).length ≤
        (poke buf beg (w.take (buf.length - beg))).length := by
      rw [length_poke hpoke]
      omega
    have htake : (w.drop (buf.length - beg)).take (n - (buf.length - beg)) =
        w.drop (buf.length - beg) := List.take_of_length_le (by omega)
    have hwin := window_poke_wrap
      (show beg + (w.take (buf.length - beg)).length = buf.length by omega)
      (show _ + (w.drop (buf.length - beg)).length ≤ buf.length by omega)
    refine ⟨poke (poke buf beg (w.take (buf.length - beg))) 0 (w.drop (buf.length - beg)), ?_,
      by rw [length_poke hpoke', length_poke hpoke], ?_⟩
    · simp [fillSegs, writeAt_eq hpoke, htake, writeAt_eq hpoke']
    · rwa [List.take_append_drop, ← List.length_append, List.take_append_drop] at hwin

/-- What `readv` puts into the free pieces comes behind the data. -/
lemma fillSegs_free {c : CircBuf} (h : c.Bounds) {w : Bytes} (hw : w.length ≤ speedyCircFreeLen c) :
    ∃ buf, fillSegs c.buf (speedyCircFreeSegs c) w = some buf ∧ buf.length = c.bufLen ∧
      window buf c.dataBeg (c.dataLen + w.length) = c.data ++ w := by
  obtain ⟨hlen, hbeg, hdata⟩ := h
  unfold speedyCircFreeLen at hw
  by_cases h0 : c.bufLen = 0
  · obtain rfl := List.length_eq_zero_iff.mp (show w.length = 0 by omega)
    exact ⟨c.buf, by simp [speedyCircFreeSegs, h0, fillSegs], hlen, by simp [CircBuf.data]⟩
  have hmod : (c.dataBeg + c.dataLen) % c.bufLen = wrap c.bufLen (c.dataBeg + c.dataLen) :=
    mod_eq_wrap (by omega)
  have hback : wrap c.bufLen (wrap c.bufLen (c.dataBeg + c.dataLen) + (c.bufLen - c.dataLen)) =
      c.dataBeg := by
    unfold wrap
    split_ifs <;> omega
  have hp : wrap c.bufLen (c.dataBeg + c.dataLen) < c.bufLen := wrap_lt (by omega)
  rw [← hlen] at hp
  obtain ⟨buf, hfill, hblen, hwin⟩ := fillSegs_getSegs hp (Nat.sub_le _ c.dataLen) (hlen ▸ hw)
  rw [hlen] at hfill hblen hwin hp
  refine ⟨buf, by rw [speedyCircFreeSegs, if_neg h0, hmod]; exact hfill, hblen, ?_⟩
  -- from the first free position on, what is written comes first, and the data last
  have hold : window buf c.dataBeg c.dataLen = c.data := by
    have hd := congrArg (List.drop (c.bufLen - c.dataLen)) hwin
    have hsplit : c.bufLen - (c.bufLen - c.dataLen) = c.dataLen := by omega
    rw [drop_window (by omega) (by omega) (by omega), List.drop_append, List.drop_of_length_le hw,
      List.drop_drop, List.nil_append, Nat.add_sub_cancel' hw, drop_window (by omega) (by omega) (by omega),
      hblen, hlen, hback, hsplit] at hd
    exact hd
  have hnew : window buf (wrap c.bufLen (c.dataBeg + c.dataLen)) w.length = w := by
    have ht := congrArg (List.take w.length) hwin
    rwa [take_window (by omega) (by omega) (by omega), List.take_left' rfl] at ht
  rw [window_add (by omega) (by omega), hblen, hold, hnew]

/-! ### A larger block -/

lemma length_speedyRenew (junk : ℕ → UInt8) {buf : Bytes} {n : ℕ} (hn : buf.length ≤ n) :
    (speedyRenew junk buf n).length = n := by
  simp [speedyRenew]
  omega

lemma get_speedyRenew (junk : ℕ → UInt8) {buf : Bytes} {n i : ℕ} (hi : i < buf.length) (hn : i < n) :
    get (speedyRenew junk buf n) i = get buf i := by
  rw [speedyRenew, get_append, if_pos (by rw [List.length_take]; omega), get_take hn]

lemma memmove_eq {buf : Bytes} {dest src len : ℕ} (hsrc : src + len ≤ buf.length)
    (hdest : dest + len ≤ buf.length) :
    memmove buf dest src len = some (poke buf dest ((buf.drop src).take len)) := by
  have hlen : ((buf.drop src).take len).length = len := by simp; omega
  rw [memmove, if_pos hsrc, writeAt_eq (by rw [hlen]; exact hdest)]

lemma memcpy_eq {buf : Bytes} {dest src len : ℕ} (hsrc : src + len ≤ dest)
    (hdest : dest + len ≤ buf.length) :
    memcpy buf dest src len = some (poke buf dest ((buf.drop src).take len)) := by
  rw [memcpy, if_pos (.inr hsrc), memmove_eq (by omega) hdest]

/-- Data that wraps is moved so that it wraps around the new end, if at all. -/
lemma speedyCircRealloc_grown {c : CircBuf} (h : c.Bounds) {n : ℕ} (hn : c.bufLen < n) {b : Bytes}
    (hblen : b.length = n) (hold : ∀ i < c.buf.length, get b i = get c.buf i) :
    ∃ c', speedyCircRealloc c b n = some c' ∧ c'.Bounds ∧ c'.bufLen = n ∧ c'.dataLen = c.dataLen ∧
      c'.data = c.data ∧ (c.dataLen = 0 → c'.dataBeg = c.dataBeg) := by
  obtain ⟨hlen, hbeg, hdata⟩ := h
  -- the end of a run of the function, once the bytes are where they should be
  have hdone : ∀ (b' : Bytes) (beg : ℕ), b'.length = n → beg < n ∨ beg = 0 →
      (c.dataLen = 0 → beg = c.dataBeg) → window b' beg c.dataLen = c.data →
      ∃ c', some (⟨b', n, beg, c.dataLen⟩ : CircBuf) = some c' ∧ c'.Bounds ∧ c'.bufLen = n ∧
        c'.dataLen = c.dataLen ∧ c'.data = c.data ∧ (c.dataLen = 0 → c'.dataBeg = c.dataBeg) :=
    fun b' beg hb hbeg he hw =>
      ⟨_, rfl, ⟨hb, hbeg, Nat.le_of_lt (Nat.lt_of_le_of_lt hdata hn)⟩, rfl, rfl, hw, he⟩
  by_cases hwrap : c.dataLen ≤ c.bufLen - c.dataBeg
  · have hsegs : speedyCircDataSegs { c with buf := b } = [] ∨
        ∃ d, speedyCircDataSegs { c with buf := b } = [d] := by
      simp only [speedyCircDataSegs, getSegs, if_pos hwrap]
      split
      · exact .inl rfl
      · exact .inr ⟨_, rfl⟩
    have hw : window b c.dataBeg c.dataLen = window c.buf c.dataBeg c.dataLen :=
      window_grown hold (by omega) (by omega)
    rcases hsegs with hs | ⟨d, hs⟩
    · simp only [speedyCircRealloc, hs]
      exact hdone b c.dataBeg hblen (by omega) (fun _ => rfl) hw
    · simp only [speedyCircRealloc, hs]
      exact hdone b c.dataBeg hblen (by omega) (fun _ => rfl) hw
  -- the data wraps: its beginning is at the end of the block
  have hsegs : speedyCircDataSegs { c with buf := b } =
      [⟨c.dataBeg, c.bufLen - c.dataBeg⟩, ⟨0, c.dataLen - (c.bufLen - c.dataBeg)⟩] := by
    simp only [speedyCircDataSegs, getSegs, if_neg hwrap]
    rw [if_neg (by omega)]
  have hk : c.dataBeg + (c.bufLen - c.dataBeg) = c.buf.length := by omega
  simp only [speedyCircRealloc, hsegs, if_pos hn]
  by_cases hle : c.bufLen - c.dataBeg ≤ c.dataLen - (c.bufLen - c.dataBeg)
  · have hw := window_moveFront hold (by omega) hk (by omega) (show _ < c.dataLen by omega)
    rw [hblen] at hw
    rw [if_pos hle, memmove_eq (by omega) (by omega)]
    exact hdone _ (n - (c.bufLen - c.dataBeg))
      (by rw [length_poke_piece (by omega) (by omega), hblen]) (by omega) (by omega) hw
  rw [if_neg hle]
  by_cases hfits : c.dataLen - (c.bufLen - c.dataBeg) ≤ n - c.bufLen
  · have hw := window_moveRest hold hk (by omega) (show _ < c.dataLen by omega) (by omega)
    rw [hlen] at hw
    have hfr : getSegs n c.bufLen (c.dataLen - (c.bufLen - c.dataBeg)) =
        [⟨c.bufLen, c.dataLen - (c.bufLen - c.dataBeg)⟩] := by
      simp only [getSegs, if_pos hfits]
      rw [if_neg (by omega)]
    simp only [hfr]
    rw [memcpy_eq (by omega) (by omega)]
    exact hdone _ c.dataBeg (by rw [length_poke_piece (by omega) (by omega), hblen]) (by omega)
      (fun _ => rfl) hw
  · have hw := window_moveRest_wrap hold (by omega) hk (show c.dataLen ≤ _ by omega) (by omega) rfl
    rw [hlen, hblen] at hw
    have hfr : getSegs n c.bufLen (c.dataLen - (c.bufLen - c.dataBeg)) =
        [⟨c.bufLen, n - c.bufLen⟩,
          ⟨0, c.dataLen - (c.bufLen - c.dataBeg) - (n - c.bufLen)⟩] := by
      simp only [getSegs, if_neg hfits]
      rw [if_neg (by omega)]
    have hlen' : (poke b c.bufLen ((b.drop 0).take (n - c.bufLen))).length = n := by
      rw [length_poke_piece (by omega) (by omega), hblen]
    simp only [hfr]
    rw [memcpy_eq (by omega) (by omega)]
    simp only [Option.bind_eq_bind, Option.bind_some, Nat.zero_add]
    rw [memmove_eq (by omega) (by omega)]
    exact hdone _ c.dataBeg (by rw [length_poke_piece (by omega) (by omega), hlen']) (by omega)
      (fun _ => rfl) hw

lemma speedyCircRealloc_data {c : CircBuf} (h : c.Wf) {n : ℕ} (hn : c.bufLen < n)
    (junk : ℕ → UInt8) :
    ∃ c', speedyCircRealloc c (speedyRenew junk c.buf n) n = some c' ∧ c'.Wf ∧ c'.bufLen = n ∧
      c'.dataLen = c.dataLen ∧ c'.data = c.data := by
  have hlen := h.len
  obtain ⟨c', hc', hb, hn', hdlen, hdata, hbeg⟩ := speedyCircRealloc_grown h.bounds hn
    (length_speedyRenew junk (by omega)) fun i hi => get_speedyRenew junk hi (by omega)
  refine ⟨c', hc', ⟨hb.len, hb.beg, hb.data, fun h0 => ?_⟩, hn', hdlen, hdata⟩
  rw [hdlen] at h0
  rw [hbeg h0, h.empty h0]

/-! ### A queue of bytes -/

/-- The contents of a buffer: its data segments, one behind the other. -/
def circContents (c : CircBuf) : Bytes := gatherSegs c.buf (speedyCircDataSegs c)

/-- The positions of the bytes in segments. -/
def places (segs : List IoVec) : List ℕ := segs.flatMap fun s => List.range' s.iovBase s.iovLen

lemma count_places_getSegs {bufLen beg len : ℕ} (hbeg : beg < bufLen ∨ beg = 0) (hlen : len ≤ bufLen)
    (i : ℕ) : (places (getSegs bufLen beg len)).count i =
      if beg ≤ i ∧ i < bufLen ∧ i < beg + len ∨ i + bufLen < beg + len then 1 else 0 := by
  unfold getSegs places
  split
  · rw [if_neg (by omega)]
    simp
  · dsimp only
    split
    · simp only [List.flatMap_cons, List.flatMap_nil, List.append_nil, List.count_range_1']
      split_ifs <;> omega
    · simp only [List.flatMap_cons, List.flatMap_nil, List.append_nil, List.count_append,
        List.count_range_1']
      split_ifs <;> omega

/-- The segments of the data and the free ones are all of the block, and share nothing. -/
lemma places_perm {c : CircBuf} (h : c.Bounds) :
    (places (speedyCircDataSegs c) ++ places (speedyCircFreeSegs c)).Perm (List.range c.bufLen) := by
  obtain ⟨-, hbeg, hdata⟩ := h
  refine List.perm_iff_count.mpr fun i => ?_
  rw [List.count_append, speedyCircDataSegs, count_places_getSegs hbeg hdata, List.range_eq_range',
    List.count_range_1']
  by_cases h0 : c.bufLen = 0
  · simp [speedyCircFreeSegs, h0, places]
    omega
  have hmod : (c.dataBeg + c.dataLen) % c.bufLen = wrap c.bufLen (c.dataBeg + c.dataLen) :=
    mod_eq_wrap (by omega)
  have hfree : wrap c.bufLen (c.dataBeg + c.dataLen) < c.bufLen := wrap_lt (by omega)
  rw [speedyCircFreeSegs, if_neg h0, hmod, count_places_getSegs (.inl hfree) (Nat.sub_le ..)]
  unfold wrap
  split_ifs <;> omega

/-- A circular buffer is a queue of bytes, and stays the same queue in a larger block. -/
theorem circ_queue {c : CircBuf} (h : c.Bounds) :
    (places (speedyCircDataSegs c) ++ places (speedyCircFreeSegs c)).Perm (List.range c.bufLen) ∧
    (∀ w, w.length ≤ speedyCircFreeLen c → ∃ buf, fillSegs c.buf (speedyCircFreeSegs c) w = some buf ∧
      (speedyCircAdjLen { c with buf } w.length).Bounds ∧
      circContents (speedyCircAdjLen { c with buf } w.length) = circContents c ++ w) ∧
    (∀ k, 0 < k → k ≤ c.dataLen → (speedyCircAdjLen c (-k)).Bounds ∧
      circContents (speedyCircAdjLen c (-k)) = (circContents c).drop k) ∧
    ∀ b, c.bufLen < b.length → b.take c.bufLen = c.buf → ∃ c', speedyCircRealloc c b b.length = some c' ∧
      c'.Bounds ∧ c'.buf.length = b.length ∧ circContents c' = circContents c := by
  refine ⟨places_perm h, fun w hw => ?_, fun k hk hle => ?_, fun b hn hb => ?_⟩
  · obtain ⟨buf, hfill, hlen, hwin⟩ := fillSegs_free h hw
    have hle : c.dataLen + w.length ≤ c.bufLen := by
      have := h.data
      unfold speedyCircFreeLen at hw
      omega
    have hbounds : (speedyCircAdjLen { c with buf } w.length).Bounds := by
      rw [adjLen_add]
      exact ⟨hlen, h.beg, hle⟩
    refine ⟨buf, hfill, hbounds, ?_⟩
    rw [circContents, circContents, gatherSegs_data hbounds, gatherSegs_data h, adjLen_add]
    exact hwin
  · obtain ⟨hwf, hdata⟩ := adjLen_sub_data h hk hle
    refine ⟨hwf.bounds, ?_⟩
    rw [circContents, circContents, gatherSegs_data hwf.bounds, gatherSegs_data h, hdata]
  · obtain ⟨c', hc', hbounds, hlen, -, hdata, -⟩ := speedyCircRealloc_grown h hn rfl fun i hi => by
      rw [← hb, get_take (by rwa [← h.len])]
    refine ⟨c', hc', hbounds, hbounds.len.trans hlen, ?_⟩
    rw [circContents, circContents, gatherSegs_data hbounds, gatherSegs_data h, hdata]

end SpeedyCgi.Copy
