import SpeedyCgi.Cwd.Onerun
import Mathlib.Data.Nat.Digits.Defs

/-!
The string that stands for a device and an inode.

The digits of a number come in reverse and stop where the rest is zero; the rest of a negative number
never is, so that the counter stops it after sixteen digits. Either way the digits that are written
are those of the 64 bits without a sign, and they can be read back. An underscore is not a digit, so
the two numbers cannot run into each other.
-/

namespace SpeedyCgi.Cwd

open Function Lib.CString Lib.Wp Lib.Lts

/-- `HEX_STR_SIZE` of a `long long`. -/
def hexStrSize : ℕ := 16

/-- `DEVINO_STR_SIZE` -/
def devinoStrSize : ℕ := hexStrSize + hexStrSize + 2

/-- `str[bp] = c`, if `bp` is in the array. -/
def put (str : List UInt8) (bp : ℕ) (c : UInt8) : Option (List UInt8) :=
  if bp < str.length then some (str.set bp c) else none

/-- The variables of `HEX_CVT` and the array that it writes to. -/
structure HexCvt where
  str : List UInt8
  bp : ℕ
  i : BitVec 64
  cnt : ℤ

/-- The body of the loop, and whether the loop goes on. -/
def hexPass (s : HexCvt) : Option (HexCvt × Bool) := do
  let str ← put s.str s.bp (nibToHex (s.i &&& 15).toNat).val
  let s := { s with str := str, bp := s.bp + 1, i := s.i.sshiftRight 4 }
  if s.i = 0 then pure (s, false)
  else pure ({ s with cnt := s.cnt - 1 }, decide (s.cnt - 1 ≠ 0))

/-- The loop, for at most `fuel` passes. -/
def hexLoop : ℕ → HexCvt → Option HexCvt
  | 0, _ => none
  | fuel + 1, s =>
    match hexPass s with
    | some (s, true) => hexLoop fuel s
    | some (s, false) => some s
    | none => none

/-- `devino_str`, writing to `str`; none if a loop goes on after `fuel` passes, or if something is
written where the array has ended. -/
def devinoStrTo (fuel : ℕ) (devino : DevIno) (str : List UInt8) : Option (List UInt8 × ℕ) := do
  let s ← hexLoop fuel ⟨str, 0, devino.i, hexStrSize⟩
  let str ← put s.str s.bp (ch '_').val
  let s ← hexLoop fuel ⟨str, s.bp + 1, devino.d, hexStrSize⟩
  let str ← put s.str s.bp 0
  pure (str, s.bp)

/-- The string in an array. -/
def cstring (str : List UInt8) : List UInt8 := str.takeWhile (· ≠ 0)

/-- `SPEEDY_PKG("_%s")` of the string. -/
def package (devino : DevIno) : CStr := str "CGI::SpeedyCGI::_" ++ devinoStr devino

/-! ### The digits -/

/-- The digit that a character is. -/
def hexValue (c : CChar) : ℕ := (str "0123456789abcdef").idxOf c

lemma hexValue_nibToHex : ∀ n < 16, hexValue (nibToHex n) = n := by decide

lemma nibToHex_ne_underscore : ∀ n < 16, nibToHex n ≠ ch '_' := by decide

lemma toNat_nibble (i : BitVec 64) : (i &&& 15).toNat = i.toNat % 16 := by
  rw [BitVec.toNat_and]
  exact Nat.and_two_pow_sub_one_eq_mod i.toNat 4

/-- As long as the sign has not come down, the shift is a division. -/
lemma toNat_sshiftRight_mod (i : BitVec 64) {cnt : ℕ} (hcnt : cnt ≤ 15) :
    (i.sshiftRight 4).toNat % 16 ^ cnt = i.toNat / 16 % 16 ^ cnt := by
  rw [show 16 ^ cnt = 2 ^ (4 * cnt) from (pow_mul 2 4 cnt).symm,
    show i.toNat / 16 = i.toNat / 2 ^ 4 from rfl]
  refine Nat.eq_of_testBit_eq fun k => ?_
  rw [Nat.testBit_mod_two_pow, Nat.testBit_mod_two_pow]
  by_cases hk : k < 4 * cnt
  · have hbit : (i.sshiftRight 4).getLsbD k = i.getLsbD (4 + k) := by
      rw [BitVec.getLsbD_sshiftRight, if_pos (by omega)]
      have : ¬ 64 ≤ k := by omega
      simp [this]
    rw [Nat.testBit_div_two_pow, Nat.add_comm k 4, ← BitVec.getLsbD, hbit, BitVec.getLsbD]
  · simp [hk]

lemma length_hexCvt_le (cnt : ℕ) (i : BitVec 64) : (hexCvt cnt i).length ≤ cnt := by
  induction cnt generalizing i with
  | zero => exact Nat.le_refl 0
  | succ cnt ih =>
    have := ih (i.sshiftRight 4)
    rw [hexCvt, List.length_cons]
    split
    · simp
    · omega

/-- The digits that are written are the digits of the number, read without a sign. -/
lemma ofDigits_hexCvt {cnt : ℕ} (hcnt : cnt ≤ 16) (i : BitVec 64) :
    Nat.ofDigits 16 ((hexCvt cnt i).map hexValue) = i.toNat % 16 ^ cnt := by
  induction cnt generalizing i with
  | zero => simp [hexCvt, Nat.mod_one]
  | succ cnt ih =>
    have hdigit : hexValue (nibToHex (i &&& 15).toNat) = i.toNat % 16 := by
      rw [toNat_nibble]
      exact hexValue_nibToHex _ (by omega)
    -- nothing is written of a rest that is zero
    have hrest : Nat.ofDigits 16 ((if i.sshiftRight 4 = 0 then [] else
        hexCvt cnt (i.sshiftRight 4)).map hexValue) = (i.sshiftRight 4).toNat % 16 ^ cnt := by
      split
      · rename_i h0
        simp [h0]
      · exact ih (by omega) _
    calc Nat.ofDigits 16 ((hexCvt (cnt + 1) i).map hexValue)
        = i.toNat % 16 + 16 * ((i.sshiftRight 4).toNat % 16 ^ cnt) := by
          rw [hexCvt, List.map_cons, Nat.ofDigits_cons, hdigit, hrest]
      _ = i.toNat % 16 + 16 * (i.toNat / 16 % 16 ^ cnt) := by
          rw [toNat_sshiftRight_mod i (by omega)]
      _ = i.toNat % 16 ^ (cnt + 1) := by rw [pow_succ', Nat.mod_mul]

lemma hexCvt_injective : Injective (hexCvt hexStrSize) := by
  intro i j h
  have hi := ofDigits_hexCvt (Nat.le_refl 16) i
  have hj := ofDigits_hexCvt (Nat.le_refl 16) j
  have heq : i.toNat % 16 ^ 16 = j.toNat % 16 ^ 16 := by
    rw [← hi, ← hj]
    exact congrArg (fun l => Nat.ofDigits 16 (List.map hexValue l)) h
  refine BitVec.eq_of_toNat_eq ?_
  have := i.isLt
  have := j.isLt
  omega

lemma mem_hexCvt {cnt : ℕ} {i : BitVec 64} {c : CChar} (hc : c ∈ hexCvt cnt i) : c ≠ ch '_' := by
  induction cnt generalizing i with
  | zero => exact absurd hc (by simp [hexCvt])
  | succ cnt ih =>
    rw [hexCvt, List.mem_cons] at hc
    rcases hc with rfl | hc
    · rw [toNat_nibble]
      exact nibToHex_ne_underscore _ (by omega)
    · split at hc
      · simp at hc
      · exact ih hc

lemma takeWhile_devinoStr (d : DevIno) :
    (devinoStr d).takeWhile (· ≠ ch '_') = hexCvt hexStrSize d.i := by
  unfold devinoStr
  rw [List.takeWhile_append_of_pos fun c hc => by simpa using mem_hexCvt hc]
  simp [hexStrSize]

/-- The first underscore tells where the inode ends. -/
lemma devinoStr_injective : Injective devinoStr := by
  intro d d' h
  have hi : hexCvt hexStrSize d.i = hexCvt hexStrSize d'.i := by
    rw [← takeWhile_devinoStr, ← takeWhile_devinoStr, h]
  have hd : hexCvt hexStrSize d.d = hexCvt hexStrSize d'.d := by
    unfold devinoStr at h
    rw [show hexCvt 16 d.i = hexCvt 16 d'.i from hi] at h
    exact List.cons.inj (List.append_cancel_left h) |>.2
  cases d
  cases d'
  exact congrArg₂ DevIno.mk (hexCvt_injective hi) (hexCvt_injective hd)

lemma length_devinoStr_lt (d : DevIno) : (devinoStr d).length + 1 ≤ devinoStrSize := by
  have hi := length_hexCvt_le 16 d.i
  have hd := length_hexCvt_le 16 d.d
  unfold devinoStr devinoStrSize hexStrSize
  rw [List.length_append, List.length_cons]
  omega

/-! ### The loops -/

lemma put_append (pre : List UInt8) {rest : List UInt8} (hrest : 0 < rest.length) (c : UInt8) :
    put (pre ++ rest) pre.length c = some (pre ++ [c] ++ rest.drop 1) := by
  obtain ⟨x, rest, rfl⟩ := List.exists_cons_of_length_pos hrest
  unfold put
  rw [if_pos (by simp), List.set_append_right _ _ (Nat.le_refl _), Nat.sub_self, List.set_cons_zero,
    List.append_assoc, List.singleton_append, List.drop_succ_cons, List.drop_zero]

/-- One pass, where `pre` is written already. -/
lemma hexPass_append (i : BitVec 64) (cnt : ℤ) (pre : List UInt8) {rest : List UInt8}
    (hrest : 0 < rest.length) :
    hexPass ⟨pre ++ rest, pre.length, i, cnt⟩ =
      let pre' := pre ++ bytes [nibToHex (i &&& 15).toNat]
      if i.sshiftRight 4 = 0 then
        some (⟨pre' ++ rest.drop 1, pre'.length, i.sshiftRight 4, cnt⟩, false)
      else some (⟨pre' ++ rest.drop 1, pre'.length, i.sshiftRight 4, cnt - 1⟩,
        decide (cnt - 1 ≠ 0)) := by
  unfold hexPass
  rw [put_append _ hrest]
  simp only [Option.bind_eq_bind, Option.bind_some, bytes, List.map_cons, List.map_nil,
    List.length_append, List.length_singleton]
  split <;> rfl

/-- The loop ends, after at most `cnt` passes, and writes nothing but its digits. -/
lemma hexLoop_eq {fuel cnt : ℕ} (hfuel : cnt ≤ fuel) (hcnt : 1 ≤ cnt) (i : BitVec 64)
    (pre rest : List UInt8) (hrest : cnt ≤ rest.length) :
    ∃ s, hexLoop fuel ⟨pre ++ rest, pre.length, i, cnt⟩ = some s ∧
      s.str = pre ++ bytes (hexCvt cnt i) ++ rest.drop (hexCvt cnt i).length ∧
      s.bp = (pre ++ bytes (hexCvt cnt i)).length := by
  induction fuel generalizing cnt i pre rest with
  | zero => omega
  | succ fuel ih =>
    obtain ⟨cnt, rfl⟩ : ∃ k, cnt = k + 1 := ⟨cnt - 1, by omega⟩
    have hpred : ((cnt + 1 : ℕ) : ℤ) - 1 = cnt := by omega
    rw [hexLoop, hexPass_append _ _ _ (by omega), hexCvt, hpred]
    by_cases h0 : i.sshiftRight 4 = 0
    · -- nothing is left
      simp only [if_pos h0]
      exact ⟨_, rfl, rfl, rfl⟩
    · simp only [if_neg h0]
      rcases Nat.eq_zero_or_pos cnt with rfl | hpos
      · -- the last digit of a number that is negative
        exact ⟨_, rfl, rfl, rfl⟩
      · have hgo : decide ((cnt : ℤ) ≠ 0) = true := by
          rw [decide_eq_true_eq]
          omega
        obtain ⟨s, hs, hstr, hbp⟩ := ih (by omega) hpos (i.sshiftRight 4)
          (pre ++ bytes [nibToHex (i &&& 15).toNat]) (rest.drop 1)
          (by rw [List.length_drop]; omega)
        refine ⟨s, ?_, ?_, ?_⟩
        · rw [hgo]
          exact hs
        · rw [hstr]
          simp [bytes]
        · rw [hbp]
          simp [bytes]

/-- What `devino_str` writes and returns. -/
lemma devinoStrTo_eq {fuel : ℕ} (hfuel : hexStrSize ≤ fuel) (d : DevIno) {str : List UInt8}
    (hstr : str.length = devinoStrSize) :
    devinoStrTo fuel d str = some (bytes (devinoStr d) ++ 0 :: str.drop ((devinoStr d).length + 1),
      (devinoStr d).length) := by
  have hi := length_hexCvt_le 16 d.i
  have hd := length_hexCvt_le 16 d.d
  unfold hexStrSize at hfuel
  unfold devinoStrSize hexStrSize at hstr
  obtain ⟨⟨_, _, _, _⟩, hino, rfl, rfl⟩ := hexLoop_eq hfuel (by omega) d.i [] str (by omega)
  have hmid : 16 ≤ ((str.drop (hexCvt 16 d.i).length).drop 1).length := by
    simp only [List.length_drop]
    omega
  obtain ⟨⟨_, _, _, _⟩, hdev, rfl, rfl⟩ := hexLoop_eq hfuel (by omega) d.d
    (bytes (hexCvt 16 d.i) ++ [(ch '_').val]) _ hmid
  rw [List.nil_append, List.nil_append, List.length_nil] at hino
  have hbp : (bytes (hexCvt 16 d.i) ++ [(ch '_').val]).length = (bytes (hexCvt 16 d.i)).length + 1 :=
    List.length_append
  rw [hbp] at hdev
  unfold devinoStrTo hexStrSize
  simp only [hino, Option.bind_eq_bind, Option.bind_some]
  rw [put_append _ (by rw [List.length_drop]; omega), Option.bind_some, hdev, Option.bind_some,
    put_append _ (by simp only [List.length_drop]; omega), Option.bind_some]
  simp [devinoStr, bytes, Nat.add_assoc, Nat.add_comm, Nat.add_left_comm]

lemma cstring_bytes (s : CStr) (rest : List UInt8) : cstring (bytes s ++ 0 :: rest) = bytes s := by
  unfold cstring
  rw [List.takeWhile_append_of_pos]
  · simp
  · intro c hc
    obtain ⟨c, -, rfl⟩ := List.mem_map.mp hc
    simpa using c.property

/-! ### The scripts of a backend -/

/-- No two devices and inodes have one `SpeedyScript`. -/
structure OneScr (b : Backend) : Prop where
  lt : ∀ k i, b.scrHash k = some i → i < b.scripts.length
  inj : ∀ k k' i, b.scrHash k = some i → b.scrHash k' = some i → k = k'

lemma OneScr.of_eq {b b' : Backend} (h : OneScr b) (hhash : b'.scrHash = b.scrHash)
    (hlen : b'.scripts.length = b.scripts.length) : OneScr b' := by
  constructor
  · rw [hhash, hlen]; exact h.lt
  · rw [hhash]; exact h.inj

lemma OneScr.addScr {b : Backend} (h : OneScr b) (d : DevIno) : OneScr (addScr d b) := by
  -- the number of the new one is taken by nobody
  have hnew : ∀ k, b.scrHash k ≠ some b.scripts.length := fun k hk => absurd (h.lt k _ hk) (by simp)
  constructor
  · intro k i hk
    simp only [addScr_scrHash, addScr_scripts, update_apply, List.length_append,
      List.length_singleton] at hk ⊢
    split at hk
    · obtain rfl : b.scripts.length = i := by simpa using hk
      omega
    · exact Nat.lt_succ_of_lt (h.lt k i hk)
  · intro k k' i hk hk'
    simp only [addScr_scrHash, update_apply] at hk hk'
    split at hk <;> split at hk'
    · simp [*]
    · obtain rfl : b.scripts.length = i := by simpa using hk
      exact absurd hk' (hnew k')
    · obtain rfl : b.scripts.length = i := by simpa using hk'
      exact absurd hk (hnew k)
    · exact h.inj k k' i hk hk'

section
variable {sys : Sys}

lemma keeps_findScr (d : DevIno) : Keeps OneScr (findScr d) := by
  intro b hb
  unfold findScr
  simp only [wp_bind, wp_get]
  cases b.scrHash (devinoStr d) with
  | some scr => exact hb
  | none => exact hb.addScr d

lemma keeps_setProc (p : Proc) : Keeps OneScr (modify (·.setProc p) : BeM Unit) :=
  keeps_modify fun _ hb => hb.of_eq rfl rfl

lemma keeps_readCwd (c : CwdPtr) : Keeps OneScr (readCwd c) := by
  refine keeps_bind keeps_get fun b => ?_
  cases b.cwds c with
  | some v => exact keeps_pure v
  | none => exact keeps_throw _

lemma keeps_writeCwd (c : CwdPtr) (v : SpeedyCwd) : Keeps OneScr (writeCwd c v) :=
  keeps_modify fun _ hb => hb.of_eq rfl rfl

lemma keeps_cwdRefcntDec (c : CwdPtr) : Keeps OneScr (cwdRefcntDec c) :=
  keeps_bind (keeps_readCwd c) fun _ =>
    keeps_ite (keeps_modify fun _ hb => hb.of_eq rfl rfl) (keeps_writeCwd c _)

lemma keeps_cwdNew (path : Path) : Keeps OneScr (cwdNew sys path) := by
  refine keeps_bind keeps_get fun b => keeps_bind (keeps_setProc _) fun _ => keeps_ite ?_ ?_
  · exact keeps_bind (keeps_modify fun _ hb => hb.of_eq rfl rfl) fun _ => keeps_pure _
  · exact keeps_pure none

lemma keeps_storeLastCwd (scr : ℕ) (cwd : Option CwdPtr) : Keeps OneScr (storeLastCwd scr cwd) := by
  refine keeps_bind keeps_get fun b => ?_
  cases cwd with
  | none => exact keeps_throw _
  | some c =>
    refine keeps_bind (keeps_readCwd c) fun v => keeps_bind (keeps_writeCwd c _) fun _ =>
      keeps_bind (keeps_modify fun b hb => hb.of_eq rfl (by simp)) fun _ => ?_
    cases scrLastCwd b scr with
    | none => exact keeps_pure ()
    | some prev => exact keeps_cwdRefcntDec prev

lemma keeps_quickCdTo (dest : DevIno) : Keeps OneScr (quickCdTo sys dest) :=
  keeps_bind keeps_get fun _ => keeps_bind (keeps_setProc _) fun _ => keeps_pure _

lemma keeps_chdirPathSv (path : Path) : Keeps OneScr (chdirPathSv sys path) :=
  keeps_bind keeps_get fun _ => keeps_bind (keeps_setProc _) fun _ => keeps_pure _

lemma keeps_search (scr : ℕ) (feCwd : DevIno) : Keeps OneScr (search sys scr feCwd) := by
  have hlast : Keeps OneScr (tryLast sys scr feCwd) := by
    refine keeps_bind keeps_get fun b => ?_
    cases scrLastCwd b scr with
    | none => exact keeps_pure false
    | some c =>
      exact keeps_bind (keeps_readCwd c) fun _ => keeps_ite (keeps_chdirPathSv _) (keeps_pure false)
  have hhash : Keeps OneScr (tryHash sys feCwd) := by
    refine keeps_bind keeps_get fun b => ?_
    cases b.cwdHash (devinoStr feCwd) with
    | none => exact keeps_pure _
    | some c =>
      exact keeps_bind (keeps_readCwd c) fun _ =>
        keeps_bind (keeps_chdirPathSv _) fun _ => keeps_pure _
  exact keeps_bind (keeps_quickCdTo feCwd) fun _ => keeps_ite (keeps_pure _)
    (keeps_bind hlast fun _ => keeps_ite (keeps_pure _) hhash)

lemma keeps_cdScriptDir (dir : Path) : Keeps OneScr (cdScriptDir sys dir) := by
  refine keeps_bind keeps_get fun b => ?_
  cases b.cwdHash dir with
  | none => exact keeps_cwdNew dir
  | some c =>
    exact keeps_bind (keeps_readCwd c) fun _ => keeps_bind (keeps_quickCdTo _) fun _ =>
      keeps_ite (keeps_pure _) (keeps_cwdNew dir)

lemma keeps_askPath (proto2 : Option Path) (done : Bool) (cwd : Option CwdPtr) :
    Keeps OneScr (askPath sys proto2 done cwd) := by
  refine keeps_ite (keeps_pure cwd) ?_
  cases proto2 with
  | some dir => exact keeps_cwdNew dir
  | none => exact keeps_pure cwd

lemma keeps_storeUsed (scr : ℕ) (cwd : Option CwdPtr) : Keeps OneScr (storeUsed scr cwd) := by
  cases cwd with
  | some c => exact keeps_storeLastCwd scr (some c)
  | none => exact keeps_pure ()

lemma keeps_onerunCwd (req : Request) : Keeps OneScr (onerunCwd sys req) := by
  refine keeps_bind (keeps_findScr req.feScr) fun scr => ?_
  cases req.cwdWhere with
  | inScript =>
    cases fnameDir req.scrPath with
    | none => exact keeps_pure false
    | some dir =>
      exact keeps_bind (keeps_cdScriptDir dir) fun _ =>
        keeps_bind (keeps_storeLastCwd scr _) fun _ => keeps_pure false
  | devino feCwd =>
    exact keeps_bind (keeps_search scr feCwd) fun _ => keeps_bind (keeps_askPath _ _ _) fun _ =>
      keeps_bind (keeps_storeUsed scr _) fun _ => keeps_pure _
  | unknown =>
    exact keeps_bind (keeps_askPath _ _ _) fun _ =>
      keeps_bind (keeps_storeUsed scr _) fun _ => keeps_pure true

lemma OneScr.served {cwd : DevIno} {fds : Fd → Option DevIno} {b : Backend}
    (h : Reach (serve sys) (newBackend cwd fds) b) : OneScr b := by
  have h0 : OneScr (newBackend cwd fds) := by
    constructor
    · intro k i hk
      cases hk
    · intro k k' i hk
      cases hk
  refine h.inv h0 fun b t b' _ hb _ hs => ?_
  have hwp : wp _ (onerunCwd sys t.req) _ b := keeps_onerunCwd t.req b hb
  unfold serve at hs
  split at hs
  · rename_i r b₁ hrun
    obtain rfl := Option.some.inj hs
    exact (wp_ok hwp hrun).of_eq rfl rfl
  · cases hs

lemma wp_findScr_entry (d : DevIno) (b : Backend) :
    wp (fun _ => False) (findScr d) (fun scr b' => b'.scrHash (devinoStr d) = some scr ∧
      ∀ k i, b.scrHash k = some i → b'.scrHash k = some i) b := by
  unfold findScr
  simp only [wp_bind, wp_get]
  cases hd : b.scrHash (devinoStr d) with
  | some scr => exact ⟨hd, fun _ _ hk => hk⟩
  | none =>
    refine ⟨by simp, fun k i hk => ?_⟩
    have hne : k ≠ devinoStr d := by
      rintro rfl
      rw [hd] at hk
      cases hk
    simpa [hne] using hk

/-- Two scripts that a backend finds under one number are one. -/
lemma OneScr.findScr {b b₁ b₂ : Backend} {d d' : DevIno} {scr : ℕ} (h : OneScr b)
    (hd : findScr d b = .ok (scr, b₁)) (hd' : findScr d' b₁ = .ok (scr, b₂)) : d = d' := by
  obtain ⟨hscr, -⟩ := wp_ok (wp_findScr_entry d b) hd
  obtain ⟨hscr', hkept⟩ := wp_ok (wp_findScr_entry d' b₁) hd'
  have h₂ : OneScr b₂ := wp_ok (keeps_findScr d' b₁ (wp_ok (keeps_findScr d b h) hd)) hd'
  exact devinoStr_injective (h₂.inj _ _ scr (hkept _ _ hscr) hscr')

end

/-- `devino_str` ends, stays in its buffer and returns the length of its string; of two different
devices and inodes the strings are different, and with them the scripts and the packages. -/
theorem devino_str_injective :
    (∀ (fuel : ℕ) (d : DevIno) (str : List UInt8), hexStrSize ≤ fuel →
      str.length = devinoStrSize → ∃ out len, devinoStrTo fuel d str = some (out, len) ∧
        out.length = devinoStrSize ∧ (cstring out).length = len ∧ len + 1 ≤ devinoStrSize ∧
        cstring out = bytes (devinoStr d)) ∧
    (∀ (fuel : ℕ) (d d' : DevIno) (str str' out out' : List UInt8) (len len' : ℕ),
      hexStrSize ≤ fuel → str.length = devinoStrSize → str'.length = devinoStrSize →
      devinoStrTo fuel d str = some (out, len) → devinoStrTo fuel d' str' = some (out', len') →
      cstring out = cstring out' → d = d') ∧
    (∀ (sys : Sys) (cwd : DevIno) (fds : Fd → Option DevIno) (b : Backend) (d d' : DevIno) (scr : ℕ),
      Reach (serve sys) (newBackend cwd fds) b →
      (b.scrHash (devinoStr d) = some scr → b.scrHash (devinoStr d') = some scr → d = d') ∧
      ∀ b₁ b₂, findScr d b = .ok (scr, b₁) → findScr d' b₁ = .ok (scr, b₂) → d = d') ∧
    ∀ d d' : DevIno, package d = package d' → d = d' := by
  refine ⟨fun fuel d str hfuel hstr => ?_, ?_, ?_, fun d d' h => ?_⟩
  · have hlt := length_devinoStr_lt d
    refine ⟨_, _, devinoStrTo_eq hfuel d hstr, ?_, ?_, hlt, cstring_bytes _ _⟩
    · rw [List.length_append, List.length_cons, List.length_drop, length_bytes]
      omega
    · rw [cstring_bytes, length_bytes]
  · intro fuel d d' str str' out out' len len' hfuel hstr hstr' hout hout' heq
    rw [devinoStrTo_eq hfuel d hstr] at hout
    rw [devinoStrTo_eq hfuel d' hstr'] at hout'
    obtain ⟨rfl, -⟩ := Prod.mk.inj (Option.some.inj hout)
    obtain ⟨rfl, -⟩ := Prod.mk.inj (Option.some.inj hout')
    rw [cstring_bytes, cstring_bytes] at heq
    exact devinoStr_injective (bytes_injective heq)
  · intro sys cwd fds b d d' scr hb
    have hone := OneScr.served hb
    exact ⟨fun hd hd' => devinoStr_injective (hone.inj _ _ scr hd hd'),
      fun _ _ hd hd' => hone.findScr hd hd'⟩
  · exact devinoStr_injective (List.append_cancel_left h)

/-- Device `-1` has sixteen digits, and inode `-2` too. -/
theorem devino_str_negative : ∃ out, devinoStrTo 16 ⟨-2, -1⟩ (List.replicate devinoStrSize 0) =
    some (out, 33) ∧ cstring out = bytes (str "efffffffffffffff_ffffffffffffffff") := by
  obtain ⟨out, len, hout, -, hlen, -, hstr⟩ := devino_str_injective.1 16 ⟨-2, -1⟩
    (List.replicate devinoStrSize 0) (Nat.le_refl 16) (by rw [List.length_replicate])
  have hdigits : devinoStr ⟨-2, -1⟩ = str "efffffffffffffff_ffffffffffffffff" := by decide +kernel
  rw [hdigits] at hstr
  obtain rfl : 33 = len := by
    rw [← hlen, hstr]
    decide
  exact ⟨out, hout, hstr⟩

end SpeedyCgi.Cwd
