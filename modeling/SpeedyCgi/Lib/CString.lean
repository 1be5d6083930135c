import Mathlib.Algebra.Order.Ring.Int
import Mathlib.Data.List.Basic
import Mathlib.Data.List.TakeWhile
import Mathlib.Tactic.Common

/-!
Strings of C: bytes of which none is zero, and what the C library does with them.

`isspace` and `toupper` are those of the C locale. `atoi` is `strtol` (which saturates at the
bounds of a `long`) cut down to an `int`.
-/

namespace SpeedyCgi.Lib.CString

abbrev CChar := {c : UInt8 // c ≠ 0}

abbrev CStr := List CChar

def bytes (s : CStr) : List UInt8 := s.map Subtype.val

@[simp] lemma bytes_nil : bytes [] = [] := rfl
@[simp] lemma length_bytes (s : CStr) : (bytes s).length = s.length := List.length_map _
@[simp] lemma bytes_eq_nil {s : CStr} : bytes s = [] ↔ s = [] := List.map_eq_nil_iff

lemma bytes_injective : Function.Injective bytes :=
  List.map_injective_iff.mpr Subtype.val_injective

/-- The code of a character, for the characters that have one. -/
def ch (c : Char) : CChar :=
  if h : UInt8.ofNat c.toNat ≠ 0 then ⟨UInt8.ofNat c.toNat, h⟩ else ⟨1, by decide⟩

def str (s : String) : CStr := s.toList.map ch

def isspace (c : CChar) : Bool := c.val = 32 || (9 ≤ c.val && c.val ≤ 13)

def isdigit (c : CChar) : Bool := 48 ≤ c.val && c.val ≤ 57

def toupper (c : CChar) : CChar :=
  if h : 97 ≤ c.val.toNat ∧ c.val.toNat ≤ 122 then ⟨UInt8.ofNat (c.val.toNat - 32), by
    intro h0
    have := congrArg UInt8.toNat h0
    simp at this
    omega⟩
  else c

def digitsValue (s : CStr) (init : ℕ) : ℕ := s.foldl (fun v c => 10 * v + (c.val.toNat - 48)) init

def strtol (s : CStr) : Int :=
  let s := s.dropWhile isspace
  let v : CStr → Int := fun s => digitsValue (s.takeWhile isdigit) 0
  let n := match s with
    | c :: t => if c = ch '-' then - v t else if c = ch '+' then v t else v s
    | [] => 0
  max (- 2 ^ 63) (min (2 ^ 63 - 1) n)

def atoi (s : CStr) : Int := (BitVec.ofInt 32 (strtol s)).toInt

/-- What `"%u"` prints for an `int`. -/
def showUnsigned (v : Int) : CStr := (Nat.toDigits 10 (BitVec.ofInt 32 v).toNat).map ch

lemma atoi_lt (s : CStr) : atoi s < 2 ^ 31 := BitVec.toInt_lt

lemma ch_digit {c : Char} (h : c.isDigit) : (ch c).val.toNat = c.toNat ∧ isdigit (ch c) := by
  have hc : 48 ≤ c.toNat ∧ c.toNat ≤ 57 := by
    simp only [Char.isDigit, Bool.and_eq_true, decide_eq_true_eq, ge_iff_le,
      UInt32.le_iff_toNat_le] at h
    exact h
  have hn : (UInt8.ofNat c.toNat).toNat = c.toNat := by
    rw [UInt8.toNat_ofNat']
    omega
  have h0 : UInt8.ofNat c.toNat ≠ 0 := by
    intro h0
    rw [h0] at hn
    simp at hn
    omega
  have hv : (ch c).val = UInt8.ofNat c.toNat := by simp only [ch, dif_pos h0]
  refine ⟨by rw [hv, hn], ?_⟩
  simp only [isdigit, hv, Bool.and_eq_true, decide_eq_true_eq, UInt8.le_iff_toNat_le, hn]
  exact hc

lemma isspace_of_isdigit {c : CChar} (h : isdigit c) : isspace c = false := by
  simp only [isdigit, Bool.and_eq_true, decide_eq_true_eq, UInt8.le_iff_toNat_le] at h
  simp only [isspace, Bool.or_eq_false_iff, decide_eq_false_iff_not, Bool.and_eq_false_iff,
    UInt8.le_iff_toNat_le, ← UInt8.toNat_inj]
  simp only [UInt8.reduceToNat] at h ⊢
  omega

lemma isdigit_showUnsigned {v : Int} {c : CChar} (hc : c ∈ showUnsigned v) : isdigit c := by
  obtain ⟨d, hd, rfl⟩ := List.mem_map.mp hc
  exact (ch_digit (Nat.isDigit_of_mem_toDigits (by decide) (by decide) hd)).2

lemma digitsValue_map {l : List Char} (hl : ∀ c ∈ l, c.isDigit) (init : ℕ) :
    digitsValue (l.map ch) init = Nat.ofDigitChars 10 l init := by
  induction l generalizing init with
  | nil => simp [digitsValue]
  | cons c l ih =>
    have hc := (ch_digit (hl c List.mem_cons_self)).1
    have := ih (fun d hd => hl d (List.mem_cons_of_mem _ hd)) (10 * init + (c.toNat - 48))
    rw [Nat.ofDigitChars_cons]
    simpa [digitsValue, hc] using this

/-- `atoi` reads back what `"%u"` prints. -/
theorem atoi_showUnsigned {v : Int} (h0 : 0 ≤ v) (h1 : v < 2 ^ 31) : atoi (showUnsigned v) = v := by
  obtain ⟨n, rfl⟩ := Int.eq_ofNat_of_zero_le h0
  have hn : (BitVec.ofInt 32 (n : Int)).toNat = n := by
    simp only [BitVec.toNat_ofInt]
    omega
  have hall : ∀ c ∈ showUnsigned n, isdigit c = true := fun c hc => isdigit_showUnsigned hc
  have hval : digitsValue (showUnsigned n) 0 = n := by
    rw [showUnsigned, hn, digitsValue_map fun c hc =>
      Nat.isDigit_of_mem_toDigits (by decide) (by decide) hc]
    exact Nat.ofDigitChars_ten_toDigits
  have hdrop : (showUnsigned n).dropWhile isspace = showUnsigned n := by
    refine List.dropWhile_eq_self_iff.mpr fun hlen => ?_
    rw [isspace_of_isdigit (hall _ (List.getElem_mem hlen))]
    simp
  have htake : (showUnsigned n).takeWhile isdigit = showUnsigned n :=
    List.takeWhile_eq_self_iff.mpr hall
  have hl : strtol (showUnsigned n) = n := by
    unfold strtol
    simp only [hdrop]
    cases hs : showUnsigned n with
    | nil =>
      rw [hs] at hval
      obtain rfl : (0 : ℕ) = n := hval
      rfl
    | cons c t =>
      have hc : isdigit c := hall c (by simp [hs])
      have hm : c ≠ ch '-' := by rintro rfl; revert hc; decide
      have hp : c ≠ ch '+' := by rintro rfl; revert hc; decide
      simp only [if_neg hm, if_neg hp, ← hs, htake, hval]
      omega
  rw [atoi, hl]
  simp only [BitVec.toInt_ofInt]
  exact Int.bmod_eq_of_le (by omega) (by omega)

end SpeedyCgi.Lib.CString
