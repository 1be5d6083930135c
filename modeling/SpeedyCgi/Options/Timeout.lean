import SpeedyCgi.Options.Settings

/-!
How long an idle backend waits: `backend_accept`, `speedy_ipc_accept`, `speedy_poll_quickwait` and
`poll_wait` in its two versions.

Times are in milliseconds from the start of the wait. `arrives` is when a connection is there, and
no signal comes. What `poll` and `select` do with a wait is that of their manual pages.
-/

namespace SpeedyCgi.Options

open Lib.CString

/-- The product of two `int`s; an overflow wraps around. -/
def intMul (a b : Int) : Int := (BitVec.ofInt 32 (a * b)).toInt

inductive Poller
  | poll
  | select
deriving DecidableEq

structure Timeval where
  sec : Int
  usec : Int

inductive Wait
  | forever
  | upTo (ms : ℕ)
  /-- the call fails at once with `EINVAL` -/
  | invalid
deriving DecidableEq

def poll (msecs : Int) : Wait := if msecs < 0 then .forever else .upTo msecs.toNat

def select : Option Timeval → Wait
  | none => .forever
  | some tv =>
    if tv.sec < 0 ∨ tv.usec < 0 then .invalid else .upTo (tv.sec * 1000 + tv.usec / 1000).toNat

def pollWait (msecs : Int) : Poller → Wait
  | .poll => poll msecs
  | .select => select (if msecs = -1 then none
      else some ⟨msecs.tdiv 1000, intMul (msecs.tmod 1000) 1000⟩)

/-- What the call returns, and when; none if it does not return. -/
def Wait.returns (arrives : Option ℕ) : Wait → Option (Int × ℕ)
  | .forever => arrives.map fun x => (1, x)
  | .upTo ms => match arrives with
    | some x => if x ≤ ms then some (1, x) else some (0, ms)
    | none => some (0, ms)
  | .invalid => some (-1, 0)

/-- What `speedy_ipc_accept` returns, and when it has begun to accept or has given up. -/
def speedyIpcAccept (p : Poller) (wakeup : Int) (arrives : Option ℕ) : Option (Bool × ℕ) :=
  ((pollWait wakeup p).returns arrives).map fun r => (decide (r.1 > 0), r.2)

inductive Accept
  | connected (after : ℕ)
  | allDone (after : ℕ)
deriving DecidableEq

def optvalTimeout (t : OptTable) : Int :=
  match t.val .timeout with
  | .int n => n
  | .str _ => 0

/-- The argument of `speedy_ipc_accept`. -/
def acceptWakeup (t : OptTable) : Int := intMul (optvalTimeout t) 1000

def backendAccept (p : Poller) (t : OptTable) (arrives : Option ℕ) : Option Accept :=
  (speedyIpcAccept p (acceptWakeup t) arrives).map fun r =>
    if r.1 = true then .connected r.2 else .allDone r.2

/-- `Timeout` is a number of seconds, zero is no timeout, and no backend leaves earlier. -/
def Documented (p : Poller) (t : OptTable) : Prop :=
  acceptWakeup t = (if optvalTimeout t = 0 then -1 else optvalTimeout t * 1000) ∧
    ∀ arrives x, backendAccept p t arrives = some (.allDone x) →
      optvalTimeout t ≠ 0 ∧ optvalTimeout t * 1000 ≤ x

lemma intMul_eq {a b : Int} (h0 : 0 ≤ a * b) (h : a * b < 2 ^ 31) : intMul a b = a * b := by
  simp only [intMul, BitVec.toInt_ofInt]
  exact Int.bmod_eq_of_le (by omega) (by omega)

lemma intMul_lt (a b : Int) : intMul a b < 2 ^ 31 := BitVec.toInt_lt

/-- Both versions wait as long, unless it is forever. -/
lemma pollWait_upTo {msecs : Int} (h : 0 ≤ msecs) (p : Poller) :
    pollWait msecs p = .upTo msecs.toNat := by
  cases p with
  | poll => simp only [pollWait, poll, if_neg (Int.not_lt.mpr h)]
  | select =>
    have hmod : 0 ≤ msecs % 1000 ∧ msecs % 1000 < 1000 := by omega
    have husec : intMul (msecs % 1000) 1000 = msecs % 1000 * 1000 := intMul_eq (by omega) (by omega)
    simp only [pollWait, select, if_neg (show msecs ≠ -1 by omega), Int.tdiv_eq_ediv_of_nonneg h,
      Int.tmod_eq_emod_of_nonneg h, husec]
    rw [if_neg (by omega)]
    congr 2
    omega

lemma Wait.not_ready {arrives : Option ℕ} {ms : ℕ} {r : Int × ℕ}
    (h : (Wait.upTo ms).returns arrives = some r) (hr : ¬ r.1 > 0) : r.2 = ms := by
  simp only [returns] at h
  split at h
  · split at h <;> obtain rfl := Option.some.inj h
    · exact absurd Int.one_pos hr
    · rfl
  · obtain rfl := Option.some.inj h
    rfl

lemma backendAccept_allDone {p : Poller} {t : OptTable} {arrives : Option ℕ} {x : ℕ}
    (h0 : 0 ≤ acceptWakeup t) (h : backendAccept p t arrives = some (.allDone x)) :
    x = (acceptWakeup t).toNat := by
  simp only [backendAccept, speedyIpcAccept, pollWait_upTo h0, Option.map_map,
    Option.map_eq_some_iff, Function.comp_apply] at h
  obtain ⟨r, hr, hx⟩ := h
  split at hx
  · cases hx
  · rename_i hready
    obtain rfl := (Accept.allDone.inj hx).symm
    exact Wait.not_ready hr (by simpa using hready)

lemma optvalTimeout_set {t : OptTable} {value : CStr} {n : Int}
    (h : optSetVal .timeout (t.val .timeout) value = some (.int n)) :
    optvalTimeout (speedyOptSet t .timeout value) = n := by
  simp [optvalTimeout, speedyOptSet_val, h]

lemma whole_of_set {old : OptVal} {value : CStr} {n : Int}
    (h : optSetVal .timeout old value = some (.int n)) : 0 ≤ n ∧ n < 2 ^ 31 := by
  obtain ⟨m, hm, h0, h1⟩ := optSetVal_valid h
  obtain rfl := OptVal.int.inj hm
  exact ⟨h0, h1⟩

/-- The timeout is what it is documented to be for numbers whose product with 1000 is an `int`,
zero excepted: an idle backend with `Timeout` zero leaves at once. -/
theorem documented_iff (p : Poller) (t : OptTable) (value : CStr) (n : Int)
    (h : optSetVal .timeout (t.val .timeout) value = some (.int n)) :
    Documented p (speedyOptSet t .timeout value) ↔ 0 < n ∧ n ≤ 2147483 := by
  have hn := optvalTimeout_set h
  obtain ⟨h0, h1⟩ := whole_of_set h
  simp only [Documented, acceptWakeup, hn]
  constructor
  · rintro ⟨hwake, -⟩
    have hlt := intMul_lt n 1000
    have hne : n ≠ 0 := by
      rintro rfl
      simp [intMul] at hwake
    rw [if_neg hne] at hwake
    omega
  · rintro ⟨hpos, hle⟩
    have hmul := intMul_eq (a := n) (b := 1000) (by omega) (by omega)
    refine ⟨by rw [hmul, if_neg (by omega)], fun arrives x hx => ⟨by omega, ?_⟩⟩
    have hx' := backendAccept_allDone (by rw [acceptWakeup, hn, hmul]; omega) hx
    rw [acceptWakeup, hn, hmul] at hx'
    omega

theorem documented_hour : Documented .select
    (speedyOptSet (.default []) .timeout (str "3600")) :=
  (documented_iff .select (.default []) (str "3600") 3600 (by decide +kernel)).mpr (by decide)

/-- Without a timeout a backend for which nobody is there leaves at once. -/
theorem not_documented_zero :
    optSetVal .timeout ((OptTable.default []).val .timeout) (str "0") = some (.int 0) ∧
      backendAccept .poll (speedyOptSet (.default []) .timeout (str "0")) none = some (.allDone 0) ∧
      ¬ Documented .poll (speedyOptSet (.default []) .timeout (str "0")) := by
  have hrun : backendAccept .poll (speedyOptSet (.default []) .timeout (str "0")) none =
      some (.allDone 0) := by decide +kernel
  refine ⟨by decide +kernel, hrun, fun h => (h.2 none 0 hrun).1 (by decide +kernel)⟩

end SpeedyCgi.Options
