import Interledger.Stream.Frame
import Mathlib.Algebra.Order.Floor.Div
import Mathlib.Data.BitVec
import Mathlib.Tactic.Ring
import Mathlib.Tactic.Linarith

/-!
# 64-bit arithmetic

The operations of `ilp-protocol-stream/src/util/long.ts` on unsigned `Long`s, whose own arithmetic
wraps around, and `Rational` of `util/rational.ts`, the ratio of two of them.

`checkedAdd` and `checkedSubtract` test whether the wrapped result is out of order. `multiplyDivide`
computes `⌊a·b/c⌋` without an intermediate product: it doubles the quotient and remainder of `b` by
`c` once for each bit of `a` and adds those of the bits that are set.

## Main results

* `toNat_checkedAdd`, `overflow_checkedAdd` — the sum saturates, and says when;
* `toNat_checkedSubtract` — the difference of amounts that do not underflow.
-/

namespace Interledger.Stream

namespace Long

/-- `Long.MAX_UNSIGNED_VALUE`. -/
def maxUnsignedValue : Long := BitVec.allOnes 64

/-- The double nearest to a natural number, the even one of two. Exact up to `2 ^ 53`. -/
def roundNumber (n : ℕ) : ℕ :=
  let e := n.log2 - 52
  let q := n / 2 ^ e
  let r := n % 2 ^ e
  (if 2 * r > 2 ^ e ∨ 2 * r = 2 ^ e ∧ q % 2 = 1 then q + 1 else q) * 2 ^ e

/-- `Long.toNumber`. -/
def toNumber (l : Long) : ℕ := roundNumber l.toNat

/-- `Long.fromNumber(n, true)`, which saturates. -/
def fromNumber (n : ℕ) : Long := if 2 ^ 64 ≤ n then maxUnsignedValue else BitVec.ofNat 64 n

/-- `Long.equals` of an unsigned `Long` and a number, which becomes a signed `Long` first. -/
def equalsNumber (l : Long) (n : ℕ) : Bool := l.toNat = min n (2 ^ 63 - 1)

@[simp] theorem toNat_maxUnsignedValue : maxUnsignedValue.toNat = 2 ^ 64 - 1 := rfl

end Long

open Long

/-- `minLong`. -/
def minLong (a b : Long) : Long := if a < b then a else b

/-- `maxLong`. -/
def maxLong (a b : Long) : Long := if a > b then a else b

/-- `checkedAdd`: the sum and whether it overflowed. -/
def checkedAdd (a b : Long) : Long × Bool :=
  let sum := a + b
  let overflow := sum < a || sum < b
  (if overflow then maxUnsignedValue else sum, overflow)

/-- `checkedSubtract`: the difference and whether it underflowed. -/
def checkedSubtract (a b : Long) : Long × Bool :=
  let difference := a - b
  let underflow := difference > a && difference > b
  (if underflow then 0 else difference, underflow)

/-- `checkedMultiply`: the product and whether it is seen to have overflowed. -/
def checkedMultiply (a b : Long) : Long × Bool :=
  let product := a * b
  let overflow := product < a || product < b
  (if overflow then maxUnsignedValue else product, overflow)

/-- A remainder past the divisor carries into the quotient. -/
def carry (c quo rem : Long) : Long × Long := if rem ≥ c then (quo + 1, rem - c) else (quo, rem)

/-- The `while` loop of `multiplyDivide`, of which 64 rounds exhaust every `a`. -/
def multiplyDivideLoop (c : Long) : ℕ → (a quo rem qn rn : Long) → Long × Long
  | 0, _, quo, rem, _, _ => (quo, rem)
  | rounds + 1, a, quo, rem, qn, rn =>
    if a = 0 then (quo, rem)
    else
      let oldQuo := quo
      let (quo, rem) := if a &&& 1 ≠ 0 then carry c (quo + qn) (rem + rn) else (quo, rem)
      if quo < oldQuo then (maxUnsignedValue, 0)
      else
        let (qn, rn) := carry c (qn <<< 1) (rn <<< 1)
        multiplyDivideLoop c rounds (a >>> 1) quo rem qn rn

/-- `multiplyDivide`: quotient and remainder of `a * b` by `c`. Dividing by zero throws. -/
def multiplyDivide (a b c : Long) : Option (Long × Long) :=
  if c = 0 then none else some (multiplyDivideLoop c 64 a 0 0 (b / c) (b % c))

/-- `multiplyDivideFloor`. -/
def multiplyDivideFloor (a b c : Long) : Option Long := (multiplyDivide a b c).map Prod.fst

/-- `multiplyDivideCeil`. -/
def multiplyDivideCeil (a b c : Long) : Option Long :=
  (multiplyDivide a b c).map fun (quo, rem) =>
    if quo = maxUnsignedValue then quo else quo + if rem = 0 then 0 else 1

/-- `multiplyDivideRound`. -/
def multiplyDivideRound (a b c : Long) : Option Long :=
  (multiplyDivide a b c).map fun (quo, rem) =>
    if quo = maxUnsignedValue then quo
    else
      let roundUp := rem ≠ 0 ∧ if c &&& 1 ≠ 0 then rem > c / 2 else rem ≥ c / 2
      if roundUp then quo + 1 else quo

/-- `Rational`. The constructor asserts that the denominator is not zero. -/
structure Rational where
  a : Long
  b : Long
  b_ne : b ≠ 0 := by decide
  deriving DecidableEq

/-- The denominator of a percentage. -/
theorem hundred_ne_zero : (100 : Long) ≠ 0 := by decide

namespace Rational

variable (r : Rational) (value : Long)

/-- `multiplyByLong`. -/
def multiplyByLong : Long := (multiplyDivideFloor value r.a r.b).getD 0

/-- `multiplyByLongCeil`. -/
def multiplyByLongCeil : Long := (multiplyDivideCeil value r.a r.b).getD 0

/-- `UZERO`. -/
def uzero : Rational := ⟨0, 1, by decide⟩

/-- `greaterThanOne`. -/
def greaterThanOne : Bool := r.a > r.b

/-- `complement`, which throws (`none`) above one. -/
def complement : Option Rational :=
  if r.a > r.b then none else some ⟨r.b - r.a, r.b, r.b_ne⟩

/-- `reciprocal`, which throws (`none`) for zero. -/
def reciprocal : Option Rational := if h : r.a = 0 then none else some ⟨r.b, r.a, h⟩

end Rational

example : multiplyDivideCeil 200 101 100 = some 202 := by decide

/-! ### Numbers

A number that a `Long` converts to has 53 significant bits, and converts back without loss, up to
the saturation of `2 ^ 64`.
-/

namespace Long

/-- A number with no more bits than a double holds is not rounded. -/
theorem roundNumber_of_dvd {n : ℕ} (h : 2 ^ (n.log2 - 52) ∣ n) : roundNumber n = n := by
  have h_pos : 0 < 2 ^ (n.log2 - 52) := Nat.two_pow_pos _
  unfold roundNumber
  simp only
  rw [Nat.mod_eq_zero_of_dvd h, if_neg (by omega)]
  exact Nat.div_mul_cancel h

/-- Up to 53 bits followed by zeros. -/
theorem roundNumber_mul_pow {q : ℕ} (e : ℕ) (hq : q ≤ 2 ^ 53) :
    roundNumber (q * 2 ^ e) = q * 2 ^ e := by
  apply roundNumber_of_dvd
  by_cases h_le : (q * 2 ^ e).log2 - 52 ≤ e
  · exact (Nat.pow_dvd_pow 2 h_le).trans (Nat.dvd_mul_left _ _)
  · -- only 2 ^ 53 itself has one bit more
    have h_log : 53 + e ≤ (q * 2 ^ e).log2 := by omega
    have h_ne : q * 2 ^ e ≠ 0 := by
      intro h_zero
      rw [h_zero, Nat.log2_zero] at h_log
      omega
    have h_ge : 2 ^ (53 + e) ≤ q * 2 ^ e := (Nat.le_log2 h_ne).mp h_log
    rw [Nat.pow_add] at h_ge
    have h_q : q = 2 ^ 53 :=
      Nat.le_antisymm hq (Nat.le_of_mul_le_mul_right h_ge (Nat.two_pow_pos e))
    rw [h_q, ← Nat.pow_add, Nat.log2_two_pow]
    exact Nat.pow_dvd_pow 2 (by omega)

/-- Rounding yields 53 bits followed by zeros. -/
theorem roundNumber_eq (n : ℕ) :
    ∃ q ≤ 2 ^ 53, roundNumber n = q * 2 ^ (n.log2 - 52) := by
  have h_div : n / 2 ^ (n.log2 - 52) < 2 ^ 53 := by
    rw [Nat.div_lt_iff_lt_mul (Nat.two_pow_pos _), ← Nat.pow_add]
    exact (Nat.lt_log2_self).trans_le (Nat.pow_le_pow_right (by omega) (by omega))
  refine ⟨_, ?_, rfl⟩
  split <;> omega

theorem roundNumber_roundNumber (n : ℕ) : roundNumber (roundNumber n) = roundNumber n := by
  obtain ⟨q, hq, h_eq⟩ := roundNumber_eq n
  rw [h_eq]
  exact roundNumber_mul_pow _ hq

/-- No `Long` is rounded above `2 ^ 64`. -/
theorem toNumber_le (l : Long) : l.toNumber ≤ 2 ^ 64 := by
  obtain ⟨q, hq, h_eq⟩ := roundNumber_eq l.toNat
  have h_log : l.toNat.log2 - 52 ≤ 11 := by
    by_cases h_zero : l.toNat = 0
    · rw [h_zero, Nat.log2_zero]
      omega
    · have h_lt := (Nat.log2_lt h_zero).mpr l.isLt
      omega
  rw [toNumber, h_eq]
  calc q * 2 ^ (l.toNat.log2 - 52) ≤ 2 ^ 53 * 2 ^ 11 :=
        Nat.mul_le_mul hq (Nat.pow_le_pow_right (by omega) h_log)
    _ = 2 ^ 64 := by rw [← Nat.pow_add]

/-- A number that fits is the number of its `Long`. -/
theorem toNat_fromNumber {n : ℕ} (h : n < 2 ^ 64) : (fromNumber n).toNat = n := by
  unfold fromNumber
  rw [if_neg (not_le.mpr h), BitVec.toNat_ofNat, Nat.mod_eq_of_lt h]

/-- **Back and forth.** The number of a `Long` becomes a `Long` of the same number. -/
theorem toNumber_fromNumber (l : Long) : (fromNumber l.toNumber).toNumber = l.toNumber := by
  unfold fromNumber
  by_cases h_sat : 2 ^ 64 ≤ l.toNumber
  · rw [if_pos h_sat, Nat.le_antisymm (toNumber_le l) h_sat]
    decide
  · rw [if_neg h_sat]
    unfold toNumber at h_sat ⊢
    rw [BitVec.toNat_ofNat, Nat.mod_eq_of_lt (not_le.mp h_sat), roundNumber_roundNumber]

end Long

/-! ### Minimum and maximum -/

theorem toNat_maxLong (a b : Long) : (maxLong a b).toNat = max a.toNat b.toNat := by
  unfold maxLong
  by_cases h : a > b
  · have h_lt : b.toNat < a.toNat := h
    rw [if_pos h, Nat.max_eq_left h_lt.le]
  · have h_le : a.toNat ≤ b.toNat := not_lt.mp h
    rw [if_neg h, Nat.max_eq_right h_le]

theorem toNat_minLong (a b : Long) : (minLong a b).toNat = min a.toNat b.toNat := by
  unfold minLong
  by_cases h : a < b
  · have h_lt : a.toNat < b.toNat := h
    rw [if_pos h, Nat.min_eq_left h_lt.le]
  · have h_le : b.toNat ≤ a.toNat := not_lt.mp h
    rw [if_neg h, Nat.min_eq_right h_le]

/-! ### Checked addition and subtraction -/

section Checked

variable (a b : Long)

/-- **Checked addition saturates.** -/
theorem toNat_checkedAdd : (checkedAdd a b).1.toNat = min (a.toNat + b.toNat) (2 ^ 64 - 1) := by
  have ha := a.isLt
  have hb := b.isLt
  simp only [checkedAdd, Bool.or_eq_true, decide_eq_true_eq, BitVec.lt_def, BitVec.toNat_add]
  split
  · rw [toNat_maxUnsignedValue]
    omega
  · rw [BitVec.toNat_add]
    omega

/-- It overflows exactly when the sum does not fit. -/
theorem overflow_checkedAdd : (checkedAdd a b).2 = true ↔ 2 ^ 64 ≤ a.toNat + b.toNat := by
  have ha := a.isLt
  have hb := b.isLt
  simp only [checkedAdd, Bool.or_eq_true, decide_eq_true_eq, BitVec.lt_def, BitVec.toNat_add]
  omega

variable {a b}

/-- **Checked subtraction** of no more than there is. -/
theorem toNat_checkedSubtract (h : b.toNat ≤ a.toNat) :
    (checkedSubtract a b).1.toNat = a.toNat - b.toNat := by
  have ha := a.isLt
  simp only [checkedSubtract, Bool.and_eq_true, decide_eq_true_eq, gt_iff_lt, BitVec.lt_def,
    BitVec.toNat_sub]
  split
  · omega
  · rw [BitVec.toNat_sub]
    omega

end Checked

/-- A share of nothing is nothing. -/
theorem multiplyDivideFloor_zero {b c l : Long} (h : multiplyDivideFloor 0 b c = some l) : l = 0 := by
  unfold multiplyDivideFloor multiplyDivide at h
  by_cases hc : c = 0
  · rw [if_pos hc] at h
    cases h
  · rw [if_neg hc] at h
    exact (Option.some.inj h).symm

end Interledger.Stream
