import Interledger.Stream.Long

/-!
# Checked operations

`checkedAdd`, `checkedSubtract` and `checkedMultiply` of `ilp-protocol-stream/src/util/long.ts` infer
from the wrapped result whether the true one is out of range. A sum that wraps around is smaller than
both of its terms, so that addition is exact.

* A difference that wraps around is larger than `a`, but larger than `b` only up to half of
  `a + 2 ^ 64`.
* A product that wraps around may be larger than both factors, and zero times a positive factor is
  smaller than that factor although it fits.

## Main results

* `checkedAdd_exact` — addition, always;
* `checkedSubtract_exact_iff`, `checkedMultiply_exact_iff` — when the others are exact;
* `checked_exact_iff` — all three.
-/

namespace Interledger.Stream

open Long

/-- A checked operation whose true result is `n` returns it, or the bound it is past, and says whether
it is out of range. -/
structure ExactlyChecked (result : Long × Bool) (n : ℤ) : Prop where
  value : (result.1.toNat : ℤ) = max 0 (min n (2 ^ 64 - 1))
  outOfRange : result.2 = true ↔ n < 0 ∨ 2 ^ 64 ≤ n

/-- The checked operations are exact for two operands. -/
structure CheckedExact (a b : Long) : Prop where
  checkedAdd : ExactlyChecked (checkedAdd a b) (a.toNat + b.toNat)
  checkedSubtract : ExactlyChecked (checkedSubtract a b) (a.toNat - b.toNat)
  checkedMultiply : ExactlyChecked (checkedMultiply a b) (a.toNat * b.toNat)

/-- A difference below zero is seen when it wraps around to a number above `b`. -/
def UnderflowSeen (a b : Long) : Prop := b.toNat ≤ a.toNat ∨ 2 * b.toNat < a.toNat + 2 ^ 64
  deriving Decidable

/-- A product is judged rightly: one that fits has no zero factor besides a positive one, and one
that does not wraps around to a number below a factor. -/
def ProductJudged (a b : Long) : Prop :=
  if a.toNat * b.toNat < 2 ^ 64 then a.toNat = 0 ↔ b.toNat = 0
  else a.toNat * b.toNat % 2 ^ 64 < max a.toNat b.toNat
  deriving Decidable

variable (a b : Long)

/-- **Checked addition is exact.** -/
theorem checkedAdd_exact : ExactlyChecked (checkedAdd a b) (a.toNat + b.toNat) := by
  have h_value := toNat_checkedAdd a b
  have h_overflow := overflow_checkedAdd a b
  refine ⟨?_, ?_⟩
  · rw [h_value]
    omega
  · rw [h_overflow]
    omega

/-- **Checked subtraction is exact** when an underflow is seen. -/
theorem checkedSubtract_exact_iff :
    ExactlyChecked (checkedSubtract a b) (a.toNat - b.toNat) ↔ UnderflowSeen a b := by
  have ha := a.isLt
  have hb := b.isLt
  have h_sub : (a - b).toNat = (2 ^ 64 - b.toNat + a.toNat) % 2 ^ 64 := BitVec.toNat_sub a b
  have h_flag : (checkedSubtract a b).2 = true ↔ a.toNat < (a - b).toNat ∧ b.toNat < (a - b).toNat := by
    simp only [checkedSubtract, Bool.and_eq_true, decide_eq_true_eq, gt_iff_lt, BitVec.lt_def]
  have h_value : (checkedSubtract a b).1 = if (checkedSubtract a b).2 then 0 else a - b := rfl
  unfold UnderflowSeen
  constructor
  · intro h
    have h_range := h.outOfRange
    rw [h_flag] at h_range
    omega
  · -- what is seen is an underflow; what is not is none
    intro h_seen
    refine ⟨?_, ?_⟩
    · rw [h_value]
      split
      · next h_under =>
        have h_lt := h_flag.mp h_under
        have h_zero : (0 : Long).toNat = 0 := rfl
        rw [h_zero]
        omega
      · next h_fits =>
        have h_not := h_flag.not.mp h_fits
        omega
    · rw [h_flag]
      omega

/-- What an exact subtraction returns, nothing below zero. -/
theorem toNat_checkedSubtract_of_seen {a b : Long} (h : UnderflowSeen a b) :
    (checkedSubtract a b).1.toNat = a.toNat - b.toNat := by
  have h_value := ((checkedSubtract_exact_iff a b).mpr h).value
  have ha := a.isLt
  omega

/-- A product is smaller than a positive factor when the other one is zero, and only then. -/
theorem mul_lt_iff (m n : ℕ) : m * n < m ∨ m * n < n ↔ ¬(m = 0 ↔ n = 0) := by
  constructor
  · rintro (h | h) h_iff
    · -- a product is smaller than a factor only if the other is zero
      have h_n : n = 0 := by
        by_contra h_ne
        exact absurd h (not_lt.mpr (Nat.le_mul_of_pos_right m (Nat.pos_of_ne_zero h_ne)))
      rw [h_n, h_iff.mpr h_n] at h
      exact lt_irrefl _ h
    · have h_m : m = 0 := by
        by_contra h_ne
        exact absurd h (not_lt.mpr (Nat.le_mul_of_pos_left n (Nat.pos_of_ne_zero h_ne)))
      rw [h_m, h_iff.mp h_m] at h
      exact lt_irrefl _ h
  · intro h_iff
    by_cases h_m : m = 0
    · have h_n : n ≠ 0 := fun h => h_iff ⟨fun _ => h, fun _ => h_m⟩
      right
      rw [h_m, Nat.zero_mul]
      exact Nat.pos_of_ne_zero h_n
    · have h_n : n = 0 := by
        by_contra h
        exact h_iff ⟨fun h' => absurd h' h_m, fun h' => absurd h' h⟩
      left
      rw [h_n, Nat.mul_zero]
      exact Nat.pos_of_ne_zero h_m

/-- **Checked multiplication is exact** when the product is judged rightly. -/
theorem checkedMultiply_exact_iff :
    ExactlyChecked (checkedMultiply a b) (a.toNat * b.toNat) ↔ ProductJudged a b := by
  have h_mul : (a * b).toNat = a.toNat * b.toNat % 2 ^ 64 := BitVec.toNat_mul a b
  have h_flag : (checkedMultiply a b).2 = true ↔
      (a * b).toNat < a.toNat ∨ (a * b).toNat < b.toNat := by
    simp only [checkedMultiply, Bool.or_eq_true, decide_eq_true_eq, BitVec.lt_def]
  have h_value : (checkedMultiply a b).1 = if (checkedMultiply a b).2 then maxUnsignedValue else a * b :=
    rfl
  have h_cast : (a.toNat * b.toNat : ℤ) = ((a.toNat * b.toNat : ℕ) : ℤ) := by push_cast; rfl
  rw [h_cast]
  unfold ProductJudged
  by_cases h_fits : a.toNat * b.toNat < 2 ^ 64
  · -- the product is the true one, and must not be flagged
    rw [if_pos h_fits]
    rw [h_mul, Nat.mod_eq_of_lt h_fits, mul_lt_iff] at h_flag
    rw [Nat.mod_eq_of_lt h_fits] at h_mul
    generalize a.toNat * b.toNat = n at *
    constructor
    · intro h
      by_contra h_iff
      have h_range := h.outOfRange.mp (h_flag.mpr h_iff)
      omega
    · intro h_iff
      have h_not : ¬(checkedMultiply a b).2 = true := fun h => h_flag.mp h h_iff
      refine ⟨?_, ?_⟩
      · rw [h_value, if_neg h_not, h_mul]
        omega
      · refine iff_of_false h_not ?_
        omega
  · -- the product wrapped around, and must be flagged
    rw [if_neg h_fits]
    rw [h_mul, ← lt_max_iff] at h_flag
    generalize a.toNat * b.toNat = n at *
    constructor
    · intro h
      apply h_flag.mp
      apply h.outOfRange.mpr
      omega
    · intro h_lt
      have h_over := h_flag.mpr h_lt
      refine ⟨?_, ?_⟩
      · rw [h_value, if_pos h_over, toNat_maxUnsignedValue]
        omega
      · refine iff_of_true h_over ?_
        omega

/-- **When the checked operations are exact**: addition always is. -/
theorem checked_exact_iff : CheckedExact a b ↔ UnderflowSeen a b ∧ ProductJudged a b := by
  constructor
  · intro h
    exact ⟨(checkedSubtract_exact_iff a b).mp h.checkedSubtract,
      (checkedMultiply_exact_iff a b).mp h.checkedMultiply⟩
  · rintro ⟨h_subtract, h_multiply⟩
    exact ⟨checkedAdd_exact a b, (checkedSubtract_exact_iff a b).mpr h_subtract,
      (checkedMultiply_exact_iff a b).mpr h_multiply⟩

/-- **An underflow that is not seen**: nothing less the largest number is one. Zero times one is seen
to overflow although it does not. -/
theorem checkedSubtract_misses_underflow :
    checkedSubtract 0 maxUnsignedValue = (1, false) ∧ ¬CheckedExact 0 maxUnsignedValue ∧
      checkedMultiply 0 1 = (maxUnsignedValue, true) ∧ ¬CheckedExact 0 1 := by
  refine ⟨by decide, fun h => ?_, by decide, fun h => ?_⟩
  · have h_value : ((1 : ℕ) : ℤ) = max 0 (min ((0 : ℕ) - (2 ^ 64 - 1 : ℕ)) (2 ^ 64 - 1)) :=
      h.checkedSubtract.value
    exact absurd h_value (by decide)
  · have h_range := h.checkedMultiply.outOfRange.mp (by decide)
    exact absurd h_range (by decide)

end Interledger.Stream
