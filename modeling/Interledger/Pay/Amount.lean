import Interledger.Lib.Bookkeeping
import Mathlib.Algebra.BigOperators.Ring.List
import Mathlib.Data.PNat.Basic

/-!
# Amounts and ratios of the `pay` package

`Int` of `pay/src/utils.ts` wraps a non-negative `bigint`, and `PositiveInt` is the refinement that
excludes zero; they are `ℕ` and `ℕ+` here. `Ratio` keeps a numerator and a positive denominator,
compared by cross multiplication and never reduced. Nothing wraps: only `MAX_U64` caps an amount,
and only where the code asks for it.
-/

namespace Interledger.Pay

/-- `Int.MAX_U64`. -/
def maxU64 : ℕ := 18446744073709551615

theorem maxU64_pos : 0 < maxU64 := by decide

/-- `Int.saturatingSubtract`. -/
def saturatingSubtract (n m : ℕ) : ℕ := if n ≥ m then n - m else 0

@[simp] theorem saturatingSubtract_eq (n m : ℕ) : saturatingSubtract n m = n - m := by
  unfold saturatingSubtract
  split <;> omega

/-- `Int.divideCeil`. -/
def divideCeil (n d : ℕ) : ℕ := (n + d - 1) / d

theorem divideCeil_eq (n d : ℕ) : divideCeil n d = n ⌈/⌉ d := (Nat.ceilDiv_eq_add_pred_div n d).symm

/-- `Int.orLesser`. -/
def orLesser (n : ℕ) : Option ℕ → ℕ
  | none => n
  | some m => if n ≤ m then n else m

/-- `Int.orGreater`. -/
def orGreater (n : ℕ) : Option ℕ → ℕ
  | none => n
  | some m => if n ≥ m then n else m

@[simp] theorem orLesser_none (n : ℕ) : orLesser n none = n := rfl

@[simp] theorem orLesser_some (n m : ℕ) : orLesser n (some m) = min n m := by
  unfold orLesser
  simp only [min_def]

@[simp] theorem orGreater_none (n : ℕ) : orGreater n none = n := rfl

@[simp] theorem orGreater_some (n m : ℕ) : orGreater n (some m) = max n m := by
  unfold orGreater
  simp only [ge_iff_le, max_def]
  split <;> split <;> omega

/-- `Ratio`: a numerator `a ≥ 0` over a denominator `b > 0`. -/
structure Ratio where
  a : ℕ
  b : ℕ
  b_pos : 0 < b := by decide
  deriving DecidableEq

/-- `PositiveRatio`: the numerator is positive too. -/
structure PositiveRatio extends Ratio where
  a_pos : 0 < a := by decide
  deriving DecidableEq

namespace Ratio

/-- `Ratio.reciprocal`, `undefined` for a zero ratio. -/
def reciprocal (r : Ratio) : Option PositiveRatio :=
  if h : 0 < r.a then some { a := r.b, b := r.a, b_pos := h, a_pos := r.b_pos } else none

/-- `Ratio.isGreaterThan`. -/
def isGreaterThan (r s : Ratio) : Bool := r.a * s.b > r.b * s.a

/-- `Ratio.isGreaterThanOrEqualTo`. -/
def isGreaterThanOrEqualTo (r s : Ratio) : Bool := r.a * s.b ≥ r.b * s.a

/-- `Ratio.isLessThan`. -/
def isLessThan (r s : Ratio) : Bool := r.a * s.b < r.b * s.a

/-- `Ratio.isLessThanOrEqualTo`. -/
def isLessThanOrEqualTo (r s : Ratio) : Bool := r.a * s.b ≤ r.b * s.a

/-- `Ratio.isPositive`. -/
def isPositive (r : Ratio) : Bool := r.a > 0

end Ratio

/-- `PositiveRatio.reciprocal`, always defined. -/
def PositiveRatio.reciprocal (r : PositiveRatio) : PositiveRatio where
  a := r.b
  b := r.a
  b_pos := r.a_pos
  a_pos := r.b_pos

/-- `Int.multiplyFloor`. -/
def multiplyFloor (n : ℕ) (r : Ratio) : ℕ := n * r.a / r.b

/-- `Int.multiplyCeil`. -/
def multiplyCeil (n : ℕ) (r : Ratio) : ℕ := divideCeil (n * r.a) r.b

theorem multiplyCeil_eq (n : ℕ) (r : Ratio) : multiplyCeil n r = n * r.a ⌈/⌉ r.b :=
  divideCeil_eq _ _

theorem multiplyCeil_le_iff {n k : ℕ} {r : Ratio} : multiplyCeil n r ≤ k ↔ n * r.a ≤ k * r.b := by
  rw [multiplyCeil_eq, ceilDiv_le_iff_le_mul r.b_pos, Nat.mul_comm k]

theorem lt_multiplyCeil_iff {n k : ℕ} {r : Ratio} : k < multiplyCeil n r ↔ k * r.b < n * r.a := by
  rw [← not_le, multiplyCeil_le_iff, not_le]

theorem le_multiplyFloor_iff {n k : ℕ} {r : Ratio} : k ≤ multiplyFloor n r ↔ k * r.b ≤ n * r.a :=
  Nat.le_div_iff_mul_le r.b_pos

theorem multiplyFloor_lt_iff {n k : ℕ} {r : Ratio} : multiplyFloor n r < k ↔ n * r.a < k * r.b := by
  rw [← not_le, le_multiplyFloor_iff, not_le]

/-- A larger amount converts to at least as much. -/
theorem multiplyCeil_mono {n m : ℕ} (h : n ≤ m) (r : Ratio) : multiplyCeil n r ≤ multiplyCeil m r :=
  multiplyCeil_le_iff.mpr ((Nat.mul_le_mul_right _ h).trans (multiplyCeil_le_iff.mp le_rfl))

/-- **Parts converted one by one**, each rounded up, yield at least their converted total. -/
theorem multiplyCeil_sum_le {α : Type} (r : Ratio) (f : α → ℕ) (l : List α) :
    multiplyCeil (l.map f).sum r ≤ (l.map fun x => multiplyCeil (f x) r).sum := by
  have h := ceilDiv_sum_le_sum_ceilDiv r.b_pos (fun x => f x * r.a) l
  rw [List.sum_map_mul_right] at h
  simpa only [multiplyCeil_eq] using h

end Interledger.Pay
