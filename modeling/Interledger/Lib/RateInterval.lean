import Mathlib.Algebra.Order.Floor.Semifield
import Mathlib.Order.Bounds.Image
import Mathlib.Order.Interval.Set.LinearOrder
import Mathlib.Tactic.Common

/-!
# Half-open intervals of rates

An amount `s` is converted at a rate `r` to `⌊r * s⌋₊`. One conversion narrows the rate down to a half-open
interval (`floor_mul_eq_iff`), and so do many of them. Over all rates of such an interval the converted
amounts have a least and a greatest element, and so have the amounts that are converted to at least a given
one, at some rate or at every rate.

## Main results

* `isLeast_floor_mul`, `isGreatest_floor_mul` — what an amount is converted to;
* `isLeast_of_exists`, `isLeast_of_forall` — what is converted to an amount.
-/

namespace Interledger.RateInterval

variable {K : Type} [Field K] [LinearOrder K] [IsStrictOrderedRing K] [FloorSemiring K] {lower upper r : K}
  {d s : ℕ}

/-- The conversion of `s` to `d` tells the rate up to a half-open interval. -/
theorem floor_mul_eq_iff (h : 0 ≤ r) (hs : 0 < s) :
    ⌊r * s⌋₊ = d ↔ r ∈ Set.Ico ((d : K) / s) ((d + 1) / s) := by
  have h_pos : (0 : K) < s := Nat.cast_pos.mpr hs
  rw [Nat.floor_eq_iff (mul_nonneg h h_pos.le), Set.mem_Ico, div_le_iff₀ h_pos, lt_div_iff₀ h_pos]

/-- A higher rate converts to at least as much. -/
theorem floor_mul_mono (s : ℕ) : Monotone fun r : K => ⌊r * s⌋₊ :=
  fun _ _ h => Nat.floor_mono (mul_le_mul_of_nonneg_right h s.cast_nonneg)

/-- The lower bound converts to the least amount. -/
theorem isLeast_floor_mul (h : lower < upper) (s : ℕ) :
    IsLeast ((fun r : K => ⌊r * s⌋₊) '' Set.Ico lower upper) ⌊lower * s⌋₊ :=
  (floor_mul_mono s).map_isLeast (isLeast_Ico h)

/-- The greatest amount stays one below what the upper bound converts to, rounded up. -/
theorem isGreatest_floor_mul (h_lower : 0 ≤ lower) (h : lower < upper) (s : ℕ) :
    IsGreatest ((fun r : K => ⌊r * s⌋₊) '' Set.Ico lower upper) (⌈upper * s⌉₊ - 1) := by
  rcases Nat.eq_zero_or_pos s with rfl | hs
  · -- nothing converts to nothing
    refine ⟨⟨lower, Set.left_mem_Ico.mpr h, ?_⟩, ?_⟩
    · simp
    · rintro _ ⟨r, -, rfl⟩
      simp
  have h_pos : (0 : K) < s := Nat.cast_pos.mpr hs
  have h_ceil : 0 < ⌈upper * s⌉₊ := Nat.ceil_pos.mpr (mul_pos (h_lower.trans_lt h) h_pos)
  have h_below (r : K) (hr : r ∈ Set.Ico lower upper) : ⌊r * s⌋₊ ≤ ⌈upper * s⌉₊ - 1 := by
    have h_lt : ⌊r * s⌋₊ < ⌈upper * s⌉₊ := by
      rw [Nat.lt_ceil]
      calc ((⌊r * s⌋₊ : ℕ) : K) ≤ r * s := Nat.floor_le (mul_nonneg (h_lower.trans hr.1) h_pos.le)
        _ < upper * s := mul_lt_mul_of_pos_right hr.2 h_pos
    exact Nat.le_sub_one_of_lt h_lt
  refine ⟨?_, ?_⟩
  · -- the rate that reaches the amount exactly, or the lower bound if that is higher
    have h_lt : ((⌈upper * s⌉₊ - 1 : ℕ) : K) < upper * s := Nat.lt_ceil.mp (Nat.sub_lt h_ceil Nat.one_pos)
    have h_mem : max lower ((⌈upper * s⌉₊ - 1 : ℕ) / s : K) ∈ Set.Ico lower upper :=
      ⟨le_max_left _ _, max_lt h ((div_lt_iff₀ h_pos).mpr h_lt)⟩
    refine ⟨_, h_mem, le_antisymm (h_below _ h_mem) ?_⟩
    apply Nat.le_floor
    calc ((⌈upper * s⌉₊ - 1 : ℕ) : K) = (⌈upper * s⌉₊ - 1 : ℕ) / s * s := (div_mul_cancel₀ _ h_pos.ne').symm
      _ ≤ max lower ((⌈upper * s⌉₊ - 1 : ℕ) / s : K) * s :=
        mul_le_mul_of_nonneg_right (le_max_right _ _) h_pos.le
  · rintro _ ⟨r, hr, rfl⟩
    exact h_below r hr

/-- At some rate below the upper bound, an amount is converted to `d` or more. -/
theorem exists_le_floor_mul_iff (h_lower : 0 ≤ lower) (h : lower < upper) (hd : 0 < d) :
    (∃ r ∈ Set.Ico lower upper, d ≤ ⌊r * s⌋₊) ↔ (d : K) / upper < s := by
  have h_upper : 0 < upper := h_lower.trans_lt h
  constructor
  · rintro ⟨r, hr, h_le⟩
    have h_pos : 0 < r * s := Nat.pos_of_floor_pos (hd.trans_le h_le)
    have h_s : (0 : K) < s := pos_of_mul_pos_right h_pos (h_lower.trans hr.1)
    rw [div_lt_iff₀ h_upper, mul_comm]
    calc (d : K) ≤ r * s := (Nat.le_floor_iff h_pos.le).mp h_le
      _ < upper * s := mul_lt_mul_of_pos_right hr.2 h_s
  · intro h_lt
    have h_s : (0 : K) < s := (div_nonneg d.cast_nonneg h_upper.le).trans_lt h_lt
    -- the least rate that delivers `d`, if it is in the interval
    refine ⟨max lower (d / s), ⟨le_max_left _ _, max_lt h ?_⟩, ?_⟩
    · rwa [div_lt_iff₀ h_s, mul_comm, ← div_lt_iff₀ h_upper]
    · apply Nat.le_floor
      calc (d : K) = d / s * s := (div_mul_cancel₀ _ h_s.ne').symm
        _ ≤ max lower (d / s) * s := mul_le_mul_of_nonneg_right (le_max_right _ _) h_s.le

/-- The least amount that is converted to `d` or more at some rate. -/
theorem isLeast_of_exists (h_lower : 0 ≤ lower) (h : lower < upper) (hd : 0 < d) :
    IsLeast {s : ℕ | ∃ r ∈ Set.Ico lower upper, d ≤ ⌊r * s⌋₊} (⌊(d : K) / upper⌋₊ + 1) := by
  constructor
  · apply (exists_le_floor_mul_iff h_lower h hd).mpr
    exact_mod_cast Nat.lt_floor_add_one ((d : K) / upper)
  · intro s hs
    have h_lt := (exists_le_floor_mul_iff h_lower h hd).mp hs
    exact (Nat.floor_lt (div_nonneg d.cast_nonneg (h_lower.trans h.le))).mpr h_lt

/-- The least amount that is converted to `d` or more at every rate. -/
theorem isLeast_of_forall (h_lower : 0 < lower) (h : lower < upper) :
    IsLeast {s : ℕ | ∀ r ∈ Set.Ico lower upper, d ≤ ⌊r * s⌋₊} ⌈(d : K) / lower⌉₊ := by
  constructor
  · intro r hr
    apply Nat.le_floor
    calc (d : K) = lower * (d / lower) := (mul_div_cancel₀ _ h_lower.ne').symm
      _ ≤ lower * ⌈(d : K) / lower⌉₊ := mul_le_mul_of_nonneg_left (Nat.le_ceil _) h_lower.le
      _ ≤ r * ⌈(d : K) / lower⌉₊ := mul_le_mul_of_nonneg_right hr.1 (Nat.cast_nonneg _)
  · -- it is enough at the lower bound
    intro s hs
    have h_le := hs lower (Set.left_mem_Ico.mpr h)
    rw [Nat.le_floor_iff (mul_nonneg h_lower.le s.cast_nonneg)] at h_le
    rwa [Nat.ceil_le, div_le_iff₀ h_lower, mul_comm]

end Interledger.RateInterval
