import Interledger.Stream.Long

/-!
# Multiplication with division

What `multiplyDivide` of `ilp-protocol-stream/src/util/long.ts` computes, and the functions that are
built on it.

The loop adds the share `b * 2 ^ i` of each bit `i` of `a` that is set. Sum and shares are kept as
quotient and remainder by `c`, and three of their changes may wrap around:

* a doubled remainder, and the sum of two, pass `2 ^ 64` when `c` is larger than `2 ^ 63`: what is
  lost is missing from the result (`RemaindersFit` says that this does not happen);
* the quotient of the sum wraps around, which the loop sees as long as it gets smaller
  (`OverflowSeen`);
* the quotient of a share wraps around unseen, so that the quotient of the sum may come out right up
  to a multiple of `2 ^ 64` without getting smaller.

## Main results

* `multiplyDivideLoop_of_fit` — the loop, when the remainders fit;
* `multiplyDivideLoop_lt` — a remainder that does not fit makes the result too small;
* `multiplyDivide_exact_iff` — when the results are exact.
-/

namespace Interledger.Stream

open Long

/-! ### Sums of shares -/

/-- The sum after the lowest `i` bits of `a`: to `v` the share `w * 2 ^ j` of each bit `j` that is
set is added. -/
def sumOfBits (v w a i : ℕ) : ℕ := v + a % 2 ^ i * w

/-- No remainder passes `2 ^ 64`: not a doubled one that is still needed, and not the sum of two. -/
structure RemaindersFit (c v w a : ℕ) : Prop where
  doubled : ∀ i, a / 2 ^ (i + 1) ≠ 0 → w * 2 ^ i % c < 2 ^ 63
  added : ∀ i, a / 2 ^ i % 2 = 1 → sumOfBits v w a i % c + w * 2 ^ i % c < 2 ^ 64

/-- At some bit the quotient of the sum, modulo `2 ^ 64`, gets smaller. -/
def OverflowSeen (c v w a : ℕ) : Prop :=
  ∃ i, sumOfBits v w a (i + 1) / c % 2 ^ 64 < sumOfBits v w a i / c % 2 ^ 64

section Shares

variable {c v w a : ℕ}

@[simp] theorem sumOfBits_zero (v w a : ℕ) : sumOfBits v w a 0 = v := by
  unfold sumOfBits
  rw [Nat.pow_zero, Nat.mod_one, Nat.zero_mul, Nat.add_zero]

/-- The lowest bit comes first. -/
theorem sumOfBits_succ (v w a i : ℕ) :
    sumOfBits v w a (i + 1) = sumOfBits (v + a % 2 * w) (2 * w) (a / 2) i := by
  unfold sumOfBits
  rw [Nat.pow_succ', Nat.mod_mul]
  ring

theorem sumOfBits_le (v w a i : ℕ) : sumOfBits v w a i ≤ v + a * w :=
  Nat.add_le_add_left (Nat.mul_le_mul_right _ (Nat.mod_le _ _)) _

/-- The sum only grows. -/
theorem sumOfBits_le_succ (v w a i : ℕ) : sumOfBits v w a i ≤ sumOfBits v w a (i + 1) := by
  unfold sumOfBits
  have h_mod : a % 2 ^ i ≤ a % 2 ^ (i + 1) := by
    rw [Nat.pow_succ, Nat.mod_mul]
    exact Nat.le_add_right _ _
  exact Nat.add_le_add_left (Nat.mul_le_mul_right _ h_mod) _

/-- What fits at all bits fits at the lowest one and at the others. -/
theorem remaindersFit_iff :
    RemaindersFit c v w a ↔
      (a / 2 ≠ 0 → w % c < 2 ^ 63) ∧ (a % 2 = 1 → v % c + w % c < 2 ^ 64) ∧
        RemaindersFit c (v + a % 2 * w) (2 * w) (a / 2) := by
  -- the bits of the half are those of the whole, one place further
  have h_shift : ∀ i, w * 2 ^ (i + 1) = 2 * w * 2 ^ i := by
    intro i
    ring
  have h_half : ∀ i, a / 2 / 2 ^ i = a / 2 ^ (i + 1) := by
    intro i
    rw [Nat.div_div_eq_div_mul, Nat.pow_succ']
  constructor
  · intro h
    refine ⟨fun h_ne => ?_, fun h_odd => ?_, fun i h_ne => ?_, fun i h_odd => ?_⟩
    · simpa using h.doubled 0 (by simpa using h_ne)
    · simpa using h.added 0 (by simpa using h_odd)
    · rw [← h_shift]
      exact h.doubled (i + 1) (by rwa [h_half] at h_ne)
    · rw [← sumOfBits_succ, ← h_shift]
      exact h.added (i + 1) (by rwa [h_half] at h_odd)
  · rintro ⟨h_doubled, h_added, h_rest⟩
    refine ⟨fun i h_ne => ?_, fun i h_odd => ?_⟩
    · cases i with
      | zero => simpa using h_doubled (by simpa using h_ne)
      | succ i =>
        rw [h_shift]
        exact h_rest.doubled i (by rwa [h_half])
    · cases i with
      | zero => simpa using h_added (by simpa using h_odd)
      | succ i =>
        rw [sumOfBits_succ, h_shift]
        exact h_rest.added i (by rwa [h_half])

/-- An overflow is seen at the lowest bit or at another one. -/
theorem overflowSeen_iff :
    OverflowSeen c v w a ↔
      (v + a % 2 * w) / c % 2 ^ 64 < v / c % 2 ^ 64 ∨
        OverflowSeen c (v + a % 2 * w) (2 * w) (a / 2) := by
  constructor
  · rintro ⟨i, h⟩
    cases i with
    | zero =>
      rw [sumOfBits_succ, sumOfBits_zero, sumOfBits_zero] at h
      exact .inl h
    | succ i =>
      rw [sumOfBits_succ, sumOfBits_succ v w a i] at h
      exact .inr ⟨i, h⟩
  · rintro (h | ⟨i, h⟩)
    · refine ⟨0, ?_⟩
      rw [sumOfBits_succ, sumOfBits_zero, sumOfBits_zero]
      exact h
    · refine ⟨i + 1, ?_⟩
      rw [sumOfBits_succ, sumOfBits_succ v w a i]
      exact h

/-- By a divisor up to `2 ^ 63` all remainders fit. -/
theorem RemaindersFit.of_le (hc : 0 < c) (hc' : c ≤ 2 ^ 63) : RemaindersFit c v w a := by
  have h_mod : ∀ n, n % c < 2 ^ 63 := fun n => (Nat.mod_lt n hc).trans_le hc'
  refine ⟨fun i _ => h_mod _, fun i _ => ?_⟩
  have h₁ := h_mod (sumOfBits v w a i)
  have h₂ := h_mod (w * 2 ^ i)
  omega

theorem remaindersFit_zero : RemaindersFit c v w 0 :=
  ⟨fun i h => absurd (Nat.zero_div _) h, fun i h => by simp at h⟩

theorem not_overflowSeen_zero : ¬OverflowSeen c v w 0 := by
  rintro ⟨i, h_lt⟩
  unfold sumOfBits at h_lt
  rw [Nat.zero_mod, Nat.zero_mod] at h_lt
  exact lt_irrefl _ h_lt

/-- Nothing overflows on the way to a quotient that fits. -/
theorem not_overflowSeen (h : (v + a * w) / c < 2 ^ 64) : ¬OverflowSeen c v w a := by
  rintro ⟨i, h_lt⟩
  have h_fits : ∀ j, sumOfBits v w a j / c < 2 ^ 64 := fun j =>
    (Nat.div_le_div_right (sumOfBits_le v w a j)).trans_lt h
  rw [Nat.mod_eq_of_lt (h_fits _), Nat.mod_eq_of_lt (h_fits _)] at h_lt
  exact absurd h_lt (not_lt.mpr (Nat.div_le_div_right (sumOfBits_le_succ v w a i)))

/-- Dividing part by part, with a carry. -/
theorem div_add_div_add (v w : ℕ) {c : ℕ} (hc : 0 < c) :
    v / c + w / c + (v % c + w % c) / c = (v + w) / c := by
  have h_split : v + w = v % c + w % c + c * (v / c + w / c) := by
    have hv := Nat.mod_add_div v c
    have hw := Nat.mod_add_div w c
    rw [Nat.mul_add]
    omega
  rw [h_split, Nat.add_mul_div_left _ _ hc]
  exact Nat.add_comm _ _

/-- The first bit at which the quotient does not fit any more is seen, when the quotients of the
shares do. -/
theorem OverflowSeen.of_shares (hc : 0 < c) (h_v : v / c < 2 ^ 64)
    (h_over : 2 ^ 64 ≤ (v + a * w) / c) {n : ℕ} (ha : a < 2 ^ n)
    (h_share : ∀ i < n, w * 2 ^ i / c < 2 ^ 64 - 1) : OverflowSeen c v w a := by
  -- induction on the number of bits
  induction n generalizing v w a with
  | zero =>
    have h_zero : a = 0 := by simpa using ha
    rw [h_zero, Nat.zero_mul, Nat.add_zero] at h_over
    exact absurd h_v (not_lt.mpr h_over)
  | succ n ih =>
    rw [overflowSeen_iff]
    have h_w : w / c < 2 ^ 64 - 1 := by simpa using h_share 0 (Nat.succ_pos n)
    have h_total : v + a * w = v + a % 2 * w + a / 2 * (2 * w) := by
      conv_lhs => rw [← Nat.mod_add_div a 2]
      ring
    -- the sum overflows at this bit or at a later one
    by_cases h_next : (v + a % 2 * w) / c < 2 ^ 64
    · refine .inr (ih h_next (h_total ▸ h_over) ?_ fun i hi => ?_)
      · rw [Nat.pow_succ] at ha
        omega
      · have h_eq : 2 * w * 2 ^ i = w * 2 ^ (i + 1) := by ring
        rw [h_eq]
        exact h_share (i + 1) (Nat.succ_lt_succ hi)
    · -- the share of this bit and a carry are less than 2 ^ 64
      left
      have h_odd : a % 2 = 1 := by
        rcases Nat.mod_two_eq_zero_or_one a with h | h
        · rw [h, Nat.zero_mul, Nat.add_zero] at h_next
          exact absurd h_v h_next
        · exact h
      rw [h_odd, Nat.one_mul] at h_next ⊢
      have h_div := div_add_div_add v w hc
      have h_carry : (v % c + w % c) / c ≤ 1 := by
        have h₁ := Nat.mod_lt v hc
        have h₂ := Nat.mod_lt w hc
        exact Nat.le_of_lt_succ ((Nat.div_lt_iff_lt_mul hc).mpr (by omega))
      rw [← h_div] at h_next ⊢
      generalize (v % c + w % c) / c = k at h_carry h_next ⊢
      omega

end Shares

/-! ### The loop -/

section Loop

variable {a b c quo rem qn rn : Long}

/-- A carry divides a remainder that is less than twice the divisor, and adds to the quotient, which
may wrap around. -/
theorem toNat_carry (c quo rem : Long) (h : rem.toNat < 2 * c.toNat) :
    (carry c quo rem).1.toNat = (quo.toNat + rem.toNat / c.toNat) % 2 ^ 64 ∧
      (carry c quo rem).2.toNat = rem.toNat % c.toNat := by
  unfold carry
  by_cases h_carry : rem ≥ c
  · have h_le : c.toNat ≤ rem.toNat := h_carry
    have h_div : rem.toNat / c.toNat = 1 := Nat.div_eq_of_lt_le (by omega) (by omega)
    have h_mod : rem.toNat % c.toNat = rem.toNat - c.toNat := by
      rw [Nat.mod_eq_sub_mod h_le, Nat.mod_eq_of_lt (by omega)]
    rw [if_pos h_carry, h_div, h_mod]
    exact ⟨BitVec.toNat_add quo 1, BitVec.toNat_sub_of_le h_carry⟩
  · have h_lt : rem.toNat < c.toNat := not_le.mp h_carry
    rw [if_neg h_carry, Nat.div_eq_of_lt h_lt, Nat.mod_eq_of_lt h_lt, Nat.add_zero,
      Nat.mod_eq_of_lt quo.isLt]
    exact ⟨rfl, rfl⟩

/-- Shifting left by one doubles what fits. -/
theorem toNat_double (l : Long) : (l <<< 1).toNat = 2 * l.toNat % 2 ^ 64 := by
  rw [BitVec.toNat_shiftLeft, Nat.shiftLeft_eq, Nat.pow_one, Nat.mul_comm]

theorem toNat_half (l : Long) : (l >>> 1).toNat = l.toNat / 2 := by
  rw [BitVec.toNat_ushiftRight, Nat.shiftRight_eq_div_pow, Nat.pow_one]

/-- The lowest bit of a number tells whether it is odd. -/
theorem odd_iff (l : Long) : l &&& 1 ≠ 0 ↔ l.toNat % 2 = 1 := by
  have h_and : (l &&& 1).toNat = l.toNat % 2 := by
    rw [BitVec.toNat_and]
    exact Nat.and_one_is_mod _
  rw [Ne, ← BitVec.toNat_inj, h_and]
  exact Nat.mod_two_ne_zero

/-- Adding a share, when the remainders fit: quotient, up to wrapping around, and remainder of the
new sum. -/
theorem toNat_addShare {v w : ℕ} (hc : 0 < c.toNat)
    (h_quo : quo.toNat = v / c.toNat % 2 ^ 64) (h_rem : rem.toNat = v % c.toNat)
    (h_qn : qn.toNat = w / c.toNat % 2 ^ 64) (h_rn : rn.toNat = w % c.toNat)
    (h_fit : v % c.toNat + w % c.toNat < 2 ^ 64) :
    let result := carry c (quo + qn) (rem + rn)
    result.1.toNat = (v + w) / c.toNat % 2 ^ 64 ∧ result.2.toNat = (v + w) % c.toNat := by
  have h_rem_lt : v % c.toNat < c.toNat := Nat.mod_lt _ hc
  have h_rn_lt : w % c.toNat < c.toNat := Nat.mod_lt _ hc
  have h_sum : (rem + rn).toNat = v % c.toNat + w % c.toNat := by
    rw [BitVec.toNat_add, h_rem, h_rn, Nat.mod_eq_of_lt h_fit]
  obtain ⟨h_fst, h_snd⟩ := toNat_carry c (quo + qn) (rem + rn) (by omega)
  constructor
  · rw [h_fst, h_sum, BitVec.toNat_add, h_quo, h_qn, Nat.mod_add_mod, ← div_add_div_add v w hc]
    omega
  · rw [h_snd, h_sum, ← Nat.add_mod]

/-- The share of the next bit, when the doubled remainder fits. -/
theorem toNat_doubleShare {w : ℕ} (hc : 0 < c.toNat)
    (h_qn : qn.toNat = w / c.toNat % 2 ^ 64) (h_rn : rn.toNat = w % c.toNat)
    (h_fit : w % c.toNat < 2 ^ 63) :
    let share := carry c (qn <<< 1) (rn <<< 1)
    share.1.toNat = 2 * w / c.toNat % 2 ^ 64 ∧ share.2.toNat = 2 * w % c.toNat := by
  have h_rn_lt : w % c.toNat < c.toNat := Nat.mod_lt _ hc
  have h_rn' : (rn <<< 1).toNat = w % c.toNat + w % c.toNat := by
    rw [toNat_double, h_rn, Nat.mod_eq_of_lt (by omega), Nat.two_mul]
  obtain ⟨h_fst, h_snd⟩ := toNat_carry c (qn <<< 1) (rn <<< 1) (by omega)
  constructor
  · rw [h_fst, h_rn', toNat_double, h_qn, Nat.mod_add_mod, Nat.two_mul w,
      ← div_add_div_add w w hc]
    omega
  · rw [h_snd, h_rn', ← Nat.add_mod, Nat.two_mul]

/-- **The loop, when the remainders fit.** `quo` and `rem` divide the sum so far `v`, `qn` and `rn`
the share `w` of the next bit, the quotients up to wrapping around. The loop ends with quotient and
remainder of the whole sum, unless it sees an overflow. -/
theorem multiplyDivideLoop_of_fit {v w : ℕ} (rounds : ℕ) (hc : 0 < c.toNat)
    (ha : a.toNat < 2 ^ rounds)
    (h_quo : quo.toNat = v / c.toNat % 2 ^ 64) (h_rem : rem.toNat = v % c.toNat)
    (h_share : a.toNat ≠ 0 → qn.toNat = w / c.toNat % 2 ^ 64 ∧ rn.toNat = w % c.toNat)
    (h_fit : RemaindersFit c.toNat v w a.toNat) :
    let result := multiplyDivideLoop c rounds a quo rem qn rn
    (OverflowSeen c.toNat v w a.toNat → result = (maxUnsignedValue, 0)) ∧
      (¬OverflowSeen c.toNat v w a.toNat →
        result.1.toNat = (v + a.toNat * w) / c.toNat % 2 ^ 64 ∧
          result.2.toNat = (v + a.toNat * w) % c.toNat) := by
  -- induction on the rounds; `v / c` is in `quo` and `rem`, and `w / c` in `qn` and `rn`
  induction rounds generalizing a quo rem qn rn v w with
  | zero =>
    have h_zero : a.toNat = 0 := by simpa using ha
    rw [multiplyDivideLoop, h_zero, Nat.zero_mul, Nat.add_zero]
    exact ⟨fun h => absurd h not_overflowSeen_zero, fun _ => ⟨h_quo, h_rem⟩⟩
  | succ rounds ih =>
    rw [multiplyDivideLoop]
    by_cases h_zero : a = 0
    · -- no bit is left
      have h_nat : a.toNat = 0 := by rw [h_zero]; rfl
      rw [if_pos h_zero, h_nat, Nat.zero_mul, Nat.add_zero]
      exact ⟨fun h => absurd h not_overflowSeen_zero, fun _ => ⟨h_quo, h_rem⟩⟩
    rw [if_neg h_zero]
    have h_ne : a.toNat ≠ 0 := by
      intro h
      exact h_zero (BitVec.eq_of_toNat_eq h)
    obtain ⟨h_qn, h_rn⟩ := h_share h_ne
    obtain ⟨h_doubled, h_added, h_rest⟩ := remaindersFit_iff.mp h_fit
    -- the sum after this bit
    obtain ⟨h_quo', h_rem'⟩ :
        let sum := if a &&& 1 ≠ 0 then carry c (quo + qn) (rem + rn) else (quo, rem)
        sum.1.toNat = (v + a.toNat % 2 * w) / c.toNat % 2 ^ 64 ∧
          sum.2.toNat = (v + a.toNat % 2 * w) % c.toNat := by
      by_cases h_odd : a &&& 1 ≠ 0
      · rw [if_pos h_odd, (odd_iff a).mp h_odd, Nat.one_mul]
        exact toNat_addShare hc h_quo h_rem h_qn h_rn (h_added ((odd_iff a).mp h_odd))
      · have h_even : a.toNat % 2 = 0 := by
          have h_ne := (odd_iff a).not.mp h_odd
          omega
        rw [if_neg h_odd, h_even, Nat.zero_mul, Nat.add_zero]
        exact ⟨h_quo, h_rem⟩
    generalize (if a &&& 1 ≠ 0 then carry c (quo + qn) (rem + rn) else (quo, rem)) = sum at *
    obtain ⟨quo', rem'⟩ := sum
    simp only at h_quo' h_rem' ⊢
    rw [overflowSeen_iff, ← h_quo, ← h_quo']
    -- the sum has wrapped, and the loop ends
    by_cases h_over : quo' < quo
    · rw [if_pos h_over]
      have h_lt : quo'.toNat < quo.toNat := h_over
      exact ⟨fun _ => rfl, fun h_not => absurd (.inl h_lt) h_not⟩
    have h_not_lt : ¬quo'.toNat < quo.toNat := h_over
    -- otherwise the loop goes on with half of the factor and twice the share
    have h_total : v + a.toNat * w = v + a.toNat % 2 * w + a.toNat / 2 * (2 * w) := by
      conv_lhs => rw [← Nat.mod_add_div a.toNat 2]
      ring
    rw [if_neg h_over, or_iff_right h_not_lt, h_total, ← toNat_half]
    rw [← toNat_half] at h_doubled h_rest
    have h_less : (a >>> 1).toNat < 2 ^ rounds := by
      rw [toNat_half]
      rw [Nat.pow_succ] at ha
      omega
    have h_next : (a >>> 1).toNat ≠ 0 →
        (carry c (qn <<< 1) (rn <<< 1)).1.toNat = 2 * w / c.toNat % 2 ^ 64 ∧
          (carry c (qn <<< 1) (rn <<< 1)).2.toNat = 2 * w % c.toNat := fun h =>
      toNat_doubleShare hc h_qn h_rn (h_doubled h)
    exact ih h_less h_quo' h_rem' h_next h_rest

/-- Adding a share to a sum whose quotient fits. A sum of remainders that does not fit is too small by
`2 ^ 64`, and the quotient does not get smaller. -/
theorem exists_addShare {v w : ℕ} (hc : 0 < c.toNat)
    (h_quo : quo.toNat = v / c.toNat) (h_rem : rem.toNat = v % c.toNat)
    (h_qn : qn.toNat = w / c.toNat) (h_rn : rn.toNat = w % c.toNat)
    (h_lt : (v + w) / c.toNat < 2 ^ 64) :
    ∃ v', (carry c (quo + qn) (rem + rn)).1.toNat = v' / c.toNat ∧
      (carry c (quo + qn) (rem + rn)).2.toNat = v' % c.toNat ∧ v / c.toNat ≤ v' / c.toNat ∧
      (v' = v + w ∧ v % c.toNat + w % c.toNat < 2 ^ 64 ∨ v' + 2 ^ 64 = v + w) := by
  -- the remainders add up without a wrap
  by_cases h_fit : v % c.toNat + w % c.toNat < 2 ^ 64
  · have h_quo' : quo.toNat = v / c.toNat % 2 ^ 64 := by
      rw [← h_quo, Nat.mod_eq_of_lt quo.isLt]
    have h_qn' : qn.toNat = w / c.toNat % 2 ^ 64 := by
      rw [← h_qn, Nat.mod_eq_of_lt qn.isLt]
    obtain ⟨h_fst, h_snd⟩ := toNat_addShare hc h_quo' h_rem h_qn' h_rn h_fit
    rw [Nat.mod_eq_of_lt h_lt] at h_fst
    exact ⟨v + w, h_fst, h_snd, Nat.div_le_div_right (Nat.le_add_right v w), .inl ⟨rfl, h_fit⟩⟩
  · -- the sum of the remainders wraps, and no carry is seen
    have h_rem_lt : v % c.toNat < c.toNat := Nat.mod_lt _ hc
    have h_rn_lt : w % c.toNat < c.toNat := Nat.mod_lt _ hc
    have h_c := c.isLt
    have h_sum : (rem + rn).toNat = v % c.toNat + w % c.toNat - 2 ^ 64 := by
      rw [BitVec.toNat_add, h_rem, h_rn]
      omega
    have h_sum_lt : (rem + rn).toNat < c.toNat := by omega
    obtain ⟨h_fst, h_snd⟩ := toNat_carry c (quo + qn) (rem + rn) (by omega)
    have h_quo_lt : v / c.toNat + w / c.toNat < 2 ^ 64 := by
      rw [← div_add_div_add v w hc] at h_lt
      exact (Nat.le_add_right _ _).trans_lt h_lt
    rw [Nat.div_eq_of_lt h_sum_lt, Nat.add_zero, BitVec.toNat_add, h_quo, h_qn, Nat.mod_mod,
      Nat.mod_eq_of_lt h_quo_lt] at h_fst
    rw [Nat.mod_eq_of_lt h_sum_lt] at h_snd
    refine ⟨c.toNat * (v / c.toNat + w / c.toNat) + (rem + rn).toNat, ?_, ?_, ?_, .inr ?_⟩
    · rw [h_fst, Nat.mul_add_div hc, Nat.div_eq_of_lt h_sum_lt, Nat.add_zero]
    · rw [h_snd, Nat.mul_add_mod, Nat.mod_eq_of_lt h_sum_lt]
    · rw [Nat.mul_add_div hc]
      exact (Nat.le_add_right _ _).trans (Nat.le_add_right _ _)
    · have hv := Nat.div_add_mod v c.toNat
      have hw := Nat.div_add_mod w c.toNat
      rw [h_sum, Nat.mul_add]
      omega

/-- The share of the next bit, whose quotient fits. A doubled remainder that does not fit is too small
by `2 ^ 64`. -/
theorem exists_doubleShare {w : ℕ} (hc : 0 < c.toNat)
    (h_qn : qn.toNat = w / c.toNat) (h_rn : rn.toNat = w % c.toNat)
    (h_lt : 2 * w / c.toNat < 2 ^ 64) :
    ∃ w', (carry c (qn <<< 1) (rn <<< 1)).1.toNat = w' / c.toNat ∧
      (carry c (qn <<< 1) (rn <<< 1)).2.toNat = w' % c.toNat ∧
      (w' = 2 * w ∧ w % c.toNat < 2 ^ 63 ∨ w' + 2 ^ 64 = 2 * w) := by
  -- the remainder is doubled without a wrap
  by_cases h_fit : w % c.toNat < 2 ^ 63
  · have h_qn' : qn.toNat = w / c.toNat % 2 ^ 64 := by
      rw [← h_qn, Nat.mod_eq_of_lt qn.isLt]
    obtain ⟨h_fst, h_snd⟩ := toNat_doubleShare hc h_qn' h_rn h_fit
    rw [Nat.mod_eq_of_lt h_lt] at h_fst
    exact ⟨2 * w, h_fst, h_snd, .inl ⟨rfl, h_fit⟩⟩
  · -- its top bit is lost, and no carry is seen
    have h_rn_lt : w % c.toNat < c.toNat := Nat.mod_lt _ hc
    have h_c := c.isLt
    have h_double : (rn <<< 1).toNat = 2 * (w % c.toNat) - 2 ^ 64 := by
      rw [toNat_double, h_rn]
      omega
    have h_double_lt : (rn <<< 1).toNat < c.toNat := by omega
    obtain ⟨h_fst, h_snd⟩ := toNat_carry c (qn <<< 1) (rn <<< 1) (by omega)
    have h_quo_lt : 2 * (w / c.toNat) < 2 ^ 64 := by
      rw [Nat.two_mul w, ← div_add_div_add w w hc, ← Nat.two_mul] at h_lt
      exact (Nat.le_add_right _ _).trans_lt h_lt
    rw [Nat.div_eq_of_lt h_double_lt, Nat.add_zero, toNat_double, h_qn, Nat.mod_mod,
      Nat.mod_eq_of_lt h_quo_lt] at h_fst
    rw [Nat.mod_eq_of_lt h_double_lt] at h_snd
    refine ⟨c.toNat * (2 * (w / c.toNat)) + (rn <<< 1).toNat, ?_, ?_, .inr ?_⟩
    · rw [h_fst, Nat.mul_add_div hc, Nat.div_eq_of_lt h_double_lt, Nat.add_zero]
    · rw [h_snd, Nat.mul_add_mod, Nat.mod_eq_of_lt h_double_lt]
    · have hw := Nat.div_add_mod w c.toNat
      rw [h_double, Nat.mul_left_comm]
      omega

/-- **The loop, when the quotient fits.** Quotient and remainder make up no more than the sum, and
`2 ^ 64` less when a remainder does not fit. -/
theorem multiplyDivideLoop_lt {v w : ℕ} (rounds : ℕ) (hc : 0 < c.toNat)
    (ha : a.toNat < 2 ^ rounds) (h_quo : quo.toNat = v / c.toNat) (h_rem : rem.toNat = v % c.toNat)
    (h_share : a.toNat ≠ 0 → qn.toNat = w / c.toNat ∧ rn.toNat = w % c.toNat)
    (h_lt : (v + a.toNat * w) / c.toNat < 2 ^ 64) :
    let result := multiplyDivideLoop c rounds a quo rem qn rn
    let total := c.toNat * result.1.toNat + result.2.toNat
    total ≤ v + a.toNat * w ∧ (¬RemaindersFit c.toNat v w a.toNat → total + 2 ^ 64 ≤ v + a.toNat * w) := by
  -- `total` starts from `v`
  have h_sum : c.toNat * quo.toNat + rem.toNat = v := by
    rw [h_quo, h_rem]
    exact Nat.div_add_mod v c.toNat
  -- induction on the rounds, in each of which `2 ^ 64` may be lost
  induction rounds generalizing a quo rem qn rn v w with
  | zero =>
    have h_zero : a.toNat = 0 := by simpa using ha
    rw [multiplyDivideLoop, h_zero, Nat.zero_mul, Nat.add_zero]
    exact ⟨h_sum.le, fun h => absurd remaindersFit_zero h⟩
  | succ rounds ih =>
    rw [multiplyDivideLoop]
    by_cases h_zero : a = 0
    · -- no bit is left
      have h_nat : a.toNat = 0 := by rw [h_zero]; rfl
      rw [if_pos h_zero, h_nat, Nat.zero_mul, Nat.add_zero]
      exact ⟨h_sum.le, fun h => absurd remaindersFit_zero h⟩
    rw [if_neg h_zero]
    have h_ne : a.toNat ≠ 0 := by
      intro h
      exact h_zero (BitVec.eq_of_toNat_eq h)
    obtain ⟨h_qn, h_rn⟩ := h_share h_ne
    have h_total : v + a.toNat * w = v + a.toNat % 2 * w + a.toNat / 2 * (2 * w) := by
      conv_lhs => rw [← Nat.mod_add_div a.toNat 2]
      ring
    -- the sum after this bit
    obtain ⟨v', h_quo', h_rem', h_grows, h_add⟩ :
        let sum := if a &&& 1 ≠ 0 then carry c (quo + qn) (rem + rn) else (quo, rem)
        ∃ v', sum.1.toNat = v' / c.toNat ∧ sum.2.toNat = v' % c.toNat ∧
          v / c.toNat ≤ v' / c.toNat ∧
          (v' = v + a.toNat % 2 * w ∧ (a.toNat % 2 = 1 → v % c.toNat + w % c.toNat < 2 ^ 64) ∨
            v' + 2 ^ 64 = v + a.toNat % 2 * w) := by
      by_cases h_odd : a &&& 1 ≠ 0
      · have h_bit := (odd_iff a).mp h_odd
        rw [if_pos h_odd, h_bit, Nat.one_mul]
        have h_fits : (v + w) / c.toNat < 2 ^ 64 := by
          rw [h_bit, Nat.one_mul] at h_total
          exact (Nat.div_le_div_right (h_total ▸ Nat.le_add_right _ _)).trans_lt h_lt
        obtain ⟨v', h₁, h₂, h₃, h₄⟩ := exists_addShare hc h_quo h_rem h_qn h_rn h_fits
        exact ⟨v', h₁, h₂, h₃, h₄.imp_left fun h => ⟨h.1, fun _ => h.2⟩⟩
      · have h_even : a.toNat % 2 = 0 := by
          have h_ne := (odd_iff a).not.mp h_odd
          omega
        rw [if_neg h_odd, h_even, Nat.zero_mul, Nat.add_zero]
        exact ⟨v, h_quo, h_rem, le_rfl, .inl ⟨rfl, fun h => absurd h Nat.zero_ne_one⟩⟩
    generalize (if a &&& 1 ≠ 0 then carry c (quo + qn) (rem + rn) else (quo, rem)) = sum at *
    obtain ⟨quo', rem'⟩ := sum
    simp only at h_quo' h_rem' ⊢
    -- a quotient that fits does not wrap
    have h_not_less : ¬quo' < quo := by
      rw [BitVec.lt_def, h_quo', h_quo]
      exact not_lt.mpr h_grows
    rw [if_neg h_not_less]
    -- the share of the next bit, if there is one
    obtain ⟨w', h_share', h_double⟩ : ∃ w',
        ((a >>> 1).toNat ≠ 0 → (carry c (qn <<< 1) (rn <<< 1)).1.toNat = w' / c.toNat ∧
          (carry c (qn <<< 1) (rn <<< 1)).2.toNat = w' % c.toNat) ∧
        (w' = 2 * w ∧ (a.toNat / 2 ≠ 0 → w % c.toNat < 2 ^ 63) ∨
          w' + 2 ^ 64 = 2 * w ∧ a.toNat / 2 ≠ 0) := by
      by_cases h_end : a.toNat / 2 = 0
      · rw [toNat_half]
        exact ⟨2 * w, fun h => absurd h_end h, .inl ⟨rfl, fun h => absurd h_end h⟩⟩
      · have h_le : 2 * w ≤ v + a.toNat * w := by
          rw [h_total]
          exact (Nat.le_mul_of_pos_left _ (Nat.pos_of_ne_zero h_end)).trans (Nat.le_add_left _ _)
        obtain ⟨w', h₁, h₂, h₃⟩ := exists_doubleShare hc h_qn h_rn
          ((Nat.div_le_div_right h_le).trans_lt h_lt)
        exact ⟨w', fun _ => ⟨h₁, h₂⟩, h₃.imp (fun h => ⟨h.1, fun _ => h.2⟩) fun h => ⟨h, h_end⟩⟩
    -- the other rounds lose no less
    have h_less : (a >>> 1).toNat < 2 ^ rounds := by
      rw [toNat_half]
      rw [Nat.pow_succ] at ha
      omega
    have h_le_v : v' ≤ v + a.toNat % 2 * w := h_add.elim (fun h => h.1.le) fun h => by omega
    have h_le_w : w' ≤ 2 * w := h_double.elim (fun h => h.1.le) fun h => by omega
    have h_le : v' + (a >>> 1).toNat * w' ≤ v + a.toNat * w := by
      rw [h_total, toNat_half]
      exact Nat.add_le_add h_le_v (Nat.mul_le_mul_left _ h_le_w)
    have h_sum' : c.toNat * quo'.toNat + rem'.toNat = v' := by
      rw [h_quo', h_rem']
      exact Nat.div_add_mod v' c.toNat
    obtain ⟨h_rest, h_rest_lt⟩ := ih h_less h_quo' h_rem' h_share'
      ((Nat.div_le_div_right h_le).trans_lt h_lt) h_sum'
    refine ⟨h_rest.trans h_le, fun h_not_fit => ?_⟩
    -- something is lost at this bit, or at one of the others
    rcases h_add with ⟨rfl, h_added⟩ | h_lost
    · rcases h_double with ⟨rfl, h_doubled⟩ | ⟨h_lost, h_end⟩
      · refine (h_rest_lt fun h_fit => ?_).trans h_le
        rw [toNat_half] at h_fit
        exact h_not_fit (remaindersFit_iff.mpr ⟨h_doubled, h_added, h_fit⟩)
      · refine (Nat.add_le_add_right h_rest _).trans ?_
        rw [h_total, toNat_half, ← h_lost, Nat.mul_add]
        have h_mul := Nat.le_mul_of_pos_left (2 ^ 64) (Nat.pos_of_ne_zero h_end)
        omega
    · refine (Nat.add_le_add_right h_rest _).trans ?_
      rw [h_total, toNat_half]
      have h_mul := Nat.mul_le_mul_left (a.toNat / 2) h_le_w
      omega

end Loop

/-! ### The functions -/

/-- A result that does not fit saturates. -/
def saturate (n : ℕ) : ℕ := min n (2 ^ 64 - 1)

/-- The results for `a * b / c` over the exact product: quotient and remainder, and the quotient
rounded down, up and to the nearest, half up. -/
structure MultiplyDivideExact (a b c : Long) : Prop where
  multiplyDivide : ∃ quo rem, multiplyDivide a b c = some (quo, rem) ∧
    quo.toNat = saturate (a.toNat * b.toNat / c.toNat) ∧
    (a.toNat * b.toNat / c.toNat < 2 ^ 64 → rem.toNat = a.toNat * b.toNat % c.toNat)
  floor : ∃ l, multiplyDivideFloor a b c = some l ∧
    l.toNat = saturate (a.toNat * b.toNat / c.toNat)
  ceil : ∃ l, multiplyDivideCeil a b c = some l ∧
    l.toNat = saturate (a.toNat * b.toNat ⌈/⌉ c.toNat)
  round : ∃ l, multiplyDivideRound a b c = some l ∧
    l.toNat = saturate ((2 * (a.toNat * b.toNat) + c.toNat) / (2 * c.toNat))
  multiplyByLong : ∀ h : c ≠ 0, ((Rational.mk b c h).multiplyByLong a).toNat =
    saturate (a.toNat * b.toNat / c.toNat)
  multiplyByLongCeil : ∀ h : c ≠ 0, ((Rational.mk b c h).multiplyByLongCeil a).toNat =
    saturate (a.toNat * b.toNat ⌈/⌉ c.toNat)

/-- **No bit is lost**: the remainders fit, and a quotient that does not fit is seen to overflow, or
saturated anyway. -/
def MultiplyDivideFits (a b c : Long) : Prop :=
  RemaindersFit c.toNat 0 b.toNat a.toNat ∧
    (a.toNat * b.toNat / c.toNat < 2 ^ 64 ∨ OverflowSeen c.toNat 0 b.toNat a.toNat ∨
      a.toNat * b.toNat / c.toNat % 2 ^ 64 = 2 ^ 64 - 1)

section Functions

variable {a b c : Long}

theorem toNat_pos {l : Long} (h : l ≠ 0) : 0 < l.toNat := by
  apply Nat.pos_of_ne_zero
  intro h_zero
  exact h (BitVec.eq_of_toNat_eq h_zero)

/-- Rounding up adds one when there is a remainder. -/
theorem ceilDiv_eq (n : ℕ) {c : ℕ} (hc : 0 < c) : n ⌈/⌉ c = n / c + if n % c = 0 then 0 else 1 := by
  have h_div := Nat.div_add_mod n c
  have h_mod := Nat.mod_lt n hc
  rw [Nat.ceilDiv_eq_add_pred_div]
  split
  · next h_zero =>
    rw [Nat.add_zero]
    exact Nat.div_eq_of_lt_le (by rw [Nat.mul_comm]; omega) (by rw [Nat.succ_mul, Nat.mul_comm]; omega)
  · next h_pos =>
    exact Nat.div_eq_of_lt_le (by rw [Nat.succ_mul, Nat.mul_comm]; omega)
      (by rw [Nat.succ_mul, Nat.succ_mul, Nat.mul_comm]; omega)

/-- Rounding to the nearest adds one when the remainder is at least half of the divisor. -/
theorem roundDiv_eq (n : ℕ) {c : ℕ} (hc : 0 < c) :
    (2 * n + c) / (2 * c) = n / c + if c ≤ 2 * (n % c) then 1 else 0 := by
  have h_div := Nat.div_add_mod n c
  have h_mod := Nat.mod_lt n hc
  have h_next : ∀ k, (n / c + k) * (2 * c) = 2 * (c * (n / c)) + 2 * (k * c) := by
    intro k
    ring
  split
  · next h_half =>
    refine Nat.div_eq_of_lt_le ?_ ?_
    · rw [h_next]
      omega
    · rw [Nat.add_assoc, h_next]
      omega
  · next h_half =>
    refine Nat.div_eq_of_lt_le ?_ ?_
    · rw [h_next]
      omega
    · rw [Nat.add_assoc, h_next]
      omega

/-- One more, unless the quotient is the largest there is. -/
theorem toNat_add_ite {quo : Long} {n k : ℕ} {p : Prop} [Decidable p]
    (h_quo : quo.toNat = saturate n) (h : n < 2 ^ 64 → (k = if p then n + 1 else n))
    (h_le : n ≤ k) :
    (if quo = maxUnsignedValue then quo else if p then quo + 1 else quo).toNat = saturate k := by
  unfold saturate at h_quo ⊢
  have h_top : quo = maxUnsignedValue ↔ quo.toNat = 2 ^ 64 - 1 := by
    rw [← BitVec.toNat_inj, toNat_maxUnsignedValue]
  have h_lt := quo.isLt
  have h_one : (1 : Long).toNat = 1 := rfl
  by_cases h_max : quo = maxUnsignedValue
  · rw [if_pos h_max, h_top.mp h_max]
    have h_nat := h_top.mp h_max
    omega
  · rw [if_neg h_max]
    have h_nat := h_top.not.mp h_max
    have h_fits : n < 2 ^ 64 := by omega
    rw [h h_fits]
    split
    · rw [BitVec.toNat_add, h_one, Nat.mod_eq_of_lt (by omega)]
      omega
    · exact h_quo

/-- The other results follow from quotient and remainder. -/
theorem MultiplyDivideExact.of_multiplyDivide {quo rem : Long} (hc : c ≠ 0)
    (h_eq : Stream.multiplyDivide a b c = some (quo, rem))
    (h_quo : quo.toNat = saturate (a.toNat * b.toNat / c.toNat))
    (h_rem : a.toNat * b.toNat / c.toNat < 2 ^ 64 → rem.toNat = a.toNat * b.toNat % c.toNat) :
    MultiplyDivideExact a b c := by
  have h_pos := toNat_pos hc
  -- rounding down takes the quotient
  have h_floor : multiplyDivideFloor a b c = some quo := by
    rw [multiplyDivideFloor, h_eq, Option.map_some]
  have h_zero : rem = 0 ↔ rem.toNat = 0 := by
    rw [← BitVec.toNat_inj]
    rfl
  -- rounding up adds one if a remainder is left
  have h_ceil : ∃ l, multiplyDivideCeil a b c = some l ∧
      l.toNat = saturate (a.toNat * b.toNat ⌈/⌉ c.toNat) := by
    refine ⟨_, by rw [multiplyDivideCeil, h_eq, Option.map_some], ?_⟩
    have h_add : ∀ q : Long, (q + if rem = 0 then 0 else 1) = if rem ≠ 0 then q + 1 else q := by
      intro q
      by_cases h : rem = 0
      · rw [if_pos h, if_neg (not_not.mpr h)]
        exact add_zero q
      · rw [if_neg h, if_pos h]
    simp only [h_add]
    rw [ceilDiv_eq _ h_pos]
    refine toNat_add_ite h_quo (fun h_fits => ?_) (Nat.le_add_right _ _)
    by_cases h : rem = 0
    · rw [if_neg (not_not.mpr h), ← h_rem h_fits, if_pos (h_zero.mp h), Nat.add_zero]
    · rw [if_pos h, ← h_rem h_fits, if_neg (h_zero.not.mp h)]
  -- rounding to the nearest adds one if the remainder is at least half of the divisor
  have h_round : ∃ l, multiplyDivideRound a b c = some l ∧
      l.toNat = saturate ((2 * (a.toNat * b.toNat) + c.toNat) / (2 * c.toNat)) := by
    refine ⟨_, by rw [multiplyDivideRound, h_eq, Option.map_some], ?_⟩
    rw [roundDiv_eq _ h_pos]
    refine toNat_add_ite h_quo (fun h_fits => ?_) (Nat.le_add_right _ _)
    -- the comparison with half of the divisor depends on whether that is odd
    have h_half : (rem ≠ 0 ∧ if c &&& 1 ≠ 0 then rem > c / 2 else rem ≥ c / 2) ↔
        c.toNat ≤ 2 * (a.toNat * b.toNat % c.toNat) := by
      have h_two : (c / 2).toNat = c.toNat / 2 := BitVec.toNat_udiv
      rw [← h_rem h_fits, Ne, h_zero]
      by_cases h_odd : c &&& 1 ≠ 0
      · have h_bit := (odd_iff c).mp h_odd
        rw [if_pos h_odd, gt_iff_lt, BitVec.lt_def, h_two]
        omega
      · have h_bit := (odd_iff c).not.mp h_odd
        rw [if_neg h_odd, ge_iff_le, BitVec.le_def, h_two]
        omega
    simp only [h_half]
    split <;> rfl
  refine ⟨⟨quo, rem, h_eq, h_quo, h_rem⟩, ⟨quo, h_floor, h_quo⟩, h_ceil, h_round, fun h => ?_,
    fun h => ?_⟩
  · change ((multiplyDivideFloor a b c).getD 0).toNat = _
    rw [h_floor]
    exact h_quo
  · obtain ⟨l, h_l, h_toNat⟩ := h_ceil
    change ((multiplyDivideCeil a b c).getD 0).toNat = _
    rw [h_l]
    exact h_toNat

/-- What `multiplyDivide` returns when the remainders fit. -/
theorem multiplyDivide_of_fit (hc : c ≠ 0) (h_fit : RemaindersFit c.toNat 0 b.toNat a.toNat) :
    ∃ quo rem, multiplyDivide a b c = some (quo, rem) ∧
      (OverflowSeen c.toNat 0 b.toNat a.toNat → quo = maxUnsignedValue) ∧
      (¬OverflowSeen c.toNat 0 b.toNat a.toNat →
        quo.toNat = a.toNat * b.toNat / c.toNat % 2 ^ 64 ∧
          rem.toNat = a.toNat * b.toNat % c.toNat) := by
  have h_pos := toNat_pos hc
  have h_quo : (0 : Long).toNat = 0 / c.toNat % 2 ^ 64 := by
    rw [Nat.zero_div]
    rfl
  have h_rem : (0 : Long).toNat = 0 % c.toNat := (Nat.zero_mod _).symm
  have h_qn : (b / c).toNat = b.toNat / c.toNat % 2 ^ 64 := by
    have h_udiv : (b / c).toNat = b.toNat / c.toNat := BitVec.toNat_udiv
    rw [← h_udiv, Nat.mod_eq_of_lt (b / c).isLt]
  obtain ⟨h_seen, h_not⟩ := multiplyDivideLoop_of_fit 64 h_pos a.isLt h_quo h_rem
    (fun _ => ⟨h_qn, BitVec.toNat_umod⟩) h_fit
  rw [Nat.zero_add] at h_not
  refine ⟨_, _, by rw [multiplyDivide, if_neg hc], fun h => ?_, h_not⟩
  rw [h_seen h]

/-- The results are exact while no bit is lost. -/
theorem MultiplyDivideExact.of_fits (hc : c ≠ 0) (h : MultiplyDivideFits a b c) :
    MultiplyDivideExact a b c := by
  obtain ⟨h_fit, h_quotient⟩ := h
  obtain ⟨quo, rem, h_eq, h_seen, h_not⟩ := multiplyDivide_of_fit hc h_fit
  by_cases h_over : OverflowSeen c.toNat 0 b.toNat a.toNat
  · -- what overflows on the way does not fit in the end
    have h_ge : 2 ^ 64 ≤ a.toNat * b.toNat / c.toNat := by
      by_contra h_fits
      refine not_overflowSeen ?_ h_over
      rw [Nat.zero_add]
      exact not_le.mp h_fits
    refine .of_multiplyDivide hc h_eq ?_ fun h => absurd h (not_lt.mpr h_ge)
    rw [h_seen h_over, toNat_maxUnsignedValue, saturate,
      Nat.min_eq_right ((Nat.sub_le _ 1).trans h_ge)]
  · obtain ⟨h_quo, h_rem⟩ := h_not h_over
    refine .of_multiplyDivide hc h_eq ?_ fun _ => h_rem
    rw [h_quo]
    unfold saturate
    rcases h_quotient with h | h | h
    · rw [Nat.mod_eq_of_lt h, Nat.min_eq_left (Nat.le_sub_one_of_lt h)]
    · exact absurd h h_over
    · rw [h, Nat.min_eq_right (h.symm.le.trans (Nat.mod_le _ _))]

/-- A quotient that fits does not come out larger than it is, and smaller when a remainder does not
fit: what is lost is more than the divisor. -/
theorem toNat_multiplyDivideFloor (hc : c ≠ 0) (h_fits : a.toNat * b.toNat / c.toNat < 2 ^ 64) :
    ((multiplyDivideFloor a b c).getD 0).toNat ≤ a.toNat * b.toNat / c.toNat ∧
      (¬RemaindersFit c.toNat 0 b.toNat a.toNat →
        ((multiplyDivideFloor a b c).getD 0).toNat < a.toNat * b.toNat / c.toNat) := by
  have h_pos := toNat_pos hc
  have h_quo₀ : (0 : Long).toNat = 0 / c.toNat := (Nat.zero_div _).symm
  have h_rem₀ : (0 : Long).toNat = 0 % c.toNat := (Nat.zero_mod _).symm
  obtain ⟨h_le, h_lost⟩ := multiplyDivideLoop_lt 64 h_pos a.isLt h_quo₀ h_rem₀
    (fun _ => ⟨BitVec.toNat_udiv (x := b) (y := c), BitVec.toNat_umod⟩)
    (by rwa [Nat.zero_add])
  rw [Nat.zero_add] at h_le h_lost
  unfold multiplyDivideFloor Stream.multiplyDivide
  rw [if_neg hc, Option.map_some, Option.getD_some]
  constructor
  · rw [Nat.le_div_iff_mul_le h_pos, Nat.mul_comm]
    exact (Nat.le_add_right _ _).trans h_le
  · intro h_not_fit
    have h_less := h_lost h_not_fit
    have h_c := c.isLt
    rw [Nat.lt_iff_add_one_le, Nat.le_div_iff_mul_le h_pos, Nat.mul_comm, Nat.mul_add]
    omega

/-- A quotient that fits and comes out has lost nothing. -/
theorem remaindersFit_of_floor (hc : c ≠ 0) (h_fits : a.toNat * b.toNat / c.toNat < 2 ^ 64)
    (h : ((multiplyDivideFloor a b c).getD 0).toNat = a.toNat * b.toNat / c.toNat) :
    RemaindersFit c.toNat 0 b.toNat a.toNat := by
  by_contra h_not_fit
  have h_lt := (toNat_multiplyDivideFloor hc h_fits).2 h_not_fit
  exact h_lt.ne h

theorem MultiplyDivideExact.remaindersFit (hc : c ≠ 0) (h : MultiplyDivideExact a b c)
    (h_fits : a.toNat * b.toNat / c.toNat < 2 ^ 64) : RemaindersFit c.toNat 0 b.toNat a.toNat := by
  obtain ⟨quo, h_quo, h_toNat⟩ := h.floor
  apply remaindersFit_of_floor hc h_fits
  rw [h_quo, Option.getD_some, h_toNat, saturate, Nat.min_eq_left (Nat.le_sub_one_of_lt h_fits)]

/-- When the remainders fit, an overflow has to be seen, unless the quotient wraps around to the
largest one. -/
theorem MultiplyDivideExact.fits (hc : c ≠ 0) (h : MultiplyDivideExact a b c)
    (h_fit : RemaindersFit c.toNat 0 b.toNat a.toNat) : MultiplyDivideFits a b c := by
  refine ⟨h_fit, ?_⟩
  by_contra h_not
  obtain ⟨h_over, h_not⟩ := not_or.mp h_not
  obtain ⟨h_unseen, h_top⟩ := not_or.mp h_not
  obtain ⟨quo, rem, h_eq, h_quo, -⟩ := h.multiplyDivide
  obtain ⟨quo', rem', h_eq', -, h_not_seen⟩ := multiplyDivide_of_fit hc h_fit
  rw [h_eq] at h_eq'
  cases h_eq'
  rw [(h_not_seen h_unseen).1, saturate, Nat.min_eq_right (by omega)] at h_quo
  exact h_top h_quo

/-- By a divisor up to `2 ^ 63`, with a largest share that fits, all results are exact. -/
theorem MultiplyDivideExact.of_share (hc : c ≠ 0) (hc' : c.toNat ≤ 2 ^ 63)
    (h_last : b.toNat * 2 ^ 63 < c.toNat * (2 ^ 64 - 1)) : MultiplyDivideExact a b c := by
  have h_pos := toNat_pos hc
  refine .of_fits hc ⟨.of_le h_pos hc', ?_⟩
  by_cases h_fits : a.toNat * b.toNat / c.toNat < 2 ^ 64
  · exact .inl h_fits
  · refine .inr (.inl (.of_shares h_pos ?_ ?_ a.isLt fun i hi => ?_))
    · rw [Nat.zero_div]
      exact Nat.two_pow_pos 64
    · rw [Nat.zero_add]
      exact not_lt.mp h_fits
    · have h_pow : b.toNat * 2 ^ i ≤ b.toNat * 2 ^ 63 :=
        Nat.mul_le_mul_left _ (Nat.pow_le_pow_right Nat.two_pos (Nat.le_of_lt_succ hi))
      exact (Nat.div_lt_iff_lt_mul h_pos).mpr (by linarith)

/-- **When the results are exact**: while no bit is lost. By a divisor up to `2 ^ 63`, and when the
quotient fits, only then. -/
theorem multiplyDivide_exact (hc : c ≠ 0) :
    (MultiplyDivideFits a b c → MultiplyDivideExact a b c) ∧
      (c.toNat ≤ 2 ^ 63 ∨ a.toNat * b.toNat / c.toNat < 2 ^ 64 →
        MultiplyDivideExact a b c → MultiplyDivideFits a b c) := by
  refine ⟨.of_fits hc, fun h_case h => h.fits hc ?_⟩
  rcases h_case with h_le | h_fits
  · exact .of_le (toNat_pos hc) h_le
  · exact h.remaindersFit hc h_fits

end Functions

/-- The product of `7` and `2 ^ 63` by `2 ^ 63` loses nothing. -/
theorem multiplyDivide_exact_large :
    MultiplyDivideExact 7 0x8000000000000000 0x8000000000000000 :=
  (multiplyDivide_exact (by decide)).1 ⟨.of_le (by decide) (by decide), .inl (by decide)⟩

/-- **A doubled remainder is lost**: twice `2 ^ 63` by `2 ^ 63 + 1` is one, with a remainder. -/
theorem multiplyDivide_loses_remainder :
    multiplyDivide 2 0x8000000000000000 0x8000000000000001 = some (0, 0) ∧
      ¬MultiplyDivideExact 2 0x8000000000000000 0x8000000000000001 := by
  have h_eq : multiplyDivide 2 0x8000000000000000 0x8000000000000001 = some (0, 0) := by decide
  refine ⟨h_eq, fun h => ?_⟩
  obtain ⟨quo, rem, h_eq', h_quo, -⟩ := h.multiplyDivide
  rw [h_eq] at h_eq'
  cases h_eq'
  exact absurd h_quo (by decide)

/-- An overflow that is not seen: `2 ^ 65` comes out as zero. -/
example : multiplyDivide 0x8000000000000000 4 1 = some (0, 0) := by decide +kernel

end Interledger.Stream
