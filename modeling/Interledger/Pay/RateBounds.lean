import Interledger.Lib.RateInterval
import Interledger.Pay.Controllers
import Mathlib.Data.Rat.Floor

/-!
# The bounds of the exchange rate

`ExchangeRateController` keeps a half-open interval of rates. A reply tells the interval of the rates that
deliver what it reports, and the controller keeps what both have in common, or starts over from the reply
when that is nothing (`rates_applyReply`). The four estimates are then the extreme amounts over the interval.

## Main results

* `rates_applyReply`, `lower_lt_upper` — the interval after a reply, which is never empty;
* `ExchangeRateController.sound_and_tight` — a constant rate stays within the bounds, and the estimates are
  the best that the bounds allow.
-/

namespace Interledger.Pay

open RateInterval

/-- The rational number that a ratio stands for. -/
def Ratio.toRat (r : Ratio) : ℚ := r.a / r.b

namespace Ratio

variable (r s : Ratio)

theorem cast_b_pos : (0 : ℚ) < r.b := Nat.cast_pos.mpr r.b_pos

theorem toRat_nonneg : 0 ≤ r.toRat := div_nonneg r.a.cast_nonneg r.b.cast_nonneg

theorem toRat_pos_iff : 0 < r.toRat ↔ 0 < r.a := by
  rw [toRat, div_pos_iff_of_pos_right r.cast_b_pos, Nat.cast_pos]

theorem toRat_lt_toRat_iff : r.toRat < s.toRat ↔ r.a * s.b < r.b * s.a := by
  rw [toRat, toRat, div_lt_div_iff₀ r.cast_b_pos s.cast_b_pos, mul_comm r.b]
  exact_mod_cast Iff.rfl

theorem isLessThan_iff : r.isLessThan s ↔ r.toRat < s.toRat := by
  rw [toRat_lt_toRat_iff, isLessThan, decide_eq_true_eq]

theorem isGreaterThan_iff : r.isGreaterThan s ↔ s.toRat < r.toRat := by
  rw [toRat_lt_toRat_iff, isGreaterThan, decide_eq_true_eq, mul_comm s.a, mul_comm s.b]

theorem isLessThanOrEqualTo_iff : r.isLessThanOrEqualTo s ↔ r.toRat ≤ s.toRat := by
  rw [← not_lt, toRat_lt_toRat_iff, isLessThanOrEqualTo, decide_eq_true_eq, not_lt, mul_comm s.a, mul_comm s.b]

theorem isGreaterThanOrEqualTo_iff : r.isGreaterThanOrEqualTo s ↔ s.toRat ≤ r.toRat := by
  rw [← not_lt, toRat_lt_toRat_iff, isGreaterThanOrEqualTo, decide_eq_true_eq, not_lt]

end Ratio

theorem PositiveRatio.toRat_pos (r : PositiveRatio) : 0 < r.toRat := r.toRatio.toRat_pos_iff.mpr r.a_pos

theorem PositiveRatio.toRat_reciprocal (r : PositiveRatio) : r.reciprocal.toRat = r.toRat⁻¹ :=
  (inv_div _ _).symm

/-- `multiplyFloor` rounds the product down, -/
theorem multiplyFloor_eq_floor (n : ℕ) (r : Ratio) : multiplyFloor n r = ⌊r.toRat * n⌋₊ := by
  apply eq_of_forall_le_iff
  intro k
  rw [le_multiplyFloor_iff, Nat.le_floor_iff (mul_nonneg r.toRat_nonneg n.cast_nonneg), Ratio.toRat,
    div_mul_eq_mul_div, le_div_iff₀ r.cast_b_pos, mul_comm n]
  exact_mod_cast Iff.rfl

/-- and `multiplyCeil` rounds it up. -/
theorem multiplyCeil_eq_ceil (n : ℕ) (r : Ratio) : multiplyCeil n r = ⌈r.toRat * n⌉₊ := by
  apply eq_of_forall_ge_iff
  intro k
  rw [multiplyCeil_le_iff, Nat.ceil_le, Ratio.toRat, div_mul_eq_mul_div, div_le_iff₀ r.cast_b_pos, mul_comm n]
  exact_mod_cast Iff.rfl

namespace ExchangeRateController

variable (c : ExchangeRateController)

/-- The rates within the bounds. -/
def rates : Set ℚ := Set.Ico c.lowerBoundRate.toRat c.upperBoundRate.toRat

/-- The lower bound is below the upper. -/
def Sound : Prop := c.lowerBoundRate.toRat < c.upperBoundRate.toRat

/-- The interval of the rates that deliver `destinationAmount`. -/
def packetRates (sourceAmount destinationAmount : ℕ) : Set ℚ :=
  Set.Ico ((destinationAmount : ℚ) / sourceAmount) ((destinationAmount + 1) / sourceAmount)

/-- The branch of `applyReply` that starts over is taken. -/
def Resets (sourceAmount : ℕ) (reply : StreamReply) : Prop :=
  ∃ destinationAmount, 0 < sourceAmount ∧ reply.destinationAmount = some destinationAmount ∧
    ((destinationAmount + 1 : ℚ) / sourceAmount ≤ c.lowerBoundRate.toRat ∨
      c.upperBoundRate.toRat ≤ (destinationAmount : ℚ) / sourceAmount)

/-- The controller after a number of replies, in the order in which they come in. -/
def applyReplies (replies : List (ℕ × StreamReply)) : ExchangeRateController :=
  replies.foldl (fun c p => c.applyReply p.1 p.2) c

variable {c} {sourceAmount destinationAmount : ℕ} {reply : StreamReply}

/-! ### One reply -/

/-- A reply without an amount, or to a packet without one, changes nothing. -/
theorem applyReply_of_none (h : sourceAmount = 0 ∨ reply.destinationAmount = none) :
    c.applyReply sourceAmount reply = c := by
  unfold applyReply
  rcases h with h_zero | h_none
  · rw [dif_neg (by omega)]
  · split
    · rw [h_none]
    · rfl

/-- **All that a reply does to the bounds**: it replaces them, or moves each to the tighter of the two. -/
theorem applyReply_bounds (h_pos : 0 < sourceAmount) (h : reply.destinationAmount = some destinationAmount) :
    (c.Resets sourceAmount reply ∧
      (c.applyReply sourceAmount reply).lowerBoundRate.toRat = (destinationAmount : ℚ) / sourceAmount ∧
      (c.applyReply sourceAmount reply).upperBoundRate.toRat = (destinationAmount + 1 : ℚ) / sourceAmount) ∨
    (¬c.Resets sourceAmount reply ∧
      (c.applyReply sourceAmount reply).lowerBoundRate.toRat =
        max c.lowerBoundRate.toRat ((destinationAmount : ℚ) / sourceAmount) ∧
      (c.applyReply sourceAmount reply).upperBoundRate.toRat =
        min c.upperBoundRate.toRat ((destinationAmount + 1 : ℚ) / sourceAmount)) := by
  have h_upper : Ratio.toRat { a := destinationAmount + 1, b := sourceAmount, b_pos := h_pos } =
      (destinationAmount + 1 : ℚ) / sourceAmount := by
    rw [Ratio.toRat, Nat.cast_succ]
  have h_lower : Ratio.toRat { a := destinationAmount, b := sourceAmount, b_pos := h_pos } =
      (destinationAmount : ℚ) / sourceAmount := rfl
  have h_resets : c.Resets sourceAmount reply ↔
      ((destinationAmount + 1 : ℚ) / sourceAmount ≤ c.lowerBoundRate.toRat ∨
        c.upperBoundRate.toRat ≤ (destinationAmount : ℚ) / sourceAmount) := by
    constructor
    · rintro ⟨d, -, h_some, h_out⟩
      rwa [Option.some.inj (h.symm.trans h_some)]
    · exact fun h_out => ⟨destinationAmount, h_pos, h, h_out⟩
  unfold applyReply
  rw [dif_pos h_pos, h, h_resets]
  simp only [Bool.or_eq_true, Ratio.isLessThanOrEqualTo_iff, Ratio.isGreaterThanOrEqualTo_iff,
    Ratio.isGreaterThan_iff, Ratio.isLessThan_iff, h_upper, h_lower]
  -- the rate of the packet is outside of the bounds, or it narrows them
  by_cases h_out : (destinationAmount + 1 : ℚ) / sourceAmount ≤ c.lowerBoundRate.toRat ∨
      c.upperBoundRate.toRat ≤ (destinationAmount : ℚ) / sourceAmount
  · left
    refine ⟨h_out, ?_⟩
    rw [if_pos h_out]
    exact ⟨rfl, h_upper⟩
  · right
    refine ⟨h_out, ?_⟩
    rw [if_neg h_out]
    constructor
    · rw [max_def_lt, apply_ite Ratio.toRat, h_lower]
    · rw [min_comm, min_def_lt, apply_ite PositiveRatio.toRatio, apply_ite Ratio.toRat, h_upper]

theorem packet_lt (h_pos : 0 < sourceAmount) (destinationAmount : ℕ) :
    (destinationAmount : ℚ) / sourceAmount < (destinationAmount + 1) / sourceAmount :=
  div_lt_div_of_pos_right (lt_add_one _) (Nat.cast_pos.mpr h_pos)

/-- The lower bound stays below the upper. -/
theorem Sound.applyReply (h : c.Sound) (sourceAmount : ℕ) (reply : StreamReply) :
    (c.applyReply sourceAmount reply).Sound := by
  rcases Nat.eq_zero_or_pos sourceAmount with h_zero | h_pos
  · rwa [applyReply_of_none (.inl h_zero)]
  cases h_some : reply.destinationAmount with
  | none => rwa [applyReply_of_none (.inr h_some)]
  | some destinationAmount =>
    have h_packet := packet_lt h_pos destinationAmount
    unfold Sound
    rcases applyReply_bounds h_pos h_some with ⟨-, h_lower, h_upper⟩ | ⟨h_not, h_lower, h_upper⟩
    · rwa [h_lower, h_upper]
    · -- neither bound of the packet is past the other bound of the controller
      have h_in : ¬((destinationAmount + 1 : ℚ) / sourceAmount ≤ c.lowerBoundRate.toRat ∨
          c.upperBoundRate.toRat ≤ (destinationAmount : ℚ) / sourceAmount) :=
        fun h_out => h_not ⟨destinationAmount, h_pos, h_some, h_out⟩
      obtain ⟨h_above, h_below⟩ := not_or.mp h_in
      rw [h_lower, h_upper, max_lt_iff, lt_min_iff, lt_min_iff]
      exact ⟨⟨h, not_le.mp h_above⟩, not_le.mp h_below, h_packet⟩

open scoped Classical in
/-- **The interval after a reply**: what it has in common with that of the reply, or the latter if that is
nothing. -/
theorem rates_applyReply (h_sound : c.Sound) (h_pos : 0 < sourceAmount)
    (h : reply.destinationAmount = some destinationAmount) :
    (c.applyReply sourceAmount reply).rates =
      if (c.rates ∩ packetRates sourceAmount destinationAmount).Nonempty then
        c.rates ∩ packetRates sourceAmount destinationAmount
      else packetRates sourceAmount destinationAmount := by
  have h_packet := packet_lt h_pos destinationAmount
  rcases applyReply_bounds h_pos h with ⟨⟨d, -, h_some, h_out⟩, h_lower, h_upper⟩ | ⟨h_not, h_lower, h_upper⟩
  · obtain rfl := Option.some.inj (h.symm.trans h_some)
    rw [if_neg, rates, h_lower, h_upper]
    · rfl
    · -- the intervals have nothing in common
      rintro ⟨r, h_c, h_r⟩
      rcases h_out with h_below | h_above
      · exact absurd (h_c.1.trans_lt h_r.2) (not_lt.mpr h_below)
      · exact absurd (h_r.1.trans_lt h_c.2) (not_lt.mpr h_above)
  · -- the bounds that are narrowed are those of the intersection
    have h_inter : c.rates ∩ packetRates sourceAmount destinationAmount =
        (c.applyReply sourceAmount reply).rates := by
      rw [rates, rates, packetRates, Set.Ico_inter_Ico, h_lower, h_upper]
    rw [h_inter, if_pos]
    exact Set.nonempty_Ico.mpr (h_sound.applyReply sourceAmount reply)

/-- So it does over any number of replies. -/
theorem Sound.applyReplies (h : c.Sound) (replies : List (ℕ × StreamReply)) :
    (c.applyReplies replies).Sound := by
  induction replies generalizing c with
  | nil => exact h
  | cons p replies ih => exact ih (h.applyReply p.1 p.2)

theorem sound_new : Sound {} := by
  unfold Sound Ratio.toRat
  norm_num [maxU64]

/-! ### A constant rate -/

/-- The recipient reports what the rate delivers. -/
def Reports (r : ℚ) (p : ℕ × StreamReply) : Prop :=
  ∀ destinationAmount, p.2.destinationAmount = some destinationAmount → 0 < p.1 →
    destinationAmount = ⌊r * p.1⌋₊

/-- **A rate that is reported** stays within the bounds, which are not given up and only get tighter. -/
theorem applyReply_of_reports {r : ℚ} {p : ℕ × StreamReply} (h : r ∈ c.rates) (h_reports : Reports r p) :
    r ∈ (c.applyReply p.1 p.2).rates ∧ ¬c.Resets p.1 p.2 ∧
      c.lowerBoundRate.toRat ≤ (c.applyReply p.1 p.2).lowerBoundRate.toRat ∧
      (c.applyReply p.1 p.2).upperBoundRate.toRat ≤ c.upperBoundRate.toRat := by
  have h_nonneg : 0 ≤ r := c.lowerBoundRate.toRat_nonneg.trans h.1
  -- nothing is learnt from a packet of 0, or from a reply without an amount
  by_cases h_none : p.1 = 0 ∨ p.2.destinationAmount = none
  · rw [applyReply_of_none h_none]
    refine ⟨h, ?_, le_rfl, le_rfl⟩
    rintro ⟨d, h_pos, h_some, -⟩
    rcases h_none with h_zero | h_none
    · omega
    · rw [h_none] at h_some
      cases h_some
  obtain ⟨h_ne, h_some⟩ := not_or.mp h_none
  obtain ⟨d, h_some⟩ := Option.ne_none_iff_exists'.mp h_some
  have h_pos := Nat.pos_of_ne_zero h_ne
  -- the rate is one of those that the reply allows
  have h_packet := (floor_mul_eq_iff h_nonneg h_pos).mp (h_reports d h_some h_pos).symm
  -- so that the intervals have that rate in common
  have h_not : ¬c.Resets p.1 p.2 := by
    rintro ⟨d', -, h_some', h_out⟩
    obtain rfl := Option.some.inj (h_some.symm.trans h_some')
    rcases h_out with h_below | h_above
    · exact absurd (h.1.trans_lt h_packet.2) (not_lt.mpr h_below)
    · exact absurd (h_packet.1.trans_lt h.2) (not_lt.mpr h_above)
  rcases applyReply_bounds h_pos h_some with ⟨h_resets, -⟩ | ⟨-, h_lower, h_upper⟩
  · exact absurd h_resets h_not
  · refine ⟨?_, h_not, ?_, ?_⟩
    · rw [rates, h_lower, h_upper, ← Set.Ico_inter_Ico]
      exact ⟨h, h_packet⟩
    · rw [h_lower]
      exact le_max_left _ _
    · rw [h_upper]
      exact min_le_left _ _

theorem mem_rates_applyReplies {r : ℚ} {replies : List (ℕ × StreamReply)} (h : r ∈ c.rates)
    (h_reports : ∀ p ∈ replies, Reports r p) : r ∈ (c.applyReplies replies).rates := by
  induction replies generalizing c with
  | nil => exact h
  | cons p replies ih =>
    have h_first := (applyReply_of_reports h (h_reports p List.mem_cons_self)).1
    exact ih h_first fun p' h_mem => h_reports p' (List.mem_cons_of_mem p h_mem)

/-! ### The estimates -/

/-- **What an amount delivers**: the two estimates are the least and the greatest amount. -/
theorem estimateDestinationAmount_spec (h : c.Sound) (sourceAmount : ℕ) :
    IsLeast ((fun r : ℚ => min ⌊r * sourceAmount⌋₊ maxU64) '' c.rates)
        (c.estimateDestinationAmount sourceAmount).1 ∧
      IsGreatest ((fun r : ℚ => min ⌊r * sourceAmount⌋₊ maxU64) '' c.rates)
        (c.estimateDestinationAmount sourceAmount).2 := by
  have h_cap : Monotone fun d => min d maxU64 := fun _ _ h => min_le_min_right _ h
  have h_image : (fun r : ℚ => min ⌊r * sourceAmount⌋₊ maxU64) '' c.rates =
      (fun d => min d maxU64) '' ((fun r : ℚ => ⌊r * sourceAmount⌋₊) '' c.rates) :=
    (Set.image_image (fun d => min d maxU64) (fun r : ℚ => ⌊r * sourceAmount⌋₊) c.rates).symm
  unfold estimateDestinationAmount
  rw [h_image, orLesser_some, orLesser_some, saturatingSubtract_eq, multiplyFloor_eq_floor,
    multiplyCeil_eq_ceil]
  exact ⟨h_cap.map_isLeast (isLeast_floor_mul h _),
    h_cap.map_isGreatest (isGreatest_floor_mul c.lowerBoundRate.toRat_nonneg h _)⟩

/-- Without a lower bound there is no estimate of the source amount. -/
theorem estimateSourceAmount_eq_none_iff :
    c.estimateSourceAmount destinationAmount = none ↔ c.lowerBoundRate.toRat = 0 := by
  have h_pos := c.lowerBoundRate.toRat_pos_iff
  have h_nonneg := c.lowerBoundRate.toRat_nonneg
  unfold estimateSourceAmount Ratio.reciprocal
  by_cases h : 0 < c.lowerBoundRate.a
  · rw [dif_pos h]
    exact iff_of_false (fun h_none => nomatch h_none) (h_pos.mpr h).ne'
  · rw [dif_neg h]
    exact iff_of_true rfl (le_antisymm (not_lt.mp (h_pos.not.mpr h)) h_nonneg)

/-- **What delivers an amount**: the least amount that may, and the least that does. -/
theorem estimateSourceAmount_spec (h : c.Sound) (h_pos : 0 < destinationAmount) {low high : ℕ}
    (h_some : c.estimateSourceAmount destinationAmount = some (low, high)) :
    IsLeast {s : ℕ | ∃ r ∈ c.rates, destinationAmount ≤ ⌊r * s⌋₊} low ∧
      IsLeast {s : ℕ | ∀ r ∈ c.rates, destinationAmount ≤ ⌊r * s⌋₊} high := by
  have h_ne : c.estimateSourceAmount destinationAmount ≠ none := by
    rw [h_some]
    exact Option.some_ne_none _
  have h_lower : 0 < c.lowerBoundRate.toRat :=
    lt_of_le_of_ne c.lowerBoundRate.toRat_nonneg (Ne.symm (estimateSourceAmount_eq_none_iff.not.mp h_ne))
  have h_a := c.lowerBoundRate.toRat_pos_iff.mp h_lower
  unfold estimateSourceAmount Ratio.reciprocal at h_some
  rw [dif_pos h_a] at h_some
  obtain ⟨rfl, rfl⟩ := Prod.mk.inj (Option.some.inj h_some)
  rw [multiplyFloor_eq_floor, multiplyCeil_eq_ceil, PositiveRatio.toRat_reciprocal, inv_mul_eq_div]
  have h_inv : Ratio.toRat { a := c.lowerBoundRate.b, b := c.lowerBoundRate.a, b_pos := h_a } * destinationAmount =
      destinationAmount / c.lowerBoundRate.toRat := by
    rw [div_eq_inv_mul, Ratio.toRat, Ratio.toRat, inv_div]
  rw [h_inv]
  exact ⟨isLeast_of_exists h_lower.le h h_pos, isLeast_of_forall h_lower h⟩

/-- **The exchange rate.** Whatever comes in, the lower bound is below the upper. A constant rate that every
reply reports stays within the bounds, which then only get tighter and are never given up. The estimates are
the extreme amounts for the rates within the bounds, as the destination of a source amount and as the source
of a destination amount. -/
theorem sound_and_tight (replies : List (ℕ × StreamReply)) :
    let c := applyReplies {} replies
    c.lowerBoundRate.toRat < c.upperBoundRate.toRat ∧
    (∀ r : ℚ, 0 < r → r < 2 ^ 64 - 1 → (∀ p ∈ replies, Reports r p) →
      r ∈ Set.Ico c.lowerBoundRate.toRat c.upperBoundRate.toRat ∧
      ∀ p, Reports r p → ¬c.Resets p.1 p.2 ∧
        c.lowerBoundRate.toRat ≤ (c.applyReply p.1 p.2).lowerBoundRate.toRat ∧
        (c.applyReply p.1 p.2).upperBoundRate.toRat ≤ c.upperBoundRate.toRat) ∧
    (∀ sourceAmount : ℕ,
      IsLeast ((fun r : ℚ => min ⌊r * sourceAmount⌋₊ (2 ^ 64 - 1)) ''
          Set.Ico c.lowerBoundRate.toRat c.upperBoundRate.toRat)
        (c.estimateDestinationAmount sourceAmount).1 ∧
      IsGreatest ((fun r : ℚ => min ⌊r * sourceAmount⌋₊ (2 ^ 64 - 1)) ''
          Set.Ico c.lowerBoundRate.toRat c.upperBoundRate.toRat)
        (c.estimateDestinationAmount sourceAmount).2) ∧
    (∀ destinationAmount : ℕ, 0 < destinationAmount →
      (c.estimateSourceAmount destinationAmount = none ↔ c.lowerBoundRate.toRat = 0) ∧
      ∀ low high, c.estimateSourceAmount destinationAmount = some (low, high) →
        IsLeast {s : ℕ | ∃ r ∈ Set.Ico c.lowerBoundRate.toRat c.upperBoundRate.toRat,
          destinationAmount ≤ ⌊r * s⌋₊} low ∧
        IsLeast {s : ℕ | ∀ r ∈ Set.Ico c.lowerBoundRate.toRat c.upperBoundRate.toRat,
          destinationAmount ≤ ⌊r * s⌋₊} high) := by
  intro c
  have h_sound : c.Sound := sound_new.applyReplies replies
  refine ⟨h_sound, fun r h_pos h_max h_reports => ?_, estimateDestinationAmount_spec h_sound,
    fun destinationAmount h_pos => ⟨estimateSourceAmount_eq_none_iff, fun low high h_some =>
      estimateSourceAmount_spec h_sound h_pos h_some⟩⟩
  -- the first bounds admit every rate within the range of an amount
  have h_new : r ∈ rates {} := by
    unfold rates Ratio.toRat maxU64
    norm_num at h_max ⊢
    exact ⟨h_pos.le, h_max⟩
  have h_mem : r ∈ c.rates := mem_rates_applyReplies h_new h_reports
  exact ⟨h_mem, fun p h_p => (applyReply_of_reports h_mem h_p).2⟩

/-- A thousand units that deliver 499, at a rate below one half. -/
example : (applyReplies {} [(1000, ⟨.fulfill, some [], some 499⟩)]).estimateSourceAmount 100 =
    some (201, 201) := by decide

end ExchangeRateController

end Interledger.Pay
