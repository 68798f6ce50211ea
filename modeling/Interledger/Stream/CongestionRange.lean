import Interledger.Lib.Machine
import Interledger.Stream.CheckedLong
import Interledger.Stream.ExchangeRate

/-!
# The range of the congestion controller

How a connection drives its `CongestionController`
(`ilp-protocol-stream/src/util/congestion.ts`): `setMaximumAmounts` after each volley of test packets
(`determineExchangeRate`), or never when the exchange rate is fixed; then packets are loaded with up
to `testMaximumPacketAmount`, and their replies raise and lower the limits. Several packets may be in
flight, so that a reply may concern an amount that the limits have left behind. The controller is not
told of the replies to test packets, nor asked for their amounts.

`testMaximumPacketAmount` stays between one and the maximum, and the maximum and all packets within the
configured one, but for four cases:

* the rate is fixed and a maximum is configured: `testMaximumPacketAmount` starts from the largest
  amount all the same;
* a test packet is larger than the configured maximum, as those of the first volley are when less than
  10^12 is configured;
* a packet of two is too large, without usable data: half of the new maximum of one is zero;
* a connector lacks liquidity while the maximum is one: `testMaximumPacketAmount` becomes two.

A known maximum is approached in tenths, which are zero below ten.

## Main results

* `InRange.onFulfill`, `InRange.onAmountTooLargeError`, `InRange.onInsufficientLiquidityError` — what
  each reply preserves;
* `congestion_in_range` — the range and the amounts of all packets, in every run without the four cases;
* `TestEnvironment.reach_of_determineExchangeRate` — the volleys of `determineExchangeRate` are such a run,
  when neither the first amounts nor those that connectors name are larger than the configured maximum;
* `onFulfill_converges_iff` — when fulfilled packets raise the limit up to the maximum.
-/

namespace Interledger.Stream

open Interledger.Ilp Long

/-! ### Replies and the range -/

namespace CongestionController

variable {cc : CongestionController} {amountSent : Long}

theorem toNat_getMaximumPacketAmount (cc : CongestionController) :
    cc.getMaximumPacketAmount.toNat = min cc.maximumPacketAmount.toNat cc.fixedPacketAmount.toNat :=
  toNat_minLong _ _

/-- The limits are in range: a packet of at least one fits, and no packet is past the maximum. -/
structure InRange (cc : CongestionController) : Prop where
  pos : 1 ≤ cc.testMaximumPacketAmount.toNat
  le : cc.testMaximumPacketAmount.toNat ≤ cc.getMaximumPacketAmount.toNat

/-- No reply changes what is configured. -/
theorem fixedPacketAmount_onFulfill (cc : CongestionController) (amountSent : Long) :
    (cc.onFulfill amountSent).fixedPacketAmount = cc.fixedPacketAmount := by
  unfold onFulfill
  simp only
  split <;> rfl

theorem getMaximumPacketAmount_onFulfill (cc : CongestionController) (amountSent : Long) :
    (cc.onFulfill amountSent).getMaximumPacketAmount = cc.getMaximumPacketAmount := by
  unfold onFulfill
  simp only
  split <;> rfl

/-- The limit that follows when a packet of the limit is fulfilled. -/
theorem toNat_onFulfill (h_lt : cc.testMaximumPacketAmount.toNat < cc.getMaximumPacketAmount.toNat) :
    (cc.onFulfill cc.testMaximumPacketAmount).testMaximumPacketAmount.toNat =
      if cc.getMaximumPacketAmount = maxUnsignedValue then
        (checkedMultiply cc.testMaximumPacketAmount 2).1.toNat
      else
        min (cc.testMaximumPacketAmount.toNat + cc.getMaximumPacketAmount.toNat / 10)
          cc.getMaximumPacketAmount.toNat := by
  have h_cond : cc.testMaximumPacketAmount = cc.testMaximumPacketAmount ∧
      cc.testMaximumPacketAmount < cc.getMaximumPacketAmount := ⟨rfl, h_lt⟩
  have h_eq : cc.onFulfill cc.testMaximumPacketAmount =
      { cc with
        testMaximumPacketAmount :=
          if cc.getMaximumPacketAmount ≠ maxUnsignedValue then
            minLong (checkedAdd cc.testMaximumPacketAmount (cc.getMaximumPacketAmount / 10)).1
              cc.getMaximumPacketAmount
          else (checkedMultiply cc.testMaximumPacketAmount 2).1 } := if_pos h_cond
  rw [h_eq]
  by_cases h_max : cc.getMaximumPacketAmount = maxUnsignedValue
  · simp only [if_pos h_max, if_neg (not_not.mpr h_max)]
  · have h_div : (cc.getMaximumPacketAmount / 10).toNat = cc.getMaximumPacketAmount.toNat / 10 :=
      BitVec.toNat_udiv
    have h_top := cc.getMaximumPacketAmount.isLt
    simp only [if_neg h_max, if_pos h_max]
    rw [toNat_minLong, toNat_checkedAdd, h_div]
    omega

/-- Doubling a limit saturates. -/
theorem toNat_double_limit {l : Long} (h : 1 ≤ l.toNat) :
    (checkedMultiply l 2).1.toNat = min (2 * l.toNat) (2 ^ 64 - 1) := by
  have h_two : (2 : Long).toNat = 2 := rfl
  have h_lt := l.isLt
  have h_judged : ProductJudged l 2 := by
    unfold ProductJudged
    rw [h_two]
    split
    · omega
    · rw [lt_max_iff]
      omega
  have h_value := ((checkedMultiply_exact_iff l 2).mpr h_judged).value
  rw [h_two] at h_value
  omega

/-- **A fulfilled packet** raises the limit within the maximum. -/
theorem InRange.onFulfill (h : InRange cc) (amountSent : Long) : InRange (cc.onFulfill amountSent) := by
  by_cases h_raise : amountSent = cc.testMaximumPacketAmount ∧
      cc.testMaximumPacketAmount < cc.getMaximumPacketAmount
  · obtain ⟨rfl, h_lt⟩ := h_raise
    have h_nat : cc.testMaximumPacketAmount.toNat < cc.getMaximumPacketAmount.toNat := h_lt
    have h_pos := h.pos
    have h_test := toNat_onFulfill h_nat
    refine ⟨?_, ?_⟩
    · rw [h_test]
      split
      · rw [toNat_double_limit h_pos]
        omega
      · omega
    · rw [getMaximumPacketAmount_onFulfill, h_test]
      split
      · next h_max =>
        rw [toNat_double_limit h_pos, h_max, toNat_maxUnsignedValue]
        omega
      · exact Nat.min_le_right _ _
  · have h_same : cc.onFulfill amountSent = cc := by
      unfold CongestionController.onFulfill
      simp only
      rw [if_neg h_raise]
    rw [h_same]
    exact h

/-- The maximum that follows from what a connector received and would have received at most. -/
theorem toNat_newMaximum_le {receivedAmount maximumAmount : Long} (h : receivedAmount > maximumAmount) :
    ((multiplyDivideFloor amountSent maximumAmount receivedAmount).getD 0).toNat ≤
      amountSent.toNat := by
  have h_lt : maximumAmount.toNat < receivedAmount.toNat := h
  have h_ne : receivedAmount ≠ 0 := by
    rintro rfl
    exact Nat.not_lt_zero _ h_lt
  have h_quotient : amountSent.toNat * maximumAmount.toNat / receivedAmount.toNat ≤
      amountSent.toNat := by
    refine Nat.div_le_of_le_mul ?_
    rw [Nat.mul_comm]
    exact Nat.mul_le_mul_right _ h_lt.le
  exact (toNat_multiplyDivideFloor h_ne (h_quotient.trans_lt amountSent.isLt)).1.trans h_quotient

/-- An F08 carries usable data: more was received than the maximum. -/
def UsableData (reject : IlpReject) : Prop :=
  match receivedAndMaximumAmount reject.data with
  | some (receivedAmount, maximumAmount) => receivedAmount > maximumAmount
  | none => False

instance (reject : IlpReject) : Decidable (UsableData reject) := by
  unfold UsableData
  split <;> infer_instance

theorem onAmountTooLargeError_eq (cc : CongestionController) (reject : IlpReject) (amountSent : Long) :
    (∃ newMaximum : Long, newMaximum.toNat ≤ amountSent.toNat ∧ UsableData reject ∧
        cc.onAmountTooLargeError reject amountSent =
          { cc with maximumPacketAmount := newMaximum, testMaximumPacketAmount := newMaximum }) ∨
      ¬UsableData reject ∧
        cc.onAmountTooLargeError reject amountSent = cc.lowerBelow amountSent := by
  unfold onAmountTooLargeError UsableData
  cases receivedAndMaximumAmount reject.data with
  | none => exact .inr ⟨not_false, rfl⟩
  | some amounts =>
    obtain ⟨receivedAmount, maximumAmount⟩ := amounts
    simp only
    by_cases h : receivedAmount > maximumAmount
    · rw [if_pos h]
      exact .inl ⟨_, toNat_newMaximum_le h, h, rfl⟩
    · rw [if_neg h]
      exact .inr ⟨h, rfl⟩

theorem fixedPacketAmount_onAmountTooLargeError (cc : CongestionController) (reject : IlpReject)
    (amountSent : Long) :
    (cc.onAmountTooLargeError reject amountSent).fixedPacketAmount = cc.fixedPacketAmount := by
  rcases onAmountTooLargeError_eq cc reject amountSent with ⟨_, -, -, h⟩ | ⟨-, h⟩
  · rw [h]
  · rw [h]
    rfl

/-- **A packet that is too large** lowers both limits into the range, or the maximum to zero. -/
theorem InRange.onAmountTooLargeError {reject : IlpReject} (h_pos : 1 ≤ amountSent.toNat)
    (h_le : amountSent.toNat ≤ cc.fixedPacketAmount.toNat)
    (h_ok : UsableData reject ∨ amountSent ≠ 2)
    (h_ne : (cc.onAmountTooLargeError reject amountSent).getMaximumPacketAmount ≠ 0) :
    InRange (cc.onAmountTooLargeError reject amountSent) := by
  rcases onAmountTooLargeError_eq cc reject amountSent with ⟨newMaximum, h_new, -, h_eq⟩ | ⟨h_data, h_eq⟩
  · rw [h_eq] at h_ne ⊢
    -- usable data gives one amount for both limits
    have h_max := toNat_getMaximumPacketAmount
      { cc with maximumPacketAmount := newMaximum, testMaximumPacketAmount := newMaximum }
    have h_nat := toNat_pos h_ne
    simp only at h_max
    refine ⟨?_, ?_⟩
    · change 1 ≤ newMaximum.toNat
      omega
    · rw [h_max]
      exact Nat.le_min.mpr ⟨le_rfl, h_new.trans h_le⟩
  · rw [h_eq] at h_ne ⊢
    -- without it they are one less than the packet, and half of that
    have h_ne_two : amountSent.toNat ≠ 2 := by
      intro h_two
      exact h_ok.elim h_data fun h => h (BitVec.eq_of_toNat_eq h_two)
    have h_one : (1 : Long) ≤ amountSent := h_pos
    have h_sub : (amountSent - 1).toNat = amountSent.toNat - 1 := BitVec.toNat_sub_of_le h_one
    have h_max : (cc.lowerBelow amountSent).getMaximumPacketAmount.toNat = amountSent.toNat - 1 := by
      change (minLong (amountSent - 1) cc.fixedPacketAmount).toNat = _
      rw [toNat_minLong, h_sub]
      omega
    have h_test : (cc.lowerBelow amountSent).testMaximumPacketAmount.toNat =
        (amountSent.toNat - 1) / 2 := by
      have h_div : (cc.lowerBelow amountSent).testMaximumPacketAmount.toNat =
          (cc.lowerBelow amountSent).getMaximumPacketAmount.toNat / 2 := BitVec.toNat_udiv
      rw [h_div, h_max]
    have h_nat := toNat_pos h_ne
    refine ⟨?_, ?_⟩
    · rw [h_test]
      omega
    · rw [h_test, h_max]
      omega

/-- **Missing liquidity** lowers the limit, but not below two. -/
theorem InRange.onInsufficientLiquidityError (h : InRange cc) (amountSent : Long)
    (h_ok : cc.getMaximumPacketAmount ≠ 1) : InRange (cc.onInsufficientLiquidityError amountSent) := by
  have h_pos := h.pos
  have h_le := h.le
  have h_two : (2 : Long).toNat = 2 := rfl
  have h_ne : cc.getMaximumPacketAmount.toNat ≠ 1 := fun h_one =>
    h_ok (BitVec.eq_of_toNat_eq h_one)
  -- two thirds of the smaller amount
  have h_min := toNat_minLong amountSent cc.testMaximumPacketAmount
  have h_test : (cc.onInsufficientLiquidityError amountSent).testMaximumPacketAmount.toNat =
      max 2 (min amountSent.toNat cc.testMaximumPacketAmount.toNat -
        min amountSent.toNat cc.testMaximumPacketAmount.toNat / 3) := by
    change (maxLong 2 (minLong amountSent cc.testMaximumPacketAmount -
      minLong amountSent cc.testMaximumPacketAmount / 3)).toNat = _
    have h_div : (minLong amountSent cc.testMaximumPacketAmount / 3).toNat =
        (minLong amountSent cc.testMaximumPacketAmount).toNat / 3 := BitVec.toNat_udiv
    have h_third : minLong amountSent cc.testMaximumPacketAmount / 3 ≤
        minLong amountSent cc.testMaximumPacketAmount := by
      rw [BitVec.le_def, h_div]
      exact Nat.div_le_self _ _
    rw [toNat_maxLong, BitVec.toNat_sub_of_le h_third, h_div, h_min, h_two]
  have h_max : (cc.onInsufficientLiquidityError amountSent).getMaximumPacketAmount =
      cc.getMaximumPacketAmount := rfl
  refine ⟨?_, ?_⟩
  · rw [h_test]
    omega
  · rw [h_test, h_max]
    omega

end CongestionController

/-! ### Runs -/

/-- A controller as a connection drives it: whether the exchange rate is probed, whether packets may
be loaded, whether a maximum of zero or a volley that threw ended the connection, the amounts of all packets that were sent,
test packets among them, and those of the loaded packets in flight. -/
structure DrivenController where
  congestion : CongestionController
  probed : Bool
  ready : Bool
  failed : Bool
  sent : List Long
  inFlight : List Long
  deriving DecidableEq

/-- What drives the controller. -/
inductive CongestionEvent
  /-- A volley of test packets was sent, and found a maximum. -/
  | volley (amounts : List Long) (maximum : Long)
  /-- A volley of test packets was sent, and one of them threw. -/
  | brokenVolley (amounts : List Long)
  /-- A packet is loaded and sent. -/
  | load (amount : Long)
  | fulfill (i : ℕ)
  | tooLarge (i : ℕ) (reject : IlpReject)
  | insufficientLiquidity (i : ℕ)
  /-- A reply that the controller is not told of. -/
  | otherReply (i : ℕ)
  deriving DecidableEq

namespace DrivenController

variable (s : DrivenController)

/-- The controller of a new connection, which configures a maximum, or none (the largest). With a fixed
rate there is no volley to wait for. -/
def Initial : Prop :=
  1 ≤ s.congestion.fixedPacketAmount.toNat ∧
    s.congestion = { fixedPacketAmount := s.congestion.fixedPacketAmount } ∧
    s.ready = !s.probed ∧ s.failed = false ∧ s.sent = [] ∧ s.inFlight = []

/-- Packet `i` is replied to. -/
def reply (i : ℕ) (congestion : Long → CongestionController) : Option DrivenController :=
  s.inFlight[i]?.map fun amountSent =>
    { s with congestion := congestion amountSent, inFlight := s.inFlight.eraseIdx i }

/-- One event. A loaded packet carries between one and `testMaximumPacketAmount`. Another volley may
follow any volley. -/
def step : CongestionEvent → Option DrivenController
  | .volley amounts maximum =>
    -- the later volleys have amounts that the replies to the earlier ones bring
    if s.probed ∧ ¬s.failed ∧ (s.ready = false → amounts = firstTestPacketAmounts) ∧
        maximum ≤ s.congestion.getMaximumPacketAmount then
      some { s with
        congestion := s.congestion.setMaximumAmounts maximum
        ready := true
        failed := (s.congestion.setMaximumAmounts maximum).getMaximumPacketAmount = 0
        sent := s.sent ++ amounts }
    else none
  | .brokenVolley amounts =>
    if s.probed ∧ ¬s.failed ∧ (s.ready = false → amounts = firstTestPacketAmounts) then
      some { s with failed := true, sent := s.sent ++ amounts }
    else none
  | .load amount =>
    if s.ready ∧ ¬s.failed ∧ 1 ≤ amount.toNat ∧ amount ≤ s.congestion.testMaximumPacketAmount then
      some { s with sent := s.sent ++ [amount], inFlight := s.inFlight ++ [amount] }
    else none
  | .fulfill i => s.reply i s.congestion.onFulfill
  | .tooLarge i reject =>
    -- the connection throws once the maximum is zero
    (s.reply i (s.congestion.onAmountTooLargeError reject)).map fun t =>
      { t with failed := s.failed || t.congestion.getMaximumPacketAmount = 0 }
  | .insufficientLiquidity i => s.reply i s.congestion.onInsufficientLiquidityError
  | .otherReply i => s.reply i fun _ => s.congestion

/-- The runs of a controller, for the configurations in question. -/
def machine (start : DrivenController → Prop) : Machine DrivenController CongestionEvent where
  init s := s.Initial ∧ start s
  step := step

/-- No maximum is configured when the exchange rate is fixed. -/
def UncappedWhenFixed (s : DrivenController) : Prop :=
  s.probed = true ∨ s.congestion.fixedPacketAmount = maxUnsignedValue

/-- No test packet is larger than what is configured, no packet of two is too large without usable data,
and no connector lacks liquidity while the maximum is one. -/
def LimitsLeaveRoom (s : DrivenController) : CongestionEvent → Prop
  | .volley amounts _ => ∀ amount ∈ amounts, amount ≤ s.congestion.fixedPacketAmount
  | .brokenVolley amounts => ∀ amount ∈ amounts, amount ≤ s.congestion.fixedPacketAmount
  | .tooLarge i reject => CongestionController.UsableData reject ∨ s.inFlight[i]? ≠ some 2
  | .insufficientLiquidity _ => s.congestion.getMaximumPacketAmount ≠ 1
  | _ => True

instance : ∀ e, Decidable (LimitsLeaveRoom s e)
  | .volley amounts _ | .brokenVolley amounts =>
    List.decidableBAll (· ≤ s.congestion.fixedPacketAmount) amounts
  | .tooLarge _ _ => inferInstanceAs (Decidable (_ ∨ _))
  | .insufficientLiquidity _ => inferInstanceAs (Decidable (_ ≠ _))
  | .load _ | .fulfill _ | .otherReply _ => inferInstanceAs (Decidable True)

end DrivenController

open CongestionController in
/-- The limits are in range while packets may be loaded, and no packet is past what is configured. -/
structure Driven (s : DrivenController) : Prop where
  pos : 1 ≤ s.congestion.fixedPacketAmount.toNat
  inRange : s.ready = true → s.failed = false → InRange s.congestion
  unready : s.ready = false → s.inFlight = []
  sent : ∀ amount ∈ s.sent, amount ≤ s.congestion.fixedPacketAmount
  inFlight : ∀ amount ∈ s.inFlight,
    1 ≤ amount.toNat ∧ amount.toNat ≤ s.congestion.fixedPacketAmount.toNat

namespace Driven

open CongestionController

variable {s t : DrivenController}

/-- A controller whose rate is fixed starts in range when no maximum is configured. -/
theorem initial (h : s.Initial) (h_config : s.UncappedWhenFixed) : Driven s := by
  obtain ⟨h_pos, h_new, h_ready, -, h_sent, h_inFlight⟩ := h
  refine ⟨h_pos, fun h _ => ?_, fun _ => h_inFlight, fun amount h => ?_, fun amount h => ?_⟩
  · -- the rate is fixed
    have h_fixed : s.congestion.fixedPacketAmount = maxUnsignedValue := by
      rcases h_config with h_probed | h_fixed
      · rw [h_ready, h_probed] at h
        cases h
      · exact h_fixed
    rw [h_new, h_fixed]
    exact ⟨by decide, by decide⟩
  · rw [h_sent] at h
    cases h
  · rw [h_inFlight] at h
    cases h

/-- What is sent next is within what is configured, as what was sent before is. -/
theorem sent_append (h : Driven s) {amounts : List Long}
    (h_amounts : ∀ amount ∈ amounts, amount ≤ s.congestion.fixedPacketAmount) :
    ∀ amount ∈ s.sent ++ amounts, amount ≤ s.congestion.fixedPacketAmount := by
  intro amount h_mem
  rcases List.mem_append.mp h_mem with h_old | h_new
  · exact h.sent amount h_old
  · exact h_amounts amount h_new

/-- The test packets are within what is configured, and so is the maximum that they find. -/
theorem volley (h : Driven s) {amounts : List Long} {maximum : Long}
    (h_amounts : ∀ amount ∈ amounts, amount ≤ s.congestion.fixedPacketAmount)
    (h_le : maximum ≤ s.congestion.getMaximumPacketAmount) :
    Driven { s with
      congestion := s.congestion.setMaximumAmounts maximum
      ready := true
      failed := (s.congestion.setMaximumAmounts maximum).getMaximumPacketAmount = 0
      sent := s.sent ++ amounts } := by
  have h_fixed : maximum.toNat ≤ s.congestion.fixedPacketAmount.toNat := by
    have h_nat : maximum.toNat ≤ s.congestion.getMaximumPacketAmount.toNat := h_le
    rw [toNat_getMaximumPacketAmount] at h_nat
    exact h_nat.trans (Nat.min_le_right _ _)
  -- it is the new maximum
  have h_max : (s.congestion.setMaximumAmounts maximum).getMaximumPacketAmount.toNat = maximum.toNat := by
    rw [toNat_getMaximumPacketAmount]
    exact Nat.min_eq_left h_fixed
  refine ⟨h.pos, fun _ h_failed => ⟨?_, h_max.ge⟩, fun h => (by cases h), h.sent_append h_amounts, h.inFlight⟩
  have h_ne := of_decide_eq_false h_failed
  show 1 ≤ maximum.toNat
  rw [← h_max]
  exact toNat_pos h_ne

theorem brokenVolley (h : Driven s) {amounts : List Long}
    (h_amounts : ∀ amount ∈ amounts, amount ≤ s.congestion.fixedPacketAmount) :
    Driven { s with failed := true, sent := s.sent ++ amounts } :=
  ⟨h.pos, fun _ h_failed => (by cases h_failed), h.unready, h.sent_append h_amounts, h.inFlight⟩

theorem load (h : Driven s) {amount : Long} (h_ready : s.ready = true) (h_failed : s.failed = false)
    (h_pos : 1 ≤ amount.toNat) (h_le : amount ≤ s.congestion.testMaximumPacketAmount) :
    Driven { s with sent := s.sent ++ [amount], inFlight := s.inFlight ++ [amount] } := by
  have h_range := h.inRange h_ready h_failed
  have h_max := toNat_getMaximumPacketAmount s.congestion
  have h_nat : amount.toNat ≤ s.congestion.testMaximumPacketAmount.toNat := h_le
  have h_test := h_range.le
  have h_fixed : amount.toNat ≤ s.congestion.fixedPacketAmount.toNat := by omega
  refine ⟨h.pos, h.inRange, fun h_unready => ?_, h.sent_append fun a h_mem => ?_, fun a h_mem => ?_⟩
  · rw [h_ready] at h_unready
    cases h_unready
  · rw [List.mem_singleton.mp h_mem]
    exact h_fixed
  · rcases List.mem_append.mp h_mem with h_old | h_new
    · exact h.inFlight a h_old
    · rw [List.mem_singleton.mp h_new]
      exact ⟨h_pos, h_fixed⟩

/-- A reply that keeps what is configured, and the range where there is one. -/
theorem reply (h : Driven s) {i : ℕ} {amountSent : Long} (h_get : s.inFlight[i]? = some amountSent)
    {congestion : CongestionController} {failed : Bool}
    (h_fixed : congestion.fixedPacketAmount = s.congestion.fixedPacketAmount)
    (h_range : InRange s.congestion ∨ s.failed = true → failed = false → InRange congestion) :
    Driven { s with
      congestion := congestion, failed := failed, inFlight := s.inFlight.eraseIdx i } := by
  have h_ready : s.ready = true := by
    by_contra h_not
    rw [h.unready (by simpa using h_not)] at h_get
    cases h_get
  refine ⟨?_, fun _ h_failed => ?_, fun h_unready => ?_, fun a h_mem => ?_, fun a h_mem => ?_⟩
  · rw [h_fixed]
    exact h.pos
  · refine h_range ?_ h_failed
    by_cases h_old : s.failed = true
    · exact .inr h_old
    · exact .inl (h.inRange h_ready (by simpa using h_old))
  · rw [h_ready] at h_unready
    cases h_unready
  · rw [h_fixed]
    exact h.sent a h_mem
  · rw [h_fixed]
    exact h.inFlight a ((List.eraseIdx_sublist _ _).mem h_mem)

/-- A reply after which the connection goes on as it did. -/
theorem reply_of_inRange (h : Driven s) {i : ℕ} {amountSent : Long} (h_get : s.inFlight[i]? = some amountSent)
    {congestion : CongestionController}
    (h_fixed : congestion.fixedPacketAmount = s.congestion.fixedPacketAmount)
    (h_range : InRange s.congestion → InRange congestion) :
    Driven { s with congestion := congestion, inFlight := s.inFlight.eraseIdx i } := by
  refine h.reply h_get h_fixed fun h_case h_failed => ?_
  rcases h_case with h_old | h_old
  · exact h_range h_old
  · rw [h_old] at h_failed
    cases h_failed

theorem step {e : CongestionEvent} (h : Driven s) (h_ok : s.LimitsLeaveRoom e)
    (h_step : s.step e = some t) : Driven t := by
  cases e with
  | volley amounts maximum =>
    unfold DrivenController.step at h_step
    simp only at h_step
    split at h_step
    case isFalse => cases h_step
    case isTrue h_cond =>
      obtain rfl := Option.some.inj h_step
      -- the condition bounds the test packets
      exact h.volley h_ok h_cond.2.2.2
  | brokenVolley amounts =>
    obtain ⟨-, h_eq⟩ := Option.ite_none_right_eq_some.mp h_step
    obtain rfl := Option.some.inj h_eq
    exact h.brokenVolley h_ok
  | load amount =>
    unfold DrivenController.step at h_step
    simp only at h_step
    split at h_step
    case isFalse => cases h_step
    case isTrue h_cond =>
      obtain rfl := Option.some.inj h_step
      -- a loaded packet is bounded by the limit
      exact h.load h_cond.1 (by simpa using h_cond.2.1) h_cond.2.2.1 h_cond.2.2.2
  | fulfill i =>
    obtain ⟨amountSent, h_get, rfl⟩ := Option.map_eq_some_iff.mp h_step
    exact h.reply_of_inRange h_get (fixedPacketAmount_onFulfill _ _) fun h_range =>
      h_range.onFulfill amountSent
  | tooLarge i reject =>
    obtain ⟨u, h_reply, rfl⟩ := Option.map_eq_some_iff.mp h_step
    obtain ⟨amountSent, h_get, rfl⟩ := Option.map_eq_some_iff.mp h_reply
    -- the packet was in range when it was sent, and is no packet of two
    obtain ⟨h_pos, h_le⟩ := h.inFlight amountSent (List.mem_of_getElem? h_get)
    refine h.reply h_get (fixedPacketAmount_onAmountTooLargeError _ _ _) fun _ h_failed => ?_
    have h_ne : (s.congestion.onAmountTooLargeError reject amountSent).getMaximumPacketAmount ≠ 0 := by
      intro h_zero
      simp [h_zero] at h_failed
    refine .onAmountTooLargeError h_pos h_le (h_ok.imp_right fun h_two h_eq => ?_) h_ne
    exact h_two (h_eq ▸ h_get)
  | insufficientLiquidity i =>
    obtain ⟨amountSent, h_get, rfl⟩ := Option.map_eq_some_iff.mp h_step
    exact h.reply_of_inRange h_get rfl fun h_range =>
      h_range.onInsufficientLiquidityError amountSent h_ok
  | otherReply i =>
    obtain ⟨amountSent, h_get, rfl⟩ := Option.map_eq_some_iff.mp h_step
    exact h.reply_of_inRange h_get rfl id

theorem of_reach (h : (DrivenController.machine DrivenController.UncappedWhenFixed).Reach
    DrivenController.LimitsLeaveRoom s) : Driven s :=
  h.invariant _ (fun _ h_init => initial h_init.1 h_init.2) fun _ _ _ _ h_inv h_ok h_step =>
    h_inv.step h_ok h_step

end Driven

/-- **The range of the limits.** In every run in which no maximum is configured together with a fixed
rate and the limits leave room, packets are loaded with at least one and at most the maximum, which
is within the configured one, and so is every packet that was sent, test packets included. -/
theorem congestion_in_range {s : DrivenController}
    (h : (DrivenController.machine DrivenController.UncappedWhenFixed).Reach
      DrivenController.LimitsLeaveRoom s) :
    (s.ready = true → s.failed = false →
      1 ≤ s.congestion.testMaximumPacketAmount.toNat ∧
        s.congestion.testMaximumPacketAmount ≤ s.congestion.getMaximumPacketAmount ∧
        s.congestion.getMaximumPacketAmount ≤ s.congestion.fixedPacketAmount) ∧
      ∀ amount ∈ s.sent, amount ≤ s.congestion.fixedPacketAmount := by
  have h_driven := Driven.of_reach h
  refine ⟨fun h_ready h_failed => ?_, h_driven.sent⟩
  have h_range := h_driven.inRange h_ready h_failed
  have h_max := CongestionController.toNat_getMaximumPacketAmount s.congestion
  refine ⟨h_range.pos, h_range.le, ?_⟩
  rw [BitVec.le_def, h_max]
  exact Nat.min_le_right _ _

/-- A controller that probes the rate and may send up to a maximum. -/
def probingController (maximum : Long) : DrivenController where
  congestion := { fixedPacketAmount := maximum }
  probed := true
  ready := false
  failed := false
  sent := []
  inFlight := []

/-- Two packets after a volley, of which one is too large and the other lacks liquidity. -/
theorem congestion_in_range_rejected :
    ∃ s, (DrivenController.machine DrivenController.UncappedWhenFixed).Reachable s ∧
      s.congestion.testMaximumPacketAmount = 6 ∧ s.congestion.getMaximumPacketAmount = 19 ∧
      s.congestion.testMaximumPacketAmount ≤ s.congestion.getMaximumPacketAmount ∧
      s.sent = firstTestPacketAmounts ++ [50, 20] ∧ ∀ amount ∈ s.sent, amount ≤ 2000000000000 := by
  have h : (DrivenController.machine DrivenController.UncappedWhenFixed).Reach
      DrivenController.LimitsLeaveRoom _ :=
    Machine.reach_of_exec (s := probingController 2000000000000)
      [.volley firstTestPacketAmounts 50, .load 50, .load 20,
        .tooLarge 1 { code := .f08AmountTooLarge, data := [] }, .insufficientLiquidity 0]
      ⟨⟨by decide, rfl, rfl, rfl, rfl, rfl⟩, .inl rfl⟩ rfl
  obtain ⟨h_range, h_sent⟩ := congestion_in_range h
  exact ⟨_, h.reachable, rfl, rfl, (h_range rfl rfl).2.1, rfl, h_sent⟩

/-- **Past the configured maximum**: with a fixed rate, the first packet may carry any amount although
100 are configured. -/
theorem fixed_rate_exceeds_maximum :
    ∃ s, (DrivenController.machine fun _ => True).Reachable s ∧
      s.congestion.fixedPacketAmount = 100 ∧ 1000 ∈ s.sent := by
  have h : (DrivenController.machine fun _ => True).Reachable _ :=
    Machine.reach_of_exec
      (s := { probingController 100 with probed := false, ready := true }) [.load 1000]
      ⟨⟨by decide, rfl, rfl, rfl, rfl, rfl⟩, trivial⟩ rfl
  exact ⟨_, h, rfl, List.mem_singleton_self _⟩

/-- A volley that does not meet the guard has gone past the configured maximum. -/
theorem DrivenController.exceeds_of_volley {s t : DrivenController} {e : CongestionEvent} {amounts : List Long}
    (h_volley : e = .brokenVolley amounts ∨ ∃ maximum, e = .volley amounts maximum) (h_step : s.step e = some t)
    (h_not : ¬s.LimitsLeaveRoom e) : ∃ amount ∈ t.sent, t.congestion.fixedPacketAmount < amount := by
  have h_large (h_none : ¬∀ amount ∈ amounts, amount ≤ s.congestion.fixedPacketAmount) :
      ∃ amount ∈ s.sent ++ amounts, s.congestion.fixedPacketAmount < amount := by
    simp only [not_forall] at h_none
    obtain ⟨amount, h_mem, h_large⟩ := h_none
    exact ⟨amount, List.mem_append_right _ h_mem, BitVec.not_le.mp h_large⟩
  obtain rfl | ⟨maximum, rfl⟩ := h_volley
  · obtain ⟨-, h_eq⟩ := Option.ite_none_right_eq_some.mp h_step
    obtain rfl := Option.some.inj h_eq
    exact h_large h_not
  · obtain ⟨-, h_eq⟩ := Option.ite_none_right_eq_some.mp h_step
    obtain rfl := Option.some.inj h_eq
    exact h_large h_not

/-! ### The volleys of a connection -/

namespace TestEnvironment

variable {env : TestEnvironment} {precision left attempts : ℕ} {amounts : List Long} {limit : Long}

/-- No reply to a test packet names a larger amount. -/
def NamesAtMost (env : TestEnvironment) (limit : Long) : Prop :=
  ∀ attempts index amount reply, env.sendTestPacket attempts index amount = some reply →
    reply.maxPacketAmount amount ≤ limit ∨ reply.maxPacketAmount amount = maxUnsignedValue

/-- The event is a volley that the connection sends, with the result that it has. -/
def IsVolley (env : TestEnvironment) (e : CongestionEvent) : Prop :=
  ∃ attempts amounts,
    (env.sendTestPacketVolley attempts amounts = none ∧ e = .brokenVolley amounts) ∨
      ∃ result maximum,
        env.sendTestPacketVolley attempts amounts = some result ∧ e = .volley amounts maximum

/-- **The next volley** is within the limit, if the one before was: its amounts are those that were named,
and two thirds of one that was sent. -/
theorem NamesAtMost.next {result : TestVolleyResult} (h : env.NamesAtMost limit)
    (h_amounts : ∀ amount ∈ amounts, amount ≤ limit)
    (h_volley : env.sendTestPacketVolley attempts amounts = some result) :
    (∀ amount ∈ result.testPacketAmounts, amount ≤ limit) ∧
      (result.isTemporary = true → result.reducedPacketAmount ≤ limit) := by
  obtain ⟨results, h_results, h_sums, h_said⟩ := sums_of_sendTestPacketVolley h_volley
  refine ⟨fun amount h_next => ?_, fun h_temporary => ?_⟩
  · -- the amount was named
    obtain ⟨h_mem, h_known⟩ := TestVolleyResult.mem_testPacketAmounts.mp h_next
    rw [h_said] at h_mem
    obtain ⟨p, h_p, rfl⟩ := List.mem_map.mp h_mem
    obtain ⟨index, h_sent⟩ := of_mem_sendTestPackets h_results h_p
    exact (h attempts index p.1 p.2 h_sent).resolve_right h_known
  · -- the amount that brought the error was sent
    obtain ⟨error, h_error, -⟩ := List.any_eq_true.mp h_temporary
    obtain ⟨ilpReject, h_reject, -⟩ := h_sums.errors error h_error
    have h_sent : error.1 ≤ limit := by
      apply h_amounts
      rw [← map_fst_of_sendTestPackets h_results]
      exact List.mem_map_of_mem h_reject
    have h_least : (result.packetErrors.map Prod.fst).foldl minLong maxUnsignedValue ≤ error.1 :=
      foldl_minLong_le (List.mem_cons_of_mem _ (List.mem_map_of_mem h_error))
    refine BitVec.le_trans ?_ (BitVec.le_trans h_least h_sent)
    unfold TestVolleyResult.reducedPacketAmount
    rw [BitVec.le_def]
    generalize (result.packetErrors.map Prod.fst).foldl minLong maxUnsignedValue = smallest
    have h_div : (smallest / 3).toNat = smallest.toNat / 3 := BitVec.toNat_udiv
    have h_third : smallest / 3 ≤ smallest := by
      rw [BitVec.le_def, h_div]
      exact Nat.div_le_self _ _
    rw [BitVec.toNat_sub_of_le h_third]
    exact Nat.sub_le _ _

/-- **The loop is a run** of the controller: its volleys are within the configured maximum, and leave the
limits as the loop does. -/
theorem leads_of_determineLoop {start : DrivenController → Prop} {s : DrivenController}
    (h_names : env.NamesAtMost s.congestion.fixedPacketAmount) (h_probed : s.probed = true)
    (h_failed : s.failed = false) (h_first : s.ready = false → amounts = firstTestPacketAmounts)
    (h_amounts : ∀ amount ∈ amounts, amount ≤ s.congestion.fixedPacketAmount) :
    ∃ t, (DrivenController.machine start).Leads (fun s e => s.LimitsLeaveRoom e ∧ env.IsVolley e) s t ∧
      t.congestion = (env.determineLoop precision left attempts amounts s.congestion).2 := by
  -- induction on the volleys that are left
  induction left generalizing attempts amounts s with
  | zero => exact ⟨s, refl_of _ s, rfl⟩
  | succ left ih =>
    by_cases h_none : amounts = []
    · rw [determineLoop, if_pos h_none]
      exact ⟨s, refl_of _ s, rfl⟩
    cases h_volley : env.sendTestPacketVolley attempts amounts with
    | none =>
      rw [determineLoop, if_neg h_none, h_volley]
      have h_step : s.step (.brokenVolley amounts) = some { s with failed := true, sent := s.sent ++ amounts } :=
        if_pos ⟨h_probed, by rw [h_failed]; exact Bool.false_ne_true, h_first⟩
      exact ⟨_, Machine.Leads.single (e := .brokenVolley amounts)
        ⟨h_amounts, attempts, amounts, .inl ⟨h_volley, rfl⟩⟩ h_step, rfl⟩
    | some result =>
      -- the volley leads to the state from which the loop goes on, or in which it ends
      let maximum := minLongs (result.maxPacketAmounts ++ [s.congestion.getMaximumPacketAmount])
      let next : DrivenController :=
        { s with
          congestion := s.congestion.setMaximumAmounts maximum
          ready := true
          failed := (s.congestion.setMaximumAmounts maximum).getMaximumPacketAmount = 0
          sent := s.sent ++ amounts }
      have h_step : s.step (.volley amounts maximum) = some next := by
        refine if_pos ⟨h_probed, by rw [h_failed]; exact Bool.false_ne_true, h_first, ?_⟩
        exact minLongs_le (List.mem_append_right _ (List.mem_singleton.mpr rfl))
      have h_leads : (DrivenController.machine start).Leads
          (fun s e => s.LimitsLeaveRoom e ∧ env.IsVolley e) s next :=
        Machine.Leads.single (e := .volley amounts maximum)
          ⟨h_amounts, attempts, amounts, .inr ⟨result, maximum, h_volley, rfl⟩⟩ h_step
      -- the amounts that follow are within the limit too
      obtain ⟨h_tested, h_reduced⟩ := h_names.next h_amounts h_volley
      rw [determineLoop_succ h_none h_volley]
      by_cases h_zero : (s.congestion.afterVolley result).getMaximumPacketAmount = 0
      · rw [if_pos h_zero]
        exact ⟨next, h_leads, rfl⟩
      have h_next {attempts : ℕ} {amounts : List Long}
          (h_within : ∀ amount ∈ amounts, amount ≤ s.congestion.fixedPacketAmount) :
          ∃ t, (DrivenController.machine start).Leads (fun s e => s.LimitsLeaveRoom e ∧ env.IsVolley e) s t ∧
            t.congestion =
              (env.determineLoop precision left attempts amounts (s.congestion.afterVolley result)).2 := by
        obtain ⟨t, h_run, h_t⟩ := @ih attempts amounts next h_names h_probed (decide_eq_false h_zero)
          (fun h_unready => absurd h_unready.symm Bool.false_ne_true) h_within
        exact ⟨t, trans_of _ h_leads h_run, h_t⟩
      rw [if_neg h_zero]
      split
      · exact ⟨next, h_leads, rfl⟩
      · split
        · next h_temporary =>
          split
          · refine h_next fun amount h_mem => ?_
            rcases List.mem_append.mp h_mem with h_mem | h_mem
            · exact h_tested amount h_mem
            · rw [List.mem_singleton.mp h_mem]
              exact h_reduced h_temporary
          · exact ⟨next, h_leads, rfl⟩
        · exact h_next h_tested

/-- **The limits that `determineExchangeRate` leaves** are those of a run that meets the guard, when all
that connectors name and the first amounts are within what is configured. -/
theorem reach_of_determineExchangeRate {maximum : Long} (h_pos : 1 ≤ maximum.toNat)
    (h_names : env.NamesAtMost maximum) (h_first : ∀ amount ∈ firstTestPacketAmounts, amount ≤ maximum) :
    ∃ s, (DrivenController.machine DrivenController.UncappedWhenFixed).Reach DrivenController.LimitsLeaveRoom s ∧
      s.congestion = (env.determineExchangeRate precision { fixedPacketAmount := maximum }).2 := by
  have h_init : (DrivenController.machine DrivenController.UncappedWhenFixed).Reach
      DrivenController.LimitsLeaveRoom (probingController maximum) :=
    .init ⟨⟨h_pos, rfl, rfl, rfl, rfl, rfl⟩, .inl rfl⟩
  obtain ⟨s, h_leads, h_s⟩ := @leads_of_determineLoop env precision testPacketMaxAttempts 0
    firstTestPacketAmounts DrivenController.UncappedWhenFixed (probingController maximum) h_names rfl rfl
    (fun _ => rfl) h_first
  exact ⟨s, h_init.leads (h_leads.mono fun _ _ h => h.1), h_s⟩

end TestEnvironment

/-! ### Growth -/

namespace CongestionController

variable {cc : CongestionController}

/-- A fulfilled packet of the limit. -/
def raise (cc : CongestionController) : CongestionController := cc.onFulfill cc.testMaximumPacketAmount

/-- A packet of the limit raises it, and some number of them raise it to the maximum. -/
structure Converges (cc : CongestionController) : Prop where
  lt : cc.testMaximumPacketAmount < cc.raise.testMaximumPacketAmount
  le : cc.raise.testMaximumPacketAmount ≤ cc.getMaximumPacketAmount
  reaches : ∃ n, (raise^[n] cc).testMaximumPacketAmount = cc.getMaximumPacketAmount

/-- Doubling or adding a tenth is more, from ten on. -/
theorem lt_toNat_raise (h_lt : cc.testMaximumPacketAmount.toNat < cc.getMaximumPacketAmount.toNat)
    (h_ten : 10 ≤ cc.getMaximumPacketAmount.toNat) :
    cc.testMaximumPacketAmount.toNat < cc.raise.testMaximumPacketAmount.toNat ∧
      cc.raise.testMaximumPacketAmount.toNat ≤ cc.getMaximumPacketAmount.toNat := by
  unfold raise
  rw [toNat_onFulfill h_lt]
  by_cases h_max : cc.getMaximumPacketAmount = maxUnsignedValue
  · rw [if_pos h_max, h_max, toNat_maxUnsignedValue]
    rw [h_max, toNat_maxUnsignedValue] at h_lt
    by_cases h_zero : cc.testMaximumPacketAmount = 0
    · -- zero times two counts as an overflow
      rw [h_zero]
      decide
    · rw [toNat_double_limit (toNat_pos h_zero)]
      have h_pos := toNat_pos h_zero
      omega
  · rw [if_neg h_max]
    omega

theorem getMaximumPacketAmount_raise (cc : CongestionController) :
    cc.raise.getMaximumPacketAmount = cc.getMaximumPacketAmount :=
  getMaximumPacketAmount_onFulfill _ _

/-- The distance to the maximum shrinks until it is gone. -/
theorem exists_raise (h_le : cc.testMaximumPacketAmount.toNat ≤ cc.getMaximumPacketAmount.toNat)
    (h_ten : 10 ≤ cc.getMaximumPacketAmount.toNat) :
    ∃ n, (raise^[n] cc).testMaximumPacketAmount = cc.getMaximumPacketAmount := by
  induction h_distance : cc.getMaximumPacketAmount.toNat - cc.testMaximumPacketAmount.toNat
    using Nat.strong_induction_on generalizing cc with
  | _ distance ih =>
    by_cases h_eq : cc.testMaximumPacketAmount = cc.getMaximumPacketAmount
    · exact ⟨0, h_eq⟩
    · have h_ne : cc.testMaximumPacketAmount.toNat ≠ cc.getMaximumPacketAmount.toNat := fun h =>
        h_eq (BitVec.eq_of_toNat_eq h)
      have h_lt := Nat.lt_of_le_of_ne h_le h_ne
      obtain ⟨h_raised, h_raised_le⟩ := lt_toNat_raise h_lt h_ten
      have h_max := getMaximumPacketAmount_raise cc
      have h_reaches : ∃ n,
          (raise^[n] cc.raise).testMaximumPacketAmount = cc.raise.getMaximumPacketAmount := by
        apply ih (cc.getMaximumPacketAmount.toNat - cc.raise.testMaximumPacketAmount.toNat)
        · omega
        · rw [h_max]
          exact h_raised_le
        · rw [h_max]
          exact h_ten
        · rw [h_max]
      obtain ⟨n, h_n⟩ := h_reaches
      refine ⟨n + 1, ?_⟩
      rw [Function.iterate_succ_apply, h_n, h_max]

/-- **When the limit converges**: from any limit below the maximum, if that is at least ten. -/
theorem onFulfill_converges_iff (h : cc.testMaximumPacketAmount < cc.getMaximumPacketAmount) :
    Converges cc ↔ 10 ≤ cc.getMaximumPacketAmount.toNat := by
  have h_lt : cc.testMaximumPacketAmount.toNat < cc.getMaximumPacketAmount.toNat := h
  constructor
  · intro h_converges
    by_contra h_small
    -- a tenth is nothing
    have h_ne : cc.getMaximumPacketAmount ≠ maxUnsignedValue := by
      intro h_max
      rw [h_max] at h_small
      exact h_small (by decide)
    have h_raised : cc.testMaximumPacketAmount.toNat < cc.raise.testMaximumPacketAmount.toNat :=
      h_converges.lt
    unfold raise at h_raised
    rw [toNat_onFulfill h_lt, if_neg h_ne] at h_raised
    omega
  · intro h_ten
    obtain ⟨h_raised, h_raised_le⟩ := lt_toNat_raise h_lt h_ten
    exact ⟨h_raised, h_raised_le, exists_raise h_lt.le h_ten⟩

/-- From one to a hundred. -/
theorem onFulfill_converges_iff_hundred :
    Converges { testMaximumPacketAmount := 1, maximumPacketAmount := 100 } :=
  (onFulfill_converges_iff (by decide)).mpr (by decide)

end CongestionController

/-- **A limit that is stuck**: after a packet of the maximum, five, lacked liquidity, packets of four
are fulfilled without an effect. -/
theorem small_maximum_is_stuck :
    ∃ s, (DrivenController.machine fun _ => True).Reachable s ∧
      s.congestion.testMaximumPacketAmount = 4 ∧ s.congestion.getMaximumPacketAmount = 5 ∧
      s.congestion.raise = s.congestion := by
  have h : (DrivenController.machine fun _ => True).Reachable _ :=
    Machine.reach_of_exec (s := probingController 5)
      [.volley firstTestPacketAmounts 5, .load 5, .insufficientLiquidity 0]
      ⟨⟨by decide, rfl, rfl, rfl, rfl, rfl⟩, trivial⟩ rfl
  exact ⟨_, h, rfl, rfl, rfl⟩

end Interledger.Stream
