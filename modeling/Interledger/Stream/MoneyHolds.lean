import Interledger.Lib.Machine
import Interledger.Stream.CheckedLong
import Interledger.Stream.DataAndMoneyStream

/-!
# The money holds of a stream

A stream of `ilp-protocol-stream/src/stream.ts` may send up to its `sendMax`. What a packet takes is
held (`_holdOutgoing`) until the packet is fulfilled (`_executeHold`) or rejected (`_cancelHold`), and
no more is held than `_getAmountAvailableToSend` finds: `sendMax`, less what was sent, less what is
held.

The application may lower `sendMax` as long as it stays above what was sent, so that both
subtractions may be out of range. `checkedSubtract` sees that only up to a bound
(`UnderflowSeen`); past it, an amount that is not there counts as available, and is held.

## Main results

* `MoneyHolds.hold`, `MoneyHolds.execute`, `MoneyHolds.cancel` — what each step preserves;
* `holds_within_sendMax` — the counters, in every run that holds money only while the available
  amount is computed exactly;
* `hold_wraps_around` — a hold after `sendMax` was lowered from the largest amount to nothing.
-/

namespace Interledger.Stream

open Long

/-- A stream, with what was done to it: the ids that money was held under, the amounts of the holds
that were executed, and the greatest `sendMax` so far. -/
structure HoldingStream where
  stream : DataAndMoneyStream
  usedIds : List ℕ
  executed : List Long
  greatestSendMax : Long
  deriving DecidableEq

/-- What happens to the money of a stream. -/
inductive MoneyEvent
  | setSendMax (limit : Long)
  | holdOutgoing (holdId : ℕ) (maxAmount : Long)
  | executeHold (holdId : ℕ)
  | cancelHold (holdId : ℕ)
  deriving DecidableEq

namespace HoldingStream

variable (s : HoldingStream)

/-- A stream that has sent and holds nothing. -/
def Initial : Prop :=
  s.stream.totalSent = 0 ∧ s.stream.outgoingHeldAmount = 0 ∧ s.stream.holds = .empty ∧
    s.usedIds = [] ∧ s.executed = [] ∧ s.greatestSendMax = s.stream.sendMax

/-- One event. A limit that is refused changes nothing, and money is held under a new id each time. -/
def step : MoneyEvent → Option HoldingStream
  | .setSendMax limit =>
    (s.stream.setSendMax limit).map fun stream =>
      { s with stream := stream, greatestSendMax := maxLong s.greatestSendMax limit }
  | .holdOutgoing holdId maxAmount =>
    if holdId ∈ s.usedIds then none
    else
      some { s with
        stream := s.stream.holdOutgoing holdId maxAmount, usedIds := s.usedIds ++ [holdId] }
  | .executeHold holdId =>
    some { s with
      stream := s.stream.executeHold holdId
      executed := s.executed ++ (s.stream.holds.get? holdId).toList }
  | .cancelHold holdId => some { s with stream := s.stream.cancelHold holdId }

/-- The runs of a stream. -/
def machine : Machine HoldingStream MoneyEvent where
  init := Initial
  step := step

/-- Money is held only while both subtractions for the available amount are judged rightly. -/
def AvailabilityExact (s : HoldingStream) : MoneyEvent → Prop
  | .holdOutgoing _ _ =>
    UnderflowSeen s.stream.sendMax s.stream.totalSent ∧
      UnderflowSeen (checkedSubtract s.stream.sendMax s.stream.totalSent).1
        s.stream.outgoingHeldAmount
  | _ => True

instance : ∀ e, Decidable (AvailabilityExact s e)
  | .holdOutgoing _ _ => inferInstanceAs (Decidable (_ ∧ _))
  | .setSendMax _ | .executeHold _ | .cancelHold _ => inferInstanceAs (Decidable True)

end HoldingStream

/-- The counters of a stream account for its holds, and stay within the greatest `sendMax`. -/
structure MoneyHolds (s : HoldingStream) : Prop where
  held : s.stream.outgoingHeldAmount.toNat = s.stream.holds.sum BitVec.toNat
  sent : s.stream.totalSent.toNat = (s.executed.map BitVec.toNat).sum
  within : s.stream.totalSent.toNat + s.stream.outgoingHeldAmount.toNat ≤ s.greatestSendMax.toNat
  sendMax_le : s.stream.sendMax.toNat ≤ s.greatestSendMax.toNat
  used : ∀ k, s.stream.holds.get? k ≠ none → k ∈ s.usedIds

namespace MoneyHolds

variable {s t : HoldingStream}

theorem initial (h : s.Initial) : MoneyHolds s := by
  obtain ⟨h_sent, h_held, h_holds, -, h_executed, h_greatest⟩ := h
  have h_zero : (0 : Long).toNat = 0 := rfl
  refine ⟨?_, ?_, ?_, ?_, ?_⟩
  · rw [h_held, h_holds]
    rfl
  · rw [h_sent, h_executed]
    rfl
  · rw [h_sent, h_held, h_zero]
    exact Nat.zero_le _
  · rw [h_greatest]
  · intro k h_hold
    rw [h_holds] at h_hold
    exact absurd rfl h_hold

/-- A new limit changes neither counter. -/
theorem setSendMax {limit : Long} {stream : DataAndMoneyStream} (h : MoneyHolds s)
    (h_set : s.stream.setSendMax limit = some stream) :
    MoneyHolds { s with stream := stream, greatestSendMax := maxLong s.greatestSendMax limit } := by
  unfold DataAndMoneyStream.setSendMax at h_set
  split at h_set
  · cases h_set
  obtain rfl := Option.some.inj h_set
  have h_max : (maxLong s.greatestSendMax limit).toNat =
      max s.greatestSendMax.toNat limit.toNat := toNat_maxLong _ _
  refine ⟨h.held, h.sent, ?_, ?_, h.used⟩
  · rw [h_max]
    exact h.within.trans (Nat.le_max_left _ _)
  · rw [h_max]
    exact Nat.le_max_right _ _

/-- What is available is what `sendMax` leaves. -/
theorem toNat_amountAvailableToSend_le
    (h_exact : UnderflowSeen s.stream.sendMax s.stream.totalSent ∧
      UnderflowSeen (checkedSubtract s.stream.sendMax s.stream.totalSent).1
        s.stream.outgoingHeldAmount) :
    s.stream.amountAvailableToSend.toNat ≤ s.stream.sendMax.toNat - s.stream.totalSent.toNat
      - s.stream.outgoingHeldAmount.toNat := by
  unfold DataAndMoneyStream.amountAvailableToSend
  split
  · exact Nat.zero_le _
  · rw [toNat_checkedSubtract_of_seen h_exact.2, toNat_checkedSubtract_of_seen h_exact.1]

/-- **Holding money** that is available. -/
theorem hold (h : MoneyHolds s) {holdId : ℕ} (h_new : holdId ∉ s.usedIds) (maxAmount : Long)
    (h_exact : s.AvailabilityExact (.holdOutgoing holdId maxAmount)) :
    MoneyHolds
      { s with
        stream := s.stream.holdOutgoing holdId maxAmount, usedIds := s.usedIds ++ [holdId] } := by
  have h_available := toNat_amountAvailableToSend_le h_exact
  have h_amount : (minLong s.stream.amountAvailableToSend maxAmount).toNat ≤
      s.stream.amountAvailableToSend.toNat := by
    rw [toNat_minLong]
    exact Nat.min_le_left _ _
  have h_kept : ∀ k, s.stream.holds.get? k ≠ none → k ∈ s.usedIds ++ [holdId] := fun k h_hold =>
    List.mem_append_left _ (h.used k h_hold)
  unfold DataAndMoneyStream.holdOutgoing
  simp only
  generalize minLong s.stream.amountAvailableToSend maxAmount = amount at h_amount ⊢
  by_cases h_pos : amount > 0
  · rw [if_pos h_pos]
    have h_nat : 0 < amount.toNat := h_pos
    have h_within := h.within
    have h_sendMax := h.sendMax_le
    have h_lt := s.greatestSendMax.isLt
    -- what is held does not wrap around, for it stays below the limit
    have h_sum : (s.stream.outgoingHeldAmount + amount).toNat =
        s.stream.outgoingHeldAmount.toNat + amount.toNat := by
      rw [BitVec.toNat_add, Nat.mod_eq_of_lt (by omega)]
    -- a new id replaces no hold
    have h_free : s.stream.holds.get? holdId = none := by
      by_contra h_hold
      exact h_new (h.used holdId h_hold)
    refine ⟨?_, h.sent, ?_, h.sendMax_le, ?_⟩
    · change (s.stream.outgoingHeldAmount + amount).toNat =
        (s.stream.holds.set holdId amount).sum BitVec.toNat
      rw [h_sum, OrderedMap.sum_set _ h_free, h.held]
    · change s.stream.totalSent.toNat + (s.stream.outgoingHeldAmount + amount).toNat ≤
        s.greatestSendMax.toNat
      rw [h_sum]
      omega
    · intro k h_hold
      change (s.stream.holds.set holdId amount).get? k ≠ none at h_hold
      by_cases h_eq : k = holdId
      · rw [h_eq]
        exact List.mem_append_right _ (List.mem_singleton_self _)
      · rw [OrderedMap.get?_set, if_neg h_eq] at h_hold
        exact h_kept k h_hold
  · rw [if_neg h_pos]
    exact ⟨h.held, h.sent, h.within, h.sendMax_le, h_kept⟩

/-- A hold that is gone is under an id that was used. -/
theorem used_erase (h : MoneyHolds s) {holdId k : ℕ}
    (h_hold : (s.stream.holds.erase holdId).get? k ≠ none) : k ∈ s.usedIds := by
  rw [OrderedMap.get?_erase] at h_hold
  split at h_hold
  · exact absurd rfl h_hold
  · exact h.used k h_hold

/-- Taking a hold off the held amount. -/
theorem toNat_release (h : MoneyHolds s) {holdId : ℕ} {amount : Long}
    (h_get : s.stream.holds.get? holdId = some amount) :
    (s.stream.outgoingHeldAmount - amount).toNat =
        (s.stream.holds.erase holdId).sum BitVec.toNat ∧
      (s.stream.outgoingHeldAmount - amount).toNat + amount.toNat =
        s.stream.outgoingHeldAmount.toNat := by
  have h_sum := OrderedMap.sum_erase BitVec.toNat h_get
  have h_held := h.held
  have h_le : amount ≤ s.stream.outgoingHeldAmount := by
    rw [BitVec.le_def]
    omega
  have h_sub : (s.stream.outgoingHeldAmount - amount).toNat =
      s.stream.outgoingHeldAmount.toNat - amount.toNat := BitVec.toNat_sub_of_le h_le
  rw [h_sub]
  omega

/-- **Executing a hold** sends what was held. -/
theorem execute (h : MoneyHolds s) (holdId : ℕ) :
    MoneyHolds
      { s with
        stream := s.stream.executeHold holdId
        executed := s.executed ++ (s.stream.holds.get? holdId).toList } := by
  unfold DataAndMoneyStream.executeHold
  cases h_get : s.stream.holds.get? holdId with
  | none =>
    rw [Option.toList_none, List.append_nil]
    exact h
  | some amount =>
    obtain ⟨h_left, h_release⟩ := h.toNat_release h_get
    have h_within := h.within
    have h_lt := s.greatestSendMax.isLt
    -- nothing wraps around: sent and held together are below the limit
    have h_sum : (s.stream.totalSent + amount).toNat = s.stream.totalSent.toNat + amount.toNat := by
      rw [BitVec.toNat_add, Nat.mod_eq_of_lt (by omega)]
    refine ⟨h_left, ?_, ?_, h.sendMax_le, fun k h_hold => h.used_erase h_hold⟩
    · change (s.stream.totalSent + amount).toNat = ((s.executed ++ [amount]).map BitVec.toNat).sum
      rw [h_sum, List.map_append, List.sum_append, ← h.sent, List.map_singleton, List.sum_singleton]
    · change (s.stream.totalSent + amount).toNat + (s.stream.outgoingHeldAmount - amount).toNat ≤
        s.greatestSendMax.toNat
      rw [h_sum]
      omega

/-- **Cancelling a hold** gives back what was held. -/
theorem cancel (h : MoneyHolds s) (holdId : ℕ) :
    MoneyHolds { s with stream := s.stream.cancelHold holdId } := by
  unfold DataAndMoneyStream.cancelHold
  cases h_get : s.stream.holds.get? holdId with
  | none => exact h
  | some amount =>
    obtain ⟨h_left, h_release⟩ := h.toNat_release h_get
    have h_within := h.within
    refine ⟨h_left, h.sent, ?_, h.sendMax_le, fun k h_hold => h.used_erase h_hold⟩
    change s.stream.totalSent.toNat + (s.stream.outgoingHeldAmount - amount).toNat ≤
      s.greatestSendMax.toNat
    omega

theorem step {e : MoneyEvent} (h : MoneyHolds s) (h_ok : s.AvailabilityExact e)
    (h_step : s.step e = some t) : MoneyHolds t := by
  cases e with
  | setSendMax limit =>
    obtain ⟨stream, h_set, rfl⟩ := Option.map_eq_some_iff.mp h_step
    exact h.setSendMax h_set
  | holdOutgoing holdId maxAmount =>
    unfold HoldingStream.step at h_step
    simp only at h_step
    -- an id is used only once
    split at h_step
    case isTrue => cases h_step
    case isFalse h_new =>
      obtain rfl := Option.some.inj h_step
      exact h.hold h_new maxAmount h_ok
  | executeHold holdId =>
    obtain rfl := Option.some.inj h_step
    exact h.execute holdId
  | cancelHold holdId =>
    obtain rfl := Option.some.inj h_step
    exact h.cancel holdId

theorem of_reach (h : HoldingStream.machine.Reach HoldingStream.AvailabilityExact s) :
    MoneyHolds s :=
  h.invariant _ (fun _ h_init => initial h_init) fun _ _ _ _ h_inv h_ok h_step =>
    h_inv.step h_ok h_step

end MoneyHolds

/-- **The holds of a stream.** In every run that holds money only while the available amount is
computed exactly, the held amount is the sum of the holds, the total sent is the sum of the executed
ones, and together they are within the greatest `sendMax`. -/
theorem holds_within_sendMax {s : HoldingStream}
    (h : HoldingStream.machine.Reach HoldingStream.AvailabilityExact s) :
    s.stream.outgoingHeldAmount.toNat = s.stream.holds.sum BitVec.toNat ∧
      s.stream.totalSent.toNat = (s.executed.map BitVec.toNat).sum ∧
      s.stream.totalSent.toNat + s.stream.outgoingHeldAmount.toNat ≤ s.greatestSendMax.toNat := by
  have h_holds := MoneyHolds.of_reach h
  exact ⟨h_holds.held, h_holds.sent, h_holds.within⟩

/-- A stream that was just created. -/
def newHoldingStream : HoldingStream where
  stream := .created
  usedIds := []
  executed := []
  greatestSendMax := 0

/-- The limit is lowered below what is held, and what is held is sent. -/
theorem holds_within_sendMax_lowered :
    ∃ s, HoldingStream.machine.Reachable s ∧ s.stream.totalSent = 60 ∧ s.stream.sendMax = 50 ∧
      s.stream.totalSent.toNat + s.stream.outgoingHeldAmount.toNat ≤ s.greatestSendMax.toNat := by
  have h : HoldingStream.machine.Reach HoldingStream.AvailabilityExact _ :=
    Machine.reach_of_exec (s := newHoldingStream)
      [.setSendMax 100, .holdOutgoing 1 60, .setSendMax 50, .holdOutgoing 2 60, .executeHold 1]
      ⟨rfl, rfl, rfl, rfl, rfl, rfl⟩ rfl
  exact ⟨_, h.reachable, rfl, rfl, (holds_within_sendMax h).2.2⟩

/-- **A hold that wraps around**: with the largest amount held and the limit lowered to nothing, one
more counts as available. Holding it leaves nothing held. -/
theorem hold_wraps_around :
    ∃ s, HoldingStream.machine.Reachable s ∧ s.stream.outgoingHeldAmount = 0 ∧
      s.stream.holds.sum BitVec.toNat = 2 ^ 64 := by
  have h : HoldingStream.machine.Reachable _ :=
    Machine.reach_of_exec (s := newHoldingStream)
      [.setSendMax maxUnsignedValue, .holdOutgoing 1 maxUnsignedValue, .setSendMax 0,
        .holdOutgoing 2 1]
      ⟨rfl, rfl, rfl, rfl, rfl, rfl⟩ rfl
  exact ⟨_, h, rfl, rfl⟩

end Interledger.Stream
