import Interledger.Pay.Completion

/-!
# A payment does not stall

An attempt that yields schedules no other, so the send loop goes on only while some request is
unanswered or some attempt is scheduled. `nextState` yields when a limit of the payment is reached,
in the belief that a request is still in flight then.

It is, for a fixed send: once the maximum is sent, the payment is complete. A fixed delivery may
spend what its amount costs at the minimum rate, rounded down, and one unit more, while its
corrected packet may deliver one source unit less than the minimum rate. At minimum rates above 1
the unit added does not always make up for what rounding down took: the delivery can fall short of
its target with nothing left to send, and the loop waits for ever. The condition is on the
remainder that rounding down dropped, `CoversRounding`.

## Main results

* `Unpaid.of_reach` — a loop still running has not met its target;
* `payment_progress` — the loop goes on in every run of a quote that covers the rounding;
* `payment_stalls` — a fixed delivery at rate 3 that waits for ever.
-/

namespace Interledger.Pay

variable {quote : IntQuote} {requestCounter : ℕ} {destinationAsset : Option AssetDetails}
  {ok : PaymentLoop → SendEvent → Prop} {l l' : PaymentLoop} {env : Env}

/-- While the loop is running the payment is not complete. -/
structure Unpaid (quote : IntQuote) (l : PaymentLoop) : Prop where
  /-- A fixed send has not sent its maximum. -/
  fixedSend : l.outcome = none → quote.paymentType = .fixedSend →
    l.sender.amountSent < quote.maxSourceAmount
  /-- A fixed delivery with nothing in flight has not delivered its minimum. -/
  fixedDelivery : l.outcome = none → quote.paymentType = .fixedDelivery →
    l.sender.sourceAmountInFlight = 0 → l.sender.amountDelivered < quote.minDeliveryAmount

namespace Unpaid

theorem initial (h_quote : quote.Coherent)
    (h : (payment quote requestCounter destinationAsset).init l) : Unpaid quote l := by
  obtain rfl := h
  exact
    { fixedSend := fun _ _ => quote.maxSourceAmount.pos
      fixedDelivery := fun _ h_type _ => (h_quote.fixedDelivery h_type).2.1 }

theorem of_eq (h : Unpaid quote l) (h_run : l.outcome = none) (h_sender : l'.sender = l.sender) :
    Unpaid quote l' where
  fixedSend _ h_type := by
    rw [h_sender]
    exact h.fixedSend h_run h_type
  fixedDelivery _ h_type := by
    rw [h_sender]
    exact h.fixedDelivery h_run h_type

theorem step {e : SendEvent} (h : Unpaid quote l) (h_acc : Accounting quote l)
    (h_step : (payment quote requestCounter destinationAsset).step l e = some l') :
    Unpaid quote l' := by
  cases e with
  | attempt env =>
    obtain ⟨h_run, -, -, ⟨h_s, -⟩ | ⟨state, h_next, -⟩ | ⟨r, h_next, -⟩⟩ :=
      SendLoop.step_attempt h_step
    · exact h.of_eq h_run h_s
    · exact h.of_eq h_run (PaymentSender.nextState_cancel h_next).1
    · have h_sends := PaymentSender.nextState_send h_next
      obtain ⟨completesPayment, h_sized, -⟩ := h_sends.sized
      refine ⟨fun _ h_type => ?_, fun _ _ h_zero => ?_⟩
      · rw [h_sends.sender]
        exact h.fixedSend h_run h_type
      · -- the request is in flight
        rw [h_sends.sender] at h_zero
        exact absurd h_zero (Nat.add_pos_right _ h_sized.pos).ne'
  | reply env i reply =>
    obtain ⟨r, h_replied⟩ := SendLoop.step_reply h_step
    have h_same : PaymentSender.SameAccounts (l.sender.account r reply) l'.sender := by
      rw [h_replied.sender]
      exact PaymentSender.applyReply_accounting r reply
    -- a reply that does not end the loop found the payment incomplete
    have h_unpaid : l'.outcome = none → l'.sender.isPaid quote = false := by
      intro h_run
      obtain ⟨-, ⟨h_sched, -⟩ | ⟨h_yield, -⟩⟩ := h_replied.running h_run
      · rw [PaymentSender.isPaid_congr h_same]
        exact PaymentSender.applyReply_schedule h_sched
      · exact absurd h_yield (PaymentSender.applyReply_ne_yield r reply)
    have h_limit := (h_acc.replied h_replied).limit
    constructor
    · intro h_run h_type
      have h_ne := h_unpaid h_run
      simp only [PaymentSender.isPaid, h_type, decide_eq_false_iff_not] at h_ne
      omega
    · intro h_run h_type h_zero
      have h_ne := h_unpaid h_run
      simp only [PaymentSender.isPaid, h_type, h_zero, decide_true, Bool.and_true,
        decide_eq_false_iff_not, not_le] at h_ne
      exact h_ne

theorem of_reach (h_quote : quote.Coherent)
    (h : (payment quote requestCounter destinationAsset).Reach ok l) : Unpaid quote l :=
  h.invariant _ (fun _ h_init => initial h_quote h_init)
    fun _ _ _ h_reach h_inv _ h_step => h_inv.step (Accounting.of_reach h_reach) h_step

end Unpaid

/-- What rounding the source amount of a fixed delivery down drops is less than the rate's
denominator, so that all but one unit of it still deliver the target at the minimum rate. Holds
of every rate up to 1. -/
def CoversRounding (quote : IntQuote) : Prop :=
  quote.paymentType = .fixedDelivery →
    quote.minDeliveryAmount * quote.minExchangeRate.b % quote.minExchangeRate.a
      < quote.minExchangeRate.b

/-- A fixed delivery that has spent its maximum with one correction has met its target. -/
theorem minDelivery_le_of_covers (h_quote : quote.Coherent) (h_covers : CoversRounding quote)
    (h_type : quote.paymentType = .fixedDelivery) :
    quote.minDeliveryAmount
      ≤ multiplyCeil (quote.maxSourceAmount - 1) quote.minExchangeRate := by
  obtain ⟨h_rate, h_target, h_max⟩ := h_quote.fixedDelivery h_type
  have h_mod := h_covers h_type
  rw [h_max, Nat.add_sub_cancel]
  generalize quote.minDeliveryAmount = T at *
  generalize quote.minExchangeRate = r at *
  -- otherwise the target less one costs as much as the rounded amount
  by_contra h_lt
  have h_le : T * r.b / r.a * r.a ≤ (T - 1) * r.b :=
    multiplyCeil_le_iff.mp (Nat.le_sub_one_of_lt (not_le.mp h_lt))
  have h_div := Nat.div_add_mod (T * r.b) r.a
  rw [Nat.sub_mul, Nat.one_mul] at h_le
  rw [Nat.mul_comm r.a] at h_div
  have h_b : r.b ≤ T * r.b := Nat.le_mul_of_pos_left _ h_target
  omega

/-- At a limit of a payment that is not complete, a request is in flight. -/
theorem unanswered_of_limitsReached (h_quote : quote.Coherent) (h_covers : CoversRounding quote)
    (h : (payment quote requestCounter destinationAsset).Reach
      (fun l e => quote.paymentType = .fixedDelivery → KeepsCorrection quote l e) l)
    (h_run : l.outcome = none) (h_limit : PaymentSender.limitsReached quote l.sender) :
    l.unanswered ≠ [] := by
  intro h_nil
  have h_acc := Accounting.of_reach h
  have h_unpaid := Unpaid.of_reach h_quote h
  have h_source : l.sender.sourceAmountInFlight = 0 := by rw [h_acc.sourceInFlight, h_nil]; rfl
  have h_dest : l.sender.destinationAmountInFlight = 0 := by
    rw [h_acc.destinationInFlight, h_nil]
    rfl
  rcases h_limit with h_avail | ⟨h_type, h_rem⟩
  · rw [PaymentSender.availableToSend_eq, h_source] at h_avail
    cases h_type : quote.paymentType with
    | fixedSend =>
      have h_lt := h_unpaid.fixedSend h_run h_type
      omega
    | fixedDelivery =>
      have h_corr := (Correction.of_reach (h.mono fun _ _ h_ok => h_ok h_type)).le_one
      rw [corrections_append] at h_corr
      -- all of the maximum was sent, at most one packet of it corrected
      have h_target := minDelivery_le_of_covers h_quote h_covers h_type
      have h_mono : multiplyCeil (quote.maxSourceAmount - 1) quote.minExchangeRate
          ≤ multiplyCeil (l.sender.amountSent - corrections l.fulfilled) quote.minExchangeRate :=
        multiplyCeil_mono (by omega) _
      have h_delivered := delivered_ge h
      have h_lt := h_unpaid.fixedDelivery h_run h_type h_source
      omega
  · have h_lt := h_unpaid.fixedDelivery h_run h_type h_source
    rw [PaymentSender.remainingToDeliver_eq, h_dest] at h_rem
    omega

/-- **A payment does not stall.** Take a quote that covers the rounding, and a run that keeps the
rounding correction when it is a fixed delivery. While the loop has not ended, a request is
unanswered or an attempt is scheduled; and `nextState` yields only with a request in flight. -/
theorem payment_progress (h_quote : IsQuote quote) (h_covers : CoversRounding quote)
    (h : (payment quote requestCounter destinationAsset).Reach
      (fun l e => quote.paymentType = .fixedDelivery → KeepsCorrection quote l e) l)
    (h_run : l.outcome = none) :
    (l.unanswered ≠ [] ∨ 0 < l.scheduled) ∧
    ((PaymentSender.nextState quote l.sender l.controllers).2 = .cancel .yield →
      l.unanswered ≠ []) := by
  have h_yield : ∀ l : PaymentLoop,
      (payment quote requestCounter destinationAsset).Reach
        (fun l e => quote.paymentType = .fixedDelivery → KeepsCorrection quote l e) l →
      l.outcome = none →
      (PaymentSender.nextState quote l.sender l.controllers).2 = .cancel .yield →
      l.unanswered ≠ [] := by
    intro l h h_run h_next
    rcases (PaymentSender.nextState_cancel (Prod.ext rfl h_next)).2 with ⟨-, h_limit⟩ | ⟨⟨⟩⟩
    exact unanswered_of_limitsReached h_quote.coherent h_covers h h_run h_limit
  refine ⟨?_, h_yield l h h_run⟩
  exact SendLoop.Reach.unanswered_or_scheduled rfl (fun _ h => h)
    (fun l _ h h_run h_next => h_yield l h h_run h_next)
    (fun _ _ request reply _ => PaymentSender.applyReply_ne_yield request reply) h h_run

/-- Both of its packets are sent, the second one corrected, and the first one is fulfilled. The attempt
after that finds nothing left to send and yields, while the second packet is in flight. -/
theorem payment_progress_small :
    CoversRounding partQuote ∧ ∃ l, (payment partQuote 0 none).Reachable l ∧ l.outcome = none ∧
      l.scheduled = 0 ∧ l.sender.appliedRoundingCorrection = true ∧
      (PaymentSender.nextState partQuote l.sender l.controllers).2 = .cancel .yield ∧ l.unanswered ≠ [] := by
  have h_covers : CoversRounding partQuote := fun _ => by decide
  have h : (payment partQuote 0 none).Reach
      (fun l e => partQuote.paymentType = .fixedDelivery → KeepsCorrection partQuote l e) _ :=
    Machine.reach_of_exec [attemptNow, attemptNow, attemptNow, fulfillNow 0 300, attemptNow] rfl rfl
  exact ⟨h_covers, _, h.reachable, rfl, rfl, rfl, rfl,
    (payment_progress partQuote_isQuote h_covers h rfl).2 rfl⟩

/-- **A payment that stalls**: the only packet of a fixed delivery of 10 units takes all 4 units
that may be sent and, being corrected, asks for 9. The rate has dropped and it delivers no more; the
next attempt finds nothing left to send and yields, with no reply outstanding. -/
theorem payment_stalls :
    IsQuote tripleQuote ∧ ∃ l, (payment tripleQuote 0 none).Reachable l ∧ l.outcome = none ∧
      l.unanswered = [] ∧ l.scheduled = 0 ∧
      l.sender.amountDelivered < tripleQuote.minDeliveryAmount := by
  have h_quote : IsQuote tripleQuote :=
    ⟨{ amountToDeliver := some 10 }, 0, .ok { a := 3, b := 1 },
      .ok
        { maxPacketAmount := 100
          lowEstimatedExchangeRate := { a := 300, b := 100 }
          highEstimatedExchangeRate := { a := 301, b := 100 } }, _, rfl, rfl⟩
  have h : (payment tripleQuote 0 none).Reachable _ :=
    Machine.reach_of_exec [attemptNow, attemptNow, fulfillNow 0 9, attemptNow] rfl rfl
  exact ⟨h_quote, _, h, rfl, rfl, rfl, by decide⟩

end Interledger.Pay
