import Interledger.Pay.PaymentSender

/-!
# The accounting of a payment

However sends and replies interleave, the counters of a `PaymentSender` are exact and it never
overpays. The counters in flight are decreased by saturating subtraction, which would hide an
amount counted too low; that it never saturates is the content of the invariant `Accounting`, which
ties each counter to the requests it stands for.

## Main results

* `Accounting.initial`, `Accounting.step` — the invariant and its preservation by each event;
* `payment_accounting` — the accounting of every reachable state.
-/

namespace Interledger.Pay

variable {quote : IntQuote} {requestCounter : ℕ} {destinationAsset : Option AssetDetails}
  {ok : PaymentLoop → SendEvent → Prop} {l l' : PaymentLoop} {env : Env}

/-- All requests that were sent, answered or not. -/
def SendLoop.requests {σ ρ τ : Type} (l : SendLoop σ ρ τ) : List ρ :=
  l.unanswered ++ l.answered.map Prod.fst

/-- The sum of the source amounts of some requests. -/
def totalSource (rs : List PaymentRequest) : ℕ := (rs.map PaymentRequest.sourceAmount).sum

/-- The sum of the high-end destination estimates of some requests. -/
def totalHighEnd (rs : List PaymentRequest) : ℕ :=
  (rs.map PaymentRequest.highEndDestinationAmount).sum

section Totals

variable (rs rs' : List PaymentRequest) (r : PaymentRequest)

@[simp] theorem totalSource_nil : totalSource [] = 0 := rfl

@[simp] theorem totalHighEnd_nil : totalHighEnd [] = 0 := rfl

@[simp] theorem totalSource_append : totalSource (rs ++ rs') = totalSource rs + totalSource rs' := by
  unfold totalSource
  rw [List.map_append, List.sum_append]

@[simp] theorem totalHighEnd_append :
    totalHighEnd (rs ++ rs') = totalHighEnd rs + totalHighEnd rs' := by
  unfold totalHighEnd
  rw [List.map_append, List.sum_append]

@[simp] theorem totalSource_singleton : totalSource [r] = r.sourceAmount := List.sum_singleton

@[simp] theorem totalHighEnd_singleton : totalHighEnd [r] = r.highEndDestinationAmount :=
  List.sum_singleton

variable {rs r}

theorem totalSource_eraseIdx {i : ℕ} (h : rs[i]? = some r) :
    totalSource rs = r.sourceAmount + totalSource (rs.eraseIdx i) :=
  sum_map_eraseIdx _ h

theorem totalHighEnd_eraseIdx {i : ℕ} (h : rs[i]? = some r) :
    totalHighEnd rs = r.highEndDestinationAmount + totalHighEnd (rs.eraseIdx i) :=
  sum_map_eraseIdx _ h

/-- The source amount of a request is part of the total. -/
theorem le_totalSource {i : ℕ} (h : rs[i]? = some r) : r.sourceAmount ≤ totalSource rs := by
  rw [totalSource_eraseIdx h]
  exact Nat.le_add_right _ _

end Totals

/-! ### The invariant -/

/-- A request within the limits it was sized by. -/
structure Bounded (r : PaymentRequest) : Prop where
  pos : 1 ≤ r.sourceAmount
  le_max : ∃ m : ℕ+, r.maxPacketAmount = some m ∧ r.sourceAmount ≤ min maxU64 m

/-- The counters of the sender against the requests of the loop. -/
structure Accounting (quote : IntQuote) (l : PaymentLoop) : Prop where
  /-- The source amount in flight is that of the unanswered requests. -/
  sourceInFlight : l.sender.sourceAmountInFlight = totalSource l.unanswered
  /-- So is the estimate of the destination amount. -/
  destinationInFlight : l.sender.destinationAmountInFlight = totalHighEnd l.unanswered
  /-- The amount sent is that of the fulfilled requests. -/
  sent : l.sender.amountSent = totalSource l.fulfilled
  /-- No more than the maximum is sent or in flight. -/
  limit : l.sender.amountSent + l.sender.sourceAmountInFlight ≤ quote.maxSourceAmount
  /-- The limit on packets is known. -/
  known : l.controllers.maxPacketController.state ≠ .unknownMax
  /-- Every request kept to it. -/
  bounded : ∀ r ∈ l.requests, Bounded r

namespace Accounting

/-- An attempt that sends nothing leaves the accounts alone. -/
theorem of_eq (h : Accounting quote l) (h_sender : l'.sender = l.sender)
    (h_controllers : l'.controllers = l.controllers) (h_unanswered : l'.unanswered = l.unanswered)
    (h_answered : l'.answered = l.answered) : Accounting quote l' where
  sourceInFlight := by rw [h_sender, h_unanswered, h.sourceInFlight]
  destinationInFlight := by rw [h_sender, h_unanswered, h.destinationInFlight]
  sent := by rw [h_sender, h.sent, SendLoop.fulfilled, SendLoop.fulfilled, h_answered]
  limit := by rw [h_sender]; exact h.limit
  known := by rw [h_controllers]; exact h.known
  bounded := by
    unfold SendLoop.requests
    rw [h_unanswered, h_answered]
    exact h.bounded

theorem initial (h : (payment quote requestCounter destinationAsset).init l) :
    Accounting quote l := by
  obtain rfl := h
  exact
    { sourceInFlight := rfl
      destinationInFlight := rfl
      sent := rfl
      limit := Nat.zero_le _
      known := by rintro ⟨⟩
      bounded := by rintro r ⟨⟩ }

/-- A sent request is within its limits. -/
theorem bounded_of_sends {s s' : PaymentSender} {c : Controllers} {r : PaymentRequest}
    (h_known : c.maxPacketController.state ≠ .unknownMax)
    (h : PaymentSender.Sends quote s c s' r) : Bounded r := by
  obtain ⟨completesPayment, h_sized, -⟩ := h.sized
  obtain ⟨m, hm⟩ := MaxPacketAmountController.getNextMaxPacketAmount_of_known h_known
  refine ⟨h_sized.pos, m, h.maxPacketAmount.trans hm, ?_⟩
  exact le_min h_sized.le_maxU64 (h_sized.le_maxPacketAmount m hm)

/-- Sending a request takes its amounts into account. -/
theorem sends (h : Accounting quote l) {r : PaymentRequest}
    (h_next : PaymentSender.nextState quote l.sender l.controllers = (l'.sender, .send r))
    (h_controllers : l'.controllers = l.controllers.applyRequest env)
    (h_unanswered : l'.unanswered = l.unanswered ++ [r])
    (h_answered : l'.answered = l.answered) : Accounting quote l' := by
  have h_sends := PaymentSender.nextState_send h_next
  obtain ⟨completesPayment, h_sized, -⟩ := h_sends.sized
  have h_avail := h_sized.le_available
  rw [PaymentSender.availableToSend_eq] at h_avail
  refine ⟨?_, ?_, ?_, ?_, ?_, ?_⟩
  · -- both amounts in flight grow by those of the request
    rw [h_sends.sender, h_unanswered]
    simp only [h.sourceInFlight, totalSource_append, totalSource_singleton]
  · rw [h_sends.sender, h_unanswered]
    simp only [h.destinationInFlight, totalHighEnd_append, totalHighEnd_singleton]
  · rw [h_sends.sender, SendLoop.fulfilled, h_answered]
    exact h.sent
  · -- the size was at most what the maximum leaves
    rw [h_sends.sender]
    have h_limit := h.limit
    have h_pos := h_sized.pos
    simp only
    omega
  · rw [h_controllers, Controllers.applyRequest_maxPacketController]
    exact h.known
  · intro r' hr'
    -- the requests are those of before and the one that is sent
    rw [SendLoop.requests, h_unanswered, h_answered, List.append_assoc, List.mem_append,
      List.singleton_append, List.mem_cons] at hr'
    rcases hr' with h_old | rfl | h_old
    · exact h.bounded _ (List.mem_append_left _ h_old)
    · exact bounded_of_sends h.known h_sends
    · exact h.bounded _ (List.mem_append_right _ h_old)

/-- A reply moves its request from the amounts in flight to the amount sent, or drops it. -/
theorem replied (h : Accounting quote l) {i : ℕ} {reply : StreamReply} {r : PaymentRequest}
    (h_replied : SendLoop.Replied (PaymentSender.streamSender quote) env i reply r l l') :
    Accounting quote l' := by
  have h_acc : PaymentSender.SameAccounts (l.sender.account r reply) l'.sender := by
    rw [h_replied.sender]
    exact PaymentSender.applyReply_accounting r reply
  have h_source := totalSource_eraseIdx h_replied.get
  have h_dest := totalHighEnd_eraseIdx h_replied.get
  refine ⟨?_, ?_, ?_, ?_, ?_, ?_⟩
  · -- the subtraction does not saturate, as the request is part of the total
    rw [h_acc.sourceAmountInFlight, h_replied.unanswered]
    simp only [PaymentSender.account, saturatingSubtract_eq, h.sourceInFlight]
    omega
  · rw [h_acc.destinationAmountInFlight, h_replied.unanswered]
    simp only [PaymentSender.account, saturatingSubtract_eq, h.destinationInFlight]
    omega
  · rw [h_acc.amountSent, h_replied.fulfilled, totalSource_append]
    simp only [PaymentSender.account, h.sent]
    split <;> simp
  · -- what is no longer in flight was sent, or it is free again
    rw [h_acc.amountSent, h_acc.sourceAmountInFlight]
    have h_limit := h.limit
    rw [h.sourceInFlight, h_source] at h_limit
    simp only [PaymentSender.account, saturatingSubtract_eq, h.sourceInFlight]
    split <;> omega
  · rw [h_replied.controllers, Controllers.applyReply_maxPacketController]
    exact MaxPacketAmountController.applyReply_known h.known
  · intro r' hr'
    rw [SendLoop.requests, h_replied.unanswered, h_replied.answered, List.map_append,
      List.mem_append, List.mem_append] at hr'
    refine h.bounded r' ?_
    unfold SendLoop.requests
    rcases hr' with h_mem | h_mem | h_mem
    · exact List.mem_append_left _ (mem_of_mem_eraseIdx h_mem)
    · exact List.mem_append_right _ h_mem
    · obtain rfl := List.mem_singleton.mp h_mem
      exact List.mem_append_left _ (List.mem_of_getElem? h_replied.get)

/-- Every event of a payment keeps its accounts. -/
theorem step {e : SendEvent} (h : Accounting quote l)
    (h_step : (payment quote requestCounter destinationAsset).step l e = some l') :
    Accounting quote l' := by
  cases e with
  | attempt env =>
    obtain ⟨-, -, h_ans, ⟨h_s, h_c, h_u, -⟩ | ⟨state, h_next, h_c, h_u, -⟩ |
      ⟨r, h_next, -, h_c, h_u, -⟩⟩ := SendLoop.step_attempt h_step
    · exact h.of_eq h_s h_c h_u h_ans
    · exact h.of_eq (PaymentSender.nextState_cancel h_next).1 h_c h_u h_ans
    · exact h.sends h_next h_c h_u h_ans
  | reply env i reply =>
    obtain ⟨r, h_replied⟩ := SendLoop.step_reply h_step
    exact h.replied h_replied

theorem of_reach (h : (payment quote requestCounter destinationAsset).Reach ok l) :
    Accounting quote l :=
  h.invariant _ (fun _ h_init => initial h_init) fun _ _ _ _ h_inv _ h_step => h_inv.step h_step

/-- In a fixed delivery, less than the minimum delivery is delivered or in flight when a request is
sent. -/
theorem remaining {s s' : PaymentSender} {c : Controllers} {r : PaymentRequest}
    (h_type : quote.paymentType = .fixedDelivery) (h : PaymentSender.Sends quote s c s' r) :
    s.amountDelivered + s.destinationAmountInFlight < quote.minDeliveryAmount := by
  obtain ⟨completesPayment, h_sized, -⟩ := h.sized
  have h_rem := h_sized.remaining h_type
  rw [PaymentSender.remainingToDeliver_eq] at h_rem
  omega

end Accounting

/-- **A payment never overpays and its accounting is exact**, in every reachable state: the amounts
in flight are those of the unanswered requests, the amount sent is that of the fulfilled ones, both
together keep to the maximum source amount, and every request keeps to the largest packet. A request
records the estimate and the limit of the moment it is sent, and in a fixed delivery it is sent only
while less than the minimum delivery is delivered or in flight. -/
theorem payment_accounting
    (h : (payment quote requestCounter destinationAsset).Reachable l) :
    l.sender.sourceAmountInFlight = (l.unanswered.map PaymentRequest.sourceAmount).sum ∧
    l.sender.destinationAmountInFlight
      = (l.unanswered.map PaymentRequest.highEndDestinationAmount).sum ∧
    l.sender.amountSent = (l.fulfilled.map PaymentRequest.sourceAmount).sum ∧
    l.sender.amountSent + l.sender.sourceAmountInFlight ≤ quote.maxSourceAmount ∧
    (∀ r ∈ l.requests, 1 ≤ r.sourceAmount ∧
      ∃ m : ℕ+, r.maxPacketAmount = some m ∧ r.sourceAmount ≤ min maxU64 m) ∧
    ∀ env l' r, (payment quote requestCounter destinationAsset).step l (.attempt env) = some l' →
      l'.unanswered = l.unanswered ++ [r] →
        r.maxPacketAmount = l.controllers.maxPacketController.getNextMaxPacketAmount ∧
        r.highEndDestinationAmount
          = (l.controllers.rateCalculator.estimateDestinationAmount r.sourceAmount).2 ∧
        (quote.paymentType = .fixedDelivery →
          l.sender.amountDelivered + l.sender.destinationAmountInFlight
            < quote.minDeliveryAmount) := by
  have h_acc := Accounting.of_reach h
  refine ⟨h_acc.sourceInFlight, h_acc.destinationInFlight, h_acc.sent, h_acc.limit, ?_, ?_⟩
  · intro r hr
    obtain ⟨h_pos, h_max⟩ := h_acc.bounded r hr
    exact ⟨h_pos, h_max⟩
  · intro env l' r h_step h_new
    obtain ⟨-, -, -, ⟨-, -, h_u, -⟩ | ⟨state, -, -, h_u, -⟩ | ⟨r', h_next, -, -, h_u, -⟩⟩ :=
      SendLoop.step_attempt h_step
    · simp [h_u] at h_new
    · simp [h_u] at h_new
    · rw [h_u, List.append_cancel_left_eq, List.singleton_inj] at h_new
      obtain rfl := h_new
      have h_sends := PaymentSender.nextState_send h_next
      exact ⟨h_sends.maxPacketAmount, h_sends.highEnd, fun h_type =>
        Accounting.remaining h_type h_sends⟩

/-- The accounting with both packets of the small payment in flight. -/
theorem payment_accounting_two_in_flight :
    ∃ l, (payment smallQuote 0 none).Reachable l ∧ l.unanswered.length = 2 ∧
      l.sender.amountSent + l.sender.sourceAmountInFlight ≤ 150 := by
  have h : (payment smallQuote 0 none).Reachable _ :=
    Machine.reach_of_exec [attemptNow, attemptNow] rfl rfl
  exact ⟨_, h, rfl, (payment_accounting h).2.2.2.1⟩

end Interledger.Pay
