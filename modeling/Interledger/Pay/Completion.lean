import Interledger.Pay.Accounting

/-!
# What a completed payment has delivered

Every fulfilled packet delivered at least the minimum it asked for, so a payment delivers its source
amount at the minimum rate, less one source unit for each packet that was granted the rounding
correction (`delivered_ge`, in every run). A quote allows for one such unit.

`appliedRoundingCorrection` is to keep the correction from being granted twice, but each send
overwrites it with the flag of its own packet: when a packet is sent while a corrected one is in
flight, the flag is cleared and the next packet that completes the payment is corrected again. The
guarantee holds of the runs in which that assignment never meets a set flag, `KeepsCorrection`.

## Main results

* `delivered_ge` — the delivery of any payment, in the number of corrected packets;
* `payment_completion` — at most one correction, and the guarantee of a completed payment, in every
  run that keeps the correction;
* `payment_corrects_twice` — a fixed send that does not, and completes below its minimum.
-/

namespace Interledger.Pay

variable {quote : IntQuote} {requestCounter : ℕ} {destinationAsset : Option AssetDetails}
  {ok : PaymentLoop → SendEvent → Prop} {l l' : PaymentLoop} {env : Env}

/-- The number of requests sent with the rounding correction. -/
def corrections (rs : List PaymentRequest) : ℕ := rs.countP PaymentRequest.applyCorrection

/-- The sum of the minimum destination amounts of some requests. -/
def totalMinDestination (rs : List PaymentRequest) : ℕ :=
  (rs.map PaymentRequest.minDestinationAmount).sum

section Totals

variable (rs rs' : List PaymentRequest) (r : PaymentRequest)

@[simp] theorem corrections_append :
    corrections (rs ++ rs') = corrections rs + corrections rs' := List.countP_append

@[simp] theorem corrections_singleton :
    corrections [r] = if r.applyCorrection then 1 else 0 := by
  unfold corrections
  rw [List.countP_singleton]

@[simp] theorem totalMinDestination_append :
    totalMinDestination (rs ++ rs') = totalMinDestination rs + totalMinDestination rs' := by
  unfold totalMinDestination
  rw [List.map_append, List.sum_append]

end Totals

/-! ### Minimum destination amounts add up -/

/-- The minimum of a request is that of its source amount, one unit short if it was corrected. -/
def PaymentRequest.AsksMinimum (quote : IntQuote) (r : PaymentRequest) : Prop :=
  r.minDestinationAmount
    = PaymentSender.minDestination quote r.sourceAmount r.applyCorrection

/-- The source amount of a request that its minimum is computed from. -/
def PaymentRequest.enforced (r : PaymentRequest) : ℕ :=
  r.sourceAmount - if r.applyCorrection then 1 else 0

theorem PaymentRequest.AsksMinimum.eq {r : PaymentRequest} (h : r.AsksMinimum quote) :
    r.minDestinationAmount = multiplyCeil r.enforced quote.minExchangeRate := by
  rw [h]
  unfold PaymentSender.minDestination enforced
  split <;> simp

/-- The enforced amounts fall short of the source amounts by the number of corrections. -/
theorem sum_enforced {rs : List PaymentRequest} (h : ∀ r ∈ rs, Bounded r) :
    (rs.map PaymentRequest.enforced).sum + corrections rs = totalSource rs := by
  induction rs with
  | nil => rfl
  | cons r rs ih =>
    have h_rest := ih fun r' hr' => h r' (List.mem_cons_of_mem _ hr')
    have h_pos := (h r List.mem_cons_self).pos
    have h_count : corrections (r :: rs) = corrections rs + if r.applyCorrection then 1 else 0 :=
      List.countP_cons
    have h_source : totalSource (r :: rs) = r.sourceAmount + totalSource rs := rfl
    rw [List.map_cons, List.sum_cons, h_count, h_source]
    unfold PaymentRequest.enforced at h_rest ⊢
    split <;> omega

/-- Together the minima ask for the total at the minimum rate, less a unit per correction. -/
theorem le_totalMinDestination {rs : List PaymentRequest} (h_bounded : ∀ r ∈ rs, Bounded r)
    (h_min : ∀ r ∈ rs, r.AsksMinimum quote) :
    multiplyCeil (totalSource rs - corrections rs) quote.minExchangeRate
      ≤ totalMinDestination rs := by
  have h_eq : totalMinDestination rs
      = (rs.map fun r => multiplyCeil r.enforced quote.minExchangeRate).sum :=
    congrArg List.sum (List.map_congr_left fun r hr => (h_min r hr).eq)
  rw [h_eq, ← sum_enforced h_bounded, Nat.add_sub_cancel]
  exact multiplyCeil_sum_le _ _ _

/-! ### The delivery of any payment -/

/-- What was delivered against what the fulfilled requests asked for. -/
structure Delivery (quote : IntQuote) (l : PaymentLoop) : Prop where
  /-- Every request asks for its minimum. -/
  asks : ∀ r ∈ l.requests, r.AsksMinimum quote
  /-- A fulfilled request counts for at least that much. -/
  delivered : totalMinDestination l.fulfilled ≤ l.sender.amountDelivered

namespace Delivery

theorem of_eq (h : Delivery quote l) (h_sender : l'.sender = l.sender)
    (h_unanswered : l'.unanswered = l.unanswered) (h_answered : l'.answered = l.answered) :
    Delivery quote l' where
  asks := by
    unfold SendLoop.requests
    rw [h_unanswered, h_answered]
    exact h.asks
  delivered := by
    rw [h_sender, SendLoop.fulfilled, h_answered]
    exact h.delivered

theorem initial (h : (payment quote requestCounter destinationAsset).init l) :
    Delivery quote l := by
  obtain rfl := h
  exact ⟨by rintro r ⟨⟩, Nat.zero_le _⟩

/-- The delivered amount after a reply. -/
theorem delivered_account (s : PaymentSender) (r : PaymentRequest) (reply : StreamReply) :
    s.amountDelivered + (if reply.isFulfill then r.minDestinationAmount else 0)
      ≤ (s.account r reply).amountDelivered := by
  have h_le : r.minDestinationAmount ≤ orGreater r.minDestinationAmount reply.destinationAmount := by
    cases reply.destinationAmount with
    | none => exact le_rfl
    | some n => rw [orGreater_some]; exact le_max_left _ _
  simp only [PaymentSender.account]
  split <;> omega

theorem step {e : SendEvent} (h : Delivery quote l)
    (h_step : (payment quote requestCounter destinationAsset).step l e = some l') :
    Delivery quote l' := by
  cases e with
  | attempt env =>
    obtain ⟨-, -, h_ans, ⟨h_s, -, h_u, -⟩ | ⟨state, h_next, -, h_u, -⟩ |
      ⟨r, h_next, -, -, h_u, -⟩⟩ := SendLoop.step_attempt h_step
    · exact h.of_eq h_s h_u h_ans
    · exact h.of_eq (PaymentSender.nextState_cancel h_next).1 h_u h_ans
    · -- a request is sent: it asks for its minimum, and nothing is delivered yet
      have h_sends := PaymentSender.nextState_send h_next
      constructor
      · -- each request was there before, answered or not
        intro r' hr'
        rw [SendLoop.requests, h_u, h_ans, List.append_assoc, List.mem_append,
          List.singleton_append, List.mem_cons] at hr'
        rcases hr' with h_old | rfl | h_old
        · exact h.asks _ (List.mem_append_left _ h_old)
        · exact h_sends.minDestinationAmount
        · exact h.asks _ (List.mem_append_right _ h_old)
      · rw [h_sends.sender, SendLoop.fulfilled, h_ans]
        exact h.delivered
  | reply env i reply =>
    obtain ⟨r, h_replied⟩ := SendLoop.step_reply h_step
    constructor
    · intro r' hr'
      rw [SendLoop.requests, h_replied.unanswered, h_replied.answered, List.map_append,
        List.mem_append, List.mem_append] at hr'
      refine h.asks r' ?_
      unfold SendLoop.requests
      rcases hr' with h_mem | h_mem | h_mem
      · exact List.mem_append_left _ (mem_of_mem_eraseIdx h_mem)
      · exact List.mem_append_right _ h_mem
      · obtain rfl := List.mem_singleton.mp h_mem
        exact List.mem_append_left _ (List.mem_of_getElem? h_replied.get)
    · -- what is credited is at least the minimum of a fulfilled request, and nothing for a rejected one
      have h_acc : (PaymentSender.applyReply quote l.sender r reply).1.amountDelivered
          = (l.sender.account r reply).amountDelivered :=
        (PaymentSender.applyReply_accounting r reply).amountDelivered
      have h_le := delivered_account l.sender r reply
      have h_old := h.delivered
      have h_sender : l'.sender.amountDelivered = _ :=
        (congrArg PaymentSender.amountDelivered h_replied.sender).trans h_acc
      rw [h_sender, h_replied.fulfilled, totalMinDestination_append]
      split at h_le <;> simp_all [totalMinDestination] <;> omega

theorem of_reach (h : (payment quote requestCounter destinationAsset).Reach ok l) :
    Delivery quote l :=
  h.invariant _ (fun _ h_init => initial h_init) fun _ _ _ _ h_inv _ h_step => h_inv.step h_step

end Delivery

/-- A fulfilled request is one of the requests that were sent. -/
theorem mem_requests_of_fulfilled {r : PaymentRequest} (h : r ∈ l.fulfilled) : r ∈ l.requests := by
  obtain ⟨p, hp, rfl⟩ := List.mem_map.mp h
  exact List.mem_append_right _ (List.mem_map_of_mem (List.mem_of_mem_filter hp))

/-- **The delivery of a payment.** In every run, what was delivered is at least the amount sent at
the minimum rate, less one source unit for each fulfilled packet that was corrected. -/
theorem delivered_ge (h : (payment quote requestCounter destinationAsset).Reach ok l) :
    multiplyCeil (l.sender.amountSent - corrections l.fulfilled) quote.minExchangeRate
      ≤ l.sender.amountDelivered := by
  have h_acc := Accounting.of_reach h
  have h_del := Delivery.of_reach h
  rw [h_acc.sent]
  refine le_trans ?_ h_del.delivered
  exact le_totalMinDestination (fun r hr => h_acc.bounded r (mem_requests_of_fulfilled hr))
    fun r hr => h_del.asks r (mem_requests_of_fulfilled hr)

/-! ### The rounding correction -/

/-- The guard: no attempt that the controllers let through finds the rounding correction spent,
unless a limit of the payment is reached and it sends nothing. The assignment of the flag in
`nextState` then never overwrites a set one. -/
def KeepsCorrection (quote : IntQuote) (l : PaymentLoop) : SendEvent → Prop
  | .attempt env => l.sender.appliedRoundingCorrection = true →
      l.controllers.buildRequest env = .ready → PaymentSender.limitsReached quote l.sender
  | .reply .. => True

instance (e : SendEvent) : Decidable (KeepsCorrection quote l e) := by
  cases e with
  | attempt env => exact inferInstanceAs (Decidable (_ = _ → _ = _ → _))
  | reply => exact inferInstanceAs (Decidable True)

/-- The flag tells whether a packet in flight or fulfilled was corrected, and no two were. -/
def Correction (l : PaymentLoop) : Prop :=
  corrections (l.unanswered ++ l.fulfilled)
    = if l.sender.appliedRoundingCorrection then 1 else 0

namespace Correction

theorem of_eq (h : Correction l) (h_sender : l'.sender = l.sender)
    (h_unanswered : l'.unanswered = l.unanswered) (h_answered : l'.answered = l.answered) :
    Correction l' := by
  unfold Correction SendLoop.fulfilled
  rw [h_sender, h_unanswered, h_answered]
  exact h

theorem initial (h : (payment quote requestCounter destinationAsset).init l) : Correction l := by
  obtain rfl := h
  rfl

/-- A request sent with the flag clear sets it as it is corrected. -/
theorem sends (h : Correction l) {r : PaymentRequest}
    (h_clear : l.sender.appliedRoundingCorrection = false)
    (h_sends : PaymentSender.Sends quote l.sender l.controllers l'.sender r)
    (h_unanswered : l'.unanswered = l.unanswered ++ [r])
    (h_answered : l'.answered = l.answered) : Correction l' := by
  unfold Correction at h ⊢
  rw [h_clear, if_neg Bool.false_ne_true, corrections_append] at h
  unfold SendLoop.fulfilled at h ⊢
  rw [h_unanswered, h_answered, h_sends.sender]
  simp only [corrections_append, corrections_singleton]
  omega

/-- A reply keeps a fulfilled request in the count and gives a rejected correction back. -/
theorem replied (h : Correction l) {i : ℕ} {reply : StreamReply} {r : PaymentRequest}
    (h_replied : SendLoop.Replied (PaymentSender.streamSender quote) env i reply r l l') :
    Correction l' := by
  -- the flag falls with a rejected correction; the count moves with the request
  have h_flag : l'.sender.appliedRoundingCorrection
      = if reply.isReject && r.applyCorrection then false
        else l.sender.appliedRoundingCorrection :=
    (congrArg PaymentSender.appliedRoundingCorrection h_replied.sender).trans
      (PaymentSender.applyReply_accounting r reply).appliedRoundingCorrection
  have h_count : corrections l.unanswered
      = corrections (l.unanswered.eraseIdx i) + if r.applyCorrection then 1 else 0 :=
    countP_eraseIdx _ h_replied.get
  have h_new : corrections (if reply.isFulfill then [r] else [])
      = if reply.isFulfill && r.applyCorrection then 1 else 0 := by
    cases reply.isFulfill
    · rfl
    · exact corrections_singleton r
  unfold Correction at h ⊢
  rw [corrections_append, h_count] at h
  rw [h_flag, h_replied.unanswered, h_replied.fulfilled, corrections_append, corrections_append,
    h_new, StreamReply.isReject_eq]
  cases h_ful : reply.isFulfill <;> cases h_corr : r.applyCorrection <;>
    simp only [h_corr, Bool.not_true, Bool.not_false, Bool.and_false, Bool.and_true,
      Bool.false_eq_true, if_true, if_false] at h ⊢
  · omega
  · -- a rejected correction: it was the one the flag stood for
    split at h <;> omega
  · omega
  · omega

theorem step {e : SendEvent} (h : Correction l) (h_ok : KeepsCorrection quote l e)
    (h_step : (payment quote requestCounter destinationAsset).step l e = some l') :
    Correction l' := by
  cases e with
  | attempt env =>
    obtain ⟨-, -, h_ans, ⟨h_s, -, h_u, -⟩ | ⟨state, h_next, -, h_u, -⟩ |
      ⟨r, h_next, h_ready, -, h_u, -⟩⟩ := SendLoop.step_attempt h_step
    · exact h.of_eq h_s h_u h_ans
    · exact h.of_eq (PaymentSender.nextState_cancel h_next).1 h_u h_ans
    · refine h.sends ?_ (PaymentSender.nextState_send h_next) h_u h_ans
      -- with the flag set the guard leaves nothing to send
      by_contra h_set
      have h_limit := h_ok (Bool.not_eq_false _ ▸ h_set) h_ready
      change PaymentSender.nextState quote l.sender l.controllers = _ at h_next
      rw [PaymentSender.nextState_of_limitsReached h_limit] at h_next
      exact nomatch (Prod.mk.inj h_next).2
  | reply env i reply =>
    obtain ⟨r, h_replied⟩ := SendLoop.step_reply h_step
    exact h.replied h_replied

theorem of_reach
    (h : (payment quote requestCounter destinationAsset).Reach (KeepsCorrection quote) l) :
    Correction l :=
  h.invariant _ (fun _ h_init => initial h_init)
    fun _ _ _ _ h_inv h_ok h_step => h_inv.step h_ok h_step

/-- So no two are corrected. -/
theorem le_one (h : Correction l) : corrections (l.unanswered ++ l.fulfilled) ≤ 1 := by
  rw [h]
  split <;> omega

end Correction

/-! ### Completed payments -/

/-- The target of the payment is met. -/
def TargetMet (quote : IntQuote) (s : PaymentSender) : Prop :=
  match quote.paymentType with
  | .fixedSend => quote.maxSourceAmount ≤ s.amountSent
  | .fixedDelivery => quote.minDeliveryAmount ≤ s.amountDelivered

theorem TargetMet.of_isPaid {s : PaymentSender} (h : s.isPaid quote) : TargetMet quote s := by
  unfold PaymentSender.isPaid at h
  unfold TargetMet
  cases h_type : quote.paymentType <;> simp only [h_type] at h ⊢
  · exact (of_decide_eq_true h).ge
  · rw [Bool.and_eq_true, decide_eq_true_eq] at h
    exact h.1

theorem TargetMet.mono {s s' : PaymentSender} (h : TargetMet quote s)
    (h_sent : s.amountSent ≤ s'.amountSent) (h_delivered : s.amountDelivered ≤ s'.amountDelivered) :
    TargetMet quote s' := by
  unfold TargetMet at h ⊢
  cases h_type : quote.paymentType <;> simp only [h_type] at h ⊢
  · exact h.trans h_sent
  · exact h.trans h_delivered

/-- A payment that is done has met its target, and outstanding replies do not change that. -/
theorem targetMet_of_done (h : (payment quote requestCounter destinationAsset).Reach ok l)
    {value : PaymentProgress} (h_done : l.outcome = some (.ok value)) :
    TargetMet quote l.sender := by
  refine Machine.Reach.invariant
    (fun l => ∀ value, l.outcome = some (.ok value) → TargetMet quote l.sender)
    h ?_ ?_ value h_done
  · rintro s rfl value ⟨⟩
  · rintro l (env | ⟨env, i, reply⟩) l' - ih - h_step value h_done
    · -- an attempt does not complete a payment
      obtain ⟨h_run, -, -, ⟨-, -, -, ⟨_, h_out⟩ | ⟨h_out, -⟩⟩ | ⟨state, h_next, -, -, h_l'⟩ |
        ⟨_, -, -, -, -, h_out, -⟩⟩ := SendLoop.step_attempt h_step
      · simp [h_out] at h_done
      · simp [h_out] at h_done
      · obtain ⟨rfl, -⟩ | rfl := (PaymentSender.nextState_cancel h_next).2
        · rw [h_l'] at h_done
          simp [SendLoop.handle, h_run] at h_done
        · rw [h_l'] at h_done
          simp [SendLoop.handle] at h_done
      · simp [h_out] at h_done
    · obtain ⟨r, h_replied⟩ := SendLoop.step_reply h_step
      have h_acc : PaymentSender.SameAccounts (l.sender.account r reply) l'.sender := by
        rw [h_replied.sender]
        exact PaymentSender.applyReply_accounting r reply
      -- a reply completes it only if what is paid was enough; later replies add to it
      rcases h_replied.done h_done with h_before | ⟨-, h_now⟩
      · refine (ih value h_before).mono ?_ ?_
        · rw [h_acc.amountSent]
          simp only [PaymentSender.account]
          split <;> omega
        · rw [h_acc.amountDelivered]
          exact (Nat.le_add_right _ _).trans (Delivery.delivered_account _ _ _)
      · refine (TargetMet.of_isPaid (PaymentSender.applyReply_done h_now)).mono ?_ ?_
        · exact h_acc.amountSent.ge
        · exact h_acc.amountDelivered.ge

/-- A completed payment with at most one correction delivered the minimum of its quote. -/
theorem minDelivery_le_of_done (h_quote : quote.Coherent)
    (h : (payment quote requestCounter destinationAsset).Reach ok l)
    (h_corr : corrections l.fulfilled ≤ 1) {value : PaymentProgress}
    (h_done : l.outcome = some (.ok value)) : quote.minDeliveryAmount ≤ l.sender.amountDelivered := by
  have h_met := targetMet_of_done h h_done
  unfold TargetMet at h_met
  cases h_type : quote.paymentType with
  | fixedSend =>
    simp only [h_type] at h_met
    rw [h_quote.fixedSend h_type]
    refine le_trans (multiplyCeil_mono ?_ _) (delivered_ge h)
    omega
  | fixedDelivery =>
    simpa only [h_type] using h_met

/-- **The completion guarantee.** In every run of a quote that keeps the rounding correction, at
most one packet in flight or fulfilled was corrected, and a payment that is done sent at most the
maximum source amount and delivered at least the minimum. -/
theorem payment_completion (h_quote : IsQuote quote)
    (h : (payment quote requestCounter destinationAsset).Reach (KeepsCorrection quote) l) :
    (l.unanswered ++ l.fulfilled).countP PaymentRequest.applyCorrection ≤ 1 ∧
    ∀ value, l.outcome = some (.ok value) →
      l.sender.amountSent ≤ quote.maxSourceAmount ∧
      quote.minDeliveryAmount ≤ l.sender.amountDelivered := by
  have h_one := (Correction.of_reach h).le_one
  refine ⟨h_one, fun value h_done => ⟨?_, ?_⟩⟩
  · exact (Nat.le_add_right _ _).trans (Accounting.of_reach h).limit
  · refine minDelivery_le_of_done h_quote.coherent h ?_ h_done
    rw [corrections_append] at h_one
    omega

/-- The guarantee of the small payment when both packets are fulfilled, the corrected one with the
least it asks for. -/
theorem payment_completion_small :
    ∃ l, (payment smallQuote 0 none).Reach (KeepsCorrection smallQuote) l ∧
      (∃ value, l.outcome = some (.ok value)) ∧ 149 ≤ l.sender.amountDelivered := by
  have h : (payment smallQuote 0 none).Reach (KeepsCorrection smallQuote) _ :=
    Machine.reach_of_exec
      [attemptNow, attemptNow, attemptNow, fulfillNow 0 100, attemptNow, fulfillNow 0 49] rfl rfl
  exact ⟨_, h, ⟨_, rfl⟩, ((payment_completion smallQuote_isQuote h).2 _ rfl).2⟩

/-- **The correction is granted twice**: the first packet of the small payment is rejected while the
second, corrected one is in flight. The packet sent in its place is complete but finds the flag set,
and clears it; when it is rejected too, the next one is corrected again. The payment completes one
unit below its minimum. -/
theorem payment_corrects_twice :
    IsQuote smallQuote ∧ ∃ l, (payment smallQuote 0 none).Reachable l ∧
      (l.unanswered ++ l.fulfilled).countP PaymentRequest.applyCorrection = 2 ∧
      (∃ value, l.outcome = some (.ok value)) ∧
      l.sender.amountDelivered < smallQuote.minDeliveryAmount := by
  have h : (payment smallQuote 0 none).Reachable _ :=
    Machine.reach_of_exec
      [attemptNow, attemptNow, attemptNow, rejectNow 0, attemptNow, attemptNow, rejectNow 1,
        attemptNow, attemptNow, fulfillNow 0 49, attemptNow, fulfillNow 0 99] rfl rfl
  exact ⟨smallQuote_isQuote, _, h, by decide, ⟨_, rfl⟩, by decide⟩

end Interledger.Pay
