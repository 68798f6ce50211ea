import Interledger.Pay.Quote
import Interledger.Pay.StreamSender
import Interledger.Stream.Receipt

/-!
# The payment sender

`PaymentSender` of `pay/src/senders/payment.ts`, the send loop that executes a quote. `nextState`
sizes the next packet, computes the minimum destination amount it asks for, and takes note of the
amounts in flight; the handler of the reply accounts for it and decides whether the payment is
complete.

The minimum of a packet is its source amount at the quote's minimum rate, rounded up. One source
unit may be lost to rounding in the whole payment: the packet meant to complete it asks for one unit
less, the **rounding correction**, and `appliedRoundingCorrection` is to remember that it was spent.

## Main results

* `nextState_send`, `nextState_cancel` — all that `nextState` can do;
* `applyReply_accounting`, `applyReply_done`, `applyReply_schedule` — all that a reply can do.
-/

namespace Interledger.Pay

open Interledger.Ilp Interledger.Stream

/-- What the handler of a reply closes over: the amounts of the request it answers, whether the
rounding correction was applied to it, and the limit its size was held to. -/
structure PaymentRequest where
  sourceAmount : ℕ
  minDestinationAmount : ℕ
  highEndDestinationAmount : ℕ
  applyCorrection : Bool
  maxPacketAmount : Option ℕ+
  deriving DecidableEq

/-- `PaymentProgress`. -/
structure PaymentProgress where
  streamReceipt : Option Buffer
  amountSent : ℕ
  amountDelivered : ℕ
  sourceAmountInFlight : ℕ
  destinationAmountInFlight : ℕ
  deriving DecidableEq

/-- The fields of `PaymentSender`; its controllers stand in the send loop. -/
structure PaymentSender where
  amountSent : ℕ := 0
  amountDelivered : ℕ := 0
  sourceAmountInFlight : ℕ := 0
  destinationAmountInFlight : ℕ := 0
  appliedRoundingCorrection : Bool := false
  remoteReceiveMax : Option ℕ := none
  latestReceipt : Option (ℕ × Buffer) := none
  deriving DecidableEq

namespace PaymentSender

variable (quote : IntQuote) (s : PaymentSender)

/-- The source amount that may still be sent. -/
def availableToSend : ℕ :=
  saturatingSubtract (saturatingSubtract quote.maxSourceAmount s.amountSent) s.sourceAmountInFlight

/-- The destination amount that is neither delivered nor in flight. -/
def remainingToDeliver : ℕ :=
  saturatingSubtract (saturatingSubtract quote.minDeliveryAmount s.amountDelivered)
    s.destinationAmountInFlight

/-- The size of the next packet and whether it completes the payment, or the state that cancels
the attempt. -/
def sizeRequest (controllers : Controllers) :
    Except (SendState PaymentProgress) (ℕ × Bool) :=
  let availableToSend := s.availableToSend quote
  if availableToSend = 0 then .error .yield
  else
    let maxPacketAmount := controllers.maxPacketController.getNextMaxPacketAmount
    let sourceAmount :=
      orLesser (orLesser availableToSend (maxPacketAmount.map PNat.val)) (some maxU64)
    match quote.paymentType with
    | .fixedDelivery =>
      let remainingToDeliver := s.remainingToDeliver quote
      if remainingToDeliver = 0 then .error .yield
      else
        match controllers.rateCalculator.estimateSourceAmount remainingToDeliver with
        | none => .error (.error .insufficientExchangeRate)
        | some (_, sourceAmountDeliveryLimit) =>
          let sourceAmount := orLesser sourceAmount (some sourceAmountDeliveryLimit)
          .ok (sourceAmount, sourceAmount = sourceAmountDeliveryLimit)
    | .fixedSend => .ok (sourceAmount, sourceAmount = availableToSend)

/-- The minimum destination amount of a packet, one source unit short when the rounding correction
applies. -/
def minDestination (sourceAmount : ℕ) (applyCorrection : Bool) : ℕ :=
  if applyCorrection then multiplyCeil (saturatingSubtract sourceAmount 1) quote.minExchangeRate
  else multiplyCeil sourceAmount quote.minExchangeRate

/-- `nextState`. -/
def nextState (controllers : Controllers) :
    PaymentSender × NextState PaymentRequest PaymentProgress :=
  match s.sizeRequest quote controllers with
  | .error state => (s, .cancel state)
  | .ok (sourceAmount, completesPayment) =>
    let applyCorrection := completesPayment && !s.appliedRoundingCorrection
    let minDestinationAmount := minDestination quote sourceAmount applyCorrection
    let (projectedDestinationAmount, highEndDestinationAmount) :=
      controllers.rateCalculator.estimateDestinationAmount sourceAmount
    if projectedDestinationAmount < minDestinationAmount then
      (s, .cancel (.error .insufficientExchangeRate))
    else
      ({ s with
         sourceAmountInFlight := s.sourceAmountInFlight + sourceAmount
         destinationAmountInFlight := s.destinationAmountInFlight + highEndDestinationAmount
         appliedRoundingCorrection := applyCorrection },
       .send
         { sourceAmount := sourceAmount
           minDestinationAmount := minDestinationAmount
           highEndDestinationAmount := highEndDestinationAmount
           applyCorrection := applyCorrection
           maxPacketAmount := controllers.maxPacketController.getNextMaxPacketAmount })

/-- `getProgress`. -/
def getProgress : PaymentProgress where
  streamReceipt := s.latestReceipt.map Prod.snd
  amountSent := s.amountSent
  amountDelivered := s.amountDelivered
  sourceAmountInFlight := s.sourceAmountInFlight
  destinationAmountInFlight := s.destinationAmountInFlight

/-- `updateReceiveMax`: the first limit for the payment's stream among the frames of a reply. -/
def updateReceiveMax (reply : StreamReply) : Option ℕ :=
  (reply.frames.getD []).findSome? fun
    | .streamMaxMoney streamId receiveMax _ =>
      if streamId = defaultStreamId then some receiveMax.toNat else none
    | _ => none

/-- `updateStreamReceipt`: keep the receipt with the greatest total. -/
def updateStreamReceipt (reply : StreamReply) : PaymentSender :=
  match (reply.frames.getD []).findSome? fun
      | .streamReceipt _ receipt => some receipt
      | _ => none with
  | none => s
  | some receiptBuffer =>
    match decodeReceipt receiptBuffer with
    | none => s
    | some receipt =>
      if s.latestReceipt.all fun (totalReceived, _) => receipt.totalReceived > totalReceived then
        { s with latestReceipt := some (receipt.totalReceived, receiptBuffer) }
      else s

/-- The accounting of a reply: a Fulfill counts for at least the minimum the packet asked for, what
was in flight no longer is, and a Reject gives the rounding correction back. -/
def account (request : PaymentRequest) (reply : StreamReply) : PaymentSender :=
  let destinationAmount := orGreater request.minDestinationAmount reply.destinationAmount
  { s with
    amountSent := if reply.isFulfill then s.amountSent + request.sourceAmount else s.amountSent
    amountDelivered :=
      if reply.isFulfill then s.amountDelivered + destinationAmount else s.amountDelivered
    sourceAmountInFlight := saturatingSubtract s.sourceAmountInFlight request.sourceAmount
    destinationAmountInFlight :=
      saturatingSubtract s.destinationAmountInFlight request.highEndDestinationAmount
    appliedRoundingCorrection :=
      if reply.isReject && request.applyCorrection then false else s.appliedRoundingCorrection }

/-- `paidFixedSend || paidFixedDelivery`. -/
def isPaid : Bool :=
  match quote.paymentType with
  | .fixedSend => s.amountSent = quote.maxSourceAmount
  | .fixedDelivery => s.amountDelivered ≥ quote.minDeliveryAmount && s.sourceAmountInFlight = 0

/-- Was the packet fulfilled without authentic STREAM data, or below the minimum it asked for? -/
def violatesProtocol (request : PaymentRequest) (reply : StreamReply) : Bool :=
  reply.isFulfill && reply.destinationAmount.all (· < request.minDestinationAmount)

/-- The limit of the recipient after a reply. -/
def newReceiveMax (reply : StreamReply) : Option ℕ :=
  match updateReceiveMax reply with
  | some receiveMax => some (orGreater receiveMax s.remoteReceiveMax)
  | none => s.remoteReceiveMax

/-- The handler of the reply to a request. -/
def applyReply (request : PaymentRequest) (reply : StreamReply) :
    PaymentSender × SendState PaymentProgress :=
  let s := (s.account request reply).updateStreamReceipt reply
  if violatesProtocol request reply then (s, .error .receiverProtocolViolation)
  else if s.isPaid quote then (s, .done s.getProgress)
  else
    let s := { s with remoteReceiveMax := s.newReceiveMax reply }
    if s.remoteReceiveMax.any (· < quote.minDeliveryAmount) then (s, .error .incompatibleReceiveMax)
    else (s, .schedule)

/-- `PaymentSender` as a sender of the send loop. -/
def streamSender : StreamSender PaymentSender PaymentRequest PaymentProgress where
  sourceAmount := PaymentRequest.sourceAmount
  nextState _ controllers s := nextState quote s controllers
  applyReply _ _ request reply s := applyReply quote s request reply

/-- The controllers a `PaymentSender` is constructed with. -/
def controllers (requestCounter : ℕ) (destinationAsset : Option AssetDetails) : Controllers where
  requestCounter := requestCounter
  timeout := some none
  maxPacketController := .new (some quote.maxPacketAmount)
  destinationAsset := destinationAsset
  rateCalculator :=
    { lowerBoundRate := quote.lowEstimatedExchangeRate
      upperBoundRate := quote.highEstimatedExchangeRate }

end PaymentSender

/-- The send loop of a payment. -/
abbrev PaymentLoop := SendLoop PaymentSender PaymentRequest PaymentProgress

/-- The runs of `pay` with a quote, from any request counter and destination asset. -/
def payment (quote : IntQuote) (requestCounter : ℕ) (destinationAsset : Option AssetDetails) :
    Machine PaymentLoop SendEvent :=
  SendLoop.machine (PaymentSender.streamSender quote)
    (PaymentSender.controllers quote requestCounter destinationAsset) {}

namespace PaymentSender

variable {quote : IntQuote} {s : PaymentSender} {c : Controllers}

@[simp] theorem availableToSend_eq :
    s.availableToSend quote
      = quote.maxSourceAmount - s.amountSent - s.sourceAmountInFlight := by
  simp only [availableToSend, saturatingSubtract_eq]

@[simp] theorem remainingToDeliver_eq :
    s.remainingToDeliver quote
      = quote.minDeliveryAmount - s.amountDelivered - s.destinationAmountInFlight := by
  simp only [remainingToDeliver, saturatingSubtract_eq]

/-! ### What `nextState` does -/

/-- Why the size of the next packet is what it is. -/
structure Sized (quote : IntQuote) (s : PaymentSender) (c : Controllers) (sourceAmount : ℕ)
    (completesPayment : Bool) : Prop where
  pos : 0 < sourceAmount
  le_available : sourceAmount ≤ s.availableToSend quote
  le_maxU64 : sourceAmount ≤ maxU64
  le_maxPacketAmount : ∀ m, c.maxPacketController.getNextMaxPacketAmount = some m →
    sourceAmount ≤ m
  /-- A fixed delivery has something left to deliver. -/
  remaining : quote.paymentType = .fixedDelivery → 0 < s.remainingToDeliver quote
  /-- A fixed send is completed by the packet that takes all that is left to send. -/
  completes : quote.paymentType = .fixedSend →
    (completesPayment = true ↔ sourceAmount = s.availableToSend quote)

/-- The size before the limits of a fixed delivery. -/
theorem orLesser_limits {a : ℕ} {m : Option ℕ+} (ha : 0 < a) :
    let n := orLesser (orLesser a (m.map PNat.val)) (some maxU64)
    0 < n ∧ n ≤ a ∧ n ≤ maxU64 ∧ ∀ k, m = some k → n ≤ k := by
  have h_max : 0 < maxU64 := by decide
  -- the least of what is available, the path's limit and the range of an amount
  cases m with
  | none =>
    refine ⟨?_, ?_, ?_, by rintro k ⟨⟩⟩ <;>
      simp only [Option.map_none, orLesser_none, orLesser_some] <;> omega
  | some k =>
    have hk : 0 < k.val := k.pos
    refine ⟨?_, ?_, ?_, ?_⟩
    · simp only [Option.map_some, orLesser_some]; omega
    · simp only [Option.map_some, orLesser_some]; omega
    · simp only [Option.map_some, orLesser_some]; omega
    · rintro k' h_eq
      obtain rfl := Option.some.inj h_eq
      simp only [Option.map_some, orLesser_some]
      exact (min_le_left _ _).trans (min_le_right _ _)

/-- An amount that may be delivered costs at least one source unit. -/
theorem estimateSourceAmount_pos {r : ExchangeRateController} {n low high : ℕ} (hn : 0 < n)
    (h : r.estimateSourceAmount n = some (low, high)) : 0 < high := by
  unfold ExchangeRateController.estimateSourceAmount Ratio.reciprocal at h
  split at h
  · cases h
  · next rate h_rate =>
    split at h_rate
    · obtain rfl := Option.some.inj h_rate
      obtain ⟨-, rfl⟩ := Prod.mk.inj (Option.some.inj h)
      exact lt_multiplyCeil_iff.mpr (by simpa using Nat.mul_pos hn r.lowerBoundRate.b_pos)
    · cases h_rate

theorem sizeRequest_ok {sourceAmount : ℕ} {completesPayment : Bool}
    (h : s.sizeRequest quote c = .ok (sourceAmount, completesPayment)) :
    Sized quote s c sourceAmount completesPayment := by
  unfold sizeRequest at h
  simp only at h
  split at h
  case isTrue => cases h
  case isFalse h_avail =>
    -- the amount is within each of the limits
    obtain ⟨h_pos, h_le, h_u64, h_max⟩ :=
      orLesser_limits (m := c.maxPacketController.getNextMaxPacketAmount) (Nat.pos_of_ne_zero h_avail)
    cases h_type : quote.paymentType with
    | fixedSend =>
      simp only [h_type] at h
      obtain ⟨rfl, rfl⟩ := Prod.mk.inj (Except.ok.inj h)
      exact ⟨h_pos, h_le, h_u64, h_max, by simp [h_type], fun _ => decide_eq_true_iff⟩
    | fixedDelivery =>
      simp only [h_type] at h
      split at h
      case isTrue => cases h
      case isFalse h_rem =>
        -- and no more than what remains to be delivered costs
        cases h_est : c.rateCalculator.estimateSourceAmount (s.remainingToDeliver quote) with
        | none => simp only [h_est] at h; cases h
        | some limits =>
          obtain ⟨low, high⟩ := limits
          have h_high : 0 < high := estimateSourceAmount_pos (Nat.pos_of_ne_zero h_rem) h_est
          simp only [h_est] at h
          obtain ⟨rfl, -⟩ := Prod.mk.inj (Except.ok.inj h)
          rw [orLesser_some _ high]
          exact
            { pos := lt_min h_pos h_high
              le_available := (min_le_left _ _).trans h_le
              le_maxU64 := (min_le_left _ _).trans h_u64
              le_maxPacketAmount := fun m hm => (min_le_left _ _).trans (h_max m hm)
              remaining := fun _ => Nat.pos_of_ne_zero h_rem
              completes := by simp [h_type] }

/-- The limits of the payment leave nothing to send: the conditions of the `Yield`s of
`nextState`. -/
def limitsReached (quote : IntQuote) (s : PaymentSender) : Prop :=
  s.availableToSend quote = 0 ∨
    quote.paymentType = .fixedDelivery ∧ s.remainingToDeliver quote = 0

instance : Decidable (limitsReached quote s) := inferInstanceAs (Decidable (_ ∨ _ ∧ _))

/-- A packet is not sized only because a limit is reached or the rate dropped to zero. -/
theorem sizeRequest_error {state : SendState PaymentProgress}
    (h : s.sizeRequest quote c = .error state) :
    state = .yield ∧ limitsReached quote s ∨ state = .error .insufficientExchangeRate := by
  unfold sizeRequest at h
  simp only at h
  split at h
  case isTrue h_avail => exact .inl ⟨(Except.error.inj h).symm, .inl h_avail⟩
  case isFalse =>
    cases h_type : quote.paymentType with
    | fixedSend => simp only [h_type] at h; cases h
    | fixedDelivery =>
      simp only [h_type] at h
      split at h
      case isTrue h_rem => exact .inl ⟨(Except.error.inj h).symm, .inr ⟨h_type, h_rem⟩⟩
      case isFalse =>
        split at h
        · exact .inr (Except.error.inj h).symm
        · cases h

/-- Once a limit is reached no packet is sized. -/
theorem sizeRequest_of_limitsReached (h : limitsReached quote s) :
    s.sizeRequest quote c = .error .yield := by
  unfold sizeRequest
  simp only
  split
  case isTrue => rfl
  case isFalse h_avail =>
    rcases h with h_zero | ⟨h_type, h_rem⟩
    · exact absurd h_zero h_avail
    · simp only [h_type, h_rem, if_true]

/-- The state of the sender after it committed to a request. -/
structure Sends (quote : IntQuote) (s : PaymentSender) (c : Controllers) (s' : PaymentSender)
    (r : PaymentRequest) : Prop where
  sized : ∃ completesPayment, Sized quote s c r.sourceAmount completesPayment ∧
    r.applyCorrection = (completesPayment && !s.appliedRoundingCorrection)
  minDestinationAmount :
    r.minDestinationAmount = minDestination quote r.sourceAmount r.applyCorrection
  maxPacketAmount : r.maxPacketAmount = c.maxPacketController.getNextMaxPacketAmount
  /-- The high estimate at the time of sending is recorded. -/
  highEnd : r.highEndDestinationAmount
    = (c.rateCalculator.estimateDestinationAmount r.sourceAmount).2
  sender : s' =
    { s with
      sourceAmountInFlight := s.sourceAmountInFlight + r.sourceAmount
      destinationAmountInFlight := s.destinationAmountInFlight + r.highEndDestinationAmount
      appliedRoundingCorrection := r.applyCorrection }

theorem nextState_send {s' : PaymentSender} {r : PaymentRequest}
    (h : nextState quote s c = (s', .send r)) : Sends quote s c s' r := by
  unfold nextState at h
  cases h_size : s.sizeRequest quote c with
  | error state => simp [h_size] at h
  | ok size =>
    obtain ⟨sourceAmount, completesPayment⟩ := size
    simp only [h_size] at h
    split at h
    case isTrue => simp at h
    case isFalse =>
      obtain ⟨rfl, h_r⟩ := Prod.mk.inj h
      obtain rfl := NextState.send.inj h_r
      exact ⟨⟨completesPayment, sizeRequest_ok h_size, rfl⟩, rfl, rfl, rfl, rfl⟩

/-- A cancelled attempt changes nothing, and yields only at a limit. -/
theorem nextState_cancel {s' : PaymentSender} {state : SendState PaymentProgress}
    (h : nextState quote s c = (s', .cancel state)) :
    s' = s ∧ (state = .yield ∧ limitsReached quote s ∨
      state = .error .insufficientExchangeRate) := by
  unfold nextState at h
  cases h_size : s.sizeRequest quote c with
  | error state' =>
    simp only [h_size] at h
    obtain ⟨rfl, h_state⟩ := Prod.mk.inj h
    obtain rfl := NextState.cancel.inj h_state
    exact ⟨rfl, sizeRequest_error h_size⟩
  | ok size =>
    obtain ⟨sourceAmount, completesPayment⟩ := size
    simp only [h_size] at h
    split at h
    case isTrue =>
      obtain ⟨rfl, h_state⟩ := Prod.mk.inj h
      exact ⟨rfl, .inr (NextState.cancel.inj h_state).symm⟩
    case isFalse => simp at h

/-- At a limit nothing is sent. -/
theorem nextState_of_limitsReached (h : limitsReached quote s) :
    nextState quote s c = (s, .cancel .yield) := by
  unfold nextState
  rw [sizeRequest_of_limitsReached h]

/-! ### What a reply does -/

/-- The counters of two states agree. -/
structure SameAccounts (s s' : PaymentSender) : Prop where
  amountSent : s'.amountSent = s.amountSent
  amountDelivered : s'.amountDelivered = s.amountDelivered
  sourceAmountInFlight : s'.sourceAmountInFlight = s.sourceAmountInFlight
  destinationAmountInFlight : s'.destinationAmountInFlight = s.destinationAmountInFlight
  appliedRoundingCorrection : s'.appliedRoundingCorrection = s.appliedRoundingCorrection

theorem updateStreamReceipt_same (reply : StreamReply) :
    SameAccounts s (s.updateStreamReceipt reply) := by
  unfold updateStreamReceipt
  split
  · exact ⟨rfl, rfl, rfl, rfl, rfl⟩
  · split
    · exact ⟨rfl, rfl, rfl, rfl, rfl⟩
    · split <;> exact ⟨rfl, rfl, rfl, rfl, rfl⟩

/-- Whatever a reply leads to, it is accounted for. -/
theorem applyReply_accounting (request : PaymentRequest) (reply : StreamReply) :
    SameAccounts (s.account request reply) (applyReply quote s request reply).1 := by
  obtain ⟨h₁, h₂, h₃, h₄, h₅⟩ := updateStreamReceipt_same (s := s.account request reply) reply
  unfold applyReply
  simp only
  split
  · exact ⟨h₁, h₂, h₃, h₄, h₅⟩
  · split
    · exact ⟨h₁, h₂, h₃, h₄, h₅⟩
    · split <;> exact ⟨h₁, h₂, h₃, h₄, h₅⟩

theorem isPaid_congr {s' : PaymentSender} (h : SameAccounts s s') :
    s'.isPaid quote = s.isPaid quote := by
  unfold isPaid
  rw [h.amountSent, h.amountDelivered, h.sourceAmountInFlight]

/-- The payment is done when it is paid. -/
theorem applyReply_done {request : PaymentRequest} {reply : StreamReply} {value : PaymentProgress}
    (h : (applyReply quote s request reply).2 = .done value) :
    (s.account request reply).isPaid quote := by
  unfold applyReply at h
  simp only at h
  split at h
  · cases h
  · split at h
    · next h_paid => rwa [isPaid_congr (updateStreamReceipt_same reply)] at h_paid
    · split at h <;> cases h

/-- A reply that neither completes nor ends the payment schedules an attempt. -/
theorem applyReply_schedule {request : PaymentRequest} {reply : StreamReply}
    (h : (applyReply quote s request reply).2 = .schedule) :
    (s.account request reply).isPaid quote = false := by
  unfold applyReply at h
  simp only at h
  split at h
  · cases h
  · split at h
    · cases h
    · next h_paid =>
      rwa [Bool.not_eq_true, isPaid_congr (updateStreamReceipt_same reply)] at h_paid

theorem applyReply_ne_yield (request : PaymentRequest) (reply : StreamReply) :
    (applyReply quote s request reply).2 ≠ .yield := by
  unfold applyReply
  simp only
  split
  · rintro ⟨⟩
  · split
    · rintro ⟨⟩
    · split <;> rintro ⟨⟩

end PaymentSender

/-! ### Small payments

A fixed send of 150 units over a path that probed to rate 1 and fixed deliveries of 10 and 447 over one that
probed to rate 3, all with packets of 100 units, and the events their runs are made of. -/

/-- The quote of the fixed send. -/
def smallQuote : IntQuote where
  paymentType := .fixedSend
  maxSourceAmount := 150
  minDeliveryAmount := 149
  maxPacketAmount := 100
  lowEstimatedExchangeRate := { a := 100, b := 100 }
  highEstimatedExchangeRate := { a := 101, b := 100 }
  minExchangeRate := { a := 1, b := 1 }

theorem smallQuote_isQuote : IsQuote smallQuote :=
  ⟨{ amountToSend := some 150 }, 0, .ok { a := 1, b := 1 },
    .ok
      { maxPacketAmount := 100
        lowEstimatedExchangeRate := { a := 100, b := 100 }
        highEstimatedExchangeRate := { a := 101, b := 100 } }, _, rfl, rfl⟩

/-- The quote of the fixed delivery, at minimum rate 3. -/
def tripleQuote : IntQuote where
  paymentType := .fixedDelivery
  maxSourceAmount := 4
  minDeliveryAmount := 10
  maxPacketAmount := 100
  lowEstimatedExchangeRate := { a := 300, b := 100 }
  highEstimatedExchangeRate := { a := 301, b := 100 }
  minExchangeRate := { a := 3, b := 1 }

/-- The quote of a larger one, which takes two packets. -/
def partQuote : IntQuote where
  paymentType := .fixedDelivery
  maxSourceAmount := 150
  minDeliveryAmount := 447
  maxPacketAmount := 100
  lowEstimatedExchangeRate := { a := 300, b := 100 }
  highEstimatedExchangeRate := { a := 301, b := 100 }
  minExchangeRate := { a := 3, b := 1 }

theorem partQuote_isQuote : IsQuote partQuote :=
  ⟨{ amountToDeliver := some 447 }, 0, .ok { a := 3, b := 1 },
    .ok
      { maxPacketAmount := 100
        lowEstimatedExchangeRate := { a := 300, b := 100 }
        highEstimatedExchangeRate := { a := 301, b := 100 } }, _, rfl, rfl⟩

/-- An attempt the pacer lets through. -/
def attemptNow : SendEvent := .attempt { now := 0, tooEarly := false }

/-- The `i`-th request in flight is fulfilled with the given amount. -/
def fulfillNow (i destinationAmount : ℕ) : SendEvent :=
  .reply { now := 0, tooEarly := false } i
    { ilpReply := .fulfill, frames := some [], destinationAmount := some destinationAmount }

/-- The `i`-th request in flight is rejected by a connector, temporarily. -/
def rejectNow (i : ℕ) : SendEvent :=
  .reply { now := 0, tooEarly := false } i
    { ilpReply := .reject { code := .t04InsufficientLiquidity, data := [] }
      frames := none
      destinationAmount := none }

end Interledger.Pay
