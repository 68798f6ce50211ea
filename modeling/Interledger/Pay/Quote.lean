import Interledger.Pay.Controllers

/-!
# Quotes

`startQuote` of `pay/src/index.ts` chooses the target of a payment, probes the path and turns the
probed and the minimum rate into the limits of a `Quote`, which `pay` validates and executes. The
rate probe and the minimum rate (a ratio made from floating-point prices and the slippage) are
arguments here, each a result or the error it failed with.

What the rest of the development needs of a quote is `IntQuote.Coherent`, the relation between its
limits and its minimum rate; `startQuote_coherent` says every quote has it.
-/

namespace Interledger.Pay

/-- `Int.from` of a `bigint`. -/
def intFrom (n : ℤ) : Option ℕ := if n ≥ 0 then some n.toNat else none

/-- `Int.from` followed by the test that the amount is positive. -/
def positiveIntFrom (n : ℤ) : Option ℕ+ :=
  (intFrom n).bind fun n => if h : 0 < n then some ⟨n, h⟩ else none

@[simp] theorem intFrom_natCast (n : ℕ) : intFrom n = some n := by
  unfold intFrom
  rw [if_pos (Int.natCast_nonneg n), Int.toNat_natCast]

@[simp] theorem positiveIntFrom_natCast (n : ℕ+) : positiveIntFrom ((n : ℕ) : ℤ) = some n := by
  unfold positiveIntFrom
  rw [intFrom_natCast, Option.bind_some, dif_pos n.pos]
  rfl

/-- `PaymentType`. -/
inductive PaymentType
  | fixedSend
  | fixedDelivery
  deriving DecidableEq

/-- `Quote`, with its amounts as `bigint`s. -/
structure Quote where
  paymentType : PaymentType
  maxSourceAmount : ℤ
  minDeliveryAmount : ℤ
  maxPacketAmount : ℤ
  lowEstimatedExchangeRate : Ratio
  highEstimatedExchangeRate : PositiveRatio
  minExchangeRate : Ratio
  deriving DecidableEq

/-- `IntQuote`: a quote whose amounts have been validated. -/
structure IntQuote where
  paymentType : PaymentType
  maxSourceAmount : ℕ+
  minDeliveryAmount : ℕ
  maxPacketAmount : ℕ+
  lowEstimatedExchangeRate : Ratio
  highEstimatedExchangeRate : PositiveRatio
  minExchangeRate : Ratio
  deriving DecidableEq

/-- The validation at the start of `pay`. -/
def Quote.validate (quote : Quote) : Except PaymentError IntQuote :=
  match positiveIntFrom quote.maxSourceAmount, intFrom quote.minDeliveryAmount,
      positiveIntFrom quote.maxPacketAmount with
  | some maxSourceAmount, some minDeliveryAmount, some maxPacketAmount =>
    .ok
      { paymentType := quote.paymentType
        maxSourceAmount := maxSourceAmount
        minDeliveryAmount := minDeliveryAmount
        maxPacketAmount := maxPacketAmount
        lowEstimatedExchangeRate := quote.lowEstimatedExchangeRate
        highEstimatedExchangeRate := quote.highEstimatedExchangeRate
        minExchangeRate := quote.minExchangeRate }
  | _, _, _ => .error .invalidQuote

/-- `ProbeResult`: what the rate probe resolves to. -/
structure ProbeResult where
  maxPacketAmount : ℕ+
  lowEstimatedExchangeRate : Ratio
  highEstimatedExchangeRate : PositiveRatio
  deriving DecidableEq

/-- The details of an Incoming Payment that `startQuote` reads. -/
structure IncomingPayment where
  completed : Bool
  expiresAt : Option ℕ
  incomingAmount : Option ℤ
  receivedAmount : ℤ
  deriving DecidableEq

/-- The `QuoteOptions` that set the target of the payment. -/
structure QuoteOptions where
  destinationPaymentDetails : Option IncomingPayment := none
  amountToDeliver : Option ℤ := none
  amountToSend : Option ℤ := none
  deriving DecidableEq

/-- The target of a payment. -/
structure Target where
  type : PaymentType
  amount : ℕ+
  deriving DecidableEq

namespace QuoteOptions

variable (options : QuoteOptions)

/-- The checks of the Incoming Payment. A falsy `expiresAt` is not checked. -/
def checkIncomingPayment (now : ℕ) : Except PaymentError Unit :=
  match options.destinationPaymentDetails with
  | none => .ok ()
  | some details =>
    if details.completed then .error .incomingPaymentCompleted
    else if details.expiresAt.any fun expiresAt => expiresAt ≠ 0 ∧ expiresAt ≤ now then
      .error .incomingPaymentExpired
    else .ok ()

/-- What remains of the Incoming Payment comes first, then `amountToDeliver`, then
`amountToSend`. -/
def target : Except PaymentError Target :=
  match options.destinationPaymentDetails.bind fun details =>
      details.incomingAmount.map fun incomingAmount => incomingAmount - details.receivedAmount with
  | some remaining =>
    match positiveIntFrom remaining with
    | some remainingToDeliver => .ok { type := .fixedDelivery, amount := remainingToDeliver }
    | none => .error .incomingPaymentCompleted
  | none =>
    match options.amountToDeliver, options.amountToSend with
    | some amountToDeliver, _ =>
      match positiveIntFrom amountToDeliver with
      | some amountToDeliver => .ok { type := .fixedDelivery, amount := amountToDeliver }
      | none => .error .invalidDestinationAmount
    | none, some amountToSend =>
      match positiveIntFrom amountToSend with
      | some amountToSend => .ok { type := .fixedSend, amount := amountToSend }
      | none => .error .invalidSourceAmount
    | none, none => .error .unknownPaymentTarget

end QuoteOptions

/-- The end of `startQuote`: the probed rate must be at least the minimum, and the limits follow
from the target. Up to one source unit may be lost to rounding. -/
def quoteTarget (target : Target) (minExchangeRate : Ratio) (probe : ProbeResult) :
    Except PaymentError Quote :=
  if !probe.lowEstimatedExchangeRate.isGreaterThanOrEqualTo minExchangeRate then
    .error .insufficientExchangeRate
  else
    let quote (maxSourceAmount : ℕ+) (minDeliveryAmount : ℕ) : Quote :=
      { paymentType := target.type
        lowEstimatedExchangeRate := probe.lowEstimatedExchangeRate
        highEstimatedExchangeRate := probe.highEstimatedExchangeRate
        minExchangeRate := minExchangeRate
        maxPacketAmount := (probe.maxPacketAmount : ℕ)
        maxSourceAmount := (maxSourceAmount : ℕ)
        minDeliveryAmount := minDeliveryAmount }
    match target.type with
    | .fixedSend =>
      .ok (quote target.amount (multiplyCeil (saturatingSubtract target.amount 1) minExchangeRate))
    | .fixedDelivery =>
      match minExchangeRate.reciprocal with
      | none => .error .unenforceableDelivery
      | some rate =>
        .ok (quote ⟨multiplyFloor target.amount rate.toRatio + 1, Nat.succ_pos _⟩ target.amount)

/-- `startQuote`. -/
def startQuote (options : QuoteOptions) (now : ℕ) (minExchangeRate : Except PaymentError Ratio)
    (rateProbe : Except PaymentError ProbeResult) : Except PaymentError Quote := do
  options.checkIncomingPayment now
  let target ← options.target
  let minExchangeRate ← minExchangeRate
  let rateProbeResult ← rateProbe
  quoteTarget target minExchangeRate rateProbeResult

/-- The quotes `pay` can be run with: those `startQuote` returns, as `pay` validates them. -/
def IsQuote (quote : IntQuote) : Prop :=
  ∃ options now minExchangeRate rateProbe q,
    startQuote options now minExchangeRate rateProbe = .ok q ∧ q.validate = .ok quote

/-! ### What a quote promises about its limits -/

/-- The limits of a quote against its minimum rate: a fixed send promises all but one of its source
units at the minimum rate, a fixed delivery may spend what its amount costs at the minimum rate and
one unit more. The probed rate is at least the minimum. -/
structure IntQuote.Coherent (quote : IntQuote) : Prop where
  /-- The probe found the minimum rate met. -/
  rate : quote.lowEstimatedExchangeRate.isGreaterThanOrEqualTo quote.minExchangeRate
  /-- The delivery a fixed send guarantees. -/
  fixedSend : quote.paymentType = .fixedSend →
    quote.minDeliveryAmount = multiplyCeil (quote.maxSourceAmount - 1) quote.minExchangeRate
  /-- The cost limit of a fixed delivery. -/
  fixedDelivery : quote.paymentType = .fixedDelivery →
    0 < quote.minExchangeRate.a ∧ 0 < quote.minDeliveryAmount ∧
      (quote.maxSourceAmount : ℕ)
        = quote.minDeliveryAmount * quote.minExchangeRate.b / quote.minExchangeRate.a + 1

/-- A quote of `startQuote` passes the validation of `pay`, and its limits are coherent. -/
theorem quoteTarget_coherent {target : Target} {minExchangeRate : Ratio} {probe : ProbeResult}
    {q : Quote} (h : quoteTarget target minExchangeRate probe = .ok q) :
    ∃ quote, q.validate = .ok quote ∧ quote.Coherent := by
  obtain ⟨type, amount⟩ := target
  unfold quoteTarget at h
  split at h
  case isTrue => cases h
  case isFalse h_rate =>
    rw [Bool.not_eq_true', Bool.not_eq_false] at h_rate
    cases type with
    | fixedSend =>
      obtain rfl := Except.ok.inj h
      refine ⟨_, by simp only [Quote.validate, positiveIntFrom_natCast, intFrom_natCast]; rfl, ?_⟩
      exact
        { rate := h_rate
          fixedSend := fun _ => by simp only [saturatingSubtract_eq]
          fixedDelivery := by rintro ⟨⟩ }
    | fixedDelivery =>
      -- a fixed delivery needs the reciprocal of the minimum rate
      by_cases h_pos : 0 < minExchangeRate.a
      · simp only [Ratio.reciprocal, dif_pos h_pos] at h
        obtain rfl := Except.ok.inj h
        refine ⟨_, by simp only [Quote.validate, positiveIntFrom_natCast, intFrom_natCast]; rfl, ?_⟩
        exact
          { rate := h_rate
            fixedSend := by rintro ⟨⟩
            fixedDelivery := fun _ => ⟨h_pos, amount.pos, rfl⟩ }
      · simp only [Ratio.reciprocal, dif_neg h_pos] at h
        cases h

/-- **Every quote is coherent**, and none is refused by `pay`. -/
theorem startQuote_coherent {options : QuoteOptions} {now : ℕ}
    {minExchangeRate : Except PaymentError Ratio} {rateProbe : Except PaymentError ProbeResult}
    {q : Quote} (h : startQuote options now minExchangeRate rateProbe = .ok q) :
    ∃ quote, q.validate = .ok quote ∧ quote.Coherent := by
  unfold startQuote at h
  -- each of the checks before it may end the quote
  cases h_check : options.checkIncomingPayment now with
  | error e => simp only [h_check] at h; cases h
  | ok u =>
    cases h_target : options.target with
    | error e => simp only [h_check, h_target] at h; cases h
    | ok target =>
      cases minExchangeRate with
      | error e => simp only [h_check, h_target] at h; cases h
      | ok minRate =>
        cases rateProbe with
        | error e => simp only [h_check, h_target] at h; cases h
        | ok probe =>
          simp only [h_check, h_target] at h
          exact quoteTarget_coherent h

theorem IsQuote.coherent {quote : IntQuote} (h : IsQuote quote) : quote.Coherent := by
  obtain ⟨options, now, minRate, probe, q, h_start, h_validate⟩ := h
  obtain ⟨quote', h_validate', h_coherent⟩ := startQuote_coherent h_start
  rw [h_validate] at h_validate'
  obtain rfl := Except.ok.inj h_validate'
  exact h_coherent

end Interledger.Pay
