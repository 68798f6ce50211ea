import Interledger.Pay.Amount
import Interledger.Stream.Frame

/-!
# The controllers of a STREAM sender

`pay/src/controllers`: each controller may veto the next request (`buildRequest`), takes note of a
request that is sent (`applyRequest`) and of its reply (the handler that `applyRequest` returns,
`applyReply` here). A sender runs all of them in the order of its list, and the first error a reply
handler returns ends the send loop.

What the clock decides is read from an `Env`: the time `Date.now()` and whether the pacer finds the
next packet too early. The pacer's floating-point rate is not modelled, so either answer may come
at any time; its count of packets in flight is. What only the log or the frames of a request see
(the establishment and expiry controllers) is left out.
-/

namespace Interledger.Pay

open Interledger.Ilp Interledger.Stream

/-- `PaymentError`: the errors that quoting and paying end with. -/
inductive PaymentError
  | invalidSourceAmount
  | invalidDestinationAmount
  | unknownPaymentTarget
  | unenforceableDelivery
  | invalidQuote
  | incomingPaymentCompleted
  | incomingPaymentExpired
  | connectorError
  | destinationAssetConflict
  | rateProbeFailed
  | insufficientExchangeRate
  | idleTimeout
  | closedByReceiver
  | incompatibleReceiveMax
  | receiverProtocolViolation
  | maxSafeEncryptionLimit
  deriving DecidableEq

/-- The ILP packet a reply came in. -/
inductive IlpReply
  | fulfill
  | reject (ilpReject : IlpReject)
  deriving DecidableEq

/-- `StreamReply`: the reply to a request, with the frames and the amount of the recipient's STREAM
packet when it is authentic. -/
structure StreamReply where
  ilpReply : IlpReply
  frames : Option (List Frame)
  destinationAmount : Option ℕ
  deriving DecidableEq

namespace StreamReply

/-- `StreamReply.isFulfill`. -/
def isFulfill (reply : StreamReply) : Bool :=
  match reply.ilpReply with
  | .fulfill => true
  | .reject _ => false

/-- `StreamReply.isReject`. -/
def isReject (reply : StreamReply) : Bool :=
  match reply.ilpReply with
  | .fulfill => false
  | .reject _ => true

/-- `StreamReply.isAuthentic`: a Fulfill always counts, a Reject when it carries STREAM data. -/
def isAuthentic (reply : StreamReply) : Bool :=
  match reply.ilpReply with
  | .fulfill => true
  | .reject _ => reply.frames.isSome && reply.destinationAmount.isSome

@[simp] theorem isReject_eq (reply : StreamReply) : reply.isReject = !reply.isFulfill := by
  unfold isReject isFulfill
  split <;> rfl

end StreamReply

/-- What the clock tells an attempt: the time, and whether the pacer wants to wait. -/
structure Env where
  now : ℕ
  tooEarly : Bool
  deriving DecidableEq

/-- `RequestState`: what a controller answers when the next request is built. -/
inductive RequestState
  | ready
  | error (value : PaymentError)
  | schedule
  | yield
  deriving DecidableEq

/-- `PaymentSender.DEFAULT_STREAM_ID`. -/
def defaultStreamId : Long := 1

/-! ### Exchange rate -/

/-- `ExchangeRateController`: the rate is at least the lower bound and less than the upper. -/
structure ExchangeRateController where
  lowerBoundRate : Ratio := { a := 0, b := 1, b_pos := Nat.one_pos }
  upperBoundRate : PositiveRatio := { a := maxU64, b := 1, b_pos := Nat.one_pos, a_pos := maxU64_pos }
  deriving DecidableEq

namespace ExchangeRateController

variable (c : ExchangeRateController)

/-- The reply handler of `applyRequest`: tighten the bounds by an authentic amount, or start over
from it when it contradicts them. -/
def applyReply (sourceAmount : ℕ) (reply : StreamReply) : ExchangeRateController :=
  if h : 0 < sourceAmount then
    match reply.destinationAmount with
    | none => c
    | some destinationAmount =>
      let packetUpperBoundRate : PositiveRatio :=
        { a := destinationAmount + 1, b := sourceAmount, b_pos := h, a_pos := Nat.succ_pos _ }
      let packetLowerBoundRate : Ratio := { a := destinationAmount, b := sourceAmount, b_pos := h }
      if packetUpperBoundRate.isLessThanOrEqualTo c.lowerBoundRate ||
          packetLowerBoundRate.isGreaterThanOrEqualTo c.upperBoundRate.toRatio then
        { lowerBoundRate := packetLowerBoundRate, upperBoundRate := packetUpperBoundRate }
      else
        { lowerBoundRate :=
            if packetLowerBoundRate.isGreaterThan c.lowerBoundRate then packetLowerBoundRate
            else c.lowerBoundRate
          upperBoundRate :=
            if packetUpperBoundRate.isLessThan c.upperBoundRate.toRatio then packetUpperBoundRate
            else c.upperBoundRate }
  else c

/-- `estimateDestinationAmount`: the low and the high estimate of what `sourceAmount` delivers. -/
def estimateDestinationAmount (sourceAmount : ℕ) : ℕ × ℕ :=
  (orLesser (multiplyFloor sourceAmount c.lowerBoundRate) (some maxU64),
   orLesser (saturatingSubtract (multiplyCeil sourceAmount c.upperBoundRate.toRatio) 1)
     (some maxU64))

/-- `estimateSourceAmount`: the low and the high estimate of what delivers `destinationAmount`,
`undefined` when the rate may be zero. -/
def estimateSourceAmount (destinationAmount : ℕ) : Option (ℕ × ℕ) :=
  match c.lowerBoundRate.reciprocal with
  | none => none
  | some lowerBoundRate =>
    some (multiplyFloor destinationAmount c.upperBoundRate.reciprocal.toRatio + 1,
          multiplyCeil destinationAmount lowerBoundRate.toRatio)

end ExchangeRateController

/-! ### Max packet amount -/

/-- `MaxPacketAmount`: how the largest amount the path lets through is known. -/
inductive MaxPacketAmount
  | preciseMax (maxPacketAmount : ℕ+)
  | impreciseMax (maxPacketAmount : ℕ+)
  | unknownMax
  deriving DecidableEq

/-- `MaxPacketAmountController`. -/
structure MaxPacketAmountController where
  state : MaxPacketAmount
  verifiedPathCapacity : ℕ := 0
  deriving DecidableEq

namespace MaxPacketAmountController

/-- The constructor: a given maximum is taken to be precise. -/
def new : Option ℕ+ → MaxPacketAmountController
  | some preciseMaxPacketAmount => { state := .preciseMax preciseMaxPacketAmount }
  | none => { state := .unknownMax }

variable (c : MaxPacketAmountController)

/-- The midpoint between the verified capacity and the limit is positive. -/
theorem probe_pos (limit : ℕ+) (verified : ℕ) :
    0 < divideCeil (saturatingSubtract limit verified) 2 + verified := by
  have h := limit.pos
  unfold divideCeil
  rw [saturatingSubtract_eq]
  omega

/-- `getNextMaxPacketAmount`: the limit on the next packet, half way up to it while the limit is
imprecise. -/
def getNextMaxPacketAmount : Option ℕ+ :=
  match c.state with
  | .preciseMax maxPacketAmount => some maxPacketAmount
  | .impreciseMax maxPacketAmount =>
    some ⟨divideCeil (saturatingSubtract maxPacketAmount c.verifiedPathCapacity) 2 +
      c.verifiedPathCapacity, probe_pos _ _⟩
  | .unknownMax => none

/-- `getMaxPacketAmountLimit`. -/
def getMaxPacketAmountLimit : ℕ+ :=
  match c.state with
  | .preciseMax maxPacketAmount => maxPacketAmount
  | .impreciseMax maxPacketAmount => maxPacketAmount
  | .unknownMax => ⟨maxU64, by decide⟩

/-- `RateProbe.MAX_PROBE_AMOUNT`. -/
def maxProbeAmount : ℕ := 1000000000000

/-- `isProbeComplete`. -/
def isProbeComplete : Bool :=
  match c.state with
  | .preciseMax maxPacketAmount => c.verifiedPathCapacity = maxPacketAmount
  | .impreciseMax _ => false
  | .unknownMax => c.verifiedPathCapacity ≥ maxProbeAmount

/-- `adjustPathCapacity`: an acknowledged amount raises the verified capacity up to the limit; when
it meets an imprecise limit the search is over. -/
def adjustPathCapacity (ackAmount : ℕ) : MaxPacketAmountController :=
  let newPathCapacity :=
    orLesser (orGreater c.verifiedPathCapacity (some ackAmount)) (some c.getMaxPacketAmountLimit)
  { verifiedPathCapacity := newPathCapacity
    state :=
      match c.state with
      | .impreciseMax maxPacketAmount =>
        if newPathCapacity = maxPacketAmount then .preciseMax maxPacketAmount
        else .impreciseMax maxPacketAmount
      | state => state }

/-- The amounts an F08 reports: what the rejecting node received, and its maximum. -/
def readF08 (data : Buffer) : Option (ℕ × ℕ) :=
  (readUInt64 data).bind fun (remoteReceived, rest) =>
    (readUInt64 rest).map fun (remoteMaximum, _) => (remoteReceived, remoteMaximum)

/-- The new maximum an F08 to a packet of `sourceAmount` stands for and whether it is precise;
`none` when the reported amounts are inconsistent. -/
def newMax (data : Buffer) (sourceAmount : ℕ) : Option (ℕ × Bool) :=
  match readF08 data with
  | some (remoteReceived, remoteMaximum) =>
    if h : remoteReceived > remoteMaximum then
      -- convert the remote maximum into source units
      some (multiplyFloor remoteMaximum
        { a := sourceAmount, b := remoteReceived, b_pos := Nat.zero_lt_of_lt h }, true)
    else none
  | none => some (saturatingSubtract sourceAmount 1, false)

/-- Does `newMax` lower the limit? -/
def lowersMax (newMax : ℕ) : Bool :=
  match c.state with
  | .unknownMax => true
  | .preciseMax maxPacketAmount => newMax < maxPacketAmount
  | .impreciseMax maxPacketAmount => newMax < maxPacketAmount

/-- `reduceMaxPacketAmount`: lower the limit on an F08, or fail when nothing gets through. -/
def reduceMaxPacketAmount (data : Buffer) (sourceAmount : ℕ) :
    MaxPacketAmountController × Option PaymentError :=
  match newMax data sourceAmount with
  | none => (c, none)
  | some (newMax, isPreciseMax) =>
    if h : 0 < newMax then
      if c.lowersMax newMax then
        let state : MaxPacketAmount :=
          if isPreciseMax then .preciseMax ⟨newMax, h⟩ else .impreciseMax ⟨newMax, h⟩
        (adjustPathCapacity { c with state := state } c.verifiedPathCapacity, none)
      else (c, none)
    else (c, some .connectorError)

/-- The reply handler of `applyRequest`. -/
def applyReply (sourceAmount : ℕ) (reply : StreamReply) :
    MaxPacketAmountController × Option PaymentError :=
  match reply.ilpReply with
  | .reject ilpReject =>
    if ilpReject.code = .f08AmountTooLarge then c.reduceMaxPacketAmount ilpReject.data sourceAmount
    else if reply.isAuthentic then (c.adjustPathCapacity sourceAmount, none)
    else (c, none)
  | .fulfill =>
    if reply.isAuthentic then (c.adjustPathCapacity sourceAmount, none) else (c, none)

end MaxPacketAmountController

namespace MaxPacketAmountController

variable {c : MaxPacketAmountController}

theorem adjustPathCapacity_known {ackAmount : ℕ} (h : c.state ≠ .unknownMax) :
    (c.adjustPathCapacity ackAmount).state ≠ .unknownMax := by
  unfold adjustPathCapacity
  simp only
  split
  · split <;> rintro ⟨⟩
  · exact h

/-- **A limit, once known, stays known**: no reply returns the controller to `UnknownMax`. -/
theorem applyReply_known {sourceAmount : ℕ} {reply : StreamReply} (h : c.state ≠ .unknownMax) :
    (c.applyReply sourceAmount reply).1.state ≠ .unknownMax := by
  -- a smaller limit is a known one
  have h_reduce : ∀ data, (c.reduceMaxPacketAmount data sourceAmount).1.state ≠ .unknownMax := by
    intro data
    unfold reduceMaxPacketAmount
    split
    · exact h
    · split
      · split
        · refine adjustPathCapacity_known ?_
          split <;> rintro ⟨⟩
        · exact h
      · exact h
  unfold applyReply
  split
  · split
    · exact h_reduce _
    · split
      · exact adjustPathCapacity_known h
      · exact h
  · split
    · exact adjustPathCapacity_known h
    · exact h

/-- A known limit bounds the next packet. -/
theorem getNextMaxPacketAmount_of_known (h : c.state ≠ .unknownMax) :
    ∃ m, c.getNextMaxPacketAmount = some m := by
  unfold getNextMaxPacketAmount
  split
  · exact ⟨_, rfl⟩
  · exact ⟨_, rfl⟩
  · next h_unknown => exact absurd h_unknown h

end MaxPacketAmountController

/-! ### Failures, asset details, timeout, pacing and sequence -/

/-- Does the frame close the connection or the stream the payment is sent over? -/
def isCloseFrame : Frame → Bool
  | .connectionClose _ _ => true
  | .streamClose streamId _ _ => streamId = defaultStreamId
  | _ => false

/-- The reply handler of `FailureController`: fail when the receiver closes, or on a Reject that is
neither temporary nor an F08, F99 or R01. -/
def failureApplyReply (reply : StreamReply) : Option PaymentError :=
  if (reply.frames.getD []).any isCloseFrame then some .closedByReceiver
  else
    match reply.ilpReply with
    | .fulfill => none
    | .reject ilpReject =>
      if ilpReject.code.isTemporary || ilpReject.code = .f08AmountTooLarge ||
          ilpReject.code = .f99ApplicationError || ilpReject.code = .r01InsufficientSourceAmount
      then none
      else some .connectorError

/-- `AssetDetails`. -/
structure AssetDetails where
  code : String
  scale : UInt8
  deriving DecidableEq

/-- The asset details among the frames of a reply. -/
def newAssetDetails (frames : Option (List Frame)) : List AssetDetails :=
  (frames.getD []).filterMap fun
    | .connectionAssetDetails code scale => some { code := code, scale := scale }
    | _ => none

/-- The reply handler of `AssetDetailsController`: the first details are kept, later ones must
agree. -/
def assetDetailsApply : Option AssetDetails → List AssetDetails →
    Option AssetDetails × Option PaymentError
  | destinationAsset, [] => (destinationAsset, none)
  | none, asset :: assets => assetDetailsApply (some asset) assets
  | some destinationAsset, asset :: assets =>
    if destinationAsset ≠ asset then (some destinationAsset, some .destinationAssetConflict)
    else assetDetailsApply (some destinationAsset) assets

/-- `TimeoutController.MAX_DURATION_SINCE_LAST_FULFILL`, in milliseconds. -/
def maxDurationSinceLastFulfill : ℕ := 10000

/-- `PacingController.MAX_INFLIGHT_PACKETS`. -/
def maxInflightPackets : ℕ := 20

/-- `SequenceController.PACKET_LIMIT`. -/
def packetLimit : ℕ := 2 ^ 31

/-- The controllers of a sender. `timeout` is absent (`none`) where the sender does not list a
`TimeoutController`; present, it holds the deadline once one is set. -/
structure Controllers where
  requestCounter : ℕ
  timeout : Option (Option ℕ)
  maxPacketController : MaxPacketAmountController
  destinationAsset : Option AssetDetails
  inFlightCount : ℕ := 0
  rateCalculator : ExchangeRateController
  deriving DecidableEq

namespace Controllers

variable (c : Controllers)

/-- The answers of the controllers to a new request, in order; the first that is not `Ready`
cancels the attempt. -/
def buildRequest (env : Env) : RequestState :=
  if c.requestCounter ≥ packetLimit then .error .maxSafeEncryptionLimit
  else if c.timeout.join.any (env.now > ·) then .error .idleTimeout
  else if env.tooEarly then .schedule
  else if c.inFlightCount ≥ maxInflightPackets then .yield
  else .ready

/-- `applyRequest` of all controllers: the request is about to be sent. -/
def applyRequest (env : Env) : Controllers :=
  { c with
    requestCounter := c.requestCounter + 1
    timeout := c.timeout.map fun deadline =>
      some (deadline.getD (env.now + maxDurationSinceLastFulfill))
    inFlightCount := c.inFlightCount + 1 }

/-- The reply handlers of all controllers, and the first error among their answers. -/
def applyReply (env : Env) (sourceAmount : ℕ) (reply : StreamReply) :
    Controllers × Option PaymentError :=
  let failure := failureApplyReply reply
  let (maxPacketController, maxPacketError) := c.maxPacketController.applyReply sourceAmount reply
  let (destinationAsset, assetError) :=
    assetDetailsApply c.destinationAsset (newAssetDetails reply.frames)
  ({ c with
     timeout := c.timeout.map fun deadline =>
       if reply.isFulfill then some (env.now + maxDurationSinceLastFulfill) else deadline
     maxPacketController := maxPacketController
     destinationAsset := destinationAsset
     inFlightCount := c.inFlightCount - 1
     rateCalculator := c.rateCalculator.applyReply sourceAmount reply },
   failure <|> maxPacketError <|> assetError)

@[simp] theorem applyRequest_maxPacketController (env : Env) :
    (c.applyRequest env).maxPacketController = c.maxPacketController := rfl

@[simp] theorem applyRequest_rateCalculator (env : Env) :
    (c.applyRequest env).rateCalculator = c.rateCalculator := rfl

@[simp] theorem applyRequest_inFlightCount (env : Env) :
    (c.applyRequest env).inFlightCount = c.inFlightCount + 1 := rfl

@[simp] theorem applyReply_inFlightCount (env : Env) (sourceAmount : ℕ) (reply : StreamReply) :
    (c.applyReply env sourceAmount reply).1.inFlightCount = c.inFlightCount - 1 := rfl

@[simp] theorem applyReply_rateCalculator (env : Env) (sourceAmount : ℕ) (reply : StreamReply) :
    (c.applyReply env sourceAmount reply).1.rateCalculator
      = c.rateCalculator.applyReply sourceAmount reply := rfl

@[simp] theorem applyReply_maxPacketController (env : Env) (sourceAmount : ℕ)
    (reply : StreamReply) :
    (c.applyReply env sourceAmount reply).1.maxPacketController
      = (c.maxPacketController.applyReply sourceAmount reply).1 := rfl

end Controllers

end Interledger.Pay
