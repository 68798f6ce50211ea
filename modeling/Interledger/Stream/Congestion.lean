import Interledger.Stream.Long

/-!
# Congestion control

`CongestionController` of `ilp-protocol-stream/src/util/congestion.ts`: the largest amount a
connection puts in one packet. It is lowered when a connector rejects a packet as too large or lacks
liquidity, and raised again when a packet of that amount is fulfilled.
-/

namespace Interledger.Stream

open Interledger.Ilp Long

/-- `CongestionController`. -/
structure CongestionController where
  testMaximumPacketAmount : Long := maxUnsignedValue
  maximumPacketAmount : Long := maxUnsignedValue
  fixedPacketAmount : Long := maxUnsignedValue
  deriving DecidableEq

namespace CongestionController

variable (cc : CongestionController)

/-- The getter `maximumPacketAmount`. -/
def getMaximumPacketAmount : Long := minLong cc.maximumPacketAmount cc.fixedPacketAmount

/-- `setMaximumAmounts`. -/
def setMaximumAmounts (amount : Long) : CongestionController :=
  { cc with testMaximumPacketAmount := amount, maximumPacketAmount := amount }

/-- `onFulfill`. -/
def onFulfill (amountSent : Long) : CongestionController :=
  let maximumPacketAmount := cc.getMaximumPacketAmount
  if amountSent = cc.testMaximumPacketAmount ∧ cc.testMaximumPacketAmount < maximumPacketAmount then
    { cc with
      testMaximumPacketAmount :=
        if maximumPacketAmount ≠ maxUnsignedValue then
          -- a known maximum is approached in tenths
          minLong (checkedAdd cc.testMaximumPacketAmount (maximumPacketAmount / 10)).1
            maximumPacketAmount
        else (checkedMultiply cc.testMaximumPacketAmount 2).1 }
  else cc

/-- The two amounts a connector puts in the data of an F08. -/
def receivedAndMaximumAmount (data : Buffer) : Option (Long × Long) := do
  let (receivedAmount, rest) ← readUInt64 data
  let (maximumAmount, _) ← readUInt64 rest
  pure (BitVec.ofNat 64 receivedAmount, BitVec.ofNat 64 maximumAmount)

/-- The maximum that an F08 leaves when its data is of no use: just below what was sent. -/
def lowerBelow (amountSent : Long) : CongestionController :=
  let lowered := { cc with maximumPacketAmount := amountSent - 1 }
  { lowered with testMaximumPacketAmount := lowered.getMaximumPacketAmount / 2 }

/-- `onAmountTooLargeError`. -/
def onAmountTooLargeError (reject : IlpReject) (amountSent : Long) : CongestionController :=
  match receivedAndMaximumAmount reject.data with
  | some (receivedAmount, maximumAmount) =>
    if receivedAmount > maximumAmount then
      let newMaximum := (multiplyDivideFloor amountSent maximumAmount receivedAmount).getD 0
      { cc with maximumPacketAmount := newMaximum, testMaximumPacketAmount := newMaximum }
    else cc.lowerBelow amountSent
  | none => cc.lowerBelow amountSent

/-- `onInsufficientLiquidityError`. -/
def onInsufficientLiquidityError (amountSent : Long) : CongestionController :=
  let minPacketAmount := minLong amountSent cc.testMaximumPacketAmount
  { cc with testMaximumPacketAmount := maxLong 2 (minPacketAmount - minPacketAmount / 3) }

end CongestionController

end Interledger.Stream
