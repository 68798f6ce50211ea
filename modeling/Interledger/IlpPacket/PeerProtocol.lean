import Interledger.IlpPacket.Date
import Interledger.Lib.Base64

/-!
# Peer protocols

What `ilp-protocol-ccp/src/index.ts` and `ilp-protocol-ildcp/src/index.ts` have in common. A request from
one peer to another is an ILP Prepare with a fixed condition, and expires a minute after it is made. The
response is the data of an ILP Fulfill with the fulfillment of that condition.
-/

namespace Interledger.IlpPacket

open Ilp (Buffer)

/-- `PEER_PROTOCOL_FULFILLMENT`. -/
def peerProtocolFulfillment : Buffer := List.replicate 32 0

/-- `PEER_PROTOCOL_CONDITION`. -/
def peerProtocolCondition : Buffer :=
  Base64.decode "Zmh6rfhivXdsj8GLjp+OIAiXFIVu4jOzkCpZHQ1fKSU=".toList

/-- `PEER_PROTOCOL_EXPIRY_DURATION`. -/
def peerProtocolExpiryDuration : ℤ := 60000

/-- `Date.now()`, where there still is a `Date` when a request that is made then expires. -/
structure Clock where
  now : ℤ
  inRange : (now + peerProtocolExpiryDuration).natAbs ≤ 8640000000000000

/-- `new Date(Date.now() + PEER_PROTOCOL_EXPIRY_DURATION)`. -/
def Clock.expiresAt (clock : Clock) : Date := ⟨clock.now + peerProtocolExpiryDuration, clock.inRange⟩

theorem length_peerProtocolFulfillment : peerProtocolFulfillment.length = 32 := List.length_replicate

theorem length_peerProtocolCondition : peerProtocolCondition.length = 32 := by decide +kernel

end Interledger.IlpPacket
