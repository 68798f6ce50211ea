import Interledger.IlpPacket.Codec

/-!
# Replies

`serializeIlpReply` and `deserializeIlpReply` of `ilp-packet/src/index.ts`: a reply is a Fulfill or a Reject, and
its first byte tells which.

## Main results

* `deserializeIlpReply_of_serialize` — what was serialized is read back.
-/

namespace Interledger.IlpPacket

open Ilp (Buffer)
open Oer

/-- `IlpReply`. -/
inductive IlpReply
  | fulfill (packet : IlpFulfill)
  | reject (packet : IlpReject)
  deriving DecidableEq

namespace IlpReply

/-- `isFulfill`. -/
def isFulfill : IlpReply → Bool
  | fulfill _ => true
  | reject _ => false

/-- `ilpReply.data`. -/
def data : IlpReply → Buffer
  | fulfill packet => packet.data
  | reject packet => packet.data

/-- The reply as a packet. -/
def packet : IlpReply → Packet
  | fulfill packet => .fulfill packet
  | reject packet => .reject packet

end IlpReply

/-- `serializeIlpReply`. -/
def serializeIlpReply : IlpReply → Except OerError Buffer
  | .fulfill packet => serializeIlpFulfill packet
  | .reject packet => serializeIlpReject packet

/-- `deserializeIlpReply`. -/
def deserializeIlpReply (data : Buffer) : Except OerError IlpReply :=
  if data[0]? = some 13 then .fulfill <$> deserializeIlpFulfill data else .reject <$> deserializeIlpReject data

/-- **A reply that is serialized is read back**, if it is valid. -/
theorem deserializeIlpReply_of_serialize {reply : IlpReply} {binary : Buffer}
    (h_valid : ∀ packet, reply = .reject packet → (Packet.reject packet).IsValid)
    (h : serializeIlpReply reply = .ok binary) : deserializeIlpReply binary = .ok reply := by
  cases reply with
  | fulfill packet =>
    have h_survives := Packet.survives_of_serializeIlpFulfill h
    obtain ⟨h_first, h_read⟩ := deserialize_of_deserializeIlpPacket h_survives.2.1
    obtain ⟨found, h_found, h_same⟩ := eq_ok_of_map_eq_ok h_read
    obtain rfl := Packet.fulfill.inj h_same
    have h_first : binary[0]? = some 13 := h_first
    unfold deserializeIlpReply
    rw [if_pos h_first, h_found]
    rfl
  | reject packet =>
    have h_valid := h_valid packet rfl
    have h : serializeIlpPacket (.reject packet) = .ok binary := h
    have h_size : envelopeSize packet.contentSize ≤ kMaxLength := by
      by_contra h_large
      have h_refused : serializeIlpPacket (.reject packet) = .error .rangeError :=
        (Packet.serializeIlpPacket_eq h_valid).trans (serializeEnvelope_of_lt (not_le.mp h_large))
      rw [h_refused] at h
      cases h
    obtain ⟨binary', h_survives⟩ := Packet.survives_reject h_valid h_size
    obtain rfl := Except.ok.inj (h.symm.trans h_survives.1)
    obtain ⟨h_first, h_read⟩ := deserialize_of_deserializeIlpPacket h_survives.2.1
    obtain ⟨found, h_found, h_same⟩ := eq_ok_of_map_eq_ok h_read
    obtain rfl := Packet.reject.inj h_same
    have h_first : binary[0]? ≠ some 13 := by
      intro h_fulfill
      have h_type : (14 : UInt8) = 13 := Option.some.inj (h_first.symm.trans h_fulfill)
      exact absurd h_type (by decide)
    unfold deserializeIlpReply
    rw [if_neg h_first, h_found]
    rfl

end Interledger.IlpPacket
