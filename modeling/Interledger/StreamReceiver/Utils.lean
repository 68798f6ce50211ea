import Interledger.IlpPacket.Codec
import Interledger.Lib.Base64
import Interledger.Lib.Crypto
import Interledger.Stream.PacketCodec

/-!
# Encryption and replies of the stateless receiver

`stream-receiver/src/utils.ts`. The functions of Node's `crypto` are arguments, and so is the random
initialization vector of each encryption.

## Main results

* `decrypt_encrypt` — a ciphertext decrypts to its plaintext;
* `ReplyBuilder.carries_buildData` — the data of a reply decrypts to a packet with what the builder was told.
-/

namespace Interledger.StreamReceiver

open Ilp (Buffer)
open Oer (OerError kMaxLength)
open Crypto (Iv ivLength authTagLength)
open Interledger.Stream (Long Frame)
open IlpPacket (IlpFulfill IlpReject)

section Encryption

variable (crypto : Crypto)

/-- `encrypt`. -/
def encrypt (key : Buffer) (iv : Iv) (plaintext : Buffer) : Buffer := crypto.sealed key iv plaintext

/-- `decrypt`, which throws (`none`). A tag that is cut off is filled up with zeros, but there is none to
copy behind the end. -/
def decrypt (key ciphertext : Buffer) : Option Buffer :=
  let nonce := ciphertext.take ivLength
  let copied := (ciphertext.drop ivLength).take authTagLength
  let tag := copied ++ List.replicate (authTagLength - copied.length) 0
  let encrypted := ciphertext.drop (ivLength + authTagLength)
  if ciphertext.length < ivLength then none else crypto.decipher key nonce encrypted tag

variable {crypto}

/-- **A ciphertext decrypts to its plaintext.** -/
theorem decrypt_encrypt (key : Buffer) (iv : Iv) (plaintext : Buffer) :
    decrypt crypto key (encrypt crypto key iv plaintext) = some plaintext := by
  have h_long : ¬(crypto.sealed key iv plaintext).length < ivLength := by
    rw [crypto.length_sealed]
    omega
  rw [decrypt, encrypt, if_neg h_long, crypto.take_sealed, crypto.take_drop_sealed, crypto.drop_sealed,
    crypto.length_tag, authTagLength, Nat.sub_self, List.replicate_zero, List.append_nil, crypto.decipher_cipher]

/-- A plaintext is not longer than what it was decrypted from. -/
theorem length_le_of_decrypt {key ciphertext plaintext : Buffer}
    (h : decrypt crypto key ciphertext = some plaintext) : plaintext.length ≤ ciphertext.length := by
  rw [decrypt] at h
  obtain ⟨-, h⟩ := Option.ite_none_left_eq_some.mp h
  -- the tag is always a whole one
  have h_tag (copied : Buffer) (h_le : copied.length ≤ authTagLength) :
      (copied ++ List.replicate (authTagLength - copied.length) 0).length = 16 := by
    rw [List.length_append, List.length_replicate]
    exact Nat.add_sub_cancel' h_le
  have h_cipher := (crypto.decipher_eq_some _ _ _ _ _ (h_tag _ (List.length_take_le _ _))).mp h
  have h_length := crypto.length_encrypted key (ciphertext.take ivLength) plaintext
  rw [h_cipher, List.length_drop] at h_length
  omega

end Encryption

/-- `base64url`. -/
def base64url (buffer : Buffer) : String := String.ofList (Base64.url buffer)

/-- `Long.fromString(value, true)`. -/
def longFromString (value : String) : Long := BitVec.ofInt 64 (Oer.decimalValue value.toList)

/-- `longFromValue(value, true)` of a text. -/
def longFromText (value : String) : Except OerError Long :=
  if value.toList.head? = some '-' then .error (.error "Expected positive number")
  else if toString (longFromString value).toNat ≠ value then
    .error (.error ("Value " ++ value ++ " does not fit in a Long."))
  else .ok (longFromString value)

/-- The amount of a packet. -/
theorem longFromText_eq {value : String} (h : IlpPacket.isUInt64 value = true) :
    longFromText value = .ok (longFromString value) := by
  obtain ⟨-, h_text⟩ := Bool.and_eq_true_iff.mp h
  have h_text : toString (longFromString value).toNat = value := of_decide_eq_true h_text
  have h_head : value.toList.head? ≠ some '-' := by
    intro h_minus
    rw [← h_text, Nat.toString_eq_repr, Nat.toList_repr] at h_minus
    have h_digit := Nat.isDigit_of_mem_toDigits (by omega) le_rfl (List.mem_of_mem_head? h_minus)
    exact absurd h_digit (by decide)
  rw [longFromText, if_neg h_head, if_neg (not_not.mpr h_text)]

/-! ### Replies -/

/-- `ReplyBuilder`. -/
structure ReplyBuilder where
  encryptionKey : Option Buffer := none
  sequence : Long := 0
  receivedAmount : Long := 0
  frames : List Frame := []
  ilpAddress : String := ""
  deriving DecidableEq

namespace ReplyBuilder

variable (crypto : Crypto) (reply : ReplyBuilder)

/-- `setReceivedAmount` of the amount of a packet. -/
def setReceivedAmount (receivedAmount : String) : Except OerError ReplyBuilder :=
  (longFromText receivedAmount).map fun amount => { reply with receivedAmount := amount }

/-- `addFrames`. -/
def addFrames (frames : List Frame) : ReplyBuilder := { reply with frames := reply.frames ++ frames }

/-- The STREAM packet of a reply. -/
def packet (type : Stream.IlpPacketType) : Stream.Packet :=
  { sequence := reply.sequence, ilpPacketType := type, prepareAmount := reply.receivedAmount
    frames := reply.frames }

/-- `buildData`. -/
def buildData (iv : Iv) (type : Stream.IlpPacketType) : Except OerError Buffer :=
  match reply.encryptionKey with
  | none => .ok []
  | some key => (reply.packet type).serialize.map (encrypt crypto key iv)

/-- `buildFulfill`. -/
def buildFulfill (iv : Iv) (fulfillment : Buffer) : Except OerError IlpFulfill :=
  (reply.buildData crypto iv .fulfill).map fun data => { fulfillment, data }

/-- `buildReject`. -/
def buildReject (iv : Iv) (code : String) : Except OerError IlpReject :=
  (reply.buildData crypto iv .reject).map fun data =>
    { code, message := "", triggeredBy := reply.ilpAddress, data }

end ReplyBuilder

/-- The data decrypts to a STREAM packet with this sequence, amount and type. -/
def Carries (crypto : Crypto) (key data : Buffer) (sequence amount : Long) (type : Stream.IlpPacketType) :
    Prop :=
  ∃ plaintext packet, decrypt crypto key data = some plaintext ∧
    Stream.Packet.deserializeUnencrypted plaintext = .ok packet ∧ packet.sequence = sequence ∧
    packet.prepareAmount = amount ∧ packet.ilpPacketType.code = type.code

namespace ReplyBuilder

variable {crypto : Crypto} {reply : ReplyBuilder} {iv : Iv} {type : Stream.IlpPacketType} {data : Buffer}

/-- **The data of a reply** says what the builder was told. -/
theorem carries_buildData {key : Buffer} (h_key : reply.encryptionKey = some key)
    (h : reply.buildData crypto iv type = .ok data) :
    Carries crypto key data reply.sequence reply.receivedAmount type := by
  rw [buildData, h_key] at h
  change (reply.packet type).serialize.map (encrypt crypto key iv) = .ok data at h
  rw [Stream.Packet.serialize_eq] at h
  split at h
  · cases h
  · next h_fits =>
    have h_data : encrypt crypto key iv (reply.packet type).bytes = data := Except.ok.inj h
    -- the frames of the packet, without any others in between
    have h_frames : (reply.packet type).Interleaves ((reply.packet type).frames.map .frame) := by
      refine ⟨?_, ?_⟩
      · rw [List.filterMap_map]
        exact List.filterMap_some
      · intro item h_item
        obtain ⟨frame, -, rfl⟩ := List.mem_map.mp h_item
        trivial
    have h_size : ((reply.packet type).bytesWith ((reply.packet type).frames.map .frame) ++ []).length ≤
        kMaxLength := by
      rw [List.append_nil]
      exact not_lt.mp h_fits
    obtain ⟨found, h_read, h_sequence, h_type, h_amount, -⟩ := Stream.Packet.isReadFrom h_frames [] h_size
    rw [List.append_nil] at h_read
    refine ⟨(reply.packet type).bytes, found, ?_, h_read, h_sequence, h_amount, h_type⟩
    rw [← h_data]
    exact decrypt_encrypt key iv _

/-- There is a reply as long as its packet fits in a buffer. -/
theorem buildData_isOk (h : (reply.packet type).bytes.length ≤ kMaxLength) :
    ∃ data, reply.buildData crypto iv type = .ok data := by
  rw [buildData]
  cases reply.encryptionKey with
  | none => exact ⟨[], rfl⟩
  | some key =>
    refine ⟨encrypt crypto key iv (reply.packet type).bytes, ?_⟩
    change (reply.packet type).serialize.map (encrypt crypto key iv) = _
    rw [Stream.Packet.serialize_eq, if_neg (not_lt.mpr h)]
    rfl

end ReplyBuilder

end Interledger.StreamReceiver
