import Interledger.Stream.PacketSize

/-!
# Encrypted packets

`decrypt` of `ilp-protocol-stream/src/util/crypto-node.ts` and `decryptAndDeserialize` of `packet.ts`, the
inverse of `serializeAndEncrypt`. Packets may be padded with zeros before they are encrypted; whoever reads
them stops after the last frame.

## Main results

* `Packet.decrypts_encrypted` — an encrypted packet is read back, with padding of any size;
* `Packet.decryptAndDeserialize_eq_some` — what is read was encrypted under the key.
-/

namespace Interledger.Stream

open Interledger.Ilp (Buffer)
open Interledger.Oer Interledger.Crypto

section Decryption

variable (crypto : Crypto)

/-- `decrypt`, which throws (`none`). -/
def decrypt (key data : Buffer) : Option Buffer :=
  if data = [] then none
  else
    crypto.decipher key (data.take ivLength) (data.drop (ivLength + authTagLength))
      ((data.drop ivLength).take authTagLength)

/-- `decryptAndDeserialize`, which throws (`none`). -/
def Packet.decryptAndDeserialize (key buffer : Buffer) : Option Packet :=
  (decrypt crypto key buffer).bind fun decrypted => (Packet.deserializeUnencrypted decrypted).toOption

variable {crypto}

/-- What was sealed is opened. -/
theorem decrypt_sealed (key : Buffer) (iv : Iv) (plaintext : Buffer) :
    decrypt crypto key (crypto.sealed key iv plaintext) = some plaintext := by
  have h_nonempty : crypto.sealed key iv plaintext ≠ [] := by
    intro h_empty
    have h_length := crypto.length_sealed key iv plaintext
    rw [h_empty, List.length_nil, ivLength] at h_length
    omega
  rw [decrypt, if_neg h_nonempty, crypto.take_sealed, crypto.take_drop_sealed, crypto.drop_sealed,
    crypto.decipher_cipher]

/-- **What is opened was sealed**, under the key, if it has a whole tag. -/
theorem decrypt_eq_some {key data plaintext : Buffer} (h_long : encryptionOverhead ≤ data.length) :
    decrypt crypto key data = some plaintext ↔ ∃ iv : Iv, data = crypto.sealed key iv plaintext := by
  constructor
  · intro h
    have h_long : ivLength + authTagLength ≤ data.length := h_long
    unfold decrypt at h
    obtain ⟨-, h⟩ := Option.ite_none_left_eq_some.mp h
    have h_tag : ((data.drop ivLength).take authTagLength).length = 16 := by
      rw [List.length_take, List.length_drop]
      unfold ivLength authTagLength at *
      omega
    have h_iv : (data.take ivLength).length = ivLength := by
      rw [List.length_take]
      exact Nat.min_eq_left ((Nat.le_add_right _ _).trans h_long)
    -- the three parts of the data
    have h_cipher := (crypto.decipher_eq_some _ _ _ _ _ h_tag).mp h
    refine ⟨⟨data.take ivLength, h_iv⟩, ?_⟩
    calc data
        _ = data.take ivLength ++ data.drop ivLength := (List.take_append_drop _ _).symm
        _ = data.take ivLength ++ ((data.drop ivLength).take authTagLength ++
            (data.drop ivLength).drop authTagLength) := by simp only [List.take_append_drop]
        _ = data.take ivLength ++ (data.drop ivLength).take authTagLength ++
            data.drop (ivLength + authTagLength) := by rw [List.drop_drop, List.append_assoc]
        _ = crypto.sealed key ⟨data.take ivLength, h_iv⟩ plaintext := by rw [sealed, h_cipher]
  · rintro ⟨iv, rfl⟩
    exact decrypt_sealed key iv plaintext

/-- The plaintext that `serializeAndEncrypt` encrypts: the bytes of the packet, and padding if it was asked
for. -/
theorem Packet.sealed_of_serializeAndEncrypt {packet : Packet} {key data : Buffer} {iv : Iv}
    {padPacketToSize : Option ℕ} (h : packet.serializeAndEncrypt crypto key iv padPacketToSize = .ok data) :
    packet.bytes.length ≤ kMaxLength ∧ ∃ padding, (padPacketToSize = none → padding = []) ∧
      data = crypto.sealed key iv (packet.bytes ++ padding) := by
  unfold serializeAndEncrypt at h
  rw [packet.serialize_eq] at h
  split at h
  · cases h
  · next h_size =>
    refine ⟨not_lt.mp h_size, ?_⟩
    cases padPacketToSize with
    | none =>
      -- without a size there is no padding
      refine ⟨[], fun _ => rfl, ?_⟩
      rw [List.append_nil]
      exact (Except.ok.inj h).symm
    | some size =>
      obtain rfl := Except.ok.inj h
      exact ⟨_, by simp, by rw [List.append_assoc]⟩

/-- The frames of a packet, without any others in between. -/
theorem Packet.interleaves_frames (packet : Packet) : packet.Interleaves (packet.frames.map .frame) := by
  refine ⟨?_, ?_⟩
  · rw [List.filterMap_map]
    exact List.filterMap_some
  · intro item h_item
    obtain ⟨frame, -, rfl⟩ := List.mem_map.mp h_item
    exact trivial

/-- The packet has the fields of another one. The numbers of the types tell them apart. -/
structure Packet.SameFields (found packet : Packet) : Prop where
  sequence : found.sequence = packet.sequence
  type : found.ilpPacketType.code = packet.ilpPacketType.code
  prepareAmount : found.prepareAmount = packet.prepareAmount
  frames : found.frames = packet.frames

/-- What was sealed is read back, with zeros or anything else behind it. -/
theorem Packet.reads_sealed (packet : Packet) (key : Buffer) (iv : Iv) (padding : Buffer)
    (h_size : (packet.bytes ++ padding).length ≤ kMaxLength) :
    ∃ found, Packet.decryptAndDeserialize crypto key (crypto.sealed key iv (packet.bytes ++ padding)) = some found ∧
      found.SameFields packet := by
  obtain ⟨found, h_read, h_sequence, h_type, h_amount, h_frames⟩ :=
    Packet.isReadFrom packet.interleaves_frames padding h_size
  refine ⟨found, ?_, h_sequence, h_type, h_amount, h_frames⟩
  rw [decryptAndDeserialize, decrypt_sealed, Option.bind_some]
  exact congrArg Except.toOption h_read

/-- **An encrypted packet is read back**, whatever size it is padded to: its sequence, its type, its amount
and all of its frames, in their order. -/
theorem Packet.decrypts_encrypted {packet : Packet} {key data : Buffer} {iv : Iv} {padPacketToSize : Option ℕ}
    (h : packet.serializeAndEncrypt crypto key iv padPacketToSize = .ok data) (h_size : data.length ≤ kMaxLength) :
    ∃ found, Packet.decryptAndDeserialize crypto key data = some found ∧ found.SameFields packet := by
  obtain ⟨-, padding, -, rfl⟩ := Packet.sealed_of_serializeAndEncrypt h
  rw [crypto.length_sealed] at h_size
  exact packet.reads_sealed key iv padding ((Nat.le_add_left _ _).trans h_size)

/-- A packet of one frame, padded to a hundred bytes. -/
theorem Packet.decrypts_encrypted_padded :
    ∃ data found, (⟨5, .prepare, 7, [.streamMoney 1 1]⟩ : Packet).serializeAndEncrypt default [1] ⟨List.replicate 12 3, rfl⟩
        (some 100) = .ok data ∧ data.length = 100 ∧
      Packet.decryptAndDeserialize default [1] data = some found ∧ found.frames = [.streamMoney 1 1] := by
  have h_ok : ((⟨5, .prepare, 7, [.streamMoney 1 1]⟩ : Packet).serializeAndEncrypt default [1]
      ⟨List.replicate 12 3, rfl⟩ (some 100)).toOption.map List.length = some 100 := by
    decide +kernel
  cases h : (⟨5, .prepare, 7, [.streamMoney 1 1]⟩ : Packet).serializeAndEncrypt default [1] ⟨List.replicate 12 3, rfl⟩
      (some 100) with
  | error e =>
    rw [h] at h_ok
    cases h_ok
  | ok data =>
    rw [h] at h_ok
    have h_length : data.length = 100 := Option.some.inj h_ok
    have h_size : data.length ≤ kMaxLength := by
      rw [h_length]
      decide
    obtain ⟨found, h_found, h_fields⟩ := Packet.decrypts_encrypted h h_size
    exact ⟨data, found, rfl, h_length, h_found, h_fields.frames⟩

/-- **What is read was encrypted under the key**, if it has a whole tag: nothing else is taken for a packet
of the connection, however it was put together. -/
theorem Packet.decryptAndDeserialize_eq_some {key data : Buffer} {packet : Packet}
    (h_long : encryptionOverhead ≤ data.length) :
    Packet.decryptAndDeserialize crypto key data = some packet ↔
      ∃ iv plaintext, data = crypto.sealed key iv plaintext ∧
        Packet.deserializeUnencrypted plaintext = .ok packet := by
  have h_toOption (plaintext : Buffer) : (Packet.deserializeUnencrypted plaintext).toOption = some packet ↔
      Packet.deserializeUnencrypted plaintext = .ok packet := by
    cases Packet.deserializeUnencrypted plaintext with
    | error e => exact ⟨nofun, nofun⟩
    | ok found => exact ⟨fun h => congrArg Except.ok (Option.some.inj h), fun h => congrArg some (Except.ok.inj h)⟩
  unfold decryptAndDeserialize
  rw [Option.bind_eq_some_iff]
  constructor
  · rintro ⟨plaintext, h_plaintext, h_packet⟩
    obtain ⟨iv, h_data⟩ := (decrypt_eq_some h_long).mp h_plaintext
    exact ⟨iv, plaintext, h_data, (h_toOption plaintext).mp h_packet⟩
  · rintro ⟨iv, plaintext, h_data, h_packet⟩
    exact ⟨plaintext, (decrypt_eq_some h_long).mpr ⟨iv, h_data⟩, (h_toOption plaintext).mpr h_packet⟩

/-- There is no packet without any bytes, so that none is read without a whole tag, if deciphering keeps the
length. -/
theorem Packet.encryptionOverhead_le_length {key data : Buffer} {packet : Packet}
    (h_keeps : ∀ key iv encrypted tag plaintext, crypto.decipher key iv encrypted tag = some plaintext →
      plaintext.length = encrypted.length)
    (h : Packet.decryptAndDeserialize crypto key data = some packet) : encryptionOverhead ≤ data.length := by
  obtain ⟨plaintext, h_plaintext, h_packet⟩ := Option.bind_eq_some_iff.mp h
  unfold decrypt at h_plaintext
  obtain ⟨-, h_plaintext⟩ := Option.ite_none_left_eq_some.mp h_plaintext
  have h_length := h_keeps _ _ _ _ _ h_plaintext
  -- of fewer bytes nothing is left for the plaintext, and no bytes are no packet
  by_contra h_short
  have h_short : data.length ≤ ivLength + authTagLength := (not_le.mp h_short).le
  obtain rfl : plaintext = [] := by
    rw [List.drop_eq_nil_of_le h_short] at h_length
    exact List.length_eq_zero_iff.mp h_length
  have h_none : (Packet.deserializeUnencrypted []).toOption = none := by decide +kernel
  rw [h_none] at h_packet
  cases h_packet

end Decryption

end Interledger.Stream
