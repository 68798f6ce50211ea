import Interledger.IlpPacket.Codec

/-!
# Amounts on the wire

The amount of a Prepare is a text, which `serializeIlpPrepare` hands to `writeUInt64` unchecked. The
writer takes the text of any integer without a minus sign, and `Long.fromString` reduces it modulo
`2 ^ 64`. `isPrepare` compares the text with that of the `Long`, but nothing calls it on this path.

## Main results

* `writes_digits` — what is written for a text;
* `serializeIlpPrepare_eq`, `serializeIlpPrepare_error` — when a Prepare with any text is serialized;
* `keepsAmount_iff` — when the amount that is read is the one that was given.
-/

namespace Interledger.IlpPacket

open Oer Interledger.Action
open Ilp (Buffer)

/-- The text denotes an integer that is not negative: digits, with any zeros in front. -/
def Denotes (text : String) (v : ℕ) : Prop :=
  isIntegerText text.toList = true ∧ text.toList.head? ≠ some '-' ∧ decimalValue text.toList = v

namespace IlpPrepare

/-- The packet is refused whatever the amount is: the condition has a wrong length, the packet does not
fit in a buffer, or the time has more characters than the size allows. -/
def Refused (json : IlpPrepare) : Prop :=
  json.executionCondition.length ≠ 32 ∨ kMaxLength < envelopeSize json.contentSize ∨
    json.expiresAt.HasLongYear

/-- Serialization throws, or the amount denotes a 64-bit integer and that is what is read: by any
deserialization that returns, and it does when the other fields can be read back. -/
def KeepsAmount (json : IlpPrepare) : Prop :=
  ∀ binary, serializeIlpPrepare json = .ok binary →
    ∃ v < 2 ^ 64, Denotes json.amount v ∧
      (∀ p, deserializeIlpPrepare binary = .ok p → p.amount = toString v) ∧
      (isValidIlpAddress json.destination = true → json.expiresAt.HasFourCharacterYear →
        json.expiresAt.time ≠ 0 → deserializeIlpPrepare binary = .ok { json with amount := toString v })

end IlpPrepare

/-! ### Texts -/

section Texts

variable {text : String} {v w : ℕ}

theorem Denotes.unique (h : Denotes text v) (h' : Denotes text w) : v = w :=
  Int.ofNat_inj.mp (h.2.2.symm.trans h'.2.2)

/-- A text of digits denotes an integer. -/
theorem exists_denotes (h : isIntegerText text.toList = true) (h_sign : text.toList.head? ≠ some '-') :
    ∃ v, Denotes text v := by
  refine ⟨Nat.ofDigitChars 10 text.toList 0, h, h_sign, ?_⟩
  rw [decimalValue, if_neg h_sign]

/-- **What is written for a text** is the integer modulo `2 ^ 64`. -/
theorem writes_digits (h : Denotes text v) :
    Writes (Writer.writeUInt (.string text) 8) (Bytes.toBytes 8 v) := by
  obtain ⟨h_integer, h_sign, h_value⟩ := h
  obtain ⟨size, h_size, h_long, -⟩ :=
    getLongUIntBufferSize_eq (σ := Writer) (BitVec.ofInt 64 (decimalValue text.toList))
  have h_wrapped : (BitVec.ofInt 64 (decimalValue text.toList)).toNat = v % 256 ^ 8 := by
    rw [h_value, BitVec.toNat_ofInt]
    norm_cast
  have h_write : Writer.writeUInt (.string text) 8 = Writer.write (Bytes.toBytes 8 v) := by
    -- the digits are taken modulo 2^64, so that no size is too large
    have h_from : (longFromValue (.string text) true : Action Writer OerError (BitVec 64)) =
        pure (BitVec.ofInt 64 (decimalValue text.toList)) := by
      rw [longFromValue, if_neg fun h => h_sign h.2]
    have h_accepted : LongValue.isInteger (.string text) = true := h_integer
    rw [Writer.writeUInt, h_accepted, h_from, pure_bind, h_long, pure_bind, if_neg (not_lt.mpr h_size),
      longToBuffer_eq le_rfl, h_wrapped, Bytes.toBytes_mod]
    rfl
  rw [h_write]
  exact Writer.writes_write _

/-- Other texts are refused. -/
theorem writeUInt_of_not_denotes (h : ∀ v, ¬Denotes text v) :
    ∃ e, Writer.writeUInt (.string text) 8 = throw e := by
  by_cases h_integer : isIntegerText text.toList = true
  · -- an integer with a sign is refused, and so is what is no integer
    have h_sign : text.toList.head? = some '-' := by
      by_contra h_sign
      obtain ⟨v, h_denotes⟩ := exists_denotes h_integer h_sign
      exact h v h_denotes
    have h_from : (longFromValue (.string text) true : Action Writer OerError (BitVec 64)) =
        throw (.error "UInt must be positive") := by
      rw [longFromValue, if_pos ⟨rfl, h_sign⟩]
    have h_accepted : LongValue.isInteger (.string text) = true := h_integer
    rw [Writer.writeUInt, h_accepted, h_from]
    exact ⟨_, rfl⟩
  · have h_refused : LongValue.isInteger (.string text) = false := Bool.eq_false_iff.mpr h_integer
    rw [Writer.writeUInt, h_refused]
    exact ⟨_, rfl⟩

/-- The eight bytes are read as the text of what is left of the integer. -/
theorem reads_wrapped (v : ℕ) :
    Reads (Reader.readUInt 8) (Bytes.toBytes 8 v) (toString (v % 2 ^ 64)) := by
  have h_reads := reads_amount (Nat.mod_lt v (Nat.two_pow_pos 64))
  have h_pow : (2 : ℕ) ^ 64 = 256 ^ 8 := by norm_num
  rwa [h_pow, Bytes.toBytes_mod, ← h_pow] at h_reads

end Texts

/-! ### Packets -/

namespace IlpPrepare

variable {json : IlpPrepare} {v : ℕ}

/-- A text that denotes an integer is not empty. -/
theorem amount_ne_empty (h : Denotes json.amount v) : json.amount ≠ "" := by
  intro h_empty
  have h_integer := h.1
  rw [h_empty] at h_integer
  cases h_integer

/-- **The contents**, with the integer modulo `2 ^ 64`. -/
theorem writes_content_of_denotes (h : Denotes json.amount v) (h_size : json.contentSize < 2 ^ 53) :
    Writes json.content (json.contents v) := by
  have h_destination := length_le_length_octets (Ascii.encode json.destination.toList)
  have h_data := length_le_length_octets json.data
  rw [length_octets] at h_destination h_data
  unfold contentSize at h_size
  exact (writes_digits h).bind ((Writer.writes_write _).bind ((Writer.writes_write _).bind
    ((Writer.writes_writeVarOctetString (by omega)).bind (Writer.writes_writeVarOctetString (by omega)))))

end IlpPrepare

open IlpPrepare

variable {json : IlpPrepare} {v : ℕ} {binary : Buffer}

/-- A packet that is not refused has a condition of 32 bytes, fits in a buffer and has a time that is
not too long. -/
theorem not_refused (h : ¬json.Refused) :
    json.executionCondition.length = 32 ∧ envelopeSize json.contentSize ≤ kMaxLength ∧
      ¬json.expiresAt.HasLongYear := by
  obtain ⟨h_condition, h_rest⟩ := not_or.mp h
  obtain ⟨h_size, h_year⟩ := not_or.mp h_rest
  exact ⟨not_not.mp h_condition, not_lt.mp h_size, h_year⟩

/-- A text that denotes no integer is refused, -/
theorem serializeIlpPrepare_of_not_denotes (h : ∀ v, ¬Denotes json.amount v) :
    ∃ e, serializeIlpPrepare json = .error e := by
  unfold serializeIlpPrepare
  split
  · exact ⟨_, rfl⟩
  split
  · exact ⟨_, rfl⟩
  obtain ⟨e, h_throw⟩ := writeUInt_of_not_denotes h
  by_cases h_size : envelopeSize json.contentSize ≤ kMaxLength
  · -- the first write to the contents throws
    have h_content (w : Writer) : json.content.exec w = (.error e, w) := by
      rw [content, h_throw]
      exact exec_bind_error rfl
    rw [serializeEnvelope_eq (by decide) h_size, h_content]
    exact ⟨e, rfl⟩
  · exact ⟨_, serializeEnvelope_of_lt (not_le.mp h_size)⟩

/-- and so is a packet with another field that cannot be written. -/
theorem serializeIlpPrepare_of_refused (h : json.Refused) : ∃ e, serializeIlpPrepare json = .error e := by
  by_cases h_denotes : ∃ v, Denotes json.amount v
  · obtain ⟨v, h_denotes⟩ := h_denotes
    rw [serializeIlpPrepare, if_neg (amount_ne_empty h_denotes)]
    -- the condition is looked at first, then the size, and the time only while it is written
    by_cases h_condition : json.executionCondition.length ≠ 32
    · rw [if_pos h_condition]
      exact ⟨_, rfl⟩
    rw [if_neg h_condition]
    have h_rest := h.resolve_left h_condition
    by_cases h_size : envelopeSize json.contentSize ≤ kMaxLength
    · -- the time does not fit in the contents
      have h_small := Packet.lt_of_envelopeSize_le h_size
      have h_sum := json.length_contents (n := v) (not_not.mp h_condition)
      have h_long := Date.lt_length_iff.mpr (h_rest.resolve_left (not_lt.mpr h_size))
      rw [← length_time] at h_long
      exact serializeEnvelope_of_long (by decide) (writes_content_of_denotes h_denotes (by omega))
        (show json.contentSize < (json.contents v).length by omega)
    · exact ⟨_, serializeEnvelope_of_lt (not_le.mp h_size)⟩
  · exact serializeIlpPrepare_of_not_denotes (not_exists.mp h_denotes)

/-- **Any other packet is serialized**, zeros filling up what a short time leaves. -/
theorem serializeIlpPrepare_eq (h : Denotes json.amount v) (h_not : ¬json.Refused) :
    ∃ zeros, serializeIlpPrepare json = .ok (envelope 12 (json.contents v ++ zeros)) ∧
      (json.contents v ++ zeros).length = json.contentSize ∧
      (json.expiresAt.HasFourCharacterYear → zeros = []) := by
  obtain ⟨h_condition, h_size, h_year⟩ := not_refused h_not
  have h_small := Packet.lt_of_envelopeSize_le h_size
  have h_sum := json.length_contents (n := v) h_condition
  have h_le := Date.lt_length_iff.not.mpr h_year
  rw [← length_time] at h_le
  obtain ⟨-, h_serialize⟩ := serializeEnvelope_of_writes 12 (by decide) h_size
    (writes_content_of_denotes h (by omega)) (show (json.contents v).length ≤ json.contentSize by omega)
  refine ⟨List.replicate (json.contentSize - (json.contents v).length) 0, ?_, ?_, fun h_four => ?_⟩
  · rw [serializeIlpPrepare, if_neg (amount_ne_empty h), if_neg (not_not.mpr h_condition), h_serialize]
  · rw [List.length_append, List.length_replicate]
    omega
  · -- with a time of seventeen characters nothing is left over
    have h_seventeen := length_time.trans (Date.length_eq_iff.mpr h_four)
    rw [List.replicate_eq_nil_iff]
    omega

/-- **The amount that is read** is what was left of the integer. -/
theorem amount_of_deserialize {zeros : Buffer} {p : IlpPrepare}
    (h_length : (json.contents v ++ zeros).length < 2 ^ 48)
    (h : deserializeIlpPrepare (envelope 12 (json.contents v ++ zeros)) = .ok p) :
    p.amount = toString (v % 2 ^ 64) := by
  have h_contents := deserializeContents_envelope 12 readIlpPrepare (json.contents v ++ zeros) (by decide)
    h_length []
  rw [List.append_nil] at h_contents
  rw [deserializeIlpPrepare, h_contents, readFrom, readIlpPrepare] at h
  -- the amount stands in front
  have h_rest : Cursor.rest (Reader.ofBuffer (json.contents v ++ zeros)) =
      Bytes.toBytes 8 v ++ (json.time ++ (json.executionCondition ++
        (octets (Ascii.encode json.destination.toList) ++ octets json.data)) ++ zeros) := by
    rw [← List.append_assoc]
    rfl
  obtain ⟨h_exec, -, -⟩ := (reads_wrapped v).exec_bind (Nat.zero_le _) h_rest
  rw [h_exec] at h
  obtain ⟨time, _, -, h⟩ := fst_exec_bind_eq_ok h
  obtain ⟨expiresAt, _, -, h⟩ := fst_exec_bind_eq_ok h
  obtain ⟨executionCondition, _, -, h⟩ := fst_exec_bind_eq_ok h
  obtain ⟨address, _, -, h⟩ := fst_exec_bind_eq_ok h
  simp only at h
  split at h
  · cases h
  · obtain ⟨data, _, -, h⟩ := fst_exec_bind_eq_ok h
    cases h
    rfl

/-- **When the amount is kept.** A Prepare with any text for its amount is refused, or gives back the
integer that the text denotes, if and only if the text does not denote an integer of `2 ^ 64` or more,
or the packet is refused for another field. -/
theorem keepsAmount_iff (json : IlpPrepare) :
    json.KeepsAmount ↔ ∀ v, Denotes json.amount v → 2 ^ 64 ≤ v → json.Refused := by
  constructor
  · intro h_keeps v h_denotes h_large
    -- an amount that is too large and not refused would be written
    by_contra h_not
    obtain ⟨zeros, h_serialize, -⟩ := serializeIlpPrepare_eq h_denotes h_not
    obtain ⟨w, h_lt, h_same, -⟩ := h_keeps _ h_serialize
    rw [h_denotes.unique h_same] at h_large
    exact absurd h_lt (not_lt.mpr h_large)
  · intro h binary h_serialize
    -- the packet is serialized, so that its amount denotes an integer and nothing is refused
    have h_not : ¬json.Refused := by
      intro h_refused
      obtain ⟨e, h_error⟩ := serializeIlpPrepare_of_refused h_refused
      rw [h_serialize] at h_error
      cases h_error
    obtain ⟨v, h_denotes⟩ : ∃ v, Denotes json.amount v := by
      by_contra h_none
      obtain ⟨e, h_error⟩ := serializeIlpPrepare_of_not_denotes (not_exists.mp h_none)
      rw [h_serialize] at h_error
      cases h_error
    -- the amount is kept exactly when it is below 2^64
    have h_lt : v < 2 ^ 64 := by
      by_contra h_large
      exact h_not (h v h_denotes (not_lt.mp h_large))
    obtain ⟨zeros, h_bytes, h_length, h_full⟩ := serializeIlpPrepare_eq h_denotes h_not
    obtain rfl := Except.ok.inj (h_serialize.symm.trans h_bytes)
    obtain ⟨h_condition, h_size, -⟩ := not_refused h_not
    have h_small := Packet.lt_of_envelopeSize_le h_size
    refine ⟨v, h_lt, h_denotes, fun p h_read => ?_, fun h_address h_year h_time => ?_⟩
    · rw [amount_of_deserialize (by omega) h_read, Nat.mod_eq_of_lt h_lt]
    · rw [h_full h_year, List.append_nil] at h_length ⊢
      have h_reads : Reads readIlpPrepare (json.contents v) { json with amount := toString v } :=
        @reads_contents { json with amount := toString v } v h_lt rfl h_small h_condition h_address
          h_year h_time
      exact Packet.deserializeContents_eq 12 (by decide) (by omega) h_reads

/-- A Prepare of one more than the largest amount. -/
def tooLarge : IlpPrepare :=
  ⟨"18446744073709551616", List.replicate 32 7, ⟨1709209425123, by decide⟩, "g.alice", [1, 2]⟩

/-- **One more than the largest amount** is serialized, and read as nothing. -/
theorem not_keepsAmount : ¬tooLarge.KeepsAmount ∧
    ∃ binary, serializeIlpPrepare tooLarge = .ok binary ∧
      deserializeIlpPrepare binary = .ok { tooLarge with amount := "0" } := by
  have h_denotes : Denotes tooLarge.amount (2 ^ 64) := ⟨by decide, by decide, by decide⟩
  have h_not : ¬tooLarge.Refused := by
    rintro (h_condition | h_size | h_year)
    · exact h_condition List.length_replicate
    · exact absurd h_size (by decide +kernel)
    · exact absurd h_year (by decide +kernel)
  constructor
  · intro h_keeps
    obtain ⟨zeros, h_serialize, -⟩ := serializeIlpPrepare_eq h_denotes h_not
    obtain ⟨v, h_lt, h_same, -⟩ := h_keeps _ h_serialize
    exact absurd h_lt (by rw [← h_denotes.unique h_same]; exact lt_irrefl _)
  · have h_run : (serializeIlpPrepare tooLarge).toOption.map deserializeIlpPrepare =
        some (.ok { tooLarge with amount := "0" }) := by
      decide +kernel
    obtain ⟨binary, h_serialize, h_deserialize⟩ := Option.map_eq_some_iff.mp h_run
    cases h_result : serializeIlpPrepare tooLarge with
    | error e =>
      rw [h_result] at h_serialize
      cases h_serialize
    | ok bytes =>
      rw [h_result] at h_serialize
      cases h_serialize
      exact ⟨binary, rfl, h_deserialize⟩

end Interledger.IlpPacket
