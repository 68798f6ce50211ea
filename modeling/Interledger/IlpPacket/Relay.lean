import Interledger.IlpPacket.Codec

/-!
# Relaying packets

What a connector that deserializes a packet and serializes it again sends on. The decoder takes times,
texts and length prefixes that the encoder does not write, but what it returns is always written back to
bytes that it takes for the same packet, as long as the year of an expiry is written in four characters
and the text of a Reject still fits in a buffer.

## Main results

* `relays_iff` — which accepted packets are relayed.
-/

namespace Interledger.IlpPacket

open Oer Interledger.Action
open Ilp (Buffer)

/-- The packet is serialized, and the bytes are deserialized to the same packet. -/
def Packet.Relays (packet : Packet) : Prop :=
  ∃ binary, serializeIlpPacket packet = .ok binary ∧ deserializeIlpPacket binary = .ok packet

/-- A Prepare expires in a year of four characters, and a Reject fits in a buffer when its message is
written in UTF-8. -/
def Packet.Relayable : Packet → Prop
  | .prepare data => data.expiresAt.HasFourCharacterYear
  | .fulfill _ => True
  | .reject data => envelopeSize data.contentSize ≤ kMaxLength

/-! ### What is accepted -/

namespace Reader

open Oer.Reader

/-- A prefix that is read is not shorter than the shortest one, and is that one if it is as long. -/
theorem lengthPrefix_le {bytes : Buffer} {n : ℕ} (h : IsLengthPrefix bytes n) (hn : n < 2 ^ 48) :
    (Writer.lengthPrefix n).length ≤ bytes.length ∧
      ((Writer.lengthPrefix n).length = bytes.length → bytes = Writer.lengthPrefix n) := by
  cases h with
  | short h =>
    rw [Writer.lengthPrefix, if_pos h]
    exact ⟨le_rfl, fun _ => rfl⟩
  | @long k n h_pos hk h_fits h_min =>
    have h_least : (128 : ℤ) ≤ n := (le_max_left _ _).trans h_min
    have h_size := (Writer.getUIntBufferSize_le_iff (k := k) (by omega) h_pos).mpr h_fits
    rw [Writer.lengthPrefix, if_neg (by omega)]
    simp only [List.length_append, Bytes.length_toBytes]
    refine ⟨by omega, fun h_same => ?_⟩
    obtain rfl : getUIntBufferSize n = k := by omega
    rfl

end Reader

/-- What an octet string was read from. -/
structure IsOctetString (bytes value : Buffer) (lengthPrefix : Buffer) : Prop where
  eq : bytes = lengthPrefix ++ value
  isLengthPrefix : Reader.IsLengthPrefix lengthPrefix value.length

theorem takes_readVarOctetString : Takes Reader.readVarOctetString fun bytes value =>
    ∃ lengthPrefix, IsOctetString bytes value lengthPrefix :=
  Reader.takes_readVarOctetString.mono fun _ _ ⟨lengthPrefix, h_eq, h_pre⟩ => ⟨lengthPrefix, h_eq, h_pre⟩

theorem takes_amount : Takes (Reader.readUInt 8) fun bytes value =>
    bytes.length = 8 ∧ ∃ n < 2 ^ 64, value = toString n := by
  rw [Reader.readUInt, if_neg (by decide)]
  refine ((Reader.takes_readUIntLong (n := 8) (by omega) le_rfl).bind fun long => Takes.pure _).mono ?_
  rintro bytes value ⟨us, vs, long, rfl, ⟨h_length, -⟩, rfl, rfl⟩
  rw [List.append_nil]
  exact ⟨h_length, _, long.isLt, rfl⟩

theorem takes_ofExcept {α : Type} (x : Except OerError α) :
    Takes (ofExcept x) fun bytes a => bytes = [] ∧ x = .ok a := by
  cases x with
  | ok a =>
    refine (Takes.pure a).mono ?_
    rintro bytes b ⟨rfl, rfl⟩
    exact ⟨rfl, rfl⟩
  | error e => exact Takes.throw e _

/-- The parts of the contents of a Prepare. -/
structure PrepareParts where
  amount : Buffer
  time : Buffer
  addressPrefix : Buffer
  address : Buffer
  dataPrefix : Buffer

/-- The contents that a Prepare was read from. -/
structure IsPrepareContents (bytes : Buffer) (json : IlpPrepare) (parts : PrepareParts) : Prop where
  eq : bytes = parts.amount ++ (parts.time ++ (json.executionCondition ++
    (parts.addressPrefix ++ parts.address ++ (parts.dataPrefix ++ json.data))))
  length_amount : parts.amount.length = 8
  isAmount : ∃ n < 2 ^ 64, json.amount = toString n
  length_time : parts.time.length = interledgerTimeLength
  expiresAt : interledgerTimeToDate (String.ofList (Ascii.decode parts.time)) = .ok json.expiresAt
  length_condition : json.executionCondition.length = 32
  destination : json.destination = String.ofList (Ascii.decode parts.address)
  isValid : isValidIlpAddress json.destination = true
  addressPrefix : Reader.IsLengthPrefix parts.addressPrefix parts.address.length
  dataPrefix : Reader.IsLengthPrefix parts.dataPrefix json.data.length

/-- **Prepares that are accepted.** -/
theorem takes_readIlpPrepare :
    Takes readIlpPrepare fun bytes json => ∃ parts, IsPrepareContents bytes json parts := by
  -- the address is checked before the data is read
  have h_last (amount : String) (expiresAt : Date) (executionCondition address : Buffer) :
      Takes (if !isValidIlpAddress (String.ofList (Ascii.decode address)) then
          throw (.error "Packet has invalid destination address")
        else do
          let data ← Reader.readVarOctetString
          return ({ amount, executionCondition, expiresAt
                    destination := String.ofList (Ascii.decode address), data } : IlpPrepare))
        fun bytes json => isValidIlpAddress (String.ofList (Ascii.decode address)) = true ∧
          ∃ data dataPrefix, IsOctetString bytes data dataPrefix ∧
            json = ⟨amount, executionCondition, expiresAt, String.ofList (Ascii.decode address), data⟩ := by
    refine .ite (fun _ => .throw _ _) fun h_valid => ?_
    have h_address : isValidIlpAddress (String.ofList (Ascii.decode address)) = true := by
      rwa [Bool.not_eq_true', Bool.not_eq_false] at h_valid
    refine (takes_readVarOctetString.bind fun data => Takes.pure _).mono ?_
    rintro bytes json ⟨us, vs, data, rfl, ⟨dataPrefix, h_data⟩, rfl, rfl⟩
    rw [List.append_nil]
    exact ⟨h_address, data, dataPrefix, h_data, rfl⟩
  -- what each of the fields takes, one after the other
  unfold readIlpPrepare
  refine (takes_amount.bind fun amount => (Reader.takes_read _).bind fun time =>
    (takes_ofExcept _).bind fun expiresAt => (Reader.takes_read 32).bind fun condition =>
    takes_readVarOctetString.bind fun address => h_last amount expiresAt condition address).mono ?_
  rintro bytes json ⟨b₁, _, amount, rfl, ⟨h_amount, h_uint⟩, b₂, _, time, rfl, ⟨h_time, rfl⟩, b₃, _,
    expiresAt, rfl, ⟨rfl, h_expires⟩, b₄, _, condition, rfl, ⟨h_condition, rfl⟩, b₅, b₆, address, rfl,
    ⟨addressPrefix, h_address⟩, h_valid, data, dataPrefix, h_data, rfl⟩
  refine ⟨⟨b₁, time, addressPrefix, address, dataPrefix⟩, ?_, h_amount, h_uint, h_time, h_expires,
    h_condition, rfl, h_valid, h_address.isLengthPrefix, h_data.isLengthPrefix⟩
  rw [List.nil_append, h_address.eq, h_data.eq]

/-- The contents that a Fulfill was read from. -/
structure IsFulfillContents (bytes : Buffer) (json : IlpFulfill) (dataPrefix : Buffer) : Prop where
  eq : bytes = json.fulfillment ++ (dataPrefix ++ json.data)
  length_fulfillment : json.fulfillment.length = 32
  dataPrefix : Reader.IsLengthPrefix dataPrefix json.data.length

/-- **Fulfills that are accepted.** -/
theorem takes_readIlpFulfill :
    Takes readIlpFulfill fun bytes json => ∃ dataPrefix, IsFulfillContents bytes json dataPrefix := by
  unfold readIlpFulfill
  refine ((Reader.takes_read 32).bind fun fulfillment => takes_readVarOctetString.bind fun data =>
    Takes.pure (⟨fulfillment, data⟩ : IlpFulfill)).mono ?_
  rintro bytes json ⟨b₁, _, fulfillment, rfl, ⟨h_fulfillment, rfl⟩, b₂, _, data, rfl,
    ⟨dataPrefix, h_data⟩, rfl, rfl⟩
  refine ⟨dataPrefix, ?_, h_fulfillment, h_data.isLengthPrefix⟩
  rw [List.append_nil, h_data.eq]

/-- **Rejects that are accepted** pass the check, with a code of three ASCII characters. -/
theorem takes_readIlpReject : Takes readIlpReject fun _ json => (Packet.reject json).IsValid := by
  -- the address may be empty, and is checked before the rest is read
  have h_last (code address : Buffer) :
      Takes (if !isValidIlpAddress (String.ofList (Ascii.decode address)) &&
          String.ofList (Ascii.decode address) ≠ "" then
          throw (.error "Invalid triggeredBy ILP address")
        else do
          let message ← Reader.readVarOctetString
          let data ← Reader.readVarOctetString
          return ({ code := String.ofList (Ascii.decode code)
                    triggeredBy := String.ofList (Ascii.decode address)
                    message := String.ofList (Utf8.decode message), data } : IlpReject))
        fun _ json => code.length = ilpErrorCodeLength → (Packet.reject json).IsValid := by
    refine .ite (fun _ => .throw _ _) fun h_valid => ?_
    refine (takes_readVarOctetString.bind fun message => takes_readVarOctetString.bind fun data =>
      Takes.pure _).mono ?_
    rintro _ json ⟨_, _, message, _, _, _, _, data, _, _, _, rfl⟩ h_code
    refine ⟨?_, ?_, ?_⟩
    · -- valid, or empty
      change (isValidIlpAddress (String.ofList (Ascii.decode address)) ||
        decide (String.ofList (Ascii.decode address) = "")) = true
      rw [Bool.and_eq_true_iff, not_and_or] at h_valid
      rw [Bool.or_eq_true_iff]
      rcases h_valid with h_address | h_empty
      · exact .inl (by rwa [Bool.not_eq_true', Bool.not_eq_false] at h_address)
      · exact .inr (decide_eq_true (not_not.mp fun h_ne => h_empty (decide_eq_true h_ne)))
    · change (String.ofList (Ascii.decode code)).toList.length = 3
      rw [String.toList_ofList, Ascii.length_decode, h_code]
      rfl
    · change Ascii.IsAscii (String.ofList (Ascii.decode code)).toList
      rw [String.toList_ofList]
      exact Ascii.isAscii_decode code
  unfold readIlpReject
  refine ((Reader.takes_read _).bind fun code => takes_readVarOctetString.bind fun address =>
    h_last code address).mono ?_
  rintro _ json ⟨b₁, _, code, _, ⟨h_code, rfl⟩, _, _, _, _, _, h_json⟩
  exact h_json h_code

/-! ### Sizes -/

/-- A larger value needs no shorter encoding. -/
theorem measureVarOctetString_mono {m n : ℕ} (h : m ≤ n) (hn : n < 2 ^ 48) :
    Predictor.measureVarOctetString m ≤ Predictor.measureVarOctetString n := by
  have h_pos := (Writer.shortest_length (n := n) (by omega)).pos
  have h_fits := (Writer.getUIntBufferSize_le_iff (n := n) (by omega) h_pos).mp le_rfl
  have h_size := (Writer.getUIntBufferSize_le_iff (n := m) (by omega) h_pos).mpr (by omega)
  unfold Predictor.measureVarOctetString
  split_ifs <;> omega

/-- What was read from a buffer, and what was left. -/
theorem exists_of_readFrom {α : Type} {x : Action Reader OerError α} {P : Buffer → α → Prop} {binary : Buffer}
    {a : α} (hx : Takes x P) (h : readFrom x binary = .ok a) :
    ∃ bytes more, binary = bytes ++ more ∧ P bytes a := by
  obtain ⟨bytes, more, h_rest, h_P, -⟩ := hx (Reader.ofBuffer binary) a _ (Nat.zero_le _) (Prod.ext h rfl)
  exact ⟨bytes, more, h_rest, h_P⟩

/-- **What was read from an envelope** was read from its contents, which are no longer than they were
written. -/
theorem exists_of_deserializeContents {α : Type} {type : ℕ} {x : Action Reader OerError α} {binary : Buffer}
    {a : α} (h_size : binary.length ≤ kMaxLength) (h : deserializeContents type x binary = .ok a) :
    ∃ contents, envelopeSize contents.length ≤ binary.length ∧ readFrom x contents = .ok a := by
  cases h_envelope : deserializeEnvelope binary with
  | error e =>
    rw [deserializeContents, h_envelope] at h
    cases h
  | ok found =>
    obtain ⟨foundType, contents⟩ := found
    have h_takes := (Reader.takes_readUIntNumber 1).bind fun type =>
      takes_readVarOctetString.bind fun contents => Takes.pure (type, contents)
    obtain ⟨_, more, rfl, b₁, _, _, rfl, ⟨h_type, -⟩, b₂, _, _, rfl, ⟨lengthPrefix, h_contents⟩, rfl, h_eq⟩ :=
      exists_of_readFrom h_takes h_envelope
    cases h_eq
    rw [deserializeContents, h_envelope] at h
    change (if foundType ≠ type then _ else readFrom x contents) = _ at h
    split at h
    · cases h
    · refine ⟨contents, ?_, h⟩
      have h_bytes := h_contents.eq
      have h_long : contents.length < 2 ^ 48 := by
        rw [h_bytes] at h_size
        simp only [List.length_append] at h_size
        unfold kMaxLength at h_size
        omega
      have h_pre := (Reader.lengthPrefix_le h_contents.isLengthPrefix h_long).1
      rw [envelopeSize, measureVarOctetString_eq, h_bytes]
      simp only [List.length_append]
      omega

/-- Contents no longer than those that were read fit in a buffer. -/
theorem envelopeSize_le {n : ℕ} {contents binary : Buffer} (h_size : binary.length ≤ kMaxLength)
    (h_envelope : envelopeSize contents.length ≤ binary.length) (h : n ≤ contents.length) :
    envelopeSize n ≤ kMaxLength := by
  have h_small := Packet.lt_of_envelopeSize_le (h_envelope.trans h_size)
  have h_mono := measureVarOctetString_mono h h_small
  unfold envelopeSize at h_envelope ⊢
  omega

/-- The size computed for a Prepare is at most that of the contents it was read from. -/
theorem IsPrepareContents.contentSize_le {bytes : Buffer} {json : IlpPrepare} {parts : PrepareParts}
    (h : IsPrepareContents bytes json parts) (h_length : bytes.length < 2 ^ 48) :
    json.contentSize ≤ bytes.length := by
  have h_bytes := congrArg List.length h.eq
  simp only [List.length_append, h.length_amount, h.length_time, h.length_condition] at h_bytes
  have h_address : (Ascii.encode json.destination.toList).length = parts.address.length := by
    rw [Ascii.length_encode (isAscii_of_isValidIlpAddress h.isValid), h.destination, String.toList_ofList,
      Ascii.length_decode]
  have h_addressPrefix := (Reader.lengthPrefix_le h.addressPrefix (by omega)).1
  have h_dataPrefix := (Reader.lengthPrefix_le h.dataPrefix (by omega)).1
  rw [IlpPrepare.contentSize, h_address, measureVarOctetString_eq, measureVarOctetString_eq]
  omega

theorem IsFulfillContents.contentSize_le {bytes : Buffer} {json : IlpFulfill} {dataPrefix : Buffer}
    (h : IsFulfillContents bytes json dataPrefix) (h_length : bytes.length < 2 ^ 48) :
    json.contentSize ≤ bytes.length := by
  have h_bytes := congrArg List.length h.eq
  simp only [List.length_append, h.length_fulfillment] at h_bytes
  have h_dataPrefix := (Reader.lengthPrefix_le h.dataPrefix (by omega)).1
  rw [IlpFulfill.contentSize, measureVarOctetString_eq]
  omega

/-- The text of a 64-bit integer is an amount. -/
theorem isUInt64_toString {n : ℕ} (h : n < 2 ^ 64) : isUInt64 (toString n) = true := by
  obtain ⟨h_accepted, h_value, h_sign⟩ := accepted_toString h
  have h_nat := Writer.toNat_ofInt_toInt h_accepted h_sign
  rw [h_value] at h_nat
  have h_decimal : decimalValue (toString n).toList = n := h_value
  rw [isUInt64, Bool.and_eq_true_iff, h_decimal]
  exact ⟨h_accepted.1, decide_eq_true (by rw [Int.ofNat_inj.mp h_nat])⟩

/-- A Prepare that was read passes the check. -/
theorem IsPrepareContents.isValidPacket {bytes : Buffer} {json : IlpPrepare} {parts : PrepareParts}
    (h : IsPrepareContents bytes json parts) : (Packet.prepare json).IsValid := by
  obtain ⟨n, hn, h_amount⟩ := h.isAmount
  have h_uint := isUInt64_toString hn
  rw [← h_amount] at h_uint
  change (isUInt64 json.amount && isValidIlpAddress json.destination &&
    decide (json.executionCondition.length = 32)) = true
  rw [h_uint, h.isValid, decide_eq_true h.length_condition]
  rfl

/-! ### A year that is too short -/

/-- A text that a number of equal characters before it and some characters behind it lead to the same
whole consists of that character. -/
theorem eq_of_replicate_append {α : Type} {a : α} {s : ℕ} (h_pos : 0 < s) {text behind : List α}
    (h : List.replicate s a ++ text = text ++ behind) : ∀ x ∈ text, x = a := by
  obtain ⟨s, rfl⟩ := Nat.exists_eq_succ_of_ne_zero (Nat.ne_of_gt h_pos)
  induction text with
  | nil => exact fun x hx => absurd hx List.not_mem_nil
  | cons b text ih =>
    rw [List.replicate_succ, List.cons_append, List.cons_append, List.cons.injEq] at h
    obtain ⟨rfl, h_tail⟩ := h
    -- one of the characters is taken off the front, and put back behind the others
    have h_next : List.replicate (s + 1) a ++ text = text ++ behind := by
      rw [List.replicate_succ', List.append_assoc]
      exact h_tail
    intro x hx
    rcases List.mem_cons.mp hx with rfl | hx
    · rfl
    · exact ih h_next x hx

/-- The same, from behind. -/
theorem eq_of_append_replicate {α : Type} {a : α} {s : ℕ} (h_pos : 0 < s) {text before : List α}
    (h : text ++ List.replicate s a = before ++ text) : ∀ x ∈ text, x = a := by
  have h_reverse := congrArg List.reverse h
  rw [List.reverse_append, List.reverse_append, List.reverse_replicate] at h_reverse
  exact fun x hx => eq_of_replicate_append h_pos h_reverse x (List.mem_reverse.mpr hx)

/-- **Shifted contents.** Contents whose time is too short, with zeros at the end, are not read as the same
packet: every byte behind the time would have to be zero. -/
theorem not_reads_short {data : IlpPrepare} {n s : ℕ} {used more : Buffer} {parts : PrepareParts}
    (h_small : data.contentSize < 2 ^ 48) (h_time : data.time.length + s = interledgerTimeLength)
    (h_pos : 0 < s) (h_bytes : data.contents n ++ List.replicate s 0 = used ++ more)
    (h : IsPrepareContents used data parts) : False := by
  -- the prefixes are as long as those that were written, and so they are the same
  have h_address : (Ascii.encode data.destination.toList).length = parts.address.length := by
    rw [Ascii.length_encode (isAscii_of_isValidIlpAddress h.isValid), h.destination, String.toList_ofList,
      Ascii.length_decode]
  -- the lengths of both sides, and of their parts
  have h_lengths := congrArg List.length h_bytes
  have h_sum := data.length_contents (n := n) h.length_condition
  have h_used := congrArg List.length h.eq
  have h_size := h_small
  rw [IlpPrepare.contentSize, h_address, measureVarOctetString_eq, measureVarOctetString_eq] at h_sum h_size
  simp only [List.length_append, List.length_replicate, h.length_amount, h.length_time,
    h.length_condition] at h_lengths h_used
  obtain ⟨h_addressPrefix, h_addressSame⟩ := Reader.lengthPrefix_le h.addressPrefix (by omega)
  obtain ⟨h_dataPrefix, h_dataSame⟩ := Reader.lengthPrefix_le h.dataPrefix (by omega)
  have h_more : more = [] := List.length_eq_zero_iff.mp (by omega)
  have h_addressPrefix := h_addressSame (by omega)
  have h_dataPrefix := h_dataSame (by omega)
  rw [h_more, List.append_nil, h.eq, h_addressPrefix, h_dataPrefix, IlpPrepare.contents,
    List.append_assoc, List.append_assoc] at h_bytes
  obtain ⟨-, h_bytes⟩ := List.append_inj h_bytes (by rw [Bytes.length_toBytes, h.length_amount])
  -- without the amount, and without as many bytes as the time has
  have h_shifted := congrArg (List.drop data.time.length) h_bytes
  rw [List.drop_left, List.drop_append_of_le_length (by rw [h.length_time]; omega)] at h_shifted
  -- what follows the time is the same text on both sides, shifted by the characters that are missing
  have h_text : data.destination.toList = Ascii.decode parts.address := by
    rw [h.destination, String.toList_ofList]
  have h_decoded := congrArg Ascii.decode h_shifted
  simp only [octets, Ascii.decode_append, h_address,
    Ascii.decode_encode (isAscii_of_isValidIlpAddress h.isValid), ← h_text] at h_decoded
  rw [Ascii.decode_replicate_zero] at h_decoded
  -- so that an address would end in zeros
  have h_dot := eq_of_append_replicate h_pos h_decoded '.' (by
    have h_mem := dot_mem_of_isValidIlpAddress h.isValid
    simp only [List.mem_append]
    exact .inr (.inl (.inr h_mem)))
  exact absurd h_dot (by decide)

/-! ### Relaying -/

/-- What the deserializer of a type accepted. -/
theorem deserializeIlpPacket_ok {binary : Buffer} {packet : Packet}
    (h : deserializeIlpPacket binary = .ok packet) :
    match packet with
    | .prepare data => deserializeIlpPrepare binary = .ok data
    | .fulfill data => deserializeIlpFulfill binary = .ok data
    | .reject data => deserializeIlpReject binary = .ok data := by
  unfold deserializeIlpPacket at h
  split_ifs at h
  · obtain ⟨data, h_data, rfl⟩ := eq_ok_of_map_eq_ok h
    exact h_data
  · obtain ⟨data, h_data, rfl⟩ := eq_ok_of_map_eq_ok h
    exact h_data
  · obtain ⟨data, h_data, rfl⟩ := eq_ok_of_map_eq_ok h
    exact h_data

namespace Packet

/-- A Prepare that expires in a year of up to three characters is sent on as something else. -/
theorem not_relays_of_short {data : IlpPrepare} (h : (prepare data).IsValid)
    (h_size : envelopeSize data.contentSize ≤ kMaxLength) (h_long : ¬data.expiresAt.HasLongYear)
    (h_four : ¬data.expiresAt.HasFourCharacterYear) : ¬(prepare data).Relays := by
  rintro ⟨binary, h_serialize, h_deserialize⟩
  obtain ⟨h_rest, h_condition⟩ := Bool.and_eq_true_iff.mp h
  obtain ⟨n, hn, h_amount⟩ := exists_of_isUInt64 (Bool.and_eq_true_iff.mp h_rest).1
  have h_small := lt_of_envelopeSize_le h_size
  have h_sum := data.length_contents (n := n) (of_decide_eq_true h_condition)
  have h_le := Date.lt_length_iff.not.mpr h_long
  have h_ne := Date.length_eq_iff.not.mpr h_four
  rw [← IlpPrepare.length_time] at h_le h_ne
  obtain ⟨-, h_envelope⟩ := serializeEnvelope_of_writes 12 (by omega) h_size
    (IlpPrepare.writes_content hn h_amount (by omega)) (by omega)
  rw [serializeIlpPacket_eq h] at h_serialize
  obtain rfl := Except.ok.inj (h_serialize.symm.trans h_envelope)
  -- the missing characters of the time are zeros behind the data
  obtain ⟨s, h_missing⟩ : ∃ s, data.contentSize - (data.contents n).length = s := ⟨_, rfl⟩
  rw [h_missing] at h_deserialize
  have h_filled : (data.contents n ++ List.replicate s (0 : UInt8)).length = data.contentSize := by
    rw [List.length_append, List.length_replicate]
    omega
  have h_contents := deserializeContents_envelope 12 readIlpPrepare
    (data.contents n ++ List.replicate s 0) (by omega) (by omega) []
  have h_read := deserializeIlpPacket_ok h_deserialize
  change deserializeContents 12 readIlpPrepare _ = .ok data at h_read
  rw [List.append_nil, h_read] at h_contents
  obtain ⟨used, more, h_bytes, parts, h_parts⟩ := exists_of_readFrom takes_readIlpPrepare h_contents.symm
  exact not_reads_short (s := s) h_small (by omega) (by omega) h_bytes h_parts

/-- What survives is relayed. -/
theorem Survives.relays {packet : Packet} (h : ∃ binary, packet.Survives binary) : packet.Relays := by
  obtain ⟨binary, h_serialize, h_deserialize, -⟩ := h
  exact ⟨binary, h_serialize, h_deserialize⟩

end Packet

/-- **Relaying.** A packet that was accepted is sent on as the same packet exactly if it is no Prepare that
expires in a year not written in four characters, and no Reject whose message no longer fits. -/
theorem relays_iff {binary : Buffer} {packet : Packet} (h_size : binary.length ≤ kMaxLength)
    (h : deserializeIlpPacket binary = .ok packet) : packet.Relays ↔ packet.Relayable := by
  have h_read := deserializeIlpPacket_ok h
  cases packet with
  | prepare data =>
    -- what was read fits when it is written again
    obtain ⟨contents, h_envelope, h_contents⟩ := exists_of_deserializeContents h_size h_read
    obtain ⟨used, more, rfl, parts, h_parts⟩ := exists_of_readFrom takes_readIlpPrepare h_contents
    have h_small := Packet.lt_of_envelopeSize_le (h_envelope.trans h_size)
    rw [List.length_append] at h_small
    have h_le := h_parts.contentSize_le (by omega)
    have h_fits := envelopeSize_le h_size h_envelope (n := data.contentSize)
      (by rw [List.length_append]; omega)
    have h_valid := h_parts.isValidPacket
    -- the year decides
    by_cases h_four : data.expiresAt.HasFourCharacterYear
    · have h_time := time_ne_zero h_parts.expiresAt
      exact iff_of_true (Packet.Survives.relays (Packet.survives_prepare h_valid h_fits h_four h_time)) h_four
    · refine iff_of_false ?_ h_four
      -- too long a year cannot be written, and too short a one shifts what follows
      by_cases h_long : data.expiresAt.HasLongYear
      · rintro ⟨out, h_out, -⟩
        obtain ⟨e, h_error⟩ := Packet.throws_of_long h_valid h_fits h_long
        rw [h_error] at h_out
        cases h_out
      · exact Packet.not_relays_of_short h_valid h_fits h_long h_four
  | fulfill data =>
    obtain ⟨contents, h_envelope, h_contents⟩ := exists_of_deserializeContents h_size h_read
    obtain ⟨used, more, rfl, dataPrefix, h_parts⟩ := exists_of_readFrom takes_readIlpFulfill h_contents
    have h_small := Packet.lt_of_envelopeSize_le (h_envelope.trans h_size)
    rw [List.length_append] at h_small
    have h_le := h_parts.contentSize_le (by omega)
    have h_fits := envelopeSize_le h_size h_envelope (n := data.contentSize)
      (by rw [List.length_append]; omega)
    exact iff_of_true (Packet.Survives.relays
      (Packet.survives_fulfill (decide_eq_true h_parts.length_fulfillment) h_fits)) trivial
  | reject data =>
    obtain ⟨contents, -, h_contents⟩ := exists_of_deserializeContents h_size h_read
    obtain ⟨used, more, -, h_valid⟩ := exists_of_readFrom takes_readIlpReject h_contents
    -- the message may have grown
    by_cases h_fits : envelopeSize data.contentSize ≤ kMaxLength
    · exact iff_of_true (Packet.Survives.relays (Packet.survives_reject h_valid h_fits)) h_fits
    · refine iff_of_false ?_ h_fits
      rintro ⟨out, h_out, -⟩
      have h_error : serializeIlpPacket (.reject data) = .error .rangeError :=
        (Packet.serializeIlpPacket_eq h_valid).trans (serializeEnvelope_of_lt (not_le.mp h_fits))
      rw [h_error] at h_out
      cases h_out

/-- A Prepare whose time is in the year 2024 is relayed, and so is a Reject. -/
theorem relays_iff_prepare :
    (Packet.prepare ⟨"100", List.replicate 32 7, ⟨1709208000000, by decide⟩, "g.alice", []⟩).Relays ∧
      (Packet.reject ⟨"F00", "g.bob", "no", [1]⟩).Relays := by
  constructor
  · refine (@relays_iff ([12, 66] ++ Bytes.toBytes 8 100 ++ Ascii.encode "20240229120000000".toList ++
      List.replicate 32 7 ++ [7] ++ Ascii.encode "g.alice".toList ++ [0]) _ (by decide +kernel)
      (by decide +kernel)).mpr ?_
    show Date.HasFourCharacterYear _
    decide +kernel
  · refine (@relays_iff ([14, 14] ++ Ascii.encode "F00".toList ++ [5] ++ Ascii.encode "g.bob".toList ++ [2] ++
      Ascii.encode "no".toList ++ [1, 1]) _ (by decide +kernel) (by decide +kernel)).mpr ?_
    show envelopeSize _ ≤ kMaxLength
    decide +kernel

/-- A Prepare whose time is in the year 100 is accepted, and not relayed. -/
theorem not_relays_year_100 : ∃ binary packet, binary.length ≤ kMaxLength ∧
    deserializeIlpPacket binary = .ok packet ∧ ¬packet.Relays := by
  refine ⟨[12, 66] ++ Bytes.toBytes 8 100 ++ Ascii.encode "01000101000000000".toList ++
    List.replicate 32 7 ++ [7] ++ Ascii.encode "g.alice".toList ++ [0],
    .prepare ⟨"100", List.replicate 32 7, ⟨-59011459200000, by decide⟩, "g.alice", []⟩, by decide +kernel,
    by decide +kernel, ?_⟩
  exact Packet.not_relays_of_short (by decide +kernel : isPrepare _ = true) (by decide +kernel)
    (by decide +kernel) (by decide +kernel)

end Interledger.IlpPacket
