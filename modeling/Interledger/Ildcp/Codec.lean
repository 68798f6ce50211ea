import Interledger.IlpPacket.Amount
import Interledger.IlpPacket.PeerProtocol

/-!
# The codec of IL-DCP

The two pairs of functions of `ilp-protocol-ildcp/src/index.ts` that serialize and deserialize a request
and a response. A request is an ILP Prepare with an amount of zero, a fixed destination and a fixed
condition, a response is the data of an ILP Fulfill with a fixed fulfillment.

## Main results

* `serializeIldcpRequest_eq_error`, `serializeIldcpRequest_eq_ok` — which requests are serialized;
* `deserializeIldcpRequest_readable`, `deserializeIldcpRequest_unreadable` — what is read of one;
* `deserialize_serializeIldcpResponse` — a response of any handler is a Fulfill;
* `deserializeIldcpResponse_serialize` — a valid one is read back.
-/

namespace Interledger.Ildcp

open Oer IlpPacket Interledger.Action
open Ilp (Buffer)

/-! ### Strings -/

/-- The code units of the longest string, on a 64-bit platform. -/
def maxStringLength : ℕ := 2 ^ 29 - 24

/-- The text is a string of the language. -/
def IsText (text : String) : Prop := (text.toList.flatMap Ascii.codeUnits).length ≤ maxStringLength

instance (text : String) : Decidable (IsText text) := inferInstanceAs (Decidable (_ ≤ _))

/-- A string. Where one is only encoded, as here, a lone surrogate is the same as the replacement
character. -/
structure JsString where
  text : String
  isText : IsText text

/-- A string takes less than half of the largest `Buffer`. -/
theorem JsString.length_encode_le (string : JsString) :
    2 * (Utf8.encode string.text.toList).length ≤ kMaxLength := by
  have h_length := Utf8.length_encode_le string.text.toList
  have h_text := string.isText
  unfold IsText maxStringLength at h_text
  unfold kMaxLength
  omega

/-! ### Data -/

/-- `ILDCP_DESTINATION`. -/
def ildcpDestination : String := "peer.config"

/-- `IldcpRequest`. -/
structure IldcpRequest where
  expiresAt : Option Date := none
  data : Option Buffer := none

/-- `IldcpResponse`. -/
structure IldcpResponse where
  clientAddress : String
  assetScale : ℕ
  assetCode : String
  deriving DecidableEq

/-- What a handler may return for a text: a string, or something of which `Buffer.from` makes bytes or
throws. -/
inductive TextValue
  | string (value : JsString)
  | other (buffer : Except OerError Buffer)

/-- What a handler returns, of any type. Where it has no properties to read, reading the first one is what
throws. -/
structure Info where
  clientAddress : TextValue
  assetScale : LongValue
  assetCode : TextValue

/-! ### Requests -/

namespace IldcpRequest

/-- `request.expiresAt`, or its default. -/
def expiry (request : IldcpRequest) (clock : Clock) : Date := request.expiresAt.getD clock.expiresAt

/-- The Prepare of a request. -/
def toPrepare (request : IldcpRequest) (clock : Clock) : IlpPrepare where
  amount := "0"
  destination := ildcpDestination
  executionCondition := peerProtocolCondition
  expiresAt := request.expiry clock
  data := request.data.getD []

end IldcpRequest

/-- `serializeIldcpRequest`. -/
def serializeIldcpRequest (clock : Clock) (request : IldcpRequest) : Except OerError Buffer :=
  serializeIlpPrepare (request.toPrepare clock)

/-- `deserializeIldcpRequest`. -/
def deserializeIldcpRequest (clock : Clock) (request : Buffer) : Except OerError IldcpRequest := do
  let ilp ← deserializeIlpPrepare request
  if ilp.destination ≠ ildcpDestination then throw (.error "packet is not an IL-DCP request.")
  else if peerProtocolCondition ≠ ilp.executionCondition then
    throw (.error "packet does not contain correct condition for a peer protocol request.")
  else if ilp.expiresAt.time < clock.now then throw (.error "IL-DCP request packet is expired.")
  else return { expiresAt := some ilp.expiresAt, data := some ilp.data }

/-! ### Responses -/

/-- `Buffer.from`, with the encoding that strings are in. -/
def TextValue.toBuffer (encode : List Char → Buffer) : TextValue → Except OerError Buffer
  | string value => .ok (encode value.text.toList)
  | other buffer => buffer

/-- `writeIldcpResponse`. -/
def writeIldcpResponse (clientAddress : Buffer) (assetScale : LongValue) (assetCode : Buffer) (σ : Type)
    [WriterInterface σ] : Action σ OerError Unit := do
  WriterInterface.writeVarOctetString clientAddress
  WriterInterface.writeUInt8 assetScale
  WriterInterface.writeVarOctetString assetCode

/-- `serializeIldcpResponse`. -/
def serializeIldcpResponse (response : Info) : Except OerError Buffer := do
  let clientAddress ← response.clientAddress.toBuffer Ascii.encode
  let assetCode ← response.assetCode.toBuffer Utf8.encode
  let data ← getBuffer do
    let length ← predict (writeIldcpResponse clientAddress response.assetScale assetCode Predictor)
    newWriter length
    writeIldcpResponse clientAddress response.assetScale assetCode Writer
  serializeIlpFulfill { fulfillment := peerProtocolFulfillment, data }

/-- What `deserializeIldcpResponse` reads of the data. -/
def readIldcpResponse : Action Reader OerError IldcpResponse := do
  let clientAddress ← readAscii
  if !isValidIlpAddress clientAddress then throw (.error "Invalid ILP address")
  else
    let assetScale ← Reader.readUIntNumber 1
    let assetCode ← readUtf8
    return { clientAddress, assetScale, assetCode }

/-- `deserializeIldcpResponse`. -/
def deserializeIldcpResponse (response : Buffer) : Except OerError IldcpResponse := do
  let { fulfillment, data } ← deserializeIlpFulfill response
  if peerProtocolFulfillment ≠ fulfillment then
    throw (.error "IL-DCP response does not contain the expected fulfillment.")
  else readFrom readIldcpResponse data

/-! ### What is read of a request -/

section Requests

variable {request : IldcpRequest} {clock : Clock}

theorem denotes_zero : Denotes "0" 0 := ⟨by decide, by decide, by decide⟩

theorem isValidIlpAddress_ildcpDestination : isValidIlpAddress ildcpDestination = true := by decide

/-- The bytes of the condition that a short time is read with start with a letter. -/
theorem letters_peerProtocolCondition : ∀ k < 4, 0 < k →
    'f' ∈ Ascii.decode (peerProtocolCondition.take k) ∧
      (Ascii.decode (peerProtocolCondition.take k)).all (fun c => decide (IsPlain c)) = true := by
  decide +kernel

namespace IldcpRequest

/-- The expiry of the Prepare can be read: the year takes four characters, and it is not the epoch. -/
def HasReadableExpiry (request : IldcpRequest) (clock : Clock) : Prop :=
  (request.expiry clock).HasFourCharacterYear ∧ (request.expiry clock).time ≠ 0

end IldcpRequest

/-- A request that is refused, -/
theorem serializeIldcpRequest_eq_error (h : (request.toPrepare clock).Refused) :
    ∃ e, serializeIldcpRequest clock request = .error e :=
  serializeIlpPrepare_of_refused h

/-- and what others are written as. -/
theorem serializeIldcpRequest_eq_ok (h : ¬(request.toPrepare clock).Refused) :
    ∃ zeros, serializeIldcpRequest clock request =
        .ok (envelope 12 ((request.toPrepare clock).contents 0 ++ zeros)) ∧
      ((request.toPrepare clock).contents 0 ++ zeros).length < 2 ^ 48 ∧
      ((request.expiry clock).HasFourCharacterYear → zeros = []) := by
  obtain ⟨zeros, h_serialize, h_length, h_four⟩ := serializeIlpPrepare_eq denotes_zero h
  have h_small := Packet.lt_of_envelopeSize_le (not_refused h).2.1
  exact ⟨zeros, h_serialize, h_length ▸ h_small, h_four⟩

/-- **A request with an expiry that can be read** is read back, unless it is expired. -/
theorem deserializeIldcpRequest_readable {packet : Buffer} (h : ¬(request.toPrepare clock).Refused)
    (h_readable : request.HasReadableExpiry clock) (h_packet : serializeIldcpRequest clock request = .ok packet)
    (later : Clock) :
    deserializeIldcpRequest later packet =
      if (request.expiry clock).time < later.now then .error (.error "IL-DCP request packet is expired.")
      else .ok { expiresAt := some (request.expiry clock), data := some (request.data.getD []) } := by
  obtain ⟨zeros, h_serialize, h_length, h_four⟩ := serializeIldcpRequest_eq_ok h
  obtain rfl := Except.ok.inj (h_packet.symm.trans h_serialize)
  rw [h_four h_readable.1, List.append_nil] at h_length ⊢
  have h_small := Packet.lt_of_envelopeSize_le (not_refused h).2.1
  -- the Prepare is read back, and it has the destination and the condition of the protocol
  have h_reads : Reads readIlpPrepare ((request.toPrepare clock).contents 0) (request.toPrepare clock) :=
    IlpPrepare.reads_contents (by decide) rfl h_small length_peerProtocolCondition
      isValidIlpAddress_ildcpDestination h_readable.1 h_readable.2
  have h_read : deserializeIlpPrepare (envelope 12 ((request.toPrepare clock).contents 0)) =
      .ok (request.toPrepare clock) := Packet.deserializeContents_eq 12 (by decide) h_length h_reads
  have h_destination : (request.toPrepare clock).destination = ildcpDestination := rfl
  have h_condition : peerProtocolCondition = (request.toPrepare clock).executionCondition := rfl
  rw [deserializeIldcpRequest, h_read, ok_bind, if_neg (not_not.mpr h_destination),
    if_neg (not_not.mpr h_condition)]
  rfl

/-- **Other expiries** are taken for no date, whatever the time is. -/
theorem deserializeIldcpRequest_unreadable {packet : Buffer} (h : ¬(request.toPrepare clock).Refused)
    (h_unreadable : ¬request.HasReadableExpiry clock)
    (h_packet : serializeIldcpRequest clock request = .ok packet) (later : Clock) :
    deserializeIldcpRequest later packet = .error (.error "invalid date") := by
  obtain ⟨zeros, h_serialize, h_length, -⟩ := serializeIldcpRequest_eq_ok h
  obtain rfl := Except.ok.inj (h_packet.symm.trans h_serialize)
  have h_long := (not_refused h).2.2
  obtain ⟨tail, h_tail⟩ : ∃ tail, (request.toPrepare clock).contents 0 ++ zeros =
      Bytes.toBytes 8 0 ++ ((request.toPrepare clock).time ++ (peerProtocolCondition ++ tail)) := by
    refine ⟨octets (Ascii.encode ildcpDestination.toList) ++ octets (request.data.getD []) ++ zeros, ?_⟩
    unfold IlpPrepare.contents
    simp only [List.append_assoc]
    rfl
  rw [h_tail] at h_length ⊢
  -- the seventeen bytes that are read as the time
  obtain ⟨time, rest, h_contents, h_time, h_invalid⟩ : ∃ time rest,
      (request.toPrepare clock).time ++ (peerProtocolCondition ++ tail) = time ++ rest ∧
        time.length = interledgerTimeLength ∧
        interledgerTimeToDate (String.ofList (Ascii.decode time)) = .error (.error "invalid date") := by
    have h_text : Ascii.decode (request.toPrepare clock).time =
        (dateToInterledgerTime (request.expiry clock)).toList :=
      Ascii.decode_encode (isAscii_dateToInterledgerTime _)
    have h_bytes : (request.toPrepare clock).time.length =
        (dateToInterledgerTime (request.expiry clock)).toList.length := IlpPrepare.length_time
    by_cases h_four : (request.expiry clock).HasFourCharacterYear
    · -- a timestamp of the right length is refused only at the epoch
      have h_epoch : (request.expiry clock).time = 0 :=
        not_not.mp fun h_ne => h_unreadable ⟨h_four, h_ne⟩
      refine ⟨(request.toPrepare clock).time, _, rfl, ?_, ?_⟩
      · rw [h_bytes]
        exact Date.length_eq_iff.mpr h_four
      · rw [h_text, String.ofList_toList, interledgerTimeToDate_dateToInterledgerTime h_four,
          if_pos h_epoch]
    · -- the first bytes of the condition are taken in
      have h_le := Date.lt_length_iff.not.mpr h_long
      have h_ne := Date.length_eq_iff.not.mpr h_four
      have h_year := length_toString_pos (request.expiry clock).getUTCFullYear
      have h_sum := length_dateToInterledgerTime (request.expiry clock)
      have h_condition := length_peerProtocolCondition
      change ¬interledgerTimeLength < (dateToInterledgerTime (request.expiry clock)).toList.length at h_le
      obtain ⟨k, h_k⟩ := Nat.le.dest (not_lt.mp h_le)
      unfold interledgerTimeLength at h_k h_ne
      obtain ⟨h_letter, h_plain⟩ := letters_peerProtocolCondition k (by omega) (by omega)
      have h_more : (Ascii.decode (peerProtocolCondition.take k)).length = k := by
        rw [Ascii.length_decode, List.length_take]
        omega
      refine ⟨(request.toPrepare clock).time ++ peerProtocolCondition.take k,
        peerProtocolCondition.drop k ++ tail, ?_, ?_, ?_⟩
      · rw [List.append_assoc, ← List.append_assoc (peerProtocolCondition.take k), List.take_append_drop]
      · rw [List.length_append, h_bytes, List.length_take]
        unfold interledgerTimeLength
        omega
      · have h_none : dateOfParts ((dateToInterledgerTime (request.expiry clock)).toList ++
            Ascii.decode (peerProtocolCondition.take k)) = none :=
          dateOfParts_of_short (List.ne_nil_of_mem h_letter) (by rw [h_more]; exact h_k)
            (fun c hc => of_decide_eq_true (List.all_eq_true.mp h_plain c hc)) h_letter (by decide)
        rw [Ascii.decode_append, h_text, interledgerTimeToDate, String.toList_ofList, h_none]
  rw [h_contents] at h_length ⊢
  have h_read := deserializeIlpPrepare_of_invalid (by decide) h_time h_invalid h_length
  rw [deserializeIldcpRequest, h_read]
  rfl

end Requests

/-! ### What is read of a response -/

/-- The bytes of a response. -/
def responseBytes (clientAddress : Buffer) (assetScale : ℕ) (assetCode : Buffer) : Buffer :=
  octets clientAddress ++ (Bytes.toBytes 1 assetScale ++ octets assetCode)

theorem emits_writeIldcpResponse {clientAddress assetCode : Buffer} {assetScale : ℕ} (h : assetScale < 256) :
    Emits (writeIldcpResponse clientAddress (.number assetScale) assetCode)
      (responseBytes clientAddress assetScale assetCode) := by
  have h_accepted : (LongValue.number assetScale).Accepted true := by
    change (assetScale : ℤ).natAbs < 2 ^ 53
    omega
  have h_lt : (LongValue.number assetScale).toInt < 256 := by
    change (assetScale : ℤ) < 256
    omega
  have h_scale := Emits.writeUInt8 h_accepted (Int.natCast_nonneg assetScale) h_lt
  exact (Emits.writeVarOctetString clientAddress).bind (h_scale.bind (Emits.writeVarOctetString assetCode))

/-- **Whatever a handler returns**, the reply is a Fulfill, or serialization throws. -/
theorem deserialize_serializeIldcpResponse {info : Info} {binary : Buffer}
    (h : serializeIldcpResponse info = .ok binary) :
    ∃ data, deserializeIlpPacket binary = .ok (.fulfill ⟨peerProtocolFulfillment, data⟩) := by
  unfold serializeIldcpResponse at h
  obtain ⟨clientAddress, -, h⟩ := eq_ok_of_bind_eq_ok h
  obtain ⟨assetCode, -, h⟩ := eq_ok_of_bind_eq_ok h
  obtain ⟨data, -, h⟩ := eq_ok_of_bind_eq_ok h
  exact ⟨data, (Packet.survives_of_serializeIlpFulfill h).2.1⟩

namespace IldcpResponse

/-- The types of a response: a valid address, a byte for the scale, and a string for the code. -/
structure IsValid (response : IldcpResponse) : Prop where
  address : isValidIlpAddress response.clientAddress = true
  scale : response.assetScale < 256
  code : IsText response.assetCode

/-- A valid address is a string. -/
theorem isText_of_isValidIlpAddress {address : String} (h : isValidIlpAddress address = true) :
    IsText address := by
  have h_units := Ascii.length_encode (isAscii_of_isValidIlpAddress h)
  have h_length := of_decide_eq_true (Bool.and_eq_true_iff.mp h).1
  unfold Ascii.encode at h_units
  rw [List.length_map] at h_units
  unfold ilpAddressMaxLength at h_length
  unfold IsText maxStringLength
  omega

/-- The response as a handler returns it. -/
def toInfo (response : IldcpResponse) (h : response.IsValid) : Info where
  clientAddress := .string ⟨response.clientAddress, isText_of_isValidIlpAddress h.address⟩
  assetScale := .number response.assetScale
  assetCode := .string ⟨response.assetCode, h.code⟩

end IldcpResponse

variable {response : IldcpResponse}

/-- A valid response fits in a buffer, however long the code is, and so does the packet with it. -/
theorem length_responseBytes (h : response.IsValid) :
    (responseBytes (Ascii.encode response.clientAddress.toList) response.assetScale
      (Utf8.encode response.assetCode.toList)).length + 2048 ≤ kMaxLength := by
  have h_address := Ascii.length_encode (isAscii_of_isValidIlpAddress h.address)
  have h_max := of_decide_eq_true (Bool.and_eq_true_iff.mp h.address).1
  have h_code := JsString.length_encode_le ⟨response.assetCode, h.code⟩
  unfold ilpAddressMaxLength at h_max
  unfold kMaxLength at h_code ⊢
  simp only [responseBytes, List.length_append, length_octets, Bytes.length_toBytes] at h_code ⊢
  have h_address_octets := measureVarOctetString_le (n := (Ascii.encode response.clientAddress.toList).length)
    (by omega)
  have h_code_octets := measureVarOctetString_le (n := (Utf8.encode response.assetCode.toList).length)
    (by omega)
  omega

/-- **A valid response is read back.** -/
theorem deserializeIldcpResponse_serialize (h : response.IsValid) :
    ∃ binary, serializeIldcpResponse (response.toInfo h) = .ok binary ∧
      deserializeIldcpResponse binary = .ok response := by
  have h_length := length_responseBytes h
  have h_emits : Emits (writeIldcpResponse (Ascii.encode response.clientAddress.toList)
      (.number response.assetScale) (Utf8.encode response.assetCode.toList)) _ :=
    emits_writeIldcpResponse h.scale
  have h_data := getBuffer_of_emits h_emits
  rw [if_neg (by omega)] at h_data
  generalize h_bytes : responseBytes (Ascii.encode response.clientAddress.toList) response.assetScale
    (Utf8.encode response.assetCode.toList) = data at h_length h_data
  -- the data fits in the Fulfill
  have h_size : envelopeSize (IlpFulfill.contentSize ⟨peerProtocolFulfillment, data⟩) ≤ kMaxLength := by
    unfold kMaxLength at h_length ⊢
    have h_octets := measureVarOctetString_le (n := data.length) (by omega)
    have h_contents := measureVarOctetString_le (n := 32 + Predictor.measureVarOctetString data.length)
      (by omega)
    change 1 + Predictor.measureVarOctetString (32 + Predictor.measureVarOctetString data.length) ≤ _
    omega
  have h_valid : (Packet.fulfill ⟨peerProtocolFulfillment, data⟩).IsValid :=
    decide_eq_true length_peerProtocolFulfillment
  obtain ⟨binary, h_serialize, -, h_read, -⟩ := Packet.survives_fulfill h_valid h_size
  obtain ⟨fulfill, h_fulfill, h_same⟩ := eq_ok_of_map_eq_ok h_read
  obtain rfl := Packet.fulfill.inj h_same
  refine ⟨binary, ?_, ?_⟩
  · have h_address : (response.toInfo h).clientAddress.toBuffer Ascii.encode =
        .ok (Ascii.encode response.clientAddress.toList) := rfl
    have h_code : (response.toInfo h).assetCode.toBuffer Utf8.encode =
        .ok (Utf8.encode response.assetCode.toList) := rfl
    have h_scale : (response.toInfo h).assetScale = .number response.assetScale := rfl
    rw [serializeIldcpResponse, h_address, h_code, h_scale, ok_bind, ok_bind, h_data, ok_bind]
    exact h_serialize
  · have h_reads : Reads readIldcpResponse data response := by
      unfold kMaxLength at h_length
      have h_parts := congrArg List.length h_bytes
      simp only [responseBytes, List.length_append, Bytes.length_toBytes] at h_parts
      rw [← h_bytes, readIldcpResponse]
      apply (reads_ascii (isAscii_of_isValidIlpAddress h.address) (by omega)).bind
      simp only [h.address, Bool.not_true, Bool.false_eq_true, if_false]
      apply (Reader.reads_number le_rfl (by decide) h.scale).bind
      have h_code := (@reads_utf8 response.assetCode (by omega)).map fun assetCode =>
        IldcpResponse.mk response.clientAddress response.assetScale assetCode
      exact h_code
    have h_data_read := readFrom_of_reads h_reads []
    rw [List.append_nil] at h_data_read
    rw [deserializeIldcpResponse, h_fulfill, ok_bind]
    exact h_data_read

end Interledger.Ildcp
