import Interledger.IlpPacket.Address
import Interledger.IlpPacket.Date
import Interledger.Oer.Compound
import Interledger.Oer.Reader

/-!
# The codec of ILP packets

The three pairs of functions of `ilp-packet/src/index.ts` that serialize and deserialize a packet, and
the pair that does so for any of them.

## Main results

* `roundTrips_iff` — which packets a serialization, if it returns, gives back, with the sizes computed
  in advance: all but the Prepares that expire in a year of up to three characters or at the epoch.
-/

namespace Interledger.IlpPacket

open Oer Interledger.Action
open Ilp (Buffer)

/-- `IlpPrepare`. -/
structure IlpPrepare where
  amount : String
  executionCondition : Buffer
  expiresAt : Date
  destination : String
  data : Buffer
  deriving DecidableEq

/-- `IlpFulfill`. -/
structure IlpFulfill where
  fulfillment : Buffer
  data : Buffer
  deriving DecidableEq

/-- `IlpReject`. -/
structure IlpReject where
  code : String
  triggeredBy : String
  message : String
  data : Buffer
  deriving DecidableEq

/-- `IlpPacket`. -/
inductive Packet
  | prepare (data : IlpPrepare)
  | fulfill (data : IlpFulfill)
  | reject (data : IlpReject)
  deriving DecidableEq

/-- `IlpPacketType`. -/
def Packet.type : Packet → ℕ
  | prepare _ => 12
  | fulfill _ => 13
  | reject _ => 14

/-! ### Checks -/

/-- `isUInt64`. -/
def isUInt64 (o : String) : Bool :=
  isIntegerText o.toList && toString (BitVec.ofInt 64 (decimalValue o.toList)).toNat = o

/-- `isPrepare`, as far as the types leave something to check. -/
def isPrepare (o : IlpPrepare) : Bool :=
  isUInt64 o.amount && isValidIlpAddress o.destination && o.executionCondition.length = 32

/-- `isFulfill`. -/
def isFulfill (o : IlpFulfill) : Bool := o.fulfillment.length = 32

/-- `isReject`. -/
def isReject (o : IlpReject) : Bool := isValidIlpAddress o.triggeredBy || o.triggeredBy = ""

/-! ### Serialization -/

/-- `new Writer(capacity)`. -/
def newWriter (capacity : ℕ) : Action Writer OerError Unit := do
  let buffer ← alloc capacity
  modify fun _ => Writer.ofBuffer buffer

/-- The bytes of a new writer when the program is done. -/
def getBuffer (x : Action Writer OerError Unit) : Except OerError Buffer :=
  match x.exec Writer.empty with
  | (.ok (), writer) => .ok writer.getBuffer
  | (.error e, _) => .error e

/-- `envelopeSize`. -/
def envelopeSize (contentSize : ℕ) : ℕ := 1 + Predictor.measureVarOctetString contentSize

/-- The envelope that each of the serializers writes. -/
def serializeEnvelope (type contentSize : ℕ) (content : Action Writer OerError Unit) :
    Except OerError Buffer :=
  getBuffer do
    newWriter (envelopeSize contentSize)
    Writer.writeUInt8 (.number type)
    Writer.createVarOctetString contentSize content

namespace IlpPrepare

/-- `expiresAt`, as it is written. -/
def time (json : IlpPrepare) : Buffer := Ascii.encode (dateToInterledgerTime json.expiresAt).toList

/-- `contentSize`. -/
def contentSize (json : IlpPrepare) : ℕ :=
  8 + interledgerTimeLength + 32 +
    Predictor.measureVarOctetString (Ascii.encode json.destination.toList).length +
    Predictor.measureVarOctetString json.data.length

/-- What is written to `content`. -/
def content (json : IlpPrepare) : Action Writer OerError Unit := do
  Writer.writeUInt (.string json.amount) 8
  Writer.write json.time
  Writer.write json.executionCondition
  Writer.writeVarOctetString (Ascii.encode json.destination.toList)
  Writer.writeVarOctetString json.data

end IlpPrepare

/-- `serializeIlpPrepare`. -/
def serializeIlpPrepare (json : IlpPrepare) : Except OerError Buffer :=
  if json.amount = "" then .error (.error "amount must be a string")
  else if json.executionCondition.length ≠ 32 then
    .error (.error "executionCondition must be a 32-byte buffer")
  else serializeEnvelope 12 json.contentSize json.content

namespace IlpFulfill

/-- `contentSize`. -/
def contentSize (json : IlpFulfill) : ℕ := 32 + Predictor.measureVarOctetString json.data.length

/-- What is written to `content`. -/
def content (json : IlpFulfill) : Action Writer OerError Unit := do
  Writer.write json.fulfillment
  Writer.writeVarOctetString json.data

end IlpFulfill

/-- `serializeIlpFulfill`. -/
def serializeIlpFulfill (json : IlpFulfill) : Except OerError Buffer :=
  if json.fulfillment.length ≠ 32 then .error (.error "fulfillment must be a 32-byte buffer")
  else serializeEnvelope 13 json.contentSize json.content

/-- `ILP_ERROR_CODE_LENGTH`. -/
def ilpErrorCodeLength : ℕ := 3

namespace IlpReject

/-- `contentSize`. -/
def contentSize (json : IlpReject) : ℕ :=
  ilpErrorCodeLength + Predictor.measureVarOctetString (Ascii.encode json.triggeredBy.toList).length +
    Predictor.measureVarOctetString (Utf8.encode json.message.toList).length +
    Predictor.measureVarOctetString json.data.length

/-- What is written to `content`. -/
def content (json : IlpReject) : Action Writer OerError Unit := do
  Writer.write (Ascii.encode json.code.toList)
  Writer.writeVarOctetString (Ascii.encode json.triggeredBy.toList)
  Writer.writeVarOctetString (Utf8.encode json.message.toList)
  Writer.writeVarOctetString json.data

end IlpReject

/-- `serializeIlpReject`. -/
def serializeIlpReject (json : IlpReject) : Except OerError Buffer :=
  if json.code = "" then .error (.error "code must be a string")
  else if (Ascii.encode json.code.toList).length ≠ ilpErrorCodeLength then
    .error (.error ("ILP error codes must be three bytes long, received: " ++ json.code))
  else serializeEnvelope 14 json.contentSize json.content

/-- `serializeIlpPacket`. -/
def serializeIlpPacket : Packet → Except OerError Buffer
  | .prepare data => serializeIlpPrepare data
  | .fulfill data => serializeIlpFulfill data
  | .reject data => serializeIlpReject data

/-! ### Deserialization -/

/-- What a new reader of some bytes returns. -/
def readFrom {α : Type} (x : Action Reader OerError α) (binary : Buffer) : Except OerError α :=
  (x.exec (Reader.ofBuffer binary)).1

/-- `deserializeEnvelope`. -/
def deserializeEnvelope (binary : Buffer) : Except OerError (ℕ × Buffer) :=
  readFrom (do return (← Reader.readUIntNumber 1, ← Reader.readVarOctetString)) binary

/-- The part that the deserializers share: the contents of an envelope of the type. -/
def deserializeContents {α : Type} (type : ℕ) (x : Action Reader OerError α) (binary : Buffer) :
    Except OerError α := do
  let (found, contents) ← deserializeEnvelope binary
  if found ≠ type then throw (.error "Packet has incorrect type")
  readFrom x contents

/-- The value of a function that may throw. -/
def ofExcept {α : Type} : Except OerError α → Action Reader OerError α
  | .ok a => pure a
  | .error e => throw e

/-- What `deserializeIlpPrepare` reads. -/
def readIlpPrepare : Action Reader OerError IlpPrepare := do
  let amount ← Reader.readUInt 8
  let time ← Reader.read interledgerTimeLength
  let expiresAt ← ofExcept (interledgerTimeToDate (String.ofList (Ascii.decode time)))
  let executionCondition ← Reader.read 32
  let address ← Reader.readVarOctetString
  let destination := String.ofList (Ascii.decode address)
  if !isValidIlpAddress destination then throw (.error "Packet has invalid destination address")
  else
    let data ← Reader.readVarOctetString
    return { amount, executionCondition, expiresAt, destination, data }

/-- `deserializeIlpPrepare`. -/
def deserializeIlpPrepare : Buffer → Except OerError IlpPrepare := deserializeContents 12 readIlpPrepare

/-- What `deserializeIlpFulfill` reads. -/
def readIlpFulfill : Action Reader OerError IlpFulfill := do
  let fulfillment ← Reader.read 32
  let data ← Reader.readVarOctetString
  return { fulfillment, data }

/-- `deserializeIlpFulfill`. -/
def deserializeIlpFulfill : Buffer → Except OerError IlpFulfill := deserializeContents 13 readIlpFulfill

/-- What `deserializeIlpReject` reads. -/
def readIlpReject : Action Reader OerError IlpReject := do
  let code ← Reader.read ilpErrorCodeLength
  let address ← Reader.readVarOctetString
  let triggeredBy := String.ofList (Ascii.decode address)
  if !isValidIlpAddress triggeredBy && triggeredBy ≠ "" then
    throw (.error "Invalid triggeredBy ILP address")
  else
    let message ← Reader.readVarOctetString
    let data ← Reader.readVarOctetString
    return { code := String.ofList (Ascii.decode code), triggeredBy
             message := String.ofList (Utf8.decode message), data }

/-- `deserializeIlpReject`. -/
def deserializeIlpReject : Buffer → Except OerError IlpReject := deserializeContents 14 readIlpReject

/-- `deserializeIlpPacket`. -/
def deserializeIlpPacket (binary : Buffer) : Except OerError Packet :=
  if binary[0]? = some 12 then .prepare <$> deserializeIlpPrepare binary
  else if binary[0]? = some 13 then .fulfill <$> deserializeIlpFulfill binary
  else if binary[0]? = some 14 then .reject <$> deserializeIlpReject binary
  else .error (.error "Packet has invalid type")

/-! ### What is asked -/

namespace Packet

/-- The deserializer for the type of a packet. -/
def deserialize : Packet → Buffer → Except OerError Packet
  | prepare _, binary => prepare <$> deserializeIlpPrepare binary
  | fulfill _, binary => fulfill <$> deserializeIlpFulfill binary
  | reject _, binary => reject <$> deserializeIlpReject binary

/-- The size of the contents, computed in advance. -/
def contentSize : Packet → ℕ
  | prepare data => data.contentSize
  | fulfill data => data.contentSize
  | reject data => data.contentSize

/-- What is written for the contents. -/
def content : Packet → Action Writer OerError Unit
  | prepare data => data.content
  | fulfill data => data.content
  | reject data => data.content

/-- The packets that pass the checks, with a code of three ASCII characters in a Reject. -/
def IsValid : Packet → Prop
  | prepare data => isPrepare data = true
  | fulfill data => isFulfill data = true
  | reject data => isReject data = true ∧ data.code.toList.length = 3 ∧ Ascii.IsAscii data.code.toList

/-- The sizes computed in advance are those of the envelope and of the contents written. -/
def SizesExact (packet : Packet) (binary : Buffer) : Prop :=
  binary.length = envelopeSize packet.contentSize ∧
    ∃ writer, packet.content.exec (Writer.ofBuffer (List.replicate packet.contentSize 0)) =
      (.ok (), writer) ∧ writer.length = packet.contentSize

/-- The packet is serialized to bytes of the sizes computed in advance, which both deserializers take
back to it. -/
def Survives (packet : Packet) (binary : Buffer) : Prop :=
  serializeIlpPacket packet = .ok binary ∧ deserializeIlpPacket binary = .ok packet ∧
    packet.deserialize binary = .ok packet ∧ packet.SizesExact binary

/-- Serialization throws, or the packet survives. -/
def RoundTrips (packet : Packet) : Prop :=
  (∃ e, serializeIlpPacket packet = .error e) ∨ ∃ binary, packet.Survives binary

/-- A Prepare that fits in a buffer does not expire in a year of up to three characters, nor at the
epoch. -/
def ExpiresWell : Packet → Prop
  | prepare data => kMaxLength < envelopeSize data.contentSize ∨ data.expiresAt.HasLongYear ∨
      data.expiresAt.HasFourCharacterYear ∧ data.expiresAt.time ≠ 0
  | _ => True

end Packet

/-! ### Envelopes -/

/-- The bytes of an envelope. -/
def envelope (type : ℕ) (contents : Buffer) : Buffer :=
  Bytes.toBytes 1 type ++ (Writer.lengthPrefix contents.length ++ contents)

theorem length_envelope (type : ℕ) (contents : Buffer) :
    (envelope type contents).length = envelopeSize contents.length := by
  rw [envelope, envelopeSize, measureVarOctetString_eq, List.length_append, List.length_append,
    Bytes.length_toBytes]

/-- An envelope that does not fit in a buffer is refused. -/
theorem serializeEnvelope_of_lt {type n : ℕ} {content : Action Writer OerError Unit}
    (h : kMaxLength < envelopeSize n) : serializeEnvelope type n content = .error .rangeError := by
  have h_alloc : (newWriter (envelopeSize n)).exec Writer.empty = (.error .rangeError, Writer.empty) := by
    rw [newWriter, alloc, if_pos h]
    rfl
  rw [serializeEnvelope, getBuffer, exec_bind_error h_alloc]

/-- An envelope that fits holds what was written for the contents, and zeros where that is less than
was computed in advance. -/
theorem serializeEnvelope_eq {type n : ℕ} {content : Action Writer OerError Unit} (h_type : type < 256)
    (h : envelopeSize n ≤ kMaxLength) :
    serializeEnvelope type n content =
      match content.exec (Writer.ofBuffer (List.replicate n 0)) with
      | (.ok (), writer) => .ok (Bytes.toBytes 1 type ++ (Writer.lengthPrefix n ++
          (writer.written ++ writer.rest)))
      | (.error e, _) => .error e := by
  -- the buffer is allocated with the size of the envelope
  have h_size : envelopeSize n = 1 + ((Writer.lengthPrefix n).length + n) := by
    rw [envelopeSize, measureVarOctetString_eq]
  have h_small : n < 2 ^ 53 := by
    unfold kMaxLength at h
    omega
  have h_alloc : (newWriter (envelopeSize n)).exec Writer.empty =
      (.ok (), Writer.ofBuffer (List.replicate (envelopeSize n) 0)) := by
    rw [newWriter, alloc, if_neg (not_lt.mpr h)]
    rfl
  -- the type
  obtain ⟨w, h_first, h_ext⟩ := (Writer.writes_write (Bytes.toBytes 1 type)).exec_of_hasRoom
    (s := Writer.ofBuffer (List.replicate (envelopeSize n) 0))
    (.inl (by rw [Bytes.length_toBytes, Writer.ofBuffer, List.length_replicate]; omega))
  have h_ext : Writer.Extends _ _ w := h_ext
  have h_rest : w.rest = List.replicate ((Writer.lengthPrefix n).length + n) 0 := by
    rw [h_ext.rest (by rw [Bytes.length_toBytes, Writer.ofBuffer, List.length_replicate]; omega),
      Bytes.length_toBytes, Writer.ofBuffer, List.drop_replicate, h_size, Nat.add_sub_cancel_left]
  -- the rest of it has room for the prefix and the contents
  have h_length : (Writer.lengthPrefix n).length + n ≤ w.rest.length := by
    rw [h_rest, List.length_replicate]
  have h_write : Writer.writeUInt8 (.number type) = Writer.write (Bytes.toBytes 1 type) :=
    Writer.writeUInt_number (by omega) le_rfl (by omega) (by omega)
  -- the contents
  rcases Writer.exec_createVarOctetString h_small content w with
    ⟨slice, w', -, h_exec, h_written, -, -, h_slice⟩ | ⟨h_full, -⟩
  · -- which are written into the last `n` bytes
    obtain ⟨rfl, -⟩ := h_slice h_length
    rw [h_rest, List.drop_replicate, Nat.add_sub_cancel_left, List.take_replicate, Nat.min_self]
      at h_exec h_written
    rw [serializeEnvelope, getBuffer, exec_bind_ok h_alloc, h_write, exec_bind_ok h_first, h_exec]
    cases h_content : content.exec (Writer.ofBuffer (List.replicate n 0)) with
    | mk result slice =>
      cases result with
      | ok u =>
        rw [h_content] at h_written
        change Except.ok w'.written = _
        rw [h_written, h_ext.written]
        change Except.ok ([] ++ Bytes.toBytes 1 type ++ _ ++ _) = _
        rw [List.nil_append, List.append_assoc]
      | error e => rfl
  · exact absurd (Or.inl h_length) h_full

/-- **A program that is run twice**, for the size and on a writer of that size, fails for want of a large
enough buffer only. -/
theorem getBuffer_of_emits {x : (σ : Type) → [WriterInterface σ] → Action σ OerError Unit} {bytes : Buffer}
    (h : Emits x bytes) :
    getBuffer (do
      let length ← predict (x Predictor)
      newWriter length
      x Writer) =
      if kMaxLength < bytes.length then .error .rangeError else .ok bytes := by
  rw [h.predict, pure_bind, getBuffer]
  by_cases h_size : kMaxLength < bytes.length
  · have h_alloc : (newWriter bytes.length).exec Writer.empty = (.error .rangeError, Writer.empty) := by
      rw [newWriter, alloc, if_pos h_size]
      rfl
    rw [if_pos h_size, exec_bind_error h_alloc]
  · have h_alloc : (newWriter bytes.length).exec Writer.empty =
        (.ok (), Writer.ofBuffer (List.replicate bytes.length 0)) := by
      rw [newWriter, alloc, if_neg h_size]
      rfl
    have h_room : Writer.HasRoom bytes.length (Writer.ofBuffer (List.replicate bytes.length 0)) := by
      refine .inl ?_
      rw [Writer.ofBuffer, List.length_replicate]
    obtain ⟨w, h_exec, h_ext⟩ := (h.writes (by unfold kMaxLength at h_size; omega)).exec_of_hasRoom h_room
    have h_ext : Writer.Extends _ _ w := h_ext
    rw [if_neg h_size, exec_bind_ok h_alloc, h_exec]
    exact congrArg Except.ok h_ext.written

/-- Contents of the size computed in advance. -/
theorem serializeEnvelope_of_writes (type : ℕ) {n : ℕ} {content : Action Writer OerError Unit}
    {bytes : Buffer} (h_type : type < 256) (h_size : envelopeSize n ≤ kMaxLength) (h : Writes content bytes)
    (h_le : bytes.length ≤ n) :
    (∃ writer, content.exec (Writer.ofBuffer (List.replicate n 0)) = (.ok (), writer) ∧
      writer.length = bytes.length) ∧
    serializeEnvelope type n content =
      .ok (envelope type (bytes ++ List.replicate (n - bytes.length) 0)) := by
  have h_length : (Writer.ofBuffer (List.replicate n 0)).rest.length = n := List.length_replicate
  obtain ⟨writer, h_exec, h_ext⟩ := h.exec_of_hasRoom (s := Writer.ofBuffer (List.replicate n 0))
    (.inl (by rw [h_length]; exact h_le))
  have h_ext : Writer.Extends _ _ writer := h_ext
  have h_written : writer.written = bytes := h_ext.written
  have h_rest : writer.rest = List.replicate (n - bytes.length) 0 := by
    rw [h_ext.rest (by rw [h_length]; exact h_le), Writer.ofBuffer, List.drop_replicate]
  refine ⟨⟨writer, h_exec, congrArg List.length h_written⟩, ?_⟩
  rw [serializeEnvelope_eq h_type h_size, h_exec]
  change Except.ok _ = Except.ok _
  rw [h_written, h_rest, envelope, List.length_append, List.length_replicate, Nat.add_sub_cancel' h_le]

/-- Contents that are longer are refused. -/
theorem serializeEnvelope_of_long {type n : ℕ} {content : Action Writer OerError Unit} {bytes : Buffer}
    (h_type : type < 256) (h : Writes content bytes) (h_lt : n < bytes.length) :
    ∃ e, serializeEnvelope type n content = .error e := by
  by_cases h_size : envelopeSize n ≤ kMaxLength
  · rw [serializeEnvelope_eq h_type h_size]
    rcases h (Writer.ofBuffer (List.replicate n 0)) with ⟨writer, h_exec, h_ext⟩ | ⟨-, e, writer, h_exec, -⟩
    · -- a strict writer cannot take more than its buffer
      have h_ext : Writer.Extends _ _ writer := h_ext
      have h_fits := h_ext.fits rfl
      rw [Writer.ofBuffer, List.length_replicate] at h_fits
      omega
    · rw [h_exec]
      exact ⟨e, rfl⟩
  · exact ⟨_, serializeEnvelope_of_lt (not_le.mp h_size)⟩

/-- A new reader is at its first byte. -/
theorem readFrom_of_reads {α : Type} {x : Action Reader OerError α} {bytes : Buffer} {a : α}
    (h : Reads x bytes a) (more : Buffer) : readFrom x (bytes ++ more) = .ok a := by
  have h_exec := h (Reader.ofBuffer (bytes ++ more)) more (Nat.zero_le _) rfl
  rw [readFrom, h_exec]

/-- **The contents of an envelope are read back**, whatever follows them. -/
theorem deserializeContents_envelope {α : Type} (type : ℕ) (x : Action Reader OerError α)
    (contents : Buffer) (h_type : type < 256) (h : contents.length < 2 ^ 48) (more : Buffer) :
    deserializeContents type x (envelope type contents ++ more) = readFrom x contents := by
  have h_reads : Reads (do return (← Reader.readUIntNumber 1, ← Reader.readVarOctetString))
      (envelope type contents) (type, contents) :=
    (Reader.reads_number (by omega) (by decide) (by omega)).bind
      ((Reader.reads_readVarOctetString h).map (Prod.mk type))
  have h_envelope : deserializeEnvelope (envelope type contents ++ more) = .ok (type, contents) :=
    readFrom_of_reads h_reads more
  rw [deserializeContents, h_envelope]
  change (if type ≠ type then _ else _) = _
  rw [if_neg (not_not.mpr rfl)]

/-- The first byte of an envelope. -/
theorem getElem?_envelope {type : ℕ} (contents more : Buffer) :
    (envelope type contents ++ more)[0]? = some (UInt8.ofNat type) := rfl

/-! ### Contents -/

/-- An amount that passes the check is the text of a 64-bit integer. -/
theorem exists_of_isUInt64 {o : String} (h : isUInt64 o = true) : ∃ n < 2 ^ 64, o = toString n := by
  obtain ⟨-, h_text⟩ := Bool.and_eq_true_iff.mp h
  exact ⟨_, (BitVec.ofInt 64 (decimalValue o.toList)).isLt, (of_decide_eq_true h_text).symm⟩

/-- The text of a 64-bit integer, as a value to write. -/
theorem accepted_toString {n : ℕ} (h : n < 2 ^ 64) :
    (LongValue.string (toString n)).Accepted true ∧ (LongValue.string (toString n)).toInt = n ∧
      (LongValue.string (toString n)).isNegative = false := by
  have h_text : (toString n).toList = Nat.toDigits 10 n := by
    rw [Nat.toString_eq_repr, Nat.toList_repr]
  have h_digits : ∀ c ∈ Nat.toDigits 10 n, c.isDigit = true := fun c hc =>
    Nat.isDigit_of_mem_toDigits (by omega) le_rfl hc
  have h_head : (Nat.toDigits 10 n).head? ≠ some '-' := fun h_minus =>
    absurd (h_digits '-' (List.mem_of_mem_head? h_minus)) (by decide)
  have h_unsigned : unsignedDigits (Nat.toDigits 10 n) = Nat.toDigits 10 n := by
    unfold unsignedDigits
    split
    · next digits h_cons => exact absurd (by rw [h_cons]; rfl) h_head
    · rfl
  have h_value : decimalValue (Nat.toDigits 10 n) = n := by
    rw [decimalValue, if_neg h_head, Nat.ofDigitChars_ten_toDigits]
  have h_integer : isIntegerText (Nat.toDigits 10 n) = true := by
    rw [isIntegerText, h_unsigned, Bool.and_eq_true_iff]
    exact ⟨decide_eq_true Nat.toDigits_ne_nil, List.all_eq_true.mpr h_digits⟩
  change (isIntegerText (toString n).toList = true ∧ -2 ^ 63 ≤ decimalValue (toString n).toList ∧
    decimalValue (toString n).toList < 2 ^ 64) ∧ decimalValue (toString n).toList = n ∧
    decide ((toString n).toList.head? = some '-') = false
  rw [h_text, h_value]
  exact ⟨⟨h_integer, by omega, by exact_mod_cast h⟩, rfl, decide_eq_false h_head⟩

/-- An amount is written in eight bytes, -/
theorem writes_amount {n : ℕ} (h : n < 2 ^ 64) :
    Writes (Writer.writeUInt (.string (toString n)) 8) (Bytes.toBytes 8 n) := by
  obtain ⟨h_accepted, h_value, h_sign⟩ := accepted_toString h
  have h_nat := Writer.toNat_ofInt_toInt h_accepted h_sign
  rcases Writer.writeUInt_long (k := 8) h_accepted (by decide) h_sign with ⟨-, h_write⟩ | ⟨h_not, -⟩
  · rw [h_value] at h_write h_nat
    rw [h_write, longToBuffer_eq le_rfl, Int.ofNat_inj.mp h_nat]
    exact Writer.writes_write _
  · refine absurd ?_ h_not
    rw [h_value]
    exact ⟨Int.natCast_nonneg n, by norm_num; omega⟩

/-- and read back from them. -/
theorem reads_amount {n : ℕ} (h : n < 2 ^ 64) :
    Reads (Reader.readUInt 8) (Bytes.toBytes 8 n) (toString n) := by
  have h_length := Bytes.length_toBytes 8 n
  have h_reads := (@Reader.reads_readUIntLong (Bytes.toBytes 8 n) (by omega) (by omega)).map
    fun l => toString l.toNat
  rw [Bytes.ofBytes_toBytes_of_lt (by omega), BitVec.toNat_ofNat, Nat.mod_eq_of_lt h, h_length] at h_reads
  rw [Reader.readUInt, if_neg (by decide)]
  exact h_reads

/-- A result that was made from another. -/
theorem eq_ok_of_map_eq_ok {ε α β : Type} {x : Except ε α} {f : α → β} {b : β}
    (h : f <$> x = .ok b) : ∃ a, x = .ok a ∧ f a = b := by
  cases x with
  | error e => cases h
  | ok a => exact ⟨a, rfl, Except.ok.inj h⟩

theorem eq_ok_of_bind_eq_ok {ε α β : Type} {x : Except ε α} {f : α → Except ε β} {b : β}
    (h : x >>= f = .ok b) : ∃ a, x = .ok a ∧ f a = .ok b := by
  cases x with
  | error e => cases h
  | ok a => exact ⟨a, rfl, h⟩

theorem ok_bind {ε α β : Type} (a : α) (f : α → Except ε β) : (Except.ok a >>= f) = f a := rfl

theorem ofExcept_ok {α : Type} {x : Except OerError α} {a : α} (h : x = .ok a) :
    ofExcept x = pure a := by
  rw [h]
  rfl

namespace IlpPrepare

variable {json : IlpPrepare}

/-- The contents of a Prepare. -/
def contents (n : ℕ) (json : IlpPrepare) : Buffer :=
  Bytes.toBytes 8 n ++ (json.time ++ (json.executionCondition ++
    (octets (Ascii.encode json.destination.toList) ++ octets json.data)))

theorem length_time : json.time.length = (dateToInterledgerTime json.expiresAt).toList.length :=
  Ascii.length_encode (isAscii_dateToInterledgerTime json.expiresAt)

/-- The contents are of the size computed in advance, but for the length of the time. -/
theorem length_contents {n : ℕ} (h : json.executionCondition.length = 32) :
    (json.contents n).length + interledgerTimeLength = json.contentSize + json.time.length := by
  unfold contents contentSize
  simp only [List.length_append, Bytes.length_toBytes, length_octets, h]
  omega

/-- **What is written.** -/
theorem writes_content {n : ℕ} (hn : n < 2 ^ 64) (h_amount : json.amount = toString n)
    (h_size : json.contentSize < 2 ^ 53) : Writes json.content (json.contents n) := by
  have h_destination := length_le_length_octets (Ascii.encode json.destination.toList)
  have h_data := length_le_length_octets json.data
  rw [length_octets] at h_destination h_data
  unfold contentSize at h_size
  rw [content, h_amount]
  exact (writes_amount hn).bind ((Writer.writes_write _).bind ((Writer.writes_write _).bind
    ((Writer.writes_writeVarOctetString (by omega)).bind (Writer.writes_writeVarOctetString (by omega)))))

/-- **What is read.** -/
theorem reads_contents {n : ℕ} (hn : n < 2 ^ 64) (h_amount : json.amount = toString n)
    (h_size : json.contentSize < 2 ^ 48) (h_condition : json.executionCondition.length = 32)
    (h_address : isValidIlpAddress json.destination = true)
    (h_year : json.expiresAt.HasFourCharacterYear) (h_time : json.expiresAt.time ≠ 0) :
    Reads readIlpPrepare (json.contents n) json := by
  have h_destination := length_le_length_octets (Ascii.encode json.destination.toList)
  have h_data := length_le_length_octets json.data
  rw [length_octets] at h_destination h_data
  unfold contentSize at h_size
  have h_seventeen : json.time.length = interledgerTimeLength :=
    length_time.trans (Date.length_eq_iff.mpr h_year)
  have h_expires : interledgerTimeToDate (String.ofList (Ascii.decode json.time)) = .ok json.expiresAt := by
    rw [time, Ascii.decode_encode (isAscii_dateToInterledgerTime _), String.ofList_toList,
      interledgerTimeToDate_dateToInterledgerTime h_year, if_neg h_time]
  have h_text : String.ofList (Ascii.decode (Ascii.encode json.destination.toList)) = json.destination := by
    rw [Ascii.decode_encode (isAscii_of_isValidIlpAddress h_address), String.ofList_toList]
  rw [readIlpPrepare, contents]
  apply (reads_amount hn).bind
  rw [← h_seventeen]
  apply (Reader.reads_read _).bind
  rw [ofExcept_ok h_expires, pure_bind, ← h_condition]
  apply (Reader.reads_read _).bind
  apply (Reader.reads_readVarOctetString (by omega)).bind
  simp only [h_text, h_address, Bool.not_true, Bool.false_eq_true, if_false]
  have h_last := (@Reader.reads_readVarOctetString json.data (by omega)).map fun data =>
    { amount := toString n, executionCondition := json.executionCondition, expiresAt := json.expiresAt,
      destination := json.destination, data : IlpPrepare }
  rw [← h_amount] at h_last ⊢
  exact h_last

end IlpPrepare

namespace IlpFulfill

variable {json : IlpFulfill}

/-- The contents of a Fulfill. -/
def contents (json : IlpFulfill) : Buffer := json.fulfillment ++ octets json.data

theorem length_contents (h : json.fulfillment.length = 32) : json.contents.length = json.contentSize := by
  rw [contents, contentSize, List.length_append, length_octets, h]

theorem writes_content (h_size : json.contentSize < 2 ^ 53) : Writes json.content json.contents := by
  have h_data := length_le_length_octets json.data
  rw [length_octets] at h_data
  unfold contentSize at h_size
  exact (Writer.writes_write _).bind (Writer.writes_writeVarOctetString (by omega))

theorem reads_contents (h_size : json.contentSize < 2 ^ 48) (h : json.fulfillment.length = 32) :
    Reads readIlpFulfill json.contents json := by
  have h_data := length_le_length_octets json.data
  rw [length_octets] at h_data
  unfold contentSize at h_size
  rw [readIlpFulfill, contents, ← h]
  exact (Reader.reads_read _).bind ((Reader.reads_readVarOctetString (by omega)).map _)

end IlpFulfill

namespace IlpReject

variable {json : IlpReject}

/-- The contents of a Reject. -/
def contents (json : IlpReject) : Buffer :=
  Ascii.encode json.code.toList ++ (octets (Ascii.encode json.triggeredBy.toList) ++
    (octets (Utf8.encode json.message.toList) ++ octets json.data))

theorem length_contents (h : (Ascii.encode json.code.toList).length = 3) :
    json.contents.length = json.contentSize := by
  unfold contents contentSize ilpErrorCodeLength
  simp only [List.length_append, length_octets, h]
  omega

theorem writes_content (h_size : json.contentSize < 2 ^ 53) : Writes json.content json.contents := by
  have h_address := length_le_length_octets (Ascii.encode json.triggeredBy.toList)
  have h_message := length_le_length_octets (Utf8.encode json.message.toList)
  have h_data := length_le_length_octets json.data
  rw [length_octets] at h_address h_message h_data
  unfold contentSize at h_size
  exact (Writer.writes_write _).bind ((Writer.writes_writeVarOctetString (by omega)).bind
    ((Writer.writes_writeVarOctetString (by omega)).bind (Writer.writes_writeVarOctetString (by omega))))

/-- An address or an empty text is an ASCII text. -/
theorem isAscii_triggeredBy (h : isReject json = true) : Ascii.IsAscii json.triggeredBy.toList := by
  rcases Bool.or_eq_true_iff.mp h with h_address | h_empty
  · exact isAscii_of_isValidIlpAddress h_address
  · rw [of_decide_eq_true h_empty]
    exact fun c hc => absurd hc List.not_mem_nil

theorem reads_contents (h_size : json.contentSize < 2 ^ 48) (h : isReject json = true)
    (h_code : Ascii.IsAscii json.code.toList) (h_length : (Ascii.encode json.code.toList).length = 3) :
    Reads readIlpReject json.contents json := by
  have h_address := length_le_length_octets (Ascii.encode json.triggeredBy.toList)
  have h_message := length_le_length_octets (Utf8.encode json.message.toList)
  have h_data := length_le_length_octets json.data
  rw [length_octets] at h_address h_message h_data
  unfold contentSize at h_size
  have h_text : String.ofList (Ascii.decode (Ascii.encode json.triggeredBy.toList)) = json.triggeredBy := by
    rw [Ascii.decode_encode (isAscii_triggeredBy h), String.ofList_toList]
  have h_check : (!isValidIlpAddress json.triggeredBy && decide (json.triggeredBy ≠ "")) = false := by
    rcases Bool.or_eq_true_iff.mp h with h_valid | h_empty
    · rw [h_valid]
      rfl
    · rw [decide_eq_false (not_not.mpr (of_decide_eq_true h_empty)), Bool.and_false]
  rw [readIlpReject, contents]
  unfold ilpErrorCodeLength
  rw [← h_length]
  apply (Reader.reads_read _).bind
  apply (Reader.reads_readVarOctetString (by omega)).bind
  simp only [h_text, h_check, Bool.false_eq_true, if_false]
  apply (Reader.reads_readVarOctetString (by omega)).bind
  have h_last := (@Reader.reads_readVarOctetString json.data (by omega)).map fun data =>
    { code := String.ofList (Ascii.decode (Ascii.encode json.code.toList)), triggeredBy := json.triggeredBy
      message := String.ofList (Utf8.decode (Utf8.encode json.message.toList)), data : IlpReject }
  rw [Ascii.decode_encode h_code, Utf8.decode_encode, String.ofList_toList, String.ofList_toList] at h_last ⊢
  exact h_last

end IlpReject

/-- A Prepare whose time is not that of a date is not read. -/
theorem deserializeIlpPrepare_of_invalid {n : ℕ} {time rest : Buffer} {e : OerError} (hn : n < 2 ^ 64)
    (h_time : time.length = interledgerTimeLength)
    (h : interledgerTimeToDate (String.ofList (Ascii.decode time)) = .error e)
    (h_length : (Bytes.toBytes 8 n ++ (time ++ rest)).length < 2 ^ 48) :
    deserializeIlpPrepare (envelope 12 (Bytes.toBytes 8 n ++ (time ++ rest))) = .error e := by
  have h_read : readFrom readIlpPrepare (Bytes.toBytes 8 n ++ (time ++ rest)) = .error e := by
    rw [readFrom, readIlpPrepare]
    have h_rest : Cursor.rest (Reader.ofBuffer (Bytes.toBytes 8 n ++ (time ++ rest))) =
        Bytes.toBytes 8 n ++ (time ++ rest) := rfl
    -- the amount is read, and then the time
    obtain ⟨h_exec, h_valid, h_rest⟩ := (reads_amount hn).exec_bind (Nat.zero_le _) h_rest
    rw [h_exec, ← h_time]
    obtain ⟨h_exec, -, -⟩ := (Reader.reads_read time).exec_bind h_valid h_rest
    rw [h_exec, h]
    rfl
  have h_contents := deserializeContents_envelope 12 readIlpPrepare _ (by decide) h_length []
  rw [List.append_nil] at h_contents
  exact h_contents.trans h_read

/-! ### Packets -/

/-- The first byte of a packet that is read is its type, and the deserializer for that type reads it. -/
theorem deserialize_of_deserializeIlpPacket {packet : Packet} {binary : Buffer}
    (h : deserializeIlpPacket binary = .ok packet) :
    binary[0]? = some (UInt8.ofNat packet.type) ∧ packet.deserialize binary = .ok packet := by
  unfold deserializeIlpPacket at h
  split_ifs at h with h_prepare h_fulfill h_reject
  · obtain ⟨p, h_read, rfl⟩ := eq_ok_of_map_eq_ok h
    exact ⟨h_prepare, congrArg (Packet.prepare <$> ·) h_read⟩
  · obtain ⟨p, h_read, rfl⟩ := eq_ok_of_map_eq_ok h
    exact ⟨h_fulfill, congrArg (Packet.fulfill <$> ·) h_read⟩
  · obtain ⟨p, h_read, rfl⟩ := eq_ok_of_map_eq_ok h
    exact ⟨h_reject, congrArg (Packet.reject <$> ·) h_read⟩

namespace Packet

variable {packet : Packet}

theorem type_lt (packet : Packet) : packet.type < 256 := by
  unfold type
  split <;> decide

/-- The type of a packet chooses its deserializer. -/
theorem deserializeIlpPacket_envelope (contents more : Buffer) :
    deserializeIlpPacket (envelope packet.type contents ++ more) =
      packet.deserialize (envelope packet.type contents ++ more) := by
  rw [deserializeIlpPacket, getElem?_envelope]
  cases packet <;> rfl

/-- A valid packet passes the assertions of its serializer. -/
theorem serializeIlpPacket_eq (h : packet.IsValid) :
    serializeIlpPacket packet = serializeEnvelope packet.type packet.contentSize packet.content := by
  cases packet with
  | prepare data =>
    -- the guards of each type of packet let a valid one through
    obtain ⟨h_rest, h_condition⟩ := Bool.and_eq_true_iff.mp h
    obtain ⟨n, -, h_amount⟩ := exists_of_isUInt64 (Bool.and_eq_true_iff.mp h_rest).1
    have h_text : data.amount ≠ "" := by
      rw [h_amount]
      exact Nat.repr_ne_empty
    rw [serializeIlpPacket, serializeIlpPrepare, if_neg h_text,
      if_neg (not_not.mpr (of_decide_eq_true h_condition))]
    rfl
  | fulfill data =>
    rw [serializeIlpPacket, serializeIlpFulfill, if_neg (not_not.mpr (of_decide_eq_true h))]
    rfl
  | reject data =>
    obtain ⟨-, h_three, h_ascii⟩ := h
    have h_text : data.code ≠ "" := by
      intro h_empty
      rw [h_empty] at h_three
      cases h_three
    have h_length : (Ascii.encode data.code.toList).length = ilpErrorCodeLength := by
      rw [Ascii.length_encode h_ascii, h_three]
      rfl
    rw [serializeIlpPacket, serializeIlpReject, if_neg h_text, if_neg (not_not.mpr h_length)]
    rfl

/-- Contents of the size computed in advance that are read back. -/
theorem survives_of_contents {bytes : Buffer} (h : packet.IsValid)
    (h_size : envelopeSize packet.contentSize ≤ kMaxLength) (h_writes : Writes packet.content bytes)
    (h_length : bytes.length = packet.contentSize)
    (h_read : packet.deserialize (envelope packet.type bytes) = .ok packet) :
    packet.Survives (envelope packet.type bytes) := by
  obtain ⟨⟨writer, h_exec, h_written⟩, h_serialize⟩ :=
    serializeEnvelope_of_writes packet.type packet.type_lt h_size h_writes h_length.le
  have h_same := @deserializeIlpPacket_envelope packet bytes []
  rw [List.append_nil] at h_same
  rw [h_length, Nat.sub_self, List.replicate_zero, List.append_nil] at h_serialize
  refine ⟨(serializeIlpPacket_eq h).trans h_serialize, h_same.trans h_read, h_read, ?_,
    writer, h_exec, h_written.trans h_length⟩
  rw [length_envelope, h_length]

/-- The contents of an envelope of the type are what is deserialized. -/
theorem deserializeContents_eq {α : Type} (type : ℕ) {x : Action Reader OerError α} {bytes : Buffer}
    {a : α} (h_type : type < 256) (h : bytes.length < 2 ^ 48) (h_reads : Reads x bytes a) :
    deserializeContents type x (envelope type bytes) = .ok a := by
  have h_contents := deserializeContents_envelope type x bytes h_type h []
  have h_read := readFrom_of_reads h_reads []
  rw [List.append_nil] at h_contents h_read
  exact h_contents.trans h_read

/-- Contents in an envelope that fits in a buffer are short enough for every length prefix. -/
theorem lt_of_envelopeSize_le {n : ℕ} (h : envelopeSize n ≤ kMaxLength) : n < 2 ^ 48 := by
  unfold envelopeSize Predictor.measureVarOctetString kMaxLength at h
  omega

/-- **Prepares.** -/
theorem survives_prepare {data : IlpPrepare} (h : (prepare data).IsValid)
    (h_size : envelopeSize data.contentSize ≤ kMaxLength) (h_year : data.expiresAt.HasFourCharacterYear)
    (h_time : data.expiresAt.time ≠ 0) : ∃ binary, (prepare data).Survives binary := by
  obtain ⟨h_rest, h_condition⟩ := Bool.and_eq_true_iff.mp h
  obtain ⟨h_uint, h_address⟩ := Bool.and_eq_true_iff.mp h_rest
  obtain ⟨n, hn, h_amount⟩ := exists_of_isUInt64 h_uint
  have h_condition := of_decide_eq_true h_condition
  have h_small := lt_of_envelopeSize_le h_size
  -- with a year of four characters the contents have the size that was computed
  have h_length : (data.contents n).length = data.contentSize := by
    have h_sum := data.length_contents (n := n) h_condition
    rw [IlpPrepare.length_time, Date.length_eq_iff.mpr h_year] at h_sum
    exact Nat.add_right_cancel h_sum
  refine ⟨_, survives_of_contents h h_size (IlpPrepare.writes_content hn h_amount (by omega)) h_length ?_⟩
  have h_read := deserializeContents_eq 12 (by omega) (by omega)
    (IlpPrepare.reads_contents hn h_amount h_small h_condition h_address h_year h_time)
  exact congrArg (prepare <$> ·) h_read

/-- **Fulfills.** -/
theorem survives_fulfill {data : IlpFulfill} (h : (fulfill data).IsValid)
    (h_size : envelopeSize data.contentSize ≤ kMaxLength) : ∃ binary, (fulfill data).Survives binary := by
  have h_small := lt_of_envelopeSize_le h_size
  have h_length := IlpFulfill.length_contents (of_decide_eq_true h)
  refine ⟨_, survives_of_contents h h_size (IlpFulfill.writes_content (by omega)) h_length ?_⟩
  have h_read := deserializeContents_eq 13 (by omega) (by omega)
    (IlpFulfill.reads_contents h_small (of_decide_eq_true h))
  exact congrArg (fulfill <$> ·) h_read

/-- A Fulfill that is serialized at all survives. -/
theorem survives_of_serializeIlpFulfill {data : IlpFulfill} {binary : Buffer}
    (h : serializeIlpFulfill data = .ok binary) : (fulfill data).Survives binary := by
  unfold serializeIlpFulfill at h
  split_ifs at h with h_fulfillment
  have h_valid : (fulfill data).IsValid := decide_eq_true (not_not.mp h_fulfillment)
  -- what was serialized did fit
  have h_size : envelopeSize data.contentSize ≤ kMaxLength := by
    by_contra h_large
    rw [serializeEnvelope_of_lt (not_le.mp h_large)] at h
    cases h
  obtain ⟨binary', h_survives⟩ := survives_fulfill h_valid h_size
  have h_serialize : serializeIlpPacket (fulfill data) = .ok binary :=
    (serializeIlpPacket_eq h_valid).trans h
  obtain rfl := Except.ok.inj (h_serialize.symm.trans h_survives.1)
  exact h_survives

/-- **Rejects.** -/
theorem survives_reject {data : IlpReject} (h : (reject data).IsValid)
    (h_size : envelopeSize data.contentSize ≤ kMaxLength) : ∃ binary, (reject data).Survives binary := by
  obtain ⟨h_reject, h_three, h_ascii⟩ := h
  have h_small := lt_of_envelopeSize_le h_size
  have h_code := (Ascii.length_encode h_ascii).trans h_three
  have h_length := IlpReject.length_contents h_code
  refine ⟨_, survives_of_contents ⟨h_reject, h_three, h_ascii⟩ h_size
    (IlpReject.writes_content (by omega)) h_length ?_⟩
  have h_read := deserializeContents_eq 14 (by omega) (by omega)
    (IlpReject.reads_contents h_small h_reject h_ascii h_code)
  exact congrArg (reject <$> ·) h_read

/-- A year of up to four characters is serialized, -/
theorem serializes_of_not_long {data : IlpPrepare} (h : (prepare data).IsValid)
    (h_size : envelopeSize data.contentSize ≤ kMaxLength) (h_long : ¬data.expiresAt.HasLongYear) :
    ∃ binary, serializeIlpPacket (prepare data) = .ok binary := by
  obtain ⟨h_rest, h_condition⟩ := Bool.and_eq_true_iff.mp h
  obtain ⟨n, hn, h_amount⟩ := exists_of_isUInt64 (Bool.and_eq_true_iff.mp h_rest).1
  have h_small := lt_of_envelopeSize_le h_size
  have h_sum := data.length_contents (n := n) (of_decide_eq_true h_condition)
  have h_le := Date.lt_length_iff.not.mpr h_long
  rw [← IlpPrepare.length_time] at h_le
  obtain ⟨-, h_serialize⟩ := serializeEnvelope_of_writes 12 (by omega) h_size
    (IlpPrepare.writes_content hn h_amount (by omega)) (by omega)
  exact ⟨_, (serializeIlpPacket_eq h).trans h_serialize⟩

/-- and a longer one does not fit in the contents. -/
theorem throws_of_long {data : IlpPrepare} (h : (prepare data).IsValid)
    (h_size : envelopeSize data.contentSize ≤ kMaxLength) (h_long : data.expiresAt.HasLongYear) :
    ∃ e, serializeIlpPacket (prepare data) = .error e := by
  obtain ⟨h_rest, h_condition⟩ := Bool.and_eq_true_iff.mp h
  obtain ⟨n, hn, h_amount⟩ := exists_of_isUInt64 (Bool.and_eq_true_iff.mp h_rest).1
  have h_small := lt_of_envelopeSize_le h_size
  have h_sum := data.length_contents (n := n) (of_decide_eq_true h_condition)
  have h_lt := Date.lt_length_iff.mpr h_long
  rw [← IlpPrepare.length_time] at h_lt
  rw [serializeIlpPacket_eq h]
  exact serializeEnvelope_of_long (type_lt _) (IlpPrepare.writes_content hn h_amount (by omega))
    (show data.contentSize < _ by omega)

/-- A year of up to three characters does not fill the contents. -/
theorem not_survives_of_short {data : IlpPrepare} {binary : Buffer} (h : (prepare data).IsValid)
    (h_size : envelopeSize data.contentSize ≤ kMaxLength) (h_long : ¬data.expiresAt.HasLongYear)
    (h_four : ¬data.expiresAt.HasFourCharacterYear) : ¬(prepare data).Survives binary := by
  rintro ⟨-, -, -, -, writer, h_exec, h_written⟩
  obtain ⟨h_rest, h_condition⟩ := Bool.and_eq_true_iff.mp h
  obtain ⟨n, hn, h_amount⟩ := exists_of_isUInt64 (Bool.and_eq_true_iff.mp h_rest).1
  have h_small := lt_of_envelopeSize_le h_size
  have h_writes := IlpPrepare.writes_content hn h_amount (by omega)
  have h_sum := data.length_contents (n := n) (of_decide_eq_true h_condition)
  have h_le := Date.lt_length_iff.not.mpr h_long
  have h_ne := Date.length_eq_iff.not.mpr h_four
  rw [← IlpPrepare.length_time] at h_le h_ne
  -- the writer stops before the end of the room
  obtain ⟨⟨writer', h_exec', h_written'⟩, -⟩ := serializeEnvelope_of_writes 12 (by omega) h_size
    h_writes (by omega)
  have h_same : (Except.ok (), writer) = (Except.ok (), writer') := h_exec.symm.trans h_exec'
  cases h_same
  change writer.length = data.contentSize at h_written
  omega

/-- A Prepare that expires at the epoch is not read. -/
theorem not_survives_of_epoch {data : IlpPrepare} {binary : Buffer} (h : (prepare data).IsValid)
    (h_size : envelopeSize data.contentSize ≤ kMaxLength) (h_four : data.expiresAt.HasFourCharacterYear)
    (h_time : data.expiresAt.time = 0) : ¬(prepare data).Survives binary := by
  rintro ⟨h_serialize, -, h_deserialize, -⟩
  obtain ⟨h_rest, h_condition⟩ := Bool.and_eq_true_iff.mp h
  obtain ⟨n, hn, h_amount⟩ := exists_of_isUInt64 (Bool.and_eq_true_iff.mp h_rest).1
  have h_small := lt_of_envelopeSize_le h_size
  have h_seventeen : data.time.length = interledgerTimeLength :=
    IlpPrepare.length_time.trans (Date.length_eq_iff.mpr h_four)
  have h_sum := data.length_contents (n := n) (of_decide_eq_true h_condition)
  have h_length : (data.contents n).length = data.contentSize := by omega
  obtain ⟨-, h_envelope⟩ := serializeEnvelope_of_writes 12 (by omega) h_size
    (IlpPrepare.writes_content hn h_amount (by omega)) h_length.le
  rw [h_length, Nat.sub_self, List.replicate_zero, List.append_nil] at h_envelope
  rw [serializeIlpPacket_eq h] at h_serialize
  obtain rfl := Except.ok.inj (h_serialize.symm.trans h_envelope)
  -- the time is taken for an invalid date
  have h_expires : interledgerTimeToDate (String.ofList (Ascii.decode data.time)) =
      .error (.error "invalid date") := by
    rw [IlpPrepare.time, Ascii.decode_encode (isAscii_dateToInterledgerTime _), String.ofList_toList,
      interledgerTimeToDate_dateToInterledgerTime h_four, if_pos h_time]
  have h_read : deserializeIlpPrepare (envelope 12 (data.contents n)) = .error (.error "invalid date") :=
    deserializeIlpPrepare_of_invalid hn h_seventeen h_expires
      (show (data.contents n).length < 2 ^ 48 by omega)
  have h_error : deserialize (prepare data) (envelope 12 (data.contents n)) =
      .error (.error "invalid date") := by
    rw [deserialize]
    exact congrArg (prepare <$> ·) h_read
  exact absurd (h_error.symm.trans h_deserialize) nofun

/-- What is serialized and does not survive. -/
theorem not_roundTrips {data : IlpPrepare} (h : (prepare data).IsValid)
    (h_size : envelopeSize data.contentSize ≤ kMaxLength) (h_long : ¬data.expiresAt.HasLongYear)
    (h_well : ¬(data.expiresAt.HasFourCharacterYear ∧ data.expiresAt.time ≠ 0)) :
    ¬(prepare data).RoundTrips := by
  rintro (⟨e, h_error⟩ | ⟨binary, h_survives⟩)
  · -- it is serialized, so that it would have to survive
    obtain ⟨binary, h_ok⟩ := serializes_of_not_long h h_size h_long
    rw [h_error] at h_ok
    cases h_ok
  · by_cases h_four : data.expiresAt.HasFourCharacterYear
    · -- the epoch is misread, and a short year leaves bytes over
      have h_time : data.expiresAt.time = 0 := not_not.mp fun h_ne => h_well ⟨h_four, h_ne⟩
      exact not_survives_of_epoch h h_size h_four h_time h_survives
    · exact not_survives_of_short h h_size h_long h_four h_survives

end Packet

/-- **The codec of ILP packets.** A valid packet survives, or is not serialized, exactly if it is no Prepare
that expires in a year of up to three characters or at the epoch. -/
theorem roundTrips_iff {packet : Packet} (h : packet.IsValid) :
    packet.RoundTrips ↔ packet.ExpiresWell := by
  by_cases h_size : envelopeSize packet.contentSize ≤ kMaxLength
  · cases packet with
    | prepare data =>
      by_cases h_long : data.expiresAt.HasLongYear
      · -- a long year overruns the room and throws
        exact iff_of_true (.inl (Packet.throws_of_long h h_size h_long)) (.inr (.inl h_long))
      by_cases h_well : data.expiresAt.HasFourCharacterYear ∧ data.expiresAt.time ≠ 0
      · exact iff_of_true (.inr (Packet.survives_prepare h h_size h_well.1 h_well.2)) (.inr (.inr h_well))
      · refine iff_of_false (Packet.not_roundTrips h h_size h_long h_well) ?_
        rintro (h_large | h_year | h_four)
        · exact absurd h_size (not_le.mpr h_large)
        · exact h_long h_year
        · exact h_well h_four
    | fulfill data => exact iff_of_true (.inr (Packet.survives_fulfill h h_size)) trivial
    | reject data => exact iff_of_true (.inr (Packet.survives_reject h h_size)) trivial
  · -- what does not fit in a buffer is refused
    have h_refused : packet.RoundTrips :=
      .inl ⟨_, (Packet.serializeIlpPacket_eq h).trans (serializeEnvelope_of_lt (not_le.mp h_size))⟩
    refine iff_of_true h_refused ?_
    cases packet with
    | prepare data => exact .inl (not_le.mp h_size)
    | fulfill data => trivial
    | reject data => trivial

/-- A Prepare of 29 February 2024 survives, one of the year 999 does not. -/
theorem roundTrips_iff_prepare :
    (Packet.prepare ⟨"100", List.replicate 32 7, ⟨1709209425123, by decide⟩, "g.alice", [1, 2]⟩).RoundTrips ∧
      ¬(Packet.prepare
        ⟨"100", List.replicate 32 7, ⟨-30641760000000, by decide⟩, "g.alice", [1, 2]⟩).RoundTrips := by
  constructor
  · have h_valid : (Packet.prepare
        ⟨"100", List.replicate 32 7, ⟨1709209425123, by decide⟩, "g.alice", [1, 2]⟩).IsValid :=
      (by decide +kernel : isPrepare _ = true)
    exact (roundTrips_iff h_valid).mpr (.inr (.inr (by decide +kernel)))
  · intro h_survives
    have h_valid : (Packet.prepare
        ⟨"100", List.replicate 32 7, ⟨-30641760000000, by decide⟩, "g.alice", [1, 2]⟩).IsValid :=
      (by decide +kernel : isPrepare _ = true)
    rcases (roundTrips_iff h_valid).mp h_survives with h_size | h_long | h_four
    · exact absurd h_size (by decide +kernel)
    · exact absurd h_long (by decide +kernel)
    · exact absurd h_four.1 (by decide +kernel)

/-- A Prepare that expires at the epoch is serialized, and not read. -/
theorem not_roundTrips_epoch : ∃ packet : Packet, packet.IsValid ∧ ¬packet.RoundTrips := by
  refine ⟨.prepare ⟨"100", List.replicate 32 7, ⟨0, by decide⟩, "g.alice", [1, 2]⟩,
    (by decide +kernel : isPrepare _ = true), ?_⟩
  exact Packet.not_roundTrips (by decide +kernel : isPrepare _ = true) (by decide +kernel)
    (by decide +kernel) (by decide +kernel)

end Interledger.IlpPacket
