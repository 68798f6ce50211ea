import Interledger.IlpPacket.Codec
import Interledger.Oer.Compound
import Interledger.Stream.Long

/-!
# The STREAM packet codec

`_serialize` and `_deserializeUnencrypted` of `ilp-protocol-stream/src/packet.ts`. One writer goes
through the properties of a frame in the order of its constructor and looks at the type of each; every
frame has a reader of its own. A packet is written twice, to a `Predictor` for its size and to a `Writer`
of that size, and so are the contents of each frame.

A `Long` field is an unsigned `Long` of 64 bits and a code is a byte, so that `longFromValue` in the
constructors returns its argument.

## Main results

* `Packet.emits` — the bytes of a packet, which both passes agree on;
* `Packet.codec` — what is written is as long as `byteLength` says, and is read back with unknown frames
  between its own and anything behind them.
-/

namespace Interledger.Stream

open Interledger.Ilp (Buffer)
open Interledger.Oer Interledger.Action
open IlpPacket (readFrom getBuffer newWriter envelope getBuffer_of_emits)

/-- `VERSION`. -/
def version : Long := 1

/-- `ENCRYPTION_OVERHEAD`. -/
def encryptionOverhead : ℕ := 28

/-- The value of `IlpPacket.Type`. -/
def IlpPacketType.code : IlpPacketType → UInt8
  | prepare => 12
  | fulfill => 13
  | reject => 14
  | other type => type

/-- The type that a value stands for. -/
def IlpPacketType.ofCode (code : UInt8) : IlpPacketType :=
  if code = 12 then prepare
  else if code = 13 then fulfill
  else if code = 14 then reject
  else other code

theorem IlpPacketType.code_ofCode (code : UInt8) : (ofCode code).code = code := by
  unfold ofCode
  split_ifs with h_prepare h_fulfill h_reject
  · exact h_prepare.symm
  · exact h_fulfill.symm
  · exact h_reject.symm
  · rfl

/-! ### Writing -/

/-- What `writeContentsTo` tells apart by `typeof`, `Buffer.isBuffer` and `Long.isLong`. -/
inductive Property
  | number (value : UInt8)
  | string (value : String)
  | buffer (value : Buffer)
  | long (value : Long)

namespace Frame

/-- `type`, a `FrameType`. -/
def type : Frame → UInt8
  | connectionClose .. => 0x01
  | connectionNewAddress .. => 0x02
  | connectionMaxData .. => 0x03
  | connectionDataBlocked .. => 0x04
  | connectionMaxStreamId .. => 0x05
  | connectionStreamIdBlocked .. => 0x06
  | connectionAssetDetails .. => 0x07
  | streamClose .. => 0x10
  | streamMoney .. => 0x11
  | streamMaxMoney .. => 0x12
  | streamMoneyBlocked .. => 0x13
  | streamData .. => 0x14
  | streamMaxData .. => 0x15
  | streamDataBlocked .. => 0x16
  | streamReceipt .. => 0x17

/-- `Object.getOwnPropertyNames` without `type` and `name`: the properties in the order that the
constructor sets them in. -/
def properties : Frame → List Property
  | connectionClose errorCode errorMessage => [.number errorCode, .string errorMessage]
  | connectionNewAddress sourceAccount => [.string sourceAccount]
  | connectionAssetDetails sourceAssetCode sourceAssetScale =>
    [.string sourceAssetCode, .number sourceAssetScale]
  | connectionMaxData maxOffset => [.long maxOffset]
  | connectionDataBlocked maxOffset => [.long maxOffset]
  | connectionMaxStreamId maxStreamId => [.long maxStreamId]
  | connectionStreamIdBlocked maxStreamId => [.long maxStreamId]
  | streamClose streamId errorCode errorMessage =>
    [.long streamId, .number errorCode, .string errorMessage]
  | streamMoney streamId shares => [.long streamId, .long shares]
  | streamMaxMoney streamId receiveMax totalReceived =>
    [.long streamId, .long receiveMax, .long totalReceived]
  | streamMoneyBlocked streamId sendMax totalSent => [.long streamId, .long sendMax, .long totalSent]
  | streamData streamId offset data => [.long streamId, .long offset, .buffer data]
  | streamMaxData streamId maxOffset => [.long streamId, .long maxOffset]
  | streamDataBlocked streamId maxOffset => [.long streamId, .long maxOffset]
  | streamReceipt streamId receipt => [.long streamId, .buffer receipt]

end Frame

section Write

variable {σ : Type} [WriterInterface σ]

/-- The body of the loop in `writeContentsTo`. -/
def Property.writeTo : Property → Action σ OerError Unit
  | number value => WriterInterface.writeUInt8 (.number value.toNat)
  | string value => WriterInterface.writeVarOctetString (Utf8.encode value.toList)
  | buffer value => WriterInterface.writeVarOctetString value
  | long value => WriterInterface.writeVarUInt (.value (.long true value))

/-- `writeContentsTo`. -/
def Frame.writeContentsTo (frame : Frame) : Action σ OerError Unit :=
  Action.forEach Property.writeTo frame.properties

/-- `writeTo` of a frame. -/
def Frame.writeTo (frame : Frame) : Action σ OerError Unit := do
  let length ← predict frame.writeContentsTo
  WriterInterface.writeUInt8 (.number frame.type.toNat)
  WriterInterface.createVarOctetString length frame.writeContentsTo

/-- `writeTo` of a packet. -/
def Packet.writeTo (packet : Packet) : Action σ OerError Unit := do
  WriterInterface.writeUInt8 (.long true version)
  WriterInterface.writeUInt8 (.number packet.ilpPacketType.code.toNat)
  WriterInterface.writeVarUInt (.value (.long true packet.sequence))
  WriterInterface.writeVarUInt (.value (.long true packet.prepareAmount))
  WriterInterface.writeVarUInt (.value (.number packet.frames.length))
  Action.forEach Frame.writeTo packet.frames

end Write

/-- `_serialize`. -/
def Packet.serialize (packet : Packet) : Except OerError Buffer :=
  getBuffer do
    let length ← predict packet.writeTo
    newWriter length
    packet.writeTo

/-- `getSize` of a new predictor that a program was run on. -/
def getSize (x : Action Predictor OerError Unit) : Except OerError ℕ :=
  match x.exec Predictor.empty with
  | (.ok (), predictor) => .ok predictor.size
  | (.error e, _) => .error e

/-- `byteLength` of a frame. -/
def Frame.byteLength (frame : Frame) : Except OerError ℕ := getSize frame.writeTo

/-- `byteLength` of a packet. -/
def Packet.byteLength (packet : Packet) : Except OerError ℕ :=
  (· + encryptionOverhead) <$> getSize packet.writeTo

/-! ### Reading -/

/-- `saturatingReadVarUInt`. -/
def saturatingReadVarUInt : Action Reader OerError Long := do
  if (← Reader.peekVarOctetString).length > 8 then
    Reader.skipVarOctetString
    return Long.maxUnsignedValue
  else Reader.readVarUIntLong

/-- `readUInt8Number`. -/
def readByte : Action Reader OerError UInt8 := do return UInt8.ofNat (← Reader.readUIntNumber 1)

/-- The readers of frames with one `Long`. -/
def readLong (frame : Long → Frame) : Action Reader OerError Frame := do
  return frame (← Reader.readVarUIntLong)

/-- The readers of frames with the id of a stream and one more `Long`. -/
def readStreamLong (frame : Long → Long → Frame) : Action Reader OerError Frame := do
  let streamId ← Reader.readVarUIntLong
  return frame streamId (← Reader.readVarUIntLong)

/-- The readers of frames with the limit of a stream, which saturates, and a total. -/
def readStreamLimit (frame : Long → Long → Long → Frame) : Action Reader OerError Frame := do
  let streamId ← Reader.readVarUIntLong
  let max ← saturatingReadVarUInt
  return frame streamId max (← Reader.readVarUIntLong)

/-! `fromContents` of each frame. -/

def ConnectionCloseFrame.fromContents : Action Reader OerError Frame := do
  let errorCode ← readByte
  return .connectionClose errorCode (← readUtf8)

def ConnectionNewAddressFrame.fromContents : Action Reader OerError Frame := do
  return .connectionNewAddress (← readUtf8)

def ConnectionAssetDetailsFrame.fromContents : Action Reader OerError Frame := do
  let sourceAssetCode ← readUtf8
  return .connectionAssetDetails sourceAssetCode (← readByte)

def ConnectionMaxDataFrame.fromContents : Action Reader OerError Frame := readLong .connectionMaxData

def ConnectionDataBlockedFrame.fromContents : Action Reader OerError Frame :=
  readLong .connectionDataBlocked

def ConnectionMaxStreamIdFrame.fromContents : Action Reader OerError Frame :=
  readLong .connectionMaxStreamId

def ConnectionStreamIdBlockedFrame.fromContents : Action Reader OerError Frame :=
  readLong .connectionStreamIdBlocked

def StreamCloseFrame.fromContents : Action Reader OerError Frame := do
  let streamId ← Reader.readVarUIntLong
  let errorCode ← readByte
  return .streamClose streamId errorCode (← readUtf8)

def StreamMoneyFrame.fromContents : Action Reader OerError Frame := readStreamLong .streamMoney

def StreamMaxMoneyFrame.fromContents : Action Reader OerError Frame := readStreamLimit .streamMaxMoney

def StreamMoneyBlockedFrame.fromContents : Action Reader OerError Frame :=
  readStreamLimit .streamMoneyBlocked

def StreamDataFrame.fromContents : Action Reader OerError Frame := do
  let streamId ← Reader.readVarUIntLong
  let offset ← Reader.readVarUIntLong
  return .streamData streamId offset (← Reader.readVarOctetString)

def StreamMaxDataFrame.fromContents : Action Reader OerError Frame := readStreamLong .streamMaxData

def StreamDataBlockedFrame.fromContents : Action Reader OerError Frame :=
  readStreamLong .streamDataBlocked

def StreamReceiptFrame.fromContents : Action Reader OerError Frame := do
  let streamId ← Reader.readVarUIntLong
  return .streamReceipt streamId (← Reader.readVarOctetString)

/-- The cases of the switch in `parseFrame`. -/
def fromContents : UInt8 → Option (Action Reader OerError Frame)
  | 0x01 => some ConnectionCloseFrame.fromContents
  | 0x02 => some ConnectionNewAddressFrame.fromContents
  | 0x07 => some ConnectionAssetDetailsFrame.fromContents
  | 0x03 => some ConnectionMaxDataFrame.fromContents
  | 0x04 => some ConnectionDataBlockedFrame.fromContents
  | 0x05 => some ConnectionMaxStreamIdFrame.fromContents
  | 0x06 => some ConnectionStreamIdBlockedFrame.fromContents
  | 0x10 => some StreamCloseFrame.fromContents
  | 0x11 => some StreamMoneyFrame.fromContents
  | 0x12 => some StreamMaxMoneyFrame.fromContents
  | 0x13 => some StreamMoneyBlockedFrame.fromContents
  | 0x14 => some StreamDataFrame.fromContents
  | 0x15 => some StreamMaxDataFrame.fromContents
  | 0x16 => some StreamDataBlockedFrame.fromContents
  | 0x17 => some StreamReceiptFrame.fromContents
  | _ => none

/-- `parseFrame`. -/
def parseFrame : Action Reader OerError (Option Frame) := do
  let type ← readByte
  let contents ← Reader.readVarOctetString
  match fromContents type with
  | some x => return some (← IlpPacket.ofExcept (readFrom x contents))
  | none => return none

/-- What `_deserializeUnencrypted` reads. -/
def Packet.readUnencrypted : Action Reader OerError Packet := do
  let found ← Reader.readUIntLong 1
  if found ≠ version then throw (.error ("Unsupported protocol version: " ++ toString found.toNat))
  else
    let ilpPacketType ← readByte
    let sequence ← Reader.readVarUIntLong
    let packetAmount ← Reader.readVarUIntLong
    let numFrames ← Reader.readVarUIntNumber
    let frames ← Action.readMany parseFrame numFrames
    return { sequence, ilpPacketType := .ofCode ilpPacketType, prepareAmount := packetAmount
             frames := frames.reduceOption }

/-- `_deserializeUnencrypted`. -/
def Packet.deserializeUnencrypted : Buffer → Except OerError Packet := readFrom readUnencrypted

example : (Packet.serialize ⟨3, .prepare, 5, [.streamMoney 1 1]⟩).bind Packet.deserializeUnencrypted =
    .ok ⟨3, .prepare, 5, [.streamMoney 1 1]⟩ := by decide +kernel

/-! ### The bytes of a packet -/

/-- The bytes of a property. -/
def Property.bytes : Property → Buffer
  | number value => Bytes.toBytes 1 value.toNat
  | string value => octets (Utf8.encode value.toList)
  | buffer value => octets value
  | long value => varLong value

/-- The contents of a frame. -/
def Frame.contents (frame : Frame) : Buffer := frame.properties.flatMap Property.bytes

/-- The bytes of a frame. -/
def Frame.bytes (frame : Frame) : Buffer := envelope frame.type.toNat frame.contents

/-- What stands among the frames of a packet that is read: a frame that is known, or one of a type that
is not. -/
inductive Item
  | frame (frame : Frame)
  | unknown (type : UInt8) (lengthPrefix contents : Buffer)

namespace Item

/-- The bytes of an item. -/
def bytes : Item → Buffer
  | frame f => f.bytes
  | unknown type lengthPrefix contents => type :: (lengthPrefix ++ contents)

/-- The frame of an item, if it is known. -/
def frame? : Item → Option Frame
  | frame f => some f
  | unknown .. => none

/-- A frame of unknown type has another type than the known ones and a valid length prefix. -/
def IsWellFormed : Item → Prop
  | frame _ => True
  | unknown type lengthPrefix contents =>
    fromContents type = none ∧ Reader.IsLengthPrefix lengthPrefix contents.length

end Item

namespace Packet

/-- The bytes of a packet with these items instead of its frames. -/
def bytesWith (packet : Packet) (items : List Item) : Buffer :=
  Bytes.toBytes 1 version.toNat ++ (Bytes.toBytes 1 packet.ilpPacketType.code.toNat ++
    (varLong packet.sequence ++ (varLong packet.prepareAmount ++
      (varNumber items.length ++ items.flatMap Item.bytes))))

/-- The bytes of a packet. -/
def bytes (packet : Packet) : Buffer := packet.bytesWith (packet.frames.map .frame)

/-- The items are the frames of the packet, in their order, with well-formed ones in between. -/
structure Interleaves (packet : Packet) (items : List Item) : Prop where
  frames : items.filterMap Item.frame? = packet.frames
  wellFormed : ∀ item ∈ items, item.IsWellFormed

/-- What is read has the fields of the packet. -/
def IsReadFrom (packet : Packet) (buffer : Buffer) : Prop :=
  ∃ found, deserializeUnencrypted buffer = .ok found ∧ found.sequence = packet.sequence ∧
    found.ilpPacketType.code = packet.ilpPacketType.code ∧
    found.prepareAmount = packet.prepareAmount ∧ found.frames = packet.frames

end Packet

/-- A frame is written as just the bytes that it counts. -/
def Frame.IsMeasured (frame : Frame) : Prop :=
  frame.byteLength = .ok frame.bytes.length ∧
    (frame.bytes.length ≤ kMaxLength → Writes (frame.writeTo : Action Writer OerError Unit) frame.bytes)

/-! ### What is written -/

theorem Property.emits (property : Property) : Emits (fun _ _ => property.writeTo) property.bytes := by
  cases property with
  | number value =>
    have h_lt : value.toNat < 256 := value.toNat_lt
    have h_accepted : (LongValue.number value.toNat).Accepted true := by
      change (value.toNat : ℤ).natAbs < 2 ^ 53
      omega
    exact Emits.writeUInt8 h_accepted (Int.natCast_nonneg _) (by change (value.toNat : ℤ) < 256; omega)
  | string value => exact Emits.writeVarOctetString _
  | buffer value => exact Emits.writeVarOctetString _
  | long value => exact Emits.writeVarUInt_long value

theorem Frame.emits_contents (frame : Frame) :
    Emits (fun _ _ => frame.writeContentsTo) frame.contents :=
  Emits.forEach fun property _ => property.emits

/-- **Frames.** -/
theorem Frame.emits (frame : Frame) : Emits (fun _ _ => frame.writeTo) frame.bytes := by
  have h_eq : (fun (σ : Type) (_ : WriterInterface σ) => (frame.writeTo : Action σ OerError Unit)) =
      fun (σ : Type) (_ : WriterInterface σ) => Property.writeTo (.number frame.type) >>= fun _ =>
        WriterInterface.createVarOctetString frame.contents.length frame.writeContentsTo := by
    funext σ _
    rw [writeTo, frame.emits_contents.predict, pure_bind]
    rfl
  rw [h_eq]
  exact (Property.number frame.type).emits.bind frame.emits_contents.createVarOctetString

/-- An item takes a byte at least. -/
theorem Item.length_le_flatMap (items : List Item) : items.length ≤ (items.flatMap bytes).length := by
  have h_pos (item : Item) : 1 ≤ item.bytes.length := by
    cases item with
    | frame f =>
      rw [bytes, Frame.bytes, IlpPacket.length_envelope, IlpPacket.envelopeSize]
      exact Nat.le_add_right _ _
    | unknown type lengthPrefix contents => exact Nat.succ_pos _
  exact Oer.length_le_flatMap fun item _ => h_pos item

/-- **Packets.** -/
theorem Packet.emits (packet : Packet) : Emits (fun _ _ => packet.writeTo) packet.bytes := by
  have h_frames : Emits (fun _ _ => Action.forEach Frame.writeTo packet.frames)
      (packet.frames.flatMap Frame.bytes) := Emits.forEach fun frame _ => frame.emits
  have h_items : (packet.frames.map Item.frame).flatMap Item.bytes = packet.frames.flatMap Frame.bytes :=
    List.flatMap_map ..
  -- every frame has at least a byte, so that their number is a safe integer
  have h_le := Item.length_le_flatMap (packet.frames.map .frame)
  rw [h_items, List.length_map] at h_le
  have h_version : Emits (fun _ _ => WriterInterface.writeUInt8 (.long true version))
      (Bytes.toBytes 1 version.toNat) := Emits.writeUInt8 rfl (by decide) (by decide)
  have h_all := h_version.bind ((Property.number packet.ilpPacketType.code).emits.bind
    ((Emits.writeVarUInt_long packet.sequence).bind ((Emits.writeVarUInt_long packet.prepareAmount).bind
      (h_frames.writeVarUInt_number h_le))))
  rw [bytes, bytesWith, h_items, List.length_map]
  exact h_all

/-- The size of what a program emits. -/
theorem getSize_eq {x : (σ : Type) → [WriterInterface σ] → Action σ OerError Unit} {bytes : Buffer}
    (h : Emits x bytes) : getSize (x Predictor) = .ok bytes.length := by
  rw [getSize, h.counts]
  change Except.ok (0 + bytes.length) = _
  rw [Nat.zero_add]

theorem Frame.isMeasured (frame : Frame) : frame.IsMeasured :=
  ⟨getSize_eq frame.emits, fun h => frame.emits.writes (by unfold kMaxLength at h; omega)⟩

theorem Packet.byteLength_eq (packet : Packet) :
    packet.byteLength = .ok (packet.bytes.length + encryptionOverhead) := by
  rw [byteLength, getSize_eq packet.emits]
  rfl

/-- **Serialization** fails for want of a large enough buffer only. -/
theorem Packet.serialize_eq (packet : Packet) :
    packet.serialize =
      if kMaxLength < packet.bytes.length then .error .rangeError else .ok packet.bytes :=
  getBuffer_of_emits packet.emits

/-! ### What is read back -/

theorem reads_byte (value : UInt8) : Reads readByte (Property.number value).bytes value := by
  have h_lt : value.toNat < 256 ^ 1 := value.toNat_lt
  have h_reads := (Reader.reads_number le_rfl (by decide) h_lt).map UInt8.ofNat
  rwa [UInt8.ofNat_toNat] at h_reads

/-- A `Long` does not saturate. -/
theorem reads_saturatingReadVarUInt (value : Long) :
    Reads saturatingReadVarUInt (varLong value) value := by
  have h_count := byteCount_le value
  have h_length := Bytes.length_toBytes (byteCount value.toNat) value.toNat
  have h_octets := @Reader.reads_readVarOctetString (Bytes.toBytes (byteCount value.toNat) value.toNat)
    (by omega)
  rw [h_length] at h_octets
  apply (Reader.peeks_peeking h_octets).bind_reads
  rw [if_neg (by omega)]
  exact reads_varLong value

/-- The part of a property in the contents of its frame. -/
theorem Frame.length_property_le {frame : Frame} {property : Property}
    (h : property ∈ frame.properties) : property.bytes.length ≤ frame.contents.length := by
  exact length_le_of_mem Property.bytes h

/-- **Each reader reads what the one writer wrote.** -/
theorem Frame.reads_contents (frame : Frame) (h : frame.contents.length < 2 ^ 48) :
    ∃ x, fromContents frame.type = some x ∧ Reads x frame.contents frame := by
  have h_text (value : String) (h_mem : Property.string value ∈ frame.properties) :
      Reads readUtf8 (Property.string value).bytes value :=
    reads_utf8 ((length_property_le h_mem).trans_lt h)
  have h_buffer (value : Buffer) (h_mem : Property.buffer value ∈ frame.properties) :
      Reads Reader.readVarOctetString (Property.buffer value).bytes value :=
    reads_octets ((length_property_le h_mem).trans_lt h)
  have h_long := reads_varLong
  -- one case for each type of frame: its properties in the order in which they were written
  cases frame with
  | connectionClose errorCode errorMessage =>
    have h_message := h_text errorMessage (List.mem_cons_of_mem _ List.mem_cons_self)
    exact ⟨_, rfl, (reads_byte errorCode).bind (h_message.bind (.pure _))⟩
  | connectionNewAddress sourceAccount =>
    exact ⟨_, rfl, (h_text sourceAccount List.mem_cons_self).bind (.pure _)⟩
  | connectionAssetDetails sourceAssetCode sourceAssetScale =>
    have h_code := h_text sourceAssetCode List.mem_cons_self
    exact ⟨_, rfl, h_code.bind ((reads_byte sourceAssetScale).bind (.pure _))⟩
  | connectionMaxData maxOffset => exact ⟨_, rfl, (h_long maxOffset).bind (.pure _)⟩
  | connectionDataBlocked maxOffset => exact ⟨_, rfl, (h_long maxOffset).bind (.pure _)⟩
  | connectionMaxStreamId maxStreamId => exact ⟨_, rfl, (h_long maxStreamId).bind (.pure _)⟩
  | connectionStreamIdBlocked maxStreamId => exact ⟨_, rfl, (h_long maxStreamId).bind (.pure _)⟩
  | streamClose streamId errorCode errorMessage =>
    have h_message := h_text errorMessage
      (List.mem_cons_of_mem _ (List.mem_cons_of_mem _ List.mem_cons_self))
    exact ⟨_, rfl, (h_long streamId).bind ((reads_byte errorCode).bind (h_message.bind (.pure _)))⟩
  | streamMoney streamId shares => exact ⟨_, rfl, (h_long streamId).bind ((h_long shares).bind (.pure _))⟩
  | streamMaxMoney streamId receiveMax totalReceived =>
    exact ⟨_, rfl, (h_long streamId).bind ((reads_saturatingReadVarUInt receiveMax).bind
      ((h_long totalReceived).bind (.pure _)))⟩
  | streamMoneyBlocked streamId sendMax totalSent =>
    exact ⟨_, rfl, (h_long streamId).bind ((reads_saturatingReadVarUInt sendMax).bind
      ((h_long totalSent).bind (.pure _)))⟩
  | streamData streamId offset data =>
    have h_data := h_buffer data (List.mem_cons_of_mem _ (List.mem_cons_of_mem _ List.mem_cons_self))
    exact ⟨_, rfl, (h_long streamId).bind ((h_long offset).bind (h_data.bind (.pure _)))⟩
  | streamMaxData streamId maxOffset =>
    exact ⟨_, rfl, (h_long streamId).bind ((h_long maxOffset).bind (.pure _))⟩
  | streamDataBlocked streamId maxOffset =>
    exact ⟨_, rfl, (h_long streamId).bind ((h_long maxOffset).bind (.pure _))⟩
  | streamReceipt streamId receipt =>
    have h_receipt := h_buffer receipt (List.mem_cons_of_mem _ List.mem_cons_self)
    exact ⟨_, rfl, (h_long streamId).bind (h_receipt.bind (.pure _))⟩

/-- **An item is read** as its frame, if it is known. -/
theorem Item.reads (item : Item) (h : item.IsWellFormed) (h_length : item.bytes.length < 2 ^ 48) :
    Reads parseFrame item.bytes item.frame? := by
  cases item with
  | frame f =>
    -- a known frame is as long as its contents say
    have h_bytes : f.contents.length < 2 ^ 48 := by
      rw [bytes, Frame.bytes, envelope, List.length_append, List.length_append] at h_length
      omega
    obtain ⟨x, h_from, h_reads⟩ := f.reads_contents h_bytes
    have h_contents := IlpPacket.readFrom_of_reads h_reads []
    rw [List.append_nil] at h_contents
    rw [bytes, Frame.bytes, envelope, ← List.append_nil (Writer.lengthPrefix _ ++ f.contents)]
    apply (reads_byte f.type).bind
    apply (Reader.reads_readVarOctetString h_bytes).bind
    rw [h_from]
    change Reads (IlpPacket.ofExcept (readFrom x f.contents) >>= fun frame => Pure.pure (some frame)) [] _
    rw [h_contents]
    exact .pure _
  | unknown type lengthPrefix contents =>
    -- the contents of an unknown frame are skipped over
    obtain ⟨h_from, h_length⟩ := h
    have h_octets := Reader.reads_readVarOctetString_of_prefix h_length
    have h_type : type :: (lengthPrefix ++ contents) =
        (Property.number type).bytes ++ ((lengthPrefix ++ contents) ++ []) := by
      rw [Property.bytes, Bytes.toBytes_one, UInt8.ofNat_toNat, List.append_nil]
      rfl
    rw [bytes, h_type]
    apply (reads_byte type).bind
    apply h_octets.bind
    rw [h_from]
    exact .pure _

/-- **A packet is read back**, whatever follows it. -/
theorem Packet.isReadFrom {packet : Packet} {items : List Item} (h : packet.Interleaves items)
    (padding : Buffer) (h_size : (packet.bytesWith items ++ padding).length ≤ kMaxLength) :
    packet.IsReadFrom (packet.bytesWith items ++ padding) := by
  have h_total : (items.flatMap Item.bytes).length ≤ kMaxLength := by
    simp only [bytesWith, List.length_append] at h_size
    omega
  -- sizes: each item is shorter than the buffer
  have h_small : (items.flatMap Item.bytes).length < 2 ^ 48 := by
    unfold kMaxLength at h_total
    omega
  have h_count := (Item.length_le_flatMap items).trans_lt h_small
  have h_items (item : Item) (h_mem : item ∈ items) : Reads parseFrame item.bytes item.frame? := by
    have h_le := length_le_of_mem Item.bytes h_mem
    exact item.reads (h.wellFormed item h_mem) (by omega)
  have h_version : Reads (Reader.readUIntLong 1) (Bytes.toBytes 1 version.toNat) version :=
    @Reader.reads_readUIntLong (Bytes.toBytes 1 version.toNat) (by decide) (by decide)
  -- the frames that are left when the unknown ones are dropped
  have h_frames : (items.map Item.frame?).reduceOption = packet.frames := by
    change List.filterMap id (items.map Item.frame?) = _
    rw [← h.frames, List.filterMap_map]
    rfl
  have h_last := (Reads.readMany h_items).map fun frames =>
    ({ sequence := packet.sequence, ilpPacketType := .ofCode packet.ilpPacketType.code
       prepareAmount := packet.prepareAmount, frames := frames.reduceOption } : Packet)
  -- the fields of the packet, one after the other
  have h_reads : Reads readUnencrypted (packet.bytesWith items)
      { sequence := packet.sequence, ilpPacketType := .ofCode packet.ilpPacketType.code
        prepareAmount := packet.prepareAmount, frames := (items.map Item.frame?).reduceOption } := by
    rw [readUnencrypted, bytesWith]
    apply h_version.bind
    rw [if_neg (not_not.mpr rfl)]
    apply (reads_byte packet.ilpPacketType.code).bind
    apply (reads_varLong packet.sequence).bind
    apply (reads_varLong packet.prepareAmount).bind
    apply (reads_varNumber h_count).bind
    exact h_last
  exact ⟨_, IlpPacket.readFrom_of_reads h_reads padding, rfl, IlpPacketType.code_ofCode _, rfl, h_frames⟩

/-- **The STREAM packet codec.** Every frame is written as the bytes that it counts; a packet is
serialized to the bytes that it counts, as long as they fit in a buffer; and whatever well-formed frames
of unknown types stand among its frames and whatever follows them, the packet is read back. -/
theorem Packet.codec (packet : Packet) :
    (∀ frame : Frame, frame.IsMeasured) ∧
    packet.byteLength = .ok (packet.bytes.length + encryptionOverhead) ∧
    packet.serialize =
      (if kMaxLength < packet.bytes.length then .error .rangeError else .ok packet.bytes) ∧
    ∀ items padding, packet.Interleaves items →
      (packet.bytesWith items ++ padding).length ≤ kMaxLength →
      packet.IsReadFrom (packet.bytesWith items ++ padding) :=
  ⟨Frame.isMeasured, packet.byteLength_eq, packet.serialize_eq,
    fun _ padding h h_size => isReadFrom h padding h_size⟩

/-- Two frames, an unknown one before each of them, and padding. -/
theorem Packet.codec_two_frames :
    (⟨7, .fulfill, 2 ^ 63, [.streamMoney 1 1, .streamData 1 0 [5]]⟩ : Packet).IsReadFrom
      ((⟨7, .fulfill, 2 ^ 63, [.streamMoney 1 1, .streamData 1 0 [5]]⟩ : Packet).bytesWith
        [.unknown 255 [2] [9, 9], .frame (.streamMoney 1 1), .unknown 8 [0] [],
          .frame (.streamData 1 0 [5])] ++ [0, 0]) := by
  refine (codec _).2.2.2 _ _ ⟨rfl, ?_⟩ (by decide +kernel)
  intro item h_mem
  simp only [List.mem_cons, List.not_mem_nil, or_false] at h_mem
  rcases h_mem with rfl | rfl | rfl | rfl
  · exact ⟨rfl, .short (by decide)⟩
  · trivial
  · exact ⟨rfl, .short (by decide)⟩
  · trivial

end Interledger.Stream
