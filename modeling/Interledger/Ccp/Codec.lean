import Interledger.Ccp.Uuid
import Interledger.IlpPacket.Codec
import Interledger.IlpPacket.PeerProtocol

/-!
# The codec of route requests

`ilp-protocol-ccp/src/index.ts`. A request is the data of a Prepare to a fixed destination; the data is
written to a writer that grows, in lists of lists. Each property of a route has a byte of flags, from
which the encoder leaves out what the flags before it exclude.

## Main results

* `roundTrips` — a request that is serialized is read back, with the flags of its properties normalised
  and nothing left over.
-/

namespace Interledger.Ccp

open Ilp (Buffer)
open Oer Interledger.Action
open IlpPacket (Clock Date IlpPrepare serializeIlpPrepare deserializeIlpPrepare readFrom getBuffer
  peerProtocolCondition)

/-! ### Requests -/

/-- `CcpRouteControlRequest`. -/
structure CcpRouteControlRequest where
  mode : ℕ
  lastKnownRoutingTableId : String
  lastKnownEpoch : ℕ
  features : List String
  deriving DecidableEq

/-- `value` of a property, a string if `isUtf8` is set. -/
inductive PropValue
  | buffer (value : Buffer)
  | utf8 (value : String)
  deriving DecidableEq

/-- `CcpRouteProp`. -/
structure CcpRouteProp where
  isOptional : Bool
  isTransitive : Bool
  isPartial : Bool
  id : ℕ
  value : PropValue
  deriving DecidableEq

/-- `CcpRoute`. -/
structure CcpRoute where
  routePrefix : String
  path : List String
  auth : Buffer
  props : List CcpRouteProp
  deriving DecidableEq

/-- `CcpRouteUpdateRequest`. -/
structure CcpRouteUpdateRequest where
  routingTableId : String
  currentEpochIndex : ℕ
  fromEpochIndex : ℕ
  toEpochIndex : ℕ
  holdDownTime : ℕ
  speaker : String
  newRoutes : List CcpRoute
  withdrawnRoutes : List String
  deriving DecidableEq

/-! ### Writing -/

/-- `writeVarOctetString(Buffer.from(text, 'utf8'))`. -/
def writeUtf8 (text : String) : Action Writer OerError Unit :=
  Writer.writeVarOctetString (Utf8.encode text.toList)

/-- `writeVarOctetString(Buffer.from(text, 'ascii'))`. -/
def writeAscii (text : String) : Action Writer OerError Unit :=
  Writer.writeVarOctetString (Ascii.encode text.toList)

/-- What `serializeCcpRouteControlRequestPayload` writes. -/
def CcpRouteControlRequest.write (request : CcpRouteControlRequest) : Action Writer OerError Unit := do
  Writer.writeUInt8 (.number request.mode)
  writeUuid request.lastKnownRoutingTableId
  Writer.writeUInt (.number request.lastKnownEpoch) 4
  writeCounted writeUtf8 request.features

namespace CcpRouteProp

/-- `isUtf8`. -/
def isUtf8 (prop : CcpRouteProp) : Bool :=
  match prop.value with
  | .buffer _ => false
  | .utf8 _ => true

/-- `meta`. -/
def flags (prop : CcpRouteProp) : ℕ :=
  let optional := if prop.isOptional then 0x80 else 0
  let transitive :=
    if prop.isOptional then
      let transitive := optional ||| if prop.isTransitive then 0x40 else 0
      if prop.isTransitive then transitive ||| if prop.isPartial then 0x20 else 0 else transitive
    else
      -- Transitive bit must be set for well-known properties
      optional ||| 0x40
  transitive ||| if prop.isUtf8 then 0x10 else 0

/-- The bytes of `value`. -/
def valueBytes (prop : CcpRouteProp) : Buffer :=
  match prop.value with
  | .buffer value => value
  | .utf8 value => Utf8.encode value.toList

/-- The body of the loop over the properties of a route. -/
def write (prop : CcpRouteProp) : Action Writer OerError Unit := do
  Writer.writeUInt8 (.number prop.flags)
  Writer.writeUInt (.number prop.id) 2
  Writer.writeVarOctetString prop.valueBytes

end CcpRouteProp

/-- The body of the loop over the new routes. -/
def CcpRoute.write (route : CcpRoute) : Action Writer OerError Unit := do
  writeAscii route.routePrefix
  writeCounted writeAscii route.path
  if route.auth.length ≠ 32 then
    throw (.error ("route auth must be 32 bytes. prefix=" ++ route.routePrefix))
  else
    Writer.write route.auth
    writeCounted CcpRouteProp.write route.props

/-- What `serializeCcpRouteUpdateRequestPayload` writes. -/
def CcpRouteUpdateRequest.write (request : CcpRouteUpdateRequest) : Action Writer OerError Unit := do
  writeUuid request.routingTableId
  Writer.writeUInt (.number request.currentEpochIndex) 4
  Writer.writeUInt (.number request.fromEpochIndex) 4
  Writer.writeUInt (.number request.toEpochIndex) 4
  Writer.writeUInt (.number request.holdDownTime) 4
  writeAscii request.speaker
  writeCounted CcpRoute.write request.newRoutes
  writeCounted writeAscii request.withdrawnRoutes

/-- `serializeCcpRouteControlRequestPayload`. -/
def serializeCcpRouteControlRequestPayload (request : CcpRouteControlRequest) : Except OerError Buffer :=
  getBuffer request.write

/-- `serializeCcpRouteUpdateRequestPayload`. -/
def serializeCcpRouteUpdateRequestPayload (request : CcpRouteUpdateRequest) : Except OerError Buffer :=
  getBuffer request.write

/-! ### Reading -/

/-- What `deserializeCcpRouteControlRequestPayload` reads. -/
def readCcpRouteControlRequest : Action Reader OerError CcpRouteControlRequest := do
  let mode ← Reader.readUIntNumber 1
  let lastKnownRoutingTableId ← readUuid
  let lastKnownEpoch ← Reader.readUIntNumber 4
  let features ← readCounted readUtf8
  return { mode, lastKnownRoutingTableId, lastKnownEpoch, features }

/-- The body of the loop over the properties of a route. -/
def readCcpRouteProp : Action Reader OerError CcpRouteProp := do
  let flags ← Reader.readUIntNumber 1
  let id ← Reader.readUIntNumber 2
  let value ← Reader.readVarOctetString
  return {
    isOptional := flags &&& 0x80 ≠ 0
    isTransitive := flags &&& 0x40 ≠ 0
    isPartial := flags &&& 0x20 ≠ 0
    id
    value := if flags &&& 0x10 ≠ 0 then .utf8 (String.ofList (Utf8.decode value)) else .buffer value }

/-- The body of the loop over the new routes. -/
def readCcpRoute : Action Reader OerError CcpRoute := do
  let routePrefix ← readAscii
  let path ← readCounted readAscii
  let auth ← Reader.read 32
  let props ← readCounted readCcpRouteProp
  return { routePrefix, path, auth, props }

/-- What `deserializeCcpRouteUpdateRequestPayload` reads. -/
def readCcpRouteUpdateRequest : Action Reader OerError CcpRouteUpdateRequest := do
  let routingTableId ← readUuid
  let currentEpochIndex ← Reader.readUIntNumber 4
  let fromEpochIndex ← Reader.readUIntNumber 4
  let toEpochIndex ← Reader.readUIntNumber 4
  let holdDownTime ← Reader.readUIntNumber 4
  let speaker ← readAscii
  let newRoutes ← readCounted readCcpRoute
  let withdrawnRoutes ← readCounted readUtf8
  return { routingTableId, currentEpochIndex, fromEpochIndex, toEpochIndex, holdDownTime, speaker
           newRoutes, withdrawnRoutes }

/-- `deserializeCcpRouteControlRequestPayload`. -/
def deserializeCcpRouteControlRequestPayload : Buffer → Except OerError CcpRouteControlRequest :=
  readFrom readCcpRouteControlRequest

/-- `deserializeCcpRouteUpdateRequestPayload`. -/
def deserializeCcpRouteUpdateRequestPayload : Buffer → Except OerError CcpRouteUpdateRequest :=
  readFrom readCcpRouteUpdateRequest

/-! ### Packets -/

/-- `CCP_CONTROL_DESTINATION`. -/
def ccpControlDestination : String := "peer.route.control"

/-- `CCP_UPDATE_DESTINATION`. -/
def ccpUpdateDestination : String := "peer.route.update"

/-- The body that the two functions that construct a request share. -/
def constructRequest (destination : String) (payload : Except OerError Buffer) (clock : Clock) :
    Except OerError IlpPrepare := do
  let data ← payload
  return { amount := "0", executionCondition := peerProtocolCondition, expiresAt := clock.expiresAt
           destination, data }

/-- The body that the two functions that extract a request share. The first error is a `TypeError`. -/
def extractRequest {α : Type} (destination name : String) (deserialize : Buffer → Except OerError α)
    (now : ℤ) (packet : IlpPrepare) : Except OerError α :=
  if packet.destination ≠ destination then
    .error (.error ("packet is not a CCP route " ++ name ++ " request."))
  else if peerProtocolCondition ≠ packet.executionCondition then
    .error (.error "packet does not contain correct condition for a peer protocol request.")
  else if now > packet.expiresAt.time then
    .error (.error ("CCP route " ++ name ++ " request packet is expired."))
  else deserialize packet.data

/-- `constructCcpRouteControlRequest`. -/
def constructCcpRouteControlRequest (clock : Clock) (request : CcpRouteControlRequest) :
    Except OerError IlpPrepare :=
  constructRequest ccpControlDestination (serializeCcpRouteControlRequestPayload request) clock

/-- `constructCcpRouteUpdateRequest`. -/
def constructCcpRouteUpdateRequest (clock : Clock) (request : CcpRouteUpdateRequest) :
    Except OerError IlpPrepare :=
  constructRequest ccpUpdateDestination (serializeCcpRouteUpdateRequestPayload request) clock

/-- `extractCcpRouteControlRequest`. -/
def extractCcpRouteControlRequest : ℤ → IlpPrepare → Except OerError CcpRouteControlRequest :=
  extractRequest ccpControlDestination "control" deserializeCcpRouteControlRequestPayload

/-- `extractCcpRouteUpdateRequest`. -/
def extractCcpRouteUpdateRequest : ℤ → IlpPrepare → Except OerError CcpRouteUpdateRequest :=
  extractRequest ccpUpdateDestination "update" deserializeCcpRouteUpdateRequestPayload

/-- `serializeCcpRouteControlRequest`. -/
def serializeCcpRouteControlRequest (clock : Clock) (request : CcpRouteControlRequest) :
    Except OerError Buffer := do
  serializeIlpPrepare (← constructCcpRouteControlRequest clock request)

/-- `serializeCcpRouteUpdateRequest`. -/
def serializeCcpRouteUpdateRequest (clock : Clock) (request : CcpRouteUpdateRequest) :
    Except OerError Buffer := do
  serializeIlpPrepare (← constructCcpRouteUpdateRequest clock request)

/-- `deserializeCcpRouteControlRequest`. -/
def deserializeCcpRouteControlRequest (now : ℤ) (request : Buffer) :
    Except OerError CcpRouteControlRequest := do
  extractCcpRouteControlRequest now (← deserializeIlpPrepare request)

/-- `deserializeCcpRouteUpdateRequest`. -/
def deserializeCcpRouteUpdateRequest (now : ℤ) (request : Buffer) :
    Except OerError CcpRouteUpdateRequest := do
  extractCcpRouteUpdateRequest now (← deserializeIlpPrepare request)

/-! ### What is asked -/

namespace CcpRouteProp

/-- The flags as the encoder writes them: a property that is not optional is transitive and not partial,
and only a transitive one is partial. -/
def normalize (prop : CcpRouteProp) : CcpRouteProp :=
  { prop with
    isTransitive := !prop.isOptional || prop.isTransitive
    isPartial := prop.isOptional && prop.isTransitive && prop.isPartial }

/-- The bytes of a property. -/
def bytes (prop : CcpRouteProp) : Buffer :=
  Bytes.toBytes 1 prop.flags ++ (Bytes.toBytes 2 prop.id ++ octets prop.valueBytes)

end CcpRouteProp

/-- The bytes of an ASCII text in an octet string. -/
def asciiBytes (text : String) : Buffer := octets (Ascii.encode text.toList)

/-- The bytes of a text in UTF-8 in an octet string. -/
def utf8Bytes (text : String) : Buffer := octets (Utf8.encode text.toList)

namespace CcpRoute

/-- A route with its properties normalised. -/
def normalize (route : CcpRoute) : CcpRoute :=
  { route with props := route.props.map CcpRouteProp.normalize }

/-- The bytes of a route. -/
def bytes (route : CcpRoute) : Buffer :=
  asciiBytes route.routePrefix ++ (counted asciiBytes route.path ++
    (route.auth ++ counted CcpRouteProp.bytes route.props))

/-- ASCII addresses, an auth value of 32 bytes, and properties with 16-bit ids. -/
structure IsWellFormed (route : CcpRoute) : Prop where
  routePrefix : Ascii.IsAscii route.routePrefix.toList
  path : ∀ hop ∈ route.path, Ascii.IsAscii hop.toList
  auth : route.auth.length = 32
  props : ∀ prop ∈ route.props, prop.id < 2 ^ 16

end CcpRoute

namespace CcpRouteControlRequest

/-- The bytes of the payload. -/
def bytes (request : CcpRouteControlRequest) : Buffer :=
  Bytes.toBytes 1 request.mode ++ (uuidBuffer request.lastKnownRoutingTableId ++
    (Bytes.toBytes 4 request.lastKnownEpoch ++ counted utf8Bytes request.features))

/-- A mode of a byte, a canonical UUID and an epoch of 32 bits. -/
structure IsWellFormed (request : CcpRouteControlRequest) : Prop where
  mode : request.mode < 2 ^ 8
  lastKnownRoutingTableId : IsCanonicalUuid request.lastKnownRoutingTableId
  lastKnownEpoch : request.lastKnownEpoch < 2 ^ 32

end CcpRouteControlRequest

namespace CcpRouteUpdateRequest

/-- A request with the properties of its routes normalised. -/
def normalize (request : CcpRouteUpdateRequest) : CcpRouteUpdateRequest :=
  { request with newRoutes := request.newRoutes.map CcpRoute.normalize }

/-- The bytes of the payload. -/
def bytes (request : CcpRouteUpdateRequest) : Buffer :=
  uuidBuffer request.routingTableId ++ (Bytes.toBytes 4 request.currentEpochIndex ++
    (Bytes.toBytes 4 request.fromEpochIndex ++ (Bytes.toBytes 4 request.toEpochIndex ++
      (Bytes.toBytes 4 request.holdDownTime ++ (asciiBytes request.speaker ++
        (counted CcpRoute.bytes request.newRoutes ++ counted asciiBytes request.withdrawnRoutes))))))

/-- A canonical UUID, numbers of 32 bits, ASCII addresses and well-formed routes. -/
structure IsWellFormed (request : CcpRouteUpdateRequest) : Prop where
  routingTableId : IsCanonicalUuid request.routingTableId
  currentEpochIndex : request.currentEpochIndex < 2 ^ 32
  fromEpochIndex : request.fromEpochIndex < 2 ^ 32
  toEpochIndex : request.toEpochIndex < 2 ^ 32
  holdDownTime : request.holdDownTime < 2 ^ 32
  speaker : Ascii.IsAscii request.speaker.toList
  newRoutes : ∀ route ∈ request.newRoutes, route.IsWellFormed
  withdrawnRoutes : ∀ route ∈ request.withdrawnRoutes, Ascii.IsAscii route.toList

/-- All of that but for the routes that are withdrawn. -/
structure HasWellFormedRoutes (request : CcpRouteUpdateRequest) : Prop where
  routingTableId : IsCanonicalUuid request.routingTableId
  currentEpochIndex : request.currentEpochIndex < 2 ^ 32
  fromEpochIndex : request.fromEpochIndex < 2 ^ 32
  toEpochIndex : request.toEpochIndex < 2 ^ 32
  holdDownTime : request.holdDownTime < 2 ^ 32
  speaker : Ascii.IsAscii request.speaker.toList
  newRoutes : ∀ route ∈ request.newRoutes, route.IsWellFormed

theorem IsWellFormed.hasWellFormedRoutes {request : CcpRouteUpdateRequest} (h : request.IsWellFormed) :
    request.HasWellFormedRoutes :=
  ⟨h.routingTableId, h.currentEpochIndex, h.fromEpochIndex, h.toEpochIndex, h.holdDownTime, h.speaker,
    h.newRoutes⟩

end CcpRouteUpdateRequest

/-- A packet that is made at the one time and read at the other has not expired, and expires in a year of
four characters, not at the epoch. -/
structure Serves (clock : Clock) (now : ℤ) : Prop where
  year : clock.expiresAt.HasFourCharacterYear
  epoch : clock.expiresAt.time ≠ 0
  unexpired : now ≤ clock.expiresAt.time

/-- What is asked of the functions of a kind of requests: the payload and the packet are serialized if a
buffer that grows to twice the size can hold the payload, and what is serialized is read back, to the end
of the payload. -/
structure RoundTrips {α : Type} (size : ℕ) (payload : Except OerError Buffer)
    (read : Action Reader OerError α) (serialize : Clock → Except OerError Buffer)
    (deserialize : ℤ → Buffer → Except OerError α) (request : α) : Prop where
  serializes_payload : 2 * size ≤ kMaxLength → ∃ binary, payload = .ok binary
  reads_payload : ∀ binary, payload = .ok binary → binary.length ≤ kMaxLength →
    ∃ reader, read.exec (Reader.ofBuffer binary) = (.ok request, reader) ∧ reader.cursor = binary.length
  serializes : ∀ clock now, Serves clock now → 2 * size ≤ kMaxLength →
    ∃ binary, serialize clock = .ok binary
  deserializes : ∀ clock now binary, Serves clock now → serialize clock = .ok binary →
    deserialize now binary = .ok request

/-! ### Writing and reading back -/

namespace CcpRouteProp

/-- **The byte of flags** is that of the normalised property. -/
theorem flags_spec (prop : CcpRouteProp) :
    prop.flags < 256 ^ 1 ∧ decide (prop.flags &&& 0x80 ≠ 0) = prop.isOptional ∧
      decide (prop.flags &&& 0x40 ≠ 0) = (!prop.isOptional || prop.isTransitive) ∧
      decide (prop.flags &&& 0x20 ≠ 0) = (prop.isOptional && prop.isTransitive && prop.isPartial) ∧
      decide (prop.flags &&& 0x10 ≠ 0) = prop.isUtf8 := by
  unfold flags
  cases prop.isOptional <;> cases prop.isTransitive <;> cases prop.isPartial <;> cases prop.isUtf8 <;>
    decide

theorem length_bytes_pos (prop : CcpRouteProp) : 1 ≤ prop.bytes.length := by
  rw [bytes, List.length_append, Bytes.length_toBytes]
  exact Nat.le_add_right _ _

theorem appends {prop : CcpRouteProp} (h : prop.id < 2 ^ 16) : Writer.Appends prop.write prop.bytes :=
  (Writer.Appends.writeUInt_number le_rfl (by decide) prop.flags_spec.1).bind
    ((Writer.Appends.writeUInt_number (by omega) (by decide) h).bind (.writeVarOctetString _))

/-- The flag tells how the value is read. -/
theorem value_spec (prop : CcpRouteProp) :
    (if prop.flags &&& 0x10 ≠ 0 then .utf8 (String.ofList (Utf8.decode prop.valueBytes))
      else .buffer prop.valueBytes) = prop.value := by
  obtain ⟨-, -, -, -, h_utf8⟩ := prop.flags_spec
  unfold isUtf8 at h_utf8
  unfold valueBytes
  cases h_value : prop.value with
  | buffer value =>
    rw [h_value] at h_utf8
    exact if_neg (of_decide_eq_false h_utf8)
  | utf8 value =>
    rw [h_value] at h_utf8
    simp only
    rw [if_pos (of_decide_eq_true h_utf8), Utf8.decode_encode, String.ofList_toList]

theorem reads {prop : CcpRouteProp} (h : prop.id < 2 ^ 16) (h_length : prop.bytes.length < 2 ^ 48) :
    Reads readCcpRouteProp prop.bytes prop.normalize := by
  obtain ⟨h_flags, h_optional, h_transitive, h_partial, -⟩ := prop.flags_spec
  simp only [bytes, List.length_append] at h_length
  have h_last := (@reads_octets prop.valueBytes (by omega)).map fun value =>
    ({ isOptional := decide (prop.flags &&& 0x80 ≠ 0), isTransitive := decide (prop.flags &&& 0x40 ≠ 0)
       isPartial := decide (prop.flags &&& 0x20 ≠ 0), id := prop.id
       value := if prop.flags &&& 0x10 ≠ 0 then .utf8 (String.ofList (Utf8.decode value))
         else .buffer value } : CcpRouteProp)
  rw [prop.value_spec, h_optional, h_transitive, h_partial] at h_last
  apply (Reader.reads_number le_rfl (by decide) h_flags).bind
  apply (Reader.reads_number (by omega) (by decide) h).bind
  rw [h_optional, h_transitive, h_partial]
  exact h_last

end CcpRouteProp

/-! A text in an octet string, as an item of a list. -/

theorem appends_ascii (text : String) : Writer.Appends (writeAscii text) (asciiBytes text) :=
  .writeVarOctetString _

theorem appends_utf8 (text : String) : Writer.Appends (writeUtf8 text) (utf8Bytes text) :=
  .writeVarOctetString _

theorem length_asciiBytes_pos (text : String) : 1 ≤ (asciiBytes text).length := length_octets_pos _

theorem length_utf8Bytes_pos (text : String) : 1 ≤ (utf8Bytes text).length := length_octets_pos _

/-- A list of texts is read back. -/
theorem reads_texts {x : Action Reader OerError String} {enc : String → Buffer} {texts : List String}
    (h_length : (counted enc texts).length < 2 ^ 48) (h_pos : ∀ text, 1 ≤ (enc text).length)
    (h : ∀ text ∈ texts, (enc text).length < 2 ^ 48 → Reads x (enc text) text) :
    Reads (readCounted x) (counted enc texts) texts := by
  have h_reads := reads_counted h_length (fun text _ => h_pos text) h
  rwa [List.map_id'] at h_reads

namespace CcpRoute

variable {route : CcpRoute}

theorem length_bytes_pos (route : CcpRoute) : 1 ≤ route.bytes.length := by
  have h_pos := length_asciiBytes_pos route.routePrefix
  rw [bytes, List.length_append]
  omega

theorem appends (h : route.IsWellFormed) : Writer.Appends route.write route.bytes := by
  have h_path := appends_writeCounted (fun hop _ => appends_ascii hop)
    fun (hop : String) (_ : hop ∈ route.path) => length_asciiBytes_pos hop
  have h_props := appends_writeCounted (fun prop h_mem => CcpRouteProp.appends (h.props prop h_mem))
    fun prop _ => prop.length_bytes_pos
  rw [write, if_neg (not_not.mpr h.auth)]
  exact (appends_ascii _).bind (h_path.bind ((Writer.Appends.of_writes (Writer.writes_write _)).bind h_props))

theorem reads (h : route.IsWellFormed) (h_length : route.bytes.length < 2 ^ 48) :
    Reads readCcpRoute route.bytes route.normalize := by
  simp only [bytes, List.length_append] at h_length
  have h_path : Reads (readCounted readAscii) (counted asciiBytes route.path) route.path :=
    reads_texts (by omega) length_asciiBytes_pos fun hop h_mem => reads_ascii (h.path hop h_mem)
  have h_props : Reads (readCounted readCcpRouteProp) (counted CcpRouteProp.bytes route.props)
      (route.props.map CcpRouteProp.normalize) :=
    reads_counted (by omega) (fun prop _ => prop.length_bytes_pos)
      fun prop h_mem => CcpRouteProp.reads (h.props prop h_mem)
  have h_auth := Reader.reads_read route.auth
  rw [h.auth] at h_auth
  apply (reads_ascii h.routePrefix (show (asciiBytes _).length < _ by omega)).bind
  apply h_path.bind
  apply h_auth.bind
  exact h_props.map _

end CcpRoute

/-- **Route control payloads.** -/
theorem CcpRouteControlRequest.appends {request : CcpRouteControlRequest} (h : request.IsWellFormed) :
    Writer.Appends request.write request.bytes := by
  have h_features := appends_writeCounted (fun feature _ => appends_utf8 feature)
    fun (feature : String) (_ : feature ∈ request.features) => length_utf8Bytes_pos feature
  have h_uuid := Writer.Appends.of_writes (writes_writeUuid h.lastKnownRoutingTableId)
  exact (Writer.Appends.writeUInt_number le_rfl (by decide) h.mode).bind (h_uuid.bind
    ((Writer.Appends.writeUInt_number (by omega) (by decide) h.lastKnownEpoch).bind h_features))

theorem CcpRouteControlRequest.reads {request : CcpRouteControlRequest} (h : request.IsWellFormed)
    (h_length : request.bytes.length < 2 ^ 48) :
    Reads readCcpRouteControlRequest request.bytes request := by
  simp only [bytes, List.length_append] at h_length
  have h_features : Reads (readCounted readUtf8) (counted utf8Bytes request.features) request.features :=
    reads_texts (by omega) length_utf8Bytes_pos fun feature _ => reads_utf8
  apply (Reader.reads_number le_rfl (by decide) h.mode).bind
  apply (reads_readUuid h.lastKnownRoutingTableId).bind
  apply (Reader.reads_number (by omega) (by decide) h.lastKnownEpoch).bind
  exact h_features.map _

/-- **Route update payloads.** -/
theorem CcpRouteUpdateRequest.appends {request : CcpRouteUpdateRequest} (h : request.HasWellFormedRoutes) :
    Writer.Appends request.write request.bytes := by
  have h_four {n : ℕ} (hn : n < 2 ^ 32) : Writer.Appends (Writer.writeUInt (.number n) 4)
      (Bytes.toBytes 4 n) := Writer.Appends.writeUInt_number (by omega) (by decide) hn
  have h_uuid := Writer.Appends.of_writes (writes_writeUuid h.routingTableId)
  have h_routes := appends_writeCounted (fun route h_mem => CcpRoute.appends (h.newRoutes route h_mem))
    fun route _ => route.length_bytes_pos
  have h_withdrawn := appends_writeCounted (fun route _ => appends_ascii route)
    fun (route : String) (_ : route ∈ request.withdrawnRoutes) => length_asciiBytes_pos route
  exact h_uuid.bind ((h_four h.currentEpochIndex).bind ((h_four h.fromEpochIndex).bind
    ((h_four h.toEpochIndex).bind ((h_four h.holdDownTime).bind ((appends_ascii _).bind
      (h_routes.bind h_withdrawn))))))

theorem CcpRouteUpdateRequest.reads {request : CcpRouteUpdateRequest} (h : request.HasWellFormedRoutes)
    (h_texts : ∀ route ∈ request.withdrawnRoutes, Utf8.decode (Ascii.encode route.toList) = route.toList)
    (h_length : request.bytes.length < 2 ^ 48) :
    Reads readCcpRouteUpdateRequest request.bytes request.normalize := by
  simp only [bytes, List.length_append] at h_length
  have h_four {n : ℕ} (hn : n < 2 ^ 32) : Reads (Reader.readUIntNumber 4) (Bytes.toBytes 4 n) n :=
    Reader.reads_number (by omega) (by decide) hn
  have h_routes : Reads (readCounted readCcpRoute) (counted CcpRoute.bytes request.newRoutes)
      (request.newRoutes.map CcpRoute.normalize) :=
    reads_counted (by omega) (fun route _ => route.length_bytes_pos)
      fun route h_mem => CcpRoute.reads (h.newRoutes route h_mem)
  have h_withdrawn : Reads (readCounted readUtf8) (counted asciiBytes request.withdrawnRoutes)
      request.withdrawnRoutes :=
    reads_texts (by omega) length_asciiBytes_pos
      fun route h_mem => reads_utf8_ascii (h_texts route h_mem)
  apply (reads_readUuid h.routingTableId).bind
  apply (h_four h.currentEpochIndex).bind
  apply (h_four h.fromEpochIndex).bind
  apply (h_four h.toEpochIndex).bind
  apply (h_four h.holdDownTime).bind
  apply (reads_ascii h.speaker (show (asciiBytes _).length < _ by omega)).bind
  apply h_routes.bind
  exact h_withdrawn.map _

/-! ### Payloads and packets -/

section Generic

variable {α : Type} {x : Action Writer OerError Unit} {read : Action Reader OerError α} {bytes : Buffer}
  {request : α}

/-- A new writer has written these bytes when the program is done, -/
theorem eq_of_getBuffer (h : Writer.Appends x bytes) {binary : Buffer}
    (h_ok : getBuffer x = .ok binary) : binary = bytes := by
  unfold getBuffer at h_ok
  cases h_exec : x.exec Writer.empty with
  | mk result w =>
    rw [h_exec] at h_ok
    cases result with
    | error e => cases h_ok
    | ok u =>
      cases h_ok
      exact h.written _ _ h_exec

/-- which it has room for if it can grow to twice their number. -/
theorem getBuffer_eq (h : Writer.Appends x bytes) (h_size : 2 * bytes.length ≤ kMaxLength) :
    getBuffer x = .ok bytes := by
  have h_room : Writer.HasRoom bytes.length Writer.empty := by
    refine .inr ⟨rfl, ?_⟩
    change 2 * (0 + bytes.length) ≤ kMaxLength
    omega
  have h_small : bytes.length < 2 ^ 53 := by
    unfold kMaxLength at h_size
    omega
  obtain ⟨w, h_exec, h_ext⟩ := (h.writes h_small).exec_of_hasRoom h_room
  have h_ext : Writer.Extends _ _ w := h_ext
  rw [getBuffer, h_exec]
  exact congrArg Except.ok h_ext.written

/-- A Prepare that is serialized is read back, and its data fit in a buffer. -/
theorem deserializeIlpPrepare_of_serialize {data : IlpPrepare} {binary : Buffer}
    (h : (IlpPacket.Packet.prepare data).IsValid) (h_year : data.expiresAt.HasFourCharacterYear)
    (h_time : data.expiresAt.time ≠ 0) (h_ok : serializeIlpPrepare data = .ok binary) :
    deserializeIlpPrepare binary = .ok data ∧ data.data.length ≤ kMaxLength := by
  by_cases h_size : IlpPacket.envelopeSize data.contentSize ≤ kMaxLength
  · obtain ⟨binary', h_serialize, -, h_deserialize, -⟩ :=
      IlpPacket.Packet.survives_prepare h h_size h_year h_time
    have h_same : binary = binary' := Except.ok.inj (h_ok.symm.trans h_serialize)
    subst h_same
    refine ⟨?_, ?_⟩
    · change IlpPacket.Packet.prepare <$> deserializeIlpPrepare binary = _ at h_deserialize
      cases h_read : deserializeIlpPrepare binary with
      | error e =>
        rw [h_read] at h_deserialize
        cases h_deserialize
      | ok found =>
        rw [h_read] at h_deserialize
        cases h_deserialize
        rfl
    · unfold IlpPacket.envelopeSize IlpPrepare.contentSize Predictor.measureVarOctetString at h_size
      omega
  · -- it would not have been serialized
    have h_refused := (IlpPacket.Packet.serializeIlpPacket_eq h).trans
      (IlpPacket.serializeEnvelope_of_lt (not_le.mp h_size))
    change serializeIlpPrepare data = _ at h_refused
    rw [h_ok] at h_refused
    cases h_refused

/-- The packet of a request is valid, whatever its payload is. -/
theorem isValid_packet {destination : String} (h : IlpPacket.isValidIlpAddress destination = true)
    (date : Date) (data : Buffer) : (IlpPacket.Packet.prepare
      { amount := "0", executionCondition := peerProtocolCondition, expiresAt := date, destination,
        data }).IsValid := by
  have h_amount : IlpPacket.isUInt64 "0" = true := by decide +kernel
  change (IlpPacket.isUInt64 "0" && IlpPacket.isValidIlpAddress destination && _) = true
  rw [h_amount, h]
  rfl

/-- **From payloads to packets.** -/
theorem roundTrips_of {destination name : String} (h_write : Writer.Appends x bytes)
    (h_read : bytes.length < 2 ^ 48 → Reads read bytes request)
    (h_destination : IlpPacket.isValidIlpAddress destination = true)
    (h_short : (Ascii.encode destination.toList).length ≤ 127) :
    RoundTrips bytes.length (getBuffer x) read
      (fun clock => constructRequest destination (getBuffer x) clock >>= serializeIlpPrepare)
      (fun now binary => deserializeIlpPrepare binary >>= extractRequest destination name (readFrom read) now)
      request := by
  -- what was written is read back
  have h_reads (binary : Buffer) (h_ok : getBuffer x = .ok binary) (h_size : binary.length ≤ kMaxLength) :
      Reads read binary request := by
    obtain rfl := eq_of_getBuffer h_write h_ok
    apply h_read
    unfold kMaxLength at h_size
    omega
  refine ⟨fun h_size => ⟨_, getBuffer_eq h_write h_size⟩, ?_, ?_, ?_⟩
  · intro binary h_ok h_size
    -- as the data of a packet
    have h_exec := h_reads binary h_ok h_size (Reader.ofBuffer binary) [] (Nat.zero_le _)
      (List.append_nil binary).symm
    exact ⟨_, h_exec, Nat.zero_add _⟩
  · intro clock now h_clock h_size
    -- in a packet, which has room for it
    have h_envelope : IlpPacket.envelopeSize (IlpPrepare.contentSize ⟨"0", peerProtocolCondition,
        clock.expiresAt, destination, bytes⟩) ≤ kMaxLength := by
      unfold kMaxLength at h_size ⊢
      have h_data := measureVarOctetString_le (n := bytes.length) (by omega)
      have h_address := measureVarOctetString_le (n := (Ascii.encode destination.toList).length) (by omega)
      change 1 + Predictor.measureVarOctetString (8 + 17 + 32 +
        Predictor.measureVarOctetString (Ascii.encode destination.toList).length +
        Predictor.measureVarOctetString bytes.length) ≤ _
      generalize Predictor.measureVarOctetString bytes.length = n at *
      generalize Predictor.measureVarOctetString (Ascii.encode destination.toList).length = m at *
      have h_all := measureVarOctetString_le (n := 8 + 17 + 32 + m + n) (by omega)
      omega
    obtain ⟨binary, h_serialize, -⟩ := IlpPacket.Packet.survives_prepare
      (isValid_packet h_destination clock.expiresAt bytes) h_envelope h_clock.year h_clock.epoch
    refine ⟨binary, ?_⟩
    rw [constructRequest, getBuffer_eq h_write h_size]
    exact h_serialize
  · intro clock now binary h_clock h_ok
    beta_reduce at h_ok ⊢
    rw [constructRequest] at h_ok
    cases h_payload : getBuffer x with
    | error e =>
      rw [h_payload] at h_ok
      cases h_ok
    | ok data =>
      rw [h_payload] at h_ok
      -- and out of a packet, which arrives as it was sent
      obtain ⟨h_packet, h_size⟩ := deserializeIlpPrepare_of_serialize
        (isValid_packet h_destination clock.expiresAt data) h_clock.year h_clock.epoch h_ok
      have h_found := IlpPacket.readFrom_of_reads (h_reads data h_payload h_size) []
      rw [List.append_nil] at h_found
      rw [h_packet]
      change extractRequest destination name (readFrom read) now _ = _
      rw [extractRequest, if_neg (not_not.mpr rfl), if_neg (not_not.mpr rfl),
        if_neg (not_lt.mpr h_clock.unexpired)]
      exact h_found

end Generic

/-- **The codec of route requests.** A well-formed request of either kind is read back from what it is
serialized to, an update with the flags of its properties normalised. -/
theorem roundTrips :
    (∀ request : CcpRouteControlRequest, request.IsWellFormed →
      RoundTrips request.bytes.length (serializeCcpRouteControlRequestPayload request)
        readCcpRouteControlRequest (serializeCcpRouteControlRequest · request)
        deserializeCcpRouteControlRequest request) ∧
    (∀ request : CcpRouteUpdateRequest, request.IsWellFormed →
      RoundTrips request.bytes.length (serializeCcpRouteUpdateRequestPayload request)
        readCcpRouteUpdateRequest (serializeCcpRouteUpdateRequest · request)
        deserializeCcpRouteUpdateRequest request.normalize) :=
  ⟨fun _ h => roundTrips_of (CcpRouteControlRequest.appends h) (CcpRouteControlRequest.reads h)
      (by decide +kernel) (by decide +kernel),
    fun _ h => roundTrips_of (CcpRouteUpdateRequest.appends h.hasWellFormedRoutes)
      (CcpRouteUpdateRequest.reads h.hasWellFormedRoutes fun route h_mem =>
        Utf8.decode_ascii (h.withdrawnRoutes route h_mem))
      (by decide +kernel) (by decide +kernel)⟩

/-- An update with a route, two hops, a property of each kind and a withdrawn route. -/
theorem roundTrips_update :
    ∃ request : CcpRouteUpdateRequest, request.newRoutes ≠ request.normalize.newRoutes ∧
      RoundTrips request.bytes.length (serializeCcpRouteUpdateRequestPayload request)
        readCcpRouteUpdateRequest (serializeCcpRouteUpdateRequest · request)
        deserializeCcpRouteUpdateRequest request.normalize := by
  let uuid := "21e55f8e-abcd-4e97-9ab9-bf0ff00a224c"
  let hex := uuid.toList.filter (· ≠ '-')
  let route : CcpRoute := ⟨"example.prefix1", ["example.a", "example.b"], List.replicate 32 7,
    [⟨false, false, true, 0, .utf8 "hello world"⟩, ⟨true, true, true, 1, .buffer [160]⟩]⟩
  have h_hex : hex.all (· ∈ Hex.digits) = true := by decide +kernel
  have h_uuid : IsCanonicalUuid uuid :=
    ⟨hex, by decide +kernel, fun c hc => of_decide_eq_true (List.all_eq_true.mp h_hex c hc),
      by decide +kernel⟩
  have h_path : route.path.all (fun hop => hop.toList.all (·.toNat < 0x80)) = true := by decide +kernel
  have h_route : route.IsWellFormed :=
    ⟨Ascii.isAscii_of_all (by decide +kernel),
      fun hop h_mem => Ascii.isAscii_of_all (List.all_eq_true.mp h_path hop h_mem), rfl, by decide⟩
  refine ⟨⟨uuid, 52, 46, 50, 30000, "example.alice", [route], ["example.prefix3"]⟩, by decide, ?_⟩
  apply roundTrips.2
  exact ⟨h_uuid, by decide, by decide, by decide, by decide, Ascii.isAscii_of_all (by decide +kernel),
    fun _ h_mem => List.mem_singleton.mp h_mem ▸ h_route,
    fun _ h_mem => List.mem_singleton.mp h_mem ▸ Ascii.isAscii_of_all (by decide +kernel)⟩

end Interledger.Ccp
