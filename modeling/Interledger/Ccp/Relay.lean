import Interledger.Ccp.Codec
import Interledger.IlpPacket.Relay

/-!
# Relaying route updates

What a node that deserializes a route update and serializes it again passes on. The decoder takes text
bytes, length prefixes and flags that the encoder does not write. Whatever it returns is written to bytes
that are read as the same update, but for the flags of the properties, which are normalised once, as long
as the withdrawn routes survive being written in ASCII and read in UTF-8.

## Main results

* `relays_normalized` — what becomes of an update that was accepted.
-/

namespace Interledger.Ccp

open Ilp (Buffer)
open Oer Interledger.Action
open IlpPacket (readFrom getBuffer)

/-! ### Sizes -/

/-- A value that is at most three times as long takes at most three times the bytes of an octet string. -/
theorem length_octets_le {lengthPrefix value value' : Buffer}
    (h_first : Reader.IsLengthPrefix lengthPrefix value.length) (h : value'.length ≤ 3 * value.length) :
    (octets value').length ≤ 3 * (lengthPrefix ++ value).length := by
  rw [length_octets, List.length_append]
  unfold Predictor.measureVarOctetString
  generalize value'.length = m at *
  generalize value.length = n at *
  cases h_first with
  | short h_short =>
    -- two bytes hold the length
    have h_two := Writer.getUIntBufferSize_le_iff (n := m) (k := 2) (by omega) (by omega)
    rw [Bytes.length_toBytes]
    split
    · omega
    · have h_size := h_two.mpr (by omega)
      omega
  | @long k n h_pos hk h_fits h_min =>
    have h_six : 256 ^ k ≤ 256 ^ 6 := Nat.pow_le_pow_right (by omega) hk
    -- one more byte holds the length
    have h_next := Writer.getUIntBufferSize_le_iff (n := m) (k := k + 1) (by omega) (by omega)
    simp only [List.length_append, Bytes.length_toBytes]
    split
    · omega
    · have h_size := h_next.mpr (by rw [Nat.pow_succ]; omega)
      omega

/-- What was read is as it should be, and takes at most three times as many bytes when it is written. -/
structure IsRewritable {α : Type} (Q : α → Prop) (enc : α → Buffer) (bytes : Buffer) (a : α) : Prop where
  spec : Q a
  length_le : (enc a).length ≤ 3 * bytes.length

/-! ### What is accepted -/

theorem takes_readAscii :
    Takes readAscii (IsRewritable (fun text => Ascii.IsAscii text.toList) asciiBytes) := by
  apply (Reader.takes_readVarOctetString.bind fun bytes =>
    Takes.pure (String.ofList (Ascii.decode bytes))).mono
  rintro _ text ⟨_, _, value, rfl, ⟨lengthPrefix, rfl, h_first⟩, rfl, rfl⟩
  have h_ascii := Ascii.isAscii_decode value
  have h_length := Ascii.length_encode h_ascii
  rw [Ascii.length_decode] at h_length
  refine ⟨?_, ?_⟩
  · rw [String.toList_ofList]
    exact h_ascii
  · rw [asciiBytes, String.toList_ofList, List.append_nil]
    apply length_octets_le h_first
    omega

theorem takes_readUtf8 : Takes readUtf8 (IsRewritable (fun _ => True) asciiBytes) := by
  apply (Reader.takes_readVarOctetString.bind fun bytes =>
    Takes.pure (String.ofList (Utf8.decode bytes))).mono
  rintro _ text ⟨_, _, value, rfl, ⟨lengthPrefix, rfl, h_first⟩, rfl, rfl⟩
  have h_length := Utf8.length_ascii_decode_le value
  refine ⟨trivial, ?_⟩
  rw [asciiBytes, String.toList_ofList, List.append_nil]
  apply length_octets_le h_first
  omega

/-- The digits of 16 bytes are a UUID. -/
theorem takes_readUuid : Takes readUuid (IsRewritable IsCanonicalUuid uuidBuffer) := by
  apply ((Reader.takes_read 16).bind fun bytes =>
    Takes.pure (String.ofList (formatUuid (Hex.encode bytes)))).mono
  rintro _ uuid ⟨_, _, bytes, rfl, ⟨h_length, rfl⟩, rfl, rfl⟩
  have h_uuid : IsCanonicalUuid (String.ofList (formatUuid (Hex.encode bytes))) := by
    refine ⟨Hex.encode bytes, ?_, fun c => Hex.mem_digits_of_mem_encode, String.toList_ofList⟩
    rw [Hex.length_encode, h_length]
  refine ⟨h_uuid, ?_⟩
  rw [(uuidBuffer_spec h_uuid).1, List.append_nil, h_length]
  decide

/-- A number in so many bytes. -/
theorem takes_number (k : ℕ) :
    Takes (Reader.readUIntNumber k) (IsRewritable (· < 256 ^ k) (Bytes.toBytes k)) := by
  apply (Reader.takes_readUIntNumber k).mono
  rintro bytes n ⟨rfl, -, -, rfl⟩
  refine ⟨Bytes.ofBytes_lt bytes, ?_⟩
  rw [Bytes.length_toBytes]
  omega

/-- The number of items is written in no more bytes than it was read from. -/
theorem takes_readVarUIntNumber :
    Takes Reader.readVarUIntNumber fun bytes n => (varNumber n).length ≤ bytes.length := by
  intro r n r' h_valid h_exec
  have h_valid : r.cursor ≤ r.buffer.length := h_valid
  unfold Reader.readVarUIntNumber at h_exec
  rw [exec_bind_ok (exec_get r)] at h_exec
  cases h_first : r.buffer[r.cursor]? with
  | none =>
    rw [h_first] at h_exec
    cases h_exec
  | some length =>
    rw [h_first] at h_exec
    simp only at h_exec
    split at h_exec
    case isTrue => cases h_exec
    split at h_exec
    case isFalse => cases h_exec
    case isTrue h_safe =>
      have h_inside : r.cursor < r.buffer.length := by
        by_contra h_end
        rw [List.getElem?_eq_none (not_lt.mp h_end)] at h_first
        cases h_first
      -- the bytes of the number are behind their length
      have h_rest : Cursor.rest r = [length] ++ Cursor.rest (Cursor.skip 1 r) := by
        have h_drop := List.drop_eq_getElem_cons h_inside
        rw [List.getElem?_eq_getElem h_inside, Option.some.injEq] at h_first
        rw [h_first] at h_drop
        exact h_drop
      have h_read : (Reader.readUIntNumber length.toNat).exec (Cursor.skip 1 r) = (.ok n, r') := h_exec
      obtain ⟨bytes, more, h_bytes, ⟨h_length, h_pos, -, rfl⟩, rfl⟩ :=
        Reader.takes_readUIntNumber length.toNat _ n r' (show r.cursor + 1 ≤ r.buffer.length by omega) h_read
      refine ⟨[length] ++ bytes, more, ?_, ?_, ?_⟩
      · rw [h_rest, h_bytes, List.append_assoc]
      · -- the number fits the bytes it was read from, and is written on no more
        have h_lt := Bytes.ofBytes_lt bytes
        have h_six : 256 ^ length.toNat ≤ 256 ^ 6 := Nat.pow_le_pow_right (by omega) h_safe
        rw [h_length] at h_lt
        have h_size := (Writer.getUIntBufferSize_le_iff (by omega) h_pos).mpr h_lt
        have h_safe : length.toNat ≤ 6 := h_safe
        change (varNumber (Bytes.ofBytes bytes)).length ≤ ([length] ++ bytes).length
        rw [varNumber, varUInt, List.length_append, Bytes.length_toBytes, Writer.lengthPrefix,
          if_pos (by omega), Bytes.length_toBytes, List.length_append, List.length_singleton, h_length]
        omega
      · rw [Cursor.skip_skip, List.length_append, List.length_singleton]

/-- A list behind the number of its items. -/
theorem takes_readCounted {α : Type} {x : Action Reader OerError α} {Q : α → Prop} {enc : α → Buffer}
    (hx : Takes x (IsRewritable Q enc)) :
    Takes (readCounted x) (IsRewritable (fun as => ∀ a ∈ as, Q a) (counted enc)) := by
  -- the items, one after the other
  have h_items {parts : List Buffer} {as : List α} (h : List.Forall₂ (IsRewritable Q enc) parts as) :
      (∀ a ∈ as, Q a) ∧ (as.flatMap enc).length ≤ 3 * parts.flatten.length := by
    induction h with
    | nil => exact ⟨fun a h_mem => absurd h_mem List.not_mem_nil, Nat.zero_le _⟩
    | @cons part a parts as h_first _ ih =>
      obtain ⟨h_spec, h_length⟩ := ih
      have h_first_length := h_first.length_le
      refine ⟨fun b h_mem => ?_, ?_⟩
      · rcases List.mem_cons.mp h_mem with rfl | h_mem
        · exact h_first.spec
        · exact h_spec b h_mem
      · rw [List.flatMap_cons, List.flatten_cons, List.length_append, List.length_append]
        omega
  apply (takes_readVarUIntNumber.bind fun count => hx.readMany count).mono
  rintro _ as ⟨head, _, count, rfl, h_count, rfl, parts, rfl, h_parts⟩
  obtain ⟨h_spec, h_length⟩ := h_items h_parts
  refine ⟨h_spec, ?_⟩
  rw [counted, List.length_append, List.length_append]
  omega

theorem takes_readCcpRouteProp :
    Takes readCcpRouteProp (IsRewritable (fun prop => prop.id < 2 ^ 16) CcpRouteProp.bytes) := by
  apply ((takes_number 1).bind fun flags => (takes_number 2).bind fun id =>
    Reader.takes_readVarOctetString.bind fun value => Takes.pure (CcpRouteProp.mk
      (flags &&& 0x80 ≠ 0) (flags &&& 0x40 ≠ 0) (flags &&& 0x20 ≠ 0) id
      (if flags &&& 0x10 ≠ 0 then .utf8 (String.ofList (Utf8.decode value)) else .buffer value))).mono
  rintro _ prop ⟨b₁, _, flags, rfl, h_flags, b₂, _, id, rfl, h_id, _, _, value, rfl,
    ⟨lengthPrefix, rfl, h_first⟩, rfl, rfl⟩
  refine ⟨h_id.spec, ?_⟩
  have h_flags := h_flags.length_le
  have h_id := h_id.length_le
  -- only a text can become longer
  have h_value : (CcpRouteProp.valueBytes ⟨flags &&& 0x80 ≠ 0, flags &&& 0x40 ≠ 0, flags &&& 0x20 ≠ 0, id,
      if flags &&& 0x10 ≠ 0 then .utf8 (String.ofList (Utf8.decode value))
        else .buffer value⟩).length ≤ 3 * value.length := by
    unfold CcpRouteProp.valueBytes
    split
    · next h_eq =>
      split at h_eq
      · cases h_eq
      · cases h_eq
        omega
    · next h_eq =>
      split at h_eq
      · cases h_eq
        rw [String.toList_ofList]
        exact Utf8.length_encode_decode_le value
      · cases h_eq
  have h_octets := length_octets_le h_first h_value
  rw [Bytes.length_toBytes] at h_flags h_id
  rw [CcpRouteProp.bytes, List.append_nil]
  simp only [List.length_append, Bytes.length_toBytes] at h_octets ⊢
  omega

theorem takes_readCcpRoute : Takes readCcpRoute (IsRewritable CcpRoute.IsWellFormed CcpRoute.bytes) := by
  apply (takes_readAscii.bind fun routePrefix => (takes_readCounted takes_readAscii).bind fun path =>
    (Reader.takes_read 32).bind fun auth => (takes_readCounted takes_readCcpRouteProp).bind fun props =>
      Takes.pure (CcpRoute.mk routePrefix path auth props)).mono
  rintro _ route ⟨b₁, _, routePrefix, rfl, h_first, b₂, _, path, rfl, h_path, auth, _, _, rfl,
    ⟨h_auth, rfl⟩, b₃, _, props, rfl, h_props, rfl, rfl⟩
  refine ⟨⟨h_first.spec, h_path.spec, h_auth, h_props.spec⟩, ?_⟩
  have h_first := h_first.length_le
  have h_path := h_path.length_le
  have h_props := h_props.length_le
  rw [CcpRoute.bytes, List.append_nil]
  simp only [List.length_append]
  omega

/-- **Updates that are accepted.** -/
theorem takes_readCcpRouteUpdateRequest : Takes readCcpRouteUpdateRequest
    (IsRewritable CcpRouteUpdateRequest.HasWellFormedRoutes CcpRouteUpdateRequest.bytes) := by
  apply (takes_readUuid.bind fun routingTableId => (takes_number 4).bind fun currentEpochIndex =>
    (takes_number 4).bind fun fromEpochIndex => (takes_number 4).bind fun toEpochIndex =>
    (takes_number 4).bind fun holdDownTime => takes_readAscii.bind fun speaker =>
    (takes_readCounted takes_readCcpRoute).bind fun newRoutes =>
    (takes_readCounted takes_readUtf8).bind fun withdrawnRoutes =>
      Takes.pure (CcpRouteUpdateRequest.mk routingTableId currentEpochIndex fromEpochIndex toEpochIndex
        holdDownTime speaker newRoutes withdrawnRoutes)).mono
  rintro _ request ⟨b₁, _, routingTableId, rfl, h_id, b₂, _, currentEpochIndex, rfl, h_current,
    b₃, _, fromEpochIndex, rfl, h_from, b₄, _, toEpochIndex, rfl, h_to, b₅, _, holdDownTime, rfl, h_time,
    b₆, _, speaker, rfl, h_speaker, b₇, _, newRoutes, rfl, h_new, b₈, _, withdrawnRoutes, rfl, h_withdrawn,
    rfl, rfl⟩
  -- each field is within its bounds, and each is written on at most three times its bytes
  refine ⟨⟨h_id.spec, h_current.spec, h_from.spec, h_to.spec, h_time.spec, h_speaker.spec, h_new.spec⟩, ?_⟩
  have h_id := h_id.length_le
  have h_current := h_current.length_le
  have h_from := h_from.length_le
  have h_to := h_to.length_le
  have h_time := h_time.length_le
  have h_speaker := h_speaker.length_le
  have h_new := h_new.length_le
  have h_withdrawn := h_withdrawn.length_le
  rw [CcpRouteUpdateRequest.bytes, List.append_nil]
  simp only [List.length_append]
  omega

/-! ### Flags -/

/-- A program for each item of a list of images. -/
theorem writeCounted_map {α β : Type} {f : β → Action Writer OerError Unit} {g : α → β}
    {f' : α → Action Writer OerError Unit} (h : ∀ a, f (g a) = f' a) (as : List α) :
    writeCounted f (as.map g) = writeCounted f' as := by
  have h_each : Action.forEach f (as.map g) = Action.forEach f' as := by
    induction as with
    | nil => rfl
    | cons a as ih =>
      change (do f (g a); Action.forEach f (as.map g)) = (do f' a; Action.forEach f' as)
      rw [h, ih]
  rw [writeCounted, writeCounted, h_each, List.length_map]

/-- Normalised flags are written as they were. -/
theorem CcpRouteProp.write_normalize (prop : CcpRouteProp) : prop.normalize.write = prop.write := by
  have h_flags : prop.normalize.flags = prop.flags := by
    have h_utf8 : prop.normalize.isUtf8 = prop.isUtf8 := rfl
    unfold flags
    rw [h_utf8]
    unfold normalize
    cases prop.isOptional <;> cases prop.isTransitive <;> cases prop.isPartial <;> rfl
  unfold write
  rw [h_flags]
  rfl

theorem CcpRoute.write_normalize (route : CcpRoute) : route.normalize.write = route.write := by
  have h_props : writeCounted CcpRouteProp.write route.normalize.props =
      writeCounted CcpRouteProp.write route.props := writeCounted_map CcpRouteProp.write_normalize _
  unfold write
  rw [h_props]
  rfl

theorem CcpRouteUpdateRequest.write_normalize (request : CcpRouteUpdateRequest) :
    request.normalize.write = request.write := by
  have h_routes : writeCounted CcpRoute.write request.normalize.newRoutes =
      writeCounted CcpRoute.write request.newRoutes := writeCounted_map CcpRoute.write_normalize _
  unfold write
  rw [h_routes]
  rfl

/-! ### Relaying -/

/-- What is asked of an update that was read from a payload: it is serialized if a buffer that grows to
twice the size can hold it, which is at most three times that of the payload; what is serialized is read as
the update with the flags of its properties normalised; and that one is serialized to the same bytes. -/
structure CcpRouteUpdateRequest.Relays (request : CcpRouteUpdateRequest) (payload : Buffer) : Prop where
  length_le : request.bytes.length ≤ 3 * payload.length
  serializes : 2 * request.bytes.length ≤ kMaxLength →
    ∃ binary, serializeCcpRouteUpdateRequestPayload request = .ok binary
  deserializes : ∀ binary, serializeCcpRouteUpdateRequestPayload request = .ok binary →
    deserializeCcpRouteUpdateRequestPayload binary = .ok request.normalize
  stable : serializeCcpRouteUpdateRequestPayload request.normalize =
    serializeCcpRouteUpdateRequestPayload request

/-- The withdrawn routes consist of ASCII characters and replacement characters. -/
def CcpRouteUpdateRequest.WithdrawsAscii (request : CcpRouteUpdateRequest) : Prop :=
  ∀ route ∈ request.withdrawnRoutes, ∀ c ∈ route.toList, c.toNat < 0x80 ∨ c = Utf8.replacement

/-- **Relaying updates.** An update that was accepted is passed on with its flags normalised, and as it is
from then on. -/
theorem relays_normalized {payload : Buffer} {request : CcpRouteUpdateRequest}
    (h_size : payload.length ≤ kMaxLength)
    (h : deserializeCcpRouteUpdateRequestPayload payload = .ok request)
    (h_withdrawn : request.WithdrawsAscii) : request.Relays payload := by
  obtain ⟨bytes, more, rfl, h_request⟩ :=
    IlpPacket.exists_of_readFrom takes_readCcpRouteUpdateRequest h
  have h_appends := CcpRouteUpdateRequest.appends h_request.spec
  have h_length : request.bytes.length ≤ 3 * (bytes ++ more).length := by
    have h_bytes := h_request.length_le
    rw [List.length_append]
    omega
  refine ⟨h_length, fun h_room => ⟨_, getBuffer_eq h_appends h_room⟩, fun binary h_ok => ?_, ?_⟩
  · -- what was written is read back
    obtain rfl := eq_of_getBuffer h_appends h_ok
    have h_reads := CcpRouteUpdateRequest.reads h_request.spec
      (fun route h_mem => Utf8.decode_ascii_of_replacement (h_withdrawn route h_mem))
      (by unfold kMaxLength at h_size; omega)
    have h_found := IlpPacket.readFrom_of_reads h_reads []
    rwa [List.append_nil] at h_found
  · -- the flags of the routes are the ones that every writing gives
    change getBuffer request.normalize.write = getBuffer request.write
    rw [request.write_normalize]

/-- A route with a property of some flags, and a withdrawn route that is no text. -/
def flagsPayload (flags : UInt8) : Buffer :=
  List.replicate 33 0 ++ [1, 1, 0, 1, 0] ++ List.replicate 32 7 ++ [1, 1, flags, 0, 0, 0] ++ [1, 1, 1, 0xff]

/-- What is read from it. -/
def flagsRequest (isOptional isTransitive isPartial : Bool) : CcpRouteUpdateRequest where
  routingTableId := "00000000-0000-0000-0000-000000000000"
  currentEpochIndex := 0
  fromEpochIndex := 0
  toEpochIndex := 0
  holdDownTime := 0
  speaker := ""
  newRoutes := [⟨"", [], List.replicate 32 7, [⟨isOptional, isTransitive, isPartial, 0, .buffer []⟩]⟩]
  withdrawnRoutes := [String.ofList [Utf8.replacement]]

/-- A property that is optional and partial. -/
theorem relays_normalized_partial : (flagsRequest true false true).Relays (flagsPayload 0xa0) := by
  apply relays_normalized (by decide) (by decide +kernel)
  intro route h_route c h_mem
  rw [List.mem_singleton.mp h_route, String.toList_ofList] at h_mem
  exact .inr (List.mem_singleton.mp h_mem)

/-- **Flags that change**: a property that is neither optional nor transitive becomes transitive. -/
theorem relayed_flags_change :
    (flagsPayload 0).length ≤ kMaxLength ∧
      deserializeCcpRouteUpdateRequestPayload (flagsPayload 0) = .ok (flagsRequest false false false) ∧
      ∃ binary,
        serializeCcpRouteUpdateRequestPayload (flagsRequest false false false) = .ok binary ∧
          deserializeCcpRouteUpdateRequestPayload binary = .ok (flagsRequest false true false) ∧
          flagsRequest false true false ≠ flagsRequest false false false :=
  ⟨by decide, by decide +kernel, (flagsPayload 0x40).dropLast ++ [0xfd], by decide +kernel,
    by decide +kernel, by decide⟩

end Interledger.Ccp
