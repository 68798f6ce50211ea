import Interledger.IlpPacket.Errors
import Interledger.Pay.Controllers
import Interledger.Stream.Congestion
import Interledger.StreamReceiver.Sends

/-!
# Requests and their replies

`generateKeys` of `pay/src/request.ts` makes the function by which a sender of the package `pay` sends one
request: a STREAM packet is encrypted into an ILP Prepare, and of whatever becomes of it, a Reject is made if
nothing better came back. The receiver may be the stateless one of `stream-receiver`, which knows the shared
secret from the address.

Connectors change the amount and the expiry of a Prepare on its way. What they send back is up to them.

## Main results

* `request_is_answered` — between the two packages: when the receiver takes the money, and that the sender
  learns of each reply what the receiver has sent and the amount that has arrived;
* `heard_is_authentic` — whatever comes back, what a sender takes for the receiver's was made with the key,
  for this request;
* `heard_amountTooLarge` — what a node says that does not take the packet is understood.
-/

namespace Interledger.Pay

open Ilp (Buffer)
open Oer (OerError kMaxLength)
open Crypto (Iv)
open Interledger.Stream (Long Frame)
open IlpPacket (IlpPrepare isPrepare serializeIlpReply deserializeIlpReply)
open StreamReceiver (StreamServer longFromString)

/-! ### The request -/

/-- `StreamRequest`, less the log. -/
structure StreamRequest where
  destinationAddress : String
  expiresAt : IlpPacket.Date
  sequence : ℕ
  sourceAmount : ℕ
  minDestinationAmount : ℕ
  frames : List Frame
  isFulfillable : Bool

/-- `toLong`, `undefined` (`none`) for what does not fit. -/
def toLong (n : ℕ) : Option Long := if n > maxU64 then none else some (BitVec.ofNat 64 n)

section Keys

variable (crypto : Crypto) (sharedSecret : Buffer)

/-- `generateEncryptionKey`. -/
def generateEncryptionKey : Buffer := crypto.hmac sharedSecret (Utf8.encode "ilp_stream_encryption".toList)

/-- `generateFulfillmentKey`. -/
def generateFulfillmentKey : Buffer := crypto.hmac sharedSecret (Utf8.encode "ilp_stream_fulfillment".toList)

end Keys

/-- The Prepare that is sent, and its fulfillment, if the request is fulfillable. -/
structure Prepared where
  prepare : IlpPrepare
  fulfillment : Option Buffer

namespace StreamRequest

variable (request : StreamRequest)

/-- `streamRequest`. An amount that is `undefined` defaults to zero. -/
def packet : Stream.Packet where
  sequence := .fromNumber request.sequence
  ilpPacketType := .prepare
  prepareAmount := (toLong request.minDestinationAmount).getD 0
  frames := request.frames

/-- The part of the request function up to `serializeIlpPrepare`. The random condition is an argument. -/
def prepare (crypto : Crypto) (sharedSecret : Buffer) (iv : Iv) (randomBytes : Buffer) :
    Except OerError Prepared := do
  let data ← request.packet.serializeAndEncrypt crypto (generateEncryptionKey crypto sharedSecret) iv none
  let fulfillment :=
    if request.isFulfillable then some (crypto.hmac (generateFulfillmentKey crypto sharedSecret) data) else none
  let executionCondition :=
    match fulfillment with
    | some fulfillment => crypto.sha256 fulfillment
    | none => randomBytes
  return {
    prepare :=
      { destination := request.destinationAddress
        amount := toString request.sourceAmount
        executionCondition
        expiresAt := request.expiresAt
        data }
    fulfillment }

end StreamRequest

/-! ### The reply -/

/-- `createReject`. -/
def createReject (code : String) : IlpPacket.IlpReject := { code, message := "", triggeredBy := "", data := [] }

/-- What becomes of `sendData`: it resolves, or is rejected, or neither before the packet expires. -/
inductive SendData
  | resolved (data : Buffer)
  | rejected
  | timedOut

/-- `ilpReply`. -/
def SendData.ilpReply (fulfillment : Option Buffer) : SendData → IlpPacket.IlpReply
  | .resolved data =>
    match deserializeIlpReply data with
    | .error _ => .reject (createReject "F01")
    | .ok (.fulfill packet) =>
      match fulfillment with
      | none => .fulfill packet
      | some fulfillment =>
        if packet.fulfillment = fulfillment then .fulfill packet else .reject (createReject "F05")
    | .ok (.reject packet) => .reject packet
  | .rejected => .reject (createReject "T00")
  | .timedOut => .reject (createReject "R00")

/-- A code of three characters. -/
def errorCode (code : String) : Ilp.IlpErrorCode :=
  ⟨code.toList.getD 0 ' ', code.toList.getD 1 ' ', code.toList.getD 2 ' '⟩

/-- What the controllers look at in a reply. -/
def toIlpReply : IlpPacket.IlpReply → IlpReply
  | .fulfill _ => .fulfill
  | .reject packet => .reject { code := errorCode packet.code, data := packet.data }

namespace StreamRequest

variable (request : StreamRequest)

/-- `streamReply`, unless it is discarded: it must answer this request, and a receiver that claims to have
sent a Reject must not have sent a Fulfill. -/
def streamReply (crypto : Crypto) (sharedSecret : Buffer) (ilpReply : IlpPacket.IlpReply) : Option Stream.Packet :=
  match Stream.Packet.decryptAndDeserialize crypto (generateEncryptionKey crypto sharedSecret) ilpReply.data with
  | none => none
  | some streamReply =>
    if streamReply.sequence.equalsNumber request.sequence = false then none
    else if streamReply.ilpPacketType.code = Stream.IlpPacketType.reject.code ∧ ilpReply.isFulfill then none
    else some streamReply

/-- What the request function resolves to. -/
def heard (crypto : Crypto) (sharedSecret : Buffer) (prepared : Prepared) (sent : SendData) : StreamReply :=
  let ilpReply := sent.ilpReply prepared.fulfillment
  let streamReply := request.streamReply crypto sharedSecret ilpReply
  { ilpReply := toIlpReply ilpReply
    frames := streamReply.map (·.frames)
    destinationAmount := streamReply.map (·.prepareAmount.toNat) }

end StreamRequest

/-! ### The Prepare -/

/-- What a connector delivers of a Prepare: the amount and the expiry may be others. -/
structure Delivers (sent delivered : IlpPrepare) : Prop where
  destination : delivered.destination = sent.destination
  executionCondition : delivered.executionCondition = sent.executionCondition
  data : delivered.data = sent.data

section Prepared

variable {crypto : Crypto} {sharedSecret randomBytes : Buffer} {iv : Iv} {request : StreamRequest}
  {prepared : Prepared}

/-- What is known of the Prepare of a request. -/
structure StreamRequest.Prepares (request : StreamRequest) (crypto : Crypto) (sharedSecret : Buffer)
    (prepared : Prepared) : Prop where
  destination : prepared.prepare.destination = request.destinationAddress
  data : ∃ iv, prepared.prepare.data =
    crypto.sealed (generateEncryptionKey crypto sharedSecret) iv request.packet.bytes
  size : request.packet.bytes.length ≤ kMaxLength
  fulfillment : prepared.fulfillment =
    if request.isFulfillable then
      some (crypto.hmac (generateFulfillmentKey crypto sharedSecret) prepared.prepare.data)
    else none
  condition : ∀ fulfillment ∈ prepared.fulfillment, crypto.sha256 fulfillment = prepared.prepare.executionCondition

theorem StreamRequest.prepares_of_prepare (h : request.prepare crypto sharedSecret iv randomBytes = .ok prepared) :
    request.Prepares crypto sharedSecret prepared := by
  unfold StreamRequest.prepare at h
  obtain ⟨data, h_data, h⟩ := IlpPacket.eq_ok_of_bind_eq_ok h
  obtain rfl := Except.ok.inj h
  obtain ⟨h_size, padding, h_padding, h_sealed⟩ := Stream.Packet.sealed_of_serializeAndEncrypt h_data
  rw [h_padding rfl, List.append_nil] at h_sealed
  refine ⟨rfl, ⟨iv, h_sealed⟩, h_size, rfl, ?_⟩
  intro fulfillment h_mem
  cases h_fulfillable : request.isFulfillable with
  | true =>
    simp only [h_fulfillable, if_true] at h_mem ⊢
    rw [Option.some.inj h_mem]
  | false =>
    simp only [h_fulfillable, Bool.false_eq_true, if_false] at h_mem
    cases h_mem

end Prepared

/-! ### The reply of the receiver -/

/-- The receiver has what the request asks for. -/
structure StreamRequest.IsMet (request : StreamRequest) (crypto : Crypto) (sharedSecret : Buffer)
    (prepared : Prepared) (amount : Long) : Prop where
  frames : ∀ frame ∈ request.frames, StreamServer.isConnectionClose frame = false
  amount : request.packet.prepareAmount ≤ amount
  condition : request.isFulfillable = true ∨
    crypto.sha256 (crypto.hmac (generateFulfillmentKey crypto sharedSecret) prepared.prepare.data) =
      prepared.prepare.executionCondition

section Answered

variable {crypto : Crypto} {server : StreamServer} {details : StreamReceiver.ConnectionDetails} {sharedSecret randomBytes : Buffer}
  {iv replyIv : Iv} {request : StreamRequest} {prepared : Prepared} {delivered : IlpPrepare}

/-- The condition of a request that is fulfillable is met. -/
theorem StreamRequest.Prepares.condition_iff (h : request.Prepares crypto sharedSecret prepared) :
    crypto.sha256 (crypto.hmac (generateFulfillmentKey crypto sharedSecret) prepared.prepare.data) =
        prepared.prepare.executionCondition ↔
      request.isFulfillable = true ∨
        crypto.sha256 (crypto.hmac (generateFulfillmentKey crypto sharedSecret) prepared.prepare.data) =
          prepared.prepare.executionCondition := by
  constructor
  · exact .inr
  · rintro (h_fulfillable | h_condition)
    · apply h.condition
      rw [h.fulfillment, if_pos h_fulfillable]
      rfl
    · exact h_condition

/-- **The receiver knows the request**, and what it sends was built for it. -/
theorem StreamRequest.Prepares.isReceived (h : request.Prepares crypto sharedSecret prepared)
    (h_serves : server.Serves crypto request.destinationAddress details sharedSecret)
    (h_delivers : Delivers prepared.prepare delivered) (h_valid : isPrepare delivered = true) (replyIv : Iv) :
    (server.Accepts crypto delivered ↔ request.IsMet crypto sharedSecret prepared (longFromString delivered.amount)) ∧
      ∀ reply ilpReply added, server.createReply crypto delivered replyIv = .ok reply →
        reply.Sends crypto added ilpReply →
        StreamReceiver.Built crypto (generateEncryptionKey crypto sharedSecret) request.packet.sequence
          (longFromString delivered.amount) (StreamServer.replyFrames details request.packet ++ added)
          server.serverAddress
          (crypto.hmac (generateFulfillmentKey crypto sharedSecret) prepared.prepare.data) ilpReply := by
  -- the server finds the token in the address, and derives the same keys from it
  obtain ⟨token, h_token, h_details, h_secret, h_key, h_fulfillment⟩ := h_serves
  obtain ⟨segment, h_segment, rfl⟩ := Option.map_eq_some_iff.mp h_token
  obtain ⟨iv, h_sealed⟩ := h.data
  rw [← h.destination, ← h_delivers.destination] at h_segment
  have h_data : delivered.data = crypto.sealed (server.encryptionKey crypto (Base64.decode segment)) iv
      request.packet.bytes := by
    rw [h_delivers.data, h_sealed, h_key]
    rfl
  -- the receiver reads the packet of the request
  obtain ⟨found, h_read, h_fields⟩ : ∃ found, server.streamRequest crypto (Base64.decode segment) delivered.data =
      some found ∧ found.SameFields request.packet := by
    have h_size : (request.packet.bytes ++ []).length ≤ kMaxLength := by
      rw [List.append_nil]
      exact h.size
    obtain ⟨found, h_found, h_sequence, h_type, h_amount, h_frames⟩ :=
      Stream.Packet.isReadFrom request.packet.interleaves_frames [] h_size
    rw [List.append_nil] at h_found
    refine ⟨found, ?_, h_sequence, h_type, h_amount, h_frames⟩
    rw [StreamServer.streamRequest, h_data]
    have h_decrypt : StreamReceiver.decrypt crypto (server.encryptionKey crypto (Base64.decode segment))
        (crypto.sealed (server.encryptionKey crypto (Base64.decode segment)) iv request.packet.bytes) =
          some request.packet.bytes :=
      StreamReceiver.decrypt_encrypt _ iv _
    rw [h_decrypt, Option.bind_some]
    exact congrArg Except.toOption h_found
  -- it is authentic, and the fulfillment is the one that the condition was made of
  have h_authentic : server.Authenticates crypto delivered (Base64.decode segment) found := by
    rw [StreamServer.authenticates_iff]
    refine ⟨⟨segment, h_segment, rfl⟩, ?_, h_read, h_fields.type⟩
    rw [h_details]
    rfl
  have h_asked : server.fulfillment crypto (Base64.decode segment) delivered.data =
      crypto.hmac (generateFulfillmentKey crypto sharedSecret) prepared.prepare.data := by
    rw [h_fulfillment, h_delivers.data]
    rfl
  -- its checks say that the request is met
  have h_passes : server.Passes crypto delivered (Base64.decode segment) found ↔
      request.IsMet crypto sharedSecret prepared (longFromString delivered.amount) := by
    constructor
    · intro h_passes
      refine ⟨?_, ?_, ?_⟩
      · have h_frames := h_passes.frames
        rw [h_fields.frames] at h_frames
        exact h_frames
      · rw [← h_fields.prepareAmount]
        exact h_passes.amount
      · rw [← h.condition_iff, ← h_asked, ← h_delivers.executionCondition]
        exact h_passes.condition
    · intro h_met
      refine ⟨?_, ?_, ?_⟩
      · rw [h_fields.frames]
        exact h_met.frames
      · rw [h_fields.prepareAmount]
        exact h_met.amount
      · rw [h_asked, h_delivers.executionCondition, h.condition_iff]
        exact h_met.condition
  refine ⟨?_, ?_⟩
  · constructor
    · -- no other packet of it could be accepted
      rintro ⟨token', found', h_authentic', h_passes'⟩
      obtain ⟨rfl, rfl⟩ := h_authentic.unique h_authentic'
      exact h_passes.mp h_passes'
    · intro h_met
      exact ⟨_, _, h_authentic, h_passes.mpr h_met⟩
  · intro reply ilpReply added h_reply h_sends
    rw [StreamServer.createReply_eq_replyTo h_valid h_segment h_details h_read h_fields.type] at h_reply
    -- the reply carries the sequence and the frames of the request it read
    have h_built := StreamServer.built_of_replyTo ⟨rfl, rfl, rfl⟩ rfl h_reply h_sends
    rw [h_key, h_fields.sequence, h_asked] at h_built
    have h_frames : StreamServer.replyFrames details found = StreamServer.replyFrames details request.packet := by
      unfold StreamServer.replyFrames StreamServer.assetFrames
      rw [h_fields.frames]
    rw [h_frames] at h_built
    exact h_built

/-- **What a sender hears** of a packet that the receiver built for its request. -/
theorem StreamRequest.Prepares.heard_of_built {amount : Long} {frames : List Frame} {address : String}
    {ilpReply : IlpPacket.IlpReply} {binary : Buffer} (h : request.Prepares crypto sharedSecret prepared)
    (h_sequence : request.sequence < 2 ^ 32) (h_address : IlpPacket.isValidIlpAddress address = true)
    (h_built : StreamReceiver.Built crypto (generateEncryptionKey crypto sharedSecret) request.packet.sequence amount
      frames address (crypto.hmac (generateFulfillmentKey crypto sharedSecret) prepared.prepare.data) ilpReply)
    (h_binary : serializeIlpReply ilpReply = .ok binary) :
    request.heard crypto sharedSecret prepared (.resolved binary) =
      { ilpReply := toIlpReply ilpReply, frames := some frames, destinationAmount := some amount.toNat } := by
  -- the reply is read as it was written
  have h_read : deserializeIlpReply binary = .ok ilpReply := by
    apply IlpPacket.deserializeIlpReply_of_serialize _ h_binary
    rintro reject rfl
    exact h_built.isValid h_address
  obtain ⟨⟨found, h_found, h_same, h_type, h_amount, h_frames⟩, h_asked⟩ := h_built.says
  -- the fulfillment is what was asked for
  have h_reply : (SendData.resolved binary).ilpReply prepared.fulfillment = ilpReply := by
    rw [h.fulfillment]
    cases ilpReply with
    | reject reject => simp only [SendData.ilpReply, h_read]
    | fulfill fulfill =>
      simp only [SendData.ilpReply, h_read]
      cases request.isFulfillable with
      | false => rfl
      | true =>
        simp only [if_true]
        rw [if_pos (h_asked fulfill rfl)]
  -- it names the sequence of the request
  have h_equals : found.sequence.equalsNumber request.sequence = true := by
    have h_number : request.sequence < 2 ^ 64 := h_sequence.trans (by norm_num)
    have h_toNat : found.sequence.toNat = request.sequence := by
      rw [h_same]
      change (Long.fromNumber request.sequence).toNat = _
      unfold Long.fromNumber
      rw [if_neg (not_le.mpr h_number), BitVec.toNat_ofNat, Nat.mod_eq_of_lt h_number]
    unfold Long.equalsNumber
    rw [h_toNat, decide_eq_true_eq]
    omega
  -- a Fulfill does not carry a packet of type Reject
  have h_kept : ¬(found.ilpPacketType.code = Stream.IlpPacketType.reject.code ∧ ilpReply.isFulfill = true) := by
    rintro ⟨h_reject, h_fulfill⟩
    rw [h_type, if_pos h_fulfill] at h_reject
    exact absurd h_reject (by decide)
  unfold StreamRequest.heard
  simp only [h_reply]
  have h_stream : request.streamReply crypto sharedSecret ilpReply = some found := by
    unfold StreamRequest.streamReply
    rw [h_found]
    simp only [h_equals, Bool.true_eq_false, if_false, if_neg h_kept]
  rw [h_stream, ← h_amount, ← h_frames]
  rfl

/-- **Between a sender and the stateless receiver.** For an address that the server serves with the shared
secret, and whatever amount a connector delivers, there is a reply: the receiver takes the money if and only
if it has what the request asks for, and otherwise rejects it. Whatever its application does before it accepts
or declines, a packet that it sends back is heard as what it is, with the amount that was delivered and with
exactly the frames of the reply, those with the details of the asset among them, and those that the calls of
the application have added. -/
theorem request_is_answered (h_prepare : request.prepare crypto sharedSecret iv randomBytes = .ok prepared)
    (h_sequence : request.sequence < 2 ^ 32)
    (h_serves : server.Serves crypto request.destinationAddress details sharedSecret)
    (h_delivers : Delivers prepared.prepare delivered) (h_valid : isPrepare delivered = true) :
    ∃ reply, server.createReply crypto delivered replyIv = .ok reply ∧
      (reply.Pays crypto (longFromString delivered.amount) ↔
        request.IsMet crypto sharedSecret prepared (longFromString delivered.amount)) ∧
      ∀ ilpReply added binary, reply.Sends crypto added ilpReply → serializeIlpReply ilpReply = .ok binary →
        (ilpReply.isFulfill = true →
          request.IsMet crypto sharedSecret prepared (longFromString delivered.amount)) ∧
        request.heard crypto sharedSecret prepared (.resolved binary) =
          { ilpReply := toIlpReply ilpReply
            frames := some (StreamServer.replyFrames details request.packet ++ added)
            destinationAmount := some (longFromString delivered.amount).toNat } := by
  have h_prepares := StreamRequest.prepares_of_prepare h_prepare
  -- what the server accepts, and what it builds
  obtain ⟨h_accepts, h_built⟩ := h_prepares.isReceived h_serves h_delivers h_valid replyIv
  obtain ⟨reply, h_reply, h_pays, h_reject, -, -⟩ := StreamServer.createReply_spec crypto server replyIv h_valid
  -- a Reject pays nothing
  have h_not {packet : IlpPacket.IlpReject} (h : reply = .reject packet) :
      ¬reply.Pays crypto (longFromString delivered.amount) := by
    rw [h]
    exact id
  refine ⟨reply, h_reply, ?_, ?_⟩
  · rw [← h_accepts]
    refine ⟨fun h => ?_, h_pays⟩
    by_contra h_refused
    obtain ⟨packet, h_packet⟩ := h_reject h_refused
    exact h_not h_packet h
  · intro ilpReply added binary h_sends h_binary
    refine ⟨fun h_fulfill => ?_, ?_⟩
    · rw [← h_accepts]
      by_contra h_refused
      obtain ⟨packet, rfl⟩ := h_reject h_refused
      cases h_sends with
      | reject => exact Bool.false_ne_true h_fulfill
    · -- and the sender hears what was built
      exact h_prepares.heard_of_built h_sequence server.isValid (h_built reply ilpReply added h_reply h_sends) h_binary

end Answered

/-- A request of four units, for ten. -/
def Sample.request : StreamRequest where
  destinationAddress := "test.receiver." ++ StreamReceiver.base64url StreamReceiver.Sample.token
  expiresAt := StreamReceiver.Sample.prepare.expiresAt
  sequence := 3
  sourceAmount := 10
  minDestinationAmount := 4
  frames := [.streamMoney 1 1]
  isFulfillable := true

/-- The shared secret of its address. -/
def Sample.sharedSecret : Buffer :=
  StreamReceiver.Sample.server.sharedSecret StreamReceiver.Sample.crypto StreamReceiver.Sample.token

/-- The request is sent, and may arrive with five units. -/
theorem Sample.exists_prepared : ∃ prepared, Sample.request.prepare StreamReceiver.Sample.crypto Sample.sharedSecret
      StreamReceiver.Sample.iv [] = .ok prepared ∧
    isPrepare { prepared.prepare with amount := "5" } = true := by
  have h_ok : ((Sample.request.prepare StreamReceiver.Sample.crypto Sample.sharedSecret
      StreamReceiver.Sample.iv []).toOption.map fun prepared =>
        isPrepare { prepared.prepare with amount := "5" }) = some true := by
    decide +kernel
  obtain ⟨prepared, h_some, h_valid⟩ := Option.map_eq_some_iff.mp h_ok
  refine ⟨prepared, ?_, h_valid⟩
  cases h : Sample.request.prepare StreamReceiver.Sample.crypto Sample.sharedSecret StreamReceiver.Sample.iv [] with
  | error e =>
    rw [h] at h_some
    cases h_some
  | ok found =>
    rw [h] at h_some
    exact congrArg Except.ok (Option.some.inj h_some)

/-- The receiver takes the five units that are left, and whatever it sends says so. -/
theorem request_is_answered_sample :
    ∃ prepared reply, Sample.request.prepare StreamReceiver.Sample.crypto Sample.sharedSecret
        StreamReceiver.Sample.iv [] = .ok prepared ∧
      StreamReceiver.Sample.server.createReply StreamReceiver.Sample.crypto { prepared.prepare with amount := "5" }
        StreamReceiver.Sample.iv = .ok reply ∧ reply.Pays StreamReceiver.Sample.crypto 5 ∧
      ∀ ilpReply added binary, reply.Sends StreamReceiver.Sample.crypto added ilpReply →
        serializeIlpReply ilpReply = .ok binary →
        Sample.request.heard StreamReceiver.Sample.crypto Sample.sharedSecret prepared (.resolved binary) =
          { ilpReply := toIlpReply ilpReply, frames := some added, destinationAmount := some 5 } := by
  obtain ⟨prepared, h_prepare, h_valid⟩ := Sample.exists_prepared
  have h_serves : StreamReceiver.Sample.server.Serves StreamReceiver.Sample.crypto Sample.request.destinationAddress {}
      Sample.sharedSecret :=
    ⟨StreamReceiver.Sample.token, by decide +kernel, by decide +kernel, rfl, rfl, fun _ => rfl⟩
  have h_amount : longFromString "5" = 5 := by decide +kernel
  have h_delivers : Delivers prepared.prepare { prepared.prepare with amount := "5" } := ⟨rfl, rfl, rfl⟩
  obtain ⟨reply, h_reply, h_pays, h_heard⟩ := request_is_answered h_prepare (by decide) h_serves h_delivers h_valid
  simp only [h_amount] at h_pays h_heard
  refine ⟨prepared, reply, h_prepare, h_reply, h_pays.mpr ⟨?_, by decide, .inl rfl⟩, ?_⟩
  · intro frame h_frame
    rw [List.mem_singleton.mp h_frame]
    rfl
  · intro ilpReply added binary h_sends h_binary
    exact (h_heard ilpReply added binary h_sends h_binary).2

/-! ### Whatever comes back -/

section Authentic

variable {crypto : Crypto} {sharedSecret randomBytes : Buffer} {iv : Iv} {request : StreamRequest}
  {prepared : Prepared}

/-- A Fulfill is what was sent back, and has the fulfillment that was asked for. -/
theorem SendData.ilpReply_eq_fulfill {fulfillment : Option Buffer} {sent : SendData} {packet : IlpPacket.IlpFulfill}
    (h : sent.ilpReply fulfillment = .fulfill packet) :
    ∃ data, sent = .resolved data ∧ deserializeIlpReply data = .ok (.fulfill packet) ∧
      ∀ asked ∈ fulfillment, packet.fulfillment = asked := by
  cases sent with
  | rejected => cases h
  | timedOut => cases h
  | resolved data =>
    simp only [SendData.ilpReply] at h
    cases h_read : deserializeIlpReply data with
    | error e =>
      rw [h_read] at h
      cases h
    | ok found =>
      rw [h_read] at h
      cases found with
      | reject found => cases h
      | fulfill found =>
        -- a fulfillment other than the one asked for makes it a Reject
        cases fulfillment with
        | none =>
          obtain rfl := IlpPacket.IlpReply.fulfill.inj h
          exact ⟨data, rfl, h_read, by simp⟩
        | some asked =>
          simp only at h
          split at h
          · next h_asked =>
            obtain rfl := IlpPacket.IlpReply.fulfill.inj h
            refine ⟨data, rfl, h_read, fun asked' h_asked' => ?_⟩
            rw [← Option.some.inj h_asked']
            exact h_asked
          · cases h

/-- Without data there is no STREAM reply. -/
theorem StreamRequest.streamReply_of_empty {ilpReply : IlpPacket.IlpReply} (h : ilpReply.data = []) :
    request.streamReply crypto sharedSecret ilpReply = none := by
  unfold StreamRequest.streamReply
  rw [h]
  rfl

/-- A STREAM reply answers the request, and does not claim to have rejected what was fulfilled. -/
theorem StreamRequest.of_streamReply {ilpReply : IlpPacket.IlpReply} {found : Stream.Packet}
    (h_sequence : request.sequence < 2 ^ 32) (h : request.streamReply crypto sharedSecret ilpReply = some found) :
    Stream.Packet.decryptAndDeserialize crypto (generateEncryptionKey crypto sharedSecret) ilpReply.data = some found ∧
      found.sequence.toNat = request.sequence ∧
      ¬(found.ilpPacketType.code = Stream.IlpPacketType.reject.code ∧ ilpReply.isFulfill = true) := by
  unfold StreamRequest.streamReply at h
  cases h_found : Stream.Packet.decryptAndDeserialize crypto (generateEncryptionKey crypto sharedSecret)
      ilpReply.data with
  | none =>
    rw [h_found] at h
    cases h
  | some streamReply =>
    rw [h_found] at h
    simp only at h
    split_ifs at h with h_other h_lied
    obtain rfl := Option.some.inj h
    refine ⟨rfl, ?_, h_lied⟩
    have h_equals := of_decide_eq_true (Bool.not_eq_false _ ▸ h_other)
    omega

/-- A reply with data is what was sent back. -/
theorem SendData.ilpReply_of_data {fulfillment : Option Buffer} {sent : SendData}
    (h : (sent.ilpReply fulfillment).data ≠ []) :
    ∃ data, sent = .resolved data ∧ deserializeIlpReply data = .ok (sent.ilpReply fulfillment) := by
  cases sent with
  | rejected => exact absurd rfl h
  | timedOut => exact absurd rfl h
  | resolved data =>
    refine ⟨data, rfl, ?_⟩
    simp only [SendData.ilpReply] at h ⊢
    cases h_read : deserializeIlpReply data with
    | error e =>
      rw [h_read] at h
      exact absurd rfl h
    | ok found =>
      rw [h_read] at h
      cases found with
      | reject packet => rfl
      | fulfill packet =>
        cases fulfillment with
        | none => rfl
        | some asked =>
          simp only at h ⊢
          split_ifs at h ⊢ with h_asked
          · rfl
          · exact absurd rfl h

/-- **Whatever comes back.** A Fulfill of a request that is fulfillable has the preimage of the condition. What
is heard of an amount and of frames was encrypted under the key of the connection, in a packet for this request,
which does not claim that a Fulfill was a Reject. -/
theorem heard_is_authentic (h_prepare : request.prepare crypto sharedSecret iv randomBytes = .ok prepared)
    (h_sequence : request.sequence < 2 ^ 32)
    (h_keeps : ∀ key iv encrypted tag plaintext, crypto.decipher key iv encrypted tag = some plaintext →
      plaintext.length = encrypted.length)
    (sent : SendData) :
    ((request.heard crypto sharedSecret prepared sent).isFulfill = true →
      ∃ binary packet, sent = .resolved binary ∧ deserializeIlpReply binary = .ok (.fulfill packet) ∧
        (request.isFulfillable = true → crypto.sha256 packet.fulfillment = prepared.prepare.executionCondition)) ∧
    (∀ amount ∈ (request.heard crypto sharedSecret prepared sent).destinationAmount,
      ∃ binary ilpReply iv plaintext found, sent = .resolved binary ∧ deserializeIlpReply binary = .ok ilpReply ∧
        ilpReply.data = crypto.sealed (generateEncryptionKey crypto sharedSecret) iv plaintext ∧
        Stream.Packet.deserializeUnencrypted plaintext = .ok found ∧
        found.sequence.toNat = request.sequence ∧
        (found.ilpPacketType.code = Stream.IlpPacketType.reject.code →
          (request.heard crypto sharedSecret prepared sent).isFulfill = false) ∧
        amount = found.prepareAmount.toNat ∧
        (request.heard crypto sharedSecret prepared sent).frames = some found.frames) := by
  have h_prepares := StreamRequest.prepares_of_prepare h_prepare
  -- what is heard is a Fulfill if the ILP reply is one
  obtain ⟨ilpReply, h_ilpReply⟩ : ∃ ilpReply, sent.ilpReply prepared.fulfillment = ilpReply := ⟨_, rfl⟩
  have h_isFulfill : (request.heard crypto sharedSecret prepared sent).isFulfill = ilpReply.isFulfill := by
    unfold StreamRequest.heard
    rw [h_ilpReply]
    cases ilpReply with
    | fulfill packet => rfl
    | reject packet => rfl
  rw [h_isFulfill]
  refine ⟨fun h => ?_, ?_⟩
  · cases ilpReply with
    | reject packet => cases h
    | fulfill packet =>
      -- which was checked against the condition
      obtain ⟨binary, h_sent, h_read, h_asked⟩ := SendData.ilpReply_eq_fulfill h_ilpReply
      refine ⟨binary, packet, h_sent, h_read, fun h_fulfillable => ?_⟩
      apply h_prepares.condition
      rw [h_prepares.fulfillment, if_pos h_fulfillable] at h_asked ⊢
      exact congrArg some (h_asked _ rfl).symm
  · intro amount h_amount
    have h_heard : (request.streamReply crypto sharedSecret ilpReply).map (·.prepareAmount.toNat) = some amount := by
      rw [← h_ilpReply]
      exact h_amount
    -- an amount comes from a STREAM packet that decrypts
    obtain ⟨found, h_found, rfl⟩ := Option.map_eq_some_iff.mp h_heard
    obtain ⟨h_decrypt, h_same, h_lied⟩ := StreamRequest.of_streamReply h_sequence h_found
    have h_data : ilpReply.data ≠ [] := by
      intro h_empty
      rw [StreamRequest.streamReply_of_empty h_empty] at h_found
      cases h_found
    rw [← h_ilpReply] at h_data
    obtain ⟨binary, h_sent, h_read⟩ := SendData.ilpReply_of_data h_data
    rw [h_ilpReply] at h_read
    -- the data has a whole tag, and so it was encrypted under the key
    have h_long := Stream.Packet.encryptionOverhead_le_length h_keeps h_decrypt
    obtain ⟨iv, plaintext, h_sealed, h_packet⟩ :=
      (Stream.Packet.decryptAndDeserialize_eq_some h_long).mp h_decrypt
    refine ⟨binary, ilpReply, iv, plaintext, found, h_sent, h_read, h_sealed, h_packet, h_same, ?_, rfl, ?_⟩
    · intro h_reject
      exact Bool.eq_false_iff.mpr fun h_fulfill => h_lied ⟨h_reject, h_fulfill⟩
    · unfold StreamRequest.heard
      simp only [h_ilpReply, h_found]
      rfl

/-- The functions of the example keep the length. -/
theorem Sample.keepsLength (key iv encrypted tag plaintext : Buffer)
    (h : StreamReceiver.Sample.crypto.decipher key iv encrypted tag = some plaintext) :
    plaintext.length = encrypted.length := by
  obtain ⟨-, h_same⟩ := Option.ite_none_right_eq_some.mp h
  rw [Option.some.inj h_same]

/-- Whatever comes back for the request above, a Fulfill is for its condition. -/
theorem heard_is_authentic_sample : ∃ prepared, Sample.request.prepare StreamReceiver.Sample.crypto
      Sample.sharedSecret StreamReceiver.Sample.iv [] = .ok prepared ∧
    ∀ binary, (Sample.request.heard StreamReceiver.Sample.crypto Sample.sharedSecret prepared
        (.resolved binary)).isFulfill = true →
      ∃ packet, deserializeIlpReply binary = .ok (.fulfill packet) ∧
        StreamReceiver.Sample.crypto.sha256 packet.fulfillment = prepared.prepare.executionCondition := by
  obtain ⟨prepared, h_prepare, -⟩ := Sample.exists_prepared
  refine ⟨prepared, h_prepare, fun binary h_fulfill => ?_⟩
  obtain ⟨h_heard, -⟩ := heard_is_authentic h_prepare (by decide) Sample.keepsLength (.resolved binary)
  obtain ⟨binary', packet, h_sent, h_read, h_condition⟩ := h_heard h_fulfill
  obtain rfl := SendData.resolved.inj h_sent
  exact ⟨packet, h_read, h_condition rfl⟩

/-- **A node that takes less is understood.** What it says with an `AmountTooLargeError` is heard as that, without
a STREAM reply, and both controllers of packet amounts find the two amounts in the data. -/
theorem heard_amountTooLarge {received maximum : ℕ} {address message : String} {error : IlpPacket.IlpErrorClass}
    {binary : Buffer}
    (h_keeps : ∀ key iv encrypted tag plaintext, crypto.decipher key iv encrypted tag = some plaintext →
      plaintext.length = encrypted.length)
    (h_received : received < 2 ^ 64) (h_maximum : maximum < 2 ^ 64)
    (h_address : IlpPacket.isValidIlpAddress address = true)
    (h_error : (IlpPacket.IlpErrorKind.amountTooLarge (toString received) (toString maximum)).construct message =
      .ok error)
    (h_reject : IlpPacket.errorToReject address error = .ok binary) :
    ∃ data, request.heard crypto sharedSecret prepared (.resolved binary) =
        { ilpReply := .reject ⟨.f08AmountTooLarge, data⟩, frames := none, destinationAmount := none } ∧
      MaxPacketAmountController.readF08 data = some (received, maximum) ∧
      Stream.CongestionController.receivedAndMaximumAmount data =
        some (BitVec.ofNat 64 received, BitVec.ofNat 64 maximum) := by
  -- the Reject is read with the data that the error was made with
  obtain ⟨found, h_found, h_read⟩ := IlpPacket.errorToReject_is_read h_address h_error h_reject
  obtain ⟨data, h_data, rfl⟩ : ∃ data,
      IlpPacket.IlpErrorKind.amountTooLargeData (toString received) (toString maximum) = .ok data ∧ some data = found :=
    IlpPacket.eq_ok_of_map_eq_ok h_found
  obtain ⟨h_length, rest, h_first, h_second⟩ := IlpPacket.readUInt64_amountTooLarge h_received h_maximum h_data
  have h_reply : (SendData.resolved binary).ilpReply prepared.fulfillment =
      .reject { code := "F08", triggeredBy := address, message := message, data := data } := by
    simp only [SendData.ilpReply, h_read]
    rfl
  -- the data is too short for a STREAM packet
  have h_none : request.streamReply crypto sharedSecret
      (.reject { code := "F08", triggeredBy := address, message := message, data := data }) = none := by
    cases h_stream : request.streamReply crypto sharedSecret
        (.reject { code := "F08", triggeredBy := address, message := message, data := data }) with
    | none => rfl
    | some streamReply =>
      unfold StreamRequest.streamReply at h_stream
      cases h_decrypt : Stream.Packet.decryptAndDeserialize crypto (generateEncryptionKey crypto sharedSecret) data with
      | none =>
        simp only [IlpPacket.IlpReply.data, h_decrypt] at h_stream
        cases h_stream
      | some packet =>
        have h_long := Stream.Packet.encryptionOverhead_le_length h_keeps h_decrypt
        rw [h_length] at h_long
        exact absurd h_long (by decide)
  refine ⟨data, ?_, ?_, ?_⟩
  · have h_code : errorCode "F08" = .f08AmountTooLarge := by decide
    unfold StreamRequest.heard
    simp only [h_reply, h_none, toIlpReply, h_code]
    rfl
  · unfold MaxPacketAmountController.readF08
    rw [h_first, Option.bind_some]
    simp only [h_second, Option.map_some]
  · unfold Stream.CongestionController.receivedAndMaximumAmount
    rw [h_first]
    change ((Ilp.readUInt64 rest).bind fun p => some (BitVec.ofNat 64 received, BitVec.ofNat 64 p.1)) = _
    rw [h_second]
    rfl

/-- A node takes a thousand of the million units that have reached it. -/
theorem heard_amountTooLarge_thousand : ∃ binary data, Sample.request.heard StreamReceiver.Sample.crypto
      Sample.sharedSecret ⟨StreamReceiver.Sample.prepare, none⟩ (.resolved binary) =
        { ilpReply := .reject ⟨.f08AmountTooLarge, data⟩, frames := none, destinationAmount := none } ∧
    MaxPacketAmountController.readF08 data = some (1000000, 1000) := by
  have h_ok : ((IlpPacket.IlpErrorKind.amountTooLarge (toString 1000000) (toString 1000)).construct "too large" >>=
      IlpPacket.errorToReject "g.connector").isOk = true := by
    decide +kernel
  cases h_error : (IlpPacket.IlpErrorKind.amountTooLarge (toString 1000000) (toString 1000)).construct "too large" with
  | error e =>
    rw [h_error] at h_ok
    cases h_ok
  | ok error =>
    cases h_reject : IlpPacket.errorToReject "g.connector" error with
    | error e =>
      rw [h_error, IlpPacket.ok_bind, h_reject] at h_ok
      cases h_ok
    | ok binary =>
      obtain ⟨data, h_heard, h_read, -⟩ := heard_amountTooLarge Sample.keepsLength (by decide) (by decide)
        (by decide +kernel) h_error h_reject
      exact ⟨binary, data, h_heard, h_read⟩

end Authentic

end Interledger.Pay
