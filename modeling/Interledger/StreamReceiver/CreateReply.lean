import Interledger.Stream.Receipt
import Interledger.StreamReceiver.Credentials

/-!
# Replies of the stateless receiver

`createReply` of `stream-receiver/src/index.ts`. One check follows the other: the address, the token in it,
the data, the frames, the amount and the condition. Until the data has turned out to be authentic, replies
carry none; from then on, all of them say what was requested and received. A packet with money is left to
the application, which may report totals and decline before it accepts.

## Main results

* `StreamServer.createReply_spec` — what a reply is for a packet that is accepted, and for any other;
* `createReply_decides` — a packet is paid for if and only if all the checks pass, and what the replies
  carry.
-/

namespace Interledger.StreamReceiver

open Ilp (Buffer)
open Oer (OerError kMaxLength octets)
open Crypto (Iv)
open Interledger.Stream (Long Frame)
open IlpPacket (IlpPrepare IlpFulfill IlpReject isPrepare)

/-- `IncomingMoney`, with what its functions have in scope. -/
structure IncomingMoney where
  connectionId : String
  paymentTag : Option String
  receiptSetup : Option ReceiptSetup
  reply : ReplyBuilder
  fulfillment : Buffer
  deriving DecidableEq

/-- What `createReply` returns. -/
inductive Reply
  | fulfill (packet : IlpFulfill)
  | reject (packet : IlpReject)
  | incoming (money : IncomingMoney)
  deriving DecidableEq

/-- The frame that closes a connection. -/
def closeFrame : Frame := .connectionClose Stream.ErrorCode.noError ""

namespace IncomingMoney

variable (crypto : Crypto) (money : IncomingMoney)

/-- `writeUInt8` of a number that is not negative. -/
def writeUInt8 (n : ℕ) : Except String UInt8 :=
  if n < 256 then .ok (UInt8.ofNat n) else .error "UInt cannot fit in given length"

/-- `setTotalReceived`. -/
def setTotalReceived (totalReceived : Long) : Except String IncomingMoney :=
  match money.receiptSetup with
  | none => .ok money
  | some setup =>
    (Stream.createReceipt writeUInt8 crypto.hmac setup.nonce setup.secret 1 totalReceived).map fun receipt =>
      { money with reply := money.reply.addFrames [.streamReceipt 1 receipt] }

/-- `accept`. -/
def accept (iv : Iv) : Except OerError IlpFulfill := money.reply.buildFulfill crypto iv money.fulfillment

/-- `temporaryDecline`. -/
def temporaryDecline (iv : Iv) : Except OerError IlpReject := money.reply.buildReject crypto iv "T00"

/-- `finalDecline`, of which the frame stays. -/
def finalDecline (iv : Iv) : IncomingMoney × Except OerError IlpReject :=
  let money := { money with reply := money.reply.addFrames [closeFrame] }
  (money, money.reply.buildReject crypto iv "F99")

/-- A call of one of the functions. -/
inductive Call
  | setTotalReceived (totalReceived : Long)
  | accept (iv : Iv)
  | temporaryDecline (iv : Iv)
  | finalDecline (iv : Iv)

/-- After a call. One that throws has done nothing. -/
def after (money : IncomingMoney) : Call → IncomingMoney
  | .setTotalReceived totalReceived => ((money.setTotalReceived crypto totalReceived).toOption).getD money
  | .accept _ | .temporaryDecline _ => money
  | .finalDecline iv => (money.finalDecline crypto iv).1

/-- After some calls. -/
def afterAll (calls : List Call) : IncomingMoney := calls.foldl (after crypto) money

/-- The frames that a call adds: the receipt for a total, if there is one, and the close. -/
def added : Call → List Frame
  | .setTotalReceived totalReceived =>
    match money.receiptSetup with
    | none => []
    | some setup =>
      match Stream.createReceipt writeUInt8 crypto.hmac setup.nonce setup.secret 1 totalReceived with
      | .error _ => []
      | .ok receipt => [.streamReceipt 1 receipt]
  | .accept _ | .temporaryDecline _ => []
  | .finalDecline _ => [closeFrame]

end IncomingMoney

namespace StreamServer

variable (crypto : Crypto) (server : StreamServer)

/-- `sharedSecret` in `createReply`. -/
def sharedSecret (token : Buffer) : Buffer := crypto.hmac server.sharedSecretKeyGen token

/-- `encryptionKey` in `createReply`. -/
def encryptionKey (token : Buffer) : Buffer :=
  crypto.hmac (server.sharedSecret crypto token) (Utf8.encode "ilp_stream_encryption".toList)

/-- `fulfillment` in `createReply`. -/
def fulfillment (token data : Buffer) : Buffer :=
  crypto.hmac (crypto.hmac (server.sharedSecret crypto token) (Utf8.encode "ilp_stream_fulfillment".toList)) data

/-- `streamRequest` in `createReply`, unless the data does not decrypt or is no packet. -/
def streamRequest (token data : Buffer) : Option Stream.Packet :=
  (decrypt crypto (server.encryptionKey crypto token) data).bind fun plaintext =>
    (Stream.Packet.deserializeUnencrypted plaintext).toOption

/-- The frame is a `ConnectionClose`. -/
def isConnectionClose : Frame → Bool
  | .connectionClose .. => true
  | _ => false

/-- The frame is a `ConnectionNewAddress`. -/
def isConnectionNewAddress : Frame → Bool
  | .connectionNewAddress .. => true
  | _ => false

/-- The asset details that go along with the reply to a new client. -/
def assetFrames (details : ConnectionDetails) (streamRequest : Stream.Packet) : List Frame :=
  match details.asset with
  | some asset =>
    if streamRequest.frames.any isConnectionNewAddress then
      [.connectionAssetDetails asset.code (UInt8.ofNat asset.scale)]
    else []
  | none => []

/-- `createReply` from where the request is known to be authentic. -/
def replyTo (prepare : IlpPrepare) (token : Buffer) (details : ConnectionDetails)
    (streamRequest : Stream.Packet) (reply : ReplyBuilder) (iv : Iv) : Except OerError Reply :=
  if streamRequest.frames.any isConnectionClose then
    .reject <$> (reply.addFrames [closeFrame]).buildReject crypto iv "F99"
  else
    let reply := reply.addFrames (assetFrames details streamRequest)
    let receivedAmount := longFromString prepare.amount
    let fulfillment := server.fulfillment crypto token prepare.data
    if ¬receivedAmount ≥ streamRequest.prepareAmount then .reject <$> reply.buildReject crypto iv "F99"
    else if crypto.sha256 fulfillment ≠ prepare.executionCondition then
      .reject <$> reply.buildReject crypto iv "F99"
    else if receivedAmount = 0 then .fulfill <$> reply.buildFulfill crypto iv fulfillment
    else
      .ok (.incoming
        { connectionId :=
            String.ofList (Hex.encode (crypto.sha256 (Ascii.encode prepare.destination.toList)))
          paymentTag := details.paymentTag
          receiptSetup := details.receiptSetup
          reply := reply
          fulfillment := fulfillment })

/-- `createReply`. -/
def createReply (prepare : IlpPrepare) (iv : Iv) : Except OerError Reply :=
  let reply : ReplyBuilder := { ilpAddress := server.serverAddress }
  match server.extractLocalAddressSegment prepare.destination with
  | none => .reject <$> reply.buildReject crypto iv "F02"
  | some localSegment =>
    let token := Base64.decode localSegment
    match server.decryptToken crypto token with
    | none => .reject <$> reply.buildReject crypto iv "F06"
    | some details =>
      match server.streamRequest crypto token prepare.data with
      | none => .reject <$> reply.buildReject crypto iv "F06"
      | some streamRequest =>
        if streamRequest.ilpPacketType.code ≠ Stream.IlpPacketType.prepare.code then
          .reject <$> reply.buildReject crypto iv "F00"
        else do
          let reply ← { reply with
            encryptionKey := some (server.encryptionKey crypto token)
            sequence := streamRequest.sequence }.setReceivedAmount prepare.amount
          server.replyTo crypto prepare token details streamRequest reply iv

end StreamServer

/-! ### How long the replies are -/

theorem length_varUInt_le {k : ℕ} (hk : k ≤ 8) (n : ℕ) : (Oer.varUInt k n).length ≤ 9 := by
  rw [Oer.varUInt, List.length_append, Bytes.length_toBytes, ← Oer.measureVarOctetString_eq]
  unfold Oer.Predictor.measureVarOctetString
  rw [if_neg (by omega)]
  omega

theorem length_octets_le (bytes : Buffer) (h : bytes.length < 2 ^ 53) :
    (octets bytes).length ≤ bytes.length + 8 := by
  have h_size := Oer.Writer.getUIntBufferSize_le h
  rw [Oer.length_octets]
  unfold Oer.Predictor.measureVarOctetString
  split
  · omega
  · omega

theorem length_frame_le (frame : Frame) (h : frame.contents.length < 2 ^ 53) :
    frame.bytes.length ≤ frame.contents.length + 9 := by
  have h_octets := length_octets_le frame.contents h
  rw [octets, List.length_append] at h_octets
  rw [Frame.bytes, IlpPacket.envelope, List.length_append, List.length_append, Bytes.length_toBytes]
  omega

/-- A packet is not much longer than its frames. -/
theorem length_packet_le (packet : Stream.Packet) (h : packet.frames.length < 2 ^ 53) :
    packet.bytes.length ≤ (packet.frames.flatMap Frame.bytes).length + 29 := by
  have h_sequence := length_varUInt_le (Oer.byteCount_le packet.sequence) packet.sequence.toNat
  have h_amount := length_varUInt_le (Oer.byteCount_le packet.prepareAmount) packet.prepareAmount.toNat
  have h_size : Oer.getUIntBufferSize packet.frames.length ≤ 8 :=
    (Oer.Writer.getUIntBufferSize_le h).trans (by omega)
  have h_count := length_varUInt_le h_size packet.frames.length
  have h_frames : ((packet.frames.map Stream.Item.frame).flatMap Stream.Item.bytes).length =
      (packet.frames.flatMap Frame.bytes).length :=
    congrArg List.length (List.flatMap_map ..)
  rw [Stream.Packet.bytes, Stream.Packet.bytesWith, List.length_append, List.length_append, List.length_append,
    List.length_append, List.length_append, Bytes.length_toBytes, Bytes.length_toBytes, List.length_map, h_frames]
  unfold Oer.varLong Oer.varNumber
  omega

/-- The reply that closes a connection is short, -/
theorem length_closeFrame : closeFrame.bytes.length = 4 := by decide +kernel

/-- and so is one with the details of an asset. -/
theorem length_assetFrames_le {details : ConnectionDetails} (streamRequest : Stream.Packet) {n : ℕ}
    (h : ∀ asset ∈ details.asset, (Utf8.encode asset.code.toList).length ≤ n) (hn : n < 2 ^ 52) :
    ((StreamServer.assetFrames details streamRequest).flatMap Frame.bytes).length ≤ n + 18 ∧
      (StreamServer.assetFrames details streamRequest).length ≤ 1 := by
  unfold StreamServer.assetFrames
  split
  · next asset h_asset =>
    have h_code := h asset h_asset
    have h_octets := length_octets_le (Utf8.encode asset.code.toList) (by omega)
    split
    · have h_contents : (Frame.connectionAssetDetails asset.code (UInt8.ofNat asset.scale)).contents.length =
          (octets (Utf8.encode asset.code.toList)).length + 1 := by
        change (octets _ ++ (Bytes.toBytes 1 _ ++ [])).length = _
        rw [List.append_nil, List.length_append, Bytes.length_toBytes]
      have h_frame := length_frame_le (.connectionAssetDetails asset.code (UInt8.ofNat asset.scale)) (by omega)
      rw [List.flatMap_cons, List.flatMap_nil, List.append_nil]
      exact ⟨by omega, le_rfl⟩
    · exact ⟨Nat.zero_le _, Nat.zero_le _⟩
  · exact ⟨Nat.zero_le _, Nat.zero_le _⟩

/-! ### What is accepted, and what a reply says -/

namespace StreamServer

variable (server : StreamServer) (crypto : Crypto) (prepare : IlpPrepare)

/-- The packet has data that is a request under the key of a token of the server, which is in its
address. -/
structure Authenticates (token : Buffer) (streamRequest : Stream.Packet) : Prop where
  destination : ∃ segment more, segment ≠ [] ∧ '.' ∉ segment ∧
    prepare.destination.toList = server.serverAddress.toList ++ '.' :: (segment ++ more) ∧
    (∀ c ∈ more.head?, c = '.') ∧ Base64.decode segment = token
  isToken : (server.decryptToken crypto token).isSome
  data : ∃ plaintext, decrypt crypto (server.encryptionKey crypto token) prepare.data = some plaintext ∧
    Stream.Packet.deserializeUnencrypted plaintext = .ok streamRequest
  type : streamRequest.ilpPacketType.code = Stream.IlpPacketType.prepare.code

/-- The request does not close the connection, the amount is enough for it, and the condition can be
fulfilled. -/
structure Passes (token : Buffer) (streamRequest : Stream.Packet) : Prop where
  frames : ∀ frame ∈ streamRequest.frames, isConnectionClose frame = false
  amount : streamRequest.prepareAmount ≤ longFromString prepare.amount
  condition : crypto.sha256 (server.fulfillment crypto token prepare.data) = prepare.executionCondition

/-- The packet is to be paid for. -/
def Accepts : Prop :=
  ∃ token streamRequest, server.Authenticates crypto prepare token streamRequest ∧
    server.Passes crypto prepare token streamRequest

end StreamServer

namespace Reply

variable (crypto : Crypto)

/-- A Fulfill of no money, or money that can be accepted. -/
def Pays (amount : Long) : Reply → Prop
  | .fulfill _ => amount = 0
  | .incoming money => amount ≠ 0 ∧ ∀ iv, ∃ packet, money.accept crypto iv = .ok packet
  | .reject _ => False

/-- Whatever the application calls, each Fulfill has the preimage of the condition. -/
def Fulfils (condition : Buffer) : Reply → Prop
  | .fulfill packet => crypto.sha256 packet.fulfillment = condition
  | .incoming money => ∀ calls iv packet, (money.afterAll crypto calls).accept crypto iv = .ok packet →
      crypto.sha256 packet.fulfillment = condition
  | .reject _ => True

/-- Whatever the application calls, each reply carries the sequence and the amount. -/
def Answers (key : Buffer) (sequence amount : Long) : Reply → Prop
  | .fulfill packet => Carries crypto key packet.data sequence amount .fulfill
  | .reject packet => Carries crypto key packet.data sequence amount .reject
  | .incoming money => ∀ calls iv,
      (∀ packet, (money.afterAll crypto calls).accept crypto iv = .ok packet →
        Carries crypto key packet.data sequence amount .fulfill) ∧
      (∀ packet, (money.afterAll crypto calls).temporaryDecline crypto iv = .ok packet →
        Carries crypto key packet.data sequence amount .reject) ∧
      ∀ packet, ((money.afterAll crypto calls).finalDecline crypto iv).2 = .ok packet →
        Carries crypto key packet.data sequence amount .reject

end Reply

/-! ### Builders of replies -/

section Builders

variable {crypto : Crypto} {key : Buffer} {sequence amount : Long}

/-- A builder has been told what to carry. -/
structure ReplyBuilder.Knows (key : Buffer) (sequence amount : Long) (reply : ReplyBuilder) : Prop where
  key : reply.encryptionKey = some key
  sequence : reply.sequence = sequence
  amount : reply.receivedAmount = amount

variable {reply : ReplyBuilder} {iv : Iv}

theorem ReplyBuilder.Knows.addFrames (h : reply.Knows key sequence amount) (frames : List Frame) :
    (reply.addFrames frames).Knows key sequence amount := ⟨h.key, h.sequence, h.amount⟩

theorem ReplyBuilder.Knows.carries_fulfill (h : reply.Knows key sequence amount) {fulfillment : Buffer}
    {packet : IlpFulfill} (h_packet : reply.buildFulfill crypto iv fulfillment = .ok packet) :
    Carries crypto key packet.data sequence amount .fulfill ∧ packet.fulfillment = fulfillment := by
  unfold ReplyBuilder.buildFulfill at h_packet
  cases h_data : reply.buildData crypto iv .fulfill with
  | error e =>
    rw [h_data] at h_packet
    cases h_packet
  | ok data =>
    rw [h_data] at h_packet
    obtain rfl := Except.ok.inj h_packet
    have h_carries := ReplyBuilder.carries_buildData h.key h_data
    rw [h.sequence, h.amount] at h_carries
    exact ⟨h_carries, rfl⟩

theorem ReplyBuilder.Knows.carries_reject (h : reply.Knows key sequence amount) {code : String}
    {packet : IlpReject} (h_packet : reply.buildReject crypto iv code = .ok packet) :
    Carries crypto key packet.data sequence amount .reject := by
  unfold ReplyBuilder.buildReject at h_packet
  cases h_data : reply.buildData crypto iv .reject with
  | error e =>
    rw [h_data] at h_packet
    cases h_packet
  | ok data =>
    rw [h_data] at h_packet
    obtain rfl := Except.ok.inj h_packet
    have h_carries := ReplyBuilder.carries_buildData h.key h_data
    rwa [h.sequence, h.amount] at h_carries

/-- There is a Reject as long as its packet fits in a buffer, -/
theorem ReplyBuilder.buildReject_isOk (crypto : Crypto) (iv : Iv)
    (h : (reply.packet .reject).bytes.length ≤ kMaxLength)
    (code : String) : ∃ packet, reply.buildReject crypto iv code = .ok packet := by
  obtain ⟨data, h_data⟩ := ReplyBuilder.buildData_isOk h
  unfold ReplyBuilder.buildReject
  rw [h_data]
  exact ⟨_, rfl⟩

/-- and so there is a Fulfill. -/
theorem ReplyBuilder.buildFulfill_isOk (crypto : Crypto) (iv : Iv)
    (h : (reply.packet .fulfill).bytes.length ≤ kMaxLength)
    (fulfillment : Buffer) : ∃ packet, reply.buildFulfill crypto iv fulfillment = .ok packet := by
  obtain ⟨data, h_data⟩ := ReplyBuilder.buildData_isOk h
  unfold ReplyBuilder.buildFulfill
  rw [h_data]
  exact ⟨_, rfl⟩

variable {money : IncomingMoney}

/-- A call adds frames at most. -/
theorem IncomingMoney.after_eq (crypto : Crypto) (money : IncomingMoney) (call : IncomingMoney.Call) :
    money.after crypto call = { money with reply := money.reply.addFrames (money.added crypto call) } := by
  have h_same : money = { money with reply := money.reply.addFrames [] } := by
    unfold ReplyBuilder.addFrames
    rw [List.append_nil]
  cases call with
  | setTotalReceived totalReceived =>
    obtain ⟨connectionId, paymentTag, receiptSetup, reply, fulfillment⟩ := money
    cases receiptSetup with
    | none => exact h_same
    | some setup =>
      simp only [IncomingMoney.after, IncomingMoney.setTotalReceived, IncomingMoney.added]
      cases Stream.createReceipt IncomingMoney.writeUInt8 crypto.hmac setup.nonce setup.secret 1 totalReceived with
      | error e => exact h_same
      | ok receipt => rfl
  | accept iv => exact h_same
  | temporaryDecline iv => exact h_same
  | finalDecline iv => rfl

/-- **What the calls leave**: the same money, with the frames of each call behind those of the reply. -/
theorem IncomingMoney.afterAll_eq (crypto : Crypto) (money : IncomingMoney) (calls : List IncomingMoney.Call) :
    money.afterAll crypto calls =
      { money with reply := money.reply.addFrames (calls.flatMap (money.added crypto)) } := by
  induction calls generalizing money with
  | nil =>
    unfold ReplyBuilder.addFrames
    rw [List.flatMap_nil, List.append_nil]
    rfl
  | cons call calls ih =>
    show (money.after crypto call).afterAll crypto calls = _
    rw [ih, IncomingMoney.after_eq]
    unfold ReplyBuilder.addFrames
    rw [List.flatMap_cons, List.append_assoc]
    rfl

/-- Whatever is called, the builder knows what to carry. -/
theorem IncomingMoney.knows_afterAll (crypto : Crypto) (h : money.reply.Knows key sequence amount)
    (calls : List IncomingMoney.Call) :
    (money.afterAll crypto calls).reply.Knows key sequence amount ∧
      (money.afterAll crypto calls).fulfillment = money.fulfillment := by
  rw [IncomingMoney.afterAll_eq]
  exact ⟨h.addFrames _, rfl⟩

/-- What becomes of money that the application is told of. -/
theorem IncomingMoney.answers (h : money.reply.Knows key sequence amount) :
    (Reply.incoming money).Answers crypto key sequence amount := by
  intro calls iv
  have h_knows := (IncomingMoney.knows_afterAll crypto h calls).1
  refine ⟨fun packet h_packet => (h_knows.carries_fulfill h_packet).1,
    fun packet h_packet => h_knows.carries_reject h_packet,
    fun packet h_packet => (h_knows.addFrames [closeFrame]).carries_reject h_packet⟩

theorem IncomingMoney.fulfils (h : money.reply.Knows key sequence amount) {condition : Buffer}
    (h_condition : crypto.sha256 money.fulfillment = condition) :
    (Reply.incoming money).Fulfils crypto condition := by
  intro calls iv packet h_packet
  obtain ⟨h_knows, h_same⟩ := IncomingMoney.knows_afterAll crypto h calls
  rw [(h_knows.carries_fulfill h_packet).2, h_same, h_condition]

end Builders

/-! ### Decisions -/

namespace StreamServer

variable {server : StreamServer} {crypto : Crypto} {prepare : IlpPrepare} {token : Buffer}
  {streamRequest : Stream.Packet} {iv : Iv}

/-- The parts of the address and of the data are determined. -/
theorem authenticates_iff :
    server.Authenticates crypto prepare token streamRequest ↔
      (∃ segment, server.extractLocalAddressSegment prepare.destination = some segment ∧
        Base64.decode segment = token) ∧ (server.decryptToken crypto token).isSome ∧
      server.streamRequest crypto token prepare.data = some streamRequest ∧
      streamRequest.ilpPacketType.code = Stream.IlpPacketType.prepare.code := by
  have h_data : server.streamRequest crypto token prepare.data = some streamRequest ↔
      ∃ plaintext, decrypt crypto (server.encryptionKey crypto token) prepare.data = some plaintext ∧
        Stream.Packet.deserializeUnencrypted plaintext = .ok streamRequest := by
    unfold StreamServer.streamRequest
    rw [Option.bind_eq_some_iff]
    apply exists_congr
    intro plaintext
    apply and_congr_right
    intro _
    cases Stream.Packet.deserializeUnencrypted plaintext with
    | error e => exact ⟨nofun, nofun⟩
    | ok packet => exact ⟨fun h => congrArg Except.ok (Option.some.inj h), fun h => congrArg some (Except.ok.inj h)⟩
  rw [h_data]
  constructor
  · intro h
    obtain ⟨segment, more, h_ne, h_dot, h_destination, h_more, h_token⟩ := h.destination
    have h_segment := extractLocalAddressSegment_eq_some.mpr ⟨h_ne, h_dot, more, h_destination, h_more⟩
    exact ⟨⟨segment, h_segment, h_token⟩, h.isToken, h.data, h.type⟩
  · rintro ⟨⟨segment, h_segment, h_token⟩, h_isToken, h_request, h_type⟩
    obtain ⟨h_ne, h_dot, more, h_destination, h_more⟩ := extractLocalAddressSegment_eq_some.mp h_segment
    exact ⟨⟨segment, more, h_ne, h_dot, h_destination, h_more, h_token⟩, h_isToken, h_request, h_type⟩

/-- A packet of a reply with a frame that is not too long fits in a buffer. -/
theorem fits_addFrames {reply : ReplyBuilder} (h_none : reply.frames = []) {frames : List Frame}
    (h_count : frames.length ≤ 1) (h_length : (frames.flatMap Frame.bytes).length ≤ 2 ^ 20)
    (type : Stream.IlpPacketType) : ((reply.addFrames frames).packet type).bytes.length ≤ kMaxLength := by
  have h_frames : ((reply.addFrames frames).packet type).frames = frames := by
    change reply.frames ++ frames = frames
    rw [h_none, List.nil_append]
  have h_le := length_packet_le ((reply.addFrames frames).packet type) (by rw [h_frames]; omega)
  rw [h_frames] at h_le
  unfold kMaxLength
  omega

variable {key : Buffer} {sequence amount : Long} {reply : ReplyBuilder} {details : ConnectionDetails}

/-- A reply that is a Reject. -/
theorem exists_reject (crypto : Crypto) (iv : Iv) (h_knows : reply.Knows key sequence amount)
    (h_fits : (reply.packet .reject).bytes.length ≤ kMaxLength) (code : String) :
    ∃ packet, Reply.reject <$> reply.buildReject crypto iv code = .ok (.reject packet) ∧
      Carries crypto key packet.data sequence amount .reject := by
  obtain ⟨packet, h_packet⟩ := ReplyBuilder.buildReject_isOk crypto iv h_fits code
  refine ⟨packet, ?_, h_knows.carries_reject h_packet⟩
  rw [h_packet]
  rfl

/-- **The reply to an authentic request.** -/
theorem replyTo_spec (server : StreamServer) (token : Buffer) (streamRequest : Stream.Packet) (iv : Iv)
    (h_knows : reply.Knows key sequence amount) (h_none : reply.frames = [])
    (h_code : ∀ asset ∈ details.asset, (Utf8.encode asset.code.toList).length ≤ 2 ^ 16)
    (h_amount : longFromString prepare.amount = amount) :
    ∃ found, server.replyTo crypto prepare token details streamRequest reply iv = .ok found ∧
      (server.Passes crypto prepare token streamRequest → found.Pays crypto amount) ∧
      (¬server.Passes crypto prepare token streamRequest → ∃ packet, found = .reject packet) ∧
      found.Fulfils crypto prepare.executionCondition ∧ found.Answers crypto key sequence amount := by
  -- the frames of the reply fit in a packet
  obtain ⟨h_asset, h_count⟩ := length_assetFrames_le streamRequest h_code (by norm_num)
  have h_fits := fits_addFrames h_none h_count (by omega)
  have h_told := h_knows.addFrames (assetFrames details streamRequest)
  -- a Reject is what there is unless all the checks pass
  have h_reject {packet : IlpReject} {found : Except OerError Reply} (h_found : found = .ok (.reject packet))
      (h_carries : Carries crypto key packet.data sequence amount .reject)
      (h_not : ¬server.Passes crypto prepare token streamRequest) : ∃ r, found = .ok r ∧
        (server.Passes crypto prepare token streamRequest → r.Pays crypto amount) ∧
        (¬server.Passes crypto prepare token streamRequest → ∃ packet, r = .reject packet) ∧
        r.Fulfils crypto prepare.executionCondition ∧ r.Answers crypto key sequence amount :=
    ⟨_, h_found, fun h => absurd h h_not, fun _ => ⟨packet, rfl⟩, trivial, h_carries⟩
  -- the checks, in their order
  unfold replyTo
  split
  · next h_close =>
    have h_short : ([closeFrame].flatMap Frame.bytes).length ≤ 2 ^ 20 := by
      rw [List.flatMap_singleton, length_closeFrame]
      norm_num
    -- the connection is closed, so that a frame says so
    obtain ⟨packet, h_packet, h_carries⟩ := exists_reject crypto iv
      (h_knows.addFrames [closeFrame]) (fits_addFrames h_none le_rfl h_short .reject) "F99"
    refine h_reject h_packet h_carries fun h => ?_
    obtain ⟨frame, h_mem, h_frame⟩ := List.any_eq_true.mp h_close
    exact Bool.false_ne_true ((h.frames frame h_mem).symm.trans h_frame)
  · next h_open =>
    -- there is no such frame
    have h_frames : ∀ frame ∈ streamRequest.frames, isConnectionClose frame = false := by
      intro frame h_mem
      by_contra h_frame
      exact h_open (List.any_eq_true.mpr ⟨frame, h_mem, Bool.not_eq_false _ ▸ h_frame⟩)
    obtain ⟨packet, h_packet, h_carries⟩ := exists_reject crypto iv h_told
      (h_fits .reject) "F99"
    simp only []
    split
    · next h_less => exact h_reject h_packet h_carries fun h => h_less h.amount
    · next h_enough =>
      split
      · next h_condition => exact h_reject h_packet h_carries fun h => h_condition h.condition
      · next h_condition =>
        -- all three hold
        have h_passes : server.Passes crypto prepare token streamRequest :=
          ⟨h_frames, not_not.mp h_enough, not_not.mp h_condition⟩
        have h_hash := h_passes.condition
        split
        · next h_zero =>
          -- a packet of zero is fulfilled at once
          obtain ⟨packet, h_fulfill⟩ := ReplyBuilder.buildFulfill_isOk crypto iv
            (h_fits .fulfill) (server.fulfillment crypto token prepare.data)
          obtain ⟨h_data, h_preimage⟩ := h_told.carries_fulfill h_fulfill
          refine ⟨.fulfill packet, ?_, fun _ => ?_, fun h => absurd h_passes h, ?_, h_data⟩
          · rw [h_fulfill]
            rfl
          · rw [h_amount] at h_zero
            exact h_zero
          · change crypto.sha256 packet.fulfillment = _
            rw [h_preimage, h_hash]
        · next h_positive =>
          -- for any other the application decides
          refine ⟨_, rfl, fun _ => ⟨?_, fun iv => ?_⟩, fun h => absurd h_passes h, ?_, ?_⟩
          · rwa [h_amount] at h_positive
          · exact ReplyBuilder.buildFulfill_isOk crypto iv (h_fits .fulfill) _
          · exact IncomingMoney.fulfils h_told h_hash
          · exact IncomingMoney.answers h_told

/-- Without data that is known to be authentic, there is a Reject that carries none. -/
theorem createReply_of_not (iv : Iv)
    (h : ¬∃ token streamRequest, server.Authenticates crypto prepare token streamRequest) :
    ∃ packet, server.createReply crypto prepare iv = .ok (.reject packet) ∧ packet.data = [] := by
  unfold createReply
  cases h_segment : server.extractLocalAddressSegment prepare.destination with
  | none => exact ⟨_, rfl, rfl⟩
  | some segment =>
    simp only []
    cases h_details : server.decryptToken crypto (Base64.decode segment) with
    | none => exact ⟨_, rfl, rfl⟩
    | some details =>
      simp only []
      cases h_request : server.streamRequest crypto (Base64.decode segment) prepare.data with
      | none => exact ⟨_, rfl, rfl⟩
      | some request =>
        simp only []
        split
        · exact ⟨_, rfl, rfl⟩
        · next h_type =>
          refine absurd ⟨Base64.decode segment, request, authenticates_iff.mpr ⟨⟨segment, h_segment, rfl⟩, ?_,
            h_request, not_not.mp h_type⟩⟩ h
          rw [h_details]
          rfl

/-- With such data, it is looked at what is requested. -/
theorem createReply_of_authenticates (iv : Iv) (h_valid : isPrepare prepare = true)
    (h : server.Authenticates crypto prepare token streamRequest) :
    ∃ details reply, server.createReply crypto prepare iv =
        server.replyTo crypto prepare token details streamRequest reply iv ∧
      reply.Knows (server.encryptionKey crypto token) streamRequest.sequence (longFromString prepare.amount) ∧
      reply.frames = [] ∧
      ∀ asset ∈ details.asset, (Utf8.encode asset.code.toList).length ≤ 2 ^ 16 := by
  -- the token and the packet are read
  obtain ⟨⟨segment, h_segment, rfl⟩, h_isToken, h_request, h_type⟩ := authenticates_iff.mp h
  obtain ⟨details, h_details⟩ := Option.isSome_iff_exists.mp h_isToken
  obtain ⟨h_address, -⟩ := Bool.and_eq_true_iff.mp h_valid
  obtain ⟨h_amount, h_destination⟩ := Bool.and_eq_true_iff.mp h_address
  -- the amount is that of the Prepare
  have h_told : ({ ilpAddress := server.serverAddress
                   encryptionKey := some (server.encryptionKey crypto (Base64.decode segment))
                   sequence := streamRequest.sequence } : ReplyBuilder).setReceivedAmount prepare.amount =
      .ok { ilpAddress := server.serverAddress
            encryptionKey := some (server.encryptionKey crypto (Base64.decode segment))
            sequence := streamRequest.sequence
            receivedAmount := longFromString prepare.amount } := by
    unfold ReplyBuilder.setReceivedAmount
    rw [longFromText_eq h_amount]
    rfl
  refine ⟨details,
    { ilpAddress := server.serverAddress
      encryptionKey := some (server.encryptionKey crypto (Base64.decode segment))
      sequence := streamRequest.sequence
      receivedAmount := longFromString prepare.amount }, ?_, ⟨rfl, rfl, rfl⟩, rfl, ?_⟩
  · unfold createReply
    rw [h_segment]
    simp only [h_details, h_request, h_type, ne_eq, not_true_eq_false, if_false]
    rw [h_told]
    rfl
  · -- an address is short, and so are its segment and the token in it
    obtain ⟨h_max, -⟩ := Bool.and_eq_true_iff.mp h_destination
    have h_max : prepare.destination.toList.length ≤ 1023 := of_decide_eq_true h_max
    obtain ⟨-, -, more, h_list, -⟩ := extractLocalAddressSegment_eq_some.mp h_segment
    have h_token := Base64.length_decode_le segment
    rw [h_list, List.length_append, List.length_cons, List.length_append] at h_max
    intro asset h_asset
    have h_code := length_code_le h_details asset h_asset
    omega

/-- The token and the request are determined. -/
theorem Authenticates.unique {token' : Buffer} {streamRequest' : Stream.Packet}
    (h : server.Authenticates crypto prepare token streamRequest)
    (h' : server.Authenticates crypto prepare token' streamRequest') :
    token = token' ∧ streamRequest = streamRequest' := by
  obtain ⟨⟨segment, h_segment, rfl⟩, -, h_request, -⟩ := authenticates_iff.mp h
  obtain ⟨⟨segment', h_segment', rfl⟩, -, h_request', -⟩ := authenticates_iff.mp h'
  obtain rfl := Option.some.inj (h_segment.symm.trans h_segment')
  exact ⟨rfl, Option.some.inj (h_request.symm.trans h_request')⟩

/-- **What the reply to a packet is**, if its data turns out to be authentic and otherwise. -/
theorem createReply_spec (crypto : Crypto) (server : StreamServer) (iv : Iv)
    (h_valid : isPrepare prepare = true) :
    ∃ reply, server.createReply crypto prepare iv = .ok reply ∧
      (server.Accepts crypto prepare → reply.Pays crypto (longFromString prepare.amount)) ∧
      (¬server.Accepts crypto prepare → ∃ packet, reply = .reject packet) ∧
      reply.Fulfils crypto prepare.executionCondition ∧
      ∀ token streamRequest, server.Authenticates crypto prepare token streamRequest →
        reply.Answers crypto (server.encryptionKey crypto token) streamRequest.sequence
          (longFromString prepare.amount) := by
  -- a packet authenticates by one token at most, or by none
  by_cases h : ∃ token streamRequest, server.Authenticates crypto prepare token streamRequest
  · obtain ⟨token, streamRequest, h_authentic⟩ := h
    obtain ⟨details, builder, h_reply, h_knows, h_none, h_code⟩ :=
      createReply_of_authenticates iv h_valid h_authentic
    obtain ⟨reply, h_found, h_pays, h_reject, h_fulfils, h_answers⟩ :=
      replyTo_spec server token streamRequest iv
        h_knows h_none h_code rfl
    refine ⟨reply, h_reply.trans h_found, ?_, ?_, h_fulfils, ?_⟩
    · rintro ⟨token', request', h_authentic', h_passes⟩
      obtain ⟨rfl, rfl⟩ := h_authentic.unique h_authentic'
      exact h_pays h_passes
    · intro h_not
      exact h_reject fun h_passes => h_not ⟨token, streamRequest, h_authentic, h_passes⟩
    · intro token' request' h_authentic'
      obtain ⟨rfl, rfl⟩ := h_authentic.unique h_authentic'
      exact h_answers
  · obtain ⟨packet, h_reply, -⟩ := createReply_of_not iv h
    refine ⟨.reject packet, h_reply, ?_, fun _ => ⟨packet, rfl⟩, trivial, ?_⟩
    · rintro ⟨token, streamRequest, h_authentic, -⟩
      exact absurd ⟨token, streamRequest, h_authentic⟩ h
    · intro token streamRequest h_authentic
      exact absurd ⟨token, streamRequest, h_authentic⟩ h

end StreamServer

/-- **The decision.** A packet is paid for, by a Fulfill if it has no money and otherwise by money that can
be accepted, if and only if its address, the token in it, its data, the frames and the amount in it and the
condition are all right. Every other packet is rejected. Each Fulfill has the preimage of the condition, and
each reply to an authentic request carries its sequence, the amount of the packet and its own type, whatever
totals were reported and whichever replies made before. -/
theorem createReply_decides (crypto : Crypto) (server : StreamServer) (prepare : IlpPrepare) (iv : Iv)
    (h_valid : isPrepare prepare = true) :
    ∃ reply, server.createReply crypto prepare iv = .ok reply ∧
      (reply.Pays crypto (longFromString prepare.amount) ↔ server.Accepts crypto prepare) ∧
      (¬server.Accepts crypto prepare → ∃ packet, reply = .reject packet) ∧
      reply.Fulfils crypto prepare.executionCondition ∧
      ∀ token streamRequest, server.Authenticates crypto prepare token streamRequest →
        reply.Answers crypto (server.encryptionKey crypto token) streamRequest.sequence
          (longFromString prepare.amount) := by
  obtain ⟨reply, h_reply, h_pays, h_reject, h_rest⟩ :=
    StreamServer.createReply_spec crypto server iv h_valid
  refine ⟨reply, h_reply, ⟨fun h => ?_, h_pays⟩, h_reject, h_rest⟩
  by_contra h_not
  obtain ⟨packet, rfl⟩ := h_reject h_not
  exact h

namespace Sample

/-- Functions that can be computed by hand. -/
def crypto : Crypto where
  sha256 bytes := (bytes ++ List.replicate 32 0).take 32
  hmac key message := key ++ message
  cipher _ _ plaintext := (plaintext, List.replicate 16 7)
  decipher _ _ encrypted tag := if tag = List.replicate 16 7 then some encrypted else none
  length_encrypted _ _ _ := rfl
  length_tag _ _ _ := rfl
  decipher_eq_some key iv encrypted tag plaintext _ := by
    rw [Option.ite_none_right_eq_some, Prod.mk.injEq, Option.some.injEq]
    constructor
    · rintro ⟨rfl, rfl⟩
      exact ⟨rfl, rfl⟩
    · rintro ⟨rfl, rfl⟩
      exact ⟨rfl, rfl⟩

def iv : Iv := ⟨List.replicate 12 0, rfl⟩

def server : StreamServer where
  serverAddress := "test.receiver"
  sharedSecretKeyGen := [1]
  connectionTokenKeyGen := [2]
  isValid := by decide

/-- A token without details. -/
def token : Buffer := encrypt crypto [2] iv [0]

def streamRequest : Stream.Packet where
  sequence := 3
  ilpPacketType := .prepare
  prepareAmount := 4
  frames := [.streamMoney 1 1]

/-- Five units for a request of four. -/
def prepare : IlpPrepare where
  amount := "5"
  executionCondition :=
    crypto.sha256 (server.fulfillment crypto token
      (encrypt crypto (server.encryptionKey crypto token) iv streamRequest.bytes))
  expiresAt := ⟨0, by decide⟩
  destination := "test.receiver." ++ base64url token
  data := encrypt crypto (server.encryptionKey crypto token) iv streamRequest.bytes

end Sample

/-- The packet is paid for, and the replies carry its sequence and the five units. -/
theorem createReply_decides_sample :
    ∃ reply, Sample.server.createReply Sample.crypto Sample.prepare Sample.iv = .ok reply ∧
      reply.Pays Sample.crypto 5 ∧
      reply.Answers Sample.crypto (Sample.server.encryptionKey Sample.crypto Sample.token) 3 5 := by
  have h_amount : longFromString Sample.prepare.amount = 5 := by decide +kernel
  have h_authentic : Sample.server.Authenticates Sample.crypto Sample.prepare Sample.token
      Sample.streamRequest := by
    rw [StreamServer.authenticates_iff]
    exact ⟨⟨Base64.url Sample.token, by decide +kernel, by decide +kernel⟩, by decide +kernel,
      by decide +kernel, rfl⟩
  have h_accepts : Sample.server.Accepts Sample.crypto Sample.prepare := by
    refine ⟨_, _, h_authentic, ?_, ?_, rfl⟩
    · intro frame h_frame
      rw [List.mem_singleton.mp h_frame]
      rfl
    · rw [h_amount]
      decide
  obtain ⟨reply, h_reply, h_pays, -, -, h_answers⟩ :=
    createReply_decides Sample.crypto Sample.server Sample.prepare Sample.iv (by decide +kernel)
  rw [h_amount] at h_pays h_answers
  exact ⟨reply, h_reply, h_pays.mpr h_accepts, h_answers _ _ h_authentic⟩

end Interledger.StreamReceiver
