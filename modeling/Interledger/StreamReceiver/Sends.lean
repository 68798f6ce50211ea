import Interledger.IlpPacket.Reply
import Interledger.Stream.PacketEncryption
import Interledger.StreamReceiver.Instances

/-!
# What the stateless receiver sends

`createReply` returns a packet, or money that the application accepts or declines after it has reported as many
totals as it likes. Each packet that is sent in the end was made by a builder that had been told the key, the
sequence, the amount and the frames for the reply, to which the calls of the application have added theirs
(`Built`), so that whoever has the key reads these frames in it, and no others.

## Main results

* `StreamServer.built_of_replyTo` — what is sent for an authentic request was built for it;
* `Built.says` — and what can be read in it.
-/

namespace Interledger.StreamReceiver

open Ilp (Buffer)
open Oer (OerError kMaxLength)
open Crypto (Iv)
open Interledger.Stream (Long Frame)
open IlpPacket (IlpPrepare IlpReply isPrepare serializeIlpReply deserializeIlpReply)

/-- The packets that may be sent for a reply, with the frames that the application has added. Money is accepted or
declined after any other calls. -/
inductive Reply.Sends (crypto : Crypto) : Reply → List Frame → IlpReply → Prop
  | fulfill (packet : IlpPacket.IlpFulfill) : Sends crypto (.fulfill packet) [] (.fulfill packet)
  | reject (packet : IlpPacket.IlpReject) : Sends crypto (.reject packet) [] (.reject packet)
  | accept {money : IncomingMoney} {calls : List IncomingMoney.Call} {iv : Iv} {packet : IlpPacket.IlpFulfill}
      (h : (money.afterAll crypto calls).accept crypto iv = .ok packet) :
      Sends crypto (.incoming money) (calls.flatMap (money.added crypto)) (.fulfill packet)
  | temporaryDecline {money : IncomingMoney} {calls : List IncomingMoney.Call} {iv : Iv}
      {packet : IlpPacket.IlpReject} (h : (money.afterAll crypto calls).temporaryDecline crypto iv = .ok packet) :
      Sends crypto (.incoming money) (calls.flatMap (money.added crypto)) (.reject packet)
  | finalDecline {money : IncomingMoney} {calls : List IncomingMoney.Call} {iv : Iv}
      {packet : IlpPacket.IlpReject} (h : ((money.afterAll crypto calls).finalDecline crypto iv).2 = .ok packet) :
      Sends crypto (.incoming money) (calls.flatMap (money.added crypto) ++ [closeFrame]) (.reject packet)

/-- What the builders of the replies to a request have been told. -/
structure ReplyBuilder.Told (key : Buffer) (sequence amount : Long) (frames : List Frame) (address : String)
    (reply : ReplyBuilder) : Prop where
  knows : reply.Knows key sequence amount
  frames : reply.frames = frames
  address : reply.ilpAddress = address

/-- The packet was built by a builder that had been told so. -/
inductive Built (crypto : Crypto) (key : Buffer) (sequence amount : Long) (frames : List Frame)
    (address : String) (fulfillment : Buffer) : IlpReply → Prop
  | fulfill {reply : ReplyBuilder} {iv : Iv} {packet : IlpPacket.IlpFulfill}
      (h_told : reply.Told key sequence amount frames address)
      (h : reply.buildFulfill crypto iv fulfillment = .ok packet) :
      Built crypto key sequence amount frames address fulfillment (.fulfill packet)
  | reject {reply : ReplyBuilder} {iv : Iv} {code : String} {packet : IlpPacket.IlpReject}
      (h_told : reply.Told key sequence amount frames address) (h_code : code = "T00" ∨ code = "F99")
      (h : reply.buildReject crypto iv code = .ok packet) :
      Built crypto key sequence amount frames address fulfillment (.reject packet)

section Sends

variable {crypto : Crypto} {key fulfillment : Buffer} {sequence amount : Long} {frames : List Frame} {address : String}

theorem ReplyBuilder.Told.addFrames {reply : ReplyBuilder} (h : reply.Told key sequence amount frames address)
    (more : List Frame) : (reply.addFrames more).Told key sequence amount (frames ++ more) address :=
  ⟨h.knows.addFrames more, congrArg (· ++ more) h.frames, h.address⟩

/-- Whatever is called, the builder has been told what the calls add. -/
theorem IncomingMoney.told_afterAll {money : IncomingMoney} (h : money.reply.Told key sequence amount frames address)
    (calls : List IncomingMoney.Call) :
    (money.afterAll crypto calls).reply.Told key sequence amount
      (frames ++ calls.flatMap (money.added crypto)) address := by
  rw [IncomingMoney.afterAll_eq]
  exact h.addFrames _

/-- What is sent for money was built from its reply. -/
theorem IncomingMoney.built_of_sends {money : IncomingMoney} {added : List Frame} {packet : IlpReply}
    (h : money.reply.Told key sequence amount frames address)
    (h_sends : (Reply.incoming money).Sends crypto added packet) :
    Built crypto key sequence amount (frames ++ added) address money.fulfillment packet := by
  cases h_sends with
  | accept h_packet =>
    rw [← (IncomingMoney.knows_afterAll crypto h.knows _).2]
    exact .fulfill (IncomingMoney.told_afterAll h _) h_packet
  | temporaryDecline h_packet => exact .reject (IncomingMoney.told_afterAll h _) (.inl rfl) h_packet
  | finalDecline h_packet =>
    -- the close comes behind what was added before
    rw [← List.append_assoc]
    exact .reject ((IncomingMoney.told_afterAll h _).addFrames [closeFrame]) (.inr rfl) h_packet

end Sends

namespace StreamServer

variable {server : StreamServer} {crypto : Crypto} {prepare : IlpPrepare} {details : ConnectionDetails}
  {token : Buffer} {streamRequest : Stream.Packet} {iv : Iv}

/-- The frames that the replies to a request have, apart from what the application adds. -/
def replyFrames (details : ConnectionDetails) (streamRequest : Stream.Packet) : List Frame :=
  if streamRequest.frames.any isConnectionClose then [closeFrame] else assetFrames details streamRequest

/-- A Reject that was just built. -/
theorem built_of_reject {reply : ReplyBuilder} {key fulfillment : Buffer} {sequence amount : Long}
    {frames added : List Frame} {address : String} {found : Reply} {packet : IlpReply}
    (h_told : reply.Told key sequence amount frames address)
    (h_found : Reply.reject <$> reply.buildReject crypto iv "F99" = .ok found)
    (h_sends : found.Sends crypto added packet) :
    Built crypto key sequence amount (frames ++ added) address fulfillment packet := by
  obtain ⟨reject, h_reject, rfl⟩ := IlpPacket.eq_ok_of_map_eq_ok h_found
  cases h_sends with
  | reject =>
    rw [List.append_nil]
    exact .reject h_told (.inr rfl) h_reject

/-- **What is sent in reply to an authentic request** was built for it. -/
theorem built_of_replyTo {reply : ReplyBuilder} {key : Buffer} {sequence amount : Long} {added : List Frame}
    {found : Reply} {packet : IlpReply} (h_knows : reply.Knows key sequence amount) (h_none : reply.frames = [])
    (h_found : server.replyTo crypto prepare token details streamRequest reply iv = .ok found)
    (h_sends : found.Sends crypto added packet) :
    Built crypto key sequence amount (replyFrames details streamRequest ++ added) reply.ilpAddress
      (server.fulfillment crypto token prepare.data) packet := by
  -- whatever frames are added, the reply keeps what it was told
  have h_told (more : List Frame) : (reply.addFrames more).Told key sequence amount more reply.ilpAddress :=
    ⟨h_knows.addFrames more, congrArg (· ++ more) h_none, rfl⟩
  unfold replyTo at h_found
  unfold replyFrames
  split at h_found
  · next h_close =>
    -- the sender closed the connection
    rw [if_pos h_close]
    exact built_of_reject (h_told _) h_found h_sends
  · next h_open =>
    rw [if_neg h_open]
    simp only at h_found
    -- the amount or the condition is refused, or the money is accepted or declined
    split at h_found
    · exact built_of_reject (h_told _) h_found h_sends
    · split at h_found
      · exact built_of_reject (h_told _) h_found h_sends
      · split at h_found
        · obtain ⟨fulfill, h_fulfill, rfl⟩ := IlpPacket.eq_ok_of_map_eq_ok h_found
          cases h_sends with
          | fulfill =>
            rw [List.append_nil]
            exact .fulfill (h_told _) h_fulfill
        · obtain rfl := Except.ok.inj h_found
          exact IncomingMoney.built_of_sends (h_told _) h_sends

/-- The request is found with the details in its address, and replied to. -/
theorem createReply_eq_replyTo {segment : List Char} (h_valid : isPrepare prepare = true)
    (h_segment : server.extractLocalAddressSegment prepare.destination = some segment)
    (h_details : server.decryptToken crypto (Base64.decode segment) = some details)
    (h_request : server.streamRequest crypto (Base64.decode segment) prepare.data = some streamRequest)
    (h_type : streamRequest.ilpPacketType.code = Stream.IlpPacketType.prepare.code) :
    server.createReply crypto prepare iv =
      server.replyTo crypto prepare (Base64.decode segment) details streamRequest
        { ilpAddress := server.serverAddress
          encryptionKey := some (server.encryptionKey crypto (Base64.decode segment))
          sequence := streamRequest.sequence
          receivedAmount := longFromString prepare.amount } iv := by
  obtain ⟨h_rest, -⟩ := Bool.and_eq_true_iff.mp h_valid
  obtain ⟨h_amount, -⟩ := Bool.and_eq_true_iff.mp h_rest
  -- a valid Prepare has a readable amount
  have h_told : ({ ilpAddress := server.serverAddress
                   encryptionKey := some (server.encryptionKey crypto (Base64.decode segment))
                   sequence := streamRequest.sequence } : ReplyBuilder).setReceivedAmount prepare.amount =
      .ok { ilpAddress := server.serverAddress
            encryptionKey := some (server.encryptionKey crypto (Base64.decode segment))
            sequence := streamRequest.sequence
            receivedAmount := longFromString prepare.amount } := by
    unfold ReplyBuilder.setReceivedAmount
    rw [longFromText_eq h_amount]
    rfl
  unfold createReply
  rw [h_segment]
  simp only [h_details, h_request, h_type, ne_eq, not_true_eq_false, if_false]
  rw [h_told]
  rfl

end StreamServer

section Built

variable {crypto : Crypto} {key fulfillment : Buffer} {sequence amount : Long} {frames : List Frame} {address : String}
  {packet : IlpReply}

/-- The data of what is built is the packet of the builder. -/
theorem ReplyBuilder.Told.sealed_of_buildData {reply : ReplyBuilder} {iv : Iv} {type : Stream.IlpPacketType}
    {data : Buffer} (h : reply.Told key sequence amount frames address)
    (h_data : reply.buildData crypto iv type = .ok data) :
    ∃ found, Stream.Packet.decryptAndDeserialize crypto key data = some found ∧ found.sequence = sequence ∧
      found.ilpPacketType.code = type.code ∧ found.prepareAmount = amount ∧ found.frames = frames := by
  rw [buildData, h.knows.key] at h_data
  change (reply.packet type).serialize.map (encrypt crypto key iv) = .ok data at h_data
  rw [Stream.Packet.serialize_eq] at h_data
  split at h_data
  · cases h_data
  · next h_size =>
    obtain rfl : crypto.sealed key iv (reply.packet type).bytes = data := Except.ok.inj h_data
    -- what was sealed fits in a buffer, so that it is read back
    have h_fits : ((reply.packet type).bytes ++ []).length ≤ kMaxLength := by
      rw [List.append_nil]
      exact not_lt.mp h_size
    obtain ⟨found, h_found, h_fields⟩ := (reply.packet type).reads_sealed key iv [] h_fits
    rw [List.append_nil] at h_found
    refine ⟨found, h_found, ?_, h_fields.type, ?_, ?_⟩
    · exact h_fields.sequence.trans h.knows.sequence
    · exact h_fields.prepareAmount.trans h.knows.amount
    · exact h_fields.frames.trans h.frames

/-- **What is built says what the builder was told**, and has the fulfillment if it is a Fulfill. -/
theorem Built.says (h : Built crypto key sequence amount frames address fulfillment packet) :
    (∃ found, Stream.Packet.decryptAndDeserialize crypto key packet.data = some found ∧ found.sequence = sequence ∧
      found.ilpPacketType.code =
        (if packet.isFulfill then Stream.IlpPacketType.fulfill else Stream.IlpPacketType.reject).code ∧
      found.prepareAmount = amount ∧ found.frames = frames) ∧
      ∀ fulfill, packet = .fulfill fulfill → fulfill.fulfillment = fulfillment := by
  cases h with
  | @fulfill reply iv fulfill h_told h =>
    obtain ⟨data, h_data, h_packet⟩ := IlpPacket.eq_ok_of_map_eq_ok h
    obtain rfl := h_packet
    refine ⟨h_told.sealed_of_buildData h_data, ?_⟩
    rintro fulfill h_fulfill
    obtain rfl := IlpReply.fulfill.inj h_fulfill
    rfl
  | @reject reply iv code reject h_told h_code h =>
    obtain ⟨data, h_data, h_packet⟩ := IlpPacket.eq_ok_of_map_eq_ok h
    obtain rfl := h_packet
    exact ⟨h_told.sealed_of_buildData h_data, by simp⟩

/-- A Reject that is built is valid, if the address of the builder is. -/
theorem Built.isValid {reject : IlpPacket.IlpReject} (h_address : IlpPacket.isValidIlpAddress address = true)
    (h : Built crypto key sequence amount frames address fulfillment (.reject reject)) :
    (IlpPacket.Packet.reject reject).IsValid := by
  cases h with
  | @reject reply iv code _ h_told h_code h =>
    obtain ⟨data, -, h_packet⟩ := IlpPacket.eq_ok_of_map_eq_ok h
    obtain rfl := h_packet
    -- both error codes have three letters
    have h_three : code.toList.length = 3 ∧ Ascii.IsAscii code.toList := by
      obtain rfl | rfl := h_code
      · exact ⟨by decide, Ascii.isAscii_of_all (by decide)⟩
      · exact ⟨by decide, Ascii.isAscii_of_all (by decide)⟩
    refine ⟨?_, h_three⟩
    change (IlpPacket.isValidIlpAddress reply.ilpAddress || _) = true
    rw [h_told.address, h_address]
    rfl

end Built

end Interledger.StreamReceiver
