import Interledger.Ildcp.Codec

/-!
# IL-DCP between a client and a server

`serve` and `fetch` of `ilp-protocol-ildcp/src/index.ts`. A server catches whatever goes wrong, its
handler included, and replies with a Reject that has the message of the error; a client throws an error
with the message of a Reject.

The expiry of a request has to fit in the 17 characters of a Prepare. A client throws before it sends
anything where it does not.

## Main results

* `decodes_serve` — every reply is a Fulfill or a Reject;
* `fetch_of_reject`, `fetch_of_fulfill` — what a client makes of either;
* `Exchange.served` — what comes of a request.
-/

namespace Interledger.Ildcp

open Oer IlpPacket
open Ilp (Buffer)

/-- The message of an error, if it is not one of the platform. -/
def ownMessage : OerError → Option String
  | .error message => some message
  | .parseError message => some message
  | .underflowError message => some message
  | .rangeError => none

/-- The messages of the errors of a platform: a string for each, its own where it has one that is. -/
structure Messages where
  message : OerError → JsString
  eq_own : ∀ e text, ownMessage e = some text → IsText text → (message e).text = text

/-- `ServeSettings`. A handler returns something, or throws an `Error` with a message. -/
structure ServeSettings where
  requestPacket : Buffer
  handler : IldcpRequest → Except JsString Info
  serverAddress : String

/-- What `serve` tries: the reply, or the message of the error that is thrown. -/
def respond (platform : Messages) (clock : Clock) (settings : ServeSettings) : Except JsString Buffer := do
  let _ ← (deserializeIldcpRequest clock settings.requestPacket).mapError platform.message
  let info ← settings.handler {}
  (serializeIldcpResponse info).mapError platform.message

/-- `err.message`, or what stands for an empty one. -/
def shownMessage (message : JsString) : String :=
  if message.text ≠ "" then message.text else "unexpected error."

/-- `serve`. -/
def serve (platform : Messages) (clock : Clock) (settings : ServeSettings) : Except OerError Buffer :=
  match respond platform clock settings with
  | .ok binary => .ok binary
  | .error message => serializeIlpReject
      { code := "F00", message := shownMessage message, triggeredBy := settings.serverAddress, data := [] }

/-- `new Error('IL-DCP failed: ' + message)`, unless the string is too long to be made. -/
def failure (message : String) : OerError :=
  if IsText ("IL-DCP failed: " ++ message) then .error ("IL-DCP failed: " ++ message) else .rangeError

/-- `fetch`. -/
def fetch (sendData : Buffer → Except OerError Buffer) (clock : Clock) (request : Option IldcpRequest) :
    Except OerError IldcpResponse := do
  let packet ← serializeIldcpRequest clock (request.getD {})
  let data ← sendData packet
  if data[0]? = some 14 then
    let { message, .. } ← deserializeIlpReject data
    throw (failure message)
  else if data[0]? ≠ some 13 then
    throw (.error "IL-DCP error, unable to retrieve client configuration.")
  else deserializeIldcpResponse data

/-! ### What is asked -/

/-- The bytes are those of a Fulfill or a Reject. -/
def DecodesAsReply (binary : Buffer) : Prop :=
  (∃ fulfill, deserializeIlpPacket binary = .ok (.fulfill fulfill)) ∨
    ∃ reject, deserializeIlpPacket binary = .ok (.reject reject)

/-- A request on its way from a client to a server, which reads it `later`. -/
structure Exchange where
  platform : Messages
  clock : Clock
  later : Clock
  request : Option IldcpRequest
  handler : IldcpRequest → Except JsString Info
  serverAddress : String

namespace Exchange

variable (exchange : Exchange)

/-- The request, or its default. -/
def given : IldcpRequest := exchange.request.getD {}

/-- What the server is given along with the bytes of a packet. -/
def settings (packet : Buffer) : ServeSettings :=
  { requestPacket := packet, handler := exchange.handler, serverAddress := exchange.serverAddress }

/-- `serve`, behind a transport that passes its bytes on. -/
def sendData (packet : Buffer) : Except OerError Buffer :=
  serve exchange.platform exchange.later (exchange.settings packet)

/-- What the client returns. -/
def result : Except OerError IldcpResponse := fetch exchange.sendData exchange.clock exchange.request

/-- The request is written: the year of its expiry has up to four characters, and it fits in a buffer. -/
def IsSent : Prop := ¬(exchange.given.toPrepare exchange.clock).Refused

/-- The expiry is that of a date with a year of four characters that is not the epoch. -/
def HasReadableExpiry : Prop := exchange.given.HasReadableExpiry exchange.clock

/-- The server finds the request expired. -/
def IsExpired : Prop := (exchange.given.expiry exchange.clock).time < exchange.later.now

/-- The reply is a Reject that can be decoded, and the client throws an error with its message. -/
def FailsWith (message : String) : Prop :=
  (∃ packet binary reject, serializeIldcpRequest exchange.clock exchange.given = .ok packet ∧
    exchange.sendData packet = .ok binary ∧ deserializeIlpPacket binary = .ok (.reject reject) ∧
    reject.message = message) ∧
  exchange.result = .error (.error ("IL-DCP failed: " ++ message))

/-- What comes of a request. -/
structure Served : Prop where
  /-- Whatever bytes the server is given, it replies. -/
  decodes : ∀ packet, ∃ binary, exchange.sendData packet = .ok binary ∧ DecodesAsReply binary
  /-- A request that cannot be written is not sent, whatever the transport. -/
  notSent : ¬exchange.IsSent → ∀ sendData, ∃ e, fetch sendData exchange.clock exchange.request = .error e
  /-- An expired request is rejected. -/
  expired : exchange.IsSent → exchange.IsExpired → ∃ message, exchange.FailsWith message ∧
    (exchange.HasReadableExpiry → message = "IL-DCP request packet is expired.")
  /-- What the handler throws comes out at the client. -/
  thrown : exchange.IsSent → exchange.HasReadableExpiry → ¬exchange.IsExpired →
    ∀ message, exchange.handler {} = .error message → message.text ≠ "" →
      IsText ("IL-DCP failed: " ++ message.text) → exchange.FailsWith message.text
  /-- So does what it returns. -/
  returned : exchange.IsSent → exchange.HasReadableExpiry → ¬exchange.IsExpired →
    ∀ response (h : response.IsValid), exchange.handler {} = .ok (response.toInfo h) →
      exchange.result = .ok response

end Exchange

/-! ### Replies -/

section Replies

variable {platform : Messages} {clock : Clock} {settings : ServeSettings}

/-- A Reject of any message is written and read back. -/
theorem reads_serializeIlpReject {triggeredBy : String} (message : JsString)
    (h : (isValidIlpAddress triggeredBy || triggeredBy = "") = true) :
    ∃ binary, serializeIlpReject ⟨"F00", triggeredBy, shownMessage message, []⟩ = .ok binary ∧
      deserializeIlpPacket binary = .ok (.reject ⟨"F00", triggeredBy, shownMessage message, []⟩) := by
  have h_code : "F00".toList.length = 3 ∧ Ascii.IsAscii "F00".toList :=
    ⟨by decide, Ascii.isAscii_of_all (by decide)⟩
  have h_valid : (Packet.reject ⟨"F00", triggeredBy, shownMessage message, []⟩).IsValid := ⟨h, h_code⟩
  have h_size : envelopeSize
      (IlpReject.contentSize ⟨"F00", triggeredBy, shownMessage message, []⟩) ≤ kMaxLength := by
    -- an address has at most 1023 characters, and a message at most half of what a buffer holds
    have h_address : (Ascii.encode triggeredBy.toList).length ≤ 1023 := by
      rcases Bool.or_eq_true_iff.mp h with h_address | h_empty
      · rw [Ascii.length_encode (isAscii_of_isValidIlpAddress h_address)]
        exact of_decide_eq_true (Bool.and_eq_true_iff.mp h_address).1
      · rw [of_decide_eq_true h_empty]
        exact Nat.zero_le _
    have h_message : 2 * (Utf8.encode (shownMessage message).toList).length ≤ kMaxLength := by
      unfold shownMessage
      split
      · exact message.length_encode_le
      · exact JsString.length_encode_le ⟨"unexpected error.", by decide⟩
    unfold kMaxLength at h_message ⊢
    have h₁ := measureVarOctetString_le (n := (Ascii.encode triggeredBy.toList).length) (by omega)
    have h₂ := measureVarOctetString_le (n := (Utf8.encode (shownMessage message).toList).length) (by omega)
    have h₃ := measureVarOctetString_le (n := 0) (by decide)
    have h₄ := measureVarOctetString_le (n := 3 +
      Predictor.measureVarOctetString (Ascii.encode triggeredBy.toList).length +
      Predictor.measureVarOctetString (Utf8.encode (shownMessage message).toList).length +
      Predictor.measureVarOctetString 0) (by omega)
    change 1 + Predictor.measureVarOctetString (3 +
      Predictor.measureVarOctetString (Ascii.encode triggeredBy.toList).length +
      Predictor.measureVarOctetString (Utf8.encode (shownMessage message).toList).length +
      Predictor.measureVarOctetString 0) ≤ _
    omega
  obtain ⟨binary, h_serialize, h_read, -⟩ := Packet.survives_reject h_valid h_size
  exact ⟨binary, h_serialize, h_read⟩

/-- An error is replied to with a Reject. -/
theorem serve_of_error {message : JsString} (h : respond platform clock settings = .error message)
    (h_server : (isValidIlpAddress settings.serverAddress || settings.serverAddress = "") = true) :
    ∃ binary, serve platform clock settings = .ok binary ∧ deserializeIlpPacket binary =
      .ok (.reject ⟨"F00", settings.serverAddress, shownMessage message, []⟩) := by
  obtain ⟨binary, h_serialize, h_read⟩ := reads_serializeIlpReject message h_server
  refine ⟨binary, ?_, h_read⟩
  rw [serve, h]
  exact h_serialize

/-- Any other reply is a Fulfill. -/
theorem serve_of_ok {binary : Buffer} (h : respond platform clock settings = .ok binary) :
    serve platform clock settings = .ok binary ∧
      ∃ data, deserializeIlpPacket binary = .ok (.fulfill ⟨peerProtocolFulfillment, data⟩) := by
  constructor
  · rw [serve, h]
  · unfold respond at h
    obtain ⟨-, -, h⟩ := eq_ok_of_bind_eq_ok h
    obtain ⟨info, -, h⟩ := eq_ok_of_bind_eq_ok h
    cases h_serialize : serializeIldcpResponse info with
    | error e =>
      rw [h_serialize] at h
      cases h
    | ok bytes =>
      rw [h_serialize] at h
      cases h
      exact deserialize_serializeIldcpResponse h_serialize

/-- **A server always replies.** -/
theorem decodes_serve
    (h_server : (isValidIlpAddress settings.serverAddress || settings.serverAddress = "") = true) :
    ∃ binary, serve platform clock settings = .ok binary ∧ DecodesAsReply binary := by
  cases h : respond platform clock settings with
  | error message =>
    obtain ⟨binary, h_serve, h_read⟩ := serve_of_error h h_server
    exact ⟨binary, h_serve, .inr ⟨_, h_read⟩⟩
  | ok binary =>
    obtain ⟨h_serve, data, h_read⟩ := serve_of_ok h
    exact ⟨binary, h_serve, .inl ⟨_, h_read⟩⟩

end Replies

/-! ### What a client makes of them -/

section Clients

variable {sendData : Buffer → Except OerError Buffer} {clock : Clock} {request : Option IldcpRequest}
  {packet binary : Buffer}

/-- A request that cannot be written is not sent. -/
theorem fetch_of_refused (h : ((request.getD {}).toPrepare clock).Refused) :
    ∃ e, fetch sendData clock request = .error e := by
  obtain ⟨e, h_error⟩ := serializeIldcpRequest_eq_error h
  refine ⟨e, ?_⟩
  rw [fetch, h_error]
  rfl

/-- **A Reject** is thrown on. -/
theorem fetch_of_reject {reject : IlpReject}
    (h_packet : serializeIldcpRequest clock (request.getD {}) = .ok packet)
    (h_send : sendData packet = .ok binary) (h : deserializeIlpPacket binary = .ok (.reject reject)) :
    fetch sendData clock request = .error (failure reject.message) := by
  obtain ⟨h_first, h_read⟩ := deserialize_of_deserializeIlpPacket h
  obtain ⟨found, h_reject, h_same⟩ := eq_ok_of_map_eq_ok h_read
  obtain rfl := Packet.reject.inj h_same
  have h_type : binary[0]? = some 14 := h_first
  rw [fetch, h_packet, ok_bind, h_send, ok_bind, if_pos h_type, h_reject]
  rfl

/-- **A Fulfill** is deserialized. -/
theorem fetch_of_fulfill {fulfill : IlpFulfill}
    (h_packet : serializeIldcpRequest clock (request.getD {}) = .ok packet)
    (h_send : sendData packet = .ok binary) (h : deserializeIlpPacket binary = .ok (.fulfill fulfill)) :
    fetch sendData clock request = deserializeIldcpResponse binary := by
  obtain ⟨h_first, -⟩ := deserialize_of_deserializeIlpPacket h
  have h_type : binary[0]? = some 13 := h_first
  have h_other : ¬binary[0]? = some 14 := by
    rw [h_type]
    decide
  rw [fetch, h_packet, ok_bind, h_send, ok_bind, if_neg h_other, if_neg (not_not.mpr h_type)]

end Clients

/-! ### What comes of a request -/

namespace Exchange

variable {exchange : Exchange}

/-- The server throws a message, other than an empty one, and the client throws an error with it. -/
theorem failsWith_of_respond {packet : Buffer} {message : JsString}
    (h_server : (isValidIlpAddress exchange.serverAddress || exchange.serverAddress = "") = true)
    (h_packet : serializeIldcpRequest exchange.clock exchange.given = .ok packet)
    (h : respond exchange.platform exchange.later (exchange.settings packet) = .error message)
    (h_ne : message.text ≠ "") (h_text : IsText ("IL-DCP failed: " ++ message.text)) :
    exchange.FailsWith message.text := by
  obtain ⟨binary, h_serve, h_read⟩ := serve_of_error h h_server
  have h_shown : shownMessage message = message.text := if_pos h_ne
  rw [h_shown] at h_read
  refine ⟨⟨packet, binary, _, h_packet, h_serve, h_read, rfl⟩, ?_⟩
  have h_send : exchange.sendData packet = .ok binary := h_serve
  have h_fetch := @fetch_of_reject exchange.sendData _ _ _ _ _ h_packet h_send h_read
  rw [failure, if_pos h_text] at h_fetch
  exact h_fetch

/-- So it is with an error that the request itself makes. -/
theorem failsWith_of_deserialize {packet : Buffer} {text : String}
    (h_server : (isValidIlpAddress exchange.serverAddress || exchange.serverAddress = "") = true)
    (h_packet : serializeIldcpRequest exchange.clock exchange.given = .ok packet)
    (h : deserializeIldcpRequest exchange.later packet = .error (.error text))
    (h_own : IsText text) (h_ne : text ≠ "") (h_text : IsText ("IL-DCP failed: " ++ text)) :
    exchange.FailsWith text := by
  have h_message := exchange.platform.eq_own (.error text) text rfl h_own
  have h_respond : respond exchange.platform exchange.later (exchange.settings packet) =
      .error (exchange.platform.message (.error text)) := by
    have h_request : deserializeIldcpRequest exchange.later (exchange.settings packet).requestPacket =
        .error (.error text) := h
    rw [respond, h_request]
    rfl
  rw [← h_message] at h_ne h_text ⊢
  exact failsWith_of_respond h_server h_packet h_respond h_ne h_text

/-- A request in time reaches the handler. -/
theorem respond_of_readable {packet : Buffer} (h_sent : exchange.IsSent)
    (h_readable : exchange.HasReadableExpiry) (h_time : ¬exchange.IsExpired)
    (h_packet : serializeIldcpRequest exchange.clock exchange.given = .ok packet) :
    respond exchange.platform exchange.later (exchange.settings packet) =
      exchange.handler {} >>= fun info =>
        (serializeIldcpResponse info).mapError exchange.platform.message := by
  have h_request := deserializeIldcpRequest_readable h_sent h_readable h_packet exchange.later
  have h_unexpired : ¬(exchange.given.expiry exchange.clock).time < exchange.later.now := h_time
  rw [if_neg h_unexpired] at h_request
  have h_settings : deserializeIldcpRequest exchange.later (exchange.settings packet).requestPacket = _ :=
    h_request
  rw [respond, h_settings]
  rfl

/-- **What comes of a request**, for any server with a valid or empty address. -/
theorem served (h_server : (isValidIlpAddress exchange.serverAddress || exchange.serverAddress = "") = true) :
    exchange.Served where
  decodes _ := decodes_serve h_server
  notSent h_not sendData := fetch_of_refused (not_not.mp h_not)
  expired h_sent h_time := by
    obtain ⟨zeros, h_packet, -⟩ := serializeIldcpRequest_eq_ok h_sent
    -- what cannot be read is refused before its expiry is looked at
    by_cases h_readable : exchange.HasReadableExpiry
    · have h_request := deserializeIldcpRequest_readable h_sent h_readable h_packet exchange.later
      have h_expired : (exchange.given.expiry exchange.clock).time < exchange.later.now := h_time
      rw [if_pos h_expired] at h_request
      exact ⟨_, failsWith_of_deserialize h_server h_packet h_request (by decide +kernel) (by decide)
        (by decide +kernel), fun _ => rfl⟩
    · have h_request := deserializeIldcpRequest_unreadable h_sent h_readable h_packet exchange.later
      exact ⟨_, failsWith_of_deserialize h_server h_packet h_request (by decide +kernel) (by decide)
        (by decide +kernel), fun h => absurd h h_readable⟩
  thrown h_sent h_readable h_time message h_handler h_ne h_text := by
    obtain ⟨zeros, h_packet, -⟩ := serializeIldcpRequest_eq_ok h_sent
    have h_respond := respond_of_readable h_sent h_readable h_time h_packet
    rw [h_handler] at h_respond
    exact failsWith_of_respond h_server h_packet h_respond h_ne h_text
  returned h_sent h_readable h_time response h h_handler := by
    obtain ⟨zeros, h_packet, -⟩ := serializeIldcpRequest_eq_ok h_sent
    obtain ⟨binary, h_serialize, h_response⟩ := deserializeIldcpResponse_serialize h
    have h_respond := respond_of_readable h_sent h_readable h_time h_packet
    rw [h_handler, ok_bind, h_serialize] at h_respond
    obtain ⟨h_serve, data, h_read⟩ := serve_of_ok h_respond
    have h_send : exchange.sendData _ = .ok binary := h_serve
    have h_fetch := @fetch_of_fulfill exchange.sendData _ _ _ _ _ h_packet h_send h_read
    exact h_fetch.trans h_response

/-- A platform whose own messages are the same for all errors of a kind. -/
instance : Inhabited Messages where
  default :=
    { message := fun e =>
        match ownMessage e with
        | some text => if h : IsText text then ⟨text, h⟩ else ⟨"Invalid string length", by decide +kernel⟩
        | none => ⟨"Array buffer allocation failed", by decide +kernel⟩
      eq_own := by
        intro e text h_own h_text
        simp only [h_own, dif_pos h_text] }

/-- A response. -/
def alice : IldcpResponse := ⟨"g.alice", 9, "€"⟩

theorem isValid_alice : alice.IsValid := ⟨by decide, by decide, by decide +kernel⟩

/-- An exchange of 29 February 2024. -/
def leapDay (expiresAt : Option Date) : Exchange where
  platform := default
  clock := ⟨1709209425123, by decide⟩
  later := ⟨1709209425143, by decide⟩
  request := some { expiresAt }
  handler _ := .ok (alice.toInfo isValid_alice)
  serverAddress := "g.server"

/-- With the expiry left out, the client gets the response. -/
theorem served_leapDay : (leapDay none).result = .ok alice := by
  have h_sent : (leapDay none).IsSent := by
    rintro (h_condition | h_size | h_year)
    · exact h_condition length_peerProtocolCondition
    · exact absurd h_size (by decide +kernel)
    · exact absurd h_year (by decide +kernel)
  have h_readable : (leapDay none).HasReadableExpiry := ⟨by decide +kernel, by decide⟩
  have h_time : ¬(leapDay none).IsExpired := by
    unfold IsExpired
    decide
  exact (served (by decide)).returned h_sent h_readable h_time alice isValid_alice rfl

/-- **An expiry in the year 10000** is refused by the client, though the request is not expired. -/
theorem not_returned_farFuture : ∃ exchange : Exchange, isValidIlpAddress exchange.serverAddress = true ∧
    ¬exchange.IsExpired ∧
    (∃ response : IldcpResponse, ∃ h : response.IsValid, exchange.handler {} = .ok (response.toInfo h)) ∧
    ∃ e, exchange.result = .error e := by
  refine ⟨leapDay (some ⟨253402300800000, by decide⟩), by decide, ?_, ⟨alice, isValid_alice, rfl⟩, ?_⟩
  · unfold IsExpired
    decide
  · have h_year : ((leapDay (some ⟨253402300800000, by decide⟩)).given.expiry
        (leapDay (some ⟨253402300800000, by decide⟩)).clock).HasLongYear := by
      decide +kernel
    exact fetch_of_refused (.inr (.inr h_year))

end Exchange

end Interledger.Ildcp
