import Interledger.Lib.Action
import Interledger.Stream.Congestion
import Interledger.Stream.DataAndMoneyStream

/-!
# Connections

`Connection` of `ilp-protocol-stream/src/connection.ts`: its state, the streams it keeps a record of,
and the handling of the frames of a packet that carry no money (`handleNewStream`,
`handleControlFrames`, `destroy`), which both directions share.

While this code runs it calls into other code at fixed points: listeners of the application, Node's
own stream machinery, the sending side of the connection, and whatever runs while a function awaits.
An `Environment` says what happens at each of these points (`Signal`). It may change the connection
and, where the source does not catch errors, throw. The state of that other code is part of the
connection (`app`), so that it may do something else each time.

What such code may not do is stated as a relation between connections that every response respects
(`Environment.Respects`). The frames handled here touch no amount: they leave the `ledger` of the
connection as it is, and so respect whatever their environment respects. Most of them also leave open
the streams that are open, which a relation may concern as well (`Environment.Admits`); where opening,
closing and destroying preserve it, every packet does (`Environment.Carries`).

## Main results

* `ledger_updateStream` — a change to a stream that keeps its account keeps the ledger;
* `handleControlFrames_preserves` — what packets carry, control frames preserve;
* `Environment.Respects.carries` — packets carry what the environment respects.
-/

namespace Interledger.Stream

open Interledger.Ilp Interledger.Action Long

/-- `MAX_DATA_SIZE`. -/
def maxDataSize : ℕ := 32767

/-- `RemoteState`. -/
inductive RemoteState
  | init
  | connected
  | closed
  deriving DecidableEq

/-- The slippage of a connection that is given none, 1%. -/
def defaultSlippage : Rational := ⟨1, 100, hundred_ne_zero⟩

/-- What a connection is given when it is built, and does not change. -/
structure ConnectionOpts where
  isServer : Bool
  sourceAccount : String
  sourceAssetCode : String
  sourceAssetScale : UInt8
  receiptNonce : Option Buffer := none
  receiptSecret : Option Buffer := none
  /-- Whether there is a `shouldFulfill`. -/
  shouldFulfill : Bool := false
  enablePadding : Bool := false
  maxBufferedData : ℕ := maxDataSize * 2
  slippage : Rational := defaultSlippage

/-- `Connection`. The streams include those whose record was removed (`closedStreams`). -/
structure Connection (App : Type) where
  app : App
  destinationAccount : Option String := none
  destinationAssetCode : Option String := none
  destinationAssetScale : Option UInt8 := none
  maxStreamId : ℕ := 20
  remoteMaxStreamId : ℕ := 20
  remoteMaxOffset : ℕ := maxDataSize * 2
  queuedFrames : List Frame := []
  streams : OrderedMap StreamId DataAndMoneyStream := .empty
  looping : Bool := false
  sending : Bool := false
  connected : Bool := false
  closed : Bool := true
  done : Bool := false
  remoteState : RemoteState := .init
  remoteKnowsOurAccount : Bool := false
  nextPacketSequence : ℕ := 1
  exchangeRate : Option Rational := none
  congestion : CongestionController := {}
  /-- Milliseconds to wait after a temporary error. -/
  retryDelay : ℕ := 100
  lastPacketExchangeRate : Rational := .uzero
  incomingHold : Long := 0
  totalReceived : Long := 0
  totalSent : Long := 0
  totalDelivered : Long := 0
  deriving DecidableEq

/-- The points at which other code runs. -/
inductive Signal
  /-- The function awaits something. -/
  | idle
  | connect
  | error
  | stream (id : StreamId)
  /-- Data of a stream is pushed into Node's buffer. -/
  | data (id : StreamId) (data : Buffer)
  /-- A stream is ended. -/
  | streamEnd (id : StreamId)
  | money (id : StreamId) (amount : Long)
  | outgoingMoney (id : StreamId) (amount : Long)
  | outgoingTotalSent (id : StreamId)
  /-- Data written to a stream was taken to be sent: the callbacks of the writes run. -/
  | written (id : StreamId)
  /-- The application's `getExpiry` is called. -/
  | getExpiry
  | sendLoopFinished
  /-- The connection is ended: its `end` runs. -/
  | connectionEnd
  /-- The send loop starts with the volley of test packets. -/
  | setupExchangeRate
  deriving DecidableEq

/-- `IlpPrepare`. -/
structure IlpPrepare where
  amount : Long
  executionCondition : Buffer
  data : Buffer
  deriving DecidableEq

/-- The functions of packages and of Node that a connection calls, with its keys. -/
structure Library where
  /-- `Packet.decryptAndDeserialize`, which throws (`none`) unless the data is a packet encrypted
  with the key of the connection. -/
  decryptAndDeserialize : Buffer → Option Packet
  /-- `generateFulfillment`. -/
  generateFulfillment : Buffer → Buffer
  /-- `hash`. -/
  hash : Buffer → Buffer
  /-- `generateReceiptHMAC(secret, message)`. -/
  generateReceiptHMAC : Buffer → Buffer → Buffer
  /-- `Writer.writeUInt8`, which throws an error when the number is not a byte. -/
  writeUInt8 : ℕ → Except String UInt8

/-- What surrounds a connection: its options, the functions it calls, and the code that runs at each
signal, with what this makes of the connection and whether it throws. -/
structure Environment (App : Type) extends ConnectionOpts, Library where
  respond : Signal → Connection App → Connection App × Bool

/-- What the functions of a connection throw. -/
inductive Thrown
  /-- `UnexpectedPaymentError`. -/
  | unexpectedPayment
  /-- `FinalApplicationError`, with the response it carries. -/
  | finalApplicationError (response : Packet)
  /-- `BadRequestError`. -/
  | badRequest (message : String)
  /-- A connector rejected a packet for good. -/
  | unexpectedReject (reject : IlpReject)
  | error (message : String)
  /-- An error of the code around the connection. -/
  | application
  deriving DecidableEq

/-- A function of a connection. -/
abbrev Run (App : Type) : Type → Type := Action (Connection App) Thrown

variable {App : Type}

namespace Connection

variable (c : Connection App)

/-- `this.streams.get(id)`. -/
def record? (id : StreamId) : Option DataAndMoneyStream := (c.streams.get? id).filter (·.recorded)

/-- The streams of `this.streams`, in their order. -/
def records : List (StreamId × DataAndMoneyStream) := c.streams.entries.filter (·.2.recorded)

/-- A stream, with or without a record. -/
def stream (id : StreamId) : DataAndMoneyStream := (c.streams.get? id).getD .created

/-- Change a stream. -/
def updateStream (id : StreamId) (f : DataAndMoneyStream → DataAndMoneyStream) : Connection App :=
  { c with streams := c.streams.modify id f }

/-- The `max` of `getIncomingOffsets`. -/
def incomingMaxOffset : ℕ := (c.records.map fun p => p.2.incomingData.maxOffset).sum

/-- The `maxAcceptable` of `getIncomingOffsets`. -/
def incomingMaxAcceptable (maxBufferedData : ℕ) : ℕ :=
  (c.records.map fun p => p.2.incomingData.readOffset).sum
    - (c.records.map fun p => p.2.readableLength).sum + maxBufferedData

end Connection

section Functions

variable (env : Environment App)

/-- `emit`: an error of a listener is thrown on. -/
def emit (signal : Signal) : Run App Unit := do
  let (c, threw) := env.respond signal (← get)
  modify fun _ => c
  if threw then throw .application

/-- `safeEmit`: an error of a listener is logged. -/
def safeEmit (signal : Signal) : Run App Unit := modify fun c => (env.respond signal c).1

/-- Wait for something. -/
def await : Run App Unit := safeEmit env .idle

/-- `this.queuedFrames.push(frame)`. -/
def queueFrame (frame : Frame) : Run App Unit :=
  modify fun c => { c with queuedFrames := c.queuedFrames ++ [frame] }

/-- The frames queued so far, which are taken off the queue. -/
def takeQueuedFrames : Run App (List Frame) := do
  let c ← get
  modify fun c => { c with queuedFrames := [] }
  pure c.queuedFrames

/-- `startSendLoop`, up to its first `await`. -/
def startSendLoop : Run App Unit := do
  let c ← get
  if c.looping then modify fun c => { c with sending := true }
  else if c.remoteState = .closed then safeEmit env .sendLoopFinished
  else if c.destinationAccount = none then safeEmit env .sendLoopFinished
  else do
    modify fun c => { c with looping := true, sending := true }
    if c.connected then pure () else safeEmit env .setupExchangeRate

/-- `sendConnectionClose`, up to its first `await`. -/
def sendConnectionClose : Run App Unit := do
  let c ← get
  if c.remoteState = .closed then pure ()
  else if c.destinationAccount = none then
    modify fun c =>
      { c with nextPacketSequence := c.nextPacketSequence + 1, remoteState := .closed }
  else modify fun c => { c with nextPacketSequence := c.nextPacketSequence + 1 }

/-- `destroy` with an error, up to its first `await`. -/
def destroy : Run App Unit := do
  let c ← get
  if c.done then pure ()
  else do
    safeEmit env .error
    modify fun c =>
      { c with
        streams := c.streams.mapValues fun _ s => if s.recorded then s.destroy none else s }
    sendConnectionClose

/-- Refuse a new stream. -/
def refuseStream (errorCode : ErrorCode) (errorMessage thrown : String) : Run App Unit := do
  queueFrame (.connectionClose errorCode errorMessage)
  safeEmit env .error
  throw (.error thrown)

/-- Tell the peer the largest id, once three quarters of the ids are used up. -/
def announceMaxStreamId (streamId : StreamId) : Run App Unit :=
  modify fun c =>
    if 3 * c.maxStreamId < 4 * streamId.val then
      { c with queuedFrames := c.queuedFrames ++ [.connectionMaxStreamId (fromNumber c.maxStreamId)] }
    else c

/-- `handleNewStream`. -/
def handleNewStream (streamId : StreamId) : Run App Unit := do
  let c ← get
  if (c.streams.get? streamId).isSome then pure ()
  else if env.isServer ∧ streamId.val % 2 = 0 then
    let message := s!"Invalid Stream ID: {streamId.val}. Client-initiated streams must have odd-numbered IDs"
    refuseStream env .protocolViolation message message
  else if ¬env.isServer ∧ streamId.val % 2 = 1 then
    let message := s!"Invalid Stream ID: {streamId.val}. Server-initiated streams must have even-numbered IDs"
    refuseStream env .protocolViolation message message
  else if c.maxStreamId < streamId.val then
    let message :=
      s!"Maximum number of open streams exceeded. Got stream: {streamId.val}, current max stream ID: {c.maxStreamId}"
    refuseStream env .streamIdError message message
  else do
    announceMaxStreamId streamId
    modify fun c => { c with streams := c.streams.set streamId .created }
    safeEmit env (.stream streamId)

/-- `_remoteEnded`. An error destroys the stream, otherwise Node ends it. -/
def remoteEnded (streamId : StreamId) (err : Option String) : Run App Unit := do
  modify fun c => c.updateStream streamId fun s => { s with remoteSentEnd := true, remoteClosed := true }
  match err with
  | some message => modify fun c => c.updateStream streamId fun s => s.destroy (some message)
  | none => safeEmit env (.streamEnd streamId)

/-- `handleStreamClose`. -/
def handleStreamClose (streamId : StreamId) (errorMessage : String) : Run App Unit := do
  match (← get).record? streamId with
  | none => pure ()
  | some s =>
    if ¬s.isOpen ∨ s.remoteSentEnd then pure ()
    else do
      modify fun c => c.updateStream streamId fun s => { s with sentEnd := true }
      remoteEnded env streamId (if errorMessage = "" then none else some errorMessage)
      modify fun c => { c with maxStreamId := c.maxStreamId + 2 }
      queueFrame (.connectionMaxStreamId (fromNumber (← get).maxStreamId))
      startSendLoop env

/-- `_read`: take data from the sorter until Node's buffer is full. Each round takes one entry, so
that their number bounds the rounds. -/
def readIncoming (streamId : StreamId) : (rounds size : ℕ) → Run App Unit
  | 0, _ => pure ()
  | rounds + 1, size => do
    match ((← get).stream streamId).incomingData.read.1 with
    | none => pure ()
    | some data => do
      modify fun c => c.updateStream streamId fun s => s.readIncoming.2
      emit env (.data streamId data)
      if data.length < size then readIncoming streamId rounds (size - data.length) else pure ()

/-- `_pushIncomingData`. -/
def pushIncomingData (streamId : StreamId) (data : Buffer) (offset : ℕ) : Run App Unit := do
  modify fun c => c.updateStream streamId fun s => s.pushIncoming data offset
  let s := (← get).stream streamId
  readIncoming env streamId s.incomingData.entries.length (s.readableHighWaterMark - s.readableLength)

/-- `ConnectionNewAddress`. -/
def handleNewAddress (sourceAccount : String) : Run App Unit := do
  let c ← get
  queueFrame (.connectionMaxStreamId (fromNumber c.maxStreamId))
  queueFrame (.connectionAssetDetails env.sourceAssetCode env.sourceAssetScale)
  modify fun c => { c with destinationAccount := some sourceAccount }
  if c.destinationAccount = none then do
    modify fun c => { c with closed := false }
    safeEmit env .connect

/-- `ConnectionClose`. -/
def handleConnectionClose (errorCode : ErrorCode) : Run App Unit := do
  modify fun c => { c with sending := false, closed := true, remoteState := .closed }
  if errorCode = .noError then safeEmit env .connectionEnd else destroy env

/-- `ConnectionMaxData`: the first frame may lower the limit that was assumed. -/
def handleMaxData (maxOffset : Long) : Run App Unit :=
  modify fun c =>
    { c with
      remoteMaxOffset :=
        if maxOffset.equalsNumber env.maxBufferedData then maxOffset.toNumber
        else max maxOffset.toNumber c.remoteMaxOffset }

/-- `StreamMaxMoney`. -/
def handleStreamMaxMoney (streamId : StreamId) (receiveMax totalReceived : Long) : Run App Unit := do
  match (← get).record? streamId with
  | none => pure ()
  | some _ =>
    modify fun c =>
      c.updateStream streamId fun s =>
        { s with
          remoteReceived := maxLong s.remoteReceived totalReceived
          remoteReceiveMax :=
            if s.remoteReceiveMax ≠ maxUnsignedValue then maxLong s.remoteReceiveMax receiveMax
            else receiveMax }
    let s := (← get).stream streamId
    if s.remoteReceiveMax > s.remoteReceived ∧ s.amountAvailableToSend > 0 then startSendLoop env

/-- `StreamData`. -/
def handleStreamData (streamId : StreamId) (data : Buffer) (offset : ℕ) : Run App Unit := do
  match (← get).record? streamId with
  | none => pure ()
  | some _ =>
    pushIncomingData env streamId data offset
    let s := (← get).stream streamId
    if s.incomingData.maxOffset > s.maxAcceptable then destroy env

/-- `StreamMaxData`. -/
def handleStreamMaxData (streamId : StreamId) (newOffset : ℕ) : Run App Unit := do
  match (← get).record? streamId with
  | none => pure ()
  | some s =>
    if newOffset > s.remoteMaxOffset then do
      modify fun c => c.updateStream streamId fun s => { s with remoteMaxOffset := newOffset }
      startSendLoop env

/-- One frame of `handleControlFrames`. The frames that are only logged, and those with money, do
nothing. -/
def handleControlFrame : Frame → Run App Unit
  | .connectionNewAddress sourceAccount => handleNewAddress env sourceAccount
  | .connectionAssetDetails sourceAssetCode sourceAssetScale =>
    modify fun c =>
      { c with
        destinationAssetCode := some sourceAssetCode, destinationAssetScale := some sourceAssetScale }
  | .connectionClose errorCode _ => handleConnectionClose env errorCode
  | .connectionMaxData maxOffset => handleMaxData env maxOffset
  | .connectionMaxStreamId maxStreamId =>
    modify fun c => { c with remoteMaxStreamId := maxStreamId.toNumber }
  | .streamClose streamId _ errorMessage => handleStreamClose env streamId.toStreamId errorMessage
  | .streamMaxMoney streamId receiveMax totalReceived =>
    handleStreamMaxMoney env streamId.toStreamId receiveMax totalReceived
  | .streamData streamId offset data =>
    handleStreamData env streamId.toStreamId data offset.toNumber
  | .streamMaxData streamId maxOffset =>
    handleStreamMaxData env streamId.toStreamId maxOffset.toNumber
  | .connectionDataBlocked _ | .connectionStreamIdBlocked _ | .streamMoneyBlocked _ _ _
  | .streamDataBlocked _ _ | .streamMoney _ _ | .streamReceipt _ _ => pure ()

/-- `handleControlFrames`. -/
def handleControlFrames (frames : List Frame) : Run App Unit :=
  forEach (handleControlFrame env) frames

end Functions

/-! ### The ledger -/

/-- The amounts of a stream. -/
structure Account where
  totalReceived : Long := 0
  receiveMax : Long := 0
  totalSent : Long := 0
  holds : OrderedMap ℕ Long := .empty

/-- The amounts of a stream. -/
def DataAndMoneyStream.account (s : DataAndMoneyStream) : Account where
  totalReceived := s.totalReceived
  receiveMax := s.receiveMax
  totalSent := s.totalSent
  holds := s.holds

/-- The amounts a connection and its streams have received and sent, and hold. -/
structure Ledger where
  incomingHold : Long
  totalReceived : Long
  account : StreamId → Account

/-- The amounts of a connection. A stream that does not exist has the account of a new one. -/
def Connection.ledger (c : Connection App) : Ledger where
  incomingHold := c.incomingHold
  totalReceived := c.totalReceived
  account id := (c.stream id).account

section Ledger

variable {c : Connection App} {id : StreamId}

/-- Changing a stream changes no other. -/
theorem stream_updateStream (c : Connection App) (id : StreamId)
    (f : DataAndMoneyStream → DataAndMoneyStream) (id' : StreamId) :
    (c.updateStream id f).stream id' = c.stream id' ∨
      id' = id ∧ (c.updateStream id f).stream id' = f (c.stream id') := by
  unfold Connection.updateStream Connection.stream
  simp only
  rw [OrderedMap.get?_modify]
  by_cases h_eq : id' = id
  · rw [if_pos h_eq]
    cases c.streams.get? id' with
    | none => exact .inl rfl
    | some s => exact .inr ⟨h_eq, rfl⟩
  · rw [if_neg h_eq]
    exact .inl rfl

/-- A stream that there is is changed. -/
theorem stream_updateStream_self (h_known : (c.streams.get? id).isSome)
    (f : DataAndMoneyStream → DataAndMoneyStream) :
    (c.updateStream id f).stream id = f (c.stream id) := by
  obtain ⟨s, h_get⟩ := Option.isSome_iff_exists.mp h_known
  unfold Connection.updateStream Connection.stream
  simp only
  rw [OrderedMap.get?_modify_self, h_get]
  rfl

/-- Changing a stream neither adds nor removes one. -/
theorem isSome_get?_updateStream (c : Connection App) (id : StreamId)
    (f : DataAndMoneyStream → DataAndMoneyStream) (id' : StreamId) :
    ((c.updateStream id f).streams.get? id').isSome = (c.streams.get? id').isSome := by
  unfold Connection.updateStream
  simp only
  rw [OrderedMap.get?_modify]
  split
  · exact Option.isSome_map
  · rfl

/-- **A change to a stream that keeps its account** keeps the ledger. -/
theorem ledger_updateStream {f : DataAndMoneyStream → DataAndMoneyStream}
    (hf : ∀ s, (f s).account = s.account) : (c.updateStream id f).ledger = c.ledger := by
  have h_account : ∀ id', ((c.updateStream id f).stream id').account = (c.stream id').account := by
    intro id'
    rcases stream_updateStream c id f id' with h | ⟨-, h⟩
    · rw [h]
    · rw [h, hf]
  unfold Connection.ledger
  simp only [h_account]
  rfl

/-- A new stream has the account it was read as having. -/
theorem ledger_newStream (h_new : c.streams.get? id = none) :
    ({ c with streams := c.streams.set id .created } : Connection App).ledger = c.ledger := by
  have h_stream : ∀ id', ((c.streams.set id .created).get? id').getD .created =
      (c.streams.get? id').getD .created := by
    intro id'
    rw [OrderedMap.get?_set]
    by_cases h_eq : id' = id
    · rw [if_pos h_eq, h_eq, h_new]
      rfl
    · rw [if_neg h_eq]
  unfold Connection.ledger Connection.stream
  simp only [h_stream]

/-- Changing every stream in a way that keeps its account keeps the ledger. -/
theorem ledger_mapValues {f : StreamId → DataAndMoneyStream → DataAndMoneyStream}
    (hf : ∀ id s, (f id s).account = s.account) :
    ({ c with streams := c.streams.mapValues f } : Connection App).ledger = c.ledger := by
  have h_account : ∀ id, (((c.streams.mapValues f).get? id).getD .created).account =
      ((c.streams.get? id).getD .created).account := by
    intro id
    rw [OrderedMap.get?_mapValues]
    cases c.streams.get? id with
    | none => rfl
    | some s => exact hf id s
  unfold Connection.ledger Connection.stream
  simp only [h_account]

end Ledger

/-! ### How the functions end -/

theorem exec_safeEmit (env : Environment App) (signal : Signal) (c : Connection App) :
    (safeEmit env signal).exec c = (.ok (), (env.respond signal c).1) := rfl

theorem exec_await (env : Environment App) (c : Connection App) :
    (await env).exec c = (.ok (), (env.respond .idle c).1) := rfl

/-- An emitted signal ends as its response does. -/
theorem exec_emit (env : Environment App) (signal : Signal) (c : Connection App) :
    (emit env signal).exec c =
      (if (env.respond signal c).2 then .error .application else .ok (), (env.respond signal c).1) := by
  unfold emit
  rw [exec_bind_ok (exec_get c), exec_bind_ok (exec_modify _ _)]
  by_cases h_threw : (env.respond signal c).2 = true
  · rw [if_pos h_threw, if_pos h_threw]
    rfl
  · rw [if_neg h_threw, if_neg h_threw]
    rfl

/-- Destroying a connection does not throw. -/
theorem destroy_isOk (env : Environment App) (c : Connection App) :
    ((destroy env).exec c).1 = .ok () := by
  unfold destroy
  rw [exec_bind_ok (exec_get c)]
  by_cases h_done : c.done = true
  · rw [if_pos h_done]
    rfl
  rw [if_neg h_done, exec_bind_ok (exec_safeEmit _ _ _), exec_bind_ok (exec_modify _ _)]
  -- the close packet is sent and not waited for
  unfold sendConnectionClose
  rw [exec_bind_ok (exec_get _)]
  split
  · rfl
  · split <;> rfl

/-! ### Which streams are open -/

/-- Whether there is a record of a stream, and whether it was closed, here or by the peer. -/
structure StreamFlags where
  recorded : Bool
  closed : Bool
  remoteSentEnd : Bool
  deriving DecidableEq

/-- The flags of a stream. -/
def DataAndMoneyStream.flags (s : DataAndMoneyStream) : StreamFlags where
  recorded := s.recorded
  closed := s.closed
  remoteSentEnd := s.remoteSentEnd

namespace Connection

/-- The flags of the streams. -/
def flags (c : Connection App) : List (StreamId × StreamFlags) :=
  c.streams.entries.map fun p => (p.1, p.2.flags)

/-- A change to a stream that keeps its flags. -/
theorem flags_updateStream {c : Connection App} {id : StreamId}
    {f : DataAndMoneyStream → DataAndMoneyStream} (hf : ∀ s, (f s).flags = s.flags) :
    (c.updateStream id f).flags = c.flags := by
  unfold flags updateStream OrderedMap.modify OrderedMap.mapValues
  simp only [List.map_map]
  apply List.map_congr_left
  intro p _
  change (p.1, DataAndMoneyStream.flags (if p.1 = id then f p.2 else p.2)) = (p.1, p.2.flags)
  by_cases h_id : p.1 = id
  · rw [if_pos h_id, hf]
  · rw [if_neg h_id]

/-- A change that neither touches the amounts nor opens or closes streams, and takes no sequence number
back. -/
structure Quiet (c c' : Connection App) : Prop where
  app : c'.app = c.app
  ledger : c'.ledger = c.ledger
  flags : c'.flags = c.flags
  maxStreamId : c'.maxStreamId = c.maxStreamId
  nextPacketSequence : c.nextPacketSequence ≤ c'.nextPacketSequence

theorem Quiet.updateStream {c : Connection App} {id : StreamId}
    {f : DataAndMoneyStream → DataAndMoneyStream} (hf : ∀ s, (f s).account = s.account)
    (hf' : ∀ s, (f s).flags = s.flags) : c.Quiet (c.updateStream id f) where
  app := rfl
  ledger := ledger_updateStream hf
  flags := flags_updateStream hf'
  maxStreamId := rfl
  nextPacketSequence := le_rfl

end Connection

/-! ### What the environment respects -/

/-- The code around a connection respects `R`, a relation that only concerns the ledger and the
sequence numbers given out: between a connection and what a response makes of it, `R` holds. -/
structure Environment.Respects (env : Environment App) (R : Connection App → Connection App → Prop) :
    Prop where
  of_ledger_eq : ∀ c c', c'.ledger = c.ledger → c.nextPacketSequence ≤ c'.nextPacketSequence → R c c'
  respond : ∀ signal c, R c (env.respond signal c).1

/-- The code around a connection respects `R`, a relation that may also concern which streams are open. -/
structure Environment.Admits (env : Environment App) (R : Connection App → Connection App → Prop) :
    Prop where
  of_quiet : ∀ c c', c.Quiet c' → R c c'
  respond : ∀ signal c, R c (env.respond signal c).1

theorem Environment.Respects.admits {env : Environment App} {R : Connection App → Connection App → Prop}
    (h : env.Respects R) : env.Admits R where
  of_quiet c c' h_quiet := h.of_ledger_eq c c' h_quiet.ledger h_quiet.nextPacketSequence
  respond := h.respond

section Admits

variable {env : Environment App} {R : Connection App → Connection App → Prop}
  [IsPreorder (Connection App) R] (h : env.Admits R)

include h

omit [IsPreorder (Connection App) R] in
theorem quiet_preserves {f : Connection App → Connection App} (hf : ∀ c : Connection App, c.Quiet (f c)) :
    Preserves R (modify f : Run App Unit) :=
  .modify fun c => h.of_quiet c (f c) (hf c)

omit [IsPreorder (Connection App) R] in
theorem safeEmit_preserves (signal : Signal) : Preserves R (safeEmit env signal) :=
  .modify (h.respond signal)

omit [IsPreorder (Connection App) R] in
theorem emit_preserves (signal : Signal) : Preserves R (emit env signal) := by
  intro c
  rw [exec_emit]
  exact h.respond signal c

omit [IsPreorder (Connection App) R] in
theorem queueFrame_preserves (frame : Frame) : Preserves R (queueFrame frame : Run App Unit) :=
  quiet_preserves h fun _ => ⟨rfl, rfl, rfl, rfl, le_rfl⟩

theorem takeQueuedFrames_preserves : Preserves R (takeQueuedFrames : Run App (List Frame)) := by
  refine .bind .get fun _ => .bind ?_ fun _ => .pure _
  exact quiet_preserves h fun _ => ⟨rfl, rfl, rfl, rfl, le_rfl⟩

theorem startSendLoop_preserves : Preserves R (startSendLoop env) := by
  refine .bind .get fun c => .ite (fun _ => ?_) fun _ => ?_
  · exact quiet_preserves h fun _ => ⟨rfl, rfl, rfl, rfl, le_rfl⟩
  refine .ite (fun _ => safeEmit_preserves h _) fun _ => ?_
  refine .ite (fun _ => safeEmit_preserves h _) fun _ => ?_
  refine .bind (quiet_preserves h fun _ => ⟨rfl, rfl, rfl, rfl, le_rfl⟩) fun _ => ?_
  exact .ite (fun _ => .pure ()) fun _ => safeEmit_preserves h _

theorem sendConnectionClose_preserves : Preserves R (sendConnectionClose : Run App Unit) := by
  refine .bind .get fun c => .ite (fun _ => .pure ()) fun _ => ?_
  refine .ite (fun _ => ?_) fun _ => ?_
  · exact quiet_preserves h fun _ => ⟨rfl, rfl, rfl, rfl, Nat.le_succ _⟩
  · exact quiet_preserves h fun _ => ⟨rfl, rfl, rfl, rfl, Nat.le_succ _⟩

theorem refuseStream_preserves (errorCode : ErrorCode) (errorMessage thrown : String) :
    Preserves R (refuseStream env errorCode errorMessage thrown) :=
  .bind (queueFrame_preserves h _) fun _ => .bind (safeEmit_preserves h _) fun _ => .throw _

/-- Destroying a connection closes its streams. -/
theorem destroy_preserves
    (h_close : ∀ c : Connection App, R c
      { c with streams := c.streams.mapValues fun _ s => if s.recorded then s.destroy none else s }) :
    Preserves R (destroy env) := by
  refine .bind .get fun c => .ite (fun _ => .pure ()) fun _ => ?_
  refine .bind (safeEmit_preserves h _) fun _ => ?_
  exact .bind (.modify h_close) fun _ => sendConnectionClose_preserves h

/-- A stream is opened unless it is known, refused for its id, or beyond the largest id. -/
theorem handleNewStream_preserves (streamId : StreamId)
    (h_open : ∀ c : Connection App, c.streams.get? streamId = none →
      ¬(env.isServer ∧ streamId.val % 2 = 0) → ¬(¬env.isServer ∧ streamId.val % 2 = 1) →
      streamId.val ≤ c.maxStreamId → R c { c with streams := c.streams.set streamId .created }) :
    Preserves R (handleNewStream env streamId) := by
  intro c
  unfold handleNewStream
  rw [exec_bind_ok (exec_get c)]
  by_cases h_known : (c.streams.get? streamId).isSome
  · rw [if_pos h_known]
    exact refl_of R c
  rw [if_neg h_known]
  -- each of the three checks refuses the stream, or passes
  by_cases h_even : env.isServer ∧ streamId.val % 2 = 0
  · rw [if_pos h_even]
    exact refuseStream_preserves h _ _ _ c
  rw [if_neg h_even]
  by_cases h_odd : ¬env.isServer ∧ streamId.val % 2 = 1
  · rw [if_pos h_odd]
    exact refuseStream_preserves h _ _ _ c
  rw [if_neg h_odd]
  by_cases h_max : c.maxStreamId < streamId.val
  · rw [if_pos h_max]
    exact refuseStream_preserves h _ _ _ c
  rw [if_neg h_max]
  -- announcing adds no stream, so that the new one is not known yet
  obtain ⟨c', h_exec, h_quiet, h_streams⟩ : ∃ c', (announceMaxStreamId streamId : Run App Unit).exec c =
      (.ok (), c') ∧ c.Quiet c' ∧ c'.streams = c.streams := by
    refine ⟨_, exec_modify c _, ?_, ?_⟩
    · split <;> exact ⟨rfl, rfl, rfl, rfl, le_rfl⟩
    · split <;> rfl
  rw [exec_bind_ok h_exec]
  refine trans_of R (h.of_quiet c c' h_quiet) (Preserves.bind_at ?_ fun _ t _ => safeEmit_preserves h _ t)
  refine h_open c' ?_ h_even h_odd (h_quiet.maxStreamId ▸ Nat.le_of_not_lt h_max)
  rw [h_streams]
  exact Option.not_isSome_iff_eq_none.mp h_known

/-- Data is read without a change to the amounts, whatever its listeners do. -/
theorem readIncoming_preserves (streamId : StreamId) (rounds size : ℕ) :
    Preserves R (readIncoming env streamId rounds size) := by
  induction rounds generalizing size with
  | zero => exact .pure ()
  | succ rounds ih =>
    refine .bind .get fun c => ?_
    cases (c.stream streamId).incomingData.read.1 with
    -- nothing more is in order
    | none => exact .pure ()
    | some data =>
      -- the chunk is counted, and handed to the application
      refine .bind (quiet_preserves h fun _ => .updateStream (fun _ => rfl) fun _ => rfl) fun _ => ?_
      refine .bind (emit_preserves h _) fun _ => ?_
      exact .ite (fun _ => ih _) fun _ => .pure ()

theorem pushIncomingData_preserves (streamId : StreamId) (data : Buffer) (offset : ℕ) :
    Preserves R (pushIncomingData env streamId data offset) := by
  refine .bind (quiet_preserves h fun _ => .updateStream (fun _ => rfl) fun _ => rfl) fun _ => ?_
  exact .bind .get fun _ => readIncoming_preserves h _ _ _

theorem handleNewAddress_preserves (sourceAccount : String) :
    Preserves R (handleNewAddress env sourceAccount) := by
  refine .bind .get fun c => .bind (queueFrame_preserves h _) fun _ => ?_
  refine .bind (queueFrame_preserves h _) fun _ => ?_
  refine .bind (quiet_preserves h fun _ => ⟨rfl, rfl, rfl, rfl, le_rfl⟩) fun _ => ?_
  refine .ite (fun _ => ?_) fun _ => .pure ()
  exact .bind (quiet_preserves h fun _ => ⟨rfl, rfl, rfl, rfl, le_rfl⟩) fun _ => safeEmit_preserves h _

theorem handleStreamMaxMoney_preserves (streamId : StreamId) (receiveMax totalReceived : Long) :
    Preserves R (handleStreamMaxMoney env streamId receiveMax totalReceived) := by
  refine .bind .get fun c => ?_
  cases c.record? streamId with
  | none => exact .pure ()
  | some s =>
    refine .bind (quiet_preserves h fun _ => .updateStream (fun _ => rfl) fun _ => rfl) fun _ => ?_
    exact .bind .get fun _ => .ite (fun _ => startSendLoop_preserves h) fun _ => .pure ()

theorem handleStreamMaxData_preserves (streamId : StreamId) (newOffset : ℕ) :
    Preserves R (handleStreamMaxData env streamId newOffset) := by
  refine .bind .get fun c => ?_
  cases c.record? streamId with
  | none => exact .pure ()
  | some s =>
    refine .ite (fun _ => ?_) fun _ => .pure ()
    refine .bind (quiet_preserves h fun _ => .updateStream (fun _ => rfl) fun _ => rfl) fun _ => ?_
    exact startSendLoop_preserves h

variable (h_destroy : Preserves R (destroy env))

include h_destroy

theorem handleConnectionClose_preserves (errorCode : ErrorCode) :
    Preserves R (handleConnectionClose env errorCode) := by
  refine .bind (quiet_preserves h fun _ => ⟨rfl, rfl, rfl, rfl, le_rfl⟩) fun _ => ?_
  exact .ite (fun _ => safeEmit_preserves h _) fun _ => h_destroy

theorem handleStreamData_preserves (streamId : StreamId) (data : Buffer) (offset : ℕ) :
    Preserves R (handleStreamData env streamId data offset) := by
  refine .bind .get fun c => ?_
  cases c.record? streamId with
  | none => exact .pure ()
  | some s =>
    refine .bind (pushIncomingData_preserves h _ _ _) fun _ => .bind .get fun _ => ?_
    exact .ite (fun _ => h_destroy) fun _ => .pure ()

/-- One frame. -/
theorem handleControlFrame_preserves (frame : Frame)
    (h_close : ∀ streamId errorCode errorMessage, frame = .streamClose streamId errorCode errorMessage →
      Preserves R (handleStreamClose env streamId.toStreamId errorMessage)) :
    Preserves R (handleControlFrame env frame) := by
  cases frame with
  | connectionClose errorCode _ => exact handleConnectionClose_preserves h h_destroy errorCode
  | connectionNewAddress sourceAccount => exact handleNewAddress_preserves h sourceAccount
  | connectionMaxData maxOffset => exact quiet_preserves h fun _ => ⟨rfl, rfl, rfl, rfl, le_rfl⟩
  | connectionMaxStreamId maxStreamId => exact quiet_preserves h fun _ => ⟨rfl, rfl, rfl, rfl, le_rfl⟩
  | connectionAssetDetails code scale => exact quiet_preserves h fun _ => ⟨rfl, rfl, rfl, rfl, le_rfl⟩
  | streamClose streamId errorCode errorMessage => exact h_close streamId errorCode errorMessage rfl
  | streamMaxMoney streamId receiveMax totalReceived =>
    exact handleStreamMaxMoney_preserves h _ receiveMax totalReceived
  | streamData streamId offset data => exact handleStreamData_preserves h h_destroy _ data _
  | streamMaxData streamId maxOffset => exact handleStreamMaxData_preserves h _ _
  | connectionDataBlocked _ => exact .pure ()
  | connectionStreamIdBlocked _ => exact .pure ()
  | streamMoney _ _ => exact .pure ()
  | streamMoneyBlocked _ _ _ => exact .pure ()
  | streamDataBlocked _ _ => exact .pure ()
  | streamReceipt _ _ => exact .pure ()

end Admits

/-- Opening, closing and destroying preserve `R` too, so that any packet does. -/
structure Environment.Carries (env : Environment App) (R : Connection App → Connection App → Prop) : Prop
    extends env.Admits R where
  handleNewStream : ∀ streamId, Preserves R (handleNewStream env streamId)
  handleStreamClose : ∀ streamId errorMessage, Preserves R (handleStreamClose env streamId errorMessage)
  destroy : Preserves R (destroy env)

/-- **Control frames preserve what packets carry.** -/
theorem handleControlFrames_preserves {env : Environment App} {R : Connection App → Connection App → Prop}
    [IsPreorder (Connection App) R] (h : env.Carries R) (frames : List Frame) :
    Preserves R (handleControlFrames env frames) :=
  .forEach (fun frame => handleControlFrame_preserves h.toAdmits h.destroy frame
    fun _ _ errorMessage _ => h.handleStreamClose _ errorMessage) frames

section Preserves

variable {env : Environment App} {R : Connection App → Connection App → Prop}
  [IsPreorder (Connection App) R] (h : env.Respects R)

include h

omit [IsPreorder (Connection App) R] in
/-- A change that keeps the ledger and takes no sequence number back. -/
theorem modify_preserves {f : Connection App → Connection App} (hf : ∀ c, (f c).ledger = c.ledger)
    (h_next : ∀ c, c.nextPacketSequence ≤ (f c).nextPacketSequence) :
    Preserves R (modify f : Run App Unit) :=
  .modify fun c => h.of_ledger_eq c (f c) (hf c) (h_next c)

omit [IsPreorder (Connection App) R] in
/-- A change to a stream that keeps its account. -/
theorem updateStream_preserves (id : StreamId) {f : DataAndMoneyStream → DataAndMoneyStream}
    (hf : ∀ s, (f s).account = s.account) :
    Preserves R (modify fun c => c.updateStream id f : Run App Unit) :=
  modify_preserves h (fun _ => ledger_updateStream hf) fun _ => le_rfl

theorem remoteEnded_preserves (streamId : StreamId) (err : Option String) :
    Preserves R (remoteEnded env streamId err) := by
  refine .bind (updateStream_preserves h _ fun _ => rfl) fun _ => ?_
  cases err with
  | none => exact safeEmit_preserves h.admits _
  | some message => exact updateStream_preserves h _ fun _ => rfl

theorem handleStreamClose_preserves (streamId : StreamId) (errorMessage : String) :
    Preserves R (handleStreamClose env streamId errorMessage) := by
  refine .bind .get fun c => ?_
  cases c.record? streamId with
  | none => exact .pure ()
  | some s =>
    refine .ite (fun _ => .pure ()) fun _ => ?_
    refine .bind (updateStream_preserves h _ fun _ => rfl) fun _ => ?_
    refine .bind (remoteEnded_preserves h _ _) fun _ => ?_
    refine .bind (modify_preserves h (fun _ => rfl) fun _ => le_rfl) fun _ => .bind .get fun _ => ?_
    exact .bind (queueFrame_preserves h.admits _) fun _ => startSendLoop_preserves h.admits

/-- Packets carry what the environment respects. -/
theorem Environment.Respects.carries : env.Carries R where
  toAdmits := h.admits
  -- a new stream has received and sent nothing
  handleNewStream streamId := handleNewStream_preserves h.admits streamId
    fun _ h_new _ _ _ => h.of_ledger_eq _ _ (ledger_newStream h_new) le_rfl
  handleStreamClose := handleStreamClose_preserves h
  destroy := by
    refine destroy_preserves h.admits fun c => h.of_ledger_eq _ _ (ledger_mapValues fun _ s => ?_) le_rfl
    split <;> rfl

end Preserves

end Interledger.Stream
