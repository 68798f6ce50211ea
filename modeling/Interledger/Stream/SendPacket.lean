import Interledger.Stream.Connection

/-!
# Outgoing packets

`Connection.loadAndSendPacket` of `ilp-protocol-stream/src/connection.ts`, with the functions it
calls:

* `loadPacket` — the packet is filled with control frames, money and data; each stream whose money
  it carries holds that money under the sequence number of the packet;
* `transmit` — the packet is encrypted and sent, and the reply comes in;
* `handleResponse` — the reply is checked against the packet. A Reject undoes the packet
  (`undoRejectedPacket`), and one of a connector is acted on (`handleConnectorError`);
* `applyResponse` — what the receiver says is taken over, and a Fulfill executes the holds.

The encryption, the lengths of encoded packets and frames, and what `plugin.sendData` resolves to are
parameters. The callbacks of the writes whose data is taken run once it was taken.

## Main results

* `amountToSend_le`, `holds_holdOutgoing` — a stream holds what a packet takes from it;
* `exec_getNextPacketSequence`, `exec_readResponse_ok` — when these return.
-/

namespace Interledger.Stream

open Interledger.Ilp Interledger.Action Long

/-- `RETRY_DELAY_START`. -/
def retryDelayStart : ℕ := 100

/-- `RETRY_DELAY_MAX`. -/
def retryDelayMax : ℕ := 43200000

/-- `buffer.toString('hex')`. -/
def toHex (buffer : Buffer) : String :=
  String.join (buffer.map fun byte =>
    String.ofList [Nat.digitChar (byte.toNat / 16), Nat.digitChar (byte.toNat % 16)])

example : toHex [0, 31, 255] = "001fff" := by decide

/-- What `plugin.sendData` resolves to, read as an ILP packet. -/
inductive ResponseData
  | fulfill (response : IlpFulfill)
  | reject (response : IlpReject)
  /-- Another packet, or one that cannot be read, and why. -/
  | invalid (message : String)
  deriving DecidableEq

/-- What surrounds a connection that sends packets. -/
structure SendEnvironment (App : Type) extends Environment App where
  /-- `packet.serializeAndEncrypt(this._pskKey, padPacketToSize)`. -/
  serializeAndEncrypt : Packet → Option ℕ → Buffer
  packetByteLength : Packet → ℕ
  frameByteLength : Frame → ℕ
  /-- `plugin.sendData`, which may throw (`none`). -/
  sendData : IlpPrepare → Connection App → Option ResponseData

/-- A packet while it is filled. -/
structure Load where
  frames : List Frame
  amountToSend : Long
  maxAmountFromNextStream : Long
  streamsSentFrom : List StreamId
  deriving DecidableEq

/-- A packet to be sent, the money it carries and the streams this comes from. -/
structure OutgoingPacket where
  packet : Packet
  amountToSend : Long
  streamsSentFrom : List StreamId
  deriving DecidableEq

namespace DataAndMoneyStream

variable (s : DataAndMoneyStream)

/-- `maxDestinationAmount`: what the remote side of the stream may still receive. -/
def maxDestinationAmount : Long := (checkedSubtract s.remoteReceiveMax s.remoteReceived).1

/-- `amountToSendFromStream`. -/
def amountToSend (reciprocal : Rational) (maxAmountFromNextStream : Long) : Long :=
  let amountToSendFromStream := minLong s.amountAvailableToSend maxAmountFromNextStream
  let maxSourceAmount := reciprocal.multiplyByLongCeil s.maxDestinationAmount
  if maxSourceAmount < amountToSendFromStream then maxSourceAmount else amountToSendFromStream

/-- Tell the peer when it keeps the stream from sending the rest of its money. -/
def moneyBlockedFrames (exchangeRate : Rational) (id : StreamId) (amountToSendFromStream : Long) :
    List Frame :=
  let amountLeft := s.sendMax - s.totalSent - amountToSendFromStream
  if exchangeRate.multiplyByLong amountLeft > s.maxDestinationAmount then
    [.streamMoneyBlocked id.toLong s.sendMax s.totalSent]
  else []

end DataAndMoneyStream

/-- The frames that keep the send loop going, for they are sent again when they are rejected. -/
def Frame.isRetried : Frame → Bool
  | .streamClose _ _ _ | .streamData _ _ _ | .streamMoney _ _ => true
  | _ => false

/-- The number of an ILP packet type. -/
def IlpPacketType.toUInt8 : IlpPacketType → UInt8
  | prepare => 12
  | fulfill => 13
  | reject => 14
  | other type => type

variable {App : Type}

namespace Connection

variable (c : Connection App)

/-- The `currentOffset` of `getOutgoingOffsets`. -/
def outgoingCurrentOffset : ℕ := (c.records.map fun p => p.2.outgoingOffset).sum

/-- The `maxOffset` of `getOutgoingOffsets`. -/
def outgoingMaxOffset : ℕ :=
  (c.records.map fun p => p.2.outgoingOffset + p.2.outgoingData.byteLength).sum

/-- What the peer is told about each open stream. -/
def controlFrames : List Frame :=
  c.records.flatMap fun (id, s) =>
    if s.isOpen then
      [.streamMaxMoney id.toLong s.receiveMax s.totalReceived,
        .streamMaxData id.toLong (fromNumber s.maxAcceptable)]
    else []

end Connection

section Functions

variable (env : SendEnvironment App)

/-! ### The packet is filled -/

/-- `getNextPacketSequence`. -/
def getNextPacketSequence : Run App ℕ := do
  let c ← get
  modify fun c => { c with nextPacketSequence := c.nextPacketSequence + 1 }
  if c.nextPacketSequence ≥ 2 ^ 31 then
    throw (.error "Connection exceeded maximum number of packets")
  else pure c.nextPacketSequence

/-- `maybePushAccountFrames`. -/
def accountFrames (c : Connection App) : List Frame :=
  if c.remoteKnowsOurAccount then []
  else
    [.connectionNewAddress env.sourceAccount,
      .connectionAssetDetails env.sourceAssetCode env.sourceAssetScale]

/-- The close frame of a connection that was closed here. -/
def takeCloseFrames : Run App (List Frame) := do
  let c ← get
  if c.closed ∧ c.remoteState = .connected then do
    modify fun c => { c with remoteState := .closed }
    pure [.connectionClose .noError ""]
  else pure []

/-- `this.exchangeRate`. -/
def getExchangeRate : Run App Rational := do
  match (← get).exchangeRate with
  | none => throw (.error "Tried to send without an exchange rate established")
  | some exchangeRate => pure exchangeRate

/-- `exchangeRate.reciprocal()`. -/
def getReciprocal (exchangeRate : Rational) : Run App Rational :=
  match exchangeRate.reciprocal with
  | none => throw (.error "denominator must be non-zero")
  | some reciprocal => pure reciprocal

/-- The most that a packet may carry: no more than what the receiver's amount can count. -/
def initialMaxAmount (exchangeRate : Rational) (testMaximumPacketAmount : Long) : Long :=
  if exchangeRate.greaterThanOne then
    match exchangeRate.reciprocal with
    | none => testMaximumPacketAmount
    | some reciprocal =>
      minLong testMaximumPacketAmount (reciprocal.multiplyByLong maxUnsignedValue)
  else testMaximumPacketAmount

/-- Hold the money of a stream and add it to the packet. -/
def holdMoney (sequence : ℕ) (id : StreamId) (amount : Long) (load : Load) : Run App Load :=
  if amount > 0 then do
    modify fun c => c.updateStream id fun s => s.holdOutgoing sequence amount
    pure
      { frames := load.frames ++ [.streamMoney id.toLong amount]
        amountToSend := load.amountToSend + amount
        maxAmountFromNextStream := load.maxAmountFromNextStream - amount
        streamsSentFrom := load.streamsSentFrom ++ [id] }
  else pure load

/-- What the packet takes from one stream. -/
def loadStreamMoney (exchangeRate : Rational) (sequence : ℕ) (load : Load) (id : StreamId) :
    Run App Load := do
  let s := (← get).stream id
  let reciprocal ← getReciprocal exchangeRate
  let amount := s.amountToSend reciprocal load.maxAmountFromNextStream
  let load ← holdMoney sequence id amount load
  pure { load with frames := load.frames ++ s.moneyBlockedFrames exchangeRate id amount }

/-- What the packet takes from each stream in turn, until it is full. -/
def loadMoney (exchangeRate : Rational) (sequence : ℕ) : Load → List StreamId → Run App Load
  | load, [] => pure load
  | load, id :: ids => do
    let c ← get
    if (c.stream id).sentEnd then loadMoney exchangeRate sequence load ids
    else do
      let load ← loadStreamMoney exchangeRate sequence load id
      if load.maxAmountFromNextStream = 0 then pure load
      else loadMoney exchangeRate sequence load ids

/-- The data of the streams in turn, while there is room in the packet. -/
def loadData : (bytesLeftInPacket : ℤ) → List Frame → List StreamId → Run App (List Frame)
  | _, frames, [] => pure frames
  | bytesLeftInPacket, frames, id :: ids => do
    if bytesLeftInPacket - 20 ≤ 0 then pure frames
    else do
      let size := (bytesLeftInPacket - 20).toNat
      let entry := (((← get).stream id).availableDataToSend size).1
      modify fun c => c.updateStream id fun s => (s.availableDataToSend size).2
      emit env.toEnvironment (.written id)
      let dataFrames : List Frame :=
        if entry.data = [] then []
        else [.streamData id.toLong (fromNumber entry.offset) entry.data]
      let blockedFrames : List Frame :=
        match ((← get).stream id).isDataBlocked with
        | none => []
        | some offset => [.streamDataBlocked id.toLong (fromNumber offset)]
      loadData (bytesLeftInPacket - (dataFrames.map env.frameByteLength).sum)
        (frames ++ dataFrames ++ blockedFrames) ids

/-- The bytes left in a packet, and what the peer is told when it leaves less. -/
def bytesLeft (c : Connection App) (packet : Packet) : ℤ × List Frame :=
  let bytesLeftInPacket : ℤ := maxDataSize - env.packetByteLength packet
  let maxBytesRemoteConnectionCanReceive : ℤ := c.remoteMaxOffset - c.outgoingCurrentOffset
  if bytesLeftInPacket > maxBytesRemoteConnectionCanReceive then
    (maxBytesRemoteConnectionCanReceive,
      [.connectionDataBlocked (fromNumber c.outgoingMaxOffset)])
  else (bytesLeftInPacket, [])

/-- A packet without money ends the send loop, unless it carries something that may be rejected. -/
def stopSending (load : Load) : Run App Unit :=
  modify fun c =>
    if load.amountToSend = 0 ∧ ¬load.frames.any Frame.isRetried then { c with sending := false }
    else c

/-- The packet that a load makes, with the least amount that the receiver accepts. -/
def makePacket (sequence : ℕ) (exchangeRate : Rational) (load : Load) : Run App OutgoingPacket :=
  match env.slippage.complement with
  | none => throw (.error "cannot take complement of rational >1")
  | some complement =>
    pure
      { packet :=
          { sequence := fromNumber sequence
            ilpPacketType := .prepare
            prepareAmount :=
              complement.multiplyByLong (exchangeRate.multiplyByLong load.amountToSend)
            frames := load.frames }
        amountToSend := load.amountToSend
        streamsSentFrom := load.streamsSentFrom }

/-- `loadAndSendPacket` up to `sendPacket`. Nothing is sent when there is nothing to say. -/
def loadPacket : Run App (Option OutgoingPacket) := do
  let sequence ← getNextPacketSequence
  let queuedFrames ← takeQueuedFrames
  let c ← get
  let closeFrames ← takeCloseFrames
  let exchangeRate ← getExchangeRate
  let load ← loadMoney exchangeRate sequence
    { frames := queuedFrames ++ accountFrames env c ++ c.controlFrames ++ closeFrames
      amountToSend := 0
      maxAmountFromNextStream :=
        initialMaxAmount exchangeRate c.congestion.testMaximumPacketAmount
      streamsSentFrom := [] }
    (c.records.map Prod.fst)
  let (bytesLeftInPacket, blockedFrames) := bytesLeft env (← get)
    { sequence := fromNumber sequence, ilpPacketType := .prepare, prepareAmount := 0
      frames := load.frames }
  let frames ← loadData env bytesLeftInPacket (load.frames ++ blockedFrames)
    (c.records.map Prod.fst)
  let load := { load with frames := frames }
  stopSending load
  if load.amountToSend = 0 ∧ load.frames = [] then pure none
  else do
    let outgoing ← makePacket env sequence exchangeRate load
    pure (some outgoing)

/-! ### The packet is sent -/

/-- The Prepare that carries a packet. -/
def makePrepare (packet : Packet) (sourceAmount : Long) : IlpPrepare :=
  let data := env.serializeAndEncrypt packet (if env.enablePadding then some maxDataSize else none)
  { amount := sourceAmount
    executionCondition := env.hash (env.generateFulfillment data)
    data := data }

/-- `sendPacket` up to the reply. It awaits the encryption, the fulfillment, the condition and the
reply. -/
def transmit (packet : Packet) (sourceAmount : Long) : Run App ResponseData := do
  await env.toEnvironment
  await env.toEnvironment
  await env.toEnvironment
  let c ← get
  if c.destinationAccount = none then
    throw (.error "Tried to send a packet without having a destination account")
  else do
    emit env.toEnvironment .getExpiry
    let response := env.sendData (makePrepare env packet sourceAmount) (← get)
    await env.toEnvironment
    match response with
    | none => throw .application
    | some response => pure response

/-! ### The reply is handled -/

/-- One frame of `undoRejectedPacket`. -/
def undoFrame (sequence : ℕ) : Frame → Run App Unit
  | .streamMoney streamId _ => do
    let c ← get
    if c.record? streamId.toStreamId = none then pure ()
    else modify fun c => c.updateStream streamId.toStreamId fun s => s.cancelHold sequence
  | .streamData streamId offset data => do
    let c ← get
    if c.record? streamId.toStreamId = none then pure ()
    else
      modify fun c =>
        c.updateStream streamId.toStreamId fun s => s.resendOutgoingData data offset.toNumber
  | .streamClose streamId errorCode errorMessage =>
    queueFrame (.streamClose streamId errorCode errorMessage)
  | _ => pure ()

/-- `undoRejectedPacket`. -/
def undoRejectedPacket (requestPacket : Packet) : Run App Unit :=
  forEach (undoFrame requestPacket.sequence.toNat) requestPacket.frames

/-- `handleConnectorError`. -/
def handleConnectorError (reject : IlpReject) (amountSent : Long) : Run App Unit := do
  if reject.code = .f08AmountTooLarge then do
    modify fun c => { c with congestion := c.congestion.onAmountTooLargeError reject amountSent }
    if (← get).congestion.getMaximumPacketAmount = 0 then
      throw (.error "Cannot send. Path has a Maximum Packet Amount of 0")
  else if reject.code.isTemporary then do
    if reject.code = .t04InsufficientLiquidity then
      modify fun c => { c with congestion := c.congestion.onInsufficientLiquidityError amountSent }
    modify fun c => { c with retryDelay := min (c.retryDelay * 2) retryDelayMax }
    await env.toEnvironment
  else throw (.unexpectedReject reject)

/-- The response of the receiver in the data of a reply, which has to answer the packet. -/
def readResponse (packet : Packet) (type : IlpPacketType) (data : Buffer) :
    Run App (Option Packet) :=
  -- a Fulfill that comes back without data is treated like a Reject
  if data = [] then pure none
  else do
    await env.toEnvironment
    match env.decryptAndDeserialize data with
    -- the message goes on with that of the library
    | none => throw (.error "Unable to decrypt and parse response data: ")
    | some response =>
      if response.sequence ≠ packet.sequence then
        throw (.error s!"Response packet sequence does not correspond to the request. Actual: {response.sequence.toNat}, expected: {packet.sequence.toNat}")
      else if response.ilpPacketType ≠ type then
        throw (.error s!"Response says it should be on an ILP packet of type: {response.ilpPacketType.toUInt8} but it was carried on an ILP packet of type: {type.toUInt8}")
      else pure (some response)

/-- `sendPacket` from the reply on. -/
def handleResponse (packet : Packet) (sourceAmount : Long) :
    ResponseData → Run App (Option Packet)
  | .invalid message =>
    throw (.error s!"Invalid response when sending packet {packet.sequence.toNat}: {message}")
  | .fulfill response => do
    await env.toEnvironment
    if env.hash response.fulfillment = (makePrepare env packet sourceAmount).executionCondition then
      readResponse env packet .fulfill response.data
    else
      let fulfillment := env.generateFulfillment (makePrepare env packet sourceAmount).data
      throw (.error s!"Got invalid fulfillment for packet {packet.sequence.toNat}. Actual: {toHex response.fulfillment}, expected: {toHex fulfillment}")
  | .reject response => do
    undoRejectedPacket packet
    if response.code ≠ .f99ApplicationError then do
      handleConnectorError env response sourceAmount
      pure none
    else readResponse env packet .reject response.data

/-- `sendPacket`. -/
def sendPacket (packet : Packet) (sourceAmount : Long) : Run App (Option Packet) := do
  let response ← transmit env packet sourceAmount
  handleResponse env packet sourceAmount response

/-- `_setReceipt`, for a receipt of a known stream. -/
def setReceipt : Frame → Run App Unit
  | .streamReceipt streamId receipt => do
    let c ← get
    if c.record? streamId.toStreamId = none then pure ()
    else
      modify fun c => c.updateStream streamId.toStreamId fun s => { s with receipt := some receipt }
  | _ => pure ()

/-- `_executeHold`. -/
def executeHold (holdId : ℕ) (id : StreamId) : Run App Unit := do
  let c ← get
  match (c.stream id).holds.get? holdId with
  | none => pure ()
  | some amount => do
    modify fun c => c.updateStream id fun s => s.executeHold holdId
    emit env.toEnvironment (.outgoingMoney id amount)
    let s := (← get).stream id
    if s.totalSent ≥ s.sendMax then emit env.toEnvironment (.outgoingTotalSent id)

/-- `addTotalDelivered`. -/
def addTotalDelivered (value : Long) : Run App Unit := do
  let result := checkedAdd (← get).totalDelivered value
  if result.2 then do
    destroy env.toEnvironment
    throw (.badRequest "Total delivered exceeded MaxUint64")
  else modify fun c => { c with totalDelivered := result.1 }

/-- `addTotalSent`. -/
def addTotalSent (value : Long) : Run App Unit := do
  let result := checkedAdd (← get).totalSent value
  if result.2 then do
    destroy env.toEnvironment
    throw (.badRequest "Total sent exceeded MaxUint64")
  else modify fun c => { c with totalSent := result.1 }

/-- What a Fulfill with a response does. -/
def applyFulfill (outgoing : OutgoingPacket) (response : Packet) : Run App Unit := do
  forEach setReceipt response.frames
  forEach (executeHold env outgoing.packet.sequence.toNat) outgoing.streamsSentFrom
  addTotalDelivered env response.prepareAmount
  addTotalSent env outgoing.amountToSend
  modify fun c =>
    { c with
      congestion := c.congestion.onFulfill outgoing.amountToSend, retryDelay := retryDelayStart }

/-- `loadAndSendPacket` from the response on. -/
def applyResponse (outgoing : OutgoingPacket) (response : Packet) : Run App Unit := do
  modify fun c =>
    { c with
      remoteState := if c.remoteState = .init then .connected else c.remoteState
      remoteKnowsOurAccount := true }
  handleControlFrames env.toEnvironment response.frames
  modify fun c =>
    { c with
      lastPacketExchangeRate :=
        if h : outgoing.amountToSend = 0 then c.lastPacketExchangeRate
        else ⟨response.prepareAmount, outgoing.amountToSend, h⟩ }
  if response.ilpPacketType = .fulfill then applyFulfill env outgoing response

/-- `loadAndSendPacket`. -/
def loadAndSendPacket : Run App Unit := do
  await env.toEnvironment
  match ← loadPacket env with
  | none => pure ()
  | some outgoing =>
    let response ← sendPacket env outgoing.packet outgoing.amountToSend
    await env.toEnvironment
    match response with
    | none => pure ()
    | some response => applyResponse env outgoing response

/-! ### What the functions do -/

variable {env}

/-- A stream has as much available as a packet takes from it. -/
theorem amountToSend_le {s : DataAndMoneyStream} (reciprocal : Rational) (maxAmount : Long) :
    s.amountToSend reciprocal maxAmount ≤ s.amountAvailableToSend := by
  have h_min : minLong s.amountAvailableToSend maxAmount ≤ s.amountAvailableToSend := by
    unfold minLong
    split
    · exact BitVec.le_refl _
    · exact BitVec.not_lt.mp ‹_›
  unfold DataAndMoneyStream.amountToSend
  simp only
  split
  · -- what the remote side can receive is less than that
    exact BitVec.le_trans (BitVec.le_of_lt ‹_›) h_min
  · exact h_min

/-- What is available is held. -/
theorem holds_holdOutgoing {s : DataAndMoneyStream} {n : ℕ} {amount : Long} (h_pos : amount > 0)
    (h_le : amount ≤ s.amountAvailableToSend) :
    (s.holdOutgoing n amount).holds = s.holds.set n amount := by
  have h_min : minLong s.amountAvailableToSend amount = amount := by
    unfold minLong
    rw [if_neg (BitVec.not_lt.mpr h_le)]
  unfold DataAndMoneyStream.holdOutgoing
  simp only
  rw [h_min, if_pos h_pos]

theorem totalSent_holdOutgoing (s : DataAndMoneyStream) (n : ℕ) (amount : Long) :
    (s.holdOutgoing n amount).totalSent = s.totalSent := by
  unfold DataAndMoneyStream.holdOutgoing
  simp only
  split <;> rfl

/-- The sequence number that is taken is that of the connection, below the limit. -/
theorem exec_getNextPacketSequence {c c' : Connection App} {n : ℕ}
    (h_exec : (getNextPacketSequence : Run App ℕ).exec c = (.ok n, c')) :
    n = c.nextPacketSequence ∧ n < 2 ^ 31 ∧
      c' = { c with nextPacketSequence := c.nextPacketSequence + 1 } := by
  unfold getNextPacketSequence at h_exec
  rw [exec_bind_ok (exec_get c), exec_bind_ok (exec_modify c _)] at h_exec
  by_cases h_max : c.nextPacketSequence ≥ 2 ^ 31
  · rw [if_pos h_max] at h_exec
    cases h_exec
  · rw [if_neg h_max] at h_exec
    cases h_exec
    exact ⟨rfl, not_le.mp h_max, rfl⟩

/-- A record is that of a stream. -/
theorem isSome_of_mem_records {c : Connection App} {id : StreamId}
    (h_mem : id ∈ c.records.map Prod.fst) : (c.streams.get? id).isSome := by
  obtain ⟨p, h_record, rfl⟩ := List.mem_map.mp h_mem
  have h_entry : p ∈ c.streams.entries := List.mem_of_mem_filter h_record
  rw [OrderedMap.mem_entries.mp h_entry]
  rfl

theorem streams_takeCloseFrames (c : Connection App) :
    ((takeCloseFrames : Run App (List Frame)).exec c).2.streams = c.streams := by
  unfold takeCloseFrames
  rw [exec_bind_ok (exec_get c)]
  split <;> rfl

theorem exec_getExchangeRate (c : Connection App) :
    ((getExchangeRate : Run App Rational).exec c).2 = c := by
  unfold getExchangeRate
  rw [exec_bind_ok (exec_get c)]
  cases c.exchangeRate <;> rfl

/-- Loading data only adds frames. -/
theorem subset_loadData {bytesLeftInPacket : ℤ} {frames frames' : List Frame}
    {ids : List StreamId} {c c' : Connection App}
    (h_exec : (loadData env bytesLeftInPacket frames ids).exec c = (.ok frames', c')) :
    frames ⊆ frames' := by
  induction ids generalizing bytesLeftInPacket frames c with
  | nil =>
    cases h_exec
    exact List.Subset.refl _
  | cons id ids ih =>
    unfold loadData at h_exec
    -- the loop ends without room for a frame
    by_cases h_room : bytesLeftInPacket - 20 ≤ 0
    · rw [if_pos h_room] at h_exec
      cases h_exec
      exact List.Subset.refl _
    rw [if_neg h_room, exec_bind_ok (exec_get c), exec_bind_ok (exec_modify c _)] at h_exec
    obtain ⟨_, c₁, -, h_rest⟩ := exec_bind_eq_ok.mp h_exec
    rw [exec_bind_ok (exec_get c₁)] at h_rest
    intro frame h_mem
    -- each stream adds its frames behind those that are there
    refine ih h_rest ?_
    exact List.mem_append_left _ (List.mem_append_left _ h_mem)

/-- A response has the type of the reply that carried it, which has data then. -/
theorem exec_readResponse_ok {packet : Packet} {type : IlpPacketType} {data : Buffer}
    {response : Option Packet} {c c' : Connection App}
    (h_exec : (readResponse env packet type data).exec c = (.ok response, c')) :
    match response with
    | none => data = []
    | some response => data ≠ [] ∧ response.ilpPacketType = type := by
  unfold readResponse at h_exec
  -- a reply without data is no response, and no error
  by_cases h_data : data = []
  · rw [if_pos h_data] at h_exec
    cases h_exec
    exact h_data
  rw [if_neg h_data, exec_bind_ok (exec_await _ c)] at h_exec
  cases h_decrypt : env.decryptAndDeserialize data with
  | none =>
    rw [h_decrypt] at h_exec
    cases h_exec
  | some answer =>
    rw [h_decrypt] at h_exec
    simp only at h_exec
    -- a response to another packet, or of another type, throws
    by_cases h_sequence : answer.sequence ≠ packet.sequence
    · rw [if_pos h_sequence] at h_exec
      cases h_exec
    rw [if_neg h_sequence] at h_exec
    by_cases h_type : answer.ilpPacketType ≠ type
    · rw [if_pos h_type] at h_exec
      cases h_exec
    · rw [if_neg h_type] at h_exec
      cases h_exec
      exact ⟨h_data, not_not.mp h_type⟩

end Functions

end Interledger.Stream
