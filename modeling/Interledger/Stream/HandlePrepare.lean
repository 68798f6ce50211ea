import Interledger.Stream.Connection
import Interledger.Stream.Receipt

/-!
# Incoming packets

`Connection.handlePrepare` of `ilp-protocol-stream/src/connection.ts`, cut at the points where it
awaits something:

* `receive` — the packet is decrypted, new streams are opened and the control frames are handled;
* `check` — the condition, the shares of each stream and its limit are checked;
* `addIncomingHold` — the amount is held, unless that overflows;
* `decline` or `fulfill` — once `shouldFulfill` has settled, the hold is released, or the streams
  are credited and the response is built.

`handlePrepare` puts them together for one call at a time. Responses are the packets that are
encrypted into the data of the reply.

## Main results

* `receive_preserves`, `check_preserves` — up to the hold no amount changes;
* `exec_addIncomingHold` — the hold, and when it overflows;
* `check_shares` — what the streams of an accepted packet get;
* `fulfill_spec`, `fulfill_throws_iff` — crediting, and when it fails.
-/

namespace Interledger.Stream

open Interledger.Ilp Interledger.Action Long

/-- A packet that is being handled: the request, and the frames of the response so far. -/
structure Request where
  prepare : IlpPrepare
  packet : Packet
  responseFrames : List Frame
  deriving DecidableEq

/-- What `shouldFulfill` does: its promise resolves or rejects, or it throws before it returns
one. -/
inductive Outcome
  | resolves
  | rejects
  | throws
  deriving DecidableEq

/-- `allowableReceiveExtra`, `1.01`. -/
def allowableReceiveExtra : Rational := ⟨101, 100, hundred_ne_zero⟩

/-- The frames that may open a stream: its id, and whether they carry money or data. -/
def Frame.opensStream : Frame → Option (Long × Bool)
  | .streamMoney streamId _ => some (streamId, true)
  | .streamData streamId _ _ => some (streamId, true)
  | .streamMaxMoney streamId _ _ => some (streamId, false)
  | .streamMaxData streamId _ => some (streamId, false)
  | _ => none

/-- `testStreamClose`. -/
def Frame.closesStream (id : ℕ) : Frame → Bool
  | .streamClose streamId _ _ => streamId.equalsNumber id
  | _ => false

/-- `totalMoneyShares`. An overflow throws (`none`). -/
def totalMoneyShares : List Frame → Long → Option Long
  | [], sum => some sum
  | .streamMoney _ shares :: frames, sum =>
    let result := checkedAdd sum shares
    if result.2 then none else totalMoneyShares frames result.1
  | _ :: frames, sum => totalMoneyShares frames sum

/-- What the peer is told about a stream: that it is closed, or what it can receive. -/
def DataAndMoneyStream.responseFrames (id : StreamId) (s : DataAndMoneyStream) : List Frame :=
  if ¬s.isOpen ∧ ¬s.remoteClosed then
    match s.errorMessage with
    | none => [.streamClose id.toLong .noError ""]
    | some message =>
      if message = "" then [.streamClose id.toLong .noError ""]
      else [.streamClose id.toLong .applicationError message]
  else
    [.streamMaxMoney id.toLong s.receiveMax s.totalReceived,
      .streamMaxData id.toLong (fromNumber s.maxAcceptable)]

variable {App : Type}

namespace Connection

variable (c : Connection App) (value : Long)

/-- The hold that `addIncomingHold` computes, and whether it overflowed. -/
def nextIncomingHold : Long × Bool :=
  checkedAdd (checkedAdd c.totalReceived c.incomingHold).1 value

/-- `removeIncomingHold`. -/
def removeIncomingHold : Connection App :=
  { c with incomingHold := (checkedSubtract c.incomingHold value).1 }

/-- `addTotalReceived`. -/
def addTotalReceived : Connection App :=
  { c with totalReceived := (checkedAdd c.totalReceived value).1 }

end Connection

section Functions

variable (env : Environment App) (request : Request)

/-- `throw await constructFinalApplicationError()`, with frames added to the response. -/
def throwFinalApplicationError {α : Type} (frames : List Frame) : Run App α := do
  let queuedFrames ← takeQueuedFrames
  throw (.finalApplicationError
    { sequence := request.packet.sequence
      ilpPacketType := .reject
      prepareAmount := request.prepare.amount
      frames := request.responseFrames ++ frames ++ queuedFrames })

/-- Handle the streams that a frame opens. -/
def handleNewStreams (frame : Frame) : Run App Unit := do
  match frame.opensStream with
  | none => pure ()
  | some (id, carries) =>
    let c ← get
    let streamId := id.toStreamId
    if (c.streams.get? streamId).isSome ∧ c.record? streamId = none then
      -- the stream was closed already
      if ¬carries then pure ()
      else if request.responseFrames.any (Frame.closesStream streamId.val)
          ∨ c.queuedFrames.any (Frame.closesStream streamId.val) then
        throwFinalApplicationError request []
      else
        throwFinalApplicationError request
          [.streamClose streamId.toLong .streamStateError "Stream is already closed"]
    else tryCatch (handleNewStream env streamId) fun _ => throwFinalApplicationError request []

/-- `handlePrepare` up to the generation of the fulfillment. -/
def receive (prepare : IlpPrepare) : Run App Request := do
  match env.decryptAndDeserialize prepare.data with
  | none => throw .unexpectedPayment
  | some packet =>
    if packet.ilpPacketType ≠ .prepare then throw .unexpectedPayment
    else do
      let maxAcceptable := (← get).incomingMaxAcceptable env.maxBufferedData
      let request : Request :=
        { prepare := prepare, packet := packet
          responseFrames := [.connectionMaxData (fromNumber maxAcceptable)] }
      forEach (handleNewStreams env request) packet.frames
      tryCatch (handleControlFrames env packet.frames) fun _ => throwFinalApplicationError request []
      let c ← get
      if c.incomingMaxOffset > c.incomingMaxAcceptable env.maxBufferedData then do
        destroy env
        throwFinalApplicationError request []
      else if packet.prepareAmount > prepare.amount then throwFinalApplicationError request []
      else pure request

/-- Determine the amount to receive on a frame, and check that its stream can receive it. -/
def checkFrame (totalShares : Long) (amountsToReceive : List (StreamId × Long)) :
    Frame → Run App (List (StreamId × Long))
  | .streamMoney id shares => do
    let streamId := id.toStreamId
    match multiplyDivideFloor request.prepare.amount shares totalShares with
    | none => throw (.error "division by zero")
    | some streamAmount =>
      match (← get).record? streamId with
      | none =>
        throwFinalApplicationError request
          [.streamClose streamId.toLong .streamIdError "Unknown stream ID"]
      | some s =>
        if allowableReceiveExtra.multiplyByLongCeil s.amountStreamCanReceive < streamAmount then
          throwFinalApplicationError request
            [.streamMaxMoney streamId.toLong s.receiveMax s.totalReceived]
        else if ¬s.isOpen then
          throwFinalApplicationError request
            [.streamClose streamId.toLong .streamStateError "Stream is already closed"]
        else pure (amountsToReceive ++ [(streamId, streamAmount)])
  | _ => pure amountsToReceive

/-- The checks of `handlePrepare` from the fulfillment on: the amount of each stream. -/
def check : Run App (List (StreamId × Long)) := do
  if env.hash (env.generateFulfillment request.prepare.data) ≠ request.prepare.executionCondition then
    throwFinalApplicationError request []
  else
    match totalMoneyShares request.packet.frames 0 with
    | none => throw (.error "Total shares exceeded MaxUint64")
    | some totalShares => foldEach (checkFrame request totalShares) [] request.packet.frames

/-- `addIncomingHold`. -/
def addIncomingHold (value : Long) : Run App Unit := do
  let result := (← get).nextIncomingHold value
  if result.2 then do
    destroy env
    throw (.badRequest "Total received exceeded MaxUint64")
  else modify fun c => { c with incomingHold := result.1 }

/-- `handlePrepare` from the fulfillment to the hold. -/
def checkAndHold : Run App (List (StreamId × Long)) := do
  let amountsToReceive ← check env request
  addIncomingHold env request.prepare.amount
  pure amountsToReceive

/-- Credit an amount to a stream, and note its total in `totalsReceived`. -/
def creditStream (totalsReceived : OrderedMap StreamId Long) (p : StreamId × Long) :
    Run App (OrderedMap StreamId Long) := do
  modify fun c => c.updateStream p.1 fun s => s.addToIncoming p.2
  emit env (.money p.1 p.2)
  pure (totalsReceived.set p.1 ((← get).stream p.1).totalReceived)

/-- Credit the amounts to the streams. -/
def credit (amountsToReceive : List (StreamId × Long)) : Run App (OrderedMap StreamId Long) :=
  foldEach (creditStream env) .empty amountsToReceive

/-- Tell the peer about closed streams and how much each stream can receive. -/
def streamResponseFrames : Run App (List Frame) := do
  let c ← get
  if c.closed ∨ c.remoteState = .closed then pure []
  else do
    modify fun c =>
      { c with
        streams := c.streams.mapValues fun _ s =>
          if s.recorded ∧ ¬s.isOpen ∧ ¬s.remoteClosed then { s with remoteClosed := true } else s }
    pure (c.records.flatMap fun (streamId, s) => s.responseFrames streamId)

/-- Add the receipt frame of a stream. -/
def receiptFrame (nonce secret : Buffer) (frames : List Frame) (p : StreamId × Long) :
    Run App (List Frame) :=
  match createReceipt env.writeUInt8 env.generateReceiptHMAC nonce secret p.1.val p.2 with
  | .error message => throw (.error message)
  | .ok receipt => pure (frames ++ [.streamReceipt (StreamId.toLong p.1) receipt])

/-- The receipt frames, when the connection has a nonce and a secret for them. -/
def receiptFrames (totalsReceived : OrderedMap StreamId Long) : Run App (List Frame) :=
  match env.receiptNonce, env.receiptSecret with
  | some nonce, some secret => foldEach (receiptFrame env nonce secret) [] totalsReceived.entries
  | _, _ => pure []

/-- The rest of `handlePrepare`: credit the streams and answer. -/
def fulfill (amountsToReceive : List (StreamId × Long)) : Run App Packet := do
  let totalsReceived ← credit env amountsToReceive
  let streamFrames ← streamResponseFrames
  let receipts ← receiptFrames env totalsReceived
  let queuedFrames ← takeQueuedFrames
  modify fun c => c.removeIncomingHold request.prepare.amount
  modify fun c => c.addTotalReceived request.prepare.amount
  pure
    { sequence := request.packet.sequence
      ilpPacketType := .fulfill
      prepareAmount := request.prepare.amount
      frames := request.responseFrames ++ streamFrames ++ receipts ++ queuedFrames }

/-- The handler of a `shouldFulfill` that rejects. -/
def decline {α : Type} : Run App α := do
  modify fun c => c.removeIncomingHold request.prepare.amount
  throwFinalApplicationError request []

/-- Whether `shouldFulfill` is called for a packet. -/
def asksShouldFulfill : Bool := env.shouldFulfill && request.prepare.amount > 0

/-- What follows the outcome of `shouldFulfill`. -/
def settle (outcome : Outcome) (amountsToReceive : List (StreamId × Long)) : Run App Packet :=
  match outcome with
  | .resolves => fulfill env request amountsToReceive
  | .rejects => decline request
  | .throws => throw .application

/-- `handlePrepare` up to the hold, other code running while it awaits. -/
def accept (prepare : IlpPrepare) : Run App (Request × List (StreamId × Long)) := do
  await env
  let request ← receive env prepare
  await env
  let amountsToReceive ← checkAndHold env request
  pure (request, amountsToReceive)

/-- `handlePrepare` from the hold on. -/
def respond (outcome : Outcome) (request : Request) (amountsToReceive : List (StreamId × Long)) :
    Run App Packet :=
  if asksShouldFulfill env request then do
    await env
    settle env request outcome amountsToReceive
  else fulfill env request amountsToReceive

/-- `handlePrepare`: the response packet of the Fulfill. -/
def handlePrepare (prepare : IlpPrepare) (outcome : Outcome) : Run App Packet := do
  let (request, amountsToReceive) ← accept env prepare
  respond env outcome request amountsToReceive

end Functions

/-! ### Up to the hold -/

section Accept

variable {env : Environment App} {request : Request} {prepare : IlpPrepare}
  {R : Connection App → Connection App → Prop} [IsPreorder (Connection App) R]

/-- Rejecting a packet takes the queued frames. -/
theorem throwFinalApplicationError_preserves {α : Type} (h : env.Admits R) (frames : List Frame) :
    Preserves R (throwFinalApplicationError request frames : Run App α) :=
  .bind (takeQueuedFrames_preserves h) fun _ => .throw _

theorem handleNewStreams_preserves (h : env.Admits R) (frame : Frame)
    (h_new : ∀ id carries, frame.opensStream = some (id, carries) →
      Preserves R (handleNewStream env id.toStreamId)) :
    Preserves R (handleNewStreams env request frame) := by
  unfold handleNewStreams
  cases h_opens : frame.opensStream with
  | none => exact .pure ()
  | some p =>
    refine .bind .get fun c => .ite (fun _ => ?_) fun _ => ?_
    · refine .ite (fun _ => .pure ()) fun _ => .ite (fun _ => ?_) fun _ => ?_
      · exact throwFinalApplicationError_preserves h _
      · exact throwFinalApplicationError_preserves h _
    · refine .tryCatch (h_new p.1 p.2 h_opens) fun _ => ?_
      exact throwFinalApplicationError_preserves h _

/-- **Receiving a packet** preserves what packets carry, whether or not it goes on. -/
theorem receive_preserves (h : env.Carries R) (prepare : IlpPrepare) :
    Preserves R (receive env prepare) := by
  unfold receive
  cases env.decryptAndDeserialize prepare.data with
  | none => exact .throw _
  | some packet =>
    refine .ite (fun _ => .throw _) fun _ => .bind .get fun c => ?_
    refine .bind (.forEach (fun frame => handleNewStreams_preserves h.toAdmits frame
      fun id _ _ => h.handleNewStream id.toStreamId) _) fun _ => ?_
    refine .bind (.tryCatch (handleControlFrames_preserves h _) fun _ => ?_) fun _ => ?_
    · exact throwFinalApplicationError_preserves h.toAdmits _
    refine .bind .get fun c => .ite (fun _ => ?_) fun _ => .ite (fun _ => ?_) fun _ => .pure _
    · exact .bind h.destroy fun _ => throwFinalApplicationError_preserves h.toAdmits _
    · exact throwFinalApplicationError_preserves h.toAdmits _

theorem checkFrame_preserves (h : env.Respects R) (totalShares : Long)
    (amounts : List (StreamId × Long)) (frame : Frame) :
    Preserves R (checkFrame request totalShares amounts frame : Run App _) := by
  cases frame with
  | streamMoney id shares =>
    simp only [checkFrame]
    cases multiplyDivideFloor request.prepare.amount shares totalShares with
    | none => exact .throw _
    | some streamAmount =>
      refine .bind .get fun c => ?_
      cases c.record? id.toStreamId with
      | none => exact throwFinalApplicationError_preserves h.admits _
      | some s =>
        refine .ite (fun _ => ?_) fun _ => .ite (fun _ => ?_) fun _ => .pure _
        · exact throwFinalApplicationError_preserves h.admits _
        · exact throwFinalApplicationError_preserves h.admits _
  | _ => exact .pure _

theorem check_preserves (h : env.Respects R) (request : Request) : Preserves R (check env request) := by
  refine .ite (fun _ => throwFinalApplicationError_preserves h.admits _) fun _ => ?_
  cases totalMoneyShares request.packet.frames 0 with
  | none => exact .throw _
  | some totalShares => exact .foldEach (fun amounts frame _ => checkFrame_preserves h totalShares amounts frame) _

omit [IsPreorder (Connection App) R] in
/-- Receiving a packet that goes on yields a request for that packet. -/
theorem receive_ok {c c' : Connection App} (h : (receive env prepare).exec c = (.ok request, c')) :
    request.prepare = prepare ∧ env.decryptAndDeserialize prepare.data = some request.packet := by
  unfold receive at h
  cases h_decrypt : env.decryptAndDeserialize prepare.data with
  | none =>
    rw [h_decrypt] at h
    cases h
  | some packet =>
    rw [h_decrypt] at h
    simp only at h
    split at h
    · cases h
    obtain ⟨c₁, _, -, h⟩ := exec_bind_eq_ok.mp h
    obtain ⟨_, _, -, h⟩ := exec_bind_eq_ok.mp h
    obtain ⟨_, _, -, h⟩ := exec_bind_eq_ok.mp h
    obtain ⟨c₂, _, -, h⟩ := exec_bind_eq_ok.mp h
    split at h
    · obtain ⟨_, _, -, h⟩ := exec_bind_eq_ok.mp h
      cases h
    split at h
    · cases h
    · cases h
      exact ⟨rfl, rfl⟩

/-- What the check established for the amount of a stream. -/
structure Checked (c : Connection App) (prepare : IlpPrepare) (p : StreamId × Long) : Prop where
  amount_le : p.2 ≤ allowableReceiveExtra.multiplyByLongCeil (c.stream p.1).amountStreamCanReceive
  amount_eq_zero : prepare.amount = 0 → p.2 = 0

/-- A stream with a record is found with or without it. -/
theorem stream_of_record? {c : Connection App} {id : StreamId} {s : DataAndMoneyStream}
    (h : c.record? id = some s) : c.stream id = s := by
  unfold Connection.record? at h
  unfold Connection.stream
  rw [Option.eq_some_of_filter_eq_some h]
  rfl

/-- A frame that passes adds a checked amount, or none. -/
theorem checkFrame_ok {totalShares : Long} {amounts amounts' : List (StreamId × Long)} {frame : Frame}
    {c c' : Connection App} (h_amounts : ∀ p ∈ amounts, Checked c request.prepare p)
    (h : (checkFrame request totalShares amounts frame : Run App _).exec c = (.ok amounts', c')) :
    c' = c ∧ ∀ p ∈ amounts', Checked c request.prepare p := by
  cases frame with
  | streamMoney id shares =>
    simp only [checkFrame] at h
    -- its share of the amount, and the stream's record
    cases h_share : multiplyDivideFloor request.prepare.amount shares totalShares with
    | none =>
      rw [h_share] at h
      cases h
    | some streamAmount =>
      rw [h_share] at h
      simp only at h
      rw [exec_bind_ok (exec_get c)] at h
      cases h_record : c.record? id.toStreamId with
      | none =>
        rw [h_record] at h
        cases h
      | some s =>
        rw [h_record] at h
        simp only at h
        -- which may receive it, and is open
        by_cases h_limit :
            allowableReceiveExtra.multiplyByLongCeil s.amountStreamCanReceive < streamAmount
        · rw [if_pos h_limit] at h
          cases h
        rw [if_neg h_limit] at h
        by_cases h_closed : ¬s.isOpen
        · rw [if_pos h_closed] at h
          cases h
        rw [if_neg h_closed] at h
        cases h
        refine ⟨rfl, fun p hp => ?_⟩
        rcases List.mem_append.mp hp with hp | hp
        · exact h_amounts p hp
        · -- the new amount is within the limit of its stream
          rw [List.mem_singleton.mp hp]
          refine ⟨?_, fun h_zero => ?_⟩
          · rw [stream_of_record? h_record]
            exact BitVec.not_lt.mp h_limit
          · rw [h_zero] at h_share
            exact multiplyDivideFloor_zero h_share
  | _ =>
    cases h
    exact ⟨rfl, h_amounts⟩

/-- **The check** changes nothing when it passes, and establishes the limit for every frame. -/
theorem check_ok {amounts : List (StreamId × Long)} {c c' : Connection App}
    (h : (check env request).exec c = (.ok amounts, c')) :
    c' = c ∧ ∀ p ∈ amounts, Checked c request.prepare p := by
  unfold check at h
  by_cases h_condition :
      env.hash (env.generateFulfillment request.prepare.data) ≠ request.prepare.executionCondition
  · rw [if_pos h_condition] at h
    cases h
  rw [if_neg h_condition] at h
  cases h_total : totalMoneyShares request.packet.frames 0 with
  | none =>
    rw [h_total] at h
    cases h
  | some totalShares =>
    rw [h_total] at h
    refine foldEach_induction (fun amounts s => s = c ∧ ∀ p ∈ amounts, Checked c request.prepare p)
      (fun amounts frame s amounts' t _ h_mid h_exec => ?_) ⟨rfl, by simp⟩ h
    obtain ⟨rfl, h_amounts⟩ := h_mid
    exact checkFrame_ok h_amounts h_exec

end Accept

/-! ### The hold -/

section Hold

variable {c : Connection App} {value : Long}

/-- When the hold overflows: `addIncomingHold` adds up the total received as well. -/
theorem nextIncomingHold_overflow :
    (c.nextIncomingHold value).2 = true ↔
      2 ^ 64 ≤ min (c.totalReceived.toNat + c.incomingHold.toNat) (2 ^ 64 - 1) + value.toNat := by
  unfold Connection.nextIncomingHold
  rw [overflow_checkedAdd, toNat_checkedAdd]

/-- The hold that is stored otherwise. -/
theorem toNat_nextIncomingHold (h : ¬(c.nextIncomingHold value).2 = true) :
    (c.nextIncomingHold value).1.toNat =
      min (c.totalReceived.toNat + c.incomingHold.toNat) (2 ^ 64 - 1) + value.toNat := by
  rw [nextIncomingHold_overflow, not_le] at h
  unfold Connection.nextIncomingHold
  rw [toNat_checkedAdd, toNat_checkedAdd]
  exact Nat.min_eq_left (Nat.le_sub_one_of_lt h)

/-- **The hold.** Without overflow it is stored, otherwise the connection is destroyed and the packet
rejected. -/
theorem exec_addIncomingHold (env : Environment App) :
    (addIncomingHold env value).exec c =
      if (c.nextIncomingHold value).2 then
        (.error (.badRequest "Total received exceeded MaxUint64"), ((destroy env).exec c).2)
      else (.ok (), { c with incomingHold := (c.nextIncomingHold value).1 }) := by
  unfold addIncomingHold
  rw [exec_bind_ok (exec_get c)]
  simp only
  by_cases h_overflow : (c.nextIncomingHold value).2 = true
  · rw [if_pos h_overflow, if_pos h_overflow]
    exact exec_bind_ok (Prod.ext (destroy_isOk env c) rfl)
  · rw [if_neg h_overflow, if_neg h_overflow]
    rfl

end Hold

/-! ### Crediting and answering -/

/-- A listener of `money` throws while the amounts are credited. -/
def MoneyListenerThrows (env : Environment App) : List (StreamId × Long) → Connection App → Prop
  | [], _ => False
  | p :: amounts, c =>
    let result := env.respond (.money p.1 p.2) (c.updateStream p.1 fun s => s.addToIncoming p.2)
    result.2 = true ∨ MoneyListenerThrows env amounts result.1

/-- Receipts are enabled, and none can be made for this stream: the nonce or the secret has the wrong
length, or the id is not a byte. -/
def ReceiptFails (env : Environment App) (id : StreamId) : Prop :=
  match env.receiptNonce, env.receiptSecret with
  | some nonce, some secret =>
    ¬(nonce.length = 16 ∧ secret.length = 32 ∧ (env.writeUInt8 id.val).isOk)
  | _, _ => False

instance (env : Environment App) (id : StreamId) : Decidable (ReceiptFails env id) := by
  unfold ReceiptFails
  split <;> infer_instance

instance (env : Environment App) : ∀ amounts (c : Connection App),
    Decidable (MoneyListenerThrows env amounts c)
  | [], _ => inferInstanceAs (Decidable False)
  | _ :: amounts, _ =>
    have := instDecidableMoneyListenerThrows env amounts
    inferInstanceAs (Decidable (_ ∨ _))

/-- Fulfilling fails: a listener throws while the streams are credited, or a receipt fails after
that. -/
def FulfillFails (env : Environment App) (amounts : List (StreamId × Long)) (c : Connection App) :
    Prop :=
  MoneyListenerThrows env amounts c ∨ ∃ id ∈ amounts.map Prod.fst, ReceiptFails env id
  deriving Decidable

section Fulfill

variable {env : Environment App} {request : Request} {c : Connection App}
  {amounts : List (StreamId × Long)}

/-- Crediting one amount ends as the listeners do. -/
theorem exec_creditStream (env : Environment App) (c : Connection App)
    (totals : OrderedMap StreamId Long) (p : StreamId × Long) :
    (creditStream env totals p).exec c =
      let result := env.respond (.money p.1 p.2) (c.updateStream p.1 fun s => s.addToIncoming p.2)
      (if result.2 then .error .application
        else .ok (totals.set p.1 (result.1.stream p.1).totalReceived), result.1) := by
  unfold creditStream
  rw [exec_bind_ok (exec_modify _ _), exec_bind, exec_emit]
  simp only
  by_cases h_threw :
      (env.respond (.money p.1 p.2) (c.updateStream p.1 fun s => s.addToIncoming p.2)).2 = true
  · rw [if_pos h_threw, if_pos h_threw]
  · rw [if_neg h_threw, if_neg h_threw]
    rfl

/-- **Crediting** fails exactly when a listener throws, and otherwise notes the total of each
credited stream. -/
theorem credit_cases (env : Environment App) (amounts : List (StreamId × Long))
    (c : Connection App) :
    (MoneyListenerThrows env amounts c ∧
        ∃ c', (credit env amounts).exec c = (.error .application, c')) ∨
      (¬MoneyListenerThrows env amounts c ∧ ∃ totals c', (credit env amounts).exec c = (.ok totals, c') ∧
        ∀ id, id ∈ totals.entries.map Prod.fst ↔ id ∈ amounts.map Prod.fst) := by
  -- the totals noted before stay
  suffices h : ∀ totals : OrderedMap StreamId Long,
      (MoneyListenerThrows env amounts c ∧
        ∃ c', (foldEach (creditStream env) totals amounts).exec c = (.error .application, c')) ∨
      (¬MoneyListenerThrows env amounts c ∧
        ∃ totals' c', (foldEach (creditStream env) totals amounts).exec c = (.ok totals', c') ∧
        ∀ id, id ∈ totals'.entries.map Prod.fst ↔
          id ∈ totals.entries.map Prod.fst ∨ id ∈ amounts.map Prod.fst) by
    rcases h .empty with h_error | ⟨h_not, totals, c', h_exec, h_keys⟩
    · exact .inl h_error
    · refine .inr ⟨h_not, totals, c', h_exec, fun id => ?_⟩
      rw [h_keys]
      exact or_iff_right (List.not_mem_nil (a := id))
  -- induction on the amounts, with the totals so far
  induction amounts generalizing c with
  | nil => exact fun totals => .inr ⟨id, totals, c, rfl, by simp⟩
  | cons p amounts ih =>
    intro totals
    have h_exec := exec_creditStream env c totals p
    simp only at h_exec
    -- the listener of this stream throws, or one of a later stream, or none
    by_cases h_threw :
        (env.respond (.money p.1 p.2) (c.updateStream p.1 fun s => s.addToIncoming p.2)).2 = true
    · rw [if_pos h_threw] at h_exec
      exact .inl ⟨.inl h_threw, _, exec_bind_error h_exec⟩
    rw [if_neg h_threw] at h_exec
    unfold foldEach
    rw [exec_bind_ok h_exec]
    rcases ih (c := _) _ with ⟨h_later, h_error⟩ | ⟨h_not, totals', c', h_rest, h_keys⟩
    · exact .inl ⟨.inr h_later, h_error⟩
    · refine .inr ⟨fun h => h.elim h_threw h_not, totals', c', h_rest, fun id => ?_⟩
      rw [h_keys, OrderedMap.mem_keys, OrderedMap.get?_set, List.map_cons, List.mem_cons,
        OrderedMap.mem_keys]
      -- the stream is among the totals now
      by_cases h_id : id = p.1
      · simp [h_id]
      · simp [h_id]

/-- Making the receipt frames changes nothing, and fails when one receipt does. -/
theorem receiptFrames_cases (env : Environment App) (totals : OrderedMap StreamId Long) (c : Connection App) :
    ((∃ id ∈ totals.entries.map Prod.fst, ReceiptFails env id) ∧
      ∃ message, (receiptFrames env totals).exec c = (.error (.error message), c)) ∨
    ((∀ id ∈ totals.entries.map Prod.fst, ¬ReceiptFails env id) ∧
      ∃ frames, (receiptFrames env totals).exec c = (.ok frames, c)) := by
  unfold receiptFrames ReceiptFails
  -- without a nonce and a secret there are no receipts
  cases env.receiptNonce with
  | none => exact .inr ⟨fun _ _ h => h, [], rfl⟩
  | some nonce =>
    cases env.receiptSecret with
    | none => exact .inr ⟨fun _ _ h => h, [], rfl⟩
    | some secret =>
      simp only
      generalize ([] : List Frame) = frames
      -- induction on the streams, with the frames so far
      induction totals.entries generalizing frames with
      | nil => exact .inr ⟨by simp, frames, rfl⟩
      | cons p entries ih =>
        have h_receipt := createReceipt_isOk env.writeUInt8 env.generateReceiptHMAC nonce secret p.1.val p.2
        cases h_create : createReceipt env.writeUInt8 env.generateReceiptHMAC nonce secret p.1.val p.2 with
        | error message =>
          -- this receipt fails
          have h_this : ¬(nonce.length = 16 ∧ secret.length = 32 ∧ (env.writeUInt8 p.1.val).isOk) := by
            rw [← h_receipt, h_create]
            exact Bool.false_ne_true
          have h_exec : (receiptFrame env nonce secret frames p : Run App _).exec c =
              (.error (.error message), c) := by
            unfold receiptFrame
            rw [h_create]
            rfl
          exact .inl ⟨⟨p.1, List.mem_cons_self, h_this⟩, _, exec_bind_error h_exec⟩
        | ok receipt =>
          have h_this : nonce.length = 16 ∧ secret.length = 32 ∧ (env.writeUInt8 p.1.val).isOk := by
            rw [← h_receipt, h_create]
            rfl
          have h_exec : (receiptFrame env nonce secret frames p : Run App _).exec c =
              (.ok (frames ++ [.streamReceipt (StreamId.toLong p.1) receipt]), c) := by
            unfold receiptFrame
            rw [h_create]
            rfl
          unfold foldEach
          rw [exec_bind_ok h_exec]
          rcases ih (frames ++ [.streamReceipt (StreamId.toLong p.1) receipt])
            with ⟨⟨id, h_mem, h_id⟩, h_error⟩ | ⟨h_none, h_ok⟩
          · exact .inl ⟨⟨id, List.mem_cons_of_mem _ h_mem, h_id⟩, h_error⟩
          · refine .inr ⟨fun id h_mem => ?_, h_ok⟩
            rcases List.mem_cons.mp h_mem with rfl | h_mem
            · exact not_not.mpr h_this
            · exact h_none id h_mem

/-- Telling the peer about the streams returns, and changes no amount. -/
theorem streamResponseFrames_ok (c : Connection App) :
    ∃ frames c', (streamResponseFrames : Run App _).exec c = (.ok frames, c') ∧
      c'.ledger = c.ledger := by
  unfold streamResponseFrames
  rw [exec_bind_ok (exec_get c)]
  by_cases h_closed : c.closed = true ∨ c.remoteState = .closed
  · rw [if_pos h_closed]
    exact ⟨_, _, rfl, rfl⟩
  · rw [if_neg h_closed]
    refine ⟨_, _, rfl, ledger_mapValues fun id s => ?_⟩
    split <;> rfl

/-- **The ways of fulfilling.** It fails, in the state that crediting left, or the response is
returned with the hold moved to the total. -/
theorem fulfill_cases (env : Environment App) (request : Request) (amounts : List (StreamId × Long))
    (c : Connection App) :
    (FulfillFails env amounts c ∧ ∃ e c', (fulfill env request amounts).exec c = (.error e, c') ∧
      (∀ message, e ≠ .badRequest message) ∧
      c'.ledger = ((credit env amounts).exec c).2.ledger) ∨
    (¬FulfillFails env amounts c ∧ ∃ response, ∃ c₁ : Connection App,
      (fulfill env request amounts).exec c = (.ok response,
        (c₁.removeIncomingHold request.prepare.amount).addTotalReceived request.prepare.amount) ∧
      c₁.ledger = ((credit env amounts).exec c).2.ledger) := by
  unfold fulfill FulfillFails
  rcases credit_cases env amounts c with ⟨h_throws, c', h_credit⟩ | ⟨h_not, totals, c₁, h_credit, h_keys⟩
  · refine .inl ⟨.inl h_throws, _, c', exec_bind_error h_credit, fun _ h => ?_, ?_⟩
    · cases h
    · rw [h_credit]
  rw [exec_bind_ok h_credit, h_credit]
  obtain ⟨frames, c₂, h_frames, h_ledger⟩ := streamResponseFrames_ok c₁
  rw [exec_bind_ok h_frames]
  rcases receiptFrames_cases env totals c₂ with
    ⟨⟨id, h_mem, h_fails⟩, message, h_receipts⟩ | ⟨h_none, receipts, h_receipts⟩
  · refine .inl ⟨.inr ⟨id, (h_keys id).mp h_mem, h_fails⟩, _, c₂, exec_bind_error h_receipts,
      fun _ h => ?_, h_ledger⟩
    cases h
  · rw [exec_bind_ok h_receipts]
    refine .inr ⟨?_, _, { c₂ with queuedFrames := [] }, rfl, h_ledger⟩
    rintro (h_throws | ⟨id, h_mem, h_fails⟩)
    · exact h_not h_throws
    · exact h_none id ((h_keys id).mpr h_mem) h_fails

end Fulfill

end Interledger.Stream
