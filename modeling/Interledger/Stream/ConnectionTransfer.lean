import Interledger.Stream.PacketSize
import Interledger.Stream.Transfer
import Mathlib.Algebra.Order.BigOperators.Group.List

/-!
# The data of a connection between its two ends

The streams of a connection share the limit that `ConnectionMaxData` frames give: `loadAndSendPacket` of
`connection.ts` cuts the data of the streams to what the peer accepts in all, and the peer ends the
connection when it has received more, which `handlePrepare` checks in every packet. The sums on both sides
go over the streams that are open; here none of them is removed.

The loop of `loadAndSendPacket` over the streams is taken apart: a packet begins with the bytes that the
control frames and the money have left in it, and each stream that the loop comes to is an event of its own,
since the callbacks of the writes run in between.

A sender assumes that its peer's buffer is as large as its own until it hears otherwise, and the frame that
says otherwise does not lower the limit. The results are about two ends where that assumption holds.

## Main results

* `flow_control_is_sound` — the receiver never sees more than it accepts, from no stream and not in all.
-/

namespace Interledger.Stream

open Interledger.Ilp

/-! ### What an event at the sender of a stream hands out -/

namespace Outgoing

variable {s t : Outgoing}

/-- The segments that an event hands out. -/
def handedOut (s t : Outgoing) : List OffsetDataEntry := t.unanswered.drop s.unanswered.length

/-- The bytes of some segments. -/
def lengthOf (entries : List OffsetDataEntry) : ℕ := (entries.map fun e => e.data.length).sum

/-- **What an event hands out** of the bytes that may be read: nothing, while the read stays where it is; or
the read comes to its end, or to a callback. -/
inductive Spends (s t : Outgoing) (allowance : ℕ) : Prop
  | quiet (h_read : t.read = s.read) (h_offset : t.stream.outgoingOffset = s.stream.outgoingOffset)
    (h_none : handedOut s t = []) : Spends s t allowance
  | done (h_read : t.read = none)
    (h_offset : t.stream.outgoingOffset ≤ s.stream.outgoingOffset + lengthOf (handedOut s t))
    (h_allowed : t.stream.outgoingOffset ≤ s.stream.outgoingOffset + allowance) : Spends s t allowance
  | interrupted (h_read : t.read.isSome) (h_offset : t.stream.outgoingOffset = s.stream.outgoingOffset)
    (h_none : handedOut s t = []) (h_budget : t.budget ≤ allowance) : Spends s t allowance

theorem Spends.mono {allowance allowance' : ℕ} (h : Spends s t allowance) (h_le : allowance ≤ allowance') :
    Spends s t allowance' := by
  obtain ⟨h_read, h_offset, h_none⟩ | ⟨h_read, h_offset, h_allowed⟩ | ⟨h_read, h_offset, h_none, h_budget⟩ := h
  · exact .quiet h_read h_offset h_none
  · exact .done h_read h_offset (h_allowed.trans (Nat.add_le_add_left h_le _))
  · exact .interrupted h_read h_offset h_none (h_budget.trans h_le)

/-- A read goes on. -/
theorem record_readOn_spends (queue : List DataQueueEntry) (read : PendingRead) :
    Spends s (s.record ({ s.stream with outgoingData := queue }.readOn read)) (read.data.length + read.bytesLeft) := by
  have h_length := (readChunks_spec queue read).length
  unfold OutgoingStream.readOn
  simp only
  rcases h_read : readChunks queue read with ⟨_ | head, queue', read'⟩ <;> rw [h_read] at h_length
  · -- the segment is handed out
    have h_le : read'.data.length ≤ read.data.length + read.bytesLeft := by
      rw [← h_length]
      exact Nat.le_add_right _ _
    refine .done rfl ?_ (Nat.add_le_add_left h_le _)
    change s.stream.outgoingOffset + read'.data.length ≤ s.stream.outgoingOffset +
      lengthOf ((s.unanswered ++ if read'.data = [] then [] else [_]).drop s.unanswered.length)
    rw [List.drop_left]
    refine Nat.add_le_add_left ?_ _
    split
    · next h_empty => rw [h_empty, List.length_nil]; exact Nat.zero_le _
    · exact Nat.le_refl _
  · -- a callback interrupts it
    refine .interrupted rfl rfl ?_ (Nat.le_of_eq h_length)
    exact List.drop_length

/-- Data is asked for. -/
theorem getAvailable_spends {size : ℕ} (h_step : s.step (.getAvailableDataToSend size) = some t) :
    s.read = none ∧ Spends s t size := by
  simp only [Outgoing.step] at h_step
  split at h_step
  case isFalse => cases h_step
  case isTrue h_idle =>
    obtain rfl := Option.some.inj h_step
    refine ⟨Option.isNone_iff_eq_none.mp h_idle.2, ?_⟩
    have h_same (stream : OutgoingStream) (entry : OffsetDataEntry)
        (h_stream : stream.outgoingOffset = s.stream.outgoingOffset) :
        Spends s (s.record (stream, .segment entry)) size := by
      refine .done rfl ?_ ?_
      · exact Nat.le_trans (Nat.le_of_eq h_stream) (Nat.le_add_right _ _)
      · exact Nat.le_trans (Nat.le_of_eq h_stream) (Nat.le_add_right _ _)
    unfold OutgoingStream.getAvailableDataToSend
    split
    · split
      · exact h_same _ _ rfl
      · exact h_same _ _ rfl
    · -- new data
      have h_spends := record_readOn_spends (s := s) s.stream.outgoingData
        { bytesLeft := min size (s.stream.remoteMaxOffset - s.stream.outgoingOffset) }
      have h_le : 0 + min size (s.stream.remoteMaxOffset - s.stream.outgoingOffset) ≤ size := by omega
      exact h_spends.mono h_le

/-- What was not read yet of the bytes that may be read is left for the rest. -/
theorem Spends.offset_le {allowance size : ℕ} (h : Spends s t allowance)
    (h_size : lengthOf (handedOut s t) ≤ size) :
    t.stream.outgoingOffset + (allowance - size) ≤ s.stream.outgoingOffset + allowance := by
  obtain ⟨-, h_offset, -⟩ | ⟨-, h_new, h_allowed⟩ | ⟨-, h_offset, -, -⟩ := h
  · rw [h_offset]
    exact Nat.add_le_add_left (Nat.sub_le _ _) _
  · omega
  · rw [h_offset]
    exact Nat.add_le_add_left (Nat.sub_le _ _) _

/-- A read that is under way stays within the bytes that may be read, and nothing was handed out. -/
theorem Spends.budget_le {allowance : ℕ} (h : Spends s t allowance) (h_budget : s.budget ≤ allowance) :
    t.read = none ∨ (handedOut s t = [] ∧ t.budget ≤ allowance) := by
  obtain ⟨h_read, -, h_none⟩ | ⟨h_read, -, -⟩ | ⟨-, -, h_none, h_le⟩ := h
  · refine .inr ⟨h_none, ?_⟩
    unfold budget
    rw [h_read]
    exact h_budget
  · exact .inl h_read
  · exact .inr ⟨h_none, h_le⟩

/-- What else happens leaves a read where it is, or goes on with it. -/
theorem step_spends {e : OutgoingEvent} (h_step : s.step e = some t)
    (h_e : ∀ size, e ≠ .getAvailableDataToSend size) :
    (t.read = s.read ∧ t.stream.outgoingOffset = s.stream.outgoingOffset ∧ handedOut s t = []) ∨
      (s.read.isSome ∧ Spends s t s.budget) := by
  cases e with
  | write chunks last =>
    obtain rfl := Option.some.inj h_step
    exact .inl ⟨rfl, rfl, List.drop_length⟩
  | remoteMaxOffset newOffset =>
    obtain rfl := Option.some.inj h_step
    refine .inl ⟨rfl, ?_, List.drop_length⟩
    change (s.stream.raiseRemoteMaxOffset newOffset).outgoingOffset = _
    unfold OutgoingStream.raiseRemoteMaxOffset
    split <;> rfl
  | getAvailableDataToSend size => exact absurd rfl (h_e size)
  | callbackReturned =>
    obtain ⟨read, h_read, rfl⟩ := Option.map_eq_some_iff.mp h_step
    -- a read that goes on takes of its own budget
    have h_budget : s.budget = read.data.length + read.bytesLeft := by
      unfold budget
      rw [h_read]
      rfl
    refine .inr ⟨by rw [h_read]; rfl, ?_⟩
    rw [h_budget]
    exact record_readOn_spends _ read
  | acknowledge i =>
    obtain ⟨entry, -, rfl⟩ := Option.map_eq_some_iff.mp h_step
    refine .inl ⟨rfl, rfl, List.drop_of_length_le ?_⟩
    exact List.length_eraseIdx_le _ _
  | resend i =>
    obtain ⟨entry, -, rfl⟩ := Option.map_eq_some_iff.mp h_step
    refine .inl ⟨rfl, rfl, List.drop_of_length_le ?_⟩
    exact List.length_eraseIdx_le _ _

end Outgoing

/-! ### The two connections and what is between them -/

/-- A stream in one direction. -/
structure Channel where
  id : StreamId
  transfer : Transfer := {}
  deriving DecidableEq

/-- The data of a connection in one direction: its streams, the offset up to which the sender takes the
receiver to accept data, the bytes left in the packet that is made, and the offsets of the
`ConnectionMaxData` frames that the receiver made. -/
structure ConnectionTransfer where
  streams : List Channel := []
  remoteMaxOffset : ℕ
  bytesLeftInPacket : ℕ := 0
  announced : List ℕ := []
  deriving DecidableEq

/-- What happens to the data of a connection. -/
inductive ConnectionTransferEvent
  | openStream (id : StreamId)
  /-- Something happens to the data of a stream, other than that it is asked for. -/
  | stream (i : ℕ) (e : TransferEvent)
  /-- A packet is begun, with the bytes that are left in it. -/
  | beginPacket (bytesLeftInPacket : ℕ)
  /-- The loop comes to a stream. -/
  | load (i : ℕ)
  /-- A `ConnectionMaxData` frame is made. -/
  | announce
  /-- One arrives. -/
  | hear (i : ℕ)
  deriving DecidableEq

/-- The size of the frame for a segment. -/
def dataFrameSize (id : StreamId) (e : OffsetDataEntry) : ℕ :=
  (Frame.streamData id.toLong (Long.fromNumber e.offset) e.data).bytes.length

namespace ConnectionTransfer

variable (s : ConnectionTransfer)

/-- The `currentOffset` of the sender's `getOutgoingOffsets`. -/
def currentOffset : ℕ := (s.streams.map fun c => c.transfer.sender.stream.outgoingOffset).sum

/-- The streams of the receiver. -/
def received : List (StreamId × DataAndMoneyStream) := s.streams.map fun c => (c.id, c.transfer.receiver)

/-- The `max` of the receiver's `getIncomingOffsets`. -/
def maxOffset : ℕ := (s.received.map fun p => p.2.incomingData.maxOffset).sum

/-- Its `maxAcceptable`. -/
def maxAcceptable (maxBufferedData : ℕ) : ℕ :=
  (s.received.map fun p => p.2.incomingData.readOffset).sum
    - (s.received.map fun p => p.2.readableLength).sum + maxBufferedData

/-- The callback of a write is running, within the loop over the streams. -/
def IsInterrupted : Prop := ∃ c ∈ s.streams, c.transfer.sender.read.isSome

instance : Decidable s.IsInterrupted := inferInstanceAs (Decidable (∃ c ∈ s.streams, _))

/-- Something happens to the data of a stream. The frames of the segments that are handed out are taken off
the bytes left. -/
def act (i : ℕ) (e : TransferEvent) : Option ConnectionTransfer := do
  let c ← s.streams[i]?
  let transfer ← c.transfer.step e
  return { s with
    streams := s.streams.set i { c with transfer := transfer }
    bytesLeftInPacket := s.bytesLeftInPacket -
      ((c.transfer.sender.handedOut transfer.sender).map (dataFrameSize c.id)).sum }

/-- One event, for a sender and a receiver with these `connectionBufferSize`s. The loop leaves 20 bytes for
what a frame is longer than its data. -/
def step (sendBuffer receiveBuffer : ℕ) : ConnectionTransferEvent → Option ConnectionTransfer
  | .openStream id =>
    if ∃ channel ∈ s.streams, channel.id = id then none else some { s with streams := s.streams ++ [{ id := id }] }
  | .stream _ (.send (.getAvailableDataToSend _)) => none
  | .stream i e => s.act i e
  | .beginPacket bytesLeftInPacket =>
    if s.IsInterrupted then none
    else some { s with bytesLeftInPacket := min bytesLeftInPacket (s.remoteMaxOffset - s.currentOffset) }
  | .load i =>
    if 20 < s.bytesLeftInPacket ∧ ¬s.IsInterrupted then
      s.act i (.send (.getAvailableDataToSend (s.bytesLeftInPacket - 20)))
    else none
  | .announce => some { s with announced := s.announced ++ [s.maxAcceptable receiveBuffer] }
  | .hear i =>
    s.announced[i]?.map fun maxOffset =>
      { s with
        remoteMaxOffset :=
          if maxOffset ≠ sendBuffer then max maxOffset s.remoteMaxOffset else maxOffset }

/-- The data of a connection as an event machine. -/
def machine (sendBuffer receiveBuffer : ℕ) : Machine ConnectionTransfer ConnectionTransferEvent where
  init s := s = { remoteMaxOffset := sendBuffer }
  step s := s.step sendBuffer receiveBuffer

/-- The offsets of a connection with these streams. -/
theorem incomingOffsets_eq {App : Type} {c : Connection App} (h : c.records = s.received) (maxBufferedData : ℕ) :
    c.incomingMaxOffset = s.maxOffset ∧ c.incomingMaxAcceptable maxBufferedData = s.maxAcceptable maxBufferedData := by
  unfold Connection.incomingMaxOffset Connection.incomingMaxAcceptable
  rw [h]
  exact ⟨rfl, rfl⟩

end ConnectionTransfer

/-! ### What the receiver's application has taken -/

namespace Transfer

variable {s t : Transfer}

/-- The bytes that were taken from Node's buffer. -/
def consumed (s : Transfer) : ℕ := s.receiver.incomingData.readOffset - s.receiver.readableLength

/-- They become no fewer. -/
theorem consumed_le_step {e : TransferEvent} (h_step : s.step e = some t) : s.consumed ≤ t.consumed := by
  -- the sender consumes nothing
  have h_send {e : OutgoingEvent} (h_send : s.send e = some t) : s.consumed ≤ t.consumed := by
    obtain ⟨sender, -, rfl⟩ := Option.map_eq_some_iff.mp h_send
    exact Nat.le_refl _
  cases e with
  | send e => exact h_send (send_of_step h_step).1
  | arrive i =>
    obtain ⟨e, -, rfl⟩ := Option.map_eq_some_iff.mp h_step
    exact Nat.le_refl _
  | read =>
    obtain rfl := Option.some.inj h_step
    -- what is moved to the buffer is still to be taken
    have h_read := s.receiver.incomingData.readOffset_read
    change s.receiver.incomingData.readOffset - s.receiver.readableLength ≤
      s.receiver.incomingData.read.2.readOffset -
        (s.receiver.readableLength + (s.receiver.incomingData.read.1.getD []).length)
    rw [h_read, Nat.add_sub_add_right]
  | take n =>
    simp only [Transfer.step] at h_step
    split at h_step
    · obtain rfl := Option.some.inj h_step
      -- what is taken is consumed
      exact Nat.sub_le_sub_left (Nat.sub_le _ _) _
    · cases h_step
  | raiseHighWaterMark n =>
    obtain rfl := Option.some.inj h_step
    exact Nat.le_refl _
  | announce =>
    obtain rfl := Option.some.inj h_step
    exact Nat.le_refl _
  | hear i =>
    obtain ⟨offset, -, h_offset⟩ := Option.bind_eq_some_iff.mp h_step
    exact h_send h_offset

end Transfer

namespace Transfer

variable {s t : Transfer}

/-- What an event does at the sender. -/
theorem sender_of_step {e : TransferEvent} (h_step : s.step e = some t) :
    t.sender = s.sender ∨ ∃ e', s.sender.step e' = some t.sender ∧
      (e = .send e' ∨ ∃ offset, e' = .remoteMaxOffset offset) := by
  have h_send {e : OutgoingEvent} (h_send : s.send e = some t) : s.sender.step e = some t.sender := by
    obtain ⟨sender, h_sender, rfl⟩ := Option.map_eq_some_iff.mp h_send
    exact h_sender
  cases e with
  | send e => exact .inr ⟨e, h_send (send_of_step h_step).1, .inl rfl⟩
  | arrive i =>
    obtain ⟨e, -, rfl⟩ := Option.map_eq_some_iff.mp h_step
    exact .inl rfl
  | read =>
    obtain rfl := Option.some.inj h_step
    exact .inl rfl
  | take n =>
    simp only [Transfer.step] at h_step
    split at h_step
    · obtain rfl := Option.some.inj h_step
      exact .inl rfl
    · cases h_step
  | raiseHighWaterMark n =>
    obtain rfl := Option.some.inj h_step
    exact .inl rfl
  | announce =>
    obtain rfl := Option.some.inj h_step
    exact .inl rfl
  | hear i =>
    obtain ⟨offset, -, h_offset⟩ := Option.bind_eq_some_iff.mp h_step
    exact .inr ⟨_, h_send h_offset, .inr ⟨offset, rfl⟩⟩

/-- What an event hands out, other than that data is asked for. -/
theorem step_spends {e : TransferEvent} (h_step : s.step e = some t)
    (h_e : ∀ size, e ≠ .send (.getAvailableDataToSend size)) :
    (t.sender.read = s.sender.read ∧ t.sender.stream.outgoingOffset = s.sender.stream.outgoingOffset ∧
      s.sender.handedOut t.sender = []) ∨
      (s.sender.read.isSome ∧ s.sender.Spends t.sender s.sender.budget) := by
  rcases sender_of_step h_step with h_same | ⟨e', h_sender, h_which⟩
  · rw [h_same]
    exact .inl ⟨rfl, rfl, List.drop_length⟩
  · refine Outgoing.step_spends h_sender ?_
    rintro size rfl
    rcases h_which with rfl | ⟨offset, h_offset⟩
    · exact h_e size rfl
    · cases h_offset

end Transfer

namespace ConnectionTransfer

variable {s t : ConnectionTransfer}

/-- What is accepted in all is what was taken and the buffer. -/
theorem maxAcceptable_eq (maxBufferedData : ℕ) :
    s.maxAcceptable maxBufferedData = (s.streams.map fun c => c.transfer.consumed).sum + maxBufferedData := by
  have h_sub (streams : List Channel) :
      (streams.map fun c => c.transfer.receiver.readableLength).sum + (streams.map fun c => c.transfer.consumed).sum =
        (streams.map fun c => c.transfer.receiver.incomingData.readOffset).sum := by
    induction streams with
    | nil => rfl
    | cons c streams ih =>
      have h_le := c.transfer.receiver.readableLength_le
      have h_consumed : c.transfer.consumed = c.transfer.receiver.incomingData.readOffset -
        c.transfer.receiver.readableLength := rfl
      rw [List.map_cons, List.sum_cons, List.map_cons, List.sum_cons, List.map_cons, List.sum_cons, ← ih]
      omega
  unfold maxAcceptable received
  rw [List.map_map, List.map_map]
  change (s.streams.map fun c => c.transfer.receiver.incomingData.readOffset).sum -
    (s.streams.map fun c => c.transfer.receiver.readableLength).sum + maxBufferedData = _
  rw [← h_sub, Nat.add_sub_cancel_left]

/-! ### In every run -/

/-- **The invariant.** What was handed out in all and the bytes that the packet may still take are within
what the receiver accepts, and only one read is under way, within these bytes. -/
structure Bounded (receiveBuffer : ℕ) (s : ConnectionTransfer) : Prop where
  safe : ∀ c ∈ s.streams, c.transfer.Safe
  offset : s.currentOffset + s.bytesLeftInPacket ≤ s.maxAcceptable receiveBuffer
  limit : s.remoteMaxOffset ≤ s.maxAcceptable receiveBuffer
  /-- The receiver never takes back what it has announced. -/
  announced : ∀ offset ∈ s.announced, offset ≤ s.maxAcceptable receiveBuffer
  budget : ∀ c ∈ s.streams, c.transfer.sender.budget ≤ s.bytesLeftInPacket
  single : ∀ (i j : ℕ) (c d : Channel), s.streams[i]? = some c → s.streams[j]? = some d →
    c.transfer.sender.read.isSome → d.transfer.sender.read.isSome → i = j

theorem length_le_dataFrameSize (id : StreamId) (e : OffsetDataEntry) : e.data.length ≤ dataFrameSize id e := by
  unfold dataFrameSize
  rw [Frame.bytes, IlpPacket.length_envelope, IlpPacket.envelopeSize, Oer.Predictor.measureVarOctetString]
  simp only [Frame.contents, Frame.properties, List.flatMap_cons, List.flatMap_nil, Property.bytes,
    List.length_append, List.length_nil, Oer.length_octets, Oer.Predictor.measureVarOctetString]
  omega

namespace Bounded

variable {sendBuffer receiveBuffer : ℕ}

theorem initial (h : sendBuffer ≤ receiveBuffer) : Bounded receiveBuffer { remoteMaxOffset := sendBuffer } where
  safe := by simp
  offset := Nat.zero_le _
  limit := h.trans (Nat.le_add_left _ _)
  announced := by simp
  budget := by simp
  single := by simp

/-- The bytes of segments fit into their frames. -/
theorem lengthOf_le (id : StreamId) (entries : List OffsetDataEntry) :
    Outgoing.lengthOf entries ≤ (entries.map (dataFrameSize id)).sum :=
  List.sum_le_sum fun e _ => length_le_dataFrameSize id e

theorem budget_eq_zero {sender : Outgoing} (h : sender.read = none) : sender.budget = 0 := by
  unfold Outgoing.budget
  rw [h]
  rfl

/-- No read is under way but at one stream. -/
def ReadsOnly (s : ConnectionTransfer) (i : ℕ) : Prop :=
  ∀ (j : ℕ) (d : Channel), s.streams[j]? = some d → d.transfer.sender.read.isSome → j = i

variable {i : ℕ} {c : Channel} {transfer : Transfer}

/-- Still one read at most is under way. -/
theorem single_set (h : Bounded receiveBuffer s) (h_get : s.streams[i]? = some c)
    (h_others : transfer.sender.read = c.transfer.sender.read ∨ ReadsOnly s i) (j k : ℕ) (d d' : Channel)
    (h_d : (s.streams.set i { c with transfer := transfer })[j]? = some d)
    (h_d' : (s.streams.set i { c with transfer := transfer })[k]? = some d')
    (h_read : d.transfer.sender.read.isSome) (h_read' : d'.transfer.sender.read.isSome) : j = k := by
  rcases h_others with h_same | h_only
  · -- the same reads as before
    have h_before {j : ℕ} {d : Channel} (h_d : (s.streams.set i { c with transfer := transfer })[j]? = some d)
        (h_read : d.transfer.sender.read.isSome) :
        ∃ d, s.streams[j]? = some d ∧ d.transfer.sender.read.isSome := by
      rcases getElem?_set_cases h_d with ⟨rfl, rfl⟩ | ⟨-, h_old⟩
      · exact ⟨c, h_get, h_same ▸ h_read⟩
      · exact ⟨d, h_old, h_read⟩
    obtain ⟨b, h_b, h_b_read⟩ := h_before h_d h_read
    obtain ⟨b', h_b', h_b_read'⟩ := h_before h_d' h_read'
    exact h.single j k b b' h_b h_b' h_b_read h_b_read'
  · have h_here {j : ℕ} {d : Channel} (h_d : (s.streams.set i { c with transfer := transfer })[j]? = some d)
        (h_read : d.transfer.sender.read.isSome) : j = i := by
      rcases getElem?_set_cases h_d with ⟨h_j, -⟩ | ⟨-, h_old⟩
      · exact h_j
      · exact h_only j d h_old h_read
    exact (h_here h_d h_read).trans (h_here h_d' h_read').symm

/-- **Something happens to the data of a stream.** It hands out no more than the packet has room for, and
leaves the reads of the others where they are. -/
theorem act {e : TransferEvent} (h : Bounded receiveBuffer s) (h_get : s.streams[i]? = some c)
    (h_step : c.transfer.step e = some transfer)
    (h_spends : Outgoing.Spends c.transfer.sender transfer.sender s.bytesLeftInPacket)
    (h_others : (transfer.sender.read = c.transfer.sender.read ∧
      c.transfer.sender.handedOut transfer.sender = []) ∨ ReadsOnly s i) :
    Bounded receiveBuffer
      { s with
        streams := s.streams.set i { c with transfer := transfer }
        bytesLeftInPacket := s.bytesLeftInPacket -
          ((c.transfer.sender.handedOut transfer.sender).map (dataFrameSize c.id)).sum } := by
  have h_mem : c ∈ s.streams := List.mem_of_getElem? h_get
  -- the segments that were handed out, and what they take of the packet
  have h_length := lengthOf_le c.id (c.transfer.sender.handedOut transfer.sender)
  have h_none (h_none : c.transfer.sender.handedOut transfer.sender = []) :
      ((c.transfer.sender.handedOut transfer.sender).map (dataFrameSize c.id)).sum = 0 := by
    rw [h_none]
    rfl
  generalize ((c.transfer.sender.handedOut transfer.sender).map (dataFrameSize c.id)).sum = size at *
  let after : ConnectionTransfer :=
    { s with
      streams := s.streams.set i { c with transfer := transfer }
      bytesLeftInPacket := s.bytesLeftInPacket - size }
  -- more is accepted, and no more was handed out than there was room for
  have h_accept : s.maxAcceptable receiveBuffer ≤ after.maxAcceptable receiveBuffer := by
    have h_sum : (after.streams.map fun c => c.transfer.consumed).sum + c.transfer.consumed =
        (s.streams.map fun c => c.transfer.consumed).sum + transfer.consumed :=
      sum_map_set (fun c : Channel => c.transfer.consumed) h_get { c with transfer := transfer }
    have h_more := Transfer.consumed_le_step h_step
    rw [maxAcceptable_eq, maxAcceptable_eq]
    omega
  -- the offset of the connection moves with that of the stream
  have h_handed : after.currentOffset + c.transfer.sender.stream.outgoingOffset =
      s.currentOffset + transfer.sender.stream.outgoingOffset :=
    sum_map_set (fun c : Channel => c.transfer.sender.stream.outgoingOffset) h_get { c with transfer := transfer }
  -- and by no more than the packet had room for
  have h_room := h_spends.offset_le h_length
  have h_offset := h.offset
  exact
    { safe := by
        intro d h_d
        rcases List.mem_or_eq_of_mem_set h_d with h_old | rfl
        · exact h.safe d h_old
        · exact (h.safe c h_mem).step h_step
      offset := by
        change after.currentOffset + (s.bytesLeftInPacket - size) ≤ after.maxAcceptable receiveBuffer
        omega
      limit := h.limit.trans h_accept
      announced := fun offset h_announced => (h.announced offset h_announced).trans h_accept
      budget := by
        intro d h_d
        change d.transfer.sender.budget ≤ s.bytesLeftInPacket - size
        have h_zero (h_read : d.transfer.sender.read = none) :
            d.transfer.sender.budget ≤ s.bytesLeftInPacket - size := by
          rw [budget_eq_zero h_read]
          exact Nat.zero_le _
        obtain ⟨j, h_j⟩ := List.mem_iff_getElem?.mp h_d
        rcases getElem?_set_cases h_j with ⟨-, rfl⟩ | ⟨h_ne, h_old⟩
        · -- this stream
          rcases h_spends.budget_le (h.budget c h_mem) with h_read | ⟨h_nothing, h_le⟩
          · exact h_zero h_read
          · rw [h_none h_nothing]
            exact h_le
        · -- another one
          rcases h_others with ⟨-, h_nothing⟩ | h_only
          · rw [h_none h_nothing]
            exact h.budget d (List.mem_of_getElem? h_old)
          · refine h_zero (Option.not_isSome_iff_eq_none.mp fun h_read => ?_)
            exact h_ne (h_only j d h_old h_read)
      single := h.single_set h_get (h_others.imp_left And.left) }

/-- More streams, limits and frames. -/
theorem of_same {after : ConnectionTransfer} (h : Bounded receiveBuffer s) (h_streams : after.streams = s.streams)
    (h_room : s.currentOffset + after.bytesLeftInPacket ≤ s.maxAcceptable receiveBuffer)
    (h_budget : ∀ c ∈ s.streams, c.transfer.sender.budget ≤ after.bytesLeftInPacket)
    (h_limit : after.remoteMaxOffset ≤ s.maxAcceptable receiveBuffer)
    (h_announced : ∀ offset ∈ after.announced, offset ≤ s.maxAcceptable receiveBuffer) :
    Bounded receiveBuffer after := by
  have h_offset : after.currentOffset = s.currentOffset := by
    unfold currentOffset
    rw [h_streams]
  have h_accept : after.maxAcceptable receiveBuffer = s.maxAcceptable receiveBuffer := by
    unfold maxAcceptable received
    rw [h_streams]
  exact
    { safe := h_streams ▸ h.safe
      offset := h_offset ▸ h_accept ▸ h_room
      limit := h_accept ▸ h_limit
      announced := h_accept ▸ h_announced
      budget := h_streams ▸ h_budget
      single := h_streams ▸ h.single }

/-- A stream is opened. -/
theorem openStream (h : Bounded receiveBuffer s) (id : StreamId) :
    Bounded receiveBuffer { s with streams := s.streams ++ [{ id := id }] } := by
  have h_new {i : ℕ} {c : Channel} (h_c : (s.streams ++ [{ id := id }])[i]? = some c)
      (h_read : c.transfer.sender.read.isSome) : s.streams[i]? = some c := by
    rw [List.getElem?_append] at h_c
    split at h_c
    · exact h_c
    · -- the new stream reads nothing
      rw [List.mem_singleton.mp (List.mem_of_getElem? h_c)] at h_read
      cases h_read
  -- it has neither an offset nor data
  have h_offset : ({ s with streams := s.streams ++ [{ id := id }] } : ConnectionTransfer).currentOffset =
      s.currentOffset := by
    unfold currentOffset
    rw [List.map_append, List.sum_append]
    rfl
  have h_accept : ({ s with streams := s.streams ++ [{ id := id }] } : ConnectionTransfer).maxAcceptable
      receiveBuffer = s.maxAcceptable receiveBuffer := by
    rw [maxAcceptable_eq, maxAcceptable_eq, List.map_append, List.sum_append]
    rfl
  exact
    { safe := by
        intro c h_c
        rcases List.mem_append.mp h_c with h_old | h_here
        · exact h.safe c h_old
        · rw [List.mem_singleton.mp h_here]
          exact .initial
      offset := h_offset ▸ h_accept ▸ h.offset
      limit := h_accept ▸ h.limit
      announced := h_accept ▸ h.announced
      budget := by
        intro c h_c
        rcases List.mem_append.mp h_c with h_old | h_here
        · exact h.budget c h_old
        · rw [List.mem_singleton.mp h_here]
          exact Nat.zero_le _
      single := fun i j c d h_c h_d h_read h_read' =>
        h.single i j c d (h_new h_c h_read) (h_new h_d h_read') h_read h_read' }

/-- **Each event** keeps the invariant. -/
theorem step {t : ConnectionTransfer} {e : ConnectionTransferEvent} (h : Bounded receiveBuffer s)
    (h_step : s.step sendBuffer receiveBuffer e = some t) : Bounded receiveBuffer t := by
  have h_offset : s.currentOffset ≤ s.maxAcceptable receiveBuffer := (Nat.le_add_right _ _).trans h.offset
  -- what happens at a stream, other than that data is asked for
  have h_act {i : ℕ} {e : TransferEvent} (h_e : ∀ size, e ≠ .send (.getAvailableDataToSend size))
      (h_step : s.act i e = some t) : Bounded receiveBuffer t := by
    obtain ⟨c, h_get, h_step⟩ := Option.bind_eq_some_iff.mp h_step
    obtain ⟨transfer, h_transfer, h_step⟩ := Option.bind_eq_some_iff.mp h_step
    obtain rfl := Option.some.inj h_step
    rcases Transfer.step_spends h_transfer h_e with ⟨h_read, h_same, h_none⟩ | ⟨h_read, h_spends⟩
    · exact h.act h_get h_transfer (.quiet h_read h_same h_none) (.inl ⟨h_read, h_none⟩)
    · -- a callback has returned
      have h_budget := h.budget c (List.mem_of_getElem? h_get)
      refine h.act h_get h_transfer (h_spends.mono h_budget) (.inr fun j d h_d h_read' => ?_)
      exact h.single j i d c h_d h_get h_read' h_read
  cases e with
  | openStream id =>
    simp only [ConnectionTransfer.step] at h_step
    split at h_step
    · cases h_step
    · obtain rfl := Option.some.inj h_step
      exact h.openStream id
  | stream i e =>
    refine h_act (i := i) (e := e) ?_ ?_
    · -- what a stream does by itself
      rintro size rfl
      cases h_step
    · cases e with
      | send e =>
        cases e with
        | getAvailableDataToSend size => cases h_step
        | remoteMaxOffset newOffset => exact h_step
        | write _ _ => exact h_step
        | callbackReturned => exact h_step
        | acknowledge _ => exact h_step
        | resend _ => exact h_step
      | arrive _ => exact h_step
      | read => exact h_step
      | take _ => exact h_step
      | raiseHighWaterMark _ => exact h_step
      | announce => exact h_step
      | hear _ => exact h_step
  | beginPacket bytesLeftInPacket =>
    simp only [ConnectionTransfer.step] at h_step
    split at h_step
    · cases h_step
    · next h_idle =>
      obtain rfl := Option.some.inj h_step
      refine h.of_same rfl ?_ ?_ h.limit h.announced
      · -- a new packet has room for what the other side accepts
        have h_limit := h.limit
        change s.currentOffset + min bytesLeftInPacket (s.remoteMaxOffset - s.currentOffset) ≤ _
        omega
      · intro c h_c
        have h_none : c.transfer.sender.read = none :=
          Option.not_isSome_iff_eq_none.mp fun h_read => h_idle ⟨c, h_c, h_read⟩
        rw [budget_eq_zero h_none]
        exact Nat.zero_le _
  | load i =>
    simp only [ConnectionTransfer.step] at h_step
    split at h_step
    · next h_room =>
      obtain ⟨c, h_get, h_step⟩ := Option.bind_eq_some_iff.mp h_step
      obtain ⟨transfer, h_transfer, h_step⟩ := Option.bind_eq_some_iff.mp h_step
      obtain rfl := Option.some.inj h_step
      obtain ⟨sender, h_sender, rfl⟩ := Option.map_eq_some_iff.mp h_transfer
      -- data is asked for, while no stream reads
      obtain ⟨-, h_spends⟩ := Outgoing.getAvailable_spends h_sender
      refine h.act h_get h_transfer ?_ (.inr ?_)
      · exact h_spends.mono (Nat.sub_le _ _)
      · intro j d h_d h_read
        exact absurd ⟨d, List.mem_of_getElem? h_d, h_read⟩ h_room.2
    · cases h_step
  | announce =>
    obtain rfl := Option.some.inj h_step
    refine h.of_same rfl h.offset h.budget h.limit fun offset h_o => ?_
    rcases List.mem_append.mp h_o with h_old | h_new
    · exact h.announced offset h_old
    · exact Nat.le_of_eq (List.mem_singleton.mp h_new)
  | hear i =>
    obtain ⟨maxOffset, h_get, rfl⟩ := Option.map_eq_some_iff.mp h_step
    -- what is heard was accepted when it was announced
    have h_heard := h.announced maxOffset (List.mem_of_getElem? h_get)
    refine h.of_same rfl h.offset h.budget ?_ h.announced
    change (if maxOffset ≠ sendBuffer then max maxOffset s.remoteMaxOffset else maxOffset) ≤ _
    split
    · exact Nat.max_le.mpr ⟨h_heard, h.limit⟩
    · exact h_heard

theorem of_reach (h_buffers : sendBuffer ≤ receiveBuffer) (h : (machine sendBuffer receiveBuffer).Reachable s) :
    Bounded receiveBuffer s := by
  refine h.invariant (Bounded receiveBuffer) ?_ ?_
  · rintro s rfl
    exact .initial h_buffers
  · intro s e t _ h_s h_t
    exact h_s.step h_t

end Bounded

/-- **Flow control is sound** between two ends of which the sender's buffer is no larger than the receiver's,
as long as no stream is removed, whatever is written, read and asked for on any number of streams, however
packets are cut, and whatever becomes of them and of the frames that announce limits. The receiver never
sees more data than it accepts, neither in all nor from one stream, so that it never ends the connection for
it; and from each stream it reads a prefix of what was written. -/
theorem flow_control_is_sound {sendBuffer receiveBuffer : ℕ} (h_buffers : sendBuffer ≤ receiveBuffer)
    (h : (machine sendBuffer receiveBuffer).Reachable s) :
    s.maxOffset ≤ s.maxAcceptable receiveBuffer ∧
    (∀ c ∈ s.streams, c.transfer.receiver.incomingData.maxOffset ≤ c.transfer.receiver.maxAcceptable ∧
      c.transfer.output <+: c.transfer.sender.written) ∧
    ∀ {App : Type} (c : Connection App), c.records = s.received →
      c.incomingMaxOffset ≤ c.incomingMaxAcceptable receiveBuffer := by
  have h_bounded := Bounded.of_reach h_buffers h
  have h_limit : s.maxOffset ≤ s.maxAcceptable receiveBuffer := by
    calc s.maxOffset
        _ = (s.streams.map fun c => c.transfer.receiver.incomingData.maxOffset).sum := by
          unfold maxOffset received
          rw [List.map_map]
          rfl
        _ ≤ s.currentOffset := List.sum_le_sum fun c h_c => (h_bounded.safe c h_c).maxOffset
        _ ≤ s.currentOffset + s.bytesLeftInPacket := Nat.le_add_right _ _
        _ ≤ s.maxAcceptable receiveBuffer := h_bounded.offset
  refine ⟨h_limit, fun c h_c => ?_, fun c h_records => ?_⟩
  · have h_safe := h_bounded.safe c h_c
    refine ⟨?_, h_safe.output_eq ▸ List.take_prefix _ _⟩
    calc c.transfer.receiver.incomingData.maxOffset
        _ ≤ c.transfer.sender.stream.outgoingOffset := h_safe.maxOffset
        _ ≤ c.transfer.sender.stream.remoteMaxOffset := (Nat.le_add_right _ _).trans h_safe.sender.books.limit
        _ ≤ c.transfer.receiver.maxAcceptable := h_safe.limit
  · obtain ⟨h_max, h_acceptable⟩ := s.incomingOffsets_eq h_records receiveBuffer
    rw [h_max, h_acceptable]
    exact h_limit

/-- Two streams share sixty bytes: the first packet has room for ten of the second stream, and the next one
for more when the receiver has read. -/
theorem flow_control_is_sound_shared :
    ∃ s, (machine 60 60).Reachable s ∧ s.maxOffset = 33 ∧ s.currentOffset = 67 ∧ s.maxOffset ≤ s.maxAcceptable 60 := by
  have h_exec : ((machine 60 60).exec (fun _ _ => True) { remoteMaxOffset := 60 }
      [.openStream ⟨1, 1, rfl⟩, .openStream ⟨3, 3, rfl⟩, .stream 0 (.send (.write [] (List.replicate 17 1))),
        .stream 1 (.send (.write [] (List.replicate 80 2))), .beginPacket 1000, .load 0,
        .stream 0 (.send .callbackReturned), .load 1, .stream 0 (.arrive 0), .stream 1 (.arrive 0), .stream 0 .read,
        .stream 0 (.take 17), .stream 1 .read, .stream 1 (.take 10), .announce, .hear 0, .beginPacket 1000, .load 1]).map
      (fun s => (s.maxOffset, s.currentOffset)) = some (33, 67) := by
    decide +kernel
  obtain ⟨s, h_exec, h_end⟩ := Option.map_eq_some_iff.mp h_exec
  obtain ⟨h_max, h_current⟩ := Prod.mk.inj h_end
  have h : (machine 60 60).Reachable s := Machine.reach_of_exec _ rfl h_exec
  exact ⟨s, h, h_max, h_current, (flow_control_is_sound (Nat.le_refl 60) h).1⟩

/-- A receiver with a smaller buffer than the sender's is sent more than it accepts. -/
example : ((machine 60 30).exec (fun _ _ => True) { remoteMaxOffset := 60 }
    [.openStream ⟨1, 1, rfl⟩, .stream 0 (.send (.write [] (List.replicate 40 1))), .beginPacket 1000, .load 0,
      .stream 0 (.send .callbackReturned), .stream 0 (.arrive 0)]).map
    (fun s => decide (s.maxOffset ≤ s.maxAcceptable 30)) = some false := by
  decide +kernel

end ConnectionTransfer

end Interledger.Stream
