import Interledger.Stream.DataAndMoneyStream
import Interledger.Stream.OutgoingData

/-!
# The data of a stream between its two ends

One end of a stream cuts what its application writes into segments, and sends again those whose packets
were rejected (`OutgoingData`); the other end puts them back in order (`OffsetSorter`). Between them are
packets, which may be lost, held up, overtaken or delivered twice, in both directions: the segments on their
way to the receiver, and the `StreamMaxData` frames that tell the sender up to which offset data is accepted.

`_pushIncomingData` of `stream.ts` links a segment in and reads from the sorter right after, and Node reads
again when the application has taken data from its buffer. A single read is an event of its own here, which
may come at any time, so that every order of these is a run.

The reply to a packet and the data in it are told apart: a packet may be rejected although its data has
arrived, since `handleControlFrames` pushes the data before anything is decided about the money. A run is
**orderly** when this does not happen: a segment arrives once, is sent again only if it did not arrive, and
is acknowledged only if it did.

## Main results

* `transfer_is_safe` — in every run the receiver's application gets a prefix of what the sender's has
  written, and no segment is beyond what the receiver accepts;
* `transfer_stops` — a segment that arrives again after it was read is the last that counts;
* `transfer_keeps_up` — in an orderly run everything that has arrived without a gap can be read;
* `transfer_can_finish` — from each state of an orderly run, the rest can be delivered.
-/

namespace Interledger.Stream

open Interledger.Ilp

/-! ### The receiving end -/

/-- A read moves on by what it returns. -/
theorem OffsetSorter.readOffset_read (s : OffsetSorter) :
    s.read.2.readOffset = s.readOffset + (s.read.1.getD []).length := by
  unfold OffsetSorter.read
  cases s.entries with
  | nil => rfl
  | cons head next =>
    by_cases h_head : s.readOffset = head.offset
    · simp only [if_pos h_head, Option.getD_some]
      rw [h_head]
    · simp only [if_neg h_head]
      rfl

namespace DataAndMoneyStream

variable (s : DataAndMoneyStream)

/-- What was read fits before the read offset. -/
theorem buffered_le :
    s.readableLength + (s.incomingData.read.1.getD []).length ≤ s.incomingData.read.2.readOffset := by
  rw [OffsetSorter.readOffset_read]
  exact Nat.add_le_add_right s.readableLength_le _

/-- One round of `_read`: what the sorter returns is pushed into Node's buffer. -/
def readIntoBuffer : DataAndMoneyStream :=
  { s with
    incomingData := s.incomingData.read.2
    readableLength := s.readableLength + (s.incomingData.read.1.getD []).length
    readableLength_le := s.buffered_le }

theorem taken_le (n : ℕ) : s.readableLength - n ≤ s.incomingData.readOffset :=
  (Nat.sub_le _ _).trans s.readableLength_le

/-- The application takes data from Node's buffer. -/
def takeFromBuffer (n : ℕ) : DataAndMoneyStream :=
  { s with
    readableLength := s.readableLength - n
    readableLength_le := s.taken_le n }

/-- Node raises the mark when more is asked for. -/
def raiseHighWaterMark (n : ℕ) : DataAndMoneyStream :=
  { s with
    readableHighWaterMark := max n s.readableHighWaterMark
    readableLength_le := s.readableLength_le }

/-- A round of `_read` leaves in the sorter what `_incomingData.read()` does. -/
theorem incomingData_readIntoBuffer : s.readIntoBuffer.incomingData = s.readIncoming.2.incomingData := rfl

/-- Data accepted from the peer is data that Node's buffer has room for: reading into the buffer does not
change the offset up to which data is accepted. -/
@[simp] theorem maxAcceptable_readIntoBuffer : s.readIntoBuffer.maxAcceptable = s.maxAcceptable := by
  have h_le := s.readableLength_le
  have h_read := s.incomingData.readOffset_read
  unfold maxAcceptable readIntoBuffer
  simp only [h_read]
  omega

theorem maxAcceptable_le_takeFromBuffer (n : ℕ) : s.maxAcceptable ≤ (s.takeFromBuffer n).maxAcceptable :=
  Nat.sub_le_sub_left (Nat.sub_le _ _) _

theorem maxAcceptable_le_raiseHighWaterMark (n : ℕ) :
    s.maxAcceptable ≤ (s.raiseHighWaterMark n).maxAcceptable :=
  Nat.sub_le_sub_right (Nat.add_le_add_left (Nat.le_max_right _ _) _) _

end DataAndMoneyStream

/-! ### The two ends and what is between them -/

/-- The data of a stream in one direction: the end that sends it, the end that receives it with what was
read there, the segments that were ever sent and those that arrived, and the offsets of the `StreamMaxData`
frames that the receiver made. -/
structure Transfer where
  sender : Outgoing := {}
  receiver : DataAndMoneyStream := .created
  output : Buffer := []
  sent : List OffsetDataEntry := []
  arrived : List OffsetDataEntry := []
  announced : List ℕ := []
  deriving DecidableEq

/-- What happens to the data of a stream. -/
inductive TransferEvent
  /-- Something happens at the sender. -/
  | send (e : OutgoingEvent)
  /-- A packet with a segment that was sent arrives, once more perhaps. -/
  | arrive (i : ℕ)
  /-- The receiver reads from its sorter. -/
  | read
  /-- The application takes data that was read. -/
  | take (n : ℕ)
  /-- It asks for more than before. -/
  | raiseHighWaterMark (n : ℕ)
  /-- A `StreamMaxData` frame is made. -/
  | announce
  /-- One arrives. -/
  | hear (i : ℕ)
  deriving DecidableEq

namespace Transfer

variable (s : Transfer)

/-- The receiver's sorter, in use. -/
def reassembly : Reassembly where
  sorter := s.receiver.incomingData
  output := s.output
  pushed := s.arrived.map fun e => (e.offset, e.data.length)

/-- Something happens at the sender. A segment that it hands out goes into a packet. -/
def send (e : OutgoingEvent) : Option Transfer :=
  (s.sender.step e).map fun sender =>
    { s with
      sender := sender
      sent := s.sent ++ sender.unanswered.drop s.sender.unanswered.length }

/-- A segment arrives. -/
def arrive (e : OffsetDataEntry) : Transfer :=
  { s with
    receiver := s.receiver.pushIncoming e.data e.offset
    arrived := s.arrived ++ [e] }

/-- One round of `_read`. -/
def read : Transfer :=
  { s with
    receiver := s.receiver.readIntoBuffer
    output := s.output ++ s.receiver.incomingData.read.1.getD [] }

/-- `_read` until the sorter returns nothing, at most `k` times. -/
def readTimes : ℕ → Transfer → Transfer
  | 0, s => s
  | k + 1, s =>
    match s.receiver.incomingData.read.1 with
    | none => s
    | some _ => readTimes k s.read

/-- `_read` until the sorter returns nothing. -/
def readAll : Transfer := readTimes s.receiver.incomingData.entries.length s

/-- One event. The sender hears of an offset from the receiver only. -/
def step : TransferEvent → Option Transfer
  | .send (.remoteMaxOffset _) => none
  | .send e => s.send e
  | .arrive i => s.sent[i]?.map s.arrive
  | .read => some s.read
  | .take n =>
    if n ≤ s.receiver.readableLength then some { s with receiver := s.receiver.takeFromBuffer n } else none
  | .raiseHighWaterMark n => some { s with receiver := s.receiver.raiseHighWaterMark n }
  | .announce => some { s with announced := s.announced ++ [s.receiver.maxAcceptable] }
  | .hear i => s.announced[i]?.bind fun offset => s.send (.remoteMaxOffset offset)

/-- The data of a stream as an event machine. -/
def machine : Machine Transfer TransferEvent where
  init s := s = {}
  step := step

end Transfer

/-! ### What an event at the sender does -/

/-- The stream begins with the bytes that were written. -/
def Begins (B : ℕ → UInt8) (written : Buffer) : Prop := segment B 0 written.length = written

section Begins

variable {B : ℕ → UInt8} {written : Buffer}

/-- Some stream begins with any bytes. -/
theorem begins_getD (written : Buffer) : Begins (fun k => written[k]?.getD 0) written := by
  unfold Begins segment
  apply List.ext_getElem
  · rw [List.length_map, List.length_range']
  · intro k h_k h_k'
    rw [List.getElem_map, List.getElem_range', Nat.zero_add, Nat.one_mul, List.getElem?_eq_getElem h_k',
      Option.getD_some]

/-- A part of what was written is a segment of the stream. -/
theorem Begins.take_drop (h : Begins B written) {offset length : ℕ} (h_end : offset + length ≤ written.length) :
    (written.drop offset).take length = segment B offset length := by
  obtain ⟨rest, h_rest⟩ := Nat.exists_eq_add_of_le h_end
  have h_split : written = segment B 0 offset ++ (segment B offset length ++ segment B (offset + length) rest) := by
    calc written
        _ = segment B 0 written.length := h.symm
        _ = segment B 0 offset ++ segment B offset (length + rest) := by
          rw [h_rest, Nat.add_assoc, ← segment_append, Nat.zero_add]
        _ = segment B 0 offset ++ (segment B offset length ++ segment B (offset + length) rest) := by
          rw [segment_append]
  rw [h_split, List.drop_left' (length_segment ..), List.take_left' (length_segment ..)]

theorem OffsetDataEntry.IsIn.segment {e : OffsetDataEntry} (h : e.IsIn written)
    (h_end : e.endOffset ≤ written.length) (h_begins : Begins B written) :
    Stream.segment B e.offset e.data.length = e.data :=
  (h_begins.take_drop h_end).symm.trans h

/-- A stream that begins with more begins with less. -/
theorem Begins.of_prefix {written' : Buffer} (h : Begins B written') (h_initial : written <+: written') :
    Begins B written := by
  obtain ⟨more, rfl⟩ := h_initial
  have h_end : 0 + written.length ≤ (written ++ more).length := by simp
  have h_start := h.take_drop h_end
  rw [List.drop_zero, List.take_left] at h_start
  exact h_start.symm

end Begins

namespace Outgoing

variable {s t : Outgoing}

/-- **What an event does to the segments**: it hands out some that are not empty, or one that is unanswered
is acknowledged or has to be sent again. -/
inductive Moves (s t : Outgoing) : OutgoingEvent → Prop
  | handOut (new : List OffsetDataEntry) (e : OutgoingEvent) (h_new : ∀ entry ∈ new, entry.data ≠ [])
    (h_unanswered : t.unanswered = s.unanswered ++ new) (h_acknowledged : t.acknowledged = s.acknowledged) :
    Moves s t e
  | acknowledge (i : ℕ) (entry : OffsetDataEntry) (h_get : s.unanswered[i]? = some entry)
    (h_unanswered : t.unanswered = s.unanswered.eraseIdx i)
    (h_acknowledged : t.acknowledged = s.acknowledged ++ [entry]) : Moves s t (.acknowledge i)
  | resend (i : ℕ) (entry : OffsetDataEntry) (h_get : s.unanswered[i]? = some entry)
    (h_unanswered : t.unanswered = s.unanswered.eraseIdx i) (h_acknowledged : t.acknowledged = s.acknowledged) :
    Moves s t (.resend i)

/-- What an event does to the offsets: more may be written and handed out, and the limit is what the peer
said. -/
structure Grows (s t : Outgoing) : Prop where
  written : s.written <+: t.written
  offset : s.stream.outgoingOffset ≤ t.stream.outgoingOffset

theorem record_moves (r : OutgoingStream × Available) (e : OutgoingEvent) : Moves s (s.record r) e := by
  obtain ⟨stream, read | entry⟩ := r
  · exact .handOut [] e (by simp) (List.append_nil _).symm rfl
  · refine .handOut (if entry.data = [] then [] else [entry]) e ?_ rfl rfl
    intro entry' h_entry'
    split at h_entry'
    · cases h_entry'
    · next h_nonempty => rwa [List.mem_singleton.mp h_entry']

theorem step_moves {e : OutgoingEvent} (h_step : s.step e = some t) : Moves s t e := by
  cases e with
  | write chunks last =>
    obtain rfl := Option.some.inj h_step
    exact .handOut [] _ (by simp) (List.append_nil _).symm rfl
  | remoteMaxOffset newOffset =>
    obtain rfl := Option.some.inj h_step
    exact .handOut [] _ (by simp) (List.append_nil _).symm rfl
  | getAvailableDataToSend size =>
    simp only [Outgoing.step] at h_step
    split at h_step
    · obtain rfl := Option.some.inj h_step
      exact record_moves _ _
    · cases h_step
  | callbackReturned =>
    obtain ⟨read, -, rfl⟩ := Option.map_eq_some_iff.mp h_step
    exact record_moves _ _
  | acknowledge i =>
    obtain ⟨entry, h_get, rfl⟩ := Option.map_eq_some_iff.mp h_step
    exact .acknowledge i entry h_get rfl rfl
  | resend i =>
    obtain ⟨entry, h_get, rfl⟩ := Option.map_eq_some_iff.mp h_step
    exact .resend i entry h_get rfl rfl

/-- A read moves the offset on. -/
theorem record_readOn_grows (read : PendingRead) (queue : List DataQueueEntry) :
    Grows s (s.record ({ s.stream with outgoingData := queue }.readOn read)) ∧
      (s.record ({ s.stream with outgoingData := queue }.readOn read)).stream.remoteMaxOffset =
        s.stream.remoteMaxOffset := by
  unfold OutgoingStream.readOn
  rcases readChunks queue read with ⟨_ | head, queue', read'⟩
  · exact ⟨⟨List.prefix_rfl, Nat.le_add_right _ _⟩, rfl⟩
  · exact ⟨⟨List.prefix_rfl, Nat.le_refl _⟩, rfl⟩

theorem record_getAvailable_grows (size : ℕ) :
    Grows s (s.record (s.stream.getAvailableDataToSend size)) ∧
      (s.record (s.stream.getAvailableDataToSend size)).stream.remoteMaxOffset = s.stream.remoteMaxOffset := by
  unfold OutgoingStream.getAvailableDataToSend
  split
  · split
    · exact ⟨⟨List.prefix_rfl, Nat.le_refl _⟩, rfl⟩
    · exact ⟨⟨List.prefix_rfl, Nat.le_refl _⟩, rfl⟩
  · exact record_readOn_grows _ s.stream.outgoingData

theorem step_grows {e : OutgoingEvent} (h_step : s.step e = some t) : Grows s t := by
  cases e with
  | write chunks last =>
    obtain rfl := Option.some.inj h_step
    refine ⟨?_, Nat.le_refl _⟩
    change s.written <+: s.written ++ chunks.flatten ++ last
    -- what is written goes behind what was
    rw [List.append_assoc]
    exact List.prefix_append _ _
  | remoteMaxOffset newOffset =>
    obtain rfl := Option.some.inj h_step
    refine ⟨List.prefix_rfl, ?_⟩
    unfold OutgoingStream.raiseRemoteMaxOffset
    split <;> exact Nat.le_refl _
  | getAvailableDataToSend size =>
    simp only [Outgoing.step] at h_step
    split at h_step
    · obtain rfl := Option.some.inj h_step
      -- a segment at most is handed out
      exact (record_getAvailable_grows size).1
    · cases h_step
  | callbackReturned =>
    obtain ⟨read, -, rfl⟩ := Option.map_eq_some_iff.mp h_step
    exact (record_readOn_grows read _).1
  | acknowledge i =>
    obtain ⟨entry, -, rfl⟩ := Option.map_eq_some_iff.mp h_step
    exact ⟨List.prefix_rfl, Nat.le_refl _⟩
  | resend i =>
    obtain ⟨entry, -, rfl⟩ := Option.map_eq_some_iff.mp h_step
    exact ⟨List.prefix_rfl, Nat.le_refl _⟩

/-- Only the peer raises the limit. -/
theorem step_remoteMaxOffset {e : OutgoingEvent} {limit : ℕ} (h_step : s.step e = some t)
    (h : s.stream.remoteMaxOffset ≤ limit) (h_hear : ∀ newOffset, e = .remoteMaxOffset newOffset → newOffset ≤ limit) :
    t.stream.remoteMaxOffset ≤ limit := by
  cases e with
  | write chunks last =>
    obtain rfl := Option.some.inj h_step
    exact h
  | remoteMaxOffset newOffset =>
    obtain rfl := Option.some.inj h_step
    change (s.stream.raiseRemoteMaxOffset newOffset).remoteMaxOffset ≤ limit
    unfold OutgoingStream.raiseRemoteMaxOffset
    -- only what the receiver announces raises the offset
    split
    · exact h_hear newOffset rfl
    · exact h
  | getAvailableDataToSend size =>
    simp only [Outgoing.step] at h_step
    split at h_step
    · obtain rfl := Option.some.inj h_step
      rw [(record_getAvailable_grows size).2]
      exact h
    · cases h_step
  | callbackReturned =>
    obtain ⟨read, -, rfl⟩ := Option.map_eq_some_iff.mp h_step
    exact (record_readOn_grows read _).2.trans_le h
  | acknowledge i =>
    obtain ⟨entry, -, rfl⟩ := Option.map_eq_some_iff.mp h_step
    exact h
  | resend i =>
    obtain ⟨entry, -, rfl⟩ := Option.map_eq_some_iff.mp h_step
    exact h

end Outgoing

/-! ### In every run -/

namespace Transfer

variable {s t : Transfer}

/-- What happens at the sender, other than that it hears of an offset. -/
theorem send_of_step {e : OutgoingEvent} (h_step : s.step (.send e) = some t) :
    s.send e = some t ∧ ∀ newOffset, e ≠ .remoteMaxOffset newOffset := by
  cases e with
  | remoteMaxOffset newOffset => cases h_step
  | write _ _ => exact ⟨h_step, by simp⟩
  | getAvailableDataToSend _ => exact ⟨h_step, by simp⟩
  | callbackReturned => exact ⟨h_step, by simp⟩
  | acknowledge _ => exact ⟨h_step, by simp⟩
  | resend _ => exact ⟨h_step, by simp⟩

/-- **The invariant of every run.** What was sent was written, the receiver puts it together, and each
offset is within the next: what arrived, what was handed out, what the sender may hand out, what the
receiver accepts. -/
structure Safe (s : Transfer) : Prop where
  sender : s.sender.Sound
  /-- A segment is what was written at its offset. -/
  sent : ∀ e ∈ s.sent, e.IsIn s.sender.written ∧ e.endOffset ≤ s.sender.stream.outgoingOffset
  /-- The receiver's sorter puts together whatever stream was written so far. -/
  genuine : ∀ B, Begins B s.sender.written → Genuine B s.reassembly
  entries : ∀ e ∈ s.receiver.incomingData.entries, e.endOffset ≤ s.receiver.incomingData.maxOffset
  readOffset : s.receiver.incomingData.readOffset ≤ s.receiver.incomingData.maxOffset
  maxOffset : s.receiver.incomingData.maxOffset ≤ s.sender.stream.outgoingOffset
  limit : s.sender.stream.remoteMaxOffset ≤ s.receiver.maxAcceptable
  /-- The receiver never takes back what it has announced. -/
  announced : ∀ offset ∈ s.announced, offset ≤ s.receiver.maxAcceptable

namespace Safe

theorem initial : Safe {} where
  sender := .initial
  sent := by simp
  genuine _ _ := .initial rfl
  entries := by simp [DataAndMoneyStream.created]
  readOffset := Nat.le_refl _
  maxOffset := Nat.le_refl _
  limit := Nat.le_refl _
  announced := by simp

/-- Something happens at the sender. -/
theorem send {e : OutgoingEvent} (h : Safe s) (h_step : s.send e = some t)
    (h_hear : ∀ newOffset, e = .remoteMaxOffset newOffset → newOffset ≤ s.receiver.maxAcceptable) : Safe t := by
  obtain ⟨sender, h_sender, rfl⟩ := Option.map_eq_some_iff.mp h_step
  -- the sender's books, and how far it went
  have h_sound : sender.Sound := h.sender.step h_sender
  have h_grows := Outgoing.step_grows h_sender
  have h_limit := Outgoing.step_remoteMaxOffset h_sender h.limit h_hear
  exact
    { h with
      sender := h_sound
      sent := by
        intro e h_e
        rcases List.mem_append.mp h_e with h_old | h_new
        · -- what was sent before is still there
          obtain ⟨h_in, h_end⟩ := h.sent e h_old
          obtain ⟨more, h_more⟩ := h_grows.written
          have h_written : e.endOffset ≤ s.sender.written.length := h_end.trans h.sender.books.offset_le
          refine ⟨?_, h_end.trans h_grows.offset⟩
          rw [← h_more]
          exact h_in.append h_written more
        · -- what is sent now is a segment of the books
          have h_unanswered : e ∈ sender.unanswered := List.mem_of_mem_drop h_new
          have h_segment : e ∈ sender.segments :=
            List.mem_append_left _ (List.mem_append_right _ h_unanswered)
          exact h_sound.books.segments e h_segment
      genuine := fun B h_begins => h.genuine B (h_begins.of_prefix h_grows.written)
      maxOffset := h.maxOffset.trans h_grows.offset
      limit := h_limit }

/-- What arrives is a segment of the stream. -/
theorem reassembly_arrive {e : OffsetDataEntry} {B : ℕ → UInt8} (h : Safe s) (h_e : e ∈ s.sent)
    (h_begins : Begins B s.sender.written) :
    (s.arrive e).reassembly = s.reassembly.push B e.offset e.data.length := by
  obtain ⟨h_in, h_end⟩ := h.sent e h_e
  have h_written : e.endOffset ≤ s.sender.written.length := h_end.trans h.sender.books.offset_le
  unfold Reassembly.push
  rw [h_in.segment h_written h_begins]
  unfold reassembly Transfer.arrive
  rw [List.map_append]
  rfl

/-- A segment arrives, whichever of those that were ever sent. -/
theorem arrive {e : OffsetDataEntry} (h : Safe s) (h_e : e ∈ s.sent) : Safe (s.arrive e) := by
  obtain ⟨h_in, h_end⟩ := h.sent e h_e
  have h_max : (s.arrive e).receiver.incomingData.maxOffset = max e.endOffset s.receiver.incomingData.maxOffset :=
    rfl
  exact
    { h with
      genuine := by
        intro B h_begins
        rw [h.reassembly_arrive h_e h_begins]
        exact (h.genuine B h_begins).push _ _
      entries := by
        intro entry h_entry
        rw [h_max]
        rcases mem_insertEntry.mp h_entry with rfl | h_old
        · exact Nat.le_max_left _ _
        · exact (h.entries entry h_old).trans (Nat.le_max_right _ _)
      readOffset := by
        rw [h_max]
        exact h.readOffset.trans (Nat.le_max_right _ _)
      maxOffset := by
        rw [h_max]
        exact Nat.max_le.mpr ⟨h_end, h.maxOffset⟩ }

/-- The receiver reads from its sorter. -/
theorem read (h : Safe s) : Safe s.read := by
  -- reading leaves what is announced and what may be announced
  have h_acceptable : s.read.receiver.maxAcceptable = s.receiver.maxAcceptable :=
    s.receiver.maxAcceptable_readIntoBuffer
  have h_genuine (B : ℕ → UInt8) (h_begins : Begins B s.sender.written) : Genuine B s.read.reassembly := by
    have h_read : s.read.reassembly = s.reassembly.read := rfl
    rw [h_read]
    exact (h.genuine B h_begins).read
  have h_limit : s.sender.stream.remoteMaxOffset ≤ s.read.receiver.maxAcceptable := h_acceptable ▸ h.limit
  have h_announced : ∀ offset ∈ s.announced, offset ≤ s.read.receiver.maxAcceptable := h_acceptable ▸ h.announced
  have h_entries := h.entries
  rcases read_cases s.reassembly with ⟨-, h_eq⟩ | ⟨e, es, h_head, -, -, h_eq⟩
  · -- there is nothing to read
    have h_sorter : s.read.receiver.incomingData = s.receiver.incomingData :=
      congrArg (fun r : Reassembly => r.sorter) h_eq
    exact
      { h with
        genuine := h_genuine
        limit := h_limit
        announced := h_announced
        entries := h_sorter ▸ h.entries
        readOffset := h_sorter ▸ h.readOffset
        maxOffset := h_sorter ▸ h.maxOffset }
  · -- the head is taken off
    have h_sorter : s.read.receiver.incomingData =
        { s.receiver.incomingData with readOffset := e.endOffset, entries := es } :=
      congrArg (fun r : Reassembly => r.sorter) h_eq
    -- its bytes are the next ones of the output
    have h_mem : s.receiver.incomingData.entries = e :: es := h_head
    rw [h_mem] at h_entries
    exact
      { h with
        genuine := h_genuine
        limit := h_limit
        announced := h_announced
        entries := by
          rw [h_sorter]
          exact fun e' h_e' => h_entries e' (List.mem_cons_of_mem _ h_e')
        readOffset := by
          rw [h_sorter]
          exact h_entries e List.mem_cons_self
        maxOffset := by
          rw [h_sorter]
          exact h.maxOffset }

/-- More is accepted. -/
theorem accept {receiver : DataAndMoneyStream} (h : Safe s)
    (h_data : receiver.incomingData = s.receiver.incomingData)
    (h_acceptable : s.receiver.maxAcceptable ≤ receiver.maxAcceptable) :
    Safe { s with receiver := receiver } where
  sender := h.sender
  sent := h.sent
  genuine := fun B h_begins => by
    have h_same : ({ s with receiver := receiver } : Transfer).reassembly = s.reassembly := by
      unfold reassembly
      rw [← h_data]
    rw [h_same]
    exact h.genuine B h_begins
  entries := h_data ▸ h.entries
  readOffset := h_data ▸ h.readOffset
  maxOffset := h_data ▸ h.maxOffset
  limit := h.limit.trans h_acceptable
  announced := fun offset h_offset => (h.announced offset h_offset).trans h_acceptable

/-- **Each event** keeps the invariant. -/
theorem step {e : TransferEvent} (h : Safe s) (h_step : s.step e = some t) : Safe t := by
  cases e with
  | send e =>
    obtain ⟨h_send, h_hear⟩ := send_of_step h_step
    -- the sender takes no offset here, which it only does when it hears one
    exact h.send h_send fun newOffset h_e => absurd h_e (h_hear newOffset)
  | arrive i =>
    obtain ⟨e, h_get, rfl⟩ := Option.map_eq_some_iff.mp h_step
    exact h.arrive (List.mem_of_getElem? h_get)
  | read =>
    obtain rfl := Option.some.inj h_step
    exact h.read
  | take n =>
    simp only [Transfer.step] at h_step
    split at h_step
    · obtain rfl := Option.some.inj h_step
      exact h.accept rfl (s.receiver.maxAcceptable_le_takeFromBuffer n)
    · cases h_step
  | raiseHighWaterMark n =>
    obtain rfl := Option.some.inj h_step
    exact h.accept rfl (s.receiver.maxAcceptable_le_raiseHighWaterMark n)
  | announce =>
    obtain rfl := Option.some.inj h_step
    -- what is announced is what is acceptable now
    refine { h with announced := fun offset h_offset => ?_ }
    rcases List.mem_append.mp h_offset with h_old | h_new
    · exact h.announced offset h_old
    · exact Nat.le_of_eq (List.mem_singleton.mp h_new)
  | hear i =>
    obtain ⟨offset, h_get, h_send⟩ := Option.bind_eq_some_iff.mp h_step
    -- what it hears was announced
    refine h.send h_send fun newOffset h_new => ?_
    obtain rfl := OutgoingEvent.remoteMaxOffset.inj h_new
    exact h.announced _ (List.mem_of_getElem? h_get)

theorem of_reach {ok : Transfer → TransferEvent → Prop} (h : machine.Reach ok s) : Safe s := by
  refine h.invariant Safe ?_ ?_
  · rintro s rfl
    exact .initial
  · intro s e t _ h_s _ h_t
    exact h_s.step h_t

/-- What was read is what was written, up to the read offset. -/
theorem output_eq (h : Safe s) : s.output = s.sender.written.take s.receiver.incomingData.readOffset := by
  have h_begins := begins_getD s.sender.written
  have h_output := (h.genuine _ h_begins).output
  have h_end : 0 + s.receiver.incomingData.readOffset ≤ s.sender.written.length := by
    rw [Nat.zero_add]
    exact h.readOffset.trans (h.maxOffset.trans h.sender.books.offset_le)
  have h_take := h_begins.take_drop h_end
  rw [List.drop_zero] at h_take
  exact h_output.trans h_take.symm

end Safe

/-- **The data of a stream arrives unchanged and within bounds**, whatever is written, read and asked for,
and however packets are lost, held up, overtaken or delivered twice. The receiver's application gets a
prefix of what the sender's has written; the receiver never sees data beyond what it accepts, for which it
would end the connection; and what it has to keep, in its sorter and in Node's buffer, lies within the high
water mark. -/
theorem transfer_is_safe (h : machine.Reachable s) :
    s.output <+: s.sender.written ∧
    s.receiver.incomingData.maxOffset ≤ s.receiver.maxAcceptable ∧
    s.receiver.incomingData.maxOffset + s.receiver.readableLength ≤
      s.output.length + s.receiver.readableHighWaterMark := by
  have h_safe := Safe.of_reach h
  have h_initial : s.output <+: s.sender.written := h_safe.output_eq ▸ List.take_prefix _ _
  have h_limit : s.receiver.incomingData.maxOffset ≤ s.receiver.maxAcceptable := by
    calc s.receiver.incomingData.maxOffset
        _ ≤ s.sender.stream.outgoingOffset := h_safe.maxOffset
        _ ≤ s.sender.stream.remoteMaxOffset := (Nat.le_add_right _ _).trans h_safe.sender.books.limit
        _ ≤ s.receiver.maxAcceptable := h_safe.limit
  refine ⟨h_initial, h_limit, ?_⟩
  have h_length : s.output.length = s.receiver.incomingData.readOffset := by
    rw [h_safe.output_eq, List.length_take_of_le]
    exact h_safe.readOffset.trans (h_safe.maxOffset.trans h_safe.sender.books.offset_le)
  have h_buffered := s.receiver.readableLength_le
  unfold DataAndMoneyStream.maxAcceptable at h_limit
  omega

/-- A packet is lost, and its segment sent again in two; the last one arrives twice, and before them. -/
theorem transfer_is_safe_resent :
    ∃ s, machine.Reachable s ∧ s.sender.written = [1, 2, 3, 4, 5] ∧ s.output = [1, 2, 3] ∧
      s.output <+: s.sender.written := by
  have h_exec : (machine.exec (fun _ _ => True) {}
      [.send (.write [] [1, 2, 3, 4, 5]), .send (.getAvailableDataToSend 3), .send (.resend 0),
        .send (.getAvailableDataToSend 2), .send (.getAvailableDataToSend 2), .arrive 2, .arrive 2,
        .arrive 1, .read, .read, .read]).map (fun s => (s.sender.written, s.output)) =
      some ([1, 2, 3, 4, 5], [1, 2, 3]) := by
    decide +kernel
  obtain ⟨s, h_exec, h_end⟩ := Option.map_eq_some_iff.mp h_exec
  obtain ⟨h_written, h_output⟩ := Prod.mk.inj h_end
  have h : machine.Reachable s := Machine.reach_of_exec _ rfl h_exec
  exact ⟨s, h, h_written, h_output, (transfer_is_safe h).1⟩

/-! ### What a segment that arrives again does -/

/-- A segment that starts before the read offset blocks the sorter. -/
theorem blocked_arrive {e : OffsetDataEntry} (h : e.offset < s.receiver.incomingData.readOffset) :
    Blocked (s.arrive e).reassembly := by
  change ∃ head es, insertEntry _ s.receiver.incomingData.entries = head :: es ∧
    head.offset < s.receiver.incomingData.readOffset
  cases s.receiver.incomingData.entries with
  | nil => exact ⟨_, _, rfl, h⟩
  | cons head es =>
    unfold insertEntry
    split
    · exact ⟨_, _, rfl, h⟩
    · next h_front => exact ⟨_, _, rfl, (not_lt.mp h_front).trans_lt h⟩

/-- Nothing more is read from a blocked sorter, whatever happens. -/
theorem Safe.step_blocked {e : TransferEvent} (h : Safe s) (h_blocked : Blocked s.reassembly)
    (h_step : s.step e = some t) : Blocked t.reassembly ∧ t.output = s.output := by
  -- the sender is not part of the reassembly
  have h_send {e : OutgoingEvent} (h_send : s.send e = some t) : Blocked t.reassembly ∧ t.output = s.output := by
    obtain ⟨sender, -, rfl⟩ := Option.map_eq_some_iff.mp h_send
    exact ⟨h_blocked, rfl⟩
  -- the bytes are those that were written
  have h_begins := begins_getD s.sender.written
  cases e with
  | send e => exact h_send (send_of_step h_step).1
  | arrive i =>
    obtain ⟨e, h_get, rfl⟩ := Option.map_eq_some_iff.mp h_step
    have h_push := h.reassembly_arrive (List.mem_of_getElem? h_get) h_begins
    have h_pushed : (Reassembly.machine _).step s.reassembly (.push e.offset e.data.length) =
        some (s.arrive e).reassembly := congrArg some h_push.symm
    exact h_blocked.step h_pushed
  | read =>
    obtain rfl := Option.some.inj h_step
    have h_read : (Reassembly.machine fun k => s.sender.written[k]?.getD 0).step s.reassembly .read =
        some s.read.reassembly := rfl
    exact h_blocked.step h_read
  | take n =>
    simp only [Transfer.step] at h_step
    split at h_step
    · obtain rfl := Option.some.inj h_step
      exact ⟨h_blocked, rfl⟩
    · cases h_step
  | raiseHighWaterMark n =>
    obtain rfl := Option.some.inj h_step
    exact ⟨h_blocked, rfl⟩
  | announce =>
    obtain rfl := Option.some.inj h_step
    exact ⟨h_blocked, rfl⟩
  | hear i =>
    obtain ⟨offset, -, h_offset⟩ := Option.bind_eq_some_iff.mp h_step
    exact h_send h_offset

/-- **A segment that arrives again after it was read stops the stream for good**: nothing that arrives later
is ever read, in no run from there on. A packet whose data was pushed before it was rejected is sent again,
so this is what a rejection by the receiver can do. -/
theorem transfer_stops (h : machine.Reachable s) {e : OffsetDataEntry} (h_e : e ∈ s.sent)
    (h_read : e.offset < s.receiver.incomingData.readOffset)
    (h_leads : machine.Leads (fun _ _ => True) (s.arrive e) t) : t.output = s.output := by
  obtain ⟨i, h_i⟩ := List.mem_iff_getElem?.mp h_e
  have h_arrive : machine.step s (.arrive i) = some (s.arrive e) := by
    change s.sent[i]?.map s.arrive = _
    rw [h_i]
    rfl
  have h_reach : machine.Reachable (s.arrive e) := h.step h_arrive
  suffices h_t : machine.Reachable t ∧ Blocked t.reassembly ∧ t.output = s.output from h_t.2.2
  induction h_leads with
  | refl => exact ⟨h_reach, blocked_arrive h_read, rfl⟩
  | tail _ h_step ih =>
    obtain ⟨event, -, h_event⟩ := h_step
    obtain ⟨h_reach_u, h_blocked, h_output⟩ := ih
    obtain ⟨h_still, h_same⟩ := (Safe.of_reach h_reach_u).step_blocked h_blocked h_event
    exact ⟨h_reach_u.step h_event, h_still, h_same.trans h_output⟩

/-- Two bytes arrive and are read, their packet is rejected and they arrive again; the next two arrive too,
and are not read. -/
theorem transfer_stops_rejected :
    ∃ s t, machine.Reachable s ∧ machine.Leads (fun _ _ => True) (s.arrive ⟨[1, 2], 0⟩) t ∧
      t.sender.written = [1, 2, 3, 4] ∧ t.arrived = [⟨[1, 2], 0⟩, ⟨[1, 2], 0⟩, ⟨[3, 4], 2⟩] ∧
      s.output = [1, 2] ∧ t.output = s.output := by
  have h_exec : ((machine.exec (fun _ _ => True) {}
      [.send (.write [] [1, 2, 3, 4]), .send (.getAvailableDataToSend 2), .arrive 0, .read, .send (.resend 0),
        .send (.getAvailableDataToSend 2)]).bind fun s =>
      (machine.exec (fun _ _ => True) (s.arrive ⟨[1, 2], 0⟩)
        [.send (.getAvailableDataToSend 2), .send .callbackReturned, .arrive 2, .read, .read]).map fun t =>
        (s.sent.contains ⟨[1, 2], 0⟩, s.receiver.incomingData.readOffset, s.output, t.sender.written, t.arrived)) =
      some (true, 2, [1, 2], [1, 2, 3, 4], [⟨[1, 2], 0⟩, ⟨[1, 2], 0⟩, ⟨[3, 4], 2⟩]) := by
    decide +kernel
  obtain ⟨s, h_s, h_exec⟩ := Option.bind_eq_some_iff.mp h_exec
  obtain ⟨t, h_t, h_end⟩ := Option.map_eq_some_iff.mp h_exec
  simp only [Prod.mk.injEq] at h_end
  obtain ⟨h_sent, h_offset, h_output, h_written, h_arrived⟩ := h_end
  have h : machine.Reachable s := Machine.reach_of_exec _ rfl h_s
  have h_leads := Machine.Leads.exec h_t
  have h_read : (⟨[1, 2], 0⟩ : OffsetDataEntry).offset < s.receiver.incomingData.readOffset := by
    rw [h_offset]
    exact Nat.succ_pos 1
  have h_stops : t.output = s.output := transfer_stops h (List.contains_iff_mem.mp h_sent) h_read h_leads
  exact ⟨s, t, h, h_leads, h_written, h_arrived, h_output, h_stops⟩

/-! ### In orderly runs -/

/-- The guard: a segment arrives while it is unanswered, and once; it is acknowledged if it has arrived, and
sent again if it has not. -/
def Orderly (s : Transfer) : TransferEvent → Prop
  | .arrive i => ∀ e ∈ s.sent[i]?, e ∈ s.sender.unanswered ∧ e ∉ s.arrived
  | .send (.acknowledge i) => ∀ e ∈ s.sender.unanswered[i]?, e ∈ s.arrived
  | .send (.resend i) => ∀ e ∈ s.sender.unanswered[i]?, e ∉ s.arrived
  | _ => True

instance (s : Transfer) (e : TransferEvent) : Decidable (Orderly s e) :=
  match e with
  | .arrive _ => Option.decidableForallMem _
  | .send (.acknowledge _) => Option.decidableForallMem _
  | .send (.resend _) => Option.decidableForallMem _
  | .send (.write _ _) | .send (.remoteMaxOffset _) | .send (.getAvailableDataToSend _) | .send .callbackReturned
  | .read | .take _ | .raiseHighWaterMark _ | .announce | .hear _ => .isTrue trivial

/-- **The invariant of orderly runs.** What has arrived is unanswered or acknowledged, so that it is apart
from what else is sent, and the sorter's entries tile what was not read. -/
structure Kept (s : Transfer) : Prop where
  answered : ∀ e ∈ s.arrived, e ∈ s.sender.unanswered ++ s.sender.acknowledged
  acknowledged : ∀ e ∈ s.sender.acknowledged, e ∈ s.arrived
  nonempty : ∀ e ∈ s.sender.unanswered ++ s.sender.acknowledged, e.data ≠ []
  unanswered : ∀ e ∈ s.sender.unanswered, e ∈ s.sent
  entries : ∀ e ∈ s.receiver.incomingData.entries, e ∈ s.arrived
  /-- What was read has arrived. -/
  before : ∀ k < s.receiver.incomingData.readOffset, ∃ e ∈ s.arrived, e.covers k
  tiled : InOrder s.reassembly

/-- No byte is in two segments. -/
theorem eq_of_covers {sender : Outgoing} (h : sender.Sound) {e e' : OffsetDataEntry} {n : ℕ}
    (h_e : e ∈ sender.segments) (h_e' : e' ∈ sender.segments) (h_covers : e.covers n) (h_covers' : e'.covers n) :
    e = e' := by
  by_contra h_ne
  have h_rest : e' ∈ sender.segments.erase e := (List.mem_erase_of_ne (Ne.symm h_ne)).mpr h_e'
  have h_pos : 0 < (sender.segments.erase e).countP (OffsetDataEntry.covers n) :=
    List.countP_pos_iff.mpr ⟨e', h_rest, h_covers'⟩
  have h_count := (List.perm_cons_erase h_e).countP_eq (OffsetDataEntry.covers n)
  rw [List.countP_cons, if_pos h_covers, h.books.cover] at h_count
  split at h_count <;> omega

theorem covers_iff {e : OffsetDataEntry} {n : ℕ} : e.covers n = true ↔ e.offset ≤ n ∧ n < e.endOffset :=
  decide_eq_true_iff

/-- A segment that is not empty has its first byte. -/
theorem covers_offset {e : OffsetDataEntry} (h : e.data ≠ []) : e.covers e.offset :=
  covers_iff.mpr ⟨Nat.le_refl _, Nat.lt_add_of_pos_right (List.length_pos_iff.mpr h)⟩

namespace Kept

theorem initial : Kept {} where
  answered := by simp
  acknowledged := by simp
  nonempty := by simp
  unanswered := by simp
  entries := by simp [DataAndMoneyStream.created]
  before := by simp [DataAndMoneyStream.created]
  tiled := trivial

theorem mem_segments {e : OffsetDataEntry} (h : e ∈ s.sender.unanswered ++ s.sender.acknowledged) :
    e ∈ s.sender.segments := by
  unfold Outgoing.segments
  rw [List.append_assoc]
  exact List.mem_append_right _ h

/-- Something happens at the sender. -/
theorem send {e : OutgoingEvent} (h : Kept s) (h_ok : Orderly s (.send e)) (h_step : s.send e = some t) :
    Kept t := by
  obtain ⟨sender, h_sender, rfl⟩ := Option.map_eq_some_iff.mp h_step
  have h_answered := h.answered
  have h_nonempty := h.nonempty
  have h_sent (e : OffsetDataEntry) (h_e : e ∈ s.sent) (more : List OffsetDataEntry) : e ∈ s.sent ++ more :=
    List.mem_append_left _ h_e
  simp only [List.mem_append] at h_answered h_nonempty
  obtain ⟨new, e, h_new, h_unanswered, h_acknowledged⟩ | ⟨i, entry, h_get, h_unanswered, h_acknowledged⟩ |
    ⟨i, entry, h_get, h_unanswered, h_acknowledged⟩ := Outgoing.step_moves h_sender
  · -- segments are handed out
    refine { h with answered := ?_, acknowledged := ?_, nonempty := ?_, unanswered := ?_ }
    · intro e h_e
      simp only [h_unanswered, h_acknowledged, List.mem_append]
      exact (h_answered e h_e).imp_left .inl
    · exact h_acknowledged ▸ h.acknowledged
    · simp only [h_unanswered, h_acknowledged, List.mem_append]
      rintro e ((h_old | h_e) | h_old)
      · exact h_nonempty e (.inl h_old)
      · exact h_new e h_e
      · exact h_nonempty e (.inr h_old)
    · simp only [h_unanswered, List.mem_append, List.drop_left]
      exact fun e h_e => h_e.imp_left (h.unanswered e)
  · -- one is acknowledged, which has arrived
    have h_arrived : entry ∈ s.arrived := h_ok entry h_get
    have h_perm := perm_cons_eraseIdx h_get
    refine { h with answered := ?_, acknowledged := ?_, nonempty := ?_, unanswered := ?_ }
    · intro e h_e
      simp only [h_unanswered, h_acknowledged, List.mem_append, List.mem_singleton]
      rcases h_answered e h_e with h_old | h_old
      · rcases List.mem_cons.mp (h_perm.mem_iff.mp h_old) with rfl | h_left
        · exact .inr (.inr rfl)
        · exact .inl h_left
      · exact .inr (.inl h_old)
    · simp only [h_acknowledged, List.mem_append, List.mem_singleton]
      rintro e (h_old | rfl)
      · exact h.acknowledged e h_old
      · exact h_arrived
    · simp only [h_unanswered, h_acknowledged, List.mem_append, List.mem_singleton]
      rintro e (h_left | h_old | rfl)
      · exact h_nonempty e (.inl (List.mem_of_mem_eraseIdx h_left))
      · exact h_nonempty e (.inr h_old)
      · exact h_nonempty _ (h_answered _ h_arrived)
    · rw [h_unanswered]
      exact fun e h_e => h_sent e (h.unanswered e (List.mem_of_mem_eraseIdx h_e)) _
  · -- one has to be sent again, which has not arrived
    have h_lost : entry ∉ s.arrived := h_ok entry h_get
    have h_perm := perm_cons_eraseIdx h_get
    refine { h with answered := ?_, acknowledged := ?_, nonempty := ?_, unanswered := ?_ }
    · intro e h_e
      simp only [h_unanswered, h_acknowledged, List.mem_append]
      rcases h_answered e h_e with h_old | h_old
      · rcases List.mem_cons.mp (h_perm.mem_iff.mp h_old) with rfl | h_left
        · exact absurd h_e h_lost
        · exact .inl h_left
      · exact .inr h_old
    · exact h_acknowledged ▸ h.acknowledged
    · simp only [h_unanswered, h_acknowledged, List.mem_append]
      exact fun e h_e => h_nonempty e (h_e.imp_left List.mem_of_mem_eraseIdx)
    · rw [h_unanswered]
      exact fun e h_e => h_sent e (h.unanswered e (List.mem_of_mem_eraseIdx h_e)) _

/-- **A segment that arrives once fits** between those that arrived before. -/
theorem fits {e : OffsetDataEntry} (h : Kept s) (h_safe : Safe s) (h_e : e ∈ s.sender.unanswered)
    (h_once : e ∉ s.arrived) : Fits s.reassembly (.push e.offset e.data.length) := by
  have h_nonempty : e.data ≠ [] := h.nonempty e (List.mem_append_left _ h_e)
  -- it shares no byte with one that has arrived
  have h_apart {e' : OffsetDataEntry} {n : ℕ} (h_e' : e' ∈ s.arrived) (h_covers : e'.covers n) : ¬ e.covers n := by
    intro h_both
    have h_same : e = e' := eq_of_covers h_safe.sender (mem_segments (List.mem_append_left _ h_e))
      (mem_segments (h.answered e' h_e')) h_both h_covers
    exact h_once (h_same ▸ h_e')
  refine ⟨?_, fun e' h_e' => ?_⟩
  · by_contra h_read
    obtain ⟨e', h_e', h_covers⟩ := h.before e.offset (Nat.not_le.mp h_read)
    exact h_apart h_e' h_covers (covers_offset h_nonempty)
  · have h_arrived : e' ∈ s.arrived := h.entries e' h_e'
    have h_nonempty' : e'.data ≠ [] := h.nonempty e' (h.answered e' h_arrived)
    constructor
    · intro h_before
      by_contra h_into
      exact h_apart h_arrived (covers_iff.mpr ⟨h_before, Nat.not_le.mp h_into⟩) (covers_offset h_nonempty)
    · intro h_after
      by_contra h_into
      exact h_apart h_arrived (covers_offset h_nonempty')
        (covers_iff.mpr ⟨Nat.le_of_lt h_after, Nat.not_le.mp h_into⟩)

/-- A segment arrives. -/
theorem arrive {e : OffsetDataEntry} (h : Kept s) (h_safe : Safe s) (h_e : e ∈ s.sender.unanswered)
    (h_once : e ∉ s.arrived) : Kept (s.arrive e) := by
  have h_arrived {e' : OffsetDataEntry} (h_e' : e' ∈ s.arrived) : e' ∈ s.arrived ++ [e] :=
    List.mem_append_left _ h_e'
  exact
    { h with
      answered := by
        intro e' h_e'
        rcases List.mem_append.mp h_e' with h_old | h_new
        · exact h.answered e' h_old
        · exact List.mem_append_left _ (List.mem_singleton.mp h_new ▸ h_e)
      acknowledged := fun e' h_e' => h_arrived (h.acknowledged e' h_e')
      entries := by
        intro e' h_e'
        rcases mem_insertEntry.mp h_e' with rfl | h_old
        · exact List.mem_append_right _ (List.mem_singleton_self e)
        · exact h_arrived (h.entries e' h_old)
      before := by
        intro k h_k
        obtain ⟨e', h_e', h_covers⟩ := h.before k h_k
        exact ⟨e', h_arrived h_e', h_covers⟩
      tiled := by
        have h_push := h_safe.reassembly_arrive (h.unanswered e h_e) (begins_getD s.sender.written)
        rw [h_push]
        exact h.tiled.step (h.fits h_safe h_e h_once) rfl }

/-- The receiver reads from its sorter. -/
theorem read (h : Kept s) : Kept s.read := by
  have h_tiled : InOrder s.read.reassembly := h.tiled.read
  rcases read_cases s.reassembly with ⟨-, h_eq⟩ | ⟨e, es, h_head, h_offset, -, h_eq⟩
  · -- there is nothing to read
    have h_sorter : s.read.receiver.incomingData = s.receiver.incomingData :=
      congrArg (fun r : Reassembly => r.sorter) h_eq
    exact { h with tiled := h_tiled, entries := h_sorter ▸ h.entries, before := h_sorter ▸ h.before }
  · -- the head is taken off
    have h_sorter : s.read.receiver.incomingData =
        { s.receiver.incomingData with readOffset := e.endOffset, entries := es } :=
      congrArg (fun r : Reassembly => r.sorter) h_eq
    have h_entries : ∀ e' ∈ e :: es, e' ∈ s.arrived := by
      have h_mem : s.receiver.incomingData.entries = e :: es := h_head
      rw [← h_mem]
      exact h.entries
    refine { h with tiled := h_tiled, entries := ?_, before := ?_ }
    · rw [h_sorter]
      exact fun e' h_e' => h_entries e' (List.mem_cons_of_mem _ h_e')
    · rw [h_sorter]
      intro k h_k
      by_cases h_old : k < s.receiver.incomingData.readOffset
      · exact h.before k h_old
      · have h_le : e.offset ≤ k := h_offset.trans_le (Nat.not_lt.mp h_old)
        exact ⟨e, h_entries e List.mem_cons_self, covers_iff.mpr ⟨h_le, h_k⟩⟩

/-- **Each event** of an orderly run keeps the invariant. -/
theorem step {e : TransferEvent} (h : Kept s) (h_safe : Safe s) (h_ok : Orderly s e) (h_step : s.step e = some t) :
    Kept t := by
  cases e with
  | send e => exact h.send h_ok (send_of_step h_step).1
  | arrive i =>
    obtain ⟨e, h_get, rfl⟩ := Option.map_eq_some_iff.mp h_step
    obtain ⟨h_unanswered, h_once⟩ := h_ok e h_get
    exact h.arrive h_safe h_unanswered h_once
  | read =>
    obtain rfl := Option.some.inj h_step
    exact h.read
  | take n =>
    simp only [Transfer.step] at h_step
    split at h_step
    · obtain rfl := Option.some.inj h_step
      exact { h with }
    · cases h_step
  | raiseHighWaterMark n =>
    obtain rfl := Option.some.inj h_step
    exact { h with }
  | announce =>
    obtain rfl := Option.some.inj h_step
    exact { h with }
  | hear i =>
    obtain ⟨offset, -, h_send⟩ := Option.bind_eq_some_iff.mp h_step
    refine h.send ?_ h_send
    exact trivial

theorem of_reach (h : machine.Reach Orderly s) : Kept s := by
  refine h.invariant Kept ?_ ?_
  · rintro s rfl
    exact .initial
  · intro s e t h_reach h_s h_ok h_t
    exact h_s.step (.of_reach h_reach) h_ok h_t

end Kept

/-! ### Reading until nothing is returned -/

theorem reassembly_readTimes (k : ℕ) : (readTimes k s).reassembly = s.reassembly.readTimes k := by
  induction k generalizing s with
  | zero => rfl
  | succ k ih =>
    unfold readTimes Reassembly.readTimes
    change (match s.reassembly.sorter.read.1 with | none => s | some _ => readTimes k s.read).reassembly = _
    cases s.reassembly.sorter.read.1 with
    | none => rfl
    | some _ => exact ih

/-- Nothing is left to read then. -/
theorem read_readAll (s : Transfer) : s.readAll.reassembly.sorter.read.1 = none := by
  unfold readAll
  rw [reassembly_readTimes]
  exact readAll_read s.reassembly

/-- Reading happens at the receiver only. -/
theorem readTimes_eq (k : ℕ) : (readTimes k s).sender = s.sender ∧ (readTimes k s).sent = s.sent ∧
    (readTimes k s).arrived = s.arrived := by
  induction k generalizing s with
  | zero => exact ⟨rfl, rfl, rfl⟩
  | succ k ih =>
    unfold readTimes
    split
    · exact ⟨rfl, rfl, rfl⟩
    · exact ih

/-- Reading is part of a run. -/
theorem leads_readTimes (k : ℕ) : machine.Leads Orderly s (readTimes k s) := by
  induction k generalizing s with
  | zero => exact refl_of _ s
  | succ k ih =>
    unfold readTimes
    split
    · exact refl_of _ s
    · have h_read : machine.Leads Orderly s s.read := .single (e := .read) trivial rfl
      exact trans_of _ h_read ih

/-- What has arrived without a gap is read. -/
theorem Kept.ne_readOffset {k : ℕ} (h : Kept s) (h_safe : Safe s) (h_none : s.reassembly.sorter.read.1 = none)
    (h_covered : ∃ e ∈ s.arrived, e.covers k) : k ≠ s.receiver.incomingData.readOffset := by
  rintro rfl
  obtain ⟨e, h_e, h_covers⟩ := h_covered
  obtain ⟨h_lo, h_hi⟩ := covers_iff.mp h_covers
  have h_genuine := h_safe.genuine _ (begins_getD s.sender.written)
  have h_pushed : (e.offset, e.data.length) ∈ s.reassembly.pushed :=
    List.mem_map.mpr ⟨e, h_e, rfl⟩
  rcases h_genuine.held _ h_pushed _ h_lo h_hi with h_read | ⟨e', h_e', h_le, -⟩
  · exact lt_irrefl _ h_read
  · exact absurd h_le (not_le.mpr (h.tiled.gap h_none e' h_e'))

/-- Reading goes on up to the first byte that has not arrived. -/
theorem le_readOffset_readAll (h : machine.Reach Orderly s) {n : ℕ}
    (h_covered : ∀ k < n, ∃ e ∈ s.arrived, e.covers k) : n ≤ s.readAll.receiver.incomingData.readOffset := by
  have h_reach : machine.Reach Orderly s.readAll := h.leads (leads_readTimes _)
  have h_arrived : s.readAll.arrived = s.arrived := (readTimes_eq _).2.2
  by_contra h_short
  have h_next := h_covered _ (Nat.not_le.mp h_short)
  rw [← h_arrived] at h_next
  exact (Kept.of_reach h_reach).ne_readOffset (.of_reach h_reach) (read_readAll s) h_next rfl

/-- **All that was handed out is read** when nothing is unanswered or has to be sent again. -/
theorem readOffset_readAll (h : machine.Reach Orderly s) (h_retry : s.sender.stream.outgoingDataToRetry = [])
    (h_unanswered : s.sender.unanswered = []) :
    s.readAll.receiver.incomingData.readOffset = s.sender.stream.outgoingOffset := by
  have h_reach : machine.Reach Orderly s.readAll := h.leads (leads_readTimes _)
  have h_safe := Safe.of_reach h_reach
  have h_sender : s.readAll.sender = s.sender := (readTimes_eq _).1
  have h_end := h_safe.readOffset.trans h_safe.maxOffset
  rw [h_sender] at h_end
  refine Nat.le_antisymm h_end (le_readOffset_readAll h fun k h_k => ?_)
  -- each byte that was handed out is in a segment that was acknowledged
  have h_count := (Safe.of_reach h).sender.books.cover k
  rw [if_pos h_k] at h_count
  obtain ⟨e, h_e, h_covers⟩ := List.countP_pos_iff.mp (h_count ▸ Nat.one_pos)
  unfold Outgoing.segments at h_e
  rw [h_retry, h_unanswered, List.nil_append, List.nil_append] at h_e
  exact ⟨e, (Kept.of_reach h).acknowledged e h_e, h_covers⟩

theorem output_readAll (h : machine.Reach Orderly s) :
    s.readAll.output = s.sender.written.take s.readAll.receiver.incomingData.readOffset := by
  have h_reach : machine.Reach Orderly s.readAll := h.leads (leads_readTimes _)
  have h_sender : s.readAll.sender = s.sender := (readTimes_eq _).1
  rw [← h_sender]
  exact (Safe.of_reach h_reach).output_eq

/-- **Nothing that has arrived gets stuck**, in an orderly run, however segments overtake each other and
whichever of them are lost and sent again, in other sizes perhaps. If each of the first `n` bytes has
arrived, reading until nothing is returned yields all of them; and when the sender has no segment left that
is unanswered or has to be sent again, it yields all that was handed out. -/
theorem transfer_keeps_up (h : machine.Reach Orderly s) :
    (∀ n, (∀ k < n, ∃ e ∈ s.arrived, e.covers k) → s.sender.written.take n <+: s.readAll.output) ∧
    (s.sender.stream.outgoingDataToRetry = [] → s.sender.unanswered = [] →
      s.readAll.output = s.sender.written.take s.sender.stream.outgoingOffset) := by
  refine ⟨fun n h_covered => ?_, fun h_retry h_unanswered => ?_⟩
  · rw [output_readAll h]
    exact List.take_prefix_take_left (le_readOffset_readAll h h_covered)
  · rw [output_readAll h, readOffset_readAll h h_retry h_unanswered]

/-- Three segments; the first is lost and sent again in two, behind the others. -/
theorem transfer_keeps_up_resent :
    ∃ s, machine.Reach Orderly s ∧ s.sender.written = [1, 2, 3, 4, 5] ∧ s.readAll.output = [1, 2, 3, 4, 5] := by
  have h_exec : (machine.exec Orderly {}
      [.send (.write [] [1, 2, 3, 4, 5]), .send (.getAvailableDataToSend 2), .send (.getAvailableDataToSend 2),
        .send (.getAvailableDataToSend 2), .send .callbackReturned, .arrive 2, .send (.resend 0), .arrive 1,
        .send (.acknowledge 1), .send (.acknowledge 0), .send (.getAvailableDataToSend 1),
        .send (.getAvailableDataToSend 1), .arrive 4, .arrive 3, .send (.acknowledge 0), .send (.acknowledge 0)]).map
      (fun s => (s.sender.written, s.sender.stream.outgoingOffset, s.sender.stream.outgoingDataToRetry,
        s.sender.unanswered)) = some ([1, 2, 3, 4, 5], 5, [], []) := by
    decide +kernel
  obtain ⟨s, h_exec, h_end⟩ := Option.map_eq_some_iff.mp h_exec
  simp only [Prod.mk.injEq] at h_end
  obtain ⟨h_written, h_offset, h_retry, h_unanswered⟩ := h_end
  have h : machine.Reach Orderly s := Machine.reach_of_exec _ rfl h_exec
  refine ⟨s, h, h_written, ?_⟩
  rw [(transfer_keeps_up h).2 h_retry h_unanswered, h_written, h_offset]
  rfl

/-! ### The rest of a transfer -/

/-- A read takes entries off the queue. -/
theorem readChunks_length (queue : List DataQueueEntry) (read : PendingRead) :
    (readChunks queue read).1.toList.length + (readChunks queue read).2.1.length ≤ queue.length := by
  induction queue generalizing read with
  | nil => exact Nat.le_refl _
  | cons e queue ih =>
    unfold readChunks
    split
    · simp
    · split
      · simp
      · cases e.callback with
        | some callback =>
          rw [List.length_cons, Nat.add_comm]
          exact Nat.le_refl _
        | none => exact (ih _).trans (Nat.le_succ _)

/-- A read is done when it has as many bytes as asked for, or the queue is empty. -/
theorem readChunks_done (queue : List DataQueueEntry) (read : PendingRead)
    (h : (readChunks queue read).1 = none) :
    (readChunks queue read).2.1 = [] ∨ (readChunks queue read).2.2.bytesLeft = 0 := by
  induction queue generalizing read with
  | nil => exact .inl rfl
  | cons e queue ih =>
    unfold readChunks at h ⊢
    by_cases h_left : read.bytesLeft = 0
    · rw [if_pos h_left]
      exact .inr h_left
    by_cases h_long : e.data.length > read.bytesLeft
    · rw [if_neg h_left, if_pos h_long]
      exact .inr rfl
    rw [if_neg h_left, if_neg h_long] at h ⊢
    cases h_callback : e.callback with
    | some callback =>
      simp only [h_callback] at h
      cases h
    | none =>
      simp only [h_callback] at h ⊢
      exact ih _ h

/-- What a read that goes on comes to: it is done, or a callback interrupts it. -/
theorem record_readOn_cases (sender : Outgoing) (queue : List DataQueueEntry) (read : PendingRead) :
    let after := sender.record ({ sender.stream with outgoingData := queue }.readOn read)
    after.written = sender.written ∧
    after.stream.outgoingDataToRetry = sender.stream.outgoingDataToRetry ∧
    ((after.read = none ∧ (after.stream.outgoingData = [] ∨
        after.stream.outgoingOffset = sender.stream.outgoingOffset + (read.data.length + read.bytesLeft))) ∨
      ∃ read', after.read = some read' ∧
        read'.data.length + read'.bytesLeft = read.data.length + read.bytesLeft ∧
        after.stream.outgoingOffset = sender.stream.outgoingOffset ∧
        after.stream.outgoingData.length ≤ queue.length) := by
  -- what the loop reads, and when it is done
  have h_length := (readChunks_spec queue read).length
  have h_queue := readChunks_length queue read
  have h_done := readChunks_done queue read
  unfold OutgoingStream.readOn
  simp only
  rcases h_read : readChunks queue read with ⟨_ | head, queue', read'⟩ <;> rw [h_read] at h_length h_queue h_done
  · refine ⟨rfl, rfl, .inl ⟨rfl, ?_⟩⟩
    refine (h_done rfl).imp id fun h_left => ?_
    change read'.bytesLeft = 0 at h_left
    change sender.stream.outgoingOffset + read'.data.length = _
    rw [← h_length, h_left, Nat.add_zero]
  · refine ⟨rfl, rfl, .inr ⟨read', rfl, h_length, rfl, ?_⟩⟩
    change (head :: queue').length ≤ queue.length
    rw [List.length_cons, Nat.add_comm]
    exact h_queue

/-- When the queue is empty, all that was written was handed out. -/
theorem offset_of_empty {sender : Outgoing} (h : sender.Sound) (h_read : sender.read = none)
    (h_empty : sender.stream.outgoingData = []) : sender.stream.outgoingOffset = sender.written.length := by
  have h_queued := h.books.queued
  unfold Outgoing.taken Outgoing.queue at h_queued
  rw [h_read, h_empty] at h_queued
  exact Nat.le_antisymm h.books.offset_le (List.drop_eq_nil_iff.mp h_queued)

/-- An orderly run leads on, and nothing is written in it. -/
structure Onward (s t : Transfer) : Prop where
  leads : machine.Leads Orderly s t
  written : t.sender.written = s.sender.written

instance : IsPreorder Transfer Onward where
  refl s := ⟨refl_of _ s, rfl⟩
  trans _ _ _ h h' := ⟨trans_of _ h.leads h'.leads, h'.written.trans h.written⟩

/-- Something happens at the sender, other than a write. -/
theorem onward_send {e : OutgoingEvent} {sender : Outgoing} (h_ok : Orderly s (.send e))
    (h_sender : s.sender.step e = some sender) (h_written : sender.written = s.sender.written)
    (h_hear : ∀ newOffset, e ≠ .remoteMaxOffset newOffset) :
    ∃ t, Onward s t ∧ t.sender = sender ∧ t.receiver = s.receiver := by
  have h_send : s.send e = some
      { s with
        sender := sender
        sent := s.sent ++ sender.unanswered.drop s.sender.unanswered.length } := by
    unfold Transfer.send
    rw [h_sender]
    rfl
  have h_step : s.step (.send e) = s.send e := by
    cases e with
    | remoteMaxOffset newOffset => exact absurd rfl (h_hear newOffset)
    | write _ _ => rfl
    | getAvailableDataToSend _ => rfl
    | callbackReturned => rfl
    | acknowledge _ => rfl
    | resend _ => rfl
  exact ⟨_, ⟨.single h_ok (h_step.trans h_send), h_written⟩, rfl, rfl⟩

/-- **A read that callbacks interrupt comes to its end.** It has moved the offset on, if it asked for
anything, unless there is nothing left. -/
theorem onward_of_read {read : PendingRead} (h : machine.Reach Orderly s) (h_read : s.sender.read = some read) :
    ∃ t, Onward s t ∧ t.sender.read = none ∧
      t.sender.stream.outgoingDataToRetry = s.sender.stream.outgoingDataToRetry ∧
      (t.sender.stream.outgoingOffset = s.sender.written.length ∨
        t.sender.stream.outgoingOffset =
          s.sender.stream.outgoingOffset + (read.data.length + read.bytesLeft)) := by
  induction h_length : s.sender.stream.outgoingData.length using Nat.strong_induction_on generalizing s read with
  | _ length ih =>
    obtain ⟨h_written, h_retry, h_cases⟩ := record_readOn_cases s.sender s.sender.stream.outgoingData.tail read
    have h_step : s.sender.step .callbackReturned = some (s.sender.record (s.sender.stream.callbackReturned read)) := by
      unfold Outgoing.step
      rw [h_read]
      rfl
    have h_ok : Orderly s (.send .callbackReturned) := trivial
    obtain ⟨t, h_t, h_sender, -⟩ := onward_send h_ok h_step h_written (by simp)
    have h_reach : machine.Reach Orderly t := h.leads h_t.leads
    have h_sound := (Safe.of_reach h_reach).sender
    change t.sender = s.sender.record ({ s.sender.stream with outgoingData := s.sender.stream.outgoingData.tail }.readOn
      read) at h_sender
    rw [← h_sender] at h_retry h_cases
    rcases h_cases with ⟨h_none, h_end⟩ | ⟨read', h_some, h_budget, h_offset, h_queue⟩
    · -- it is done
      refine ⟨t, h_t, h_none, h_retry, h_end.imp_left fun h_empty => ?_⟩
      rw [← h_t.written]
      exact offset_of_empty h_sound h_none h_empty
    · -- another callback interrupts it
      have h_head := (Safe.of_reach h).sender.head (h_read ▸ rfl)
      have h_shorter : t.sender.stream.outgoingData.length < length := by
        have h_pos := List.length_pos_iff.mpr h_head
        rw [List.length_tail] at h_queue
        omega
      obtain ⟨u, h_u, h_none, h_retry', h_end⟩ := ih _ h_shorter h_reach h_some rfl
      rw [h_t.written, h_offset, h_budget] at h_end
      exact ⟨u, trans_of _ h_t h_u, h_none, h_retry'.trans h_retry, h_end⟩

/-- **Each segment that is unanswered** can arrive and be acknowledged. -/
theorem onward_answered (h : machine.Reach Orderly s) :
    ∃ t, Onward s t ∧ t.sender.unanswered = [] ∧ t.sender.stream = s.sender.stream ∧
      t.sender.read = s.sender.read := by
  induction h_length : s.sender.unanswered.length generalizing s with
  | zero => exact ⟨s, refl_of _ s, List.eq_nil_of_length_eq_zero h_length, rfl, rfl⟩
  | succ n ih =>
    obtain ⟨e, rest, h_unanswered⟩ := List.exists_cons_of_length_eq_add_one h_length
    have h_first : s.sender.unanswered[0]? = some e := by
      rw [h_unanswered]
      rfl
    have h_mem : e ∈ s.sender.unanswered := List.mem_of_getElem? h_first
    -- it arrives, if it has not
    obtain ⟨t, h_t, h_sender, h_arrived⟩ : ∃ t, Onward s t ∧ t.sender = s.sender ∧ e ∈ t.arrived := by
      by_cases h_once : e ∈ s.arrived
      · exact ⟨s, refl_of _ s, rfl, h_once⟩
      · obtain ⟨i, h_i⟩ := List.mem_iff_getElem?.mp ((Kept.of_reach h).unanswered e h_mem)
        have h_ok : Orderly s (.arrive i) := by
          intro e' h_e'
          obtain rfl : e = e' := Option.some.inj (h_i.symm.trans h_e')
          exact ⟨h_mem, h_once⟩
        have h_step : machine.step s (.arrive i) = some (s.arrive e) := by
          change s.sent[i]?.map s.arrive = _
          rw [h_i]
          rfl
        exact ⟨s.arrive e, ⟨.single h_ok h_step, rfl⟩, rfl, List.mem_append_right _ (List.mem_singleton_self e)⟩
    -- and is acknowledged
    rw [← h_sender] at h_first
    have h_ok : Orderly t (.send (.acknowledge 0)) := by
      intro e' h_e'
      obtain rfl : e = e' := Option.some.inj (h_first.symm.trans h_e')
      exact h_arrived
    have h_step : t.sender.step (.acknowledge 0) = some
        { t.sender with
          unanswered := t.sender.unanswered.eraseIdx 0
          acknowledged := t.sender.acknowledged ++ [e] } := by
      change t.sender.unanswered[0]?.map _ = _
      rw [h_first]
      rfl
    obtain ⟨u, h_u, h_after, -⟩ := onward_send h_ok h_step rfl (by simp)
    have h_onward : Onward s u := trans_of _ h_t h_u
    have h_left : u.sender.unanswered.length = n := by
      rw [h_after, h_sender, h_unanswered]
      rw [h_unanswered] at h_length
      exact Nat.succ.inj h_length
    obtain ⟨v, h_v, h_none, h_stream, h_read⟩ := ih (h.leads h_onward.leads) h_left
    refine ⟨v, trans_of _ h_onward h_v, h_none, ?_, ?_⟩
    · rw [h_stream, h_after, h_sender]
    · rw [h_read, h_after, h_sender]

/-- Nothing at the sender is waiting for an answer or to be sent again. -/
structure Settled (s : Transfer) : Prop where
  read : s.sender.read = none
  retry : s.sender.stream.outgoingDataToRetry = []
  unanswered : s.sender.unanswered = []

/-- **Each segment that has to be sent again** can be sent, arrive and be acknowledged. -/
theorem onward_retried (h : machine.Reach Orderly s) (h_read : s.sender.read = none) :
    ∃ t, Onward s t ∧ Settled t ∧ t.sender.stream.outgoingOffset = s.sender.stream.outgoingOffset := by
  induction h_length : s.sender.stream.outgoingDataToRetry.length generalizing s with
  | zero =>
    have h_retry : s.sender.stream.outgoingDataToRetry = [] := List.eq_nil_of_length_eq_zero h_length
    obtain ⟨t, h_t, h_none, h_stream, h_same⟩ := onward_answered h
    exact ⟨t, h_t, ⟨h_same.trans h_read, h_stream ▸ h_retry, h_none⟩, by rw [h_stream]⟩
  | succ n ih =>
    obtain ⟨toSend, rest, h_retry⟩ := List.exists_cons_of_length_eq_add_one h_length
    have h_step : s.sender.step (.getAvailableDataToSend (toSend.data.length + 1)) = some
        (s.sender.record ({ s.sender.stream with outgoingDataToRetry := rest }, .segment toSend)) := by
      have h_whole : ¬toSend.data.length > toSend.data.length + 1 := by omega
      have h_idle : 0 < toSend.data.length + 1 ∧ s.sender.read.isNone := ⟨Nat.succ_pos _, by rw [h_read]; rfl⟩
      simp only [Outgoing.step]
      rw [if_pos h_idle]
      unfold OutgoingStream.getAvailableDataToSend
      rw [h_retry]
      simp only
      rw [if_neg h_whole]
    have h_ok : Orderly s (.send (.getAvailableDataToSend (toSend.data.length + 1))) := trivial
    obtain ⟨t, h_t, h_sender, -⟩ := onward_send h_ok h_step rfl (by simp)
    have h_left : t.sender.stream.outgoingDataToRetry.length = n := by
      rw [h_sender]
      rw [h_retry] at h_length
      exact Nat.succ.inj h_length
    have h_idle : t.sender.read = none := by
      rw [h_sender]
      rfl
    obtain ⟨u, h_u, h_settled, h_offset⟩ := ih (h.leads h_t.leads) h_idle h_left
    refine ⟨u, trans_of _ h_t h_u, h_settled, ?_⟩
    rw [h_offset, h_sender]
    rfl

/-- Node's buffer has room for something. -/
theorem highWaterMark_pos {ok : Transfer → TransferEvent → Prop} (h : machine.Reach ok s) :
    0 < s.receiver.readableHighWaterMark := by
  refine h.invariant (fun s => 0 < s.receiver.readableHighWaterMark) ?_ ?_
  · rintro s rfl
    exact Nat.succ_pos _
  · intro s e t _ h_s _ h_t
    have h_send {e : OutgoingEvent} (h_t : s.send e = some t) : 0 < t.receiver.readableHighWaterMark := by
      obtain ⟨sender, -, rfl⟩ := Option.map_eq_some_iff.mp h_t
      exact h_s
    cases e with
    | send e => exact h_send (send_of_step h_t).1
    | arrive i =>
      obtain ⟨e, -, rfl⟩ := Option.map_eq_some_iff.mp h_t
      exact h_s
    | read =>
      obtain rfl := Option.some.inj h_t
      exact h_s
    | take n =>
      simp only [machine, Transfer.step] at h_t
      split at h_t
      · obtain rfl := Option.some.inj h_t
        exact h_s
      · cases h_t
    | raiseHighWaterMark n =>
      obtain rfl := Option.some.inj h_t
      exact h_s.trans_le (Nat.le_max_right _ _)
    | announce =>
      obtain rfl := Option.some.inj h_t
      exact h_s
    | hear i =>
      obtain ⟨offset, -, h_offset⟩ := Option.bind_eq_some_iff.mp h_t
      exact h_send h_offset

/-- **The receiver accepts more** once its application has taken what was read, and the sender hears so. -/
theorem onward_accepted (h : machine.Reach Orderly s) (h_settled : Settled s) :
    ∃ t, Onward s t ∧ Settled t ∧ t.sender.stream.outgoingOffset = s.sender.stream.outgoingOffset ∧
      t.sender.stream.outgoingOffset < t.sender.stream.remoteMaxOffset := by
  have h_read : Onward s s.readAll := ⟨leads_readTimes _, congrArg Outgoing.written (readTimes_eq _).1⟩
  have h_sender : s.readAll.sender = s.sender := (readTimes_eq _).1
  have h_offset := readOffset_readAll h h_settled.retry h_settled.unanswered
  -- the application takes all of it
  let receiver := s.readAll.receiver.takeFromBuffer s.readAll.receiver.readableLength
  let taken : Transfer := { s.readAll with receiver := receiver }
  have h_taken : Onward s.readAll taken := by
    refine ⟨.single (e := .take s.readAll.receiver.readableLength) trivial ?_, rfl⟩
    exact if_pos (Nat.le_refl _)
  have h_more : s.sender.stream.outgoingOffset < receiver.maxAcceptable := by
    have h_pos := highWaterMark_pos (h.leads h_read.leads)
    change _ < s.readAll.receiver.incomingData.readOffset + s.readAll.receiver.readableHighWaterMark -
      (s.readAll.receiver.readableLength - s.readAll.receiver.readableLength)
    omega
  -- which the sender is told
  let told : Transfer := { taken with announced := taken.announced ++ [receiver.maxAcceptable] }
  have h_told : Onward taken told := ⟨.single (e := .announce) trivial rfl, rfl⟩
  let stream := s.sender.stream.raiseRemoteMaxOffset receiver.maxAcceptable
  have h_stream : stream.outgoingOffset = s.sender.stream.outgoingOffset ∧
      stream.outgoingDataToRetry = s.sender.stream.outgoingDataToRetry ∧
      receiver.maxAcceptable ≤ stream.remoteMaxOffset := by
    unfold stream OutgoingStream.raiseRemoteMaxOffset
    split
    · exact ⟨rfl, rfl, Nat.le_refl _⟩
    · next h_high => exact ⟨rfl, rfl, Nat.not_lt.mp h_high⟩
  obtain ⟨h_same, h_retry, h_limit⟩ := h_stream
  let heard : Transfer :=
    { told with
      sender := { s.sender with stream := stream }
      sent := told.sent ++ s.sender.unanswered.drop s.sender.unanswered.length }
  have h_heard : Onward told heard := by
    refine ⟨.single (e := .hear taken.announced.length) trivial ?_, ?_⟩
    · have h_get : told.announced[taken.announced.length]? = some receiver.maxAcceptable :=
        List.getElem?_concat_length ..
      change told.announced[taken.announced.length]?.bind _ = some heard
      rw [h_get]
      unfold heard stream
      rw [← h_sender]
      rfl
    · change s.sender.written = s.readAll.sender.written
      rw [h_sender]
  have h_onward : Onward s heard := trans_of _ h_read (trans_of _ h_taken (trans_of _ h_told h_heard))
  refine ⟨heard, h_onward, ⟨h_settled.read, h_retry.trans h_settled.retry, h_settled.unanswered⟩, h_same, ?_⟩
  change stream.outgoingOffset < stream.remoteMaxOffset
  rw [h_same]
  exact h_more.trans_le h_limit

/-- **The sender hands out more** when it may, unless there is nothing left. -/
theorem onward_advanced (h : machine.Reach Orderly s) (h_settled : Settled s)
    (h_limit : s.sender.stream.outgoingOffset < s.sender.stream.remoteMaxOffset)
    (h_left : s.sender.stream.outgoingOffset < s.sender.written.length) :
    ∃ t, Onward s t ∧ Settled t ∧ s.sender.stream.outgoingOffset < t.sender.stream.outgoingOffset := by
  -- there is room for one byte
  have h_bytes : min 1 (s.sender.stream.remoteMaxOffset - s.sender.stream.outgoingOffset) = 1 := by omega
  -- nothing is left to send again, so that the read takes new data
  have h_start : s.sender.stream.getAvailableDataToSend 1 = s.sender.stream.readOn { bytesLeft := 1 } := by
    unfold OutgoingStream.getAvailableDataToSend
    rw [h_settled.retry]
    simp only
    rw [h_bytes]
  have h_step : s.sender.step (.getAvailableDataToSend 1) =
      some (s.sender.record (s.sender.stream.readOn { bytesLeft := 1 })) := by
    have h_idle : 0 < 1 ∧ s.sender.read.isNone := ⟨Nat.one_pos, by rw [h_settled.read]; rfl⟩
    simp only [Outgoing.step]
    rw [if_pos h_idle, h_start]
  -- which it does, unless a callback interrupts it
  obtain ⟨h_written, h_retry, h_cases⟩ :=
    record_readOn_cases s.sender s.sender.stream.outgoingData { bytesLeft := 1 }
  have h_ok : Orderly s (.send (.getAvailableDataToSend 1)) := trivial
  obtain ⟨t, h_t, h_sender, -⟩ := onward_send h_ok h_step h_written (by simp)
  have h_reach : machine.Reach Orderly t := h.leads h_t.leads
  change t.sender = s.sender.record
    ({ s.sender.stream with outgoingData := s.sender.stream.outgoingData }.readOn { bytesLeft := 1 }) at h_sender
  rw [← h_sender] at h_retry h_cases
  -- the read comes to its end, at once or after some callbacks
  obtain ⟨u, h_u, h_none, h_more⟩ : ∃ u, Onward t u ∧ u.sender.read = none ∧
      s.sender.stream.outgoingOffset < u.sender.stream.outgoingOffset := by
    rcases h_cases with ⟨h_none, h_empty | h_end⟩ | ⟨read', h_some, h_budget, h_offset, -⟩
    · refine ⟨t, refl_of _ t, h_none, ?_⟩
      rw [offset_of_empty (Safe.of_reach h_reach).sender h_none h_empty, h_t.written]
      exact h_left
    · refine ⟨t, refl_of _ t, h_none, ?_⟩
      rw [h_end]
      exact Nat.lt_succ_self _
    · obtain ⟨u, h_u, h_none, -, h_end⟩ := onward_of_read h_reach h_some
      refine ⟨u, h_u, h_none, ?_⟩
      rw [h_t.written, h_offset, h_budget] at h_end
      rcases h_end with h_all | h_next
      · exact h_all ▸ h_left
      · rw [h_next]
        exact Nat.lt_succ_self _
  -- and then all that is unanswered is answered
  obtain ⟨v, h_v, h_settled', h_same⟩ := onward_retried (h_reach.leads h_u.leads) h_none
  exact ⟨v, trans_of _ h_t (trans_of _ h_u h_v), h_settled', h_same ▸ h_more⟩

/-- **All of the rest** can be handed out and acknowledged. -/
theorem onward_all (h : machine.Reach Orderly s) (h_settled : Settled s) :
    ∃ t, Onward s t ∧ Settled t ∧ t.sender.stream.outgoingOffset = s.sender.written.length := by
  induction h_rest : s.sender.written.length - s.sender.stream.outgoingOffset using Nat.strong_induction_on
    generalizing s with
  | _ rest ih =>
    have h_le := (Safe.of_reach h).sender.books.offset_le
    by_cases h_all : s.sender.stream.outgoingOffset = s.sender.written.length
    · exact ⟨s, refl_of _ s, h_settled, h_all⟩
    · have h_left : s.sender.stream.outgoingOffset < s.sender.written.length := lt_of_le_of_ne h_le h_all
      obtain ⟨t, h_t, h_settled_t, h_offset, h_limit⟩ := onward_accepted h h_settled
      rw [← h_offset, ← h_t.written] at h_left
      obtain ⟨u, h_u, h_settled_u, h_more⟩ := onward_advanced (h.leads h_t.leads) h_settled_t h_limit h_left
      have h_onward : Onward s u := trans_of _ h_t h_u
      have h_less : u.sender.written.length - u.sender.stream.outgoingOffset < rest := by
        rw [h_onward.written]
        rw [h_t.written] at h_left
        omega
      obtain ⟨v, h_v, h_settled_v, h_end⟩ := ih _ h_less (h.leads h_onward.leads) h_settled_u rfl
      exact ⟨v, trans_of _ h_onward h_v, h_settled_v, h_end.trans (congrArg List.length h_onward.written)⟩

/-- **A transfer can always be brought to its end.** From each state of an orderly run, whatever is under
way, held up or lost there, an orderly run without further writes leads to one in which the receiver's
application has read all that was written, and nothing is unanswered or has to be sent again: neither
flow control nor the callbacks of the writes bring it to a standstill. -/
theorem transfer_can_finish (h : machine.Reach Orderly s) :
    ∃ t, machine.Leads Orderly s t ∧ t.sender.written = s.sender.written ∧ t.output = s.sender.written ∧
      t.sender.unanswered = [] ∧ t.sender.stream.outgoingDataToRetry = [] := by
  -- the read that is under way comes to its end
  obtain ⟨t, h_t, h_none⟩ : ∃ t, Onward s t ∧ t.sender.read = none := by
    cases h_read : s.sender.read with
    | none => exact ⟨s, refl_of _ s, h_read⟩
    | some read =>
      obtain ⟨t, h_t, h_none, -⟩ := onward_of_read h h_read
      exact ⟨t, h_t, h_none⟩
  -- then what was handed out, and what was not
  obtain ⟨u, h_u, h_settled_u, -⟩ := onward_retried (h.leads h_t.leads) h_none
  have h_first : Onward s u := trans_of _ h_t h_u
  obtain ⟨v, h_v, h_settled, h_end⟩ := onward_all (h.leads h_first.leads) h_settled_u
  have h_onward : Onward s v := trans_of _ h_first h_v
  have h_reach : machine.Reach Orderly v := h.leads h_onward.leads
  have h_sender : v.readAll.sender = v.sender := (readTimes_eq _).1
  refine ⟨v.readAll, h_onward.leads.trans (leads_readTimes _), ?_, ?_, ?_, ?_⟩
  · rw [h_sender, h_onward.written]
  · rw [output_readAll h_reach, readOffset_readAll h_reach h_settled.retry h_settled.unanswered, h_end,
      h_onward.written, h_first.written, List.take_length]
  · rw [h_sender, h_settled.unanswered]
  · rw [h_sender, h_settled.retry]

/-- A write is under way and its callback has not returned, and a segment is lost. -/
theorem transfer_can_finish_lost :
    ∃ s t, machine.Reach Orderly s ∧ s.output = [] ∧ machine.Leads Orderly s t ∧ t.output = [1, 2, 3] := by
  have h_exec : (machine.exec Orderly {}
      [.send (.write [[1, 2]] [3]), .send (.getAvailableDataToSend 1), .send (.resend 0),
        .send (.getAvailableDataToSend 1), .send (.getAvailableDataToSend 2)]).map
      (fun s => (s.sender.written, s.sender.read.isSome, s.output)) = some ([1, 2, 3], true, []) := by
    decide +kernel
  obtain ⟨s, h_exec, h_end⟩ := Option.map_eq_some_iff.mp h_exec
  simp only [Prod.mk.injEq] at h_end
  obtain ⟨h_written, -, h_output⟩ := h_end
  have h : machine.Reach Orderly s := Machine.reach_of_exec _ rfl h_exec
  obtain ⟨t, h_leads, -, h_all, -⟩ := transfer_can_finish h
  exact ⟨s, t, h, h_output, h_leads, h_all.trans h_written⟩

end Transfer

end Interledger.Stream
