import Interledger.Lib.Bookkeeping
import Interledger.Lib.Machine
import Interledger.Stream.DataAndMoneyStream

/-!
# The outgoing data of a stream

The chunks that the application writes to a `DataAndMoneyStream` wait in a `DataQueue`
(`ilp-protocol-stream/src/util/data-queue.ts`) until `_getAvailableDataToSend` of `stream.ts` cuts them
into segments of the sizes that the packets have room for. A segment whose packet is rejected is queued to
be sent again, and is cut once more when it is too long for the next packet.

`read` runs the callback of a write while the chunk is still at the head of the queue. Node may use it to
write what the application has written since, so that a read is interrupted there: whatever happens to the
stream happens, and then the callback returns and the read goes on.

## Main results

* `readChunks_spec` — what a read takes off the queue until a callback interrupts it or it is done;
* `Outgoing.Sound.step` — the books of what was written, handed out, answered and called back;
* `outgoing_data_is_kept` — no data is lost, invented or sent in two segments, and each callback runs once,
  in the call that hands out the last byte of its chunk;
* `returns_getAvailableDataToSend` — the streams of a connection, which are modelled without callbacks, hand
  out the same segments.
-/

namespace Interledger.Stream

open Interledger.Ilp

/-- `DataQueueEntry`. A callback is told by the number of its write. -/
structure DataQueueEntry where
  data : Buffer
  callback : Option ℕ := none
  deriving DecidableEq

/-- The variables of `DataQueue.read`: how many bytes are left to read, and those that were read. -/
structure PendingRead where
  bytesLeft : ℕ
  data : Buffer := []
  deriving DecidableEq

/-- The loop of `DataQueue.read`, until the callback of an entry is called or the loop ends. The entry is
still at the head of the queue then, before those returned. -/
def readChunks : List DataQueueEntry → PendingRead →
    Option DataQueueEntry × List DataQueueEntry × PendingRead
  | [], read => (none, [], read)
  | head :: queue, read =>
    if read.bytesLeft = 0 then (none, head :: queue, read)
    else if head.data.length > read.bytesLeft then
      (none, { head with data := head.data.drop read.bytesLeft } :: queue,
        { bytesLeft := 0, data := read.data ++ head.data.take read.bytesLeft })
    else
      let read : PendingRead :=
        { bytesLeft := read.bytesLeft - head.data.length, data := read.data ++ head.data }
      match head.callback with
      | some _ => (some head, queue, read)
      | none => readChunks queue read

/-- What `_getAvailableDataToSend` comes to: a callback interrupts it, or it returns a segment. -/
inductive Available
  | interrupted (read : PendingRead)
  | segment (entry : OffsetDataEntry)
  deriving DecidableEq

/-- The outgoing data of a `DataAndMoneyStream`. -/
structure OutgoingStream where
  outgoingData : List DataQueueEntry := []
  outgoingDataToRetry : List OffsetDataEntry := []
  outgoingOffset : ℕ := 0
  remoteMaxOffset : ℕ := 16384
  deriving DecidableEq

namespace OutgoingStream

variable (s : OutgoingStream)

/-- `_writev`, with its last chunk apart, and `_write` when that is the only one. -/
def write (chunks : List Buffer) (last : Buffer) (callback : ℕ) : OutgoingStream :=
  { s with
    outgoingData := s.outgoingData ++ chunks.map (fun chunk => { data := chunk }) ++
      [{ data := last, callback := some callback }] }

/-- New data is read, on from what was read. -/
def readOn (read : PendingRead) : OutgoingStream × Available :=
  match readChunks s.outgoingData read with
  | (some head, queue, read) => ({ s with outgoingData := head :: queue }, .interrupted read)
  | (none, queue, read) =>
    ({ s with outgoingData := queue, outgoingOffset := s.outgoingOffset + read.data.length },
      .segment { data := read.data, offset := s.outgoingOffset })

/-- `_getAvailableDataToSend`: data that has to be sent again, else new data if the remote can receive
more. -/
def getAvailableDataToSend (size : ℕ) : OutgoingStream × Available :=
  match s.outgoingDataToRetry with
  | toSend :: rest =>
    if toSend.data.length > size then
      ({ s with
         outgoingDataToRetry :=
           { data := toSend.data.drop size, offset := toSend.offset + size } :: rest },
        .segment { data := toSend.data.take size, offset := toSend.offset })
    else ({ s with outgoingDataToRetry := rest }, .segment toSend)
  | [] => s.readOn { bytesLeft := min size (s.remoteMaxOffset - s.outgoingOffset) }

/-- The callback returns: its chunk is taken off the queue, and the read goes on. -/
def callbackReturned (read : PendingRead) : OutgoingStream × Available :=
  readOn { s with outgoingData := s.outgoingData.tail } read

/-- `_resendOutgoingData`. -/
def resendOutgoingData (entry : OffsetDataEntry) : OutgoingStream :=
  { s with outgoingDataToRetry := s.outgoingDataToRetry ++ [entry] }

/-- The peer raises the offset up to which it accepts data. -/
def raiseRemoteMaxOffset (newOffset : ℕ) : OutgoingStream :=
  if newOffset > s.remoteMaxOffset then { s with remoteMaxOffset := newOffset } else s

end OutgoingStream

/-! ### What a read takes off the queue -/

/-- A callback that is due: its number, the offset after the last byte of its chunk, and whether that is
empty. -/
structure Mark where
  callback : ℕ
  endOffset : ℕ
  isEmpty : Bool
  deriving DecidableEq

/-- The mark of an entry that begins at an offset. -/
def DataQueueEntry.marks (offset : ℕ) (e : DataQueueEntry) : List Mark :=
  e.callback.toList.map fun callback => ⟨callback, offset + e.data.length, e.data.isEmpty⟩

/-- The marks of a queue that begins at an offset, in their order. -/
def marks (offset : ℕ) : List DataQueueEntry → List Mark
  | [] => []
  | e :: queue => e.marks offset ++ marks (offset + e.data.length) queue

/-- The bytes of a queue. -/
def bytes (queue : List DataQueueEntry) : Buffer := queue.flatMap DataQueueEntry.data

theorem bytes_append (queue queue' : List DataQueueEntry) : bytes (queue ++ queue') = bytes queue ++ bytes queue' :=
  List.flatMap_append

theorem marks_append (offset : ℕ) (queue queue' : List DataQueueEntry) :
    marks offset (queue ++ queue') = marks offset queue ++ marks (offset + (bytes queue).length) queue' := by
  induction queue generalizing offset with
  | nil => rfl
  | cons e queue ih =>
    have h_length : (bytes (e :: queue)).length = e.data.length + (bytes queue).length := by
      unfold bytes
      rw [List.flatMap_cons, List.length_append]
    rw [List.cons_append, marks, marks, ih, h_length, List.append_assoc, Nat.add_assoc]

/-- **What a read takes off the queue** until a callback interrupts it or it is done: the bytes at its
front, at most as many as asked for, and the first mark at most, which is that of the callback. -/
structure ReadSpec (queue queue' : List DataQueueEntry) (read read' : PendingRead)
    (head : Option DataQueueEntry) : Prop where
  bytes : read.data ++ bytes queue = read'.data ++ Stream.bytes queue'
  length : read'.data.length + read'.bytesLeft = read.data.length + read.bytesLeft
  grows : read.data.length ≤ read'.data.length
  marks : ∀ start, Stream.marks (start + read.data.length) queue =
    (head.toList.flatMap fun e => e.marks (start + read'.data.length - e.data.length)) ++
      Stream.marks (start + read'.data.length) queue'
  le : ∀ e ∈ head, e.data.length ≤ read'.data.length
  callback : ∀ e ∈ head, e.callback.isSome

theorem readChunks_spec (queue : List DataQueueEntry) (read : PendingRead) :
    ReadSpec queue (readChunks queue read).2.1 read (readChunks queue read).2.2
      (readChunks queue read).1 := by
  -- induction on the queue; a read that goes on has fewer bytes left
  induction queue generalizing read with
  | nil => exact ⟨rfl, rfl, Nat.le_refl _, fun _ => rfl, nofun, nofun⟩
  | cons e queue ih =>
    unfold readChunks
    split
    · exact ⟨rfl, rfl, Nat.le_refl _, fun _ => rfl, nofun, nofun⟩
    · next h_left =>
      have h_bytes : read.data ++ bytes (e :: queue) = (read.data ++ e.data) ++ bytes queue := by
        unfold bytes
        rw [List.flatMap_cons, List.append_assoc]
      split
      · -- the first part of a chunk
        next h_long =>
        have h_take : (e.data.take read.bytesLeft).length = read.bytesLeft :=
          List.length_take_of_le (Nat.le_of_lt h_long)
        -- the bytes and their number
        refine ⟨?_, ?_, ?_, fun start => ?_, nofun, nofun⟩
        · rw [h_bytes]
          unfold bytes
          rw [List.flatMap_cons, List.append_assoc, List.append_assoc, ← List.append_assoc (e.data.take _),
            List.take_append_drop]
        · rw [List.length_append, h_take]
          rfl
        · rw [List.length_append]
          exact Nat.le_add_right _ _
        · -- the rest of the chunk ends where the chunk does, so that its mark stays
          change marks _ _ = marks _ _
          have h_end : start + (read.data ++ e.data.take read.bytesLeft).length +
              (e.data.drop read.bytesLeft).length = start + read.data.length + e.data.length := by
            rw [List.length_append, h_take, List.length_drop]
            omega
          have h_nonempty : (e.data.drop read.bytesLeft).isEmpty = e.data.isEmpty := by
            rw [List.isEmpty_eq_false_iff.mpr, List.isEmpty_eq_false_iff.mpr]
            · exact List.ne_nil_of_length_pos (Nat.lt_of_le_of_lt (Nat.zero_le _) h_long)
            · exact List.ne_nil_of_length_pos (List.length_drop ▸ Nat.sub_pos_of_lt h_long)
          unfold marks DataQueueEntry.marks
          rw [h_end, h_nonempty]
      · -- all of a chunk
        next h_short =>
        rw [Nat.not_lt] at h_short
        -- the read has as many bytes as before, counted in two parts
        have h_length : (read.data ++ e.data).length + (read.bytesLeft - e.data.length) =
            read.data.length + read.bytesLeft := by
          rw [List.length_append]
          omega
        have h_grows : read.data.length ≤ (read.data ++ e.data).length := by
          rw [List.length_append]
          exact Nat.le_add_right _ _
        -- the marks of a chunk come before those of the queue behind it
        have h_marks (start : ℕ) : marks (start + read.data.length) (e :: queue) =
            e.marks (start + read.data.length) ++ marks (start + (read.data ++ e.data).length) queue := by
          rw [marks, List.length_append, Nat.add_assoc]
        cases h_callback : e.callback with
        | some callback =>
          -- the loop stops before the callback, and the marks are those of this chunk
          refine ⟨h_bytes, h_length, h_grows, fun start => ?_, ?_, ?_⟩
          · have h_start : start + (read.data ++ e.data).length - e.data.length = start + read.data.length := by
              rw [List.length_append]
              omega
            rw [h_marks, ← h_start]
            exact congrArg (· ++ _) (List.append_nil _).symm
          · intro head h_head
            obtain rfl : e = head := Option.some.inj h_head
            rw [List.length_append]
            exact Nat.le_add_left _ _
          · intro head h_head
            obtain rfl : e = head := Option.some.inj h_head
            rw [h_callback]
            rfl
        | none =>
          -- it goes on with the chunks behind
          have h_rest := ih { bytesLeft := read.bytesLeft - e.data.length, data := read.data ++ e.data }
          refine ⟨h_bytes.trans h_rest.bytes, h_rest.length.trans h_length, h_grows.trans h_rest.grows,
            fun start => ?_, h_rest.le, h_rest.callback⟩
          rw [h_marks]
          unfold DataQueueEntry.marks
          rw [h_callback]
          exact h_rest.marks start

/-! ### What has happened to a stream -/

/-- A callback that was called, with the offset at which the segment of that call begins. -/
structure CallbackRun extends Mark where
  start : ℕ
  deriving DecidableEq

/-- The outgoing data of a stream, with a read that a callback interrupts, and its history: the bytes that
were written and the marks of their callbacks, the callbacks that were called, and the segments that were
handed out, of which `fresh` are those of new data. -/
structure Outgoing where
  stream : OutgoingStream := {}
  read : Option PendingRead := none
  written : Buffer := []
  writes : List Mark := []
  called : List CallbackRun := []
  fresh : List OffsetDataEntry := []
  unanswered : List OffsetDataEntry := []
  acknowledged : List OffsetDataEntry := []
  deriving DecidableEq

/-- What happens to the outgoing data of a stream. A segment that is unanswered is acknowledged or has to
be sent again. -/
inductive OutgoingEvent
  | write (chunks : List Buffer) (last : Buffer)
  | remoteMaxOffset (newOffset : ℕ)
  | getAvailableDataToSend (size : ℕ)
  | callbackReturned
  | acknowledge (i : ℕ)
  | resend (i : ℕ)
  deriving DecidableEq

namespace Outgoing

/-- A callback is called, or a segment is handed out. It is fresh when the offset has moved on. -/
def record (s : Outgoing) : OutgoingStream × Available → Outgoing
  | (stream, .interrupted read) =>
    let due := match stream.outgoingData with
      | [] => []
      | head :: _ => head.marks (stream.outgoingOffset + read.data.length - head.data.length)
    { s with
      stream := stream
      read := some read
      called := s.called ++ due.map fun mark => { mark with start := stream.outgoingOffset } }
  | (stream, .segment entry) =>
    { s with
      stream := stream
      read := none
      fresh := s.fresh ++ if stream.outgoingOffset = s.stream.outgoingOffset then [] else [entry]
      unanswered := s.unanswered ++ if entry.data = [] then [] else [entry] }

/-- One event. A read that is interrupted goes on before another one begins. -/
def step (s : Outgoing) : OutgoingEvent → Option Outgoing
  | .write chunks last =>
    let written := s.written ++ chunks.flatten ++ last
    some
      { s with
        stream := s.stream.write chunks last s.writes.length
        written := written
        writes := s.writes ++ [⟨s.writes.length, written.length, last.isEmpty⟩] }
  | .remoteMaxOffset newOffset => some { s with stream := s.stream.raiseRemoteMaxOffset newOffset }
  | .getAvailableDataToSend size =>
    if 0 < size ∧ s.read.isNone then some (s.record (s.stream.getAvailableDataToSend size)) else none
  | .callbackReturned => s.read.map fun read => s.record (s.stream.callbackReturned read)
  | .acknowledge i =>
    s.unanswered[i]?.map fun entry =>
      { s with unanswered := s.unanswered.eraseIdx i, acknowledged := s.acknowledged ++ [entry] }
  | .resend i =>
    s.unanswered[i]?.map fun entry =>
      { s with
        stream := s.stream.resendOutgoingData entry
        unanswered := s.unanswered.eraseIdx i }

/-- The outgoing data of a stream as an event machine. -/
def machine : Machine Outgoing OutgoingEvent where
  init s := s = {}
  step := step

end Outgoing

/-! ### The books -/

/-- The entry is part of the byte stream that was written. -/
def OffsetDataEntry.IsIn (written : Buffer) (e : OffsetDataEntry) : Prop :=
  (written.drop e.offset).take e.data.length = e.data

/-- The entry has the byte at an offset. -/
def OffsetDataEntry.covers (n : ℕ) (e : OffsetDataEntry) : Bool := e.offset ≤ n ∧ n < e.endOffset

/-- Each entry begins where the one before ends. -/
def Consecutive : ℕ → List OffsetDataEntry → ℕ → Prop
  | start, [], stop => start = stop
  | start, e :: es, stop => e.offset = start ∧ Consecutive e.endOffset es stop

/-- Bytes written later change nothing about a segment. -/
theorem OffsetDataEntry.IsIn.append {written : Buffer} {e : OffsetDataEntry} (h : e.IsIn written)
    (h_end : e.endOffset ≤ written.length) (written' : Buffer) : e.IsIn (written ++ written') := by
  unfold IsIn endOffset at *
  rw [List.drop_append_of_le_length (by omega), List.take_append_of_le_length (by rw [List.length_drop]; omega)]
  exact h

theorem Consecutive.append {start stop : ℕ} {es : List OffsetDataEntry} (h : Consecutive start es stop)
    {e : OffsetDataEntry} (h_offset : e.offset = stop) : Consecutive start (es ++ [e]) e.endOffset := by
  induction es generalizing start with
  | nil =>
    obtain rfl : start = stop := h
    exact ⟨h_offset, rfl⟩
  | cons e' es ih => exact ⟨h.1, ih h.2⟩

namespace Outgoing

variable {s t : Outgoing}

/-- The segments that were handed out and those to be handed out again. -/
def segments (s : Outgoing) : List OffsetDataEntry :=
  s.stream.outgoingDataToRetry ++ s.unanswered ++ s.acknowledged

/-- **The books** of a stream from which some bytes are taken that are not handed out yet, with the queue
behind these and the number of bytes that may be taken in all. -/
structure Books (s : Outgoing) (queue : List DataQueueEntry) (taken : Buffer) (budget : ℕ) : Prop where
  queued : s.written.drop s.stream.outgoingOffset = taken ++ bytes queue
  offset_le : s.stream.outgoingOffset ≤ s.written.length
  limit : s.stream.outgoingOffset + budget ≤ s.stream.remoteMaxOffset
  writes : s.writes =
    s.called.map CallbackRun.toMark ++ marks (s.stream.outgoingOffset + taken.length) queue
  numbers : s.writes.map Mark.callback = List.range s.writes.length
  segments : ∀ e ∈ s.segments, e.IsIn s.written ∧ e.endOffset ≤ s.stream.outgoingOffset
  fresh : ∀ e ∈ s.fresh, e.IsIn s.written ∧ e.endOffset ≤ s.stream.outgoingOffset
  consecutive : Consecutive 0 s.fresh s.stream.outgoingOffset
  cover : ∀ n, s.segments.countP (OffsetDataEntry.covers n) =
    if n < s.stream.outgoingOffset then 1 else 0
  passed : ∀ c ∈ s.called, c.endOffset ≤ s.stream.outgoingOffset + taken.length
  called : ∀ c ∈ s.called, c.isEmpty = false → c.start < c.endOffset ∧
    (c.start = s.stream.outgoingOffset ∧ c.endOffset ≤ s.stream.outgoingOffset + taken.length ∨
      ∃ e ∈ s.fresh, e.offset = c.start ∧ c.endOffset ≤ e.endOffset)

/-- The bytes that an interrupted read has taken. -/
def taken (s : Outgoing) : Buffer := (s.read.map PendingRead.data).getD []

/-- The number of bytes that it may take. -/
def budget (s : Outgoing) : ℕ := (s.read.map fun read => read.data.length + read.bytesLeft).getD 0

/-- The queue behind these: the entry whose callback is called is still at its head. -/
def queue (s : Outgoing) : List DataQueueEntry :=
  if s.read.isSome then s.stream.outgoingData.tail else s.stream.outgoingData

/-- The books between two events. -/
structure Sound (s : Outgoing) : Prop where
  books : Books s s.queue s.taken s.budget
  head : s.read.isSome → s.stream.outgoingData ≠ []

theorem Sound.initial : Sound {} where
  books :=
    { queued := rfl
      offset_le := Nat.le_refl 0
      limit := Nat.zero_le _
      writes := rfl
      numbers := rfl
      segments := nofun
      fresh := nofun
      consecutive := rfl
      cover := fun _ => rfl
      passed := nofun
      called := nofun }
  head := nofun

/-- **The segment that was read is handed out.** -/
theorem Books.handOut {queue queue' : List DataQueueEntry} {data data' : Buffer} {budget : ℕ}
    (h : Books s queue data budget)
    (h_queued : s.written.drop s.stream.outgoingOffset = data' ++ bytes queue')
    (h_writes : s.writes = s.called.map CallbackRun.toMark ++
      marks (s.stream.outgoingOffset + data'.length) queue')
    (h_grows : data.length ≤ data'.length)
    (h_limit : s.stream.outgoingOffset + data'.length ≤ s.stream.remoteMaxOffset) :
    Books
      (s.record
        ({ s.stream with
           outgoingData := queue'
           outgoingOffset := s.stream.outgoingOffset + data'.length },
          .segment { data := data', offset := s.stream.outgoingOffset }))
      queue' [] 0 := by
  -- what was written is what was handed out, this segment and the queue
  have h_total : s.written.length = s.stream.outgoingOffset + (data'.length + (bytes queue').length) := by
    have h_length := congrArg List.length h_queued
    rw [List.length_drop, List.length_append] at h_length
    have h_le := h.offset_le
    omega
  by_cases h_empty : data' = []
  · -- no new data
    subst h_empty
    -- then nothing was read
    have h_data : data = [] := List.eq_nil_of_length_eq_zero (Nat.le_zero.mp h_grows)
    subst h_data
    -- the offset stays, so that the segment is not in the books
    have h_same : s.record
        ({ s.stream with
           outgoingData := queue'
           outgoingOffset := s.stream.outgoingOffset + ([] : Buffer).length },
          .segment { data := [], offset := s.stream.outgoingOffset }) =
        { s with stream := { s.stream with outgoingData := queue' }, read := none } := by
      change { s with
        stream := { s.stream with outgoingData := queue' }
        read := none
        fresh := s.fresh ++ if s.stream.outgoingOffset = s.stream.outgoingOffset then [] else _
        unanswered := s.unanswered ++ [] } = _
      rw [if_pos rfl, List.append_nil, List.append_nil]
    rw [h_same]
    exact { h with queued := h_queued, writes := h_writes, limit := h_limit }
  · -- a new segment
    have h_pos : 0 < data'.length := List.length_pos_iff.mpr h_empty
    -- it has the bytes that come next
    let entry : OffsetDataEntry := { data := data', offset := s.stream.outgoingOffset }
    have h_end : entry.endOffset = s.stream.outgoingOffset + data'.length := rfl
    -- the offset moves, so that the segment is fresh, and unanswered
    have h_same : s.record
        ({ s.stream with
           outgoingData := queue'
           outgoingOffset := s.stream.outgoingOffset + data'.length }, .segment entry) =
        { s with
          stream :=
            { s.stream with
              outgoingData := queue'
              outgoingOffset := s.stream.outgoingOffset + data'.length }
          read := none
          fresh := s.fresh ++ [entry]
          unanswered := s.unanswered ++ [entry] } := by
      have h_moved : s.stream.outgoingOffset + data'.length ≠ s.stream.outgoingOffset := by omega
      unfold Outgoing.record
      simp only
      rw [if_neg h_moved, if_neg h_empty]
    -- what follows is what the books say of the new segment
    have h_isIn : entry.IsIn s.written := by
      change (s.written.drop s.stream.outgoingOffset).take data'.length = data'
      rw [h_queued]
      exact List.take_left
    -- what ended before the old offset ends before the new one
    have h_grown {e : OffsetDataEntry} (h_e : e.endOffset ≤ s.stream.outgoingOffset) :
        e.endOffset ≤ s.stream.outgoingOffset + data'.length :=
      Nat.le_trans h_e (Nat.le_add_right _ _)
    -- the segments are the old ones and this one
    have h_perm : (s.stream.outgoingDataToRetry ++ (s.unanswered ++ [entry]) ++ s.acknowledged).Perm
        (entry :: s.segments) := by
      unfold Outgoing.segments
      rw [← List.append_assoc, List.append_assoc _ [entry]]
      exact List.perm_middle
    rw [h_same]
    exact
      -- field by field; the order of callbacks and of segments is as before
      { queued := by
          change s.written.drop (s.stream.outgoingOffset + data'.length) = bytes queue'
          rw [← List.drop_drop, h_queued]
          exact List.drop_left
        offset_le := by
          change s.stream.outgoingOffset + data'.length ≤ s.written.length
          rw [h_total]
          omega
        limit := h_limit
        writes := h_writes
        numbers := h.numbers
        segments := fun e h_e => by
          rcases List.mem_cons.mp (h_perm.mem_iff.mp h_e) with rfl | h_old
          · exact ⟨h_isIn, Nat.le_of_eq h_end⟩
          · obtain ⟨h_in, h_le⟩ := h.segments e h_old
            exact ⟨h_in, h_grown h_le⟩
        fresh := fun e h_e => by
          rcases List.mem_append.mp h_e with h_old | h_new
          · obtain ⟨h_in, h_le⟩ := h.fresh e h_old
            exact ⟨h_in, h_grown h_le⟩
          · rw [List.mem_singleton.mp h_new]
            exact ⟨h_isIn, Nat.le_of_eq h_end⟩
        consecutive := h.consecutive.append rfl
        cover := fun n => by
          -- a byte below the new offset is in an old segment, or in this one
          refine (h_perm.countP_eq _).trans ?_
          have h_covers : entry.covers n = true ↔
              s.stream.outgoingOffset ≤ n ∧ n < s.stream.outgoingOffset + data'.length := decide_eq_true_iff
          change _ = if n < s.stream.outgoingOffset + data'.length then 1 else 0
          rw [List.countP_cons, h.cover]
          simp only [h_covers]
          split_ifs <;> omega
        passed := fun c h_c => (h.passed c h_c).trans (Nat.add_le_add_left h_grows _)
        called := fun c h_c h_nonempty => by
          -- a callback that ran during this read has its chunk in this segment
          obtain ⟨h_lt, h_where⟩ := h.called c h_c h_nonempty
          refine ⟨h_lt, .inr ?_⟩
          rcases h_where with ⟨h_start, h_le⟩ | ⟨e, h_e, h_at⟩
          · refine ⟨entry, List.mem_append_right _ (List.mem_singleton_self _), h_start.symm, ?_⟩
            rw [h_end]
            exact h_le.trans (Nat.add_le_add_left h_grows _)
          · exact ⟨e, List.mem_append_left _ h_e, h_at⟩ }

/-- **A read goes on** until a callback interrupts it or the segment is handed out. -/
theorem Books.readOn {read : PendingRead}
    (h : Books s s.stream.outgoingData read.data (read.data.length + read.bytesLeft)) :
    Sound (s.record (s.stream.readOn read)) := by
  have h_spec := readChunks_spec s.stream.outgoingData read
  unfold OutgoingStream.readOn
  rcases h_read : readChunks s.stream.outgoingData read with ⟨_ | head, queue', read'⟩
  · -- the segment is handed out
    rw [h_read] at h_spec
    obtain ⟨h_bytes, h_length, h_grows, h_marks, -, -⟩ : ReadSpec _ queue' _ read' none := h_spec
    -- the marks of the queue that is left follow those of the callbacks
    have h_writes := h.writes
    rw [h_marks] at h_writes
    -- the read stays within its budget
    have h_limit := h.limit
    rw [← h_length] at h_limit
    have h_end : s.stream.outgoingOffset + read'.data.length ≤ s.stream.remoteMaxOffset :=
      (Nat.add_le_add_left (Nat.le_add_right _ _) _).trans h_limit
    exact ⟨h.handOut (h.queued.trans h_bytes) h_writes h_grows h_end, nofun⟩
  · -- a callback interrupts it
    rw [h_read] at h_spec
    obtain ⟨h_bytes, h_length, h_grows, h_marks, h_le, -⟩ : ReadSpec _ queue' _ read' (some head) := h_spec
    -- the chunk of the callback ends where the read stands
    have h_head : head.data.length ≤ read'.data.length := h_le head rfl
    have h_due : s.stream.outgoingOffset + read'.data.length - head.data.length + head.data.length =
        s.stream.outgoingOffset + read'.data.length :=
      Nat.sub_add_cancel (Nat.le_trans h_head (Nat.le_add_left _ _))
    have h_writes := h.writes
    rw [h_marks] at h_writes
    refine ⟨?_, fun _ => List.cons_ne_nil _ _⟩
    exact
      { queued := h.queued.trans h_bytes
        offset_le := h.offset_le
        limit := by
          change _ + (read'.data.length + read'.bytesLeft) ≤ _
          rw [h_length]
          exact h.limit
        writes := by
          change s.writes = (s.called ++ _).map _ ++ marks (s.stream.outgoingOffset + read'.data.length) queue'
          rw [h_writes, List.map_append, List.map_map, List.append_assoc]
          -- the callbacks that ran and those of the queue are still all writes, in order
          have h_same : (CallbackRun.toMark ∘ fun mark : Mark =>
              ({ mark with start := s.stream.outgoingOffset } : CallbackRun)) = id := rfl
          have h_flat : ([head].flatMap fun e =>
              e.marks (s.stream.outgoingOffset + read'.data.length - e.data.length)) =
                head.marks (s.stream.outgoingOffset + read'.data.length - head.data.length) :=
            List.append_nil _
          rw [h_same, List.map_id]
          exact congrArg (fun due => s.called.map CallbackRun.toMark ++ (due ++ marks _ queue')) h_flat
        numbers := h.numbers
        segments := h.segments
        fresh := h.fresh
        consecutive := h.consecutive
        cover := h.cover
        passed := fun c h_c => by
          -- the chunks of earlier callbacks end before it
          rcases List.mem_append.mp h_c with h_old | h_new
          · exact (h.passed c h_old).trans (Nat.add_le_add_left h_grows _)
          · obtain ⟨mark, h_mark, rfl⟩ := List.mem_map.mp h_new
            obtain ⟨n, -, rfl⟩ := List.mem_map.mp h_mark
            exact Nat.le_of_eq h_due
        called := fun c h_c h_nonempty => by
          rcases List.mem_append.mp h_c with h_old | h_new
          · obtain ⟨h_lt, h_where⟩ := h.called c h_old h_nonempty
            refine ⟨h_lt, h_where.imp_left fun ⟨h_start, h_end⟩ => ⟨h_start, h_end.trans ?_⟩⟩
            exact Nat.add_le_add_left h_grows _
          · -- the callback of the chunk that was taken last
            obtain ⟨mark, h_mark, rfl⟩ := List.mem_map.mp h_new
            obtain ⟨n, -, rfl⟩ := List.mem_map.mp h_mark
            have h_pos : 0 < head.data.length :=
              List.length_pos_iff.mpr (List.isEmpty_eq_false_iff.mp h_nonempty)
            refine ⟨?_, .inl ⟨rfl, Nat.le_of_eq h_due⟩⟩
            change s.stream.outgoingOffset < _ - _ + _
            rw [h_due]
            omega }

/-- An interrupted read goes on when the callback returns. -/
theorem Sound.callbackReturned {read : PendingRead} (h : Sound s) (h_read : s.read = some read) :
    Sound (s.record (s.stream.callbackReturned read)) := by
  have h_books := h.books
  unfold queue taken budget at h_books
  rw [h_read] at h_books
  -- the entry whose callback has returned is taken off
  have h_shifted : Books { s with stream := { s.stream with outgoingData := s.stream.outgoingData.tail } }
      s.stream.outgoingData.tail read.data (read.data.length + read.bytesLeft) :=
    { h_books with }
  exact h_shifted.readOn

/-- Segments change their place, or are cut in two. -/
theorem Sound.of_segments (h : Sound s) (retry unanswered acknowledged : List OffsetDataEntry)
    (h_segments : ∀ e ∈ retry ++ unanswered ++ acknowledged,
      e.IsIn s.written ∧ e.endOffset ≤ s.stream.outgoingOffset)
    (h_cover : ∀ n, (retry ++ unanswered ++ acknowledged).countP (OffsetDataEntry.covers n) =
      s.segments.countP (OffsetDataEntry.covers n)) :
    Sound { s with
      stream := { s.stream with outgoingDataToRetry := retry }
      unanswered := unanswered
      acknowledged := acknowledged } where
  books :=
    { h.books with
      segments := h_segments
      cover := fun n => (h_cover n).trans (h.books.cover n) }
  head := h.head

theorem Sound.of_perm (h : Sound s) (retry unanswered acknowledged : List OffsetDataEntry)
    (h_perm : (retry ++ unanswered ++ acknowledged).Perm s.segments) :
    Sound { s with
      stream := { s.stream with outgoingDataToRetry := retry }
      unanswered := unanswered
      acknowledged := acknowledged } :=
  h.of_segments retry unanswered acknowledged
    (fun e h_e => h.books.segments e (h_perm.mem_iff.mp h_e)) fun _ => h_perm.countP_eq _

/-- A segment that is handed out again, of which more may be left. -/
theorem Sound.handOutAgain (h : Sound s) (h_read : s.read = none) {toSend first : OffsetDataEntry}
    {rest left : List OffsetDataEntry} (h_retry : s.stream.outgoingDataToRetry = toSend :: rest)
    (h_segments : ∀ e ∈ first :: left, e.IsIn s.written ∧ e.endOffset ≤ s.stream.outgoingOffset)
    (h_cover : ∀ n, (first :: left).countP (OffsetDataEntry.covers n) =
      [toSend].countP (OffsetDataEntry.covers n)) :
    Sound (s.record ({ s.stream with outgoingDataToRetry := left ++ rest }, .segment first)) := by
  -- the offset does not move, so that the segment is not fresh
  have h_same : s.record ({ s.stream with outgoingDataToRetry := left ++ rest }, .segment first) =
      { s with
        stream := { s.stream with outgoingDataToRetry := left ++ rest }
        unanswered := s.unanswered ++ if first.data = [] then [] else [first]
        acknowledged := s.acknowledged } := by
    change { s with
      stream := { s.stream with outgoingDataToRetry := left ++ rest }
      read := none
      fresh := s.fresh ++ if s.stream.outgoingOffset = s.stream.outgoingOffset then [] else [first]
      unanswered := s.unanswered ++ if first.data = [] then [] else [first] } = _
    rw [if_pos rfl, List.append_nil, ← h_read]
  -- no byte is in a segment without data
  have h_empty (n : ℕ) : (if first.data = [] then [] else [first]).countP (OffsetDataEntry.covers n) =
      [first].countP (OffsetDataEntry.covers n) := by
    split
    · next h_nil =>
      rw [List.countP_cons, List.countP_nil, if_neg]
      intro h_covers
      have h_bounds := of_decide_eq_true h_covers
      unfold OffsetDataEntry.endOffset at h_bounds
      rw [h_nil, List.length_nil] at h_bounds
      omega
    · rfl
  rw [h_same]
  refine h.of_segments _ _ _ ?_ ?_
  · -- every segment is an old one, or a part of the one that is handed out
    intro e h_e
    have h_old {e : OffsetDataEntry} (h_mem : e ∈ rest ++ s.unanswered ++ s.acknowledged) :
        e ∈ s.segments := by
      unfold Outgoing.segments
      rw [h_retry]
      exact List.mem_cons_of_mem _ h_mem
    simp only [List.mem_append] at h_e h_old
    rcases h_e with ((h_left | h_rest) | h_unanswered | h_first) | h_acknowledged
    · exact h_segments e (List.mem_cons_of_mem _ h_left)
    · exact h.books.segments e (h_old (.inl (.inl h_rest)))
    · exact h.books.segments e (h_old (.inl (.inr h_unanswered)))
    · split at h_first
      · cases h_first
      · rw [List.mem_singleton.mp h_first]
        exact h_segments first List.mem_cons_self
    · exact h.books.segments e (h_old (.inr h_acknowledged))
  · -- each byte is counted once, as before
    intro n
    have h_count := h_cover n
    unfold Outgoing.segments
    rw [h_retry, List.countP_cons] at *
    simp only [List.countP_append, List.countP_cons, List.countP_nil, h_empty] at h_count ⊢
    omega

/-- A segment is handed out again, or its first part is. -/
theorem Sound.retry (h : Sound s) (h_read : s.read = none) {toSend : OffsetDataEntry}
    {rest : List OffsetDataEntry} (h_retry : s.stream.outgoingDataToRetry = toSend :: rest) (size : ℕ) :
    Sound (s.record (s.stream.getAvailableDataToSend size)) := by
  -- it is a segment that was handed out before
  have h_mem : toSend ∈ s.segments := by
    unfold Outgoing.segments
    rw [h_retry]
    exact List.mem_cons_self
  obtain ⟨h_in, h_end⟩ := h.books.segments toSend h_mem
  unfold OutgoingStream.getAvailableDataToSend
  rw [h_retry]
  simp only
  split
  · -- the first part of it
    next h_long =>
    -- it is cut in two, and the second part stays at the head of the queue
    let first : OffsetDataEntry := { data := toSend.data.take size, offset := toSend.offset }
    let second : OffsetDataEntry := { data := toSend.data.drop size, offset := toSend.offset + size }
    have h_first : first.endOffset = toSend.offset + size := by
      change toSend.offset + (toSend.data.take size).length = _
      rw [List.length_take_of_le (Nat.le_of_lt h_long)]
    have h_second : second.endOffset = toSend.endOffset := by
      change toSend.offset + size + (toSend.data.drop size).length = toSend.offset + toSend.data.length
      rw [List.length_drop]
      omega
    have h_size : toSend.offset + size ≤ toSend.endOffset :=
      Nat.add_le_add_left (Nat.le_of_lt h_long) _
    have h_again : Sound (s.record ({ s.stream with outgoingDataToRetry := [second] ++ rest }, .segment first)) := by
      refine h.handOutAgain h_read h_retry ?_ ?_
      · -- each part has its bytes
        intro e h_e
        rcases List.mem_cons.mp h_e with rfl | h_e
        · refine ⟨?_, h_first ▸ h_size.trans h_end⟩
          change (s.written.drop toSend.offset).take (toSend.data.take size).length = toSend.data.take size
          rw [List.length_take, ← List.take_take, h_in]
        · rw [List.mem_singleton.mp h_e]
          refine ⟨?_, h_second ▸ h_end⟩
          change (s.written.drop (toSend.offset + size)).take (toSend.data.drop size).length =
            toSend.data.drop size
          rw [← List.drop_drop, List.length_drop, ← List.drop_take, h_in]
      · -- and they share none
        intro n
        have h_covers_first : first.covers n = true ↔ toSend.offset ≤ n ∧ n < toSend.offset + size := by
          rw [← h_first]
          exact decide_eq_true_iff
        have h_covers_second : second.covers n = true ↔ toSend.offset + size ≤ n ∧ n < toSend.endOffset := by
          rw [← h_second]
          exact decide_eq_true_iff
        have h_covers : toSend.covers n = true ↔ toSend.offset ≤ n ∧ n < toSend.endOffset :=
          decide_eq_true_iff
        simp only [List.countP_cons, List.countP_nil, h_covers_first, h_covers_second, h_covers]
        split_ifs <;> omega
    exact h_again
  · -- all of it
    have h_again : Sound (s.record ({ s.stream with outgoingDataToRetry := [] ++ rest }, .segment toSend)) := by
      refine h.handOutAgain h_read h_retry ?_ fun n => rfl
      intro e h_e
      rw [List.mem_singleton.mp h_e]
      exact ⟨h_in, h_end⟩
    exact h_again

/-- **Data is asked for**. -/
theorem Sound.getAvailableDataToSend (h : Sound s) (h_read : s.read = none) (size : ℕ) :
    Sound (s.record (s.stream.getAvailableDataToSend size)) := by
  cases h_retry : s.stream.outgoingDataToRetry with
  | cons toSend rest => exact h.retry h_read h_retry size
  | nil =>
    have h_books := h.books
    unfold queue taken budget at h_books
    rw [h_read] at h_books
    have h_start : s.stream.getAvailableDataToSend size =
        s.stream.readOn { bytesLeft := min size (s.stream.remoteMaxOffset - s.stream.outgoingOffset) } := by
      unfold OutgoingStream.getAvailableDataToSend
      rw [h_retry]
    rw [h_start]
    refine Books.readOn { h_books with limit := ?_ }
    have h_limit : s.stream.outgoingOffset + 0 ≤ s.stream.remoteMaxOffset := h_books.limit
    change s.stream.outgoingOffset + (0 + min size _) ≤ s.stream.remoteMaxOffset
    omega

/-- Chunks without callbacks have no marks. -/
theorem marks_chunks (offset : ℕ) (chunks : List Buffer) :
    marks offset (chunks.map fun chunk => { data := chunk }) = [] := by
  induction chunks generalizing offset with
  | nil => rfl
  | cons chunk chunks ih => exact ih _

theorem bytes_chunks (chunks : List Buffer) : bytes (chunks.map fun chunk => { data := chunk }) = chunks.flatten := by
  unfold bytes
  rw [List.flatMap_map, List.flatMap_id']

/-- **Chunks are written.** -/
theorem Sound.write (h : Sound s) (chunks : List Buffer) (last : Buffer)
    (h_step : s.step (.write chunks last) = some t) : Sound t := by
  obtain rfl := Option.some.inj h_step
  -- the chunks follow one another, and the last entry has the callback
  let new : List DataQueueEntry :=
    chunks.map (fun chunk => { data := chunk }) ++ [{ data := last, callback := some s.writes.length }]
  have h_new : bytes new = chunks.flatten ++ last := by
    rw [bytes_append, bytes_chunks]
    exact congrArg (chunks.flatten ++ ·) (List.append_nil last)
  -- the first byte of them has as number how many there were before
  have h_length : s.stream.outgoingOffset + s.taken.length + (bytes s.queue).length = s.written.length := by
    -- during a read the head of the queue belongs to the callback, so that they go behind it
    have h_queued := congrArg List.length h.books.queued
    rw [List.length_drop, List.length_append] at h_queued
    have h_le := h.books.offset_le
    omega
  have h_queue : (if s.read.isSome then (s.stream.write chunks last s.writes.length).outgoingData.tail
      else (s.stream.write chunks last s.writes.length).outgoingData) = s.queue ++ new := by
    have h_written : (s.stream.write chunks last s.writes.length).outgoingData = s.stream.outgoingData ++ new :=
      List.append_assoc ..
    unfold queue
    rw [h_written]
    split
    · next h_read => exact List.tail_append_of_ne_nil (h.head h_read)
    · rfl
  -- a segment keeps its bytes, since what is written goes behind
  have h_in {e : OffsetDataEntry} (h_e : e.IsIn s.written ∧ e.endOffset ≤ s.stream.outgoingOffset) :
      e.IsIn (s.written ++ chunks.flatten ++ last) ∧ e.endOffset ≤ s.stream.outgoingOffset := by
    have h_end := h_e.2.trans h.books.offset_le
    rw [List.append_assoc]
    exact ⟨h_e.1.append h_end _, h_e.2⟩
  refine ⟨?_, fun _ => ?_⟩
  · exact
      { queued := by
          change (s.written ++ chunks.flatten ++ last).drop s.stream.outgoingOffset = s.taken ++ bytes (if _ then _ else _)
          rw [h_queue, bytes_append, h_new, List.append_assoc s.written,
            List.drop_append_of_le_length h.books.offset_le, h.books.queued, List.append_assoc]
        offset_le := by
          change s.stream.outgoingOffset ≤ (s.written ++ chunks.flatten ++ last).length
          rw [List.append_assoc, List.length_append]
          exact h.books.offset_le.trans (Nat.le_add_right _ _)
        limit := h.books.limit
        writes := by
          change s.writes ++ [_] = s.called.map CallbackRun.toMark ++
            marks (s.stream.outgoingOffset + s.taken.length) (if _ then _ else _)
          rw [h_queue, marks_append, ← List.append_assoc, ← h.books.writes, h_length, marks_append,
            marks_chunks, bytes_chunks, List.append_assoc s.written, List.length_append, List.length_append,
            ← Nat.add_assoc]
          rfl
        numbers := by
          -- callbacks are numbered by their writes
          have h_count (mark : Mark) : (s.writes ++ [mark]).length = s.writes.length + 1 := List.length_append
          change (s.writes ++ [_]).map Mark.callback = List.range (s.writes ++ [_]).length
          rw [List.map_append, h.books.numbers, h_count, List.range_succ]
          rfl
        segments := fun e h_e => h_in (h.books.segments e h_e)
        fresh := fun e h_e => h_in (h.books.fresh e h_e)
        consecutive := h.books.consecutive
        cover := h.books.cover
        passed := h.books.passed
        called := h.books.called }
  · exact List.append_ne_nil_of_right_ne_nil _ (List.cons_ne_nil _ _)

/-- The peer accepts more data. -/
theorem Sound.raiseRemoteMaxOffset (h : Sound s) (newOffset : ℕ) :
    Sound { s with stream := s.stream.raiseRemoteMaxOffset newOffset } := by
  unfold OutgoingStream.raiseRemoteMaxOffset
  split
  · next h_more =>
    exact ⟨{ h.books with limit := h.books.limit.trans (Nat.le_of_lt h_more) }, h.head⟩
  · exact h

/-- **Each event** keeps the books. -/
theorem Sound.step {e : OutgoingEvent} (h : Sound s) (h_step : s.step e = some t) : Sound t := by
  cases e with
  | write chunks last => exact h.write chunks last h_step
  | remoteMaxOffset newOffset =>
    obtain rfl := Option.some.inj h_step
    exact h.raiseRemoteMaxOffset newOffset
  | getAvailableDataToSend size =>
    simp only [Outgoing.step] at h_step
    split at h_step
    · next h_idle =>
      obtain rfl := Option.some.inj h_step
      exact h.getAvailableDataToSend (Option.isNone_iff_eq_none.mp h_idle.2) size
    · cases h_step
  | callbackReturned =>
    obtain ⟨read, h_read, rfl⟩ := Option.map_eq_some_iff.mp h_step
    exact h.callbackReturned h_read
  | acknowledge i =>
    -- the segment is no longer unanswered, but acknowledged
    obtain ⟨entry, h_get, rfl⟩ := Option.map_eq_some_iff.mp h_step
    refine h.of_perm s.stream.outgoingDataToRetry _ _ ?_
    have h_perm := perm_cons_eraseIdx h_get
    unfold segments
    calc s.stream.outgoingDataToRetry ++ s.unanswered.eraseIdx i ++ (s.acknowledged ++ [entry])
        _ = (s.stream.outgoingDataToRetry ++ s.unanswered.eraseIdx i ++ s.acknowledged) ++ [entry] :=
          (List.append_assoc ..).symm
        List.Perm _ (entry :: (s.stream.outgoingDataToRetry ++ s.unanswered.eraseIdx i ++ s.acknowledged)) :=
          List.perm_append_singleton ..
        List.Perm _ (s.stream.outgoingDataToRetry ++ (entry :: s.unanswered.eraseIdx i) ++ s.acknowledged) :=
          List.perm_middle.symm.append_right s.acknowledged
        List.Perm _ (s.stream.outgoingDataToRetry ++ s.unanswered ++ s.acknowledged) :=
          (h_perm.symm.append_left _).append_right _
  | resend i =>
    -- the segment goes back to be sent again
    obtain ⟨entry, h_get, rfl⟩ := Option.map_eq_some_iff.mp h_step
    refine h.of_perm (s.stream.outgoingDataToRetry ++ [entry]) _ _ ?_
    have h_perm := perm_cons_eraseIdx h_get
    unfold segments
    rw [List.append_assoc s.stream.outgoingDataToRetry]
    exact (h_perm.symm.append_left _).append_right _

theorem Sound.of_reach (h : machine.Reachable s) : Sound s := by
  refine h.invariant Sound ?_ ?_
  · rintro s rfl
    exact .initial
  · intro s e t _ h_s h_t
    exact h_s.step h_t

end Outgoing

/-- A mark that is due ends behind where the queue begins. -/
theorem lt_of_mem_marks {offset : ℕ} {queue : List DataQueueEntry} {mark : Mark}
    (h : mark ∈ marks offset queue) (h_nonempty : mark.isEmpty = false) : offset < mark.endOffset := by
  induction queue generalizing offset with
  | nil => cases h
  | cons e queue ih =>
    rcases List.mem_append.mp h with h_first | h_rest
    · obtain ⟨n, -, rfl⟩ := List.mem_map.mp h_first
      have h_pos : 0 < e.data.length :=
        List.length_pos_iff.mpr (List.isEmpty_eq_false_iff.mp h_nonempty)
      exact Nat.lt_add_of_pos_right h_pos
    · exact Nat.lt_of_le_of_lt (Nat.le_add_right _ _) (ih h_rest)

/-- **The sending side of a stream loses and invents no data**, whatever is written, also from within a
callback, whatever sizes are asked for, and whichever segments are acknowledged or have to be sent again.

Each segment is what was written at its offset. The new ones follow one another up to the offset, which
stays within what the peer accepts, and each byte before it is in exactly one of the segments that wait to
be sent again, are unanswered or were acknowledged. A callback runs once at most, in the order of the
writes, when all of its chunk is taken; if that has a last byte, the call that hands out the byte runs it. -/
theorem outgoing_data_is_kept {s : Outgoing} (h : Outgoing.machine.Reachable s) :
    (∀ e ∈ s.fresh ++ s.segments, e.IsIn s.written) ∧
    Consecutive 0 s.fresh s.stream.outgoingOffset ∧
    (∀ n, s.segments.countP (OffsetDataEntry.covers n) = if n < s.stream.outgoingOffset then 1 else 0) ∧
    s.stream.outgoingOffset ≤ s.stream.remoteMaxOffset ∧
    (s.called.map fun c => c.callback).Nodup ∧
    s.called.map CallbackRun.toMark <+: s.writes ∧
    (∀ c ∈ s.called, c.endOffset ≤ s.stream.outgoingOffset + s.taken.length) ∧
    (∀ c ∈ s.called, c.isEmpty = false → c.start < c.endOffset ∧
      (c.start = s.stream.outgoingOffset ∧ c.endOffset ≤ s.stream.outgoingOffset + s.taken.length ∨
        ∃ e ∈ s.fresh, e.offset = c.start ∧ c.endOffset ≤ e.endOffset)) ∧
    ∀ mark ∈ s.writes, mark ∉ s.called.map CallbackRun.toMark → mark.isEmpty = false →
      s.stream.outgoingOffset + s.taken.length < mark.endOffset := by
  -- all of it is in the books
  have h_books := (Outgoing.Sound.of_reach h).books
  have h_initial : s.called.map CallbackRun.toMark <+: s.writes := ⟨_, h_books.writes.symm⟩
  refine ⟨?_, h_books.consecutive, h_books.cover, ?_, ?_, h_initial, h_books.passed, h_books.called, ?_⟩
  · intro e h_e
    rcases List.mem_append.mp h_e with h_fresh | h_segment
    · exact (h_books.fresh e h_fresh).1
    · exact (h_books.segments e h_segment).1
  · exact Nat.le_trans (Nat.le_add_right _ _) h_books.limit
  · -- the callbacks have the numbers of the writes, in order
    have h_nodup : (s.writes.map Mark.callback).Nodup := h_books.numbers ▸ List.nodup_range
    have h_sublist := h_initial.sublist.map Mark.callback
    rw [List.map_map] at h_sublist
    exact h_nodup.sublist h_sublist
  · intro mark h_mark h_due h_nonempty
    -- a mark that is left is one of the queue
    rw [h_books.writes] at h_mark
    exact lt_of_mem_marks ((List.mem_append.mp h_mark).resolve_left h_due) h_nonempty

/-- A chunk in two segments, the second of which ends with what its callback wrote; the first is rejected
and sent again in two. -/
theorem outgoing_data_is_kept_cut :
    ∃ s, Outgoing.machine.Reachable s ∧ s.written = [1, 2, 3, 4] ∧ s.stream.outgoingOffset = 4 ∧
      s.segments.countP (OffsetDataEntry.covers 1) = 1 ∧ (s.called.map fun c => c.callback) = [0, 1] := by
  have h_exec : (Outgoing.machine.exec (fun _ _ => True) {}
      [.write [[1]] [2, 3], .getAvailableDataToSend 2, .getAvailableDataToSend 5, .write [] [4],
        .callbackReturned, .callbackReturned, .resend 0, .getAvailableDataToSend 1,
        .getAvailableDataToSend 1]).map
      (fun s => (s.written, s.stream.outgoingOffset, s.called.map fun c => c.callback)) =
        some ([1, 2, 3, 4], 4, [0, 1]) := by
    decide +kernel
  obtain ⟨s, h_exec, h_end⟩ := Option.map_eq_some_iff.mp h_exec
  simp only [Prod.mk.injEq] at h_end
  obtain ⟨h_written, h_offset, h_called⟩ := h_end
  have h := Machine.reach_of_exec _ rfl h_exec
  refine ⟨s, h, h_written, h_offset, ?_, h_called⟩
  rw [(outgoing_data_is_kept h).2.2.1 1, h_offset]
  rfl

/-! ### The queue of a stream without callbacks -/

/-- `_getAvailableDataToSend` returns a segment, when the callbacks that interrupt it do nothing but
return. -/
inductive Returns : OutgoingStream × Available → OutgoingStream → OffsetDataEntry → Prop
  | segment (stream : OutgoingStream) (entry : OffsetDataEntry) : Returns (stream, .segment entry) stream entry
  | returned {stream stream' : OutgoingStream} {read : PendingRead} {entry : OffsetDataEntry}
      (h : Returns (stream.callbackReturned read) stream' entry) :
      Returns (stream, .interrupted read) stream' entry

/-- The two models of a stream have the same data in the same places. -/
structure SameData (o : OutgoingStream) (s : DataAndMoneyStream) : Prop where
  outgoingData : o.outgoingData.map DataQueueEntry.data = s.outgoingData
  outgoingDataToRetry : o.outgoingDataToRetry = s.outgoingDataToRetry
  outgoingOffset : o.outgoingOffset = s.outgoingOffset
  remoteMaxOffset : o.remoteMaxOffset = s.remoteMaxOffset

/-- A read goes on to take what is read without callbacks. -/
theorem returns_readOn (queue : List DataQueueEntry) (o : OutgoingStream) (read : PendingRead) :
    ∃ left, left.map DataQueueEntry.data =
        (DataQueue.read read.bytesLeft (queue.map DataQueueEntry.data)).2 ∧
      Returns (OutgoingStream.readOn { o with outgoingData := queue } read)
        { o with
          outgoingData := left
          outgoingOffset := o.outgoingOffset +
            (read.data ++ (DataQueue.read read.bytesLeft (queue.map DataQueueEntry.data)).1).length }
        { data := read.data ++ (DataQueue.read read.bytesLeft (queue.map DataQueueEntry.data)).1
          offset := o.outgoingOffset } := by
  -- induction on the queue, with the same cases in both loops
  induction queue generalizing read with
  | nil =>
    refine ⟨[], rfl, ?_⟩
    show Returns _ { o with
      outgoingData := [], outgoingOffset := o.outgoingOffset + (read.data ++ []).length } ⟨read.data ++ [], _⟩
    rw [List.append_nil]
    exact .segment _ _
  | cons head queue ih =>
    rw [List.map_cons, DataQueue.read]
    unfold OutgoingStream.readOn readChunks
    by_cases h_done : read.bytesLeft = 0
    · rw [if_pos h_done, if_pos h_done, List.append_nil]
      exact ⟨head :: queue, rfl, .segment _ _⟩
    rw [if_neg h_done, if_neg h_done]
    by_cases h_long : head.data.length > read.bytesLeft
    · -- the first part of a chunk
      rw [if_pos h_long, if_pos h_long]
      exact ⟨{ head with data := head.data.drop read.bytesLeft } :: queue, rfl, .segment _ _⟩
    · -- all of a chunk, after which the read goes on at once or when the callback has returned
      rw [if_neg h_long, if_neg h_long]
      obtain ⟨left, h_left, h_returns⟩ :=
        ih { bytesLeft := read.bytesLeft - head.data.length, data := read.data ++ head.data }
      simp only [List.append_assoc] at h_returns
      refine ⟨left, h_left, ?_⟩
      cases head.callback with
      | none => exact h_returns
      | some callback => exact .returned h_returns

/-- **The two models hand out the same segments**, when callbacks do nothing but return. -/
theorem returns_getAvailableDataToSend {o : OutgoingStream} {s : DataAndMoneyStream} (h : SameData o s) (size : ℕ) :
    ∃ o', Returns (o.getAvailableDataToSend size) o' (s.availableDataToSend size).1 ∧
      SameData o' (s.availableDataToSend size).2 := by
  unfold OutgoingStream.getAvailableDataToSend DataAndMoneyStream.availableDataToSend
  rw [h.outgoingDataToRetry]
  cases h_retry : s.outgoingDataToRetry with
  | nil =>
    obtain ⟨left, h_left, h_returns⟩ :=
      returns_readOn o.outgoingData o { bytesLeft := min size (o.remoteMaxOffset - o.outgoingOffset) }
    rw [h.outgoingData] at h_left h_returns
    simp only [List.nil_append] at h_returns
    rw [← h.remoteMaxOffset, ← h.outgoingOffset]
    exact ⟨_, h_returns, h_left, h.outgoingDataToRetry.trans h_retry, rfl, rfl⟩
  | cons toSend rest =>
    simp only
    split
    · exact ⟨_, .segment _ _, h.outgoingData, rfl, h.outgoingOffset, h.remoteMaxOffset⟩
    · exact ⟨_, .segment _ _, h.outgoingData, rfl, h.outgoingOffset, h.remoteMaxOffset⟩

/-- A segment that was lost is put back in both. -/
theorem SameData.resendOutgoingData {o : OutgoingStream} {s : DataAndMoneyStream} (h : SameData o s)
    (entry : OffsetDataEntry) : SameData (o.resendOutgoingData entry) (s.resendOutgoingData entry.data entry.offset) :=
  ⟨h.outgoingData, congrArg (· ++ [entry]) h.outgoingDataToRetry, h.outgoingOffset, h.remoteMaxOffset⟩

end Interledger.Stream
