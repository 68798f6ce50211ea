import Interledger.Lib.OrderedMap
import Interledger.Stream.Long
import Interledger.Stream.OffsetSorter

/-!
# Streams of a connection

`DataAndMoneyStream` of `ilp-protocol-stream/src/stream.ts`: the amounts a stream has sent and
received, what it may send and receive, the money held for packets in flight, and the offsets of its
data in both directions.

A stream stays in the model after the connection has removed its record (`recorded`), since the
functions that were running then, and the application, still have it.

`DataQueue.read` is without the callbacks of writes here: `Stream/OutgoingData.lean` has them, and proves
that the same segments come out when they do nothing but return.

Offsets and lengths are `Number`s in the source and natural numbers here, without the rounding above
`2 ^ 53`.

## Main results

* `toNat_amountStreamCanReceive` — what is left up to the limit;
* `toNat_addToIncoming_le` — crediting adds the amount, or saturates;
* `setReceiveMax_le` — the application only raises the limit.
-/

namespace Interledger.Stream

open Interledger.Ilp Long

/-- The id of a stream: a number that some `Long` of a frame converts to. -/
abbrev StreamId := { id : ℕ // ∃ l : Long, l.toNumber = id }

/-- `frame.streamId.toNumber()`. -/
def Long.toStreamId (l : Long) : StreamId := ⟨l.toNumber, l, rfl⟩

/-- The `Long` a frame carries for a stream. -/
def StreamId.toLong (id : StreamId) : Long := fromNumber id.val

/-- The id a frame carries is read back as the stream's. -/
@[simp] theorem StreamId.toStreamId_toLong (id : StreamId) : (StreamId.toLong id).toStreamId = id := by
  obtain ⟨_, l, rfl⟩ := id
  exact Subtype.ext (toNumber_fromNumber l)

/-- `DataQueue`, less the callbacks of its entries. -/
abbrev DataQueue := List Buffer

namespace DataQueue

/-- `read`: the next `n` bytes, or all there are. -/
def read (n : ℕ) : DataQueue → Buffer × DataQueue
  | [] => ([], [])
  | chunk :: chunks =>
    if n = 0 then ([], chunk :: chunks)
    else if chunk.length > n then (chunk.take n, chunk.drop n :: chunks)
    else
      let (data, left) := read (n - chunk.length) chunks
      (chunk ++ data, left)

/-- `byteLength`. -/
def byteLength (queue : DataQueue) : ℕ := (queue.map List.length).sum

end DataQueue

/-- `DataAndMoneyStream`. What waits in the buffer of Node's `Readable` was read from the sorter. -/
structure DataAndMoneyStream where
  recorded : Bool := true
  closed : Bool := false
  remoteClosed : Bool := false
  sentEnd : Bool := false
  remoteSentEnd : Bool := false
  errorMessage : Option String := none
  totalReceived : Long := 0
  receiveMax : Long := 0
  totalSent : Long := 0
  sendMax : Long := 0
  outgoingHeldAmount : Long := 0
  holds : OrderedMap ℕ Long := .empty
  remoteReceived : Long := 0
  remoteReceiveMax : Long := maxUnsignedValue
  remoteMaxOffset : ℕ := 16384
  incomingData : OffsetSorter := {}
  readableHighWaterMark : ℕ := 16384
  readableLength : ℕ := 0
  readableLength_le : readableLength ≤ incomingData.readOffset := by exact Nat.zero_le _
  outgoingData : DataQueue := []
  outgoingDataToRetry : List OffsetDataEntry := []
  outgoingOffset : ℕ := 0
  receipt : Option Buffer := none
  deriving DecidableEq

namespace DataAndMoneyStream

/-- A stream just created. -/
def created : DataAndMoneyStream := {}

instance : Inhabited DataAndMoneyStream := ⟨created⟩

variable (s : DataAndMoneyStream)

/-- `isOpen`. -/
def isOpen : Bool := !s.closed

/-- `setSendMax`, which throws (`none`) below what was sent. -/
def setSendMax (limit : Long) : Option DataAndMoneyStream :=
  if s.closed ∨ s.totalSent > limit then none else some { s with sendMax := limit }

/-- `setReceiveMax`, which throws (`none`) below what was received and below the limit so far. -/
def setReceiveMax (limit : Long) : Option DataAndMoneyStream :=
  if s.closed ∨ s.totalReceived > limit ∨ s.receiveMax > limit then none
  else some { s with receiveMax := limit }

/-- `_getAmountStreamCanReceive`. -/
def amountStreamCanReceive : Long :=
  if s.receiveMax < s.totalReceived then 0 else (checkedSubtract s.receiveMax s.totalReceived).1

/-- `_addToIncoming`, less the event. -/
def addToIncoming (amount : Long) : DataAndMoneyStream :=
  { s with totalReceived := (checkedAdd s.totalReceived amount).1 }

/-- `_getAmountAvailableToSend`. -/
def amountAvailableToSend : Long :=
  if s.closed then 0
  else (checkedSubtract (checkedSubtract s.sendMax s.totalSent).1 s.outgoingHeldAmount).1

/-- `_holdOutgoing`. -/
def holdOutgoing (holdId : ℕ) (maxAmount : Long) : DataAndMoneyStream :=
  let amountToHold := minLong s.amountAvailableToSend maxAmount
  if amountToHold > 0 then
    { s with
      outgoingHeldAmount := s.outgoingHeldAmount + amountToHold
      holds := s.holds.set holdId amountToHold }
  else s

/-- `_executeHold`, less the events. -/
def executeHold (holdId : ℕ) : DataAndMoneyStream :=
  match s.holds.get? holdId with
  | none => s
  | some amount =>
    { s with
      outgoingHeldAmount := s.outgoingHeldAmount - amount
      totalSent := s.totalSent + amount
      holds := s.holds.erase holdId }

/-- `_cancelHold`. -/
def cancelHold (holdId : ℕ) : DataAndMoneyStream :=
  match s.holds.get? holdId with
  | none => s
  | some amount =>
    { s with
      outgoingHeldAmount := s.outgoingHeldAmount - amount
      holds := s.holds.erase holdId }

/-- `_destroy`. -/
def destroy (errorMessage : Option String) : DataAndMoneyStream :=
  { s with closed := true, errorMessage := errorMessage <|> s.errorMessage }

/-- The `maxAcceptable` of `_getIncomingOffsets`. -/
def maxAcceptable : ℕ := s.incomingData.readOffset + s.readableHighWaterMark - s.readableLength

/-- `_isDataBlocked`: the offset up to which there is data, when that is past what the remote
accepts. -/
def isDataBlocked : Option ℕ :=
  let offset := s.outgoingOffset + s.outgoingData.byteLength
  if s.remoteMaxOffset < offset then some offset else none

/-- `_getAvailableDataToSend`: data to send again, else the next of the queue that the remote
accepts. -/
def availableDataToSend (size : ℕ) : OffsetDataEntry × DataAndMoneyStream :=
  match s.outgoingDataToRetry with
  | toSend :: rest =>
    if toSend.data.length > size then
      ({ data := toSend.data.take size, offset := toSend.offset },
        { s with
          outgoingDataToRetry :=
            { data := toSend.data.drop size, offset := toSend.offset + size } :: rest })
    else (toSend, { s with outgoingDataToRetry := rest })
  | [] =>
    let maxBytes := min size (s.remoteMaxOffset - s.outgoingOffset)
    let (data, left) := s.outgoingData.read maxBytes
    ({ data := data, offset := s.outgoingOffset },
      { s with outgoingOffset := s.outgoingOffset + data.length, outgoingData := left })

/-- `_resendOutgoingData`. -/
def resendOutgoingData (data : Buffer) (offset : ℕ) : DataAndMoneyStream :=
  { s with outgoingDataToRetry := s.outgoingDataToRetry ++ [{ data := data, offset := offset }] }

/-- `_incomingData.read()`. -/
def readIncoming : Option Buffer × DataAndMoneyStream :=
  match h : s.incomingData.read with
  | (data, sorter) =>
    (data,
      { s with
        incomingData := sorter
        readableLength_le := by
          have h_le := OffsetSorter.readOffset_le_read s.incomingData
          rw [h] at h_le
          exact s.readableLength_le.trans h_le })

/-- `_incomingData.push(data, offset)`. -/
def pushIncoming (data : Buffer) (offset : ℕ) : DataAndMoneyStream :=
  { s with incomingData := s.incomingData.push data offset, readableLength_le := s.readableLength_le }

variable {s}

/-- What is left up to the limit, nothing once it was passed. -/
theorem toNat_amountStreamCanReceive :
    s.amountStreamCanReceive.toNat = s.receiveMax.toNat - s.totalReceived.toNat := by
  unfold amountStreamCanReceive
  by_cases h : s.receiveMax < s.totalReceived
  · have h_lt : s.receiveMax.toNat < s.totalReceived.toNat := h
    rw [if_pos h, Nat.sub_eq_zero_of_le h_lt.le]
    rfl
  · have h_le : s.totalReceived.toNat ≤ s.receiveMax.toNat := not_lt.mp h
    rw [if_neg h, toNat_checkedSubtract h_le]

/-- Crediting adds the amount, or saturates. -/
theorem toNat_addToIncoming_le (amount : Long) :
    (s.addToIncoming amount).totalReceived.toNat ≤ s.totalReceived.toNat + amount.toNat := by
  unfold addToIncoming
  rw [toNat_checkedAdd]
  exact Nat.min_le_left _ _

/-- Crediting nothing changes nothing. -/
@[simp] theorem addToIncoming_zero : s.addToIncoming 0 = s := by
  have h_add : (checkedAdd s.totalReceived 0).1 = s.totalReceived := by
    apply BitVec.eq_of_toNat_eq
    have h_lt := s.totalReceived.isLt
    have h_zero : (0 : Long).toNat = 0 := rfl
    rw [toNat_checkedAdd, h_zero, Nat.add_zero]
    exact Nat.min_eq_left (Nat.le_sub_one_of_lt h_lt)
  unfold addToIncoming
  rw [h_add]

/-- The application only raises the limit. -/
theorem setReceiveMax_le {limit : Long} {t : DataAndMoneyStream}
    (h : s.setReceiveMax limit = some t) :
    t.totalReceived = s.totalReceived ∧ s.receiveMax ≤ t.receiveMax := by
  unfold setReceiveMax at h
  split at h
  case isTrue => cases h
  case isFalse h_not =>
    obtain rfl := Option.some.inj h
    refine ⟨rfl, BitVec.not_lt.mp fun h_gt => h_not ?_⟩
    exact .inr (.inr h_gt)

/-- A cancelled hold is gone. -/
theorem get?_cancelHold (n : ℕ) : (s.cancelHold n).holds.get? n = none := by
  unfold cancelHold
  cases h_hold : s.holds.get? n with
  | none => exact h_hold
  | some amount => exact OrderedMap.get?_erase_self

theorem totalSent_cancelHold (n : ℕ) : (s.cancelHold n).totalSent = s.totalSent := by
  unfold cancelHold
  split <;> rfl

theorem recorded_cancelHold (n : ℕ) : (s.cancelHold n).recorded = s.recorded := by
  unfold cancelHold
  split <;> rfl

end DataAndMoneyStream

end Interledger.Stream
