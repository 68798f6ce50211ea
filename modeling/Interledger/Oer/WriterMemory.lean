import Interledger.Lib.Heap
import Interledger.Oer.WriterBytes
import Mathlib.Logic.Function.Basic

/-!
# Writers in memory

`Writer` of `oer-utils/src/lib/writer.ts` with its buffers as regions of memory. A writer object has a
region and an offset into it. It replaces the region with a larger one when it has to grow, and
`createVarOctetString` returns a new object whose region is part of the one of its parent.

The writer that is a value (`Oer.Writer`) is what an object looks like from outside (`toWriter`): every
method does the same to both (`Simulates`), as long as a child is used only until the next call on its
parent.

## Main results

* `simulates_call`, `simulates_run` — calls on an object, with nested strings filled through their own
  objects, are calls on the value;
* `appendsBytes_construct` — an object holds the bytes of the calls made on it, in order, up to its
  limit.
-/

namespace Interledger.Oer

open Ilp (Buffer)
open Interledger.Action

/-- A `Buffer`: some bytes of a block of memory. -/
structure Region where
  block : ℕ
  start : ℕ
  size : ℕ
  deriving DecidableEq

/-- `buffer.slice(start, end)`. -/
def Region.slice (buffer : Region) (start stop : ℕ) : Region :=
  ⟨buffer.block, buffer.start + min start buffer.size, min stop buffer.size - min start buffer.size⟩

/-- The fields of a `Writer`. -/
structure WriterObject where
  buffer : Region
  offset : ℕ
  strict : Bool
  deriving DecidableEq

/-- What a writer with these fields looks like from outside. -/
def WriterObject.value (w : WriterObject) (heap : Heap UInt8) : Writer where
  written := heap.load w.buffer.block w.buffer.start w.offset
  rest := heap.load w.buffer.block (w.buffer.start + w.offset) (w.buffer.size - w.offset)
  strict := w.strict

/-- The memory: its blocks and the writer objects made so far, those below `nextWriter`. -/
structure Memory where
  heap : Heap UInt8
  writers : ℕ → WriterObject
  nextWriter : ℕ

/-- The argument of the constructor. -/
inductive ConstructorArgument
  | none
  | capacity (size : ℕ)
  | buffer (buffer : Region)

namespace Memory

/-- The bytes of a buffer. -/
def bytes (m : Memory) (buffer : Region) : Buffer := m.heap.load buffer.block buffer.start buffer.size

/-- `Buffer.alloc`. -/
def alloc (size : ℕ) : Action Memory OerError Region :=
  if kMaxLength < size then throw .rangeError
  else do
    let m ← get
    modify fun m => { m with heap := m.heap.alloc 0 }
    return ⟨m.heap.next, 0, size⟩

/-- `buffer.copy(target, targetStart)`, up to the end of the target. -/
def copy (bytes : Buffer) (target : Region) (targetStart : ℕ) : Action Memory OerError Unit :=
  modify fun m => { m with
    heap := m.heap.store target.block (target.start + targetStart)
      (bytes.take (target.size - targetStart)) }

/-- Set the fields of a writer. -/
def assign (this : ℕ) (w : WriterObject) : Action Memory OerError Unit :=
  modify fun m => { m with writers := Function.update m.writers this w }

/-- A writer object with these fields. -/
def newObject (buffer : Region) (strict : Bool) : Action Memory OerError ℕ := do
  let m ← get
  modify fun m => { m with
    writers := Function.update m.writers m.nextWriter ⟨buffer, 0, strict⟩
    nextWriter := m.nextWriter + 1 }
  return m.nextWriter

/-- `new Writer(value)`. -/
def construct : ConstructorArgument → Action Memory OerError ℕ
  | .none => do newObject (← alloc 0) false
  | .capacity size => do newObject (← alloc size) true
  | .buffer buffer => newObject buffer true

/-- `advance`, which returns the offset before. -/
def advance (this advanceBy : ℕ) : Action Memory OerError ℕ := do
  let m ← get
  let w := m.writers this
  let srcOffset := w.offset
  let minCapacity := srcOffset + advanceBy
  if minCapacity ≤ w.buffer.size then do
    assign this { w with offset := w.offset + advanceBy }
    return srcOffset
  else if w.strict then throw (.error "writer cannot exceed capacity")
  else do
    let capacity := Writer.growCapacity minCapacity minCapacity
      (if w.buffer.size = 0 then Writer.minBufferSize else w.buffer.size)
    let newBuffer ← alloc capacity
    if w.buffer.size = 0 then pure () else copy (m.bytes w.buffer) newBuffer 0
    assign this { w with buffer := newBuffer, offset := w.offset + advanceBy }
    return srcOffset

/-- `write`. -/
def write (this : ℕ) (buffer : Buffer) : Action Memory OerError Unit := do
  let offset ← advance this buffer.length
  copy buffer ((← get).writers this).buffer offset

/-- `writeUInt`. -/
def writeUInt (this : ℕ) (value : LongValue) (length : ℕ) : Action Memory OerError Unit := do
  write this (← Writer.uintBytes value length Memory)

/-- `writeInt`. -/
def writeInt (this : ℕ) (value : LongValue) (length : ℕ) : Action Memory OerError Unit := do
  write this (← Writer.intBytes value length Memory)

/-- `writeUInt8`. -/
def writeUInt8 (this : ℕ) (value : LongValue) : Action Memory OerError Unit := writeUInt this value 1

/-- `_writeLengthPrefix`. -/
def writeLengthPrefix (this length : ℕ) : Action Memory OerError Unit :=
  if length ≤ 127 then writeUInt8 this (.number length)
  else do
    let lengthOfLength := getUIntBufferSize length
    writeUInt8 this (.number (0x80 ||| lengthOfLength : ℕ))
    writeUInt this (.number length) lengthOfLength

/-- `createVarOctetString`, which returns the writer of the slice. -/
def createVarOctetString (this length : ℕ) : Action Memory OerError ℕ := do
  writeLengthPrefix this length
  let offset ← advance this length
  construct (.buffer (((← get).writers this).buffer.slice offset (offset + length)))

/-- `writeVarOctetString`. -/
def writeVarOctetString (this : ℕ) (buffer : Buffer) : Action Memory OerError Unit := do
  writeLengthPrefix this buffer.length
  write this buffer

/-- `writeOctetString`. -/
def writeOctetString (this : ℕ) (buffer : Buffer) (length : ℕ) : Action Memory OerError Unit :=
  if buffer.length ≠ length then
    throw (.error ("Incorrect length for octet string (actual: " ++ toString buffer.length ++
      ", expected: " ++ toString length ++ ")"))
  else write this buffer

/-- `writeVarUInt`. -/
def writeVarUInt (this : ℕ) : VarValue → Action Memory OerError Unit
  | .buffer buffer => writeVarOctetString this buffer
  | .value value => do
    let (value, lengthOfValue) ← Writer.varUIntParts value Memory
    writeUInt (← createVarOctetString this lengthOfValue) value lengthOfValue

/-- `writeVarInt`. -/
def writeVarInt (this : ℕ) : VarValue → Action Memory OerError Unit
  | .buffer buffer => writeVarOctetString this buffer
  | .value value => do
    let (value, lengthOfValue) ← Writer.varIntParts value Memory
    writeInt (← createVarOctetString this lengthOfValue) value lengthOfValue

/-- `getBuffer`. -/
def getBuffer (m : Memory) (this : ℕ) : Buffer :=
  m.bytes ((m.writers this).buffer.slice 0 (m.writers this).offset)

mutual

/-- One call on a writer. The calls that fill a nested string are made on the writer returned for it. -/
def call (this : ℕ) : WriterCall → Action Memory OerError Unit
  | .writeUInt value length => writeUInt this value length
  | .writeInt value length => writeInt this value length
  | .writeVarUInt value => writeVarUInt this value
  | .writeVarInt value => writeVarInt this value
  | .writeOctetString buffer length => writeOctetString this buffer length
  | .writeVarOctetString buffer => writeVarOctetString this buffer
  | .createVarOctetString length contents => do
    let child ← createVarOctetString this length
    run child contents
  | .write buffer => write this buffer

/-- A list of calls on a writer. -/
def run (this : ℕ) : List WriterCall → Action Memory OerError Unit
  | [] => pure ()
  | c :: calls => do
    call this c
    run this calls

end

/-! ### Objects as values -/

/-- The value of a writer object. -/
def toWriter (m : Memory) (this : ℕ) : Writer := (m.writers this).value m.heap

/-- The writer was made, its buffer is in memory, and the offset is within the buffer. -/
structure Valid (m : Memory) (this : ℕ) : Prop where
  made : this < m.nextWriter
  block : (m.writers this).buffer.block < m.heap.next
  offset : (m.writers this).offset ≤ (m.writers this).buffer.size

/-- What a program on one writer leaves as it was: the other writers, and the memory outside the
writer's buffer. The buffer stays, or a writer that is not strict has a new one. -/
structure Keeps (m : Memory) (this : ℕ) (m' : Memory) : Prop where
  valid : Valid m' this
  nextWriter : m.nextWriter ≤ m'.nextWriter
  nextBlock : m.heap.next ≤ m'.heap.next
  others : ∀ i < m.nextWriter, i ≠ this → m'.writers i = m.writers i
  strict : (m'.writers this).strict = (m.writers this).strict
  buffer : (m'.writers this).buffer = (m.writers this).buffer ∨
    (m.writers this).strict = false ∧ m.heap.next ≤ (m'.writers this).buffer.block
  outside : Heap.SameOutside (m.writers this).buffer.block (m.writers this).buffer.start
    (m.writers this).buffer.size m.heap m'.heap

/-- A program on a writer object does what another does to the value, and leaves everything else as it
was. -/
def Simulates (this : ℕ) (x : Action Memory OerError Unit) (y : Action Writer OerError Unit) : Prop :=
  ∀ m, Valid m this → ∃ m', x.exec m = ((y.exec (toWriter m this)).1, m') ∧
    toWriter m' this = (y.exec (toWriter m this)).2 ∧ Keeps m this m'

namespace Keeps

variable {m m' m'' : Memory} {this : ℕ}

theorem refl (h : Valid m this) : Keeps m this m :=
  ⟨h, le_rfl, le_rfl, fun _ _ _ => rfl, rfl, .inl rfl, .refl⟩

theorem trans (h : Keeps m this m') (h' : Keeps m' this m'') : Keeps m this m'' := by
  refine ⟨h'.valid, h.nextWriter.trans h'.nextWriter, h.nextBlock.trans h'.nextBlock,
    fun i hi h_ne => ?_, h'.strict.trans h.strict, ?_, ?_⟩
  · rw [h'.others i (hi.trans_le h.nextWriter) h_ne, h.others i hi h_ne]
  · rcases h'.buffer with h_same' | ⟨h_strict, h_new⟩
    · rw [h_same']
      exact h.buffer
    · exact .inr ⟨h.strict ▸ h_strict, h.nextBlock.trans h_new⟩
  · rcases h.buffer with h_same | ⟨-, h_new⟩
    · have h_outside := h'.outside
      rw [h_same] at h_outside
      exact h.outside.trans h.nextBlock h_outside
    · -- the second program works on a block that the first memory does not have
      exact h.outside.trans_new h.nextBlock h_new h'.outside

end Keeps

/-! ### The methods -/

section Simulates

variable {this : ℕ} {m : Memory}

theorem length_written_toWriter : (toWriter m this).written.length = (m.writers this).offset :=
  Heap.length_load _ _ _ _

theorem length_rest_toWriter : (toWriter m this).rest.length =
    (m.writers this).buffer.size - (m.writers this).offset :=
  Heap.length_load _ _ _ _

namespace Simulates

variable {x x' : Action Memory OerError Unit} {y y' : Action Writer OerError Unit}

theorem pure : Simulates this (Pure.pure ()) (Pure.pure ()) :=
  fun m h => ⟨m, rfl, rfl, .refl h⟩

theorem throw (e : OerError) : Simulates this (MonadExcept.throw e) (MonadExcept.throw e) :=
  fun m h => ⟨m, rfl, rfl, .refl h⟩

theorem ite {c : Prop} [Decidable c] (h : c → Simulates this x y) (h' : ¬c → Simulates this x' y') :
    Simulates this (if c then x else x') (if c then y else y') := by
  by_cases hc : c
  · rw [if_pos hc, if_pos hc]
    exact h hc
  · rw [if_neg hc, if_neg hc]
    exact h' hc

theorem bind (h : Simulates this x y) (h' : Simulates this x' y') :
    Simulates this (x >>= fun _ => x') (y >>= fun _ => y') := by
  intro m h_valid
  obtain ⟨m₁, h_exec, h_writer, h_keeps⟩ := h m h_valid
  cases h_first : y.exec (toWriter m this) with
  | mk result w₁ =>
    rw [h_first] at h_exec h_writer
    cases result with
    | error e =>
      rw [exec_bind_error h_first]
      exact ⟨m₁, exec_bind_error h_exec, h_writer, h_keeps⟩
    | ok u =>
      obtain ⟨m₂, h_exec', h_writer', h_keeps'⟩ := h' m₁ h_keeps.valid
      simp only at h_writer
      rw [h_writer] at h_exec' h_writer'
      rw [exec_bind_ok h_first]
      exact ⟨m₂, (exec_bind_ok h_exec).trans h_exec', h_writer', h_keeps.trans h_keeps'⟩

/-- A program that does not look at the memory goes first. -/
theorem bind_computes {α : Type} {f : (σ : Type) → Action σ OerError α} {P : α → Prop}
    {g : α → Action Memory OerError Unit} {g' : α → Action Writer OerError Unit} (h : Computes f P)
    (h' : ∀ a, Simulates this (g a) (g' a)) : Simulates this (f Memory >>= g) (f Writer >>= g') := by
  rcases h with ⟨e, h_throw⟩ | ⟨a, -, h_pure⟩
  · rw [h_throw, h_throw]
    exact throw e
  · rw [h_pure, h_pure, pure_bind, pure_bind]
    exact h' a

end Simulates

/-- The contents of a new buffer after a copy to its start, taken apart at an offset. -/
theorem value_alloc {w : WriterObject} {heap : Heap UInt8} (h_offset : w.offset ≤ w.buffer.size)
    {capacity : ℕ} (h_capacity : w.buffer.size ≤ capacity) :
    ({ w with buffer := ⟨heap.next, 0, capacity⟩ } : WriterObject).value ((heap.alloc 0).store heap.next 0
        (heap.load w.buffer.block w.buffer.start w.buffer.size)) =
      { w.value heap with
        rest := (w.value heap).rest ++ (List.replicate capacity 0).drop w.buffer.size } := by
  have h_all := heap.load_store_alloc 0 (heap.load w.buffer.block w.buffer.start w.buffer.size)
    (capacity - w.buffer.size)
  have h_parts : heap.load w.buffer.block w.buffer.start w.buffer.size =
      (w.value heap).written ++ (w.value heap).rest := by
    have h_add := heap.load_add w.buffer.block w.buffer.start w.offset (w.buffer.size - w.offset)
    rwa [Nat.add_sub_cancel' h_offset] at h_add
  have h_length : (w.value heap).written.length = w.offset := Heap.length_load _ _ _ _
  rw [Heap.length_load, Nat.add_sub_cancel' h_capacity] at h_all
  rw [List.drop_replicate]
  generalize h_heap : (heap.alloc 0).store heap.next 0
    (heap.load w.buffer.block w.buffer.start w.buffer.size) = heap' at h_all ⊢
  rw [h_parts, List.append_assoc] at h_all
  have h_written := heap'.take_load heap.next 0 (h_offset.trans h_capacity)
  have h_rest := heap'.drop_load heap.next 0 (h_offset.trans h_capacity)
  rw [h_all, List.take_left' h_length] at h_written
  rw [h_all, List.drop_left' h_length] at h_rest
  rw [WriterObject.value, ← h_written, ← h_rest]
  rfl

/-- The fields of a writer, set. -/
def withWriter (m : Memory) (this : ℕ) (w : WriterObject) : Memory :=
  { m with writers := Function.update m.writers this w }

@[simp] theorem writers_withWriter (w : WriterObject) : (m.withWriter this w).writers this = w :=
  Function.update_self _ _ _

/-- A writer with other fields, in a memory that may have new blocks. -/
theorem keeps_withWriter {w : WriterObject} {heap : Heap UInt8} (h : Valid m this)
    (h_next : m.heap.next ≤ heap.next) (h_block : w.buffer.block < heap.next)
    (h_offset : w.offset ≤ w.buffer.size) (h_strict : w.strict = (m.writers this).strict)
    (h_buffer : w.buffer = (m.writers this).buffer ∨
      (m.writers this).strict = false ∧ m.heap.next ≤ w.buffer.block)
    (h_outside : Heap.SameOutside (m.writers this).buffer.block (m.writers this).buffer.start
      (m.writers this).buffer.size m.heap heap) :
    Keeps m this ({ m with heap := heap }.withWriter this w) := by
  have h_writer : ({ m with heap := heap }.withWriter this w).writers this = w := Function.update_self _ _ _
  refine ⟨⟨h.made, ?_, ?_⟩, le_rfl, h_next, fun i _ h_ne => Function.update_of_ne h_ne _ _, ?_, ?_, h_outside⟩
  all_goals rw [h_writer]
  · exact h_block
  · exact h_offset
  · exact h_strict
  · exact h_buffer

/-- **`advance`** makes the same room in memory, and moves the offset over it. -/
theorem exec_advance (h : Valid m this) (n : ℕ) :
    (∃ m', (advance this n).exec m = (.ok (m.writers this).offset, m') ∧ Keeps m this m' ∧
      (m'.writers this).offset = (m.writers this).offset + n ∧
      (Writer.advance n).exec (toWriter m this) =
        (.ok (), ({ m'.writers this with offset := (m.writers this).offset } : WriterObject).value m'.heap)) ∨
    ∃ e, (advance this n).exec m = (.error e, m) ∧
      (Writer.advance n).exec (toWriter m this) = (.error e, toWriter m this) := by
  have h_offset := h.offset
  have h_strict : (toWriter m this).strict = (m.writers this).strict := rfl
  unfold advance Writer.advance
  rw [exec_bind_ok (exec_get m), exec_bind_ok (exec_get (toWriter m this))]
  simp only [length_written_toWriter, length_rest_toWriter, Nat.add_sub_cancel' h_offset, h_strict]
  generalize h_w : m.writers this = w at *
  -- there is room in the buffer
  by_cases h_fit : w.offset + n ≤ w.buffer.size
  · rw [if_pos h_fit, if_pos h_fit]
    refine .inl ⟨m.withWriter this { w with offset := w.offset + n }, rfl, ?_, ?_, ?_⟩
    · exact keeps_withWriter h le_rfl (h_w ▸ h.block) h_fit (h_w ▸ rfl) (.inl (h_w ▸ rfl)) .refl
    · rw [writers_withWriter]
    · rw [writers_withWriter, toWriter, h_w]
      rfl
  rw [if_neg h_fit, if_neg h_fit]
  -- a strict writer does not grow
  by_cases h_given : w.strict = true
  · rw [if_pos h_given, if_pos h_given]
    exact .inr ⟨_, rfl, rfl⟩
  rw [if_neg h_given, if_neg h_given]
  -- another buffer is allocated, with the doubled size
  obtain ⟨h_enough, -⟩ := Writer.growCapacity_bounds (w.offset + n) (w.offset + n)
    (if w.buffer.size = 0 then Writer.minBufferSize else w.buffer.size)
    (by split <;> [decide; omega]) (by omega)
  generalize Writer.growCapacity _ _ _ = capacity at h_enough ⊢
  unfold alloc Oer.alloc
  by_cases h_large : kMaxLength < capacity
  · rw [if_pos h_large, if_pos h_large]
    exact .inr ⟨_, rfl, rfl⟩
  rw [if_neg h_large, if_neg h_large]
  have h_capacity : w.buffer.size ≤ capacity := by omega
  -- the old bytes are copied, if there are any
  have h_copied : (m.heap.alloc 0).store m.heap.next (0 + 0) ((m.bytes w.buffer).take (capacity - 0)) =
      (m.heap.alloc 0).store m.heap.next 0 (m.bytes w.buffer) := by
    rw [List.take_of_length_le (by rw [bytes, Heap.length_load]; omega)]
  refine .inl ⟨{ m with heap := (m.heap.alloc 0).store m.heap.next 0 (m.bytes w.buffer) }.withWriter this
    { w with buffer := ⟨m.heap.next, 0, capacity⟩, offset := w.offset + n }, ?_, ?_, ?_, ?_⟩
  · rw [← h_copied]
    split_ifs with h_empty
    · have h_nil : m.bytes w.buffer = [] := by rw [bytes, h_empty, Heap.load_zero]
      rw [h_nil, List.take_nil, Heap.store_nil]
      rfl
    · rfl
  · -- the new block is nobody else's
    refine keeps_withWriter h (Nat.le_succ _) (Nat.lt_succ_self _) h_enough (h_w ▸ rfl)
      (.inr ⟨?_, le_rfl⟩) ?_
    · rw [h_w]
      exact Bool.eq_false_iff.mpr h_given
    · exact (Heap.SameOutside.alloc 0).trans_new (Nat.le_succ _) le_rfl
        (Heap.sameOutside_store _ _ _ _ le_rfl le_rfl)
  · rw [writers_withWriter]
  · rw [writers_withWriter, toWriter, h_w]
    exact congrArg (fun v => (Except.ok (), v)) (value_alloc h_offset h_capacity).symm

/-- **`write`** -/
theorem simulates_write (this : ℕ) (buffer : Buffer) :
    Simulates this (write this buffer) (Writer.write buffer) := by
  intro m h
  unfold write Writer.write
  -- the cursor moves, or the same error is thrown in both
  rcases exec_advance h buffer.length with
    ⟨m₁, h_exec, h_keeps, h_offset, h_value⟩ | ⟨e, h_exec, h_value⟩
  · rw [exec_bind_ok h_exec, exec_bind_ok (exec_get m₁), exec_bind_ok h_value]
    generalize (m.writers this).offset = offset at *
    have h_valid := h_keeps.valid
    have h_room := h_valid.offset
    generalize h_w : m₁.writers this = w at *
    rw [h_offset] at h_room
    -- there is room for all of the bytes
    have h_take : buffer.take (w.buffer.size - offset) = buffer := List.take_of_length_le (by omega)
    have h_stored : (copy buffer w.buffer offset).exec m₁ = (.ok (), { m₁ with
        heap := m₁.heap.store w.buffer.block (w.buffer.start + offset) buffer }) := by
      rw [copy, exec_modify, h_take]
    have h_outside (start n : ℕ) (h_low : start ≤ w.buffer.start + offset)
        (h_high : w.buffer.start + offset + buffer.length ≤ start + n) :=
      m₁.heap.sameOutside_store w.buffer.block (w.buffer.start + offset) buffer h_low h_high
    have h_block : w.buffer.block < m₁.heap.next := h_w ▸ h_valid.block
    refine ⟨_, h_stored, ?_, h_keeps.trans ?_⟩
    · rw [exec_modify, toWriter]
      simp only [h_w]
      -- only these bytes of the block change
      have h_own := h_outside (w.buffer.start + offset) buffer.length le_rfl le_rfl
      have h_before := h_own.load_eq (b := w.buffer.block) (i := w.buffer.start) (k := offset) h_block
        (.inr (.inl le_rfl))
      have h_behind := h_own.load_eq (b := w.buffer.block) (i := w.buffer.start + (offset + buffer.length))
        (k := w.buffer.size - (offset + buffer.length)) h_block (.inr (.inr (Nat.add_assoc _ _ _).le))
      have h_drop := m₁.heap.drop_load w.buffer.block (w.buffer.start + offset)
        (m := buffer.length) (n := w.buffer.size - offset) (by omega)
      simp only [WriterObject.value, h_offset]
      rw [Heap.load_add, h_before, Heap.load_store, h_behind, h_drop, Nat.add_assoc, Nat.sub_sub]
    · refine ⟨⟨h_valid.made, h_valid.block, h_valid.offset⟩, le_rfl, le_rfl, fun _ _ _ => rfl, rfl, .inl rfl, ?_⟩
      rw [h_w]
      exact h_outside w.buffer.start w.buffer.size (by omega) (by omega)
  · rw [exec_bind_error h_exec, exec_bind_error h_value]
    exact ⟨m, rfl, rfl, .refl h⟩

theorem simulates_writeUInt (this : ℕ) (value : LongValue) (k : ℕ) :
    Simulates this (writeUInt this value k) (Writer.writeUInt value k) := by
  rw [Writer.writeUInt_eq]
  exact .bind_computes Writer.computes_uintBytes fun bytes => simulates_write this bytes

theorem simulates_writeInt (this : ℕ) (value : LongValue) (k : ℕ) :
    Simulates this (writeInt this value k) (Writer.writeInt value k) := by
  rw [Writer.writeInt_eq]
  exact .bind_computes Writer.computes_intBytes fun bytes => simulates_write this bytes

theorem simulates_writeLengthPrefix (this n : ℕ) :
    Simulates this (writeLengthPrefix this n) (Writer.writeLengthPrefix n) :=
  .ite (fun _ => simulates_writeUInt this _ 1) fun _ =>
    (simulates_writeUInt this _ 1).bind (simulates_writeUInt this _ _)

theorem simulates_writeVarOctetString (this : ℕ) (buffer : Buffer) :
    Simulates this (writeVarOctetString this buffer) (Writer.writeVarOctetString buffer) :=
  (simulates_writeLengthPrefix this _).bind (simulates_write this buffer)

/-- The memory with a new writer over a buffer. -/
def withObject (m : Memory) (buffer : Region) (strict : Bool) : Memory :=
  { m with
    writers := Function.update m.writers m.nextWriter ⟨buffer, 0, strict⟩
    nextWriter := m.nextWriter + 1 }

/-- A new writer has all of its buffer before it. -/
theorem toWriter_withObject {buffer : Region} (strict : Bool) (h : buffer.block < m.heap.next) :
    Valid (m.withObject buffer strict) m.nextWriter ∧
      toWriter (m.withObject buffer strict) m.nextWriter = ⟨[], m.bytes buffer, strict⟩ := by
  have h_writer : (m.withObject buffer strict).writers m.nextWriter = ⟨buffer, 0, strict⟩ :=
    Function.update_self _ _ _
  refine ⟨⟨Nat.lt_succ_self _, ?_, ?_⟩, ?_⟩
  · rw [h_writer]
    exact h
  · rw [h_writer]
    exact Nat.zero_le _
  · rw [toWriter, h_writer]
    rfl

/-- Both parts of a strict writer's buffer are the buffer. -/
theorem written_append_rest (h : Valid m this) :
    (toWriter m this).written ++ (toWriter m this).rest = m.bytes (m.writers this).buffer := by
  have h_add := m.heap.load_add (m.writers this).buffer.block (m.writers this).buffer.start
    (m.writers this).offset ((m.writers this).buffer.size - (m.writers this).offset)
  rw [Nat.add_sub_cancel' h.offset] at h_add
  exact h_add.symm

/-- **A child** writes to its slice, and the parent has what the child left there. The slice is what the
parent's offset has just been moved over. -/
theorem exec_child {n offset : ℕ} {contents : Action Memory OerError Unit}
    {contents' : Action Writer OerError Unit} {w : WriterObject} {v c : Writer}
    {result : Except OerError Unit} (h : Valid m this) (h_w : m.writers this = w)
    (h_offset : w.offset = offset + n)
    (h_v : ({ w with offset := offset } : WriterObject).value m.heap = v)
    (h_contents : Simulates m.nextWriter contents contents')
    (h_result : contents'.exec (Writer.ofBuffer (v.rest.take n)) = (result, c)) :
    ∃ m', contents.exec (m.withObject (w.buffer.slice offset (offset + n)) true) = (result, m') ∧
      toWriter m' this =
        { v with written := v.written ++ (c.written ++ c.rest), rest := v.rest.drop n } ∧
      Keeps m this m' := by
  have h_room := h.offset
  have h_made := h.made
  have h_block := h.block
  rw [h_w] at h_room h_block
  rw [h_offset] at h_room
  -- the child is made on the slice that the parent has advanced over
  have h_slice : w.buffer.slice offset (offset + n) = ⟨w.buffer.block, w.buffer.start + offset, n⟩ := by
    rw [Region.slice, Nat.min_eq_left (by omega), Nat.min_eq_left h_room, Nat.add_sub_cancel_left]
  rw [h_slice]
  generalize h_memory : m.withObject ⟨w.buffer.block, w.buffer.start + offset, n⟩ true = m₁
  have h_heap : m₁.heap = m.heap := h_memory ▸ rfl
  have h_next : m₁.nextWriter = m.nextWriter + 1 := h_memory ▸ rfl
  have h_child : m₁.writers m.nextWriter = ⟨⟨w.buffer.block, w.buffer.start + offset, n⟩, 0, true⟩ := by
    rw [← h_memory]
    exact Function.update_self _ _ _
  have h_others (i : ℕ) (h_ne : i ≠ m.nextWriter) : m₁.writers i = m.writers i := by
    rw [← h_memory]
    exact Function.update_of_ne h_ne _ _
  -- the child starts with the slice
  have h_fresh : Valid m₁ m.nextWriter ∧
      toWriter m₁ m.nextWriter = Writer.ofBuffer (v.rest.take n) := by
    have h_take := m.heap.take_load w.buffer.block (w.buffer.start + offset) (m := n)
      (n := w.buffer.size - offset) (by omega)
    have h_new := @toWriter_withObject m ⟨w.buffer.block, w.buffer.start + offset, n⟩ true h_block
    rw [h_memory] at h_new
    refine ⟨h_new.1, h_new.2.trans ?_⟩
    rw [← h_v]
    exact congrArg Writer.ofBuffer h_take.symm
  obtain ⟨h_valid, h_fresh⟩ := h_fresh
  -- it writes as it would alone
  obtain ⟨m₂, h_exec, h_value, h_keeps⟩ := h_contents m₁ h_valid
  rw [h_fresh, h_result] at h_exec h_value
  -- and it does not touch the parent's object
  have h_this : m₂.writers this = w := by
    have h_ne : this ≠ m.nextWriter := by omega
    rw [h_keeps.others this (by omega) h_ne, h_others this h_ne, h_w]
  have h_outside := h_keeps.outside
  simp only [h_child, h_heap] at h_outside
  refine ⟨m₂, h_exec, ?_, ?_⟩
  · -- a strict child has kept its buffer, which is the slice
    have h_buffer : (m₂.writers m.nextWriter).buffer = ⟨w.buffer.block, w.buffer.start + offset, n⟩ := by
      rcases h_keeps.buffer with h_same | ⟨h_not, -⟩
      · rw [h_same, h_child]
      · rw [h_child] at h_not
        cases h_not
    -- so that the parent has the child's bytes in the slice, and its own around them
    have h_filled := written_append_rest h_keeps.valid
    rw [h_value, h_buffer, bytes] at h_filled
    have h_before := h_outside.load_eq (b := w.buffer.block) (i := w.buffer.start) (k := offset) h_block
      (.inr (.inl le_rfl))
    have h_behind := h_outside.load_eq (b := w.buffer.block) (i := w.buffer.start + (offset + n))
      (k := w.buffer.size - (offset + n)) h_block (.inr (.inr (Nat.add_assoc _ _ _).le))
    have h_drop := m.heap.drop_load w.buffer.block (w.buffer.start + offset)
      (m := n) (n := w.buffer.size - offset) (by omega)
    simp only at h_filled
    rw [toWriter, h_this, ← h_v, h_filled]
    simp only [WriterObject.value, h_offset]
    rw [Heap.load_add, h_before, h_behind, h_drop, Nat.add_assoc, Nat.sub_sub]
  · refine ⟨⟨?_, ?_, ?_⟩, ?_, ?_, ?_, ?_, .inl ?_, ?_⟩
    · exact h_made.trans_le (by have := h_keeps.nextWriter; omega)
    · rw [h_this]
      exact h_block.trans_le (h_heap ▸ h_keeps.nextBlock)
    · rw [h_this, h_offset]
      exact h_room
    · have h_more := h_keeps.nextWriter
      omega
    · exact h_heap ▸ h_keeps.nextBlock
    · intro i hi h_ne
      rw [h_keeps.others i (by omega) (by omega), h_others i (by omega)]
    · rw [h_this, h_w]
    · rw [h_this, h_w]
    · rw [h_w]
      exact h_outside.mono (Nat.le_add_right _ _) (by omega)

/-- **`createVarOctetString`**, with what is done to the writer that it returns. -/
theorem simulates_createVarOctetString (n : ℕ) {contents : ℕ → Action Memory OerError Unit}
    {contents' : Action Writer OerError Unit}
    (h_contents : ∀ child, Simulates child (contents child) contents') :
    Simulates this (createVarOctetString this n >>= contents)
      (Writer.createVarOctetString n contents') := by
  unfold createVarOctetString Writer.createVarOctetString
  simp only [bind_assoc]
  refine (simulates_writeLengthPrefix this n).bind fun m h => ?_
  -- the length prefix is written, and the slice is passed over
  rcases exec_advance h n with ⟨m₁, h_exec, h_keeps, h_offset, h_value⟩ | ⟨e, h_exec, h_value⟩
  · rw [exec_bind_ok h_exec, exec_bind_ok (exec_get m₁), exec_bind_ok h_value,
      exec_bind_ok (exec_get _)]
    generalize h_v : WriterObject.value _ m₁.heap = v
    have h_construct (buffer : Region) :
        (construct (.buffer buffer)).exec m₁ = (.ok m₁.nextWriter, m₁.withObject buffer true) := rfl
    rw [exec_bind_ok (h_construct _)]
    -- the contents are written into the slice; an error leaves what was written
    cases h_result : contents'.exec (Writer.ofBuffer (v.rest.take n)) with
    | mk result c =>
      obtain ⟨m₂, h_exec', h_writer, h_keeps'⟩ :=
        exec_child h_keeps.valid rfl h_offset h_v (h_contents m₁.nextWriter) h_result
      refine ⟨m₂, ?_, ?_, h_keeps.trans h_keeps'⟩
      · rw [h_exec']
        cases result with
        | ok u => rfl
        | error e => rfl
      · rw [h_writer]
        cases result with
        | ok u => rfl
        | error e => rfl
  · rw [exec_bind_error h_exec, exec_bind_error h_value]
    exact ⟨m, rfl, rfl, .refl h⟩

mutual

/-- **A call on an object** is the call on its value. -/
theorem simulates_call (this : ℕ) (c : WriterCall) : Simulates this (call this c) (Writer.call c) := by
  match c with
  | .writeUInt value length => exact simulates_writeUInt this value length
  | .writeInt value length => exact simulates_writeInt this value length
  | .writeVarUInt (.buffer buffer) => exact simulates_writeVarOctetString this buffer
  | .writeVarUInt (.value value) =>
    rw [call, Writer.call, Writer.writeVarUInt_eq]
    exact .bind_computes Writer.computes_varUIntParts fun parts =>
      simulates_createVarOctetString _ fun child => simulates_writeUInt child _ _
  | .writeVarInt (.buffer buffer) => exact simulates_writeVarOctetString this buffer
  | .writeVarInt (.value value) =>
    rw [call, Writer.call, Writer.writeVarInt_eq]
    exact .bind_computes Writer.computes_varIntParts fun parts =>
      simulates_createVarOctetString _ fun child => simulates_writeInt child _ _
  | .writeOctetString buffer length =>
    exact .ite (fun _ => .throw _) fun _ => simulates_write this buffer
  | .writeVarOctetString buffer => exact simulates_writeVarOctetString this buffer
  | .createVarOctetString length contents =>
    rw [call, Writer.call]
    exact simulates_createVarOctetString length fun child => simulates_run child contents
  | .write buffer => exact simulates_write this buffer

/-- **A list of calls.** -/
theorem simulates_run (this : ℕ) (calls : List WriterCall) :
    Simulates this (run this calls) (Writer.run calls) := by
  match calls with
  | [] => exact .pure
  | c :: calls =>
    rw [run, Writer.run]
    exact (simulates_call this c).bind (simulates_run this calls)

end

theorem getBuffer_eq (h : Valid m this) : getBuffer m this = (toWriter m this).written := by
  rw [getBuffer, Region.slice, Nat.zero_min, Nat.min_eq_left h.offset, Nat.add_zero, Nat.sub_zero]
  rfl

end Simulates

/-! ### An append-only list of bytes -/

/-- The writer holds the bytes of the calls made on it, in order, as long as they stay within the limit.
The first call that would pass the limit throws: what was written stands, with no more behind it than a
part of what that call writes. -/
structure AppendsBytes (m : Memory) (this limit : ℕ) : Prop where
  appended : ∀ {calls bytes}, Writer.EncodesAll calls bytes → bytes.length ≤ limit →
    ∃ m', (run this calls).exec m = (.ok (), m') ∧ getBuffer m' this = bytes
  refused : ∀ {calls bytes c more}, Writer.EncodesAll calls bytes → Writer.Encodes c more →
    bytes.length ≤ limit → limit < bytes.length + more.length →
    ∃ m' e kept m'', (run this calls).exec m = (.ok (), m') ∧ getBuffer m' this = bytes ∧
      (call this c).exec m' = (.error e, m'') ∧ Writer.Full e ∧ getBuffer m'' this = bytes ++ kept ∧
      kept <+: more ∧ kept.length < more.length

/-- A buffer passed to the constructor is in memory. -/
def InMemory (m : Memory) : ConstructorArgument → Prop
  | .buffer buffer => buffer.block < m.heap.next
  | _ => True

/-- The capacity of a writer: what was asked for, or the most that can be allocated. -/
def capacityOf : ConstructorArgument → ℕ
  | .none => kMaxLength
  | .capacity size => size
  | .buffer buffer => buffer.size

/-- A writer that is as good as new appends. -/
theorem appendsBytes_of_valid {m : Memory} {this : ℕ} (h : Valid m this)
    (h_proper : Writer.Proper (toWriter m this)) (h_written : (toWriter m this).written = []) :
    AppendsBytes m this (toWriter m this).limit := by
  have h_appended {calls bytes} (h_calls : Writer.EncodesAll calls bytes)
      (h_fit : bytes.length ≤ (toWriter m this).limit) : ∃ m',
      (run this calls).exec m = (.ok (), m') ∧ Valid m' this ∧
        Writer.Appended (toWriter m this) bytes (toWriter m' this) := by
    obtain ⟨w, h_exec, h_app⟩ := (Writer.appendsWithin_run calls h_calls).fits h_proper
      (by rw [h_written, List.length_nil, Nat.zero_add]; exact h_fit)
    obtain ⟨m', h_run, h_value, h_keeps⟩ := simulates_run this calls m h
    rw [h_exec] at h_run h_value
    exact ⟨m', h_run, h_keeps.valid, h_value ▸ h_app⟩
  refine ⟨fun h_calls h_fit => ?_, fun h_calls h_call h_fit h_full => ?_⟩
  · obtain ⟨m', h_run, h_valid, h_app⟩ := h_appended h_calls h_fit
    refine ⟨m', h_run, ?_⟩
    rw [getBuffer_eq h_valid, h_app.written, h_written, List.nil_append]
  · obtain ⟨m', h_run, h_valid, h_app⟩ := h_appended h_calls h_fit
    have h_bytes := h_app.written
    rw [h_written, List.nil_append] at h_bytes
    obtain ⟨e, kept, w, h_exec, h_e, h_app', h_kept, h_less⟩ :=
      (Writer.appendsWithin_call _ h_call).full h_app.proper (by rw [h_app.limit, h_bytes]; exact h_full)
    obtain ⟨m'', h_throw, h_value, h_keeps⟩ := simulates_call this _ m' h_valid
    rw [h_exec] at h_throw h_value
    refine ⟨m', e, kept, m'', h_run, ?_, h_throw, h_e, ?_, h_kept, h_less⟩
    · rw [getBuffer_eq h_valid, h_bytes]
    · rw [getBuffer_eq h_keeps.valid, h_value, h_app'.written, h_bytes]

/-- A new writer over a buffer appends up to the size of the buffer, or up to what can be allocated. -/
theorem appendsBytes_withObject {m : Memory} {buffer : Region} {strict : Bool}
    (h : buffer.block < m.heap.next) (h_size : strict = true ∨ buffer.size = 0) :
    AppendsBytes (m.withObject buffer strict) m.nextWriter (if strict then buffer.size else kMaxLength) := by
  obtain ⟨h_valid, h_new⟩ := toWriter_withObject strict h
  have h_bytes : Writer.size ⟨[], m.bytes buffer, strict⟩ = buffer.size := by
    rw [Writer.size, List.length_nil, Nat.zero_add, bytes, Heap.length_load]
  have h_limit : Writer.limit ⟨[], m.bytes buffer, strict⟩ = if strict then buffer.size else kMaxLength := by
    rw [Writer.limit, h_bytes]
  rw [← h_limit, ← h_new]
  refine appendsBytes_of_valid h_valid ?_ ?_
  · rw [h_new]
    rcases h_size with h_strict | h_empty
    · exact .inl h_strict
    · exact .inr (.inl (h_bytes.trans h_empty))
  · rw [h_new]

/-- A writer over a buffer of its own. -/
theorem appendsBytes_alloc {m m₀ : Memory} {size : ℕ} {strict : Bool} {this : ℕ}
    (h_size : strict = true ∨ size = 0)
    (h : (alloc size >>= fun buffer => newObject buffer strict).exec m = (.ok this, m₀)) :
    AppendsBytes m₀ this (if strict then size else kMaxLength) := by
  obtain ⟨buffer, m₁, h_buffer, h_object⟩ := exec_bind_eq_ok.mp h
  unfold alloc at h_buffer
  split at h_buffer
  · cases h_buffer
  · cases h_buffer
    cases h_object
    exact @appendsBytes_withObject { m with heap := m.heap.alloc 0 } ⟨m.heap.next, 0, size⟩ strict
      (Nat.lt_succ_self _) h_size

/-- **Writers append.** A new writer holds the bytes of the calls made on it, in order and whatever has
been allocated, and refuses the first call for which its capacity is not enough. The loop that doubles
the capacity ends as soon as it is enough. -/
theorem appendsBytes_construct {m m₀ : Memory} {value : ConstructorArgument} {this : ℕ}
    (h_value : InMemory m value) (h : (construct value).exec m = (.ok this, m₀)) :
    AppendsBytes m₀ this (capacityOf value) ∧
      ∀ minCapacity capacity, 0 < capacity → ∃ k,
        Writer.growCapacity minCapacity minCapacity capacity = capacity * 2 ^ k ∧
        minCapacity ≤ capacity * 2 ^ k ∧ ∀ j < k, capacity * 2 ^ j < minCapacity := by
  refine ⟨?_, fun minCapacity capacity h_pos =>
    Writer.growCapacity_eq minCapacity h_pos (Nat.le_add_left _ _)⟩
  cases value with
  | none => exact appendsBytes_alloc (.inr rfl) h
  | capacity size => exact appendsBytes_alloc (.inl rfl) h
  | buffer buffer =>
    cases h
    exact appendsBytes_withObject h_value (.inl rfl)

/-- A memory without blocks or writers. -/
def empty : Memory := ⟨⟨fun _ _ => 0, 0⟩, fun _ => ⟨⟨0, 0, 0⟩, 0, false⟩, 0⟩

/-- A writer of three bytes. -/
theorem appendsBytes_construct_three :
    AppendsBytes ((construct (.capacity 3)).exec empty).2 0 3 ∧
      ∀ minCapacity capacity, 0 < capacity → ∃ k,
        Writer.growCapacity minCapacity minCapacity capacity = capacity * 2 ^ k ∧
        minCapacity ≤ capacity * 2 ^ k ∧ ∀ j < k, capacity * 2 ^ j < minCapacity :=
  @appendsBytes_construct empty _ (.capacity 3) 0 trivial rfl

example : ((do
    let this ← construct .none
    run this [.writeUInt (.number 7) 2, .createVarOctetString 3 [.createVarOctetString 2 [.write [1, 2]]]]
    return (← get).getBuffer this).exec empty).1 = .ok [0, 7, 3, 2, 1, 2] := by decide +kernel

end Memory

end Interledger.Oer
