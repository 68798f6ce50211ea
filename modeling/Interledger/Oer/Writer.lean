import Interledger.Lib.Codec
import Interledger.Oer.Util
import Mathlib.Tactic.IntervalCases

/-!
# The OER writer

`Writer` of `oer-utils/src/lib/writer.ts`. A writer over a buffer of its own grows it, one over a given
capacity or buffer is strict and throws instead. `createVarOctetString` hands out a strict writer over
a slice of the buffer, which here is the program that the caller runs on it.

The methods that `WriterInterface` shares with `Predictor` are also data (`WriterCall`), so that code
that writes to either is a list of calls.

## Main results

* `writes_write`, `writes_createVarOctetString`, `writes_writeVarOctetString` — what the methods add to
  the buffer;
* `lengthPrefix` — the shortest prefix, which `writeLengthPrefix` adds (`writes_writeLengthPrefix`).
-/

namespace Interledger.Oer

open Ilp (Buffer)
open Interledger.Action

/-- `Writer`: `written` is its buffer up to `_offset`, `rest` the buffer from there on. -/
structure Writer where
  written : Buffer
  rest : Buffer
  strict : Bool
  deriving DecidableEq

/-- `Buffer.alloc`. -/
def alloc {σ : Type} (size : ℕ) : Action σ OerError Buffer :=
  if kMaxLength < size then throw .rangeError else pure (List.replicate size 0)

/-- `LongValue | Buffer`, what the methods for variable-length integers take. -/
inductive VarValue
  | value (value : LongValue)
  | buffer (buffer : Buffer)
  deriving DecidableEq

namespace Writer

/-- `MAX_SAFE_INTEGER`. -/
def maxSafeInteger : ℤ := 0x1fffffffffffff

/-- `MIN_SAFE_INTEGER`. -/
def minSafeInteger : ℤ := -0x1fffffffffffff

/-- `MIN_BUFFER_SIZE`. -/
def minBufferSize : ℕ := 32

/-- `UINT_RANGES`. -/
def uintRanges : ℕ → ℤ
  | 1 => 0xff
  | 2 => 0xffff
  | 3 => 0xffffff
  | 4 => 0xffffffff
  | 5 => 0xffffffffff
  | _ => 0xffffffffffff

/-- `INT_RANGES`. -/
def intRanges : ℕ → ℤ × ℤ
  | 1 => (-0x80, 0x7f)
  | 2 => (-0x8000, 0x7fff)
  | 3 => (-0x800000, 0x7fffff)
  | 4 => (-0x80000000, 0x7fffffff)
  | 5 => (-0x8000000000, 0x7fffffffff)
  | _ => (-0x800000000000, 0x7fffffffffff)

/-- `new Writer()`. -/
def empty : Writer := ⟨[], [], false⟩

/-- `new Writer(buffer)`. -/
def ofBuffer (buffer : Buffer) : Writer := ⟨[], buffer, true⟩

/-- `getBuffer`. -/
def getBuffer (w : Writer) : Buffer := w.written

/-- `length`. -/
def length (w : Writer) : ℕ := w.written.length

/-- The loop that doubles the capacity, of which `rounds` as many as the capacity needed are
enough. -/
def growCapacity (minCapacity : ℕ) : ℕ → ℕ → ℕ
  | 0, capacity => capacity
  | rounds + 1, capacity =>
    if capacity < minCapacity then growCapacity minCapacity rounds (capacity * 2) else capacity

/-- `advance`, up to the change of the offset, which comes with what the callers write there. -/
def advance (advanceBy : ℕ) : Action Writer OerError Unit := do
  let w ← get
  let minCapacity := w.written.length + advanceBy
  let size := w.written.length + w.rest.length
  if minCapacity ≤ size then pure ()
  else if w.strict then throw (.error "writer cannot exceed capacity")
  else
    let capacity := growCapacity minCapacity minCapacity (if size = 0 then minBufferSize else size)
    let newBuffer ← alloc capacity
    modify fun w => { w with rest := w.rest ++ newBuffer.drop size }

/-- `write`. -/
def write (buffer : Buffer) : Action Writer OerError Unit := do
  advance buffer.length
  modify fun w => { w with written := w.written ++ buffer, rest := w.rest.drop buffer.length }

/-- `writeUInt`. `Buffer.writeUIntBE` writes the bytes of the number. -/
def writeUInt (value : LongValue) (length : ℕ) : Action Writer OerError Unit :=
  if !value.isInteger then throw (.error "UInt must be an integer")
  else if value.isNumberAbove maxSafeInteger then
    throw (.error "UInt is larger than safe JavaScript range (try using Longs instead)")
  else if length = 0 then throw (.error "UInt length must be greater than zero")
  else if value.isLongOf false then throw (.error "Expected unsigned Long")
  else if length ≤ maxSafeBytes then
    if value.toNumber < 0 then throw (.error "UInt must be positive")
    else if value.toNumber > uintRanges length then
      throw (.error ("UInt " ++ value.toText ++ " does not fit in " ++ toString length ++ " bytes"))
    else write (Bytes.toBytes length value.toNumber.toNat)
  else do
    let long ← longFromValue value true
    let size ← getLongUIntBufferSize long
    if length < size then
      throw (.error ("UInt " ++ toString long.toNat ++ " does not fit in " ++ toString length ++
        " bytes"))
    else write (longToBuffer long length)

/-- `writeInt`. `Buffer.writeIntBE` writes the number in two's complement. -/
def writeInt (value : LongValue) (length : ℕ) : Action Writer OerError Unit :=
  if !value.isInteger then throw (.error "Int must be an integer")
  else if length = 0 then throw (.error "Int length must be greater than zero")
  else if value.isNumberAbove maxSafeInteger then
    throw (.error "Int is larger than safe JavaScript range (try using Longs instead)")
  else if value.isNumberBelow minSafeInteger then
    throw (.error "Int is smaller than safe JavaScript range (try using Longs instead)")
  else if value.isLongOf true then throw (.error "Expected signed Long")
  else if length ≤ maxSafeBytes then
    if value.toNumber < (intRanges length).1 ∨ value.toNumber > (intRanges length).2 then
      throw (.error ("Int " ++ value.toText ++ " does not fit in " ++ toString length ++ " bytes"))
    else write (Bytes.toSignedBytes length value.toNumber)
  else do
    let long ← longFromValue value false
    let size ← getLongIntBufferSize long
    if length < size then
      throw (.error ("Int " ++ toString long.toInt ++ " does not fit in " ++ toString length ++
        " bytes"))
    else write (longToBuffer long length)

/-- `writeUInt8`, one of the shortcuts for a fixed length. -/
def writeUInt8 (value : LongValue) : Action Writer OerError Unit := writeUInt value 1

/-- `_writeLengthPrefix`. -/
def writeLengthPrefix (length : ℕ) : Action Writer OerError Unit :=
  if length ≤ 127 then writeUInt8 (.number length)
  else do
    let lengthOfLength := getUIntBufferSize length
    writeUInt8 (.number (0x80 ||| lengthOfLength : ℕ))
    writeUInt (.number length) lengthOfLength

/-- `createVarOctetString`, with what the caller writes to the writer it returns. -/
def createVarOctetString (length : ℕ) (contents : Action Writer OerError Unit) :
    Action Writer OerError Unit := do
  writeLengthPrefix length
  advance length
  let w ← get
  let (result, slice) := contents.exec (ofBuffer (w.rest.take length))
  modify fun w =>
    { w with written := w.written ++ (slice.written ++ slice.rest), rest := w.rest.drop length }
  match result with
  | .ok () => pure ()
  | .error e => throw e

/-- `writeVarOctetString`. -/
def writeVarOctetString (buffer : Buffer) : Action Writer OerError Unit := do
  writeLengthPrefix buffer.length
  write buffer

/-- `writeOctetString`. -/
def writeOctetString (buffer : Buffer) (length : ℕ) : Action Writer OerError Unit :=
  if buffer.length ≠ length then
    throw (.error ("Incorrect length for octet string (actual: " ++ toString buffer.length ++
      ", expected: " ++ toString length ++ ")"))
  else write buffer

/-- `writeVarUInt`. -/
def writeVarUInt : VarValue → Action Writer OerError Unit
  | .buffer buffer => writeVarOctetString buffer
  | .value value =>
    if !value.isInteger then throw (.error "UInt must be an integer")
    else match value with
      | .number n => createVarOctetString (getUIntBufferSize n) (writeUInt value (getUIntBufferSize n))
      | _ => do
        let long ← longFromValue value true
        let lengthOfValue ← getLongUIntBufferSize long
        createVarOctetString lengthOfValue (writeUInt (.long true long) lengthOfValue)

/-- `writeVarInt`. -/
def writeVarInt : VarValue → Action Writer OerError Unit
  | .buffer buffer => writeVarOctetString buffer
  | .value value =>
    if !value.isInteger then throw (.error "Int must be an integer")
    else if value.isNumberAbove maxSafeInteger then
      throw (.error "Int is larger than safe JavaScript range")
    else if value.isNumberBelow minSafeInteger then
      throw (.error "Int is smaller than safe JavaScript range")
    else match value with
      | .number n => createVarOctetString (getIntBufferSize n) (writeInt value (getIntBufferSize n))
      | _ => do
        let long ← longFromValue value false
        let lengthOfValue ← getLongIntBufferSize long
        createVarOctetString lengthOfValue (writeInt (.long false long) lengthOfValue)

end Writer

/-- A call of a method of `WriterInterface`. The calls that a caller makes on the writer of a new octet
string come with the call that creates it. -/
inductive WriterCall
  | writeUInt (value : LongValue) (length : ℕ)
  | writeInt (value : LongValue) (length : ℕ)
  | writeVarUInt (value : VarValue)
  | writeVarInt (value : VarValue)
  | writeOctetString (buffer : Buffer) (length : ℕ)
  | writeVarOctetString (buffer : Buffer)
  | createVarOctetString (length : ℕ) (contents : List WriterCall)
  | write (buffer : Buffer)

namespace Writer

mutual

/-- One call on a writer. -/
def call : WriterCall → Action Writer OerError Unit
  | .writeUInt value length => writeUInt value length
  | .writeInt value length => writeInt value length
  | .writeVarUInt value => writeVarUInt value
  | .writeVarInt value => writeVarInt value
  | .writeOctetString buffer length => writeOctetString buffer length
  | .writeVarOctetString buffer => writeVarOctetString buffer
  | .createVarOctetString length contents => createVarOctetString length (run contents)
  | .write buffer => write buffer

/-- A list of calls on a writer. -/
def run : List WriterCall → Action Writer OerError Unit
  | [] => pure ()
  | c :: calls => do
    call c
    run calls

end

example : ((run [.writeUInt (.number 7) 2, .createVarOctetString 3 [.write [1, 2]]]).exec empty).2.written =
    [0, 7, 3, 1, 2, 0] := by decide +kernel

/-! ### Room -/

/-- The error of a writer that cannot take more. -/
def Full (e : OerError) : Prop := e = .rangeError ∨ e = .error "writer cannot exceed capacity"

/-- So many bytes fit, or the buffer can be grown to hold them: doubling its size does not take more
than twice what is needed. -/
def HasRoom (n : ℕ) (w : Writer) : Prop :=
  n ≤ w.rest.length ∨ w.strict = false ∧ 2 * (w.written.length + n) ≤ kMaxLength

/-- The second writer is the first with `bytes` written, for which a strict writer had the room. -/
structure Extends (w : Writer) (bytes : Buffer) (w' : Writer) : Prop where
  written : w'.written = w.written ++ bytes
  strict : w'.strict = w.strict
  fits : w.strict = true → bytes.length ≤ w.rest.length
  rest : bytes.length ≤ w.rest.length → w'.rest = w.rest.drop bytes.length

instance : Sink Writer UInt8 OerError where
  Extends := Extends
  HasRoom := HasRoom
  Full := Full
  extends_nil w := ⟨(List.append_nil _).symm, rfl, fun _ => Nat.zero_le _, fun _ => rfl⟩
  extends_append {w w' w'' bytes bytes'} h h' := by
    refine ⟨?_, h'.strict.trans h.strict, fun h_strict => ?_, fun h_fit => ?_⟩
    · rw [h'.written, h.written, List.append_assoc]
    · have h_first := h.fits h_strict
      have h_second := h'.fits (h.strict.trans h_strict)
      rw [h.rest h_first, List.length_drop] at h_second
      rw [List.length_append]
      omega
    · rw [List.length_append] at h_fit ⊢
      have h_first := h.rest (by omega)
      rw [h'.rest (by rw [h_first, List.length_drop]; omega), h_first, List.drop_drop]
  hasRoom_of_add {m n w} h := by
    rcases h with h_fit | ⟨h_strict, h_grow⟩
    · exact .inl (by omega)
    · exact .inr ⟨h_strict, by omega⟩
  hasRoom_after {n w w' bytes} h h' := by
    rcases h with h_fit | ⟨h_strict, h_grow⟩
    · refine .inl ?_
      rw [h'.rest (by omega), List.length_drop]
      omega
    · refine .inr ⟨h'.strict.trans h_strict, ?_⟩
      rw [h'.written, List.length_append]
      omega

/-- Doubling reaches the capacity needed, and stops before twice that. -/
theorem growCapacity_bounds (minCapacity : ℕ) (rounds capacity : ℕ) (h_pos : 0 < capacity)
    (h_rounds : minCapacity ≤ capacity + rounds) :
    minCapacity ≤ growCapacity minCapacity rounds capacity ∧
      growCapacity minCapacity rounds capacity ≤ max capacity (2 * minCapacity) := by
  induction rounds generalizing capacity with
  | zero => exact ⟨h_rounds, le_max_left _ _⟩
  | succ rounds ih =>
    rw [growCapacity]
    split
    · next h_less =>
      obtain ⟨h_low, h_high⟩ := ih (capacity * 2) (by omega) (by omega)
      exact ⟨h_low, h_high.trans (by omega)⟩
    · next h_enough => exact ⟨not_lt.mp h_enough, le_max_left _ _⟩

/-- **Making room.** `advance` leaves what was written and the bytes that were there, and is followed by
room enough, unless the writer is full. -/
theorem exec_advance (n : ℕ) (w : Writer) :
    (∃ w', (advance n).exec w = (.ok (), w') ∧ w'.written = w.written ∧ w'.strict = w.strict ∧
      n ≤ w'.rest.length ∧ (w.strict = true → n ≤ w.rest.length) ∧
      (n ≤ w.rest.length → w'.rest = w.rest)) ∨
    (¬HasRoom n w ∧ ∃ e w', (advance n).exec w = (.error e, w') ∧ Full e) := by
  unfold advance
  rw [exec_bind_ok (exec_get w)]
  simp only
  -- there is room in the buffer
  by_cases h_fit : w.written.length + n ≤ w.written.length + w.rest.length
  · rw [if_pos h_fit]
    exact .inl ⟨w, rfl, rfl, rfl, by omega, fun _ => by omega, fun _ => rfl⟩
  rw [if_neg h_fit]
  -- a strict writer does not grow
  by_cases h_strict : w.strict = true
  · rw [if_pos h_strict]
    refine .inr ⟨?_, _, w, rfl, .inr rfl⟩
    rintro (h | ⟨h, -⟩)
    · omega
    · rw [h_strict] at h
      cases h
  rw [if_neg h_strict]
  -- a larger buffer is allocated, unless it would be too large
  obtain ⟨h_enough, h_bound⟩ := growCapacity_bounds (w.written.length + n)
    (w.written.length + n)
    (if w.written.length + w.rest.length = 0 then minBufferSize else w.written.length + w.rest.length)
    (by split <;> [decide; omega]) (by omega)
  generalize growCapacity _ _ _ = capacity at h_enough h_bound ⊢
  unfold alloc
  by_cases h_large : kMaxLength < capacity
  · rw [if_pos h_large]
    refine .inr ⟨?_, _, w, rfl, .inl rfl⟩
    rintro (h | ⟨-, h⟩)
    · omega
    · -- the first capacity is below the limit
      have h_min : minBufferSize ≤ kMaxLength := by decide
      split at h_bound <;> omega
  · rw [if_neg h_large]
    refine .inl ⟨_, rfl, rfl, rfl, ?_, fun h => absurd h h_strict,
      fun h => absurd (Nat.add_le_add_left h _) h_fit⟩
    simp only [List.length_append, List.length_drop, List.length_replicate]
    omega

/-- **Writing bytes.** -/
theorem writes_write (bytes : Buffer) : Writes (write bytes) bytes := by
  intro w
  unfold write
  rcases exec_advance bytes.length w with
    ⟨w', h_exec, h_written, h_strict, -, h_fits, h_rest⟩ | ⟨h_full, e, w', h_exec, h_error⟩
  · rw [exec_bind_ok h_exec]
    refine .inl ⟨_, rfl, ?_, h_strict, h_fits, fun h_fit => ?_⟩
    · change w'.written ++ bytes = w.written ++ bytes
      rw [h_written]
    · change w'.rest.drop bytes.length = w.rest.drop bytes.length
      rw [h_rest h_fit]
  · rw [exec_bind_error h_exec]
    exact .inr ⟨h_full, e, w', rfl, h_error⟩

/-! ### Integers of a fixed length -/

variable {value : LongValue} {k : ℕ}

/-- The ranges of the first lengths are those of the encoding. -/
theorem uintRanges_eq (h_pos : 1 ≤ k) (hk : k ≤ maxSafeBytes) : uintRanges k = 256 ^ k - 1 := by
  unfold maxSafeBytes at hk
  interval_cases k <;> rfl

theorem intRanges_eq (h_pos : 1 ≤ k) (hk : k ≤ maxSafeBytes) :
    (intRanges k).1 * 2 = -256 ^ k ∧ (intRanges k).2 * 2 = 256 ^ k - 2 := by
  unfold maxSafeBytes at hk
  interval_cases k <;> exact ⟨rfl, rfl⟩

/-- The checks before the length of an unsigned integer is looked at. -/
theorem writeUInt_of_accepted (h : value.Accepted true) (h_pos : 1 ≤ k) :
    writeUInt value k =
      if k ≤ maxSafeBytes then
        if value.toNumber < 0 then throw (.error "UInt must be positive")
        else if value.toNumber > uintRanges k then
          throw (.error ("UInt " ++ value.toText ++ " does not fit in " ++ toString k ++ " bytes"))
        else write (Bytes.toBytes k value.toNumber.toNat)
      else
        longFromValue value true >>= fun long => getLongUIntBufferSize long >>= fun size =>
          if k < size then
            throw (.error ("UInt " ++ toString long.toNat ++ " does not fit in " ++ toString k ++
              " bytes"))
          else write (longToBuffer long k) := by
  have h_long : value.isLongOf false = false := LongValue.isLongOf_of_accepted h
  rw [writeUInt, LongValue.isInteger_of_accepted h,
    LongValue.isNumberAbove_of_accepted h (by decide), h_long]
  simp only [Bool.not_true, Bool.false_eq_true, if_false]
  rw [if_neg (by omega)]

/-- **`writeUInt` up to six bytes** writes what fits and throws otherwise. -/
theorem writeUInt_short (h : value.Accepted true) (h_pos : 1 ≤ k) (hk : k ≤ maxSafeBytes) :
    Fits false k value.toInt ∧ writeUInt value k = write (Bytes.toBytes k value.toInt.toNat) ∨
      ¬Fits false k value.toInt ∧ ∃ e, writeUInt value k = throw e := by
  have h_range := uintRanges_eq h_pos hk
  have h_small : (256 : ℤ) ^ k ≤ 256 ^ 6 := pow_le_pow_right₀ (by norm_num) hk
  have h_one : (1 : ℤ) ≤ 256 ^ k := one_le_pow₀ (by norm_num)
  have h_zero := LongValue.toNumber_lt_iff (b := 0) (by norm_num) value
  have h_max := LongValue.lt_toNumber_iff (b := 256 ^ k - 1) (by omega) value
  rw [writeUInt_of_accepted h h_pos, if_pos hk, h_range, Fits, if_neg Bool.false_ne_true]
  by_cases h_neg : value.toNumber < 0
  · rw [if_pos h_neg]
    exact .inr ⟨fun h_fits => absurd (h_zero.mp h_neg) (not_lt.mpr h_fits.1), _, rfl⟩
  by_cases h_above : value.toNumber > 256 ^ k - 1
  · rw [if_neg h_neg, if_pos h_above]
    have h_int := h_max.mp h_above
    exact .inr ⟨fun h_fits => by omega, _, rfl⟩
  · rw [if_neg h_neg, if_neg h_above]
    have h_low := not_lt.mp (h_zero.not.mp h_neg)
    have h_high := not_lt.mp (h_max.not.mp h_above)
    rw [LongValue.toNumber_eq (by omega)]
    exact .inl ⟨⟨h_low, by omega⟩, rfl⟩

/-- Past six bytes, a minus sign is refused, even before zero. -/
theorem writeUInt_of_isNegative (h : value.Accepted true) (h_long : maxSafeBytes < k)
    (h_sign : value.isNegative = true) : ∃ e, writeUInt value k = throw e := by
  rw [writeUInt_of_accepted h (by omega), if_neg (not_le.mpr h_long), longFromValue_eq h,
    if_pos ⟨rfl, h_sign⟩]
  exact ⟨_, rfl⟩

/-- The unsigned `Long` of a value without a minus sign. -/
theorem toNat_ofInt_toInt (h : value.Accepted true) (h_sign : value.isNegative = false) :
    ((BitVec.ofInt 64 value.toInt).toNat : ℤ) = value.toInt := by
  have h_nonneg := LongValue.toInt_nonneg h h_sign
  have h_lt := LongValue.toInt_lt h
  rw [BitVec.toNat_ofInt, Int.toNat_of_nonneg (Int.emod_nonneg _ (by norm_num)),
    Int.emod_eq_of_lt h_nonneg (by exact_mod_cast h_lt)]

/-- **`writeUInt` past six bytes** writes the end of the `Long`, when it fits. -/
theorem writeUInt_long (h : value.Accepted true) (h_long : maxSafeBytes < k)
    (h_sign : value.isNegative = false) :
    Fits false k value.toInt ∧
        writeUInt value k = write (longToBuffer (BitVec.ofInt 64 value.toInt) k) ∨
      ¬Fits false k value.toInt ∧ ∃ e, writeUInt value k = throw e := by
  obtain ⟨size, -, h_size, h_short⟩ :=
    getLongUIntBufferSize_eq (σ := Writer) (BitVec.ofInt 64 value.toInt)
  rw [toNat_ofInt_toInt h h_sign] at h_short
  have h_fits := h_short.le_iff (j := k) (by omega)
  rw [writeUInt_of_accepted h (by omega), if_neg (not_le.mpr h_long), longFromValue_eq h,
    if_neg (fun h => Bool.false_ne_true (h_sign.symm.trans h.2)), pure_bind, h_size, pure_bind]
  by_cases h_less : k < size
  · rw [if_pos h_less]
    exact .inr ⟨fun h => absurd (h_fits.mpr h) (not_le.mpr h_less), _, rfl⟩
  · rw [if_neg h_less]
    exact .inl ⟨h_fits.mp (not_lt.mp h_less), rfl⟩

/-- The checks before the length of a signed integer is looked at. -/
theorem writeInt_of_accepted (h : value.Accepted false) (h_pos : 1 ≤ k) :
    writeInt value k =
      if k ≤ maxSafeBytes then
        if value.toNumber < (intRanges k).1 ∨ value.toNumber > (intRanges k).2 then
          throw (.error ("Int " ++ value.toText ++ " does not fit in " ++ toString k ++ " bytes"))
        else write (Bytes.toSignedBytes k value.toNumber)
      else
        longFromValue value false >>= fun long => getLongIntBufferSize long >>= fun size =>
          if k < size then
            throw (.error ("Int " ++ toString long.toInt ++ " does not fit in " ++ toString k ++
              " bytes"))
          else write (longToBuffer long k) := by
  have h_long : value.isLongOf true = false := LongValue.isLongOf_of_accepted h
  rw [writeInt, LongValue.isInteger_of_accepted h,
    LongValue.isNumberAbove_of_accepted h (by decide),
    LongValue.isNumberBelow_of_accepted h (by decide), h_long]
  simp only [Bool.not_true, Bool.false_eq_true, if_false]
  rw [if_neg (by omega)]

/-- **`writeInt` up to six bytes** writes what fits and throws otherwise. -/
theorem writeInt_short (h : value.Accepted false) (h_pos : 1 ≤ k) (hk : k ≤ maxSafeBytes) :
    Fits true k value.toInt ∧ writeInt value k = write (Bytes.toSignedBytes k value.toInt) ∨
      ¬Fits true k value.toInt ∧ ∃ e, writeInt value k = throw e := by
  obtain ⟨h_min, h_max⟩ := intRanges_eq h_pos hk
  have h_small : (256 : ℤ) ^ k ≤ 256 ^ 6 := pow_le_pow_right₀ (by norm_num) hk
  have h_one : (1 : ℤ) ≤ 256 ^ k := one_le_pow₀ (by norm_num)
  have h_below := LongValue.toNumber_lt_iff (b := (intRanges k).1) (by omega) value
  have h_above := LongValue.lt_toNumber_iff (b := (intRanges k).2) (by omega) value
  rw [writeInt_of_accepted h h_pos, if_pos hk, Fits, if_pos rfl]
  by_cases h_out : value.toNumber < (intRanges k).1 ∨ value.toNumber > (intRanges k).2
  · rw [if_pos h_out]
    refine .inr ⟨fun h_fits => ?_, _, rfl⟩
    rcases h_out with h_low | h_high
    · have h_int := h_below.mp h_low
      omega
    · have h_int := h_above.mp h_high
      omega
  · rw [if_neg h_out]
    obtain ⟨h_low, h_high⟩ := not_or.mp h_out
    have h_low' := h_below.not.mp h_low
    have h_high' := h_above.not.mp h_high
    rw [LongValue.toNumber_eq (by omega)]
    exact .inl ⟨by omega, rfl⟩

/-- **`writeInt` past six bytes** writes the end of the `Long`, when it fits. -/
theorem writeInt_long (h : value.Accepted false) (h_long : maxSafeBytes < k) :
    Fits true k (BitVec.ofInt 64 value.toInt).toInt ∧
        writeInt value k = write (longToBuffer (BitVec.ofInt 64 value.toInt) k) ∨
      ¬Fits true k (BitVec.ofInt 64 value.toInt).toInt ∧ ∃ e, writeInt value k = throw e := by
  obtain ⟨size, -, h_size, h_short⟩ :=
    getLongIntBufferSize_eq (σ := Writer) (BitVec.ofInt 64 value.toInt)
  have h_fits := h_short.le_iff (j := k) (by omega)
  rw [writeInt_of_accepted h (by omega), if_neg (not_le.mpr h_long), longFromValue_eq h,
    if_neg (fun h => Bool.false_ne_true h.1), pure_bind, h_size, pure_bind]
  by_cases h_less : k < size
  · rw [if_pos h_less]
    exact .inr ⟨fun h => absurd (h_fits.mpr h) (not_le.mpr h_less), _, rfl⟩
  · rw [if_neg h_less]
    exact .inl ⟨h_fits.mp (not_lt.mp h_less), rfl⟩

/-! ### Octet strings of variable length -/

/-- The shortest length prefix: the length itself up to 127, otherwise the length of the length with the
highest bit set, and the length. -/
def lengthPrefix (n : ℕ) : Buffer :=
  if n ≤ 127 then Bytes.toBytes 1 n
  else Bytes.toBytes 1 (0x80 + getUIntBufferSize n) ++ Bytes.toBytes (getUIntBufferSize n) n

/-- The size of a number that is written as a length. -/
theorem shortest_length {n : ℕ} (h : n < 2 ^ 53) : Shortest false (getUIntBufferSize n) n :=
  shortest_getUIntBufferSize (Int.natCast_nonneg n) (by exact_mod_cast h)

/-- The lengths of a length are those that hold it. -/
theorem getUIntBufferSize_le_iff {n : ℕ} (h : n < 2 ^ 53) (h_pos : 1 ≤ k) :
    getUIntBufferSize n ≤ k ↔ n < 256 ^ k := by
  rw [(shortest_length h).le_iff h_pos, Fits, if_neg Bool.false_ne_true]
  exact ⟨fun h_fits => by exact_mod_cast h_fits.2,
    fun h_lt => ⟨Int.natCast_nonneg n, by exact_mod_cast h_lt⟩⟩

/-- Seven bytes hold every length that can be written. -/
theorem getUIntBufferSize_le {n : ℕ} (h : n < 2 ^ 53) : getUIntBufferSize n ≤ 7 :=
  (getUIntBufferSize_le_iff h (by omega)).mpr (by omega)

/-- A number that fits is written. -/
theorem writeUInt_number {n : ℕ} (h_safe : n < 2 ^ 53) (h_pos : 1 ≤ k) (hk : k ≤ 8)
    (h_fits : n < 256 ^ k) : writeUInt (.number n) k = write (Bytes.toBytes k n) := by
  have h_accepted : (LongValue.number n).Accepted true := h_safe
  have h_int : Fits false k n := by
    rw [Fits, if_neg Bool.false_ne_true]
    exact ⟨Int.natCast_nonneg n, by exact_mod_cast h_fits⟩
  by_cases h_short : k ≤ maxSafeBytes
  · rcases writeUInt_short h_accepted h_pos h_short with ⟨-, h_eq⟩ | ⟨h_not, -⟩
    · exact h_eq
    · exact absurd h_int h_not
  · have h_sign : (LongValue.number n).isNegative = false :=
      decide_eq_false (not_lt.mpr (Int.natCast_nonneg n))
    rcases writeUInt_long h_accepted (not_le.mp h_short) h_sign with ⟨-, h_eq⟩ | ⟨h_not, -⟩
    · rw [h_eq, longToBuffer_eq hk]
      congr 2
      exact Int.ofNat_inj.mp (toNat_ofInt_toInt h_accepted h_sign)
    · exact absurd h_int h_not

/-- The writes that a length prefix is made of. -/
theorem writeLengthPrefix_eq {n : ℕ} (h : n < 2 ^ 53) : writeLengthPrefix n =
    if n ≤ 127 then write (Bytes.toBytes 1 n)
    else write (Bytes.toBytes 1 (0x80 + getUIntBufferSize n)) >>= fun _ =>
      write (Bytes.toBytes (getUIntBufferSize n) n) := by
  unfold writeLengthPrefix writeUInt8
  by_cases h_short : n ≤ 127
  · rw [if_pos h_short, if_pos h_short, writeUInt_number h (by omega) (by omega) (by omega)]
  · have h_size := getUIntBufferSize_le h
    have h_pos := (shortest_length h).pos
    have h_fits := (getUIntBufferSize_le_iff h h_pos).mp le_rfl
    have h_or : 0x80 ||| getUIntBufferSize n = 0x80 + getUIntBufferSize n :=
      (Nat.two_pow_add_eq_or_of_lt (i := 7) (by omega) 1).symm
    rw [if_neg h_short, if_neg h_short]
    simp only
    rw [h_or, writeUInt_number (by omega) (by omega) (by omega) (by omega),
      writeUInt_number h h_pos (by omega) h_fits]

/-- **`writeLengthPrefix`** adds the shortest prefix. -/
theorem writes_writeLengthPrefix {n : ℕ} (h : n < 2 ^ 53) :
    Writes (writeLengthPrefix n) (lengthPrefix n) := by
  rw [writeLengthPrefix_eq h, lengthPrefix]
  split
  · exact writes_write _
  · exact (writes_write _).bind (writes_write _)

/-- A number above the safe range is not written, -/
theorem throws_writeUInt_number {n : ℕ} (h : 2 ^ 53 ≤ n) (k : ℕ) :
    ∃ e, writeUInt (.number n) k = throw e := by
  have h_above : (LongValue.number n).isNumberAbove maxSafeInteger = true := by
    apply decide_eq_true
    unfold maxSafeInteger
    omega
  refine ⟨.error "UInt is larger than safe JavaScript range (try using Longs instead)", ?_⟩
  have h_integer : (LongValue.number n).isInteger = true := rfl
  rw [writeUInt, h_integer, if_neg (by decide), if_pos h_above]

/-- nor such a length. -/
theorem throws_writeLengthPrefix {n : ℕ} (h : 2 ^ 53 ≤ n) (w : Writer) :
    ∃ e w', (writeLengthPrefix n).exec w = (.error e, w') := by
  obtain ⟨e, h_throw⟩ := throws_writeUInt_number h (getUIntBufferSize n)
  unfold writeLengthPrefix
  rw [if_neg (by omega)]
  simp only
  rw [h_throw, exec_bind]
  cases h_exec : (writeUInt8 (.number (0x80 ||| getUIntBufferSize n : ℕ))).exec w with
  | mk result w' =>
    cases result with
    | ok u => exact ⟨e, w', rfl⟩
    | error e' => exact ⟨e', w', rfl⟩

/-- **Handing out a slice.** With room for the prefix and the slice, the contents are written to a slice
of the length asked for, and what they leave of it stays in the buffer. -/
theorem exec_createVarOctetString {n : ℕ} (hn : n < 2 ^ 53) (contents : Action Writer OerError Unit)
    (w : Writer) :
    (∃ slice w', slice.length = n ∧
      (createVarOctetString n contents).exec w = ((contents.exec (ofBuffer slice)).1, w') ∧
      w'.written = w.written ++ lengthPrefix n ++
        ((contents.exec (ofBuffer slice)).2.written ++ (contents.exec (ofBuffer slice)).2.rest) ∧
      w'.strict = w.strict ∧
      (w.strict = true → (lengthPrefix n).length + n ≤ w.rest.length) ∧
      ((lengthPrefix n).length + n ≤ w.rest.length →
        slice = (w.rest.drop (lengthPrefix n).length).take n ∧
        w'.rest = w.rest.drop ((lengthPrefix n).length + n))) ∨
    (¬HasRoom ((lengthPrefix n).length + n) w ∧
      ∃ e w', (createVarOctetString n contents).exec w = (.error e, w') ∧ Full e) := by
  unfold createVarOctetString
  -- the prefix is written
  rcases writes_writeLengthPrefix hn w with ⟨w₁, h_length, h_ext⟩ | ⟨h_full, e, w₁, h_length, h_error⟩
  · have h_ext : Extends w (lengthPrefix n) w₁ := h_ext
    rw [exec_bind_ok h_length]
    -- the slice is passed over, and the contents are written into it
    rcases exec_advance n w₁ with
      ⟨w₂, h_advance, h_written, h_strict, h_enough, h_fits, h_rest⟩ |
      ⟨h_full, e, w₂, h_advance, h_error⟩
    · rw [exec_bind_ok h_advance, exec_bind_ok (exec_get w₂)]
      cases h_contents : contents.exec (ofBuffer (w₂.rest.take n)) with
      | mk result c =>
      refine .inl ⟨w₂.rest.take n,
        { w₂ with written := w₂.written ++ (c.written ++ c.rest), rest := w₂.rest.drop n },
        List.length_take_of_le h_enough, ?_, ?_, h_strict.trans h_ext.strict, fun h_w => ?_,
        fun h_fit => ?_⟩
      · -- however the contents end, the program ends the same way
        rw [h_contents]
        cases result with
        | ok u => rfl
        | error e => rfl
      · rw [h_contents, h_written, h_ext.written]
      · -- a strict writer has had room for both
        have h_prefix_fits := h_ext.fits h_w
        have h_slice_fits := h_fits (h_ext.strict.trans h_w)
        rw [h_ext.rest h_prefix_fits, List.length_drop] at h_slice_fits
        omega
      · -- with room for both the buffer is not replaced
        have h_rest₁ := h_ext.rest (by omega)
        have h_rest₂ := h_rest (by rw [h_rest₁, List.length_drop]; omega)
        refine ⟨by rw [h_rest₂, h_rest₁], ?_⟩
        change w₂.rest.drop n = _
        rw [h_rest₂, h_rest₁, List.drop_drop]
    · rw [exec_bind_error h_advance]
      exact .inr ⟨fun h_room => h_full (Sink.hasRoom_after (σ := Writer) h_room h_ext), e, w₂, rfl,
        h_error⟩
  · rw [exec_bind_error h_length]
    exact .inr ⟨fun h_room => h_full (Sink.hasRoom_of_add (σ := Writer) h_room), e, w₁, rfl, h_error⟩

/-- **`createVarOctetString`** with contents of the length announced. -/
theorem writes_createVarOctetString {n : ℕ} {contents : Action Writer OerError Unit} {bytes : Buffer}
    (h : Writes contents bytes) (h_length : bytes.length = n) (hn : n < 2 ^ 53) :
    Writes (createVarOctetString n contents) (lengthPrefix n ++ bytes) := by
  intro w
  rw [List.length_append, h_length]
  rcases exec_createVarOctetString hn contents w with
    ⟨slice, w', h_slice, h_exec, h_written, h_strict, h_fits, h_rest⟩ | h_full
  · obtain ⟨c, h_contents, h_ext⟩ := h.exec_of_hasRoom (s := ofBuffer slice)
      (.inl (by rw [h_length, ← h_slice]; exact le_rfl))
    have h_ext : Extends (ofBuffer slice) bytes c := h_ext
    have h_nil : c.rest = [] := by
      rw [h_ext.rest (by rw [h_length, ← h_slice]; exact le_rfl)]
      exact List.drop_eq_nil_of_le (by rw [h_length, ← h_slice]; exact le_rfl)
    have h_bytes : c.written = bytes := h_ext.written
    rw [h_contents] at h_exec h_written
    refine .inl ⟨w', h_exec, ?_, h_strict, fun h_w => ?_, fun h_fit => ?_⟩
    · rw [h_written, h_nil, h_bytes, List.append_nil, List.append_assoc]
    · rw [List.length_append, h_length]
      exact h_fits h_w
    · rw [List.length_append, h_length] at h_fit ⊢
      exact (h_rest h_fit).2
  · exact .inr h_full

/-- Contents that throw make it throw. -/
theorem throws_createVarOctetString {n : ℕ} {contents : Action Writer OerError Unit}
    (h : ∀ slice, slice.length = n → ∃ e c, contents.exec (ofBuffer slice) = (.error e, c)) (w : Writer) :
    ∃ e w', (createVarOctetString n contents).exec w = (.error e, w') := by
  by_cases hn : n < 2 ^ 53
  · rcases exec_createVarOctetString hn contents w with
      ⟨slice, w', h_slice, h_exec, -⟩ | ⟨-, e, w', h_exec, -⟩
    · obtain ⟨e, c, h_contents⟩ := h slice h_slice
      rw [h_contents] at h_exec
      exact ⟨e, w', h_exec⟩
    · exact ⟨e, w', h_exec⟩
  · obtain ⟨e, w', h_exec⟩ := throws_writeLengthPrefix (not_lt.mp hn) w
    exact ⟨e, w', exec_bind_error h_exec⟩

/-- **`writeVarOctetString`** -/
theorem writes_writeVarOctetString {bytes : Buffer} (h : bytes.length < 2 ^ 53) :
    Writes (writeVarOctetString bytes) (lengthPrefix bytes.length ++ bytes) :=
  (writes_writeLengthPrefix h).bind (writes_write bytes)

end Writer

end Interledger.Oer
