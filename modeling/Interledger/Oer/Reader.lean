import Interledger.Oer.Writer

/-!
# The OER reader

`Reader` of `oer-utils/src/lib/reader.ts`: a buffer and a cursor into it. Integers are read as numbers,
as `Long`s or as decimal texts, and a peek is a read that leaves the cursor where it was.

A length is a natural number here, so that the branches for negative lengths are left out.

## Main results

* `reads_readUIntNumber`, `reads_readUIntLong`, `reads_readIntNumber`, `reads_readIntLong` — what the
  readers make of the bytes at the cursor;
* `reads_readVarOctetString` — the reader reads back what `writeVarOctetString` writes.
-/

namespace Interledger.Oer

open Ilp (Buffer)
open Interledger.Action

/-- `Reader`. -/
structure Reader where
  buffer : Buffer
  cursor : ℕ
  bookmarks : List ℕ
  deriving DecidableEq

namespace Reader

/-- `new Reader(buffer)`, and `Reader.from` of a buffer. -/
def ofBuffer (buffer : Buffer) : Reader := ⟨buffer, 0, []⟩

/-- `bookmark`. -/
def bookmark : Action Reader OerError Unit :=
  modify fun r => { r with bookmarks := r.cursor :: r.bookmarks }

/-- `restore`. -/
def restore : Action Reader OerError Unit := do
  let r ← get
  match r.bookmarks with
  | [] => throw (.error "Cannot restore bookmark when no bookmark set")
  | cursor :: bookmarks => modify fun r => { r with cursor := cursor, bookmarks := bookmarks }

/-- `ensureAvailable`. -/
def ensureAvailable (bytes : ℕ) : Action Reader OerError Unit := do
  let r ← get
  if r.buffer.length < r.cursor + bytes then
    throw (.underflowError ("Tried to read " ++ toString bytes ++ " bytes, but only " ++
      toString ((r.buffer.length : ℤ) - r.cursor) ++ " bytes available"))
  else pure ()

/-- `this.cursor += bytes`. -/
def advance (bytes : ℕ) : Action Reader OerError Unit :=
  modify fun r => { r with cursor := r.cursor + bytes }

/-- `peek`. -/
def peek (bytes : ℕ) : Action Reader OerError Buffer := do
  ensureAvailable bytes
  let r ← get
  return (r.buffer.drop r.cursor).take bytes

/-- `read`. -/
def read (bytes : ℕ) : Action Reader OerError Buffer := do
  let value ← peek bytes
  advance bytes
  return value

/-- `skip`. -/
def skip (bytes : ℕ) : Action Reader OerError Unit := do
  ensureAvailable bytes
  advance bytes

/-- The bytes that `buffer.readUIntBE(cursor, length)` and `readIntBE` look at. -/
def bytesAtCursor (length : ℕ) : Action Reader OerError Buffer := do
  let r ← get
  if r.buffer.length < r.cursor + length then throw .rangeError
  else pure ((r.buffer.drop r.cursor).take length)

/-- `peekUIntNumber`. -/
def peekUIntNumber (length : ℕ) : Action Reader OerError ℕ :=
  if 1 ≤ length ∧ length ≤ maxSafeBytes then do return Bytes.ofBytes (← bytesAtCursor length)
  else throw (.error "Value does not fit a JS number without sacrificing precision")

/-- `readUIntNumber`. -/
def readUIntNumber (length : ℕ) : Action Reader OerError ℕ :=
  if length < 1 then throw (.error "UInt length must be greater than zero")
  else if maxSafeBytes < length then
    throw (.error "Value does not fit a JS number without sacrificing precision")
  else do
    let bytes ← bytesAtCursor length
    advance length
    return Bytes.ofBytes bytes

/-- `peekUIntLong`. -/
def peekUIntLong (length : ℕ) : Action Reader OerError (BitVec 64) :=
  if length = 0 then pure 0
  else if length > 8 then throw (.error "UInts longer than 8 bytes must be encoded as VarUInts")
  else do bufferToLong (← peek length) true

/-- `readUIntLong`. -/
def readUIntLong (length : ℕ) : Action Reader OerError (BitVec 64) := do
  let value ← peekUIntLong length
  advance length
  return value

/-- `peekUInt`. -/
def peekUInt (length : ℕ) : Action Reader OerError String :=
  if 1 ≤ length ∧ length ≤ maxSafeBytes then do return toString (← peekUIntNumber length)
  else do return toString (← peekUIntLong length).toNat

/-- `readUInt`. -/
def readUInt (length : ℕ) : Action Reader OerError String :=
  if 1 ≤ length ∧ length ≤ maxSafeBytes then do return toString (← readUIntNumber length)
  else do return toString (← readUIntLong length).toNat

/-- `peekIntNumber`. -/
def peekIntNumber (length : ℕ) : Action Reader OerError ℤ :=
  if 1 ≤ length ∧ length ≤ maxSafeBytes then do return Bytes.ofSignedBytes (← bytesAtCursor length)
  else throw (.error "Value does not fit a JS number without sacrificing precision")

/-- `readIntNumber`. -/
def readIntNumber (length : ℕ) : Action Reader OerError ℤ :=
  if length < 1 then throw (.error "Int length must be greater than zero")
  else if maxSafeBytes < length then
    throw (.error "Value does not fit a JS number without sacrificing precision")
  else do
    let bytes ← bytesAtCursor length
    advance length
    return Bytes.ofSignedBytes bytes

/-- `peekIntLong`. -/
def peekIntLong (length : ℕ) : Action Reader OerError (BitVec 64) :=
  if length = 0 then pure 0
  else if length > 8 then throw (.error "Ints longer than 8 bytes must be encoded as VarInts")
  else do bufferToLong (← peek length) false

/-- `readIntLong`. -/
def readIntLong (length : ℕ) : Action Reader OerError (BitVec 64) := do
  let value ← peekIntLong length
  advance length
  return value

/-- `peekInt`. -/
def peekInt (length : ℕ) : Action Reader OerError String :=
  if 1 ≤ length ∧ length ≤ maxSafeBytes then do return toString (← peekIntNumber length)
  else do return toString (← peekIntLong length).toInt

/-- `readInt`. -/
def readInt (length : ℕ) : Action Reader OerError String :=
  if 1 ≤ length ∧ length ≤ maxSafeBytes then do return toString (← readIntNumber length)
  else do return toString (← readIntLong length).toInt

/-- `1 << count` on 32-bit integers, whose shift counts wrap around. -/
def shiftOne (count : ℤ) : ℤ := ((1 : BitVec 32) <<< (count % 32).toNat).toInt

/-- The least length that may come in a prefix of so many bytes. -/
def minLength (lengthPrefixLength : ℕ) : ℤ :=
  max 128 (shiftOne (((lengthPrefixLength : ℤ) - 1) * 8))

/-- The branch of `readLengthPrefix` for a length of `lengthPrefixLength` bytes. -/
def readLongLength (lengthPrefixLength : ℕ) : Action Reader OerError ℕ := do
  let actualLength ← if lengthPrefixLength = 0 then pure 0 else readUIntNumber lengthPrefixLength
  if lengthPrefixLength = 0 ∨ actualLength < minLength lengthPrefixLength then
    throw (.parseError ("Length prefix encoding is not canonical: " ++ toString actualLength ++
      " encoded in " ++ toString lengthPrefixLength ++ " bytes"))
  else pure actualLength

/-- `readLengthPrefix`. -/
def readLengthPrefix : Action Reader OerError ℕ := do
  let length ← readUIntNumber 1
  if length &&& 0x80 ≠ 0 then readLongLength (length &&& 0x7f) else pure length

/-- `readVarOctetString`. -/
def readVarOctetString : Action Reader OerError Buffer := do
  let length ← readLengthPrefix
  read length

/-- `skipVarOctetString`. -/
def skipVarOctetString : Action Reader OerError Unit := do
  let length ← readLengthPrefix
  skip length

/-- A read between `bookmark` and `restore`. -/
def peeking {α : Type} (x : Action Reader OerError α) : Action Reader OerError α := do
  bookmark
  let value ← x
  restore
  return value

/-- `peekVarOctetString`. -/
def peekVarOctetString : Action Reader OerError Buffer := peeking readVarOctetString

/-- `readVarUIntNumber`. -/
def readVarUIntNumber : Action Reader OerError ℕ := do
  let r ← get
  match r.buffer[r.cursor]? with
  | some length =>
    if length = 0 then throw (.parseError "UInt of length 0 is invalid")
    else if length.toNat ≤ maxSafeBytes then do
      advance 1
      readUIntNumber length.toNat
    else throw (.error "Value does not fit a JS number without sacrificing precision")
  | none => throw (.error "Value does not fit a JS number without sacrificing precision")

/-- `readVarUIntLong`. -/
def readVarUIntLong : Action Reader OerError (BitVec 64) := do
  let buffer ← readVarOctetString
  if buffer.length = 0 then throw (.parseError "UInt of length 0 is invalid")
  else bufferToLong buffer true

/-- `readVarUInt`. -/
def readVarUInt : Action Reader OerError String := do return toString (← readVarUIntLong).toNat

/-- `peekVarUIntNumber`. -/
def peekVarUIntNumber : Action Reader OerError ℕ := peeking readVarUIntNumber

/-- `peekVarUIntLong`. -/
def peekVarUIntLong : Action Reader OerError (BitVec 64) := peeking readVarUIntLong

/-- `peekVarUInt`. -/
def peekVarUInt : Action Reader OerError String := do return toString (← peekVarUIntLong).toNat

/-- `readVarIntNumber`. -/
def readVarIntNumber : Action Reader OerError ℤ := do
  let r ← get
  match r.buffer[r.cursor]? with
  | some length =>
    if length = 0 then throw (.parseError "Int of length 0 is invalid")
    else if length.toNat ≤ maxSafeBytes then do
      advance 1
      readIntNumber length.toNat
    else throw (.error "Value does not fit a JS number without sacrificing precision")
  | none => throw (.error "Value does not fit a JS number without sacrificing precision")

/-- `readVarIntLong`. -/
def readVarIntLong : Action Reader OerError (BitVec 64) := do
  let buffer ← readVarOctetString
  if buffer.length = 0 then throw (.parseError "Int of length 0 is invalid")
  else bufferToLong buffer false

/-- `readVarInt`. -/
def readVarInt : Action Reader OerError String := do return toString (← readVarIntLong).toInt

/-- `peekVarIntNumber`. -/
def peekVarIntNumber : Action Reader OerError ℤ := peeking readVarIntNumber

/-- `peekVarIntLong`. -/
def peekVarIntLong : Action Reader OerError (BitVec 64) := peeking readVarIntLong

/-- `peekVarInt`. -/
def peekVarInt : Action Reader OerError String := do return toString (← peekVarIntLong).toInt

/-! ### Reading what is at the cursor -/

instance : Cursor Reader UInt8 where
  rest r := r.buffer.drop r.cursor
  skip n r := { r with cursor := r.cursor + n }
  Valid r := r.cursor ≤ r.buffer.length
  valid_skip {n r} h hn := by
    rw [List.length_drop] at hn
    change r.cursor + n ≤ r.buffer.length
    omega
  rest_skip n r := by rw [List.drop_drop]
  skip_zero r := rfl
  skip_skip m n r := by
    change { r with cursor := r.cursor + m + n } = { r with cursor := r.cursor + (m + n) }
    rw [Nat.add_assoc]

/-- A peek: wherever the bytes are next, the program returns `a` and stays there. -/
def Peeks {α : Type} (x : Action Reader OerError α) (bytes : Buffer) (a : α) : Prop :=
  ∀ r more, Cursor.Valid r → Cursor.rest r = bytes ++ more → x.exec r = (.ok a, r)

/-- Bytes at the cursor are bytes of the buffer. -/
theorem length_of_rest {r : Reader} {bytes more : Buffer} (h_valid : Cursor.Valid r)
    (h_rest : Cursor.rest r = bytes ++ more) : r.cursor + bytes.length ≤ r.buffer.length := by
  have h_length := congrArg List.length h_rest
  have h_valid : r.cursor ≤ r.buffer.length := h_valid
  change (r.buffer.drop r.cursor).length = _ at h_length
  rw [List.length_drop, List.length_append] at h_length
  omega

/-- The bytes at the cursor. -/
theorem take_of_rest {r : Reader} {bytes more : Buffer} (h_rest : Cursor.rest r = bytes ++ more) :
    (r.buffer.drop r.cursor).take bytes.length = bytes := by
  have h_rest : r.buffer.drop r.cursor = bytes ++ more := h_rest
  rw [h_rest, List.take_left]

theorem peeks_bytesAtCursor (bytes : Buffer) : Peeks (bytesAtCursor bytes.length) bytes bytes := by
  intro r more h_valid h_rest
  have h_length := length_of_rest h_valid h_rest
  rw [bytesAtCursor, exec_bind_ok (exec_get r), if_neg (by omega), take_of_rest h_rest]
  rfl

theorem peeks_ensureAvailable (bytes : Buffer) : Peeks (ensureAvailable bytes.length) bytes () := by
  intro r more h_valid h_rest
  have h_length := length_of_rest h_valid h_rest
  rw [ensureAvailable, exec_bind_ok (exec_get r), if_neg (by omega)]
  rfl

theorem peeks_peek (bytes : Buffer) : Peeks (peek bytes.length) bytes bytes := by
  intro r more h_valid h_rest
  have h_ensure := peeks_ensureAvailable bytes r more h_valid h_rest
  rw [peek, exec_bind_ok h_ensure, exec_bind_ok (exec_get r), take_of_rest h_rest]
  rfl

namespace Peeks

variable {α β : Type} {x : Action Reader OerError α} {bytes : Buffer} {a : α}

/-- Going on with a read of the same bytes. -/
theorem bind_reads {f : α → Action Reader OerError β} {b : β} (h : Peeks x bytes a)
    (hf : Reads (f a) bytes b) : Reads (x >>= f) bytes b := by
  intro r more h_valid h_rest
  rw [exec_bind_ok (h r more h_valid h_rest)]
  exact hf r more h_valid h_rest

/-- Going on with the value. -/
theorem bind_pure {f : α → Action Reader OerError β} {b : β} (h : Peeks x bytes a)
    (hf : f a = pure b) : Peeks (x >>= f) bytes b := by
  intro r more h_valid h_rest
  rw [exec_bind_ok (h r more h_valid h_rest), hf]
  rfl

/-- Moving past what was looked at. -/
theorem reads (h : Peeks x bytes a) :
    Reads (do let value ← x; advance bytes.length; return value) bytes a := by
  intro r more h_valid h_rest
  rw [exec_bind_ok (h r more h_valid h_rest)]
  rfl

end Peeks

/-- A read between `bookmark` and `restore` is a peek. -/
theorem peeks_peeking {α : Type} {x : Action Reader OerError α} {bytes : Buffer} {a : α}
    (h : Reads x bytes a) : Peeks (peeking x) bytes a := by
  intro r more h_valid h_rest
  have h_mark : bookmark.exec r = (.ok (), { r with bookmarks := r.cursor :: r.bookmarks }) := rfl
  have h_value := h { r with bookmarks := r.cursor :: r.bookmarks } more h_valid h_rest
  rw [peeking, exec_bind_ok h_mark, exec_bind_ok h_value]
  rfl

/-- **`read`** returns the bytes at the cursor. -/
theorem reads_read (bytes : Buffer) : Reads (read bytes.length) bytes bytes := (peeks_peek bytes).reads

/-- `skip` moves past the bytes. -/
theorem reads_skip (bytes : Buffer) : Reads (skip bytes.length) bytes () := by
  intro r more h_valid h_rest
  rw [skip, exec_bind_ok (peeks_ensureAvailable bytes r more h_valid h_rest)]
  rfl

/-- Without enough bytes, `peek` throws. -/
theorem exec_peek_of_lt {n : ℕ} {r : Reader} (h_valid : Cursor.Valid r) (h : (Cursor.rest r).length < n) :
    ∃ e, (peek n).exec r = (.error e, r) := by
  have h_valid : r.cursor ≤ r.buffer.length := h_valid
  change (r.buffer.drop r.cursor).length < n at h
  rw [List.length_drop] at h
  have h_throw : ∃ e, (ensureAvailable n).exec r = (.error e, r) := by
    rw [ensureAvailable, exec_bind_ok (exec_get r), if_pos (by omega)]
    exact ⟨_, rfl⟩
  obtain ⟨e, h_throw⟩ := h_throw
  exact ⟨e, by rw [peek, exec_bind_error h_throw]⟩

/-- A read that returns took as many bytes as asked for. -/
theorem takes_read (n : ℕ) : Takes (read n) fun bytes value => bytes.length = n ∧ value = bytes := by
  refine .of_length (fun bytes h_length => h_length ▸ reads_read bytes) fun r h_valid h_less => ?_
  obtain ⟨e, h_throw⟩ := exec_peek_of_lt h_valid h_less
  exact ⟨e, r, by rw [read, exec_bind_error h_throw]⟩

/-! ### Integers of a fixed length -/

section Fixed

variable {bytes : Buffer}

theorem peeks_peekUIntNumber (h_pos : 1 ≤ bytes.length) (h : bytes.length ≤ maxSafeBytes) :
    Peeks (peekUIntNumber bytes.length) bytes (Bytes.ofBytes bytes) := by
  rw [peekUIntNumber, if_pos ⟨h_pos, h⟩]
  exact (peeks_bytesAtCursor bytes).bind_pure rfl

theorem reads_readUIntNumber (h_pos : 1 ≤ bytes.length) (h : bytes.length ≤ maxSafeBytes) :
    Reads (readUIntNumber bytes.length) bytes (Bytes.ofBytes bytes) := by
  rw [readUIntNumber, if_neg (by omega), if_neg (not_lt.mpr h)]
  intro r more h_valid h_rest
  rw [exec_bind_ok (peeks_bytesAtCursor bytes r more h_valid h_rest)]
  rfl

theorem peeks_peekIntNumber (h_pos : 1 ≤ bytes.length) (h : bytes.length ≤ maxSafeBytes) :
    Peeks (peekIntNumber bytes.length) bytes (Bytes.ofSignedBytes bytes) := by
  rw [peekIntNumber, if_pos ⟨h_pos, h⟩]
  exact (peeks_bytesAtCursor bytes).bind_pure rfl

theorem reads_readIntNumber (h_pos : 1 ≤ bytes.length) (h : bytes.length ≤ maxSafeBytes) :
    Reads (readIntNumber bytes.length) bytes (Bytes.ofSignedBytes bytes) := by
  rw [readIntNumber, if_neg (by omega), if_neg (not_lt.mpr h)]
  intro r more h_valid h_rest
  rw [exec_bind_ok (peeks_bytesAtCursor bytes r more h_valid h_rest)]
  rfl

theorem peeks_peekUIntLong (h_pos : 1 ≤ bytes.length) (h : bytes.length ≤ 8) :
    Peeks (peekUIntLong bytes.length) bytes (BitVec.ofNat 64 (Bytes.ofBytes bytes)) := by
  rw [peekUIntLong, if_neg (by omega), if_neg (by omega)]
  exact (peeks_peek bytes).bind_pure (bufferToLong_unsigned h)

theorem reads_readUIntLong (h_pos : 1 ≤ bytes.length) (h : bytes.length ≤ 8) :
    Reads (readUIntLong bytes.length) bytes (BitVec.ofNat 64 (Bytes.ofBytes bytes)) :=
  (peeks_peekUIntLong h_pos h).reads

theorem peeks_peekIntLong (h_pos : 1 ≤ bytes.length) (h : bytes.length ≤ 8) :
    Peeks (peekIntLong bytes.length) bytes (BitVec.ofInt 64 (Bytes.ofSignedBytes bytes)) := by
  rw [peekIntLong, if_neg (by omega), if_neg (by omega)]
  exact (peeks_peek bytes).bind_pure (bufferToLong_signed h)

theorem reads_readIntLong (h_pos : 1 ≤ bytes.length) (h : bytes.length ≤ 8) :
    Reads (readIntLong bytes.length) bytes (BitVec.ofInt 64 (Bytes.ofSignedBytes bytes)) :=
  (peeks_peekIntLong h_pos h).reads

end Fixed

/-- A look at the bytes of a number took as many, too. -/
theorem takes_readUIntNumber (n : ℕ) :
    Takes (readUIntNumber n) fun bytes value =>
      bytes.length = n ∧ 1 ≤ n ∧ n ≤ maxSafeBytes ∧ value = Bytes.ofBytes bytes := by
  by_cases h_pos : 1 ≤ n
  · by_cases h_safe : n ≤ maxSafeBytes
    · refine (Takes.of_length (f := Bytes.ofBytes) (fun bytes h_length => ?_) fun r h_valid h_less => ?_).mono
        fun bytes value h => ⟨h.1, h_pos, h_safe, h.2⟩
      · subst h_length
        exact reads_readUIntNumber h_pos h_safe
      · have h_valid : r.cursor ≤ r.buffer.length := h_valid
        change (r.buffer.drop r.cursor).length < n at h_less
        rw [List.length_drop] at h_less
        have h_throw : (bytesAtCursor n).exec r = (.error .rangeError, r) := by
          rw [bytesAtCursor, exec_bind_ok (exec_get r), if_pos (by omega)]
          rfl
        rw [readUIntNumber, if_neg (not_lt.mpr h_pos), if_neg (not_lt.mpr h_safe), exec_bind_error h_throw]
        exact ⟨_, _, rfl⟩
    · rw [readUIntNumber, if_neg (not_lt.mpr h_pos), if_pos (not_le.mp h_safe)]
      exact .throw _ _
  · rw [readUIntNumber, if_pos (not_le.mp h_pos)]
    exact .throw _ _

/-- So did the look at the bytes of a `Long`. -/
theorem takes_readUIntLong {n : ℕ} (h_pos : 1 ≤ n) (h : n ≤ 8) :
    Takes (readUIntLong n) fun bytes value =>
      bytes.length = n ∧ value = BitVec.ofNat 64 (Bytes.ofBytes bytes) := by
  refine .of_length (fun bytes h_length => ?_) fun r h_valid h_less => ?_
  · subst h_length
    exact reads_readUIntLong h_pos h
  · obtain ⟨e, h_throw⟩ := exec_peek_of_lt h_valid h_less
    rw [readUIntLong, peekUIntLong, if_neg (by omega), if_neg (by omega), bind_assoc,
      exec_bind_error h_throw]
    exact ⟨e, r, rfl⟩

/-! ### Length prefixes -/

/-- What the reader takes as a length prefix of `n`. -/
inductive IsLengthPrefix : Buffer → ℕ → Prop
  | short {n : ℕ} (h : n ≤ 127) : IsLengthPrefix (Bytes.toBytes 1 n) n
  | long {k n : ℕ} (h_pos : 1 ≤ k) (hk : k ≤ maxSafeBytes) (h_fits : n < 256 ^ k)
      (h_min : minLength k ≤ n) :
      IsLengthPrefix (Bytes.toBytes 1 (0x80 + k) ++ Bytes.toBytes k n) n

/-- The bits of the first byte of a prefix. -/
theorem first_byte_bits :
    ∀ m < 256, (m &&& 0x80 ≠ 0 ↔ 128 ≤ m) ∧ (128 ≤ m → m &&& 0x7f = m - 128) := by
  decide +kernel

/-- A read of a number of up to six bytes. -/
theorem reads_number {k n : ℕ} (h_pos : 1 ≤ k) (hk : k ≤ maxSafeBytes) (h : n < 256 ^ k) :
    Reads (readUIntNumber k) (Bytes.toBytes k n) n := by
  have h_length := Bytes.length_toBytes k n
  have h_reads := @reads_readUIntNumber (Bytes.toBytes k n) (by omega) (by omega)
  rwa [h_length, Bytes.ofBytes_toBytes_of_lt h] at h_reads

/-- **The prefixes that are read.** -/
theorem reads_readLengthPrefix {bytes : Buffer} {n : ℕ} (h : IsLengthPrefix bytes n) :
    Reads readLengthPrefix bytes n := by
  cases h with
  | short h =>
    have h_low : ¬n &&& 0x80 ≠ 0 := fun h_set => by
      have h_high := (first_byte_bits n (by omega)).1.mp h_set
      omega
    rw [← List.append_nil (Bytes.toBytes 1 n)]
    apply (reads_number (by omega) (by decide) (by omega)).bind
    rw [if_neg h_low]
    exact .pure n
  | @long k n h_pos hk h_fits h_min =>
    have hk' : k ≤ 6 := hk
    obtain ⟨h_high, h_rest⟩ := first_byte_bits (0x80 + k) (by omega)
    apply (reads_number (n := 0x80 + k) (by omega) (by decide) (by omega)).bind
    rw [if_pos (h_high.mpr (by omega)), h_rest (by omega), Nat.add_sub_cancel_left, readLongLength,
      if_neg (by omega), ← List.append_nil (Bytes.toBytes k n)]
    apply (reads_number h_pos hk h_fits).bind
    beta_reduce
    rw [if_neg (by omega)]
    exact .pure n

/-- A long length is one that its number of bytes allows. -/
theorem takes_readLongLength (k : ℕ) : Takes (readLongLength k) fun bytes n =>
    bytes.length = k ∧ 1 ≤ k ∧ k ≤ maxSafeBytes ∧ n = Bytes.ofBytes bytes ∧ minLength k ≤ n := by
  unfold readLongLength
  by_cases h_zero : k = 0
  · intro r n r' _ h_exec
    rw [if_pos h_zero, exec_bind_ok (exec_pure r 0)] at h_exec
    beta_reduce at h_exec
    rw [if_pos (.inl h_zero)] at h_exec
    cases h_exec
  rw [if_neg h_zero]
  refine ((takes_readUIntNumber k).bind (Q := fun (m : ℕ) (bytes : Buffer) (n : ℕ) =>
    bytes = [] ∧ n = m ∧ minLength k ≤ m) fun m => ?_).mono ?_
  · refine .ite (fun _ => .throw _ _) fun h_canonical => (Takes.pure m).mono ?_
    rintro bytes n ⟨rfl, rfl⟩
    exact ⟨rfl, rfl, not_lt.mp (not_or.mp h_canonical).2⟩
  · rintro bytes n ⟨us, vs, m, rfl, ⟨h_length, h_pos, h_safe, rfl⟩, rfl, rfl, h_min⟩
    rw [List.append_nil]
    exact ⟨h_length, h_pos, h_safe, rfl, h_min⟩

/-- **Only those prefixes are read.** -/
theorem takes_readLengthPrefix : Takes readLengthPrefix IsLengthPrefix := by
  unfold readLengthPrefix
  refine ((takes_readUIntNumber 1).bind (Q := fun length bytes n =>
    length < 256 → IsLengthPrefix (Bytes.toBytes 1 length ++ bytes) n) fun length => ?_).mono ?_
  · refine .ite (fun h_set => ?_) fun h_clear => ?_
    · -- the length of the length is in the other seven bits
      refine (takes_readLongLength _).mono ?_
      rintro bytes n ⟨h_length, h_pos, h_safe, rfl, h_min⟩ h_byte
      obtain ⟨h_high, h_rest⟩ := first_byte_bits length h_byte
      have h_ge := h_high.mp h_set
      rw [h_rest h_ge] at h_length h_pos h_safe h_min
      have h_long := IsLengthPrefix.long h_pos h_safe (h_length ▸ Bytes.ofBytes_lt bytes) h_min
      have h_bytes := Bytes.toBytes_ofBytes bytes
      rw [h_length] at h_bytes
      rwa [Nat.add_sub_cancel' h_ge, h_bytes] at h_long
    · refine (Takes.pure length).mono ?_
      rintro bytes n ⟨rfl, rfl⟩ h_byte
      have h_low := (first_byte_bits n h_byte).1.not.mp h_clear
      rw [List.append_nil]
      exact .short (by omega)
  · rintro bytes n ⟨us, vs, length, rfl, ⟨h_length, -, -, rfl⟩, h_pre⟩
    have h_lt := Bytes.ofBytes_lt us
    have h_us := Bytes.toBytes_ofBytes us
    rw [h_length] at h_lt h_us
    rw [h_us] at h_pre
    exact h_pre h_lt

/-- **Octet strings that are read**: a prefix and so many bytes. -/
theorem reads_readVarOctetString_of_prefix {bytes contents : Buffer}
    (h : IsLengthPrefix bytes contents.length) :
    Reads readVarOctetString (bytes ++ contents) contents :=
  (reads_readLengthPrefix h).bind (reads_read contents)

/-- **Only those octet strings are read.** -/
theorem takes_readVarOctetString : Takes readVarOctetString fun bytes value =>
    ∃ pre, bytes = pre ++ value ∧ IsLengthPrefix pre value.length := by
  refine (takes_readLengthPrefix.bind fun n => takes_read n).mono ?_
  rintro bytes value ⟨us, vs, n, rfl, h_pre, h_length, rfl⟩
  rw [← h_length] at h_pre
  exact ⟨us, rfl, h_pre⟩

/-! ### Reading back what was written -/

/-- The least lengths never exclude a length that needs so many bytes. -/
theorem minLength_le : ∀ k ≤ 6, 1 ≤ k → minLength k ≤ max 128 (256 ^ (k - 1)) := by
  decide +kernel

/-- **The shortest prefix is read**, up to lengths of six bytes. -/
theorem isLengthPrefix_lengthPrefix {n : ℕ} (h : n < 2 ^ 48) :
    IsLengthPrefix (Writer.lengthPrefix n) n := by
  unfold Writer.lengthPrefix
  by_cases h_short : n ≤ 127
  · rw [if_pos h_short]
    exact .short h_short
  · have h_safe : n < 2 ^ 53 := by omega
    have h_pos := (Writer.shortest_length h_safe).pos
    have h_six := (Writer.getUIntBufferSize_le_iff (k := 6) h_safe (by omega)).mpr (by omega)
    rw [if_neg h_short]
    refine .long h_pos h_six ((Writer.getUIntBufferSize_le_iff h_safe h_pos).mp le_rfl) ?_
    apply (minLength_le _ h_six h_pos).trans
    rw [max_le_iff]
    refine ⟨by omega, ?_⟩
    by_cases h_one : getUIntBufferSize n = 1
    · rw [h_one, Nat.sub_self, pow_zero]
      omega
    · -- one byte less does not hold the length
      have h_less : ¬getUIntBufferSize n ≤ getUIntBufferSize n - 1 := by omega
      have h_ge := (Writer.getUIntBufferSize_le_iff h_safe (by omega)).not.mp h_less
      exact_mod_cast not_lt.mp h_ge

/-- **`readVarOctetString`** reads back what `writeVarOctetString` writes. -/
theorem reads_readVarOctetString {bytes : Buffer} (h : bytes.length < 2 ^ 48) :
    Reads readVarOctetString (Writer.lengthPrefix bytes.length ++ bytes) bytes :=
  reads_readVarOctetString_of_prefix (isLengthPrefix_lengthPrefix h)

/-- `skipVarOctetString` moves past one. -/
theorem reads_skipVarOctetString {bytes : Buffer} (h : bytes.length < 2 ^ 48) :
    Reads skipVarOctetString (Writer.lengthPrefix bytes.length ++ bytes) () :=
  (reads_readLengthPrefix (isLengthPrefix_lengthPrefix h)).bind (reads_skip bytes)

/-! ### Integers of variable length -/

section Var

variable {bytes : Buffer}

/-- The prefix of a short encoding is its length. -/
theorem lengthPrefix_of_le {n : ℕ} (h : n ≤ 127) : Writer.lengthPrefix n = [UInt8.ofNat n] := by
  rw [Writer.lengthPrefix, if_pos h, Bytes.toBytes_one]

/-- The byte at the cursor. -/
theorem getElem?_of_rest {r : Reader} {b : UInt8} {more : Buffer} (h : Cursor.rest r = b :: more) :
    r.buffer[r.cursor]? = some b := by
  have h_first := congrArg (·[0]?) h
  change (r.buffer.drop r.cursor)[0]? = some b at h_first
  rwa [List.getElem?_drop, Nat.add_zero] at h_first

/-- The readers of numbers look at the length before they read it. -/
theorem reads_varNumber {α : Type} {x : ℕ → Action Reader OerError α} {a : α} {e e' : OerError}
    (h_pos : 1 ≤ bytes.length) (h : bytes.length ≤ maxSafeBytes)
    (h_reads : Reads (x bytes.length) bytes a) :
    Reads (do
      let r ← get
      match r.buffer[r.cursor]? with
      | some length =>
        if length = 0 then throw e
        else if length.toNat ≤ maxSafeBytes then do
          advance 1
          x length.toNat
        else throw e'
      | none => throw e') (Writer.lengthPrefix bytes.length ++ bytes) a := by
  intro r more h_valid h_rest
  have h_six : bytes.length ≤ 6 := h
  -- up to six the prefix is one byte, the length
  have h_pre := lengthPrefix_of_le (n := bytes.length) (by omega)
  have h_byte : (UInt8.ofNat bytes.length).toNat = bytes.length := Nat.mod_eq_of_lt (by omega)
  rw [h_pre] at h_rest ⊢
  have h_ne : UInt8.ofNat bytes.length ≠ 0 := by
    intro h_zero
    rw [h_zero] at h_byte
    change 0 = _ at h_byte
    omega
  have h_length := length_of_rest h_valid h_rest
  rw [List.length_append, List.length_singleton] at h_length
  -- the number follows it
  have h_after : Cursor.rest (Cursor.skip 1 r) = bytes ++ more := by
    rw [Cursor.rest_skip, h_rest]
    rfl
  have h_exec := h_reads (Cursor.skip 1 r) more
    (show r.cursor + 1 ≤ r.buffer.length by omega) h_after
  rw [exec_bind_ok (exec_get r), getElem?_of_rest h_rest]
  simp only
  rw [if_neg h_ne, h_byte, if_pos h]
  change (x bytes.length).exec (Cursor.skip 1 r) = _
  rw [h_exec, Cursor.skip_skip, List.length_append, List.length_singleton]

theorem reads_readVarUIntNumber (h_pos : 1 ≤ bytes.length) (h : bytes.length ≤ maxSafeBytes) :
    Reads readVarUIntNumber (Writer.lengthPrefix bytes.length ++ bytes) (Bytes.ofBytes bytes) :=
  reads_varNumber h_pos h (reads_readUIntNumber h_pos h)

theorem reads_readVarUIntLong (h_pos : 1 ≤ bytes.length) (h : bytes.length ≤ 8) :
    Reads readVarUIntLong (Writer.lengthPrefix bytes.length ++ bytes)
      (BitVec.ofNat 64 (Bytes.ofBytes bytes)) := by
  rw [← List.append_nil (Writer.lengthPrefix bytes.length ++ bytes)]
  apply (reads_readVarOctetString (by omega)).bind
  rw [if_neg (by omega), bufferToLong_unsigned h]
  exact .pure _

theorem reads_readVarIntLong (h_pos : 1 ≤ bytes.length) (h : bytes.length ≤ 8) :
    Reads readVarIntLong (Writer.lengthPrefix bytes.length ++ bytes)
      (BitVec.ofInt 64 (Bytes.ofSignedBytes bytes)) := by
  rw [← List.append_nil (Writer.lengthPrefix bytes.length ++ bytes)]
  apply (reads_readVarOctetString (by omega)).bind
  rw [if_neg (by omega), bufferToLong_signed h]
  exact .pure _

end Var

end Reader

end Interledger.Oer
