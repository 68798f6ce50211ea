import Interledger.Oer.Reader

/-!
# The integer codec

The four integer methods of the writer (`writeInteger`) against the readers of what they write
(`readInteger`, `peekInteger`), over all the forms in which an integer is given and returned.

The writer falls short in four places: a fixed length above eight bytes, a minus sign before an unsigned
zero, a text from `2 ^ 63` on that is written as a signed integer, and the numbers whose size
`getIntBufferSize` miscounts. `CodedCorrectly` says when none of them is reached.

## Main results

* `meets_iff_codedCorrectly` — there, and only there, the writer refuses what does not fit, writes
  everything else at the length due, and every reader returns the integer.
-/

namespace Interledger.Oer

open Ilp (Buffer)
open Interledger.Action

/-- How the length of an integer is given: fixed, or by a prefix. -/
inductive Width
  | fixed (length : ℕ)
  | var
  deriving DecidableEq

/-- The forms in which an integer is returned. -/
inductive Form
  | number
  | long
  | string
  deriving DecidableEq

/-- The integer in a form. -/
def LongValue.ofForm (signed : Bool) (n : ℤ) : Form → LongValue
  | .number => .number n
  | .long => .long (!signed) (BitVec.ofInt 64 n)
  | .string => .string (toString n)

/-- `writeUInt`, `writeInt`, `writeVarUInt` and `writeVarInt`. -/
def Writer.writeInteger (signed : Bool) (width : Width) (value : LongValue) :
    Action Writer OerError Unit :=
  match signed, width with
  | false, .fixed length => Writer.writeUInt value length
  | true, .fixed length => Writer.writeInt value length
  | false, .var => Writer.writeVarUInt (.value value)
  | true, .var => Writer.writeVarInt (.value value)

namespace Reader

/-- The twelve methods that read an integer. -/
def readInteger (signed : Bool) (width : Width) (form : Form) : Action Reader OerError LongValue :=
  match signed, width, form with
  | false, .fixed length, .number => do return .number (← readUIntNumber length)
  | false, .fixed length, .long => do return .long true (← readUIntLong length)
  | false, .fixed length, .string => do return .string (← readUInt length)
  | true, .fixed length, .number => do return .number (← readIntNumber length)
  | true, .fixed length, .long => do return .long false (← readIntLong length)
  | true, .fixed length, .string => do return .string (← readInt length)
  | false, .var, .number => do return .number (← readVarUIntNumber)
  | false, .var, .long => do return .long true (← readVarUIntLong)
  | false, .var, .string => do return .string (← readVarUInt)
  | true, .var, .number => do return .number (← readVarIntNumber)
  | true, .var, .long => do return .long false (← readVarIntLong)
  | true, .var, .string => do return .string (← readVarInt)

/-- The twelve methods that look at an integer. -/
def peekInteger (signed : Bool) (width : Width) (form : Form) : Action Reader OerError LongValue :=
  match signed, width, form with
  | false, .fixed length, .number => do return .number (← peekUIntNumber length)
  | false, .fixed length, .long => do return .long true (← peekUIntLong length)
  | false, .fixed length, .string => do return .string (← peekUInt length)
  | true, .fixed length, .number => do return .number (← peekIntNumber length)
  | true, .fixed length, .long => do return .long false (← peekIntLong length)
  | true, .fixed length, .string => do return .string (← peekInt length)
  | false, .var, .number => do return .number (← peekVarUIntNumber)
  | false, .var, .long => do return .long true (← peekVarUIntLong)
  | false, .var, .string => do return .string (← peekVarUInt)
  | true, .var, .number => do return .number (← peekVarIntNumber)
  | true, .var, .long => do return .long false (← peekVarIntLong)
  | true, .var, .string => do return .string (← peekVarInt)

/-- Wherever the bytes are next, a program that returns returns `a`, and has moved the cursor by
`moved`. -/
def ReturnsOnly {α : Type} (x : Action Reader OerError α) (bytes : Buffer) (moved : ℕ) (a : α) : Prop :=
  ∀ r more value r', Cursor.Valid r → Cursor.rest r = bytes ++ more → x.exec r = (.ok value, r') →
    value = a ∧ r' = Cursor.skip moved r

/-- On these bytes, whatever follows them, a reader that returns returns the integer, and a read moves
the cursor past them. -/
def ReturnsInteger (signed : Bool) (width : Width) (n : ℤ) (bytes : Buffer) : Prop :=
  ∀ form, ReturnsOnly (readInteger signed width form) bytes bytes.length (.ofForm signed n form) ∧
    ReturnsOnly (peekInteger signed width form) bytes 0 (.ofForm signed n form)

end Reader

/-- The integer can be written at the width. -/
def Representable (signed : Bool) (width : Width) (n : ℤ) : Prop :=
  match width with
  | .fixed length => Fits signed length n
  | .var => ∃ length, Fits signed length n

/-- The encoding due: that of the length given, or the shortest one behind its length. -/
def IsIntegerEncoding (signed : Bool) (width : Width) (n : ℤ) (bytes : Buffer) : Prop :=
  match width with
  | .fixed length => bytes = Bytes.toSignedBytes length n
  | .var => ∃ length, Shortest signed length n ∧
      bytes = Writer.lengthPrefix length ++ Bytes.toSignedBytes length n

/-- What is asked of the codec: the writer throws if the integer cannot be written at the width, and
otherwise writes the encoding due, on which every reader returns the integer. -/
def Meets (signed : Bool) (width : Width) (value : LongValue) : Prop :=
  (Representable signed width value.toInt → ∃ bytes,
    IsIntegerEncoding signed width value.toInt bytes ∧
      Writes (Writer.writeInteger signed width value) bytes ∧
      Reader.ReturnsInteger signed width value.toInt bytes) ∧
  (¬Representable signed width value.toInt → ∀ w : Writer, ∃ e w',
    (Writer.writeInteger signed width value).exec w = (.error e, w'))

/-- None of the places where the writer falls short is reached. -/
def CodedCorrectly (signed : Bool) (width : Width) (value : LongValue) : Prop :=
  match signed, width, value with
  | false, .fixed length, value =>
    value.toInt < 0 ∨ length ≤ 6 ∨ length ≤ 8 ∧ value.isNegative = false
  | true, .fixed length, value =>
    length ≤ 6 ∨ length = 7 ∧ value.toInt < 2 ^ 64 - 2 ^ 55 ∨ length = 8 ∧ value.toInt < 2 ^ 63
  | false, .var, value => value.toInt < 0 ∨ value.isNegative = false
  | true, .var, .number n => ¬(2 ^ 47 ≤ n ∧ n < 2 ^ 48) ∧ -2 ^ 52 < n
  | true, .var, value => value.toInt < 2 ^ 63

/-! ### Reading what was written -/

namespace Reader

variable {k : ℕ} {n : ℤ} {bytes : Buffer}

namespace ReturnsOnly

variable {α β : Type} {x : Action Reader OerError α} {moved : ℕ} {a : α}

theorem of_reads (h : Reads x bytes a) : ReturnsOnly x bytes bytes.length a := by
  intro r more value r' h_valid h_rest h_exec
  rw [h r more h_valid h_rest] at h_exec
  cases h_exec
  exact ⟨rfl, rfl⟩

theorem of_peeks (h : Peeks x bytes a) : ReturnsOnly x bytes 0 a := by
  intro r more value r' h_valid h_rest h_exec
  rw [h r more h_valid h_rest] at h_exec
  cases h_exec
  exact ⟨rfl, rfl⟩

/-- Throwing returns nothing. -/
theorem throw (e : OerError) : ReturnsOnly (MonadExcept.throw e) bytes moved a := by
  intro r more value r' _ _ h_exec
  cases h_exec

/-- The value, in the form it is returned. -/
theorem map (f : α → β) (h : ReturnsOnly x bytes moved a) :
    ReturnsOnly (x >>= fun a => pure (f a)) bytes moved (f a) := by
  intro r more value r' h_valid h_rest h_exec
  obtain ⟨b, r'', h_first, h_second⟩ := exec_bind_eq_ok.mp h_exec
  obtain ⟨rfl, rfl⟩ := h r more b r'' h_valid h_rest h_first
  cases h_second
  exact ⟨rfl, rfl⟩

/-- Between `bookmark` and `restore` the cursor comes back. -/
theorem peeking (h : ReturnsOnly x bytes moved a) :
    ReturnsOnly (Reader.peeking x) bytes 0 a := by
  intro r more value r' h_valid h_rest h_exec
  have h_mark : bookmark.exec r = (.ok (), { r with bookmarks := r.cursor :: r.bookmarks }) := rfl
  rw [Reader.peeking, exec_bind_ok h_mark] at h_exec
  obtain ⟨b, r'', h_first, h_second⟩ := exec_bind_eq_ok.mp h_exec
  obtain ⟨rfl, rfl⟩ := h { r with bookmarks := r.cursor :: r.bookmarks } more b r'' h_valid h_rest h_first
  -- the bookmark is still there, and `restore` goes back to it
  have h_restore : (restore >>= fun _ => pure b).exec (Cursor.skip moved
      { r with bookmarks := r.cursor :: r.bookmarks }) = (.ok b, r) := rfl
  rw [h_restore] at h_second
  cases h_second
  exact ⟨rfl, rfl⟩

/-- The text of an integer is that of a number or that of a `Long`. -/
theorem text {c : Prop} [Decidable c] [ToString α] [ToString β] {y : Action Reader OerError (BitVec 64)}
    {b : BitVec 64} {f : BitVec 64 → β} (hx : ReturnsOnly x bytes moved a)
    (hy : ReturnsOnly y bytes moved b) (h : toString (f b) = toString a) :
    ReturnsOnly (if c then do return toString (← x) else do return toString (f (← y))) bytes moved
      (toString a) := by
  split
  · exact hx.map fun a => toString a
  · have h_text := hy.map fun b => toString (f b)
    rwa [h] at h_text

end ReturnsOnly

/-! Reading a number gives up above six bytes. -/

theorem returnsOnly_readUIntNumber (h_pos : 1 ≤ bytes.length) :
    ReturnsOnly (readUIntNumber bytes.length) bytes bytes.length (Bytes.ofBytes bytes) := by
  by_cases h : bytes.length ≤ maxSafeBytes
  · exact .of_reads (reads_readUIntNumber h_pos h)
  · rw [readUIntNumber, if_neg (by omega), if_pos (not_le.mp h)]
    exact .throw _

theorem returnsOnly_peekUIntNumber (h_pos : 1 ≤ bytes.length) :
    ReturnsOnly (peekUIntNumber bytes.length) bytes 0 (Bytes.ofBytes bytes) := by
  by_cases h : bytes.length ≤ maxSafeBytes
  · exact .of_peeks (peeks_peekUIntNumber h_pos h)
  · rw [peekUIntNumber, if_neg (fun h' => h h'.2)]
    exact .throw _

theorem returnsOnly_readIntNumber (h_pos : 1 ≤ bytes.length) :
    ReturnsOnly (readIntNumber bytes.length) bytes bytes.length (Bytes.ofSignedBytes bytes) := by
  by_cases h : bytes.length ≤ maxSafeBytes
  · exact .of_reads (reads_readIntNumber h_pos h)
  · rw [readIntNumber, if_neg (by omega), if_pos (not_le.mp h)]
    exact .throw _

theorem returnsOnly_peekIntNumber (h_pos : 1 ≤ bytes.length) :
    ReturnsOnly (peekIntNumber bytes.length) bytes 0 (Bytes.ofSignedBytes bytes) := by
  by_cases h : bytes.length ≤ maxSafeBytes
  · exact .of_peeks (peeks_peekIntNumber h_pos h)
  · rw [peekIntNumber, if_neg (fun h' => h h'.2)]
    exact .throw _

/-- The unsigned `Long` of up to eight bytes. -/
theorem toNat_ofNat_ofBytes (h : bytes.length ≤ 8) :
    (BitVec.ofNat 64 (Bytes.ofBytes bytes)).toNat = Bytes.ofBytes bytes := by
  have h_lt := Bytes.ofBytes_lt bytes
  have h_pow : 256 ^ bytes.length ≤ 256 ^ 8 := Nat.pow_le_pow_right (by omega) h
  rw [BitVec.toNat_ofNat, Nat.mod_eq_of_lt (by omega)]

/-- The signed `Long` of up to eight bytes. -/
theorem toInt_ofInt_ofSignedBytes (h : bytes.length ≤ 8) :
    (BitVec.ofInt 64 (Bytes.ofSignedBytes bytes)).toInt = Bytes.ofSignedBytes bytes := by
  have h_pos : 0 < 256 ^ bytes.length := Nat.pow_pos (by omega)
  have h_pow : 256 ^ bytes.length ≤ 256 ^ 8 := Nat.pow_le_pow_right (by omega) h
  have h_low := Int.le_bmod (x := Bytes.ofBytes bytes) h_pos
  have h_high := Int.bmod_lt (x := Bytes.ofBytes bytes) h_pos
  change -((256 ^ bytes.length : ℕ) / 2 : ℤ) ≤ Bytes.ofSignedBytes bytes at h_low
  change Bytes.ofSignedBytes bytes < ((256 ^ bytes.length : ℕ) + 1 : ℤ) / 2 at h_high
  exact BitVec.toInt_ofInt_eq_self (by omega) (by omega) (by omega)

/-- What bytes stand for. -/
theorem ofBytes_of_fits (h : Fits false k n) : (Bytes.ofBytes (Bytes.toSignedBytes k n) : ℤ) = n := by
  rw [Fits, if_neg Bool.false_ne_true] at h
  rw [Bytes.ofBytes_toSignedBytes]
  exact Int.emod_eq_of_lt h.1 (by exact_mod_cast h.2)

theorem ofSignedBytes_of_fits (h : Fits true k n) :
    Bytes.ofSignedBytes (Bytes.toSignedBytes k n) = n := by
  rw [Fits, if_pos rfl] at h
  apply Bytes.ofSignedBytes_toSignedBytes
  · push_cast
    omega
  · push_cast
    omega

/-- The forms of an unsigned integer, from those of the number and the `Long` of its bytes. -/
theorem ofForm_false (hk : bytes.length ≤ 8) :
    LongValue.ofForm false (Bytes.ofBytes bytes : ℕ) .long =
        .long true (BitVec.ofNat 64 (Bytes.ofBytes bytes)) ∧
      toString (BitVec.ofNat 64 (Bytes.ofBytes bytes)).toNat = toString (Bytes.ofBytes bytes) := by
  rw [toNat_ofNat_ofBytes hk, ← BitVec.ofInt_natCast]
  exact ⟨rfl, rfl⟩

/-- **Fixed lengths.** Every reader returns the integer that the bytes are the encoding of. -/
theorem returnsInteger_fixed {signed : Bool} (h_pos : 1 ≤ k) (hk : k ≤ 8) (h_fits : Fits signed k n) :
    ReturnsInteger signed (.fixed k) n (Bytes.toSignedBytes k n) := by
  have h_length := Bytes.length_toSignedBytes k n
  intro form
  cases signed with
  | false =>
    have h_value := ofBytes_of_fits h_fits
    generalize Bytes.toSignedBytes k n = bytes at h_length h_value ⊢
    subst h_length h_value
    obtain ⟨h_long, h_text⟩ := ofForm_false hk
    -- as a number, and as the bits of a `Long`
    have h_number := returnsOnly_readUIntNumber h_pos
    have h_number' := returnsOnly_peekUIntNumber h_pos
    have h_bits := ReturnsOnly.of_reads (reads_readUIntLong h_pos hk)
    have h_bits' := ReturnsOnly.of_peeks (peeks_peekUIntLong h_pos hk)
    cases form with
    | number =>
      exact ⟨h_number.map fun m : ℕ => LongValue.number m, h_number'.map fun m : ℕ => LongValue.number m⟩
    | long =>
      rw [h_long]
      exact ⟨h_bits.map (LongValue.long true), h_bits'.map (LongValue.long true)⟩
    | string =>
      exact ⟨(h_number.text (f := BitVec.toNat) h_bits h_text).map LongValue.string,
        (h_number'.text (f := BitVec.toNat) h_bits' h_text).map LongValue.string⟩
  | true =>
    have h_value := ofSignedBytes_of_fits h_fits
    generalize Bytes.toSignedBytes k n = bytes at h_length h_value ⊢
    subst h_length h_value
    -- the text of a `Long` is that of its bits
    have h_text := congrArg toString (toInt_ofInt_ofSignedBytes hk)
    have h_number := returnsOnly_readIntNumber h_pos
    have h_number' := returnsOnly_peekIntNumber h_pos
    have h_bits := ReturnsOnly.of_reads (reads_readIntLong h_pos hk)
    have h_bits' := ReturnsOnly.of_peeks (peeks_peekIntLong h_pos hk)
    cases form with
    | number => exact ⟨h_number.map LongValue.number, h_number'.map LongValue.number⟩
    | long => exact ⟨h_bits.map (LongValue.long false), h_bits'.map (LongValue.long false)⟩
    | string =>
      exact ⟨(h_number.text (f := BitVec.toInt) h_bits h_text).map LongValue.string,
        (h_number'.text (f := BitVec.toInt) h_bits' h_text).map LongValue.string⟩

/-- The length that the readers of variable-length numbers look at gives them up above six bytes. -/
theorem returnsOnly_varNumber {α : Type} {x : ℕ → Action Reader OerError α} {a : α} {e e' : OerError}
    (h_pos : 1 ≤ bytes.length) (h : bytes.length ≤ 8)
    (h_reads : bytes.length ≤ maxSafeBytes → Reads (x bytes.length) bytes a) :
    ReturnsOnly (do
      let r ← get
      match r.buffer[r.cursor]? with
      | some length =>
        if length = 0 then throw e
        else if length.toNat ≤ maxSafeBytes then do
          advance 1
          x length.toNat
        else throw e'
      | none => throw e') (Writer.lengthPrefix bytes.length ++ bytes)
      (Writer.lengthPrefix bytes.length ++ bytes).length a := by
  by_cases h_safe : bytes.length ≤ maxSafeBytes
  · exact .of_reads (reads_varNumber h_pos h_safe (h_reads h_safe))
  · intro r more value r' h_valid h_rest h_exec
    have h_byte : (UInt8.ofNat bytes.length).toNat = bytes.length := Nat.mod_eq_of_lt (by omega)
    rw [lengthPrefix_of_le (by omega)] at h_rest
    rw [exec_bind_ok (exec_get r), getElem?_of_rest h_rest] at h_exec
    simp only at h_exec
    rw [h_byte, if_neg h_safe] at h_exec
    split at h_exec
    · cases h_exec
    · cases h_exec

/-- **Variable lengths.** -/
theorem returnsInteger_var {signed : Bool} (h_pos : 1 ≤ k) (hk : k ≤ 8) (h_fits : Fits signed k n) :
    ReturnsInteger signed .var n (Writer.lengthPrefix k ++ Bytes.toSignedBytes k n) := by
  have h_length := Bytes.length_toSignedBytes k n
  intro form
  cases signed with
  | false =>
    have h_value := ofBytes_of_fits h_fits
    generalize Bytes.toSignedBytes k n = bytes at h_length h_value ⊢
    subst h_length h_value
    obtain ⟨h_long, h_text⟩ := ofForm_false hk
    -- up to six bytes are read as a number, more as a `Long`
    have h_number : ReturnsOnly readVarUIntNumber _ _ _ :=
      returnsOnly_varNumber h_pos hk fun h => reads_readUIntNumber h_pos h
    have h_bits := ReturnsOnly.of_reads (reads_readVarUIntLong h_pos hk)
    cases form with
    | number =>
      exact ⟨h_number.map fun m : ℕ => LongValue.number m,
        h_number.peeking.map fun m : ℕ => LongValue.number m⟩
    | long =>
      rw [h_long]
      exact ⟨h_bits.map (LongValue.long true), h_bits.peeking.map (LongValue.long true)⟩
    | string =>
      have h_reads := h_bits.map fun l => toString l.toNat
      have h_peeks := h_bits.peeking.map fun l => toString l.toNat
      rw [h_text] at h_reads h_peeks
      exact ⟨h_reads.map LongValue.string, h_peeks.map LongValue.string⟩
  | true =>
    have h_value := ofSignedBytes_of_fits h_fits
    generalize Bytes.toSignedBytes k n = bytes at h_length h_value ⊢
    subst h_length h_value
    -- the same with a sign
    have h_number : ReturnsOnly readVarIntNumber _ _ _ :=
      returnsOnly_varNumber h_pos hk fun h => reads_readIntNumber h_pos h
    have h_bits := ReturnsOnly.of_reads (reads_readVarIntLong h_pos hk)
    cases form with
    | number => exact ⟨h_number.map LongValue.number, h_number.peeking.map LongValue.number⟩
    | long => exact ⟨h_bits.map (LongValue.long false), h_bits.peeking.map (LongValue.long false)⟩
    | string =>
      have h_reads := h_bits.map fun l => toString l.toInt
      have h_peeks := h_bits.peeking.map fun l => toString l.toInt
      rw [toInt_ofInt_ofSignedBytes hk] at h_reads h_peeks
      exact ⟨h_reads.map LongValue.string, h_peeks.map LongValue.string⟩

end Reader

/-! ### Meeting what is asked -/

/-- A writer adds one thing only. -/
theorem Writer.writes_unique {x : Action Writer OerError Unit} {bytes bytes' : Buffer}
    (h : Writes x bytes) (h' : Writes x bytes') : bytes = bytes' := by
  have h_room (n : ℕ) (hn : n ≤ bytes.length + bytes'.length) :
      Sink.HasRoom n (Writer.ofBuffer (List.replicate (bytes.length + bytes'.length) 0)) :=
    .inl (by rw [Writer.ofBuffer, List.length_replicate]; exact hn)
  obtain ⟨w, h_exec, h_ext⟩ := h.exec_of_hasRoom (h_room _ (Nat.le_add_right _ _))
  have h_ext' := h'.extends_of_exec h_exec
  exact List.append_cancel_left (h_ext.written.symm.trans h_ext'.written)

section Meets

variable {signed : Bool} {width : Width} {value : LongValue} {bytes : Buffer} {k : ℕ}

theorem meets_of_writes (h_encoding : IsIntegerEncoding signed width value.toInt bytes)
    (h_fits : Representable signed width value.toInt)
    (h_writes : Writes (Writer.writeInteger signed width value) bytes)
    (h_reads : Reader.ReturnsInteger signed width value.toInt bytes) : Meets signed width value :=
  ⟨fun _ => ⟨bytes, h_encoding, h_writes, h_reads⟩, fun h_not => absurd h_fits h_not⟩

theorem meets_of_throws (h_not : ¬Representable signed width value.toInt)
    (h_throws : ∀ w : Writer, ∃ e w', (Writer.writeInteger signed width value).exec w = (.error e, w')) :
    Meets signed width value :=
  ⟨fun h_fits => absurd h_fits h_not, fun _ => h_throws⟩

/-- Refusing an integer that can be written is a failure, -/
theorem not_meets_of_throws (h_fits : Representable signed width value.toInt)
    (h_throws : ∀ w : Writer, ∃ e w', (Writer.writeInteger signed width value).exec w = (.error e, w')) :
    ¬Meets signed width value := by
  rintro ⟨h_meets, -⟩
  obtain ⟨bytes, -, h_writes, -⟩ := h_meets h_fits
  have h_room : Sink.HasRoom bytes.length (Writer.ofBuffer (List.replicate bytes.length 0)) :=
    .inl (by rw [Writer.ofBuffer, List.length_replicate])
  obtain ⟨w, h_exec, -⟩ := h_writes.exec_of_hasRoom h_room
  obtain ⟨e, w', h_error⟩ := h_throws (Writer.ofBuffer (List.replicate bytes.length 0))
  rw [h_exec] at h_error
  cases h_error

/-- and so is writing anything but the encoding due. -/
theorem not_meets_of_writes (h_writes : Writes (Writer.writeInteger signed width value) bytes)
    (h_other : Representable signed width value.toInt →
      ¬IsIntegerEncoding signed width value.toInt bytes) : ¬Meets signed width value := by
  rintro ⟨h_meets, h_refuses⟩
  by_cases h_fits : Representable signed width value.toInt
  · obtain ⟨bytes', h_encoding, h_writes', -⟩ := h_meets h_fits
    rw [Writer.writes_unique h_writes' h_writes] at h_encoding
    exact h_other h_fits h_encoding
  · have h_room : Sink.HasRoom bytes.length (Writer.ofBuffer (List.replicate bytes.length 0)) :=
      .inl (by rw [Writer.ofBuffer, List.length_replicate])
    obtain ⟨w, h_exec, -⟩ := h_writes.exec_of_hasRoom h_room
    obtain ⟨e, w', h_error⟩ := h_refuses h_fits (Writer.ofBuffer (List.replicate bytes.length 0))
    rw [h_exec] at h_error
    cases h_error

/-- A prefix and as many bytes as it says. -/
theorem length_prefixed (hk : k ≤ 127) (h : bytes.length = k) :
    (Writer.lengthPrefix k ++ bytes).length = 1 + k := by
  rw [Reader.lengthPrefix_of_le hk, List.length_append, h]
  rfl

/-! #### Fixed lengths -/

/-- Up to eight bytes, the encoding that is due is read back. -/
theorem meets_fixed (h_pos : 1 ≤ k) (hk : k ≤ 8) (h_fits : Fits signed k value.toInt)
    (h_write : Writer.writeInteger signed (.fixed k) value =
      Writer.write (Bytes.toSignedBytes k value.toInt)) : Meets signed (.fixed k) value :=
  meets_of_writes rfl h_fits (h_write ▸ Writer.writes_write _)
    (Reader.returnsInteger_fixed h_pos hk h_fits)

theorem meets_fixed_of_throw (h_not : ¬Fits signed k value.toInt)
    (h_throw : ∃ e, Writer.writeInteger signed (.fixed k) value = throw e) :
    Meets signed (.fixed k) value := by
  obtain ⟨e, h_throw⟩ := h_throw
  exact meets_of_throws h_not fun w => ⟨e, w, by rw [h_throw]; rfl⟩

/-- Past eight bytes, too few are written. -/
theorem not_meets_of_long {long : BitVec 64} (hk : 8 < k)
    (h_write : Writer.writeInteger signed (.fixed k) value = Writer.write (longToBuffer long k)) :
    ¬Meets signed (.fixed k) value := by
  refine not_meets_of_writes (h_write ▸ Writer.writes_write _) fun _ h_encoding => ?_
  have h_length := congrArg List.length h_encoding
  rw [length_longToBuffer_of_lt hk, Bytes.length_toSignedBytes] at h_length
  omega

/-- Nine bytes and more hold every 64-bit integer. -/
theorem fits_of_long {n : ℤ} (hk : 8 < k) (h_low : -2 ^ 63 ≤ n) (h_high : n < 2 ^ 64)
    (h_sign : signed = false → 0 ≤ n) : Fits signed k n := by
  have h_pow : (256 : ℤ) ^ 9 ≤ 256 ^ k := pow_le_pow_right₀ (by norm_num) hk
  cases signed with
  | false => exact ⟨h_sign rfl, by omega⟩
  | true => exact ⟨by omega, by omega⟩

/-- The encoding of a natural number. -/
theorem toSignedBytes_of_fits {n : ℤ} {m : ℕ} (h : Fits false k n) (hm : (m : ℤ) = n) :
    Bytes.toSignedBytes k n = Bytes.toBytes k m := by
  rw [Fits, if_neg Bool.false_ne_true] at h
  subst hm
  exact Bytes.toSignedBytes_natCast (by exact_mod_cast h.2)

/-- **Unsigned, at a fixed length.** -/
theorem meets_writeUInt_iff (h : value.Accepted true) (h_pos : 1 ≤ k) :
    Meets false (.fixed k) value ↔ CodedCorrectly false (.fixed k) value := by
  -- up to six bytes are written by `writeUIntBE`, which checks the range
  by_cases h_short : k ≤ 6
  · refine iff_of_true ?_ (.inr (.inl h_short))
    rcases Writer.writeUInt_short h h_pos h_short with ⟨h_fits, h_write⟩ | ⟨h_not, h_throw⟩
    · rw [← toSignedBytes_of_fits h_fits (Int.toNat_of_nonneg h_fits.1)] at h_write
      exact meets_fixed h_pos (by omega) h_fits h_write
    · exact meets_fixed_of_throw h_not h_throw
  have h_long : maxSafeBytes < k := not_le.mp h_short
  cases h_sign : value.isNegative with
  | true =>
    -- zero would fit, but is refused behind a minus sign
    have h_throw := Writer.writeUInt_of_isNegative h h_long h_sign
    have h_nonpos := LongValue.toInt_nonpos h h_sign
    have h_coded : CodedCorrectly false (.fixed k) value ↔ value.toInt < 0 := by
      unfold CodedCorrectly
      simp only [h_sign, h_short, Bool.true_eq_false, and_false, or_false]
    rw [h_coded]
    by_cases h_neg : value.toInt < 0
    · exact iff_of_true (meets_fixed_of_throw (fun h_fits => absurd h_fits.1 (not_le.mpr h_neg)) h_throw)
        h_neg
    · refine iff_of_false ?_ h_neg
      obtain ⟨e, h_throw⟩ := h_throw
      have h_zero : value.toInt = 0 := le_antisymm h_nonpos (not_lt.mp h_neg)
      refine not_meets_of_throws ?_ fun w => ⟨e, w, ?_⟩
      · change Fits false k value.toInt
        rw [h_zero]
        exact ⟨le_rfl, pow_pos (by norm_num) k⟩
      · change (Writer.writeUInt value k).exec w = _
        rw [h_throw]
        rfl
  | false =>
    -- from seven bytes on by way of a `Long`
    have h_nonneg := LongValue.toInt_nonneg h h_sign
    have h_lt := LongValue.toInt_lt h
    have h_coded : CodedCorrectly false (.fixed k) value ↔ k ≤ 8 := by
      unfold CodedCorrectly
      simp only [h_sign, h_short, not_lt.mpr h_nonneg, and_true, false_or]
    rw [h_coded]
    rcases Writer.writeUInt_long h h_long h_sign with ⟨h_fits, h_write⟩ | ⟨h_not, h_throw⟩
    · -- only eight bytes of it are there
      by_cases hk : k ≤ 8
      · have h_nat := Writer.toNat_ofInt_toInt h h_sign
        rw [longToBuffer_eq hk, ← toSignedBytes_of_fits h_fits h_nat] at h_write
        exact iff_of_true (meets_fixed h_pos hk h_fits h_write) hk
      · exact iff_of_false (not_meets_of_long (not_le.mp hk) h_write) hk
    · -- every `Long` fits in more than eight bytes, so it was not refused for them
      have hk : k ≤ 8 := by
        by_contra h_more
        exact h_not (fits_of_long (not_le.mp h_more) (by omega) h_lt fun _ => h_nonneg)
      exact iff_of_true (meets_fixed_of_throw h_not h_throw) hk

/-- An accepted signed value. Only a text goes past the signed 64-bit integers. -/
theorem toInt_bounds (h : value.Accepted false) : -2 ^ 63 ≤ value.toInt ∧ value.toInt < 2 ^ 64 := by
  cases value with
  | number n =>
    have h_safe : n.natAbs < 2 ^ 53 := h
    change -2 ^ 63 ≤ n ∧ n < 2 ^ 64
    omega
  | fraction => exact h.elim
  | string text => exact h.2
  | long u bits =>
    cases h
    have h_low := bits.le_two_mul_toInt
    have h_high := bits.two_mul_toInt_lt
    change -2 ^ 63 ≤ bits.toInt ∧ bits.toInt < 2 ^ 64
    omega

/-- The signed `Long` of an integer up to `2 ^ 64` wraps around at `2 ^ 63`. -/
theorem toInt_ofInt_cases {n : ℤ} (h_low : -2 ^ 63 ≤ n) (h_high : n < 2 ^ 64) :
    n < 2 ^ 63 ∧ (BitVec.ofInt 64 n).toInt = n ∨
      2 ^ 63 ≤ n ∧ (BitVec.ofInt 64 n).toInt = n - 2 ^ 64 := by
  by_cases h : n < 2 ^ 63
  · exact .inl ⟨h, BitVec.toInt_ofInt_eq_self (by omega) (by exact_mod_cast h_low) (by exact_mod_cast h)⟩
  · refine .inr ⟨not_lt.mp h, ?_⟩
    have h_same : BitVec.ofInt 64 n = BitVec.ofInt 64 (n - 2 ^ 64) := by
      apply BitVec.eq_of_toInt_eq
      rw [BitVec.toInt_ofInt, BitVec.toInt_ofInt]
      exact (Int.sub_bmod_right n (2 ^ 64)).symm
    rw [h_same]
    exact BitVec.toInt_ofInt_eq_self (by omega) (by omega) (by omega)

/-- **Signed, at a fixed length.** -/
theorem meets_writeInt_iff (h : value.Accepted false) (h_pos : 1 ≤ k) :
    Meets true (.fixed k) value ↔ CodedCorrectly true (.fixed k) value := by
  -- up to six bytes are written by `writeIntBE`, which checks the range
  by_cases h_short : k ≤ 6
  · refine iff_of_true ?_ (.inl h_short)
    rcases Writer.writeInt_short h h_pos h_short with ⟨h_fits, h_write⟩ | ⟨h_not, h_throw⟩
    · exact meets_fixed h_pos (by omega) h_fits h_write
    · exact meets_fixed_of_throw h_not h_throw
  have h_long : maxSafeBytes < k := not_le.mp h_short
  have h_coded : CodedCorrectly true (.fixed k) value ↔
      k = 7 ∧ value.toInt < 2 ^ 64 - 2 ^ 55 ∨ k = 8 ∧ value.toInt < 2 ^ 63 := by
    unfold CodedCorrectly
    simp only [h_short, false_or]
  obtain ⟨h_low, h_high⟩ := toInt_bounds h
  rw [h_coded]
  -- a `Long` takes the value modulo `2 ^ 64`
  have h_wrap := toInt_ofInt_cases h_low h_high
  rcases Writer.writeInt_long h h_long with ⟨h_fits, h_write⟩ | ⟨h_not, h_throw⟩
  · by_cases hk : k ≤ 8
    · rw [longToBuffer_eq_signed hk] at h_write
      rcases h_wrap with ⟨h_small, h_same⟩ | ⟨h_large, h_other⟩
      · rw [h_same] at h_fits h_write
        exact iff_of_true (meets_fixed h_pos hk h_fits h_write) (by omega)
      · -- a text from 2 ^ 63 on is written as the negative number it wraps to
        have h_not : ¬Fits true k value.toInt := by
          have h_pow : (256 : ℤ) ^ k ≤ 256 ^ 8 := pow_le_pow_right₀ (by norm_num) hk
          rw [Fits, if_pos rfl]
          omega
        rw [h_other, Fits, if_pos rfl] at h_fits
        refine iff_of_false (not_meets_of_writes (h_write ▸ Writer.writes_write _) fun h =>
          absurd h h_not) ?_
        rintro (⟨rfl, h_less⟩ | ⟨rfl, h_less⟩) <;> omega
    · exact iff_of_false (not_meets_of_long (not_le.mp hk) h_write) (by omega)
  · rcases h_wrap with ⟨h_small, h_same⟩ | ⟨h_large, h_other⟩
    · rw [h_same] at h_not
      have hk : k = 7 ∨ k = 8 := by
        by_contra h_more
        exact h_not (fits_of_long (by omega) h_low h_high (by simp))
      exact iff_of_true (meets_fixed_of_throw h_not h_throw) (by omega)
    · -- what it wraps to is refused, and so it had to be
      have h_seven : k = 7 := by
        by_contra h_more
        refine h_not (Fits.mono (j := 8) ?_ (by omega))
        rw [h_other, Fits, if_pos rfl]
        omega
      subst h_seven
      rw [h_other, Fits, if_pos rfl] at h_not
      refine iff_of_true (meets_fixed_of_throw ?_ h_throw) (.inl ⟨rfl, by omega⟩)
      rw [Fits, if_pos rfl]
      omega

/-! #### Variable lengths -/

/-- The encoding that is due is read back. -/
theorem meets_var (h_short : Shortest signed k value.toInt) (hk : k ≤ 8)
    (h_writes : Writes (Writer.writeInteger signed .var value)
      (Writer.lengthPrefix k ++ Bytes.toSignedBytes k value.toInt)) : Meets signed .var value :=
  meets_of_writes ⟨k, h_short, rfl⟩ ⟨k, h_short.fits⟩ h_writes
    (Reader.returnsInteger_var h_short.pos hk h_short.fits)

/-- Any other length than the shortest is a failure. -/
theorem not_meets_of_length (hk : k ≤ 127) (h_length : bytes.length = k)
    (h_not : ¬Shortest signed k value.toInt)
    (h_writes : Writes (Writer.writeInteger signed .var value) (Writer.lengthPrefix k ++ bytes)) :
    ¬Meets signed .var value := by
  refine not_meets_of_writes h_writes ?_
  rintro - ⟨j, h_short, h_encoding⟩
  have h_lengths := congrArg List.length h_encoding
  have h_pre : 1 ≤ (Writer.lengthPrefix j).length := by
    unfold Writer.lengthPrefix
    split
    · exact le_rfl
    · rw [List.length_append, Bytes.length_toBytes]
      exact Nat.le_add_right _ _
  rw [length_prefixed hk h_length, List.length_append, Bytes.length_toSignedBytes] at h_lengths
  rw [Reader.lengthPrefix_of_le (by omega), List.length_singleton, Nat.add_left_cancel_iff] at h_lengths
  exact h_not (h_lengths ▸ h_short)

/-- An unsigned integer in an octet string of its length. -/
theorem writes_unsigned (h : value.Accepted true) (h_sign : value.isNegative = false) (h_pos : 1 ≤ k)
    (hk : k ≤ 8) (h_fits : Fits false k value.toInt) :
    Writes (Writer.createVarOctetString k (Writer.writeUInt value k))
      (Writer.lengthPrefix k ++ Bytes.toSignedBytes k value.toInt) := by
  have h_write : Writer.writeUInt value k = Writer.write (Bytes.toSignedBytes k value.toInt) := by
    by_cases h_short : k ≤ maxSafeBytes
    · rcases Writer.writeUInt_short h h_pos h_short with ⟨-, h_write⟩ | ⟨h_not, -⟩
      · rwa [← toSignedBytes_of_fits h_fits (Int.toNat_of_nonneg h_fits.1)] at h_write
      · exact absurd h_fits h_not
    · rcases Writer.writeUInt_long h (not_le.mp h_short) h_sign with ⟨-, h_write⟩ | ⟨h_not, -⟩
      · rwa [longToBuffer_eq hk, ← toSignedBytes_of_fits h_fits (Writer.toNat_ofInt_toInt h h_sign)]
          at h_write
      · exact absurd h_fits h_not
  rw [h_write]
  exact Writer.writes_createVarOctetString (Writer.writes_write _) (Bytes.length_toSignedBytes k _)
    (by omega)

/-- A signed integer in an octet string of its length. -/
theorem writes_signed (h : value.Accepted false) (h_lt : value.toInt < 2 ^ 63) (h_pos : 1 ≤ k)
    (hk : k ≤ 8) (h_fits : Fits true k value.toInt) :
    Writes (Writer.createVarOctetString k (Writer.writeInt value k))
      (Writer.lengthPrefix k ++ Bytes.toSignedBytes k value.toInt) := by
  have h_same : (BitVec.ofInt 64 value.toInt).toInt = value.toInt :=
    BitVec.toInt_ofInt_eq_self (by omega) (by exact_mod_cast (toInt_bounds h).1) (by exact_mod_cast h_lt)
  have h_write : Writer.writeInt value k = Writer.write (Bytes.toSignedBytes k value.toInt) := by
    by_cases h_short : k ≤ maxSafeBytes
    · rcases Writer.writeInt_short h h_pos h_short with ⟨-, h_write⟩ | ⟨h_not, -⟩
      · exact h_write
      · exact absurd h_fits h_not
    · rcases Writer.writeInt_long h (not_le.mp h_short) with ⟨-, h_write⟩ | ⟨h_not, -⟩
      · rwa [longToBuffer_eq_signed hk, h_same] at h_write
      · rw [h_same] at h_not
        exact absurd h_fits h_not
  rw [h_write]
  exact Writer.writes_createVarOctetString (Writer.writes_write _) (Bytes.length_toSignedBytes k _)
    (by omega)

/-- **Unsigned, behind its length.** -/
theorem meets_writeVarUInt_iff (h : value.Accepted true) :
    Meets false .var value ↔ CodedCorrectly false .var value := by
  have h_coded : CodedCorrectly false .var value ↔ value.toInt < 0 ∨ value.isNegative = false := by
    unfold CodedCorrectly
    rfl
  -- what is negative has no encoding, so that it is right to refuse it
  have h_refused : value.toInt < 0 → (∀ w : Writer, ∃ e w',
      (Writer.writeVarUInt (.value value)).exec w = (.error e, w')) → Meets false .var value :=
    fun h_neg h_throws => meets_of_throws (fun ⟨k, h_fits⟩ => absurd h_fits.1 (not_le.mpr h_neg)) h_throws
  rw [h_coded]
  -- a number is given the bytes of its binary form
  by_cases h_number : ∃ n, value = .number n
  · obtain ⟨n, rfl⟩ := h_number
    have h_safe : n.natAbs < 2 ^ 53 := h
    have h_write : Writer.writeVarUInt (.value (.number n)) =
        Writer.createVarOctetString (getUIntBufferSize n)
          (Writer.writeUInt (.number n) (getUIntBufferSize n)) := rfl
    by_cases h_neg : n < 0
    · -- the one byte that it is given does not hold it
      refine iff_of_true (h_refused h_neg ?_) (.inl h_neg)
      rw [h_write, getUIntBufferSize_of_neg h_neg]
      refine Writer.throws_createVarOctetString fun slice _ => ?_
      rcases Writer.writeUInt_short h le_rfl (by decide) with ⟨h_fits, -⟩ | ⟨-, e, h_throw⟩
      · exact absurd h_fits.1 (not_le.mpr h_neg)
      · exact ⟨e, _, by rw [h_throw]; rfl⟩
    · have h_sign : (LongValue.number n).isNegative = false := decide_eq_false h_neg
      -- which are as many as it needs
      have h_short : Shortest false (getUIntBufferSize n) (LongValue.number n).toInt :=
        shortest_getUIntBufferSize (not_lt.mp h_neg) (by omega)
      have h_seven : getUIntBufferSize n ≤ 7 :=
        h_short.le 7 (by omega) ⟨not_lt.mp h_neg, (show n < 256 ^ 7 by omega)⟩
      refine iff_of_true (meets_var h_short (by omega) ?_) (.inr h_sign)
      change Writes (Writer.writeVarUInt (.value (.number n))) _
      rw [h_write]
      exact writes_unsigned h h_sign h_short.pos (by omega) h_short.fits
  -- anything else goes through a `Long`
  have h_write : Writer.writeVarUInt (.value value) = (longFromValue value true >>= fun long =>
      getLongUIntBufferSize long >>= fun lengthOfValue =>
        Writer.createVarOctetString lengthOfValue (Writer.writeUInt (.long true long) lengthOfValue)) := by
    unfold Writer.writeVarUInt
    simp only
    rw [LongValue.isInteger_of_accepted h]
    cases value with
    | number n => exact absurd ⟨n, rfl⟩ h_number
    | fraction => rfl
    | string text => rfl
    | long u bits => rfl
  rw [longFromValue_eq h] at h_write
  cases h_sign : value.isNegative with
  | true =>
    rw [if_pos ⟨rfl, h_sign⟩] at h_write
    -- the conversion refuses a minus sign
    have h_throws (w : Writer) : ∃ e w', (Writer.writeVarUInt (.value value)).exec w = (.error e, w') :=
      ⟨_, w, by rw [h_write]; rfl⟩
    have h_nonpos := LongValue.toInt_nonpos h h_sign
    by_cases h_neg : value.toInt < 0
    · exact iff_of_true (h_refused h_neg h_throws) (.inl h_neg)
    · have h_fits : Fits false 1 value.toInt := ⟨not_lt.mp h_neg, by omega⟩
      exact iff_of_false (not_meets_of_throws ⟨1, h_fits⟩ h_throws)
        fun h => h.elim h_neg Bool.true_eq_false.mp
  | false =>
    obtain ⟨k, hk, h_size, h_short⟩ :=
      getLongUIntBufferSize_eq (σ := Writer) (BitVec.ofInt 64 value.toInt)
    rw [if_neg (fun h => Bool.false_ne_true (h_sign.symm.trans h.2)), pure_bind, h_size, pure_bind]
      at h_write
    -- and is exact otherwise
    have h_long : (LongValue.long true (BitVec.ofInt 64 value.toInt)).toInt = value.toInt :=
      Writer.toNat_ofInt_toInt h h_sign
    rw [Writer.toNat_ofInt_toInt h h_sign] at h_short
    have h_writes := @writes_unsigned (.long true (BitVec.ofInt 64 value.toInt)) k rfl rfl
      h_short.pos hk (h_long.symm ▸ h_short.fits)
    rw [h_long, ← h_write] at h_writes
    exact iff_of_true (meets_var h_short hk h_writes) (.inr rfl)

/-- **Signed, behind its length.** -/
theorem meets_writeVarInt_iff (h : value.Accepted false) :
    Meets true .var value ↔ CodedCorrectly true .var value := by
  obtain ⟨h_low, h_high⟩ := toInt_bounds h
  -- a number has its size computed in floating point
  by_cases h_number : ∃ n, value = .number n
  · obtain ⟨n, rfl⟩ := h_number
    have h_safe : n.natAbs < 2 ^ 53 := h
    have h_write : Writer.writeVarInt (.value (.number n)) =
        Writer.createVarOctetString (getIntBufferSize n)
          (Writer.writeInt (.number n) (getIntBufferSize n)) := by
      rw [Writer.writeVarInt, LongValue.isInteger_of_accepted h,
        LongValue.isNumberAbove_of_accepted h (by decide),
        LongValue.isNumberBelow_of_accepted h (by decide)]
      rfl
    -- whatever the size, its bytes are written if they hold it
    have h_writes {k : ℕ} (hk : getIntBufferSize n = k) (h_pos : 1 ≤ k) (h_eight : k ≤ 8)
        (h_fits : Fits true k n) : Writes (Writer.writeVarInt (.value (.number n)))
          (Writer.lengthPrefix k ++ Bytes.toSignedBytes k n) := by
      rw [h_write, hk]
      exact writes_signed h (show n < 2 ^ 63 by omega) h_pos h_eight h_fits
    change Meets true .var (.number n) ↔ ¬(2 ^ 47 ≤ n ∧ n < 2 ^ 48) ∧ -2 ^ 52 < n
    rw [← shortest_getIntBufferSize_iff h_safe]
    -- the size is right as long as six bytes are enough
    rcases getIntBufferSize_cases h_safe with ⟨h_six, h_short⟩ | ⟨h_large, h_least, h_size⟩
    · have h_le := h_short.le 6 (by omega) h_six
      exact iff_of_true (meets_var h_short (by omega) (h_writes rfl h_short.pos (by omega) h_short.fits))
        h_short
    have h_seven : Fits true 7 n := ⟨by omega, by omega⟩
    -- from then on seven bytes are due, and six or eight may be computed
    have h_due : Shortest true 7 n := ⟨by omega, h_seven, h_least⟩
    by_cases h_shortest : Shortest true (getIntBufferSize n) n
    · have h_eq := h_shortest.unique h_due
      exact iff_of_true (meets_var h_due (by omega) (h_writes h_eq (by omega) (by omega) h_seven))
        h_shortest
    · refine iff_of_false ?_ h_shortest
      have h_cases : getIntBufferSize n = 6 ∨ getIntBufferSize n = 8 := by
        have h_ne : getIntBufferSize n ≠ 7 := fun h_eq => h_shortest (h_eq.symm ▸ h_due)
        split_ifs at h_size <;> omega
      rcases h_cases with h_six | h_eight
      · -- six bytes do not hold it
        refine not_meets_of_throws ⟨7, h_seven⟩ ?_
        change ∀ w : Writer, ∃ e w', (Writer.writeVarInt (.value (.number n))).exec w = (.error e, w')
        rw [h_write, h_six]
        refine Writer.throws_createVarOctetString fun slice _ => ?_
        rcases Writer.writeInt_short (k := 6) h (by omega) (by decide) with ⟨h_fits, -⟩ | ⟨-, e, h_throw⟩
        · exact absurd h_fits h_large
        · exact ⟨e, _, by rw [h_throw]; rfl⟩
      · exact not_meets_of_length (k := 8) (by omega) (Bytes.length_toSignedBytes 8 n)
          (h_eight ▸ h_shortest) (h_writes h_eight (by omega) le_rfl (h_seven.mono (by omega)))
  -- the others go through a `Long`
  have h_coded : CodedCorrectly true .var value ↔ value.toInt < 2 ^ 63 := by
    cases value with
    | number n => exact absurd ⟨n, rfl⟩ h_number
    | fraction => rfl
    | string text => rfl
    | long u bits => rfl
  obtain ⟨k, hk, h_size, h_short⟩ :=
    getLongIntBufferSize_eq (σ := Writer) (BitVec.ofInt 64 value.toInt)
  -- with its size computed bit by bit
  have h_write : Writer.writeVarInt (.value value) = Writer.createVarOctetString k
      (Writer.writeInt (.long false (BitVec.ofInt 64 value.toInt)) k) := by
    have h_body : Writer.writeVarInt (.value value) = (longFromValue value false >>= fun long =>
        getLongIntBufferSize long >>= fun lengthOfValue =>
          Writer.createVarOctetString lengthOfValue (Writer.writeInt (.long false long) lengthOfValue)) := by
      unfold Writer.writeVarInt
      simp only
      rw [LongValue.isInteger_of_accepted h, LongValue.isNumberAbove_of_accepted h (by decide),
        LongValue.isNumberBelow_of_accepted h (by decide)]
      cases value with
      | number n => exact absurd ⟨n, rfl⟩ h_number
      | fraction => rfl
      | string text => rfl
      | long u bits => rfl
    rw [h_body, longFromValue_eq h, if_neg (fun h => Bool.false_ne_true h.1), pure_bind, h_size, pure_bind]
  have h_lt : (LongValue.long false (BitVec.ofInt 64 value.toInt)).toInt < 2 ^ 63 := by
    have h_bound := (BitVec.ofInt 64 value.toInt).two_mul_toInt_lt
    change (BitVec.ofInt 64 value.toInt).toInt < 2 ^ 63
    omega
  -- it is the wrapped value that is written
  have h_writes := @writes_signed (.long false (BitVec.ofInt 64 value.toInt)) k rfl h_lt
    h_short.pos hk h_short.fits
  rw [← h_write] at h_writes
  rw [h_coded]
  rcases toInt_ofInt_cases h_low h_high with ⟨h_small, h_same⟩ | ⟨h_large, -⟩
  · have h_long : (LongValue.long false (BitVec.ofInt 64 value.toInt)).toInt = value.toInt := h_same
    rw [h_same] at h_short
    rw [h_long] at h_writes
    exact iff_of_true (meets_var h_short hk h_writes) h_small
  · -- from 2 ^ 63 on, nine bytes would be due
    refine iff_of_false (not_meets_of_length (by omega) (Bytes.length_toSignedBytes k _) ?_ h_writes)
      (not_lt.mpr h_large)
    intro h_due
    have h_fits := h_due.fits
    have h_pow : (256 : ℤ) ^ k ≤ 256 ^ 8 := pow_le_pow_right₀ (by norm_num) hk
    rw [Fits, if_pos rfl] at h_fits
    omega

end Meets

/-- **The integer codec** meets what is asked of it where none of the places in which the writer falls
short is reached, and only there. -/
theorem meets_iff_codedCorrectly {signed : Bool} {width : Width} {value : LongValue}
    (h : value.Accepted (!signed)) (h_pos : ∀ length, width = .fixed length → 1 ≤ length) :
    Meets signed width value ↔ CodedCorrectly signed width value := by
  cases signed with
  | false =>
    cases width with
    | fixed length => exact meets_writeUInt_iff h (h_pos length rfl)
    | var => exact meets_writeVarUInt_iff h
  | true =>
    cases width with
    | fixed length => exact meets_writeInt_iff h (h_pos length rfl)
    | var => exact meets_writeVarInt_iff h

/-- A number of 47 bits is coded as it should be, and -2^52 is not. -/
theorem meets_iff_codedCorrectly_var :
    Meets true .var (.number (2 ^ 46)) ∧ ¬Meets true .var (.number (-2 ^ 52)) := by
  constructor
  · refine (@meets_iff_codedCorrectly true .var (.number (2 ^ 46)) (show (2 ^ 46 : ℤ).natAbs < 2 ^ 53 by decide)
      (fun _ h => by cases h)).mpr ?_
    exact ⟨by norm_num, by norm_num⟩
  · intro h_meets
    have h_coded := (@meets_iff_codedCorrectly true .var (.number (-2 ^ 52))
      (show (-2 ^ 52 : ℤ).natAbs < 2 ^ 53 by decide) (fun _ h => by cases h)).mp h_meets
    exact absurd h_coded.2 (lt_irrefl _)

/-- A number of 48 bits is not: `writeVarInt` gives it six bytes, and throws. -/
theorem not_meets_writeVarInt : ¬Meets true .var (.number (2 ^ 47)) := by
  have h_accepted : (LongValue.number (2 ^ 47)).Accepted false := show (2 ^ 47 : ℤ).natAbs < 2 ^ 53 by decide
  rw [meets_writeVarInt_iff h_accepted]
  exact fun h_coded => h_coded.1 (by norm_num)

end Interledger.Oer
