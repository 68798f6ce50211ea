import Interledger.Oer.Reader

/-!
# Canonical octet strings

Which byte strings `Reader.readVarOctetString` takes, compared with those that
`Writer.writeVarOctetString` writes. The check for a length that could have been encoded with a shorter
prefix shifts 32-bit integers, so that it lets through such lengths in five and in six bytes.

## Main results

* `readVarOctetString_iff_writeVarOctetString` — elsewhere, the reader takes exactly what the writer
  writes.
-/

namespace Interledger.Oer

open Ilp (Buffer)
open Interledger.Action

/-- The bytes that a program writes to a buffer with room for them. -/
def Writer.IsEncoding (x : Action Writer OerError Unit) (bytes : Buffer) : Prop :=
  ∃ space w, x.exec (.ofBuffer space) = (.ok (), w) ∧ w.getBuffer = bytes

/-- A program that writes `bytes` has that encoding and no other. -/
theorem Writer.isEncoding_iff {x : Action Writer OerError Unit} {bytes bytes' : Buffer}
    (h : Writes x bytes) : Writer.IsEncoding x bytes' ↔ bytes' = bytes := by
  constructor
  · rintro ⟨space, w, h_exec, rfl⟩
    have h_ext : Extends (.ofBuffer space) bytes w := h.extends_of_exec h_exec
    exact h_ext.written
  · rintro rfl
    obtain ⟨w, h_exec, h_ext⟩ := h.exec_of_hasRoom (s := Writer.ofBuffer bytes') (.inl le_rfl)
    have h_ext : Extends (.ofBuffer bytes') bytes' w := h_ext
    exact ⟨bytes', w, h_exec, h_ext.written⟩

namespace Reader

/-- At the cursor stands a length in five bytes that needs at most four, or in six bytes that needs at
most five, and is still at least the 128 or 256 that the shifted limit comes down to, followed by so
many bytes. -/
def AtLongPrefix (r : Reader) : Prop :=
  ∃ k n value more, (k = 5 ∧ 128 ≤ n ∧ n < 256 ^ 4 ∨ k = 6 ∧ 256 ≤ n ∧ n < 256 ^ 5) ∧
    value.length = n ∧
    Cursor.rest r = Bytes.toBytes 1 (0x80 + k) ++ Bytes.toBytes k n ++ value ++ more

/-- Reading returns a value exactly where the writer's encoding of that value stands, and moves past the
encoding. -/
def ReadsCanonically (r : Reader) : Prop :=
  ∀ value r', readVarOctetString.exec r = (.ok value, r') ↔
    ∃ bytes more, Writer.IsEncoding (Writer.writeVarOctetString value) bytes ∧
      Cursor.rest r = bytes ++ more ∧ r' = Cursor.skip bytes.length r

/-- Where the writer's encoding of a value stands, it is read. -/
def ReadsBack (r : Reader) : Prop :=
  ∀ value bytes more, Writer.IsEncoding (Writer.writeVarOctetString value) bytes →
    Cursor.rest r = bytes ++ more →
    readVarOctetString.exec r = (.ok value, Cursor.skip bytes.length r)

/-- Up to four bytes, the least length is the least that needs so many bytes. -/
theorem minLength_eq : ∀ k ≤ 4, 1 ≤ k → minLength k = max 128 (256 ^ (k - 1)) := by
  decide +kernel

/-- **A prefix is the shortest one or one of those let through.** -/
theorem isLengthPrefix_cases {bytes : Buffer} {n : ℕ} (h : IsLengthPrefix bytes n) :
    bytes = Writer.lengthPrefix n ∨
      ∃ k, (k = 5 ∧ 128 ≤ n ∧ n < 256 ^ 4 ∨ k = 6 ∧ 256 ≤ n ∧ n < 256 ^ 5) ∧
        bytes = Bytes.toBytes 1 (0x80 + k) ++ Bytes.toBytes k n := by
  cases h with
  | short h =>
    left
    rw [Writer.lengthPrefix, if_pos h]
  | @long k n h_pos hk h_fits h_min =>
    have hk' : k ≤ 6 := hk
    have h_safe : n < 2 ^ 53 :=
      h_fits.trans_le ((Nat.pow_le_pow_right (by omega) hk').trans (by norm_num))
    have h_large : 128 ≤ n := by exact_mod_cast (le_max_left _ _).trans h_min
    have h_size := (Writer.getUIntBufferSize_le_iff h_safe h_pos).mpr h_fits
    have h_size_pos := (Writer.shortest_length h_safe).pos
    by_cases h_same : getUIntBufferSize n = k
    · left
      rw [Writer.lengthPrefix, if_neg (by omega), h_same]
    · -- the length fits in fewer bytes than it has
      right
      have h_less : n < 256 ^ (k - 1) :=
        (Writer.getUIntBufferSize_le_iff h_safe (by omega)).mp (by omega)
      refine ⟨k, ?_, rfl⟩
      -- up to four bytes the limit is right, so that it is one of the other two
      by_cases h_four : k ≤ 4
      · exfalso
        rw [minLength_eq k h_four h_pos] at h_min
        have h_ge : (256 : ℤ) ^ (k - 1) ≤ n := (le_max_right _ _).trans h_min
        have h_ge : 256 ^ (k - 1) ≤ n := by exact_mod_cast h_ge
        omega
      · by_cases h_five : k = 5
        · subst h_five
          exact .inl ⟨rfl, h_large, h_less⟩
        · obtain rfl : k = 6 := by omega
          have h_limit : minLength 6 = 256 := by decide +kernel
          rw [h_limit] at h_min
          exact .inr ⟨rfl, by exact_mod_cast h_min, h_less⟩

/-- A length let through is read. -/
theorem isLengthPrefix_of_long {k n : ℕ}
    (h : k = 5 ∧ 128 ≤ n ∧ n < 256 ^ 4 ∨ k = 6 ∧ 256 ≤ n ∧ n < 256 ^ 5) :
    IsLengthPrefix (Bytes.toBytes 1 (0x80 + k) ++ Bytes.toBytes k n) n := by
  rcases h with ⟨rfl, h_low, h_high⟩ | ⟨rfl, h_low, h_high⟩
  · have h_limit : minLength 5 = 128 := by decide +kernel
    exact .long (by omega) (by decide) (by omega) (by omega)
  · have h_limit : minLength 6 = 256 := by decide +kernel
    exact .long (by omega) (by decide) (by omega) (by omega)

/-- The shortest prefix of such a length is shorter. -/
theorem length_lengthPrefix_lt {k n : ℕ}
    (h : k = 5 ∧ 128 ≤ n ∧ n < 256 ^ 4 ∨ k = 6 ∧ 256 ≤ n ∧ n < 256 ^ 5) :
    (Writer.lengthPrefix n).length < 1 + k := by
  have h_size : getUIntBufferSize n ≤ k - 1 := by
    rcases h with ⟨rfl, -, h_high⟩ | ⟨rfl, -, h_high⟩
    · exact (Writer.getUIntBufferSize_le_iff (by omega) (by omega)).mpr h_high
    · exact (Writer.getUIntBufferSize_le_iff (by omega) (by omega)).mpr h_high
  rw [Writer.lengthPrefix, if_neg (by omega), List.length_append, Bytes.length_toBytes,
    Bytes.length_toBytes]
  omega

/-- A read that returns started at a position of the buffer. -/
theorem valid_of_exec {r r' : Reader} {value : Buffer}
    (h : readVarOctetString.exec r = (.ok value, r')) : Cursor.Valid r := by
  by_contra h_invalid
  have h_invalid : ¬r.cursor ≤ r.buffer.length := h_invalid
  have h_throw : (bytesAtCursor 1).exec r = (.error .rangeError, r) := by
    rw [bytesAtCursor, exec_bind_ok (exec_get r), if_pos (by omega)]
    rfl
  have h_first : (readUIntNumber 1).exec r = (.error .rangeError, r) := by
    rw [readUIntNumber, if_neg (by omega), if_neg (by decide), exec_bind_error h_throw]
  rw [readVarOctetString, readLengthPrefix, bind_assoc, exec_bind_error h_first] at h
  cases h

/-- An encoding is not empty, so that only a position of the buffer has one. -/
theorem valid_of_rest {r : Reader} {bytes more : Buffer} (h : Cursor.rest r = bytes ++ more)
    (h_ne : bytes ≠ []) : Cursor.Valid r := by
  by_contra h_invalid
  have h_invalid : ¬r.cursor ≤ r.buffer.length := h_invalid
  have h_nil : Cursor.rest r = [] := List.drop_eq_nil_of_le (by omega)
  rw [h_nil] at h
  exact h_ne (List.append_eq_nil_iff.mp h.symm).1

theorem lengthPrefix_ne_nil (n : ℕ) : Writer.lengthPrefix n ≠ [] := by
  have h_one (m : ℕ) : Bytes.toBytes 1 m ≠ [] := List.cons_ne_nil _ _
  unfold Writer.lengthPrefix
  split
  · exact h_one n
  · exact List.append_ne_nil_of_left_ne_nil (h_one _) _

/-- A value written to a buffer has a length that can be written. -/
theorem encoding_of_isEncoding {value bytes : Buffer}
    (h : Writer.IsEncoding (Writer.writeVarOctetString value) bytes) :
    value.length < 2 ^ 53 ∧ bytes = Writer.lengthPrefix value.length ++ value := by
  by_cases h_safe : value.length < 2 ^ 53
  · exact ⟨h_safe, (Writer.isEncoding_iff (Writer.writes_writeVarOctetString h_safe)).mp h⟩
  · obtain ⟨space, w, h_exec, -⟩ := h
    obtain ⟨e, w', h_throw⟩ := Writer.throws_writeLengthPrefix (not_lt.mp h_safe) (.ofBuffer space)
    rw [Writer.writeVarOctetString, exec_bind_error h_throw] at h_exec
    cases h_exec

/-- **Written octet strings are read.** -/
theorem readsBack {r : Reader} (h_buffer : r.buffer.length ≤ kMaxLength) : ReadsBack r := by
  intro value bytes more h h_rest
  obtain ⟨-, rfl⟩ := encoding_of_isEncoding h
  have h_valid := valid_of_rest h_rest
    (List.append_ne_nil_of_left_ne_nil (lengthPrefix_ne_nil _) _)
  have h_length := length_of_rest h_valid h_rest
  rw [List.length_append] at h_length
  unfold kMaxLength at h_buffer
  exact reads_readVarOctetString (by omega) r more h_valid h_rest

/-- **A length in too many bytes** is read, though nothing that is written looks so. -/
theorem not_readsCanonically {r : Reader} (h : AtLongPrefix r) : ¬ReadsCanonically r := by
  intro h_iff
  obtain ⟨k, n, value, more, h_length, rfl, h_rest⟩ := h
  have h_valid := valid_of_rest (List.append_assoc _ value more ▸ h_rest)
    (List.append_ne_nil_of_left_ne_nil (List.cons_ne_nil _ _) _)
  have h_exec := reads_readVarOctetString_of_prefix (isLengthPrefix_of_long h_length) r more
    h_valid h_rest
  obtain ⟨bytes, more', h_encoding, -, h_skip⟩ := (h_iff value _).mp h_exec
  obtain ⟨-, rfl⟩ := encoding_of_isEncoding h_encoding
  -- the cursor moves further than over the encoding
  have h_less := length_lengthPrefix_lt h_length
  have h_cursor := congrArg Reader.cursor h_skip
  change r.cursor + _ = r.cursor + _ at h_cursor
  simp only [List.length_append, Bytes.length_toBytes] at h_cursor
  omega

/-- **Elsewhere**, what is read is what was written. -/
theorem readsCanonically {r : Reader} (h_buffer : r.buffer.length ≤ kMaxLength)
    (h : ¬AtLongPrefix r) : ReadsCanonically r := by
  intro value r'
  constructor
  · intro h_exec
    have h_valid := valid_of_exec h_exec
    obtain ⟨bytes, more, h_rest, ⟨pre, rfl, h_pre⟩, rfl⟩ :=
      takes_readVarOctetString r value r' h_valid h_exec
    have h_length := length_of_rest h_valid h_rest
    rw [List.length_append] at h_length
    unfold kMaxLength at h_buffer
    -- the prefix is the shortest, or one of those that are let through
    rcases isLengthPrefix_cases h_pre with rfl | ⟨k, h_long, rfl⟩
    · have h_writes := @Writer.writes_writeVarOctetString value (by omega)
      exact ⟨_, more, (Writer.isEncoding_iff h_writes).mpr rfl, h_rest, rfl⟩
    · exact absurd ⟨k, value.length, value, more, h_long, rfl, h_rest⟩ h
  · rintro ⟨bytes, more, h_encoding, h_rest, rfl⟩
    exact readsBack h_buffer value bytes more h_encoding h_rest

/-- **The octet strings that are read.** Reading returns a value exactly where the writer's encoding of
that value stands, and moves past it, if and only if the cursor is not at a length in too many bytes
that the check lets through. Where an encoding stands, it is always read. -/
theorem readVarOctetString_iff_writeVarOctetString (r : Reader)
    (h_buffer : r.buffer.length ≤ kMaxLength) :
    (ReadsCanonically r ↔ ¬AtLongPrefix r) ∧ ReadsBack r :=
  ⟨⟨fun h_reads h_long => not_readsCanonically h_long h_reads, readsCanonically h_buffer⟩,
    readsBack h_buffer⟩

/-- Two bytes behind their length. -/
theorem readVarOctetString_iff_two_bytes :
    (ReadsCanonically ⟨[9, 2, 7, 8], 1, []⟩ ↔ ¬AtLongPrefix ⟨[9, 2, 7, 8], 1, []⟩) ∧
      ReadsBack ⟨[9, 2, 7, 8], 1, []⟩ :=
  readVarOctetString_iff_writeVarOctetString ⟨[9, 2, 7, 8], 1, []⟩ (by decide)

/-- 128 bytes behind their length in five bytes are read, though the writer has the length in one. -/
theorem readVarOctetString_five_byte_length :
    ¬ReadsCanonically (.ofBuffer ([0x85, 0, 0, 0, 0, 0x80] ++ List.replicate 128 0)) :=
  not_readsCanonically ⟨5, 128, List.replicate 128 0, [], .inl ⟨rfl, by decide, by decide⟩,
    List.length_replicate, by decide +kernel⟩

end Reader

end Interledger.Oer
