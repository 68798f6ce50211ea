import Interledger.Oer.Integer
import Interledger.Oer.Predictor

/-!
# Programs for a writer or a predictor

`WriterInterface` of `oer-utils/src/lib/writer.ts`, which `Writer` and `Predictor` implement. A program
over the interface is run twice: on a predictor, which gives the size, and on a writer of that size.

`Emits x bytes` says what becomes of such a program on either of them: the predictor counts `bytes`, and
the writer writes them. It is put together along the program, as `Writes` is.
-/

namespace Interledger.Oer

open Ilp (Buffer)
open Interledger.Action

/-- `WriterInterface`. -/
class WriterInterface (σ : Type) where
  writeUInt : LongValue → ℕ → Action σ OerError Unit
  writeInt : LongValue → ℕ → Action σ OerError Unit
  writeVarUInt : VarValue → Action σ OerError Unit
  writeVarInt : VarValue → Action σ OerError Unit
  writeOctetString : Buffer → ℕ → Action σ OerError Unit
  writeVarOctetString : Buffer → Action σ OerError Unit
  createVarOctetString : ℕ → Action σ OerError Unit → Action σ OerError Unit
  write : Buffer → Action σ OerError Unit

namespace WriterInterface

instance : WriterInterface Writer where
  writeUInt := Writer.writeUInt
  writeInt := Writer.writeInt
  writeVarUInt := Writer.writeVarUInt
  writeVarInt := Writer.writeVarInt
  writeOctetString := Writer.writeOctetString
  writeVarOctetString := Writer.writeVarOctetString
  createVarOctetString := Writer.createVarOctetString
  write := Writer.write

instance : WriterInterface Predictor where
  writeUInt := Predictor.writeUInt
  writeInt := Predictor.writeInt
  writeVarUInt := Predictor.writeVarUInt
  writeVarInt := Predictor.writeVarInt
  writeOctetString := Predictor.writeOctetString
  writeVarOctetString := Predictor.writeVarOctetString
  createVarOctetString := Predictor.createVarOctetString
  write := Predictor.write

/-- `writeUInt8`. -/
def writeUInt8 {σ : Type} [WriterInterface σ] (value : LongValue) : Action σ OerError Unit :=
  writeUInt value 1

end WriterInterface

/-- The length of a new predictor that a program was run on. -/
def predict {σ : Type} (x : Action Predictor OerError Unit) : Action σ OerError ℕ :=
  match x.exec Predictor.empty with
  | (.ok (), predictor) => pure predictor.length
  | (.error e, _) => throw e

/-- An unsigned integer in `size` bytes, behind its length. -/
def varUInt (size n : ℕ) : Buffer := Writer.lengthPrefix size ++ Bytes.toBytes size n

/-- The fewest bytes that hold a natural number. -/
def byteCount (n : ℕ) : ℕ := (Nat.toDigits 256 n).length

/-- What a `Long` is written as. -/
def varLong (value : BitVec 64) : Buffer := varUInt (byteCount value.toNat) value.toNat

/-- What a number is written as. -/
def varNumber (n : ℕ) : Buffer := varUInt (getUIntBufferSize n) n

/-! ### The bytes of integers -/

theorem byteCount_pos (n : ℕ) : 1 ≤ byteCount n := Nat.length_toDigits_pos

theorem byteCount_le_iff {k n : ℕ} (hk : 1 ≤ k) : byteCount n ≤ k ↔ n < 256 ^ k :=
  Nat.length_toDigits_le_iff (by omega) hk

theorem shortest_byteCount (n : ℕ) : Shortest false (byteCount n) n := by
  have h_fits (k : ℕ) (hk : 1 ≤ k) : Fits false k n ↔ byteCount n ≤ k := by
    rw [byteCount_le_iff hk, Fits, if_neg Bool.false_ne_true]
    exact ⟨fun h => by exact_mod_cast h.2, fun h => ⟨Int.natCast_nonneg n, by exact_mod_cast h⟩⟩
  refine ⟨byteCount_pos n, (h_fits _ (byteCount_pos n)).mpr le_rfl, ?_⟩
  intro k hk h
  exact (h_fits k hk).mp h

/-- The table of sizes has the fewest bytes. -/
theorem getLongUIntBufferSize_eq_byteCount {σ : Type} (value : BitVec 64) :
    (getLongUIntBufferSize value : Action σ OerError ℕ) = pure (byteCount value.toNat) := by
  obtain ⟨k, -, h_size, h_short⟩ := getLongUIntBufferSize_eq (σ := σ) value
  rw [h_size, h_short.unique (shortest_byteCount _)]

theorem byteCount_le (value : BitVec 64) : byteCount value.toNat ≤ 8 :=
  (byteCount_le_iff (by omega)).mpr (by have := value.isLt; omega)

theorem lt_pow_byteCount (n : ℕ) : n < 256 ^ byteCount n :=
  (byteCount_le_iff (byteCount_pos n)).mp le_rfl

/-! ### What a program adds -/

namespace Writer

/-- A number that is written behind its length. -/
theorem writes_writeVarUInt_number {n : ℕ} (hn : n < 2 ^ 53) :
    Writes (writeVarUInt (.value (.number n))) (varNumber n) := by
  have h_short := shortest_length hn
  have h_fits := (getUIntBufferSize_le_iff hn h_short.pos).mp le_rfl
  have h_seven := getUIntBufferSize_le hn
  change Writes (createVarOctetString (getUIntBufferSize n)
    (writeUInt (.number n) (getUIntBufferSize n))) _
  rw [writeUInt_number hn h_short.pos (by omega) h_fits]
  exact writes_createVarOctetString (writes_write _) (Bytes.length_toBytes _ _) (by omega)

/-- A number above the safe range is not. -/
theorem throws_writeVarUInt_number {n : ℕ} (hn : 2 ^ 53 ≤ n) (w : Writer) :
    ∃ e w', (writeVarUInt (.value (.number n))).exec w = (.error e, w') := by
  obtain ⟨e, h_throw⟩ := throws_writeUInt_number hn (getUIntBufferSize n)
  have h_contents (slice : Buffer) : ∃ e c,
      (writeUInt (.number n) (getUIntBufferSize n)).exec (ofBuffer slice) = (.error e, c) := by
    rw [h_throw]
    exact ⟨e, ofBuffer slice, rfl⟩
  exact throws_createVarOctetString (fun slice _ => h_contents slice) w

end Writer

/-- The predictor counts these bytes, and the writer writes them. -/
structure Emits (x : (σ : Type) → [WriterInterface σ] → Action σ OerError Unit) (bytes : Buffer) :
    Prop where
  counts : ∀ p : Predictor, (x Predictor).exec p = (.ok (), ⟨p.size + bytes.length⟩)
  writes : bytes.length < 2 ^ 53 → Writes (x Writer) bytes

namespace Emits

variable {x y : (σ : Type) → [WriterInterface σ] → Action σ OerError Unit} {bytes bytes' : Buffer}

theorem pure : Emits (fun _ _ => Pure.pure ()) [] := ⟨fun _ => rfl, fun _ => .pure⟩

/-- One program after the other. -/
theorem bind (h : Emits x bytes) (h' : Emits y bytes') :
    Emits (fun σ _ => x σ >>= fun _ => y σ) (bytes ++ bytes') := by
  refine ⟨fun p => ?_, fun h_size => ?_⟩
  · rw [exec_bind_ok (h.counts p), h'.counts, List.length_append, Nat.add_assoc]
  · rw [List.length_append] at h_size
    exact (h.writes (by omega)).bind (h'.writes (by omega))

/-- A program for each item of a list. -/
theorem forEach {α : Type} {f : α → (σ : Type) → [WriterInterface σ] → Action σ OerError Unit}
    {enc : α → Buffer} {as : List α} (h : ∀ a ∈ as, Emits (f a) (enc a)) :
    Emits (fun σ _ => Action.forEach (fun a => f a σ) as) (as.flatMap enc) := by
  induction as with
  | nil => exact pure
  | cons a as ih =>
    exact (h a List.mem_cons_self).bind (ih fun a' h_mem => h a' (List.mem_cons_of_mem a h_mem))

theorem writeOctetString (bytes : Buffer) :
    Emits (fun _ _ => WriterInterface.writeOctetString bytes bytes.length) bytes := by
  refine ⟨fun p => ?_, fun _ => ?_⟩
  · change (Predictor.writeOctetString bytes bytes.length).exec p = _
    rw [Predictor.writeOctetString, if_neg (not_not.mpr rfl)]
    rfl
  · change Writes (Writer.writeOctetString bytes bytes.length) bytes
    rw [Writer.writeOctetString, if_neg (not_not.mpr rfl)]
    exact Writer.writes_write bytes

theorem writeVarOctetString (bytes : Buffer) :
    Emits (fun _ _ => WriterInterface.writeVarOctetString bytes)
      (Writer.lengthPrefix bytes.length ++ bytes) := by
  refine ⟨fun p => ?_, fun h_size => ?_⟩
  · rw [List.length_append, ← measureVarOctetString_eq]
    rfl
  · rw [List.length_append] at h_size
    exact Writer.writes_writeVarOctetString (by omega)

/-- A nested string of the length of what the program emits. -/
theorem createVarOctetString (h : Emits x bytes) :
    Emits (fun σ _ => WriterInterface.createVarOctetString bytes.length (x σ))
      (Writer.lengthPrefix bytes.length ++ bytes) := by
  refine ⟨fun p => ?_, fun h_size => ?_⟩
  · rw [List.length_append, ← measureVarOctetString_eq]
    change (Predictor.createVarOctetString bytes.length (x Predictor)).exec p = _
    -- the predictor counts the prefix and the contents
    have h_skip : (Predictor.skipVarOctetString bytes.length).exec p =
        (.ok (), ⟨p.size + Predictor.measureVarOctetString bytes.length⟩) := rfl
    rw [Predictor.createVarOctetString, exec_bind_ok h_skip, h.counts]
    rfl
  · rw [List.length_append] at h_size
    exact Writer.writes_createVarOctetString (h.writes (by omega)) rfl (by omega)

/-- The predictor's length is the number of bytes. -/
theorem predict {σ : Type} (h : Emits x bytes) :
    (Oer.predict (x Predictor) : Action σ OerError ℕ) = Pure.pure bytes.length := by
  rw [Oer.predict, h.counts]
  change Pure.pure (0 + bytes.length) = _
  rw [Nat.zero_add]

/-- A byte. -/
theorem writeUInt8 {value : LongValue} (h : value.Accepted true) (h_nonneg : 0 ≤ value.toInt)
    (h_lt : value.toInt < 256) :
    Emits (fun _ _ => WriterInterface.writeUInt8 value) (Bytes.toBytes 1 value.toInt.toNat) := by
  refine ⟨fun p => ?_, fun _ => ?_⟩
  · rw [Bytes.length_toBytes]
    rfl
  · rcases Writer.writeUInt_short h le_rfl (by decide) with ⟨-, h_eq⟩ | ⟨h_not, -⟩
    · change Writes (Writer.writeUInt value 1) _
      rw [h_eq]
      exact Writer.writes_write _
    · -- a value below 256 is not refused
      refine absurd ?_ h_not
      rw [Fits, if_neg Bool.false_ne_true]
      exact ⟨h_nonneg, by omega⟩

/-- A `Long`. -/
theorem writeVarUInt_long (value : BitVec 64) :
    Emits (fun _ _ => WriterInterface.writeVarUInt (.value (.long true value))) (varLong value) := by
  have h_int : (LongValue.long true value).toInt = value.toNat := rfl
  refine ⟨fun p => ?_, fun _ => ?_⟩
  · change (Predictor.writeVarUInt (.value (.long true value))).exec p = _
    -- the size is the same for both
    have h_size := getLongUIntBufferSize_eq_byteCount (σ := Predictor) value
    rw [varLong, varUInt, List.length_append, Bytes.length_toBytes, ← measureVarOctetString_eq]
    change ((getLongUIntBufferSize value : Action Predictor OerError ℕ) >>= fun lengthOfValue =>
      Predictor.skipVarOctetString lengthOfValue).exec p = _
    rw [h_size]
    rfl
  · change Writes (Writer.writeVarUInt (.value (.long true value))) _
    have h_size := getLongUIntBufferSize_eq_byteCount (σ := Writer) value
    have h_short := shortest_byteCount value.toNat
    have h_writes := @writes_unsigned (.long true value) (byteCount value.toNat) rfl rfl h_short.pos
      (byteCount_le value) h_short.fits
    rw [h_int, Bytes.toSignedBytes_natCast (lt_pow_byteCount _)] at h_writes
    change Writes ((getLongUIntBufferSize value : Action Writer OerError ℕ) >>= fun lengthOfValue =>
      Writer.createVarOctetString lengthOfValue (Writer.writeUInt (.long true value) lengthOfValue)) _
    rw [h_size]
    exact h_writes

/-- A number of things, before no fewer bytes. -/
theorem writeVarUInt_number {n : ℕ} (h : Emits x bytes) (h_le : n ≤ bytes.length) :
    Emits (fun σ _ => WriterInterface.writeVarUInt (.value (.number n)) >>= fun _ => x σ)
      (varNumber n ++ bytes) := by
  have h_counts (p : Predictor) : (Predictor.writeVarUInt (.value (.number n))).exec p =
      (.ok (), ⟨p.size + (varNumber n).length⟩) := by
    rw [varNumber, varUInt, List.length_append, Bytes.length_toBytes, ← measureVarOctetString_eq]
    have h_nonneg : ¬(n : ℤ) < 0 := not_lt.mpr (Int.natCast_nonneg n)
    have h_skip : Predictor.writeVarUInt (.value (.number n)) =
        Predictor.skipVarOctetString (getUIntBufferSize n) := by
      simp only [Predictor.writeVarUInt, LongValue.isInteger, Bool.not_true, Bool.false_eq_true, if_false,
        if_neg h_nonneg]
    rw [h_skip]
    rfl
  refine ⟨fun p => ?_, fun h_size => ?_⟩
  · rw [List.length_append, ← Nat.add_assoc]
    exact (exec_bind_ok (h_counts p)).trans (h.counts _)
  · -- the number is no larger than what is written
    rw [List.length_append] at h_size
    have h_number : Writes (Writer.writeVarUInt (.value (.number n))) (varNumber n) :=
      Writer.writes_writeVarUInt_number (by omega)
    exact h_number.bind (h.writes (by omega))

end Emits

/-! ### Reading what was written -/

theorem reads_varLong (value : BitVec 64) : Reads Reader.readVarUIntLong (varLong value) value := by
  have h_length := Bytes.length_toBytes (byteCount value.toNat) value.toNat
  have h_pos := byteCount_pos value.toNat
  have h_le := byteCount_le value
  have h_reads := @Reader.reads_readVarUIntLong (Bytes.toBytes (byteCount value.toNat) value.toNat)
    (by omega) (by omega)
  rw [Bytes.ofBytes_toBytes_of_lt (lt_pow_byteCount _), h_length, BitVec.ofNat_toNat,
    BitVec.setWidth_eq] at h_reads
  exact h_reads

theorem reads_varNumber {n : ℕ} (h : n < 2 ^ 48) : Reads Reader.readVarUIntNumber (varNumber n) n := by
  have h_length := Bytes.length_toBytes (getUIntBufferSize n) n
  have h_short := Writer.shortest_length (n := n) (by omega)
  have h_fits := (Writer.getUIntBufferSize_le_iff (n := n) (by omega) h_short.pos).mp le_rfl
  have h_six : getUIntBufferSize n ≤ 6 :=
    (Writer.getUIntBufferSize_le_iff (by omega) (by omega)).mpr (by omega)
  have h_pos := h_short.pos
  have h_reads := @Reader.reads_readVarUIntNumber (Bytes.toBytes (getUIntBufferSize n) n)
    (by omega) (by unfold maxSafeBytes; omega)
  rwa [Bytes.ofBytes_toBytes_of_lt h_fits, h_length] at h_reads

end Interledger.Oer
