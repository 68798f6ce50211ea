import Interledger.Lib.Text
import Interledger.Oer.WriterInterface
import Mathlib.Algebra.BigOperators.Group.List.Basic

/-!
# Lists and texts

What the codecs of the repository are made of besides the methods of a `Writer` and a `Reader`: lists
behind the number of their items, and texts in octet strings.

`Writer.Appends x bytes` says of a program for a writer that it has written `bytes` whenever it completes,
however many they are, and that it completes with enough room. It is put together along the program, as
`Writes` is.
-/

namespace Interledger.Oer

open Ilp (Buffer)
open Interledger.Action

namespace Writer

/-- Whenever the program completes, it has written these bytes; and it completes with enough room, unless
they are more than a length can say. -/
structure Appends (x : Action Writer OerError Unit) (bytes : Buffer) : Prop where
  written : ∀ w w', x.exec w = (.ok (), w') → w'.written = w.written ++ bytes
  writes : bytes.length < 2 ^ 53 → Writes x bytes

namespace Appends

variable {x y : Action Writer OerError Unit} {bytes bytes' : Buffer}

theorem of_writes (h : Writes x bytes) : Appends x bytes := by
  refine ⟨fun w w' h_exec => ?_, fun _ => h⟩
  have h_ext : Extends w bytes w' := h.extends_of_exec h_exec
  exact h_ext.written

/-- A program that throws, or else writes the bytes. -/
theorem of_throws {p : Prop} [Decidable p] (h : p → Writes x bytes)
    (h_not : ¬p → ∀ w, ∃ e w', x.exec w = (.error e, w')) (h_small : bytes.length < 2 ^ 53 → p) :
    Appends x bytes := by
  by_cases hp : p
  · exact of_writes (h hp)
  · refine ⟨fun w w' h_exec => ?_, fun h_length => absurd (h_small h_length) hp⟩
    obtain ⟨e, w'', h_error⟩ := h_not hp w
    rw [h_exec] at h_error
    cases h_error

/-- One program after the other. -/
theorem bind (h : Appends x bytes) (h' : Appends y bytes') :
    Appends (x >>= fun _ => y) (bytes ++ bytes') := by
  refine ⟨fun w w'' h_exec => ?_, fun h_size => ?_⟩
  · obtain ⟨u, w', h_first, h_second⟩ := exec_bind_eq_ok.mp h_exec
    rw [h'.written w' w'' h_second, h.written w w' h_first, List.append_assoc]
  · rw [List.length_append] at h_size
    exact (h.writes (by omega)).bind (h'.writes (by omega))

/-- A program for each item of a list. -/
theorem forEach {α : Type} {f : α → Action Writer OerError Unit} {enc : α → Buffer} {as : List α}
    (h : ∀ a ∈ as, Appends (f a) (enc a)) : Appends (Action.forEach f as) (as.flatMap enc) := by
  induction as with
  | nil => exact of_writes .pure
  | cons a as ih =>
    exact (h a List.mem_cons_self).bind (ih fun a' h_mem => h a' (List.mem_cons_of_mem a h_mem))

/-- A number in so many bytes. -/
theorem writeUInt_number {k n : ℕ} (h_pos : 1 ≤ k) (hk : k ≤ maxSafeBytes) (h : n < 256 ^ k) :
    Appends (writeUInt (.number n) k) (Bytes.toBytes k n) := by
  have h_le : 256 ^ k ≤ 256 ^ 6 := Nat.pow_le_pow_right (by omega) hk
  unfold maxSafeBytes at hk
  rw [Writer.writeUInt_number (by omega) h_pos (by omega) h]
  exact .of_writes (writes_write _)

theorem writeVarOctetString (bytes : Buffer) :
    Appends (Writer.writeVarOctetString bytes) (lengthPrefix bytes.length ++ bytes) := by
  refine of_throws (p := bytes.length < 2 ^ 53) writes_writeVarOctetString (fun h_large w => ?_)
    fun h_size => ?_
  · obtain ⟨e, w', h_error⟩ := throws_writeLengthPrefix (not_lt.mp h_large) w
    exact ⟨e, w', exec_bind_error h_error⟩
  · rw [List.length_append] at h_size
    omega

/-- A number of things, before no fewer bytes. -/
theorem writeVarUInt_number {n : ℕ} (h : Appends x bytes) (h_le : n ≤ bytes.length) :
    Appends (writeVarUInt (.value (.number n)) >>= fun _ => x) (varNumber n ++ bytes) := by
  by_cases hn : n < 2 ^ 53
  · exact (of_writes (writes_writeVarUInt_number hn)).bind h
  · refine ⟨fun w w' h_exec => ?_, fun h_size => ?_⟩
    · obtain ⟨e, w'', h_error⟩ := throws_writeVarUInt_number (not_lt.mp hn) w
      rw [exec_bind_error h_error] at h_exec
      cases h_exec
    · rw [List.length_append] at h_size
      omega

end Appends

end Writer

/-! ### Lists behind the number of their items -/

/-- Write the number of items, and each of them. -/
def writeCounted {α : Type} (f : α → Action Writer OerError Unit) (as : List α) :
    Action Writer OerError Unit := do
  Writer.writeVarUInt (.value (.number as.length))
  Action.forEach f as

/-- Read a number, and so many items. -/
def readCounted {α : Type} (x : Action Reader OerError α) : Action Reader OerError (List α) := do
  let count ← Reader.readVarUIntNumber
  Action.readMany x count

/-- The bytes of such a list. -/
def counted {α : Type} (enc : α → Buffer) (as : List α) : Buffer :=
  varNumber as.length ++ as.flatMap enc

/-- Items that take a byte at least are not more than their bytes. -/
theorem length_le_flatMap {α : Type} {enc : α → Buffer} {as : List α}
    (h : ∀ a ∈ as, 1 ≤ (enc a).length) : as.length ≤ (as.flatMap enc).length := by
  have h_sum : (as.map fun a => (enc a).length).length ≤ (as.map fun a => (enc a).length).sum := by
    apply List.length_le_sum_of_one_le
    intro n hn
    obtain ⟨a, h_mem, rfl⟩ := List.mem_map.mp hn
    exact h a h_mem
  rwa [List.length_map, ← List.length_flatMap] at h_sum

/-- An item is not longer than all of them. -/
theorem length_le_of_mem {α : Type} (enc : α → Buffer) {as : List α} {a : α} (h : a ∈ as) :
    (enc a).length ≤ (as.flatMap enc).length :=
  (List.sublist_flatten_of_mem (List.mem_map_of_mem h)).length_le

/-- A list is written as the number of its items and each of them. -/
theorem appends_writeCounted {α : Type} {f : α → Action Writer OerError Unit} {enc : α → Buffer}
    {as : List α} (h : ∀ a ∈ as, Writer.Appends (f a) (enc a)) (h_pos : ∀ a ∈ as, 1 ≤ (enc a).length) :
    Writer.Appends (writeCounted f as) (counted enc as) :=
  (Writer.Appends.forEach h).writeVarUInt_number (length_le_flatMap h_pos)

/-- A list that was written is read back, item by item. -/
theorem reads_counted {α β : Type} {x : Action Reader OerError β} {enc : α → Buffer} {dec : α → β}
    {as : List α} (h_length : (counted enc as).length < 2 ^ 48) (h_pos : ∀ a ∈ as, 1 ≤ (enc a).length)
    (h : ∀ a ∈ as, (enc a).length < 2 ^ 48 → Reads x (enc a) (dec a)) :
    Reads (readCounted x) (counted enc as) (as.map dec) := by
  have h_count := length_le_flatMap h_pos
  rw [counted, List.length_append] at h_length
  apply (reads_varNumber (n := as.length) (by omega)).bind
  apply Reads.readMany
  intro a h_mem
  have h_le := length_le_of_mem enc h_mem
  exact h a h_mem (by omega)

/-! ### Texts -/

/-- `readVarOctetString().toString('utf8')`. -/
def readUtf8 : Action Reader OerError String := do
  return String.ofList (Utf8.decode (← Reader.readVarOctetString))

/-- `readVarOctetString().toString('ascii')`. -/
def readAscii : Action Reader OerError String := do
  return String.ofList (Ascii.decode (← Reader.readVarOctetString))

/-- The bytes of an octet string. -/
def octets (bytes : Buffer) : Buffer := Writer.lengthPrefix bytes.length ++ bytes

theorem length_octets (bytes : Buffer) :
    (octets bytes).length = Predictor.measureVarOctetString bytes.length := by
  rw [octets, List.length_append, measureVarOctetString_eq]

theorem length_le_length_octets (bytes : Buffer) : bytes.length ≤ (octets bytes).length := by
  rw [octets, List.length_append]
  exact Nat.le_add_left _ _

/-- The prefix of an octet string takes eight bytes at most. -/
theorem measureVarOctetString_le {n : ℕ} (h : n < 2 ^ 53) : Predictor.measureVarOctetString n ≤ n + 8 := by
  have h_seven := Writer.getUIntBufferSize_le h
  unfold Predictor.measureVarOctetString
  split <;> omega

/-- An octet string is never empty. -/
theorem length_octets_pos (bytes : Buffer) : 1 ≤ (octets bytes).length := by
  rw [length_octets, Predictor.measureVarOctetString]
  omega

theorem reads_octets {bytes : Buffer} (h : (octets bytes).length < 2 ^ 48) :
    Reads Reader.readVarOctetString (octets bytes) bytes :=
  Reader.reads_readVarOctetString ((length_le_length_octets bytes).trans_lt h)

/-- A text in UTF-8 is read back, -/
theorem reads_utf8 {text : String} (h : (octets (Utf8.encode text.toList)).length < 2 ^ 48) :
    Reads readUtf8 (octets (Utf8.encode text.toList)) text := by
  have h_reads := (reads_octets h).map fun bytes => String.ofList (Utf8.decode bytes)
  rwa [Utf8.decode_encode, String.ofList_toList] at h_reads

/-- and so is an ASCII text, -/
theorem reads_ascii {text : String} (h_ascii : Ascii.IsAscii text.toList)
    (h : (octets (Ascii.encode text.toList)).length < 2 ^ 48) :
    Reads readAscii (octets (Ascii.encode text.toList)) text := by
  have h_reads := (reads_octets h).map fun bytes => String.ofList (Ascii.decode bytes)
  rwa [Ascii.decode_encode h_ascii, String.ofList_toList] at h_reads

/-- even if it is taken for UTF-8, as some other texts may be, too. -/
theorem reads_utf8_ascii {text : String} (h_text : Utf8.decode (Ascii.encode text.toList) = text.toList)
    (h : (octets (Ascii.encode text.toList)).length < 2 ^ 48) :
    Reads readUtf8 (octets (Ascii.encode text.toList)) text := by
  have h_reads := (reads_octets h).map fun bytes => String.ofList (Utf8.decode bytes)
  rwa [h_text, String.ofList_toList] at h_reads

end Interledger.Oer
