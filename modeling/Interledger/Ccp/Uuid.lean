import Interledger.Oer.Compound

/-!
# UUIDs

`ilp-protocol-ccp/src/uuid.ts`: a UUID is written as its 16 bytes.
-/

namespace Interledger.Ccp

open Ilp (Buffer)
open Oer Interledger.Action

/-- `replace(/^(.{8})(.{4})(.{4})(.{4})(.{12})$/, '$1-$2-$3-$4-$5')`. -/
def formatUuid (text : List Char) : List Char :=
  if text.length = 32 then
    text.take 8 ++ '-' :: ((text.drop 8).take 4 ++ '-' :: ((text.drop 12).take 4 ++
      '-' :: ((text.drop 16).take 4 ++ '-' :: text.drop 20)))
  else text

/-- `readUuid`. -/
def readUuid : Action Reader OerError String := do
  let unformattedUuid := Hex.encode (← Reader.read 16)
  return String.ofList (formatUuid unformattedUuid)

/-- `Buffer.from(text, 'hex')`, of the text without its dashes. -/
def uuidBuffer (uuid : String) : Buffer := Hex.decode (uuid.toList.filter (· ≠ '-'))

/-- `writeUuid`. -/
def writeUuid (uuid : String) : Action Writer OerError Unit :=
  if (uuidBuffer uuid).length ≠ 16 then
    throw (.error ("tried to write invalid UUID. value=" ++ uuid))
  else Writer.write (uuidBuffer uuid)

/-- A UUID in canonical form: groups of 8, 4, 4, 4 and 12 lower case digits. -/
def IsCanonicalUuid (uuid : String) : Prop :=
  ∃ hex : List Char, hex.length = 32 ∧ (∀ c ∈ hex, c ∈ Hex.digits) ∧ uuid.toList = formatUuid hex

/-- The digits of a canonical UUID are left when the dashes are removed. -/
theorem filter_formatUuid {hex : List Char} (h_length : hex.length = 32) (h : ∀ c ∈ hex, c ∈ Hex.digits) :
    (formatUuid hex).filter (· ≠ '-') = hex := by
  have h_digit (c : Char) (hc : c ∈ Hex.digits) : decide (c ≠ '-') = true := by
    apply decide_eq_true
    rintro rfl
    exact absurd hc (by decide)
  have h_keep (text : List Char) (h_sub : text ⊆ hex) : text.filter (· ≠ '-') = text :=
    List.filter_eq_self.mpr fun c hc => h_digit c (h c (h_sub hc))
  have h_drop (i : ℕ) : hex.drop i ⊆ hex := List.drop_subset i hex
  have h_group (i : ℕ) : ((hex.drop i).take 4).filter (· ≠ '-') = (hex.drop i).take 4 :=
    h_keep _ fun _ hc => h_drop i (List.take_subset 4 _ hc)
  have h_dash (text : List Char) : ('-' :: text).filter (· ≠ '-') = text.filter (· ≠ '-') := rfl
  rw [formatUuid, if_pos h_length, List.filter_append, h_keep _ (List.take_subset 8 hex), h_dash,
    List.filter_append, h_group, h_dash, List.filter_append, h_group, h_dash, List.filter_append, h_group,
    h_dash, h_keep _ (h_drop 20)]
  -- the groups are put together again
  have h_next (i j : ℕ) : (hex.drop i).take j ++ hex.drop (i + j) = hex.drop i := by
    rw [← List.drop_drop, List.take_append_drop]
  rw [h_next 16 4, h_next 12 4, h_next 8 4, List.take_append_drop]

/-- A canonical UUID is 16 bytes, whose digits it has. -/
theorem uuidBuffer_spec {uuid : String} (h : IsCanonicalUuid uuid) :
    (uuidBuffer uuid).length = 16 ∧ String.ofList (formatUuid (Hex.encode (uuidBuffer uuid))) = uuid := by
  obtain ⟨hex, h_length, h_digits, h_text⟩ := h
  obtain ⟨h_count, h_encode⟩ := Hex.encode_decode (n := 16) h_length h_digits
  rw [uuidBuffer, h_text, filter_formatUuid h_length h_digits]
  refine ⟨h_count, ?_⟩
  rw [h_encode, ← h_text, String.ofList_toList]

theorem writes_writeUuid {uuid : String} (h : IsCanonicalUuid uuid) :
    Writes (writeUuid uuid) (uuidBuffer uuid) := by
  rw [writeUuid, if_neg (not_not.mpr (uuidBuffer_spec h).1)]
  exact Writer.writes_write _

theorem reads_readUuid {uuid : String} (h : IsCanonicalUuid uuid) :
    Reads readUuid (uuidBuffer uuid) uuid := by
  obtain ⟨h_length, h_text⟩ := uuidBuffer_spec h
  have h_reads := (Reader.reads_read (uuidBuffer uuid)).map fun bytes =>
    String.ofList (formatUuid (Hex.encode bytes))
  rwa [h_text, h_length] at h_reads

end Interledger.Ccp
