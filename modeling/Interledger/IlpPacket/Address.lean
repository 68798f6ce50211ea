import Interledger.Lib.Text
import Mathlib.Data.Nat.Notation

/-!
# ILP addresses

`ilp-packet/src/utils/address.ts`. Every valid address is a text of ASCII characters that are not zero
(`isAscii_of_isValidIlpAddress`, `dot_mem_of_isValidIlpAddress`).
-/

namespace Interledger.IlpPacket

/-- The alternatives of the first group of `ILP_ADDRESS_REGEX`. -/
def addressSchemes : List (List Char) :=
  ["g", "private", "example", "peer", "self", "test", "test1", "test2", "test3", "local"].map String.toList

/-- `[a-zA-Z0-9_~-]`. -/
def isAddressChar (c : Char) : Bool := c.isAlphanum || c = '_' || c = '~' || c = '-'

/-- The rest of the second group of `ILP_ADDRESS_REGEX`, in a segment with or without a character. -/
def matchSegments : Bool → List Char → Bool
  | started, [] => started
  | started, c :: text =>
    if c = '.' then started && matchSegments false text else isAddressChar c && matchSegments true text

/-- `ILP_ADDRESS_REGEX`. -/
def ilpAddressRegex (text : List Char) : Bool :=
  addressSchemes.any fun scheme =>
    (scheme ++ ['.']).isPrefixOf text && matchSegments false (text.drop (scheme.length + 1))

/-- `ILP_ADDRESS_MAX_LENGTH`. -/
def ilpAddressMaxLength : ℕ := 1023

/-- `isValidIlpAddress`. The texts that the expression matches have one code unit for a character. -/
def isValidIlpAddress (address : String) : Bool :=
  address.toList.length ≤ ilpAddressMaxLength && ilpAddressRegex address.toList

example : isValidIlpAddress "test1.alice~1._-" = true := by decide

/-- The characters of an address. -/
theorem toNat_lt_of_isAddressChar {c : Char} (h : isAddressChar c = true) : c.toNat < 0x80 := by
  have h_alphanum (c : Char) (hc : c.isAlphanum = true) : c.toNat < 0x80 := by
    change (decide (c.val ≥ 65 ∧ c.val ≤ 90) || (decide (c.val ≥ 97) && decide (c.val ≤ 122)) ||
      (decide (c.val ≥ 48) && decide (c.val ≤ 57))) = true at hc
    simp only [Bool.or_eq_true, Bool.and_eq_true, decide_eq_true_iff, UInt32.le_iff_toNat_le] at hc
    change ((65 ≤ c.toNat ∧ c.toNat ≤ 90) ∨ (97 ≤ c.toNat ∧ c.toNat ≤ 122)) ∨
      (48 ≤ c.toNat ∧ c.toNat ≤ 57) at hc
    omega
  simp only [isAddressChar, Bool.or_eq_true, decide_eq_true_iff] at h
  rcases h with ((h | rfl) | rfl) | rfl
  · exact h_alphanum c h
  all_goals decide

theorem isAscii_of_matchSegments {started : Bool} {text : List Char}
    (h : matchSegments started text = true) : Ascii.IsAscii text := by
  induction text generalizing started with
  | nil => exact fun c hc => absurd hc List.not_mem_nil
  | cons c text ih =>
    rw [matchSegments] at h
    have h_head : c.toNat < 0x80 ∧ Ascii.IsAscii text := by
      split at h
      · next h_dot =>
        rw [h_dot]
        exact ⟨by decide, ih (Bool.and_eq_true_iff.mp h).2⟩
      · obtain ⟨h_char, h_text⟩ := Bool.and_eq_true_iff.mp h
        exact ⟨toNat_lt_of_isAddressChar h_char, ih h_text⟩
    intro d hd
    rcases List.mem_cons.mp hd with rfl | hd
    · exact h_head.1
    · exact h_head.2 d hd

/-- An address is a scheme, a dot and segments. -/
theorem eq_append_of_isValidIlpAddress {address : String} (h : isValidIlpAddress address = true) :
    ∃ scheme ∈ addressSchemes, ∃ text, address.toList = scheme ++ ['.'] ++ text ∧
      matchSegments false text = true := by
  obtain ⟨-, h_regex⟩ := Bool.and_eq_true_iff.mp h
  obtain ⟨scheme, h_scheme, h_match⟩ := List.any_eq_true.mp h_regex
  obtain ⟨h_pre, h_segments⟩ := Bool.and_eq_true_iff.mp h_match
  obtain ⟨text, h_text⟩ := List.isPrefixOf_iff_prefix.mp h_pre
  have h_length : (scheme ++ ['.']).length = scheme.length + 1 := List.length_append
  rw [← h_text, ← h_length, List.drop_left] at h_segments
  exact ⟨scheme, h_scheme, text, h_text.symm, h_segments⟩

/-- **Addresses are ASCII texts.** -/
theorem isAscii_of_isValidIlpAddress {address : String} (h : isValidIlpAddress address = true) :
    Ascii.IsAscii address.toList := by
  obtain ⟨scheme, h_scheme, text, h_text, h_segments⟩ := eq_append_of_isValidIlpAddress h
  have h_schemes : addressSchemes.all (fun scheme => (scheme ++ ['.']).all (·.toNat < 0x80)) = true := by
    decide +kernel
  intro c hc
  rw [h_text] at hc
  rcases List.mem_append.mp hc with hc | hc
  · exact Ascii.isAscii_of_all (List.all_eq_true.mp h_schemes scheme h_scheme) c hc
  · exact isAscii_of_matchSegments h_segments c hc

/-- There is a dot in every address. -/
theorem dot_mem_of_isValidIlpAddress {address : String} (h : isValidIlpAddress address = true) :
    '.' ∈ address.toList := by
  obtain ⟨scheme, -, text, h_text, -⟩ := eq_append_of_isValidIlpAddress h
  rw [h_text]
  exact List.mem_append_left _ (List.mem_append_right _ List.mem_cons_self)

end Interledger.IlpPacket
