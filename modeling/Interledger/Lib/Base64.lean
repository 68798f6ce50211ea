import Mathlib.Data.List.DropRight
import Mathlib.Data.Nat.Notation
import Mathlib.Order.Basic
import Mathlib.Tactic.Common

/-!
# Base 64

Bytes as characters of six bits each. Three bytes are four characters, and the text is padded to a multiple
of four. The decoder knows both alphabets, passes over what is in neither and stops at the padding. It needs
none, and the bits that are left over in the last character are dropped, so that several texts have the same
bytes.

## Main results

* `Base64.octets_sextets` — bytes survive being cut into pieces of six bits;
* `Base64.decode_url` — and so they do written in the alphabet for URLs without padding.
-/

namespace Interledger.Base64

/-! ### Six bits and eight -/

/-- Bytes in pieces of six bits, the last of which may be padded with zeros. -/
def sextets : List UInt8 → List ℕ
  | x :: y :: z :: bs =>
    x.toNat / 4 :: (x.toNat % 4 * 16 + y.toNat / 16) :: (y.toNat % 16 * 4 + z.toNat / 64) :: z.toNat % 64 ::
      sextets bs
  | [x, y] => [x.toNat / 4, x.toNat % 4 * 16 + y.toNat / 16, y.toNat % 16 * 4]
  | [x] => [x.toNat / 4, x.toNat % 4 * 16]
  | [] => []

/-- The whole bytes in pieces of six bits. -/
def octets : List ℕ → List UInt8
  | a :: b :: c :: d :: ns =>
    UInt8.ofNat (a * 4 + b / 16) :: UInt8.ofNat (b % 16 * 16 + c / 4) :: UInt8.ofNat (c % 4 * 64 + d) ::
      octets ns
  | [a, b, c] => [UInt8.ofNat (a * 4 + b / 16), UInt8.ofNat (b % 16 * 16 + c / 4)]
  | [a, b] => [UInt8.ofNat (a * 4 + b / 16)]
  | _ => []

theorem ofNat_eq {n : ℕ} {x : UInt8} (h : n = x.toNat) : UInt8.ofNat n = x := by
  rw [h]
  exact UInt8.ofNat_toNat

/-- **Bytes survive** being cut into pieces of six bits. -/
theorem octets_sextets (bs : List UInt8) : octets (sextets bs) = bs := by
  -- how two sextets give back the bytes that they share
  have h_first (x m : ℕ) (hx : x < 256) (hm : m < 16) : x / 4 * 4 + (x % 4 * 16 + m) / 16 = x := by omega
  have h_second (x y m : ℕ) (hx : x < 256) (hy : y < 256) (hm : m < 4) :
      (x % 4 * 16 + y / 16) % 16 * 16 + (y % 16 * 4 + m) / 4 = y := by omega
  have h_third (y z : ℕ) (hz : z < 256) : (y % 16 * 4 + z / 64) % 4 * 64 + z % 64 = z := by omega
  induction bs using sextets.induct with
  | case1 x y z bs ih =>
    have hx := x.toNat_lt
    have hy := y.toNat_lt
    have hz := z.toNat_lt
    rw [sextets, octets, ih, ofNat_eq (h_first _ _ hx (by omega)), ofNat_eq (h_second _ _ _ hx hy (by omega)),
      ofNat_eq (h_third _ _ hz)]
  | case2 x y =>
    have hx := x.toNat_lt
    have hy := y.toNat_lt
    have h_last := h_second x.toNat y.toNat 0 hx hy (by omega)
    rw [Nat.add_zero] at h_last
    rw [sextets, octets, ofNat_eq (h_first _ _ hx (by omega)), ofNat_eq h_last]
  | case3 x =>
    have h_last := h_first x.toNat 0 x.toNat_lt (by omega)
    rw [Nat.add_zero] at h_last
    rw [sextets, octets, ofNat_eq h_last]
  | case4 => rfl

theorem sextets_lt (bs : List UInt8) : ∀ n ∈ sextets bs, n < 64 := by
  induction bs using sextets.induct with
  | case1 x y z bs ih =>
    have hx := x.toNat_lt
    have hy := y.toNat_lt
    have hz := z.toNat_lt
    intro n hn
    rw [sextets, List.mem_cons, List.mem_cons, List.mem_cons, List.mem_cons] at hn
    rcases hn with rfl | rfl | rfl | rfl | hn
    · omega
    · omega
    · omega
    · omega
    · exact ih n hn
  | case2 x y =>
    have hx := x.toNat_lt
    have hy := y.toNat_lt
    intro n hn
    rw [sextets, List.mem_cons, List.mem_cons, List.mem_singleton] at hn
    rcases hn with rfl | rfl | rfl
    · omega
    · omega
    · omega
  | case3 x =>
    have hx := x.toNat_lt
    intro n hn
    rw [sextets, List.mem_cons, List.mem_singleton] at hn
    rcases hn with rfl | rfl
    · omega
    · omega
  | case4 => nofun

theorem length_octets_le (ns : List ℕ) : (octets ns).length ≤ ns.length := by
  induction ns using octets.induct with
  | case1 a b c d ns ih =>
    rw [octets]
    simp only [List.length_cons]
    omega
  | case2 a b c => exact Nat.le_succ 2
  | case3 a b => exact Nat.le_succ 1
  | case4 ns h_four h_three h_two =>
    rw [octets]
    · exact Nat.zero_le _
    · exact h_four
    · exact h_three
    · exact h_two

/-! ### Texts -/

/-- The alphabet. -/
def digits : List Char := "ABCDEFGHIJKLMNOPQRSTUVWXYZabcdefghijklmnopqrstuvwxyz0123456789+/".toList

/-- The character of six bits. -/
def digit (n : ℕ) : Char := digits.getD n 'A'

/-- The text of some bytes. -/
def encode (bs : List UInt8) : List Char :=
  (sextets bs).map digit ++ List.replicate ((3 - bs.length % 3) % 3) '='

/-- The same in the alphabet for URLs, without padding. -/
def url (bs : List UInt8) : List Char :=
  ((encode bs).rdropWhile (· = '=')).map fun c => if c = '+' then '-' else if c = '/' then '_' else c

/-- The six bits of a character of either alphabet. -/
def value (c : Char) : Option ℕ :=
  if 'A' ≤ c ∧ c ≤ 'Z' then some (c.toNat - 'A'.toNat)
  else if 'a' ≤ c ∧ c ≤ 'z' then some (c.toNat - 'a'.toNat + 26)
  else if '0' ≤ c ∧ c ≤ '9' then some (c.toNat - '0'.toNat + 52)
  else if c = '+' ∨ c = '-' then some 62
  else if c = '/' ∨ c = '_' then some 63
  else none

/-- The bytes of a text. -/
def decode (text : List Char) : List UInt8 := octets ((text.takeWhile (· ≠ '=')).filterMap value)

example : url [0xfb, 0xff, 0x00, 0x10] = "-_8AEA".toList := by decide +kernel

example : decode "-_8~AEB=AA".toList = [0xfb, 0xff, 0x00, 0x10] := by decide +kernel

/-- The character of six bits in the alphabet for URLs. -/
def urlDigit (n : ℕ) : Char := if digit n = '+' then '-' else if digit n = '/' then '_' else digit n

theorem digit_ne {n : ℕ} (hn : n < 64) : digit n ≠ '=' := by
  have h_all : ∀ n < 64, digit n ≠ '=' := by decide +kernel
  exact h_all n hn

theorem urlDigit_spec {n : ℕ} (hn : n < 64) : urlDigit n ≠ '=' ∧ value (urlDigit n) = some n := by
  have h_all : ∀ n < 64, urlDigit n ≠ '=' ∧ value (urlDigit n) = some n := by decide +kernel
  exact h_all n hn

/-- Only the padding is dropped. -/
theorem url_eq (bs : List UInt8) : url bs = (sextets bs).map urlDigit := by
  -- only the padding is cut off, since no digit is an equals sign
  have h_drop (ns : List ℕ) (h : ∀ n ∈ ns, n < 64) (k : ℕ) :
      (ns.map digit ++ List.replicate k '=').rdropWhile (· = '=') = ns.map digit := by
    induction k with
    | zero =>
      rw [List.replicate_zero, List.append_nil, List.rdropWhile_eq_self_iff]
      intro h_ne h_last
      obtain ⟨n, hn, h_digit⟩ := List.mem_map.mp (List.getLast_mem h_ne)
      rw [← h_digit] at h_last
      exact digit_ne (h n hn) (of_decide_eq_true h_last)
    | succ k ih =>
      have h_pad := List.rdropWhile_concat_pos (fun c => decide (c = '=')) (ns.map digit ++ List.replicate k '=')
        '=' rfl
      rw [List.replicate_succ', ← List.append_assoc, h_pad, ih]
  rw [url, encode, h_drop _ (sextets_lt bs), List.map_map]
  rfl

/-- **Bytes survive** in the alphabet for URLs. -/
theorem decode_url (bs : List UInt8) : decode (url bs) = bs := by
  have h_lt := sextets_lt bs
  have h_take : (url bs).takeWhile (· ≠ '=') = url bs := by
    rw [List.takeWhile_eq_self_iff, url_eq]
    intro c hc
    obtain ⟨n, hn, rfl⟩ := List.mem_map.mp hc
    exact decide_eq_true (urlDigit_spec (h_lt n hn)).1
  have h_values : (url bs).filterMap value = sextets bs := by
    rw [url_eq, List.filterMap_map]
    have h_some : (sextets bs).filterMap (value ∘ urlDigit) = (sextets bs).filterMap some :=
      List.filterMap_congr fun n hn => (urlDigit_spec (h_lt n hn)).2
    rw [h_some, List.filterMap_some]
  rw [decode, h_take, h_values, octets_sextets]

/-- No text has a dot. -/
theorem dot_not_mem_url (bs : List UInt8) : '.' ∉ url bs := by
  have h_all : ∀ n < 64, urlDigit n ≠ '.' := by decide +kernel
  rw [url_eq]
  intro h_dot
  obtain ⟨n, hn, h_digit⟩ := List.mem_map.mp h_dot
  exact h_all n (sextets_lt bs n hn) h_digit

/-- There are fewer bytes than characters. -/
theorem length_decode_le (text : List Char) : (decode text).length ≤ text.length :=
  calc (decode text).length
      ≤ ((text.takeWhile (· ≠ '=')).filterMap value).length := length_octets_le _
    _ ≤ (text.takeWhile (· ≠ '=')).length := List.length_filterMap_le _ _
    _ ≤ text.length := (List.takeWhile_prefix _).length_le

end Interledger.Base64
