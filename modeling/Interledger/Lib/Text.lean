import Mathlib.Algebra.Ring.Nat
import Mathlib.Order.Basic
import Mathlib.Tactic.SplitIfs
import Mathlib.Data.Nat.Notation

/-!
# Texts as bytes

UTF-8, whose decoder never fails: every longest piece of a sequence that cannot be completed becomes one
replacement character. ASCII, whose decoder ignores the highest bit of every byte and whose encoder
keeps the last byte of every UTF-16 code unit. Hexadecimal digits, two for each byte, whose decoder
stops at the first pair that is none.

## Main results

* `Utf8.decode_encode` — a text survives UTF-8;
* `Ascii.decode_encode` — a text of ASCII characters survives ASCII;
* `Ascii.isAscii_decode` — the ASCII decoder returns such texts only;
* `Utf8.decode_ascii` — to such a text, both encodings are the same;
* `Utf8.length_encode_decode_le` — how much longer a text is than the bytes it was decoded from;
* `Hex.encode_decode` — pairs of lower case digits survive being decoded.
-/

namespace Interledger.Utf8

/-- The encoding of a text. -/
def encode (text : List Char) : List UInt8 := text.flatMap String.utf8EncodeChar

/-- U+FFFD. -/
def replacement : Char := '\uFFFD'

/-- A byte after the first of a sequence. -/
def isContinuation (b : UInt8) : Bool := 0x80 ≤ b && b ≤ 0xbf

/-- The second byte of a sequence, which excludes encodings that are too long, surrogates and numbers
past the last character. -/
def isSecond (b₀ b₁ : UInt8) : Bool :=
  if b₀ = 0xe0 then 0xa0 ≤ b₁ && b₁ ≤ 0xbf
  else if b₀ = 0xed then 0x80 ≤ b₁ && b₁ ≤ 0x9f
  else if b₀ = 0xf0 then 0x90 ≤ b₁ && b₁ ≤ 0xbf
  else if b₀ = 0xf4 then 0x80 ≤ b₁ && b₁ ≤ 0x8f
  else isContinuation b₁

/-- The bits that a byte adds to those of the bytes before it. -/
def push (n : ℕ) (b : UInt8) : ℕ := n * 64 + (b.toNat - 0x80)

/-- The text of some bytes. -/
def decode : List UInt8 → List Char
  | [] => []
  | b₀ :: bs =>
    if b₀ < 0x80 then Char.ofNat b₀.toNat :: decode bs
    else if b₀ < 0xc2 ∨ 0xf4 < b₀ then replacement :: decode bs
    else match bs with
      | [] => [replacement]
      | b₁ :: bs₁ =>
        if !isSecond b₀ b₁ then replacement :: decode (b₁ :: bs₁)
        else if b₀ < 0xe0 then Char.ofNat (push (b₀.toNat - 0xc0) b₁) :: decode bs₁
        else match bs₁ with
          | [] => [replacement]
          | b₂ :: bs₂ =>
            if !isContinuation b₂ then replacement :: decode (b₂ :: bs₂)
            else if b₀ < 0xf0 then Char.ofNat (push (push (b₀.toNat - 0xe0) b₁) b₂) :: decode bs₂
            else match bs₂ with
              | [] => [replacement]
              | b₃ :: bs₃ =>
                if !isContinuation b₃ then replacement :: decode (b₃ :: bs₃)
                else Char.ofNat (push (push (push (b₀.toNat - 0xf0) b₁) b₂) b₃) :: decode bs₃

/-! ### Sequences of each length -/

section Sequences

variable {b₀ b₁ b₂ b₃ : UInt8} (bs : List UInt8)

theorem decode_one (h : b₀.toNat < 0x80) : decode (b₀ :: bs) = Char.ofNat b₀.toNat :: decode bs := by
  rw [decode.eq_def]
  exact if_pos (UInt8.lt_iff_toNat_lt.mpr h)

/-- The first byte of a sequence of more than one. -/
theorem not_first {b : UInt8} (h_low : 0xc2 ≤ b.toNat) (h_high : b.toNat ≤ 0xf4) :
    ¬b < 0x80 ∧ ¬(b < 0xc2 ∨ 0xf4 < b) := by
  simp only [UInt8.lt_iff_toNat_lt]
  change ¬b.toNat < 0x80 ∧ ¬(b.toNat < 0xc2 ∨ 0xf4 < b.toNat)
  omega

theorem decode_two (h_low : 0xc2 ≤ b₀.toNat) (h_high : b₀.toNat < 0xe0) (h₁ : isSecond b₀ b₁ = true) :
    decode (b₀ :: b₁ :: bs) = Char.ofNat (push (b₀.toNat - 0xc0) b₁) :: decode bs := by
  obtain ⟨h_not, h_range⟩ := not_first h_low (by omega)
  have h_two : b₀ < 0xe0 := UInt8.lt_iff_toNat_lt.mpr h_high
  rw [decode.eq_def]
  simp only [if_neg h_not, if_neg h_range, h₁, Bool.not_true, Bool.false_eq_true, if_false, if_pos h_two]

theorem decode_three (h_low : 0xe0 ≤ b₀.toNat) (h_high : b₀.toNat < 0xf0) (h₁ : isSecond b₀ b₁ = true)
    (h₂ : isContinuation b₂ = true) : decode (b₀ :: b₁ :: b₂ :: bs) =
      Char.ofNat (push (push (b₀.toNat - 0xe0) b₁) b₂) :: decode bs := by
  obtain ⟨h_not, h_range⟩ := not_first (b := b₀) (by omega) (by omega)
  have h_two : ¬b₀ < 0xe0 := UInt8.lt_iff_toNat_lt.not.mpr (Nat.not_lt.mpr h_low)
  have h_three : b₀ < 0xf0 := UInt8.lt_iff_toNat_lt.mpr h_high
  rw [decode.eq_def]
  simp only [if_neg h_not, if_neg h_range, h₁, h₂, Bool.not_true, Bool.false_eq_true, if_false,
    if_neg h_two, if_pos h_three]

theorem decode_four (h_low : 0xf0 ≤ b₀.toNat) (h_high : b₀.toNat ≤ 0xf4) (h₁ : isSecond b₀ b₁ = true)
    (h₂ : isContinuation b₂ = true) (h₃ : isContinuation b₃ = true) :
    decode (b₀ :: b₁ :: b₂ :: b₃ :: bs) =
      Char.ofNat (push (push (push (b₀.toNat - 0xf0) b₁) b₂) b₃) :: decode bs := by
  obtain ⟨h_not, h_range⟩ := not_first (b := b₀) (by omega) h_high
  have h_two : ¬b₀ < 0xe0 :=
    UInt8.lt_iff_toNat_lt.not.mpr (Nat.not_lt.mpr (show 0xe0 ≤ b₀.toNat by omega))
  have h_three : ¬b₀ < 0xf0 := UInt8.lt_iff_toNat_lt.not.mpr (Nat.not_lt.mpr h_low)
  rw [decode.eq_def]
  simp only [if_neg h_not, if_neg h_range, h₁, h₂, h₃, Bool.not_true, Bool.false_eq_true, if_false,
    if_neg h_two, if_neg h_three]

end Sequences

/-- A byte of less than 256. -/
theorem toNat_ofNat {n : ℕ} (h : n < 256) : (UInt8.ofNat n).toNat = n := Nat.mod_eq_of_lt h

theorem isContinuation_iff {b : UInt8} : isContinuation b = true ↔ 0x80 ≤ b.toNat ∧ b.toNat ≤ 0xbf := by
  rw [isContinuation, Bool.and_eq_true, decide_eq_true_iff, decide_eq_true_iff, UInt8.le_iff_toNat_le,
    UInt8.le_iff_toNat_le]
  rfl

theorem isSecond_iff {b₀ b₁ : UInt8} : isSecond b₀ b₁ = true ↔
    (0x80 ≤ b₁.toNat ∧ b₁.toNat ≤ 0xbf) ∧ (b₀.toNat = 0xe0 → 0xa0 ≤ b₁.toNat) ∧
      (b₀.toNat = 0xed → b₁.toNat ≤ 0x9f) ∧ (b₀.toNat = 0xf0 → 0x90 ≤ b₁.toNat) ∧
      (b₀.toNat = 0xf4 → b₁.toNat ≤ 0x8f) := by
  have h_eq (b c : UInt8) : b = c ↔ b.toNat = c.toNat := UInt8.toNat_inj.symm
  unfold isSecond
  simp only [h_eq]
  change (if b₀.toNat = 0xe0 then _ else if b₀.toNat = 0xed then _ else if b₀.toNat = 0xf0 then _
    else if b₀.toNat = 0xf4 then _ else _) = true ↔ _
  split_ifs <;>
  simp only [Bool.and_eq_true, decide_eq_true_iff, UInt8.le_iff_toNat_le, isContinuation_iff,
    UInt8.reduceToNat] <;>
  omega

/-- **A character is read back**, whatever follows it. -/
theorem decode_encodeChar_append (c : Char) (bs : List UInt8) :
    decode (String.utf8EncodeChar c ++ bs) = c :: decode bs := by
  have h_valid : c.val.toNat < 0xd800 ∨ 0xdfff < c.val.toNat ∧ c.val.toNat < 0x110000 := c.valid
  have h_char (n : ℕ) (h : n = c.val.toNat) : Char.ofNat n :: decode bs = c :: decode bs := by
    rw [h]
    exact congrArg (· :: decode bs) (Char.ofNat_toNat c)
  have h_last := toNat_ofNat (n := c.val.toNat % 64 + 0x80) (by omega)
  have h_third := toNat_ofNat (n := c.val.toNat / 64 % 64 + 0x80) (by omega)
  have h_second := toNat_ofNat (n := c.val.toNat / 4096 % 64 + 0x80) (by omega)
  unfold String.utf8EncodeChar
  change decode ((if c.val.toNat ≤ 0x7f then _ else if c.val.toNat ≤ 0x7ff then _
    else if c.val.toNat ≤ 0xffff then _
    else _) ++ bs) = _
  split_ifs with h_one h_two h_three
  · -- one byte
    have h_byte := toNat_ofNat (n := c.val.toNat) (by omega)
    exact (decode_one bs (by omega)).trans (h_char _ h_byte)
  · -- two: the first carries the top five bits
    have h_byte := toNat_ofNat (n := c.val.toNat / 64 % 0x20 + 0xc0) (by omega)
    refine (decode_two bs (by omega) (by omega) (isSecond_iff.mpr (by omega))).trans (h_char _ ?_)
    unfold push
    omega
  · -- three: the first carries the top four
    have h_byte := toNat_ofNat (n := c.val.toNat / 4096 % 0x10 + 0xe0) (by omega)
    refine (decode_three bs (by omega) (by omega) (isSecond_iff.mpr (by omega))
      (isContinuation_iff.mpr (by omega))).trans (h_char _ ?_)
    unfold push
    omega
  · -- four: the first carries the top three
    have h_byte := toNat_ofNat (n := c.val.toNat / 262144 % 0x08 + 0xf0) (by omega)
    refine (decode_four bs (by omega) (by omega) (isSecond_iff.mpr (by omega))
      (isContinuation_iff.mpr (by omega)) (isContinuation_iff.mpr (by omega))).trans (h_char _ ?_)
    unfold push
    omega

theorem decode_encode (text : List Char) : decode (encode text) = text := by
  induction text with
  | nil => rfl
  | cons c text ih =>
    rw [encode, List.flatMap_cons, decode_encodeChar_append]
    exact congrArg (c :: ·) ih

example : decode [0x68, 0xe2, 0x82, 0xac, 0xe2, 0x82, 0x21] = ['h', '€', replacement, '!'] := by decide

/-- **What the characters of a decoded text weigh**: so much for each byte, if an ASCII character and the
replacement character weigh no more than one byte, and no character weighs more than two. -/
theorem sum_map_decode_le {weight : Char → ℕ} {m : ℕ} (h_ascii : ∀ n < 0x80, weight (Char.ofNat n) ≤ m)
    (h_replacement : weight replacement ≤ m) (h_all : ∀ c, weight c ≤ m * 2) (bs : List UInt8) :
    ((decode bs).map weight).sum ≤ m * bs.length := by
  -- a character that stands for `k` bytes, in front of the others
  have h_step {c : Char} {text : List Char} {n k : ℕ} (h_char : weight c ≤ m * k)
      (h_text : (text.map weight).sum ≤ m * n) : ((c :: text).map weight).sum ≤ m * (n + k) := by
    rw [List.map_cons, List.sum_cons, Nat.mul_add]
    omega
  have h_first {text : List Char} {n : ℕ} (h_text : (text.map weight).sum ≤ m * n) :
      ((replacement :: text).map weight).sum ≤ m * (n + 1) :=
    h_step (by rwa [Nat.mul_one]) h_text
  have h_last {n : ℕ} : (([replacement] : List Char).map weight).sum ≤ m * (n + 1) :=
    h_first (Nat.zero_le _)
  have h_more {c : Char} {k : ℕ} (h_two : 2 ≤ k) : weight c ≤ m * k :=
    Nat.le_trans (h_all c) (Nat.mul_le_mul_left m h_two)
  -- a replacement character stands for one byte at least, any other for as many as it was read from
  fun_induction decode bs with
  | case1 => exact Nat.zero_le _
  | case2 b₀ bs h_small ih =>
    have h_char := h_ascii b₀.toNat (UInt8.lt_iff_toNat_lt.mp h_small)
    exact h_step (by rwa [Nat.mul_one]) ih
  | case3 b₀ bs _ _ ih => exact h_first ih
  | case4 => exact h_last
  | case5 b₀ _ _ b₁ bs _ ih => exact h_first ih
  | case6 b₀ _ _ b₁ bs _ _ ih =>
    exact h_step (n := bs.length) (k := 2) (h_more (by decide)) ih
  | case7 => exact h_last
  | case8 b₀ _ _ b₁ _ _ b₂ bs _ ih =>
    exact Nat.le_trans (h_first ih) (Nat.mul_le_mul_left m (by simp only [List.length_cons]; omega))
  | case9 b₀ _ _ b₁ _ _ b₂ bs _ _ ih =>
    exact h_step (n := bs.length) (k := 3) (h_more (by decide)) ih
  | case10 => exact h_last
  | case11 b₀ _ _ b₁ _ _ b₂ _ _ b₃ bs _ ih =>
    exact Nat.le_trans (h_first ih) (Nat.mul_le_mul_left m (by simp only [List.length_cons]; omega))
  | case12 b₀ _ _ b₁ _ _ b₂ _ _ b₃ bs _ ih =>
    exact h_step (n := bs.length) (k := 4) (h_more (by decide)) ih

/-- A character takes at most four bytes. -/
theorem length_encodeChar_le (c : Char) : (String.utf8EncodeChar c).length ≤ 4 := by
  unfold String.utf8EncodeChar
  simp only
  split_ifs <;> simp only [List.length_cons, List.length_nil] <;> decide

/-- **Decoded bytes are at most three times as many when they are encoded**, of which a replacement
character takes three. -/
theorem length_encode_decode_le (bs : List UInt8) : (encode (decode bs)).length ≤ 3 * bs.length := by
  rw [encode, List.length_flatMap]
  apply sum_map_decode_le
  · decide
  · decide
  · exact fun c => Nat.le_trans (length_encodeChar_le c) (show 4 ≤ 6 by decide)

end Interledger.Utf8

namespace Interledger.Ascii

/-- The UTF-16 code units of a character. -/
def codeUnits (c : Char) : List ℕ :=
  if c.toNat < 0x10000 then [c.toNat]
  else [0xd800 + (c.toNat - 0x10000) / 0x400, 0xdc00 + (c.toNat - 0x10000) % 0x400]

/-- The encoding of a text. -/
def encode (text : List Char) : List UInt8 := (text.flatMap codeUnits).map UInt8.ofNat

/-- The text of some bytes. -/
def decode (bs : List UInt8) : List Char := bs.map fun b => Char.ofNat (b.toNat % 0x80)

/-- A text of ASCII characters. -/
def IsAscii (text : List Char) : Prop := ∀ c ∈ text, c.toNat < 0x80

/-- A text that is ASCII can be seen to be. -/
theorem isAscii_of_all {text : List Char} (h : text.all (·.toNat < 0x80) = true) : IsAscii text :=
  fun c hc => of_decide_eq_true (List.all_eq_true.mp h c hc)

@[simp] theorem length_decode (bs : List UInt8) : (decode bs).length = bs.length := List.length_map ..

theorem decode_append (bs bs' : List UInt8) : decode (bs ++ bs') = decode bs ++ decode bs' :=
  List.map_append

theorem decode_replicate_zero (n : ℕ) : decode (List.replicate n 0) = List.replicate n '\x00' :=
  List.map_replicate

/-- A character is one byte. -/
theorem encode_eq {text : List Char} (h : IsAscii text) :
    encode text = text.map fun c => UInt8.ofNat c.toNat := by
  induction text with
  | nil => rfl
  | cons c text ih =>
    have h_small := h c List.mem_cons_self
    have h_unit : codeUnits c = [c.toNat] := if_pos (by omega)
    have h_tail := ih fun d hd => h d (List.mem_cons_of_mem c hd)
    rw [encode] at h_tail ⊢
    rw [List.flatMap_cons, h_unit, List.map_append, h_tail]
    rfl

theorem length_encode {text : List Char} (h : IsAscii text) : (encode text).length = text.length := by
  rw [encode_eq h, List.length_map]

/-- **ASCII characters survive.** -/
theorem decode_encode {text : List Char} (h : IsAscii text) : decode (encode text) = text := by
  rw [encode_eq h, decode, List.map_map]
  refine (List.map_congr_left fun c hc => ?_).trans (List.map_id text)
  have h_small := h c hc
  have h_byte : (UInt8.ofNat c.toNat).toNat = c.toNat := Nat.mod_eq_of_lt (by omega)
  rw [Function.comp_apply, h_byte, Nat.mod_eq_of_lt h_small, Char.ofNat_toNat]
  rfl

theorem toNat_ofNat : ∀ n < 0x80, (Char.ofNat n).toNat = n := by decide

/-- What is decoded is ASCII. -/
theorem isAscii_decode (bs : List UInt8) : IsAscii (decode bs) := by
  intro c hc
  obtain ⟨b, -, rfl⟩ := List.mem_map.mp hc
  have h_low : b.toNat % 0x80 < 0x80 := Nat.mod_lt _ (by decide)
  rw [toNat_ofNat _ h_low]
  exact h_low

end Interledger.Ascii

namespace Interledger.Utf8

/-- **An ASCII text is its own UTF-8.** -/
theorem encode_ascii {text : List Char} (h : Ascii.IsAscii text) : Ascii.encode text = encode text := by
  rw [Ascii.encode_eq h]
  induction text with
  | nil => rfl
  | cons c text ih =>
    have h_small := h c List.mem_cons_self
    have h_one : String.utf8EncodeChar c = [UInt8.ofNat c.toNat] := by
      unfold String.utf8EncodeChar
      exact if_pos (by change c.toNat ≤ 0x7f; omega)
    have h_tail := ih fun d hd => h d (List.mem_cons_of_mem c hd)
    rw [encode, List.flatMap_cons, h_one, List.map_cons, h_tail]
    rfl

theorem decode_ascii {text : List Char} (h : Ascii.IsAscii text) : decode (Ascii.encode text) = text := by
  rw [encode_ascii h, decode_encode]

/-- A text takes at most three bytes for each of its code units. -/
theorem length_encode_le (text : List Char) :
    (encode text).length ≤ 3 * (text.flatMap Ascii.codeUnits).length := by
  have h_char (c : Char) : (String.utf8EncodeChar c).length ≤ 3 * (Ascii.codeUnits c).length := by
    unfold Ascii.codeUnits String.utf8EncodeChar Char.toNat
    simp only
    split_ifs <;> simp only [List.length_cons, List.length_nil] <;> omega
  induction text with
  | nil => exact Nat.zero_le _
  | cons c text ih =>
    calc (encode (c :: text)).length
        = (String.utf8EncodeChar c).length + (encode text).length := by
          rw [encode, List.flatMap_cons, List.length_append, encode]
      _ ≤ 3 * (Ascii.codeUnits c).length + 3 * (text.flatMap Ascii.codeUnits).length :=
          Nat.add_le_add (h_char c) ih
      _ = 3 * ((c :: text).flatMap Ascii.codeUnits).length := by
          rw [List.flatMap_cons, List.length_append, Nat.mul_add]

/-- The ASCII bytes of decoded bytes are not more than those. -/
theorem length_ascii_decode_le (bs : List UInt8) : (Ascii.encode (decode bs)).length ≤ bs.length := by
  rw [Ascii.encode, List.length_map, List.length_flatMap]
  have h_sum : ((decode bs).map fun c => (Ascii.codeUnits c).length).sum ≤ 1 * bs.length := by
    apply sum_map_decode_le
    · decide
    · decide
    · intro c
      unfold Ascii.codeUnits
      split_ifs
      · exact Nat.le_succ 1
      · exact Nat.le_refl 2
  rwa [Nat.one_mul] at h_sum

/-- The replacement character, whose last byte starts no sequence, survives ASCII as well. -/
theorem decode_ascii_of_replacement {text : List Char}
    (h : ∀ c ∈ text, c.toNat < 0x80 ∨ c = replacement) : decode (Ascii.encode text) = text := by
  induction text with
  | nil => rfl
  | cons c text ih =>
    have h_tail := ih fun d hd => h d (List.mem_cons_of_mem c hd)
    rcases h c List.mem_cons_self with h_small | rfl
    · -- a character of one byte
      have h_byte : (UInt8.ofNat c.toNat).toNat = c.toNat := Nat.mod_eq_of_lt (by omega)
      have h_unit : Ascii.codeUnits c = [c.toNat] := if_pos (by omega)
      have h_encode : Ascii.encode (c :: text) = UInt8.ofNat c.toNat :: Ascii.encode text := by
        unfold Ascii.encode
        rw [List.flatMap_cons, h_unit]
        rfl
      rw [h_encode, decode_one _ (h_byte.symm ▸ h_small), h_byte, h_tail, Char.ofNat_toNat]
    · -- the replacement character keeps its low byte, which starts no character
      have h_encode : Ascii.encode (replacement :: text) = 0xfd :: Ascii.encode text := rfl
      have h_decode (bs : List UInt8) : decode (0xfd :: bs) = replacement :: decode bs := by
        rw [decode.eq_def]
        rfl
      rw [h_encode, h_decode, h_tail]

end Interledger.Utf8

namespace Interledger.Hex

/-- The lower case digits. -/
def digits : List Char := "0123456789abcdef".toList

/-- The digits of some bytes. -/
def encode (bs : List UInt8) : List Char :=
  bs.flatMap fun b => [Nat.digitChar (b.toNat / 16), Nat.digitChar (b.toNat % 16)]

/-- The value of a digit of either case. -/
def value (c : Char) : Option ℕ :=
  if c.isDigit then some (c.toNat - '0'.toNat)
  else if 'a' ≤ c ∧ c ≤ 'f' then some (c.toNat - 'a'.toNat + 10)
  else if 'A' ≤ c ∧ c ≤ 'F' then some (c.toNat - 'A'.toNat + 10)
  else none

/-- The bytes of pairs of digits, up to the first that is none. -/
def decode : List Char → List UInt8
  | c :: d :: text =>
    match value c, value d with
    | some m, some n => UInt8.ofNat (16 * m + n) :: decode text
    | _, _ => []
  | _ => []

example : decode "c0FFee!1".toList = [0xc0, 0xff, 0xee] := by decide +kernel

/-- A lower case digit. -/
theorem value_of_mem {c : Char} (h : c ∈ digits) : ∃ n < 16, value c = some n ∧ Nat.digitChar n = c := by
  have h_all : digits.all (fun c => (List.range 16).any fun n => value c = some n && Nat.digitChar n = c) =
      true := by decide +kernel
  obtain ⟨n, h_mem, h_both⟩ := List.any_eq_true.mp (List.all_eq_true.mp h_all c h)
  obtain ⟨h_value, h_char⟩ := Bool.and_eq_true_iff.mp h_both
  exact ⟨n, List.mem_range.mp h_mem, of_decide_eq_true h_value, of_decide_eq_true h_char⟩

/-- Bytes are written in lower case digits. -/
theorem mem_digits_of_mem_encode {bs : List UInt8} {c : Char} (h : c ∈ encode bs) : c ∈ digits := by
  have h_digit : ∀ n < 16, Nat.digitChar n ∈ digits := by decide
  obtain ⟨b, -, h_mem⟩ := List.mem_flatMap.mp h
  have h_lt := b.toNat_lt
  rcases List.mem_cons.mp h_mem with rfl | h_mem
  · exact h_digit _ (by omega)
  · rw [List.mem_singleton.mp h_mem]
    exact h_digit _ (by omega)

theorem length_encode (bs : List UInt8) : (encode bs).length = 2 * bs.length := by
  induction bs with
  | nil => rfl
  | cons b bs ih =>
    rw [encode] at ih ⊢
    rw [List.flatMap_cons, List.length_append, ih]
    change 2 + 2 * bs.length = 2 * (bs.length + 1)
    omega

/-- **Pairs of lower case digits survive.** -/
theorem encode_decode {n : ℕ} {text : List Char} (h_length : text.length = 2 * n)
    (h : ∀ c ∈ text, c ∈ digits) : (decode text).length = n ∧ encode (decode text) = text := by
  induction n generalizing text with
  | zero =>
    obtain rfl := List.length_eq_zero_iff.mp h_length
    exact ⟨rfl, rfl⟩
  | succ n ih =>
    match text with
    | [] => cases h_length
    | [c] =>
      rw [List.length_singleton] at h_length
      omega
    | c :: d :: text =>
      obtain ⟨m, hm, h_first, h_m⟩ := value_of_mem (h c List.mem_cons_self)
      obtain ⟨k, hk, h_second, h_k⟩ := value_of_mem (h d (List.mem_cons_of_mem c List.mem_cons_self))
      obtain ⟨h_count, h_text⟩ := @ih text (by simp only [List.length_cons] at h_length; omega)
        fun e he => h e (List.mem_cons_of_mem c (List.mem_cons_of_mem d he))
      have h_byte : (UInt8.ofNat (16 * m + k)).toNat = 16 * m + k := Nat.mod_eq_of_lt (by omega)
      have h_high : (16 * m + k) / 16 = m := by omega
      have h_low : (16 * m + k) % 16 = k := by omega
      rw [decode, h_first, h_second]
      refine ⟨congrArg (· + 1) h_count, ?_⟩
      rw [encode] at h_text ⊢
      rw [List.flatMap_cons, h_byte, h_high, h_low, h_m, h_k, h_text]
      rfl

end Interledger.Hex
