import Interledger.Ilp.Packet
import Interledger.Lib.Action
import Interledger.Lib.Bytes
import Interledger.Stream.Long

/-!
# Integers of the OER codec

`oer-utils/src/lib/util.ts`: the forms in which a `Writer` takes an integer, their conversion to
`Long`s, and the number of bytes that the variable-length encodings take.

A JavaScript number is an integer here or `fraction`, which stands for every other number. A `Long` is
64 bits with a flag that says how they are read.

## Main results

* `shortest_getLongUIntBufferSize`, `shortest_getLongIntBufferSize` — the sizes of `Long`s are the
  shortest;
* `shortest_getUIntBufferSize` — so are those of numbers that are not negative;
* `shortest_getIntBufferSize_iff` — those of signed numbers are, outside two ranges.
-/

namespace Interledger.Oer

open Ilp (Buffer)
open Stream.Long (roundNumber)

/-- What the methods of `oer-utils` throw. -/
inductive OerError
  /-- An `Error` with its text. -/
  | error (message : String)
  | parseError (message : String)
  | underflowError (message : String)
  /-- An offset or a size that a `Buffer` itself refuses. -/
  | rangeError
  deriving DecidableEq

/-- The size above which `Buffer.alloc` throws, on a 64-bit platform. -/
def kMaxLength : ℕ := 2 ^ 32

/-- `MAX_SAFE_BYTES`. -/
def maxSafeBytes : ℕ := 6

/-- `LongValue`: an integer in one of the forms that the methods take. -/
inductive LongValue
  | number (value : ℤ)
  /-- A number that is no integer: a fraction, an infinity or `NaN`. -/
  | fraction
  | string (value : String)
  | long (unsigned : Bool) (bits : BitVec 64)
  deriving DecidableEq

/-- The digits after the sign of a text. -/
def unsignedDigits : List Char → List Char
  | '-' :: digits => digits
  | digits => digits

/-- `INTEGER_REGEX`. -/
def isIntegerText (text : List Char) : Bool :=
  unsignedDigits text ≠ [] && (unsignedDigits text).all Char.isDigit

/-- The integer that a decimal text stands for. -/
def decimalValue (text : List Char) : ℤ :=
  if text.head? = some '-' then -(Nat.ofDigitChars 10 (unsignedDigits text) 0 : ℕ)
  else (Nat.ofDigitChars 10 text 0 : ℕ)

/-- The double nearest to an integer, the even one of two. -/
def toDouble (n : ℤ) : ℤ := n.sign * roundNumber n.natAbs

namespace LongValue

/-- `isInteger`. -/
def isInteger : LongValue → Bool
  | number _ => true
  | fraction => false
  | string text => isIntegerText text.toList
  | long _ _ => true

/-- The integer that a value stands for, a fraction for none. -/
def toInt : LongValue → ℤ
  | number n => n
  | fraction => 0
  | string text => decimalValue text.toList
  | long true bits => bits.toNat
  | long false bits => bits.toInt

/-- `Number(value)`. A `Long` is converted through its decimal text. -/
def toNumber : LongValue → ℤ
  | number n => n
  | value => toDouble value.toInt

/-- `typeof value === 'number' && value > max`. -/
def isNumberAbove (max : ℤ) : LongValue → Bool
  | number n => max < n
  | _ => false

/-- `typeof value === 'number' && value < min`. -/
def isNumberBelow (min : ℤ) : LongValue → Bool
  | number n => n < min
  | _ => false

/-- `isLong(value) && value.unsigned === unsigned`. -/
def isLongOf (unsigned : Bool) : LongValue → Bool
  | long u _ => u == unsigned
  | _ => false

/-- The text of a value in a message. -/
def toText : LongValue → String
  | string text => text
  | value => toString value.toInt

end LongValue

/-- `Long.fromNumber`, which saturates. -/
def longFromNumber (n : ℤ) (unsigned : Bool) : BitVec 64 :=
  if unsigned then BitVec.ofInt 64 (max 0 (min n (2 ^ 64 - 1)))
  else BitVec.ofInt 64 (max (-2 ^ 63) (min n (2 ^ 63 - 1)))

/-- `longFromValue`. -/
def longFromValue {σ : Type} (value : LongValue) (unsigned : Bool) :
    Action σ OerError (BitVec 64) :=
  match value with
  | .number n =>
    if unsigned ∧ n < 0 then throw (.error "UInt must be positive")
    else pure (longFromNumber n unsigned)
  | .fraction => pure (longFromNumber 0 unsigned)
  | .long u bits =>
    if u ≠ unsigned then
      throw (.error (if unsigned then "Expected unsigned Long" else "Expected signed Long"))
    else pure bits
  | .string text =>
    if unsigned ∧ text.toList.head? = some '-' then throw (.error "UInt must be positive")
    else pure (BitVec.ofInt 64 (decimalValue text.toList))

/-- `bufferToLong`. A signed value takes its sign from the first byte. -/
def bufferToLong {σ : Type} (buffer : Buffer) (unsigned : Bool) : Action σ OerError (BitVec 64) :=
  if buffer.length > 8 then
    throw (.error ((if unsigned then "UInt" else "Int") ++ " of length " ++
      toString buffer.length ++ " is too large"))
  else if unsigned then pure (buffer.foldl (fun sum value => sum <<< 8 + BitVec.ofNat 64 value.toNat) 0)
  else
    pure (buffer.zipIdx.foldl (fun sum (value, i) =>
      sum * 256 + BitVec.ofInt 64 (if i = 0 ∧ 0x80 ≤ value then value.toNat - 0x100 else value.toNat)) 0)

/-- `Array.prototype.slice(start)`. -/
def sliceFrom {α : Type} (start : ℤ) (xs : List α) : List α :=
  if 0 ≤ start then xs.drop start.toNat else xs.drop (xs.length - start.natAbs)

/-- `longToBuffer`. -/
def longToBuffer (value : BitVec 64) (length : ℕ) : Buffer :=
  sliceFrom (8 - length) (Bytes.toBytes 8 value.toNat)

/-- `LongSizeRange`. -/
structure LongSizeRange where
  min : BitVec 64
  max : BitVec 64
  bytes : ℕ

/-- `LONG_VAR_UINT_SIZES`. -/
def longVarUIntSizes : List LongSizeRange :=
  (List.range 8).map fun i => ⟨0, BitVec.allOnes 64 >>> (64 - 8 * (i + 1)), i + 1⟩

/-- `LONG_VAR_INT_SIZES`. -/
def longVarIntSizes : List LongSizeRange :=
  (List.range 8).map fun i => ⟨(BitVec.intMin 64).sshiftRight (64 - 8 * (i + 1)),
    (BitVec.intMax 64).sshiftRight (64 - 8 * (i + 1)), i + 1⟩

/-- `NumberSizeRange`. -/
structure NumberSizeRange where
  min : ℤ
  max : ℤ
  bytes : ℕ
  deriving DecidableEq

/-- `makeNumberRanges`, with the numbers that the `Long`s are read as. -/
def makeNumberRanges (toInt : BitVec 64 → ℤ) (ranges : List LongSizeRange) : List NumberSizeRange :=
  (ranges.filter (·.bytes ≤ maxSafeBytes)).map fun range =>
    ⟨toDouble (toInt range.min), toDouble (toInt range.max), range.bytes⟩

/-- `VAR_UINT_SIZES`. -/
def varUIntSizes : List NumberSizeRange := makeNumberRanges (fun l => l.toNat) longVarUIntSizes

/-- `VAR_INT_SIZES`. -/
def varIntSizes : List NumberSizeRange := makeNumberRanges BitVec.toInt longVarIntSizes

/-- The length of a `Long`'s hexadecimal text, with its sign. -/
def hexLength (n : ℤ) : ℕ := (Nat.toDigits 16 n.natAbs).length + if n < 0 then 1 else 0

/-- `computeLongBufferSize`: half the length of the hexadecimal text, rounded up. -/
def computeLongBufferSize (n : ℤ) : ℕ := (hexLength n + 1) / 2

/-- `getLongUIntBufferSize`. -/
def getLongUIntBufferSize {σ : Type} (value : BitVec 64) : Action σ OerError ℕ :=
  match longVarUIntSizes.find? (fun item => value ≤ item.max) with
  | some item => pure item.bytes
  | none => throw (.error "unreachable")

/-- `getUIntBufferSize`. -/
def getUIntBufferSize (value : ℤ) : ℕ :=
  match varUIntSizes.find? (fun item => value ≤ item.max) with
  | some item => item.bytes
  | none => computeLongBufferSize (longFromNumber value true).toNat

/-- `getLongIntBufferSize`. -/
def getLongIntBufferSize {σ : Type} (value : BitVec 64) : Action σ OerError ℕ :=
  match longVarIntSizes.find? (fun item => item.min.sle value && value.sle item.max) with
  | some item => pure item.bytes
  | none => throw (.error "unreachable")

/-- `getIntBufferSize`. -/
def getIntBufferSize (value : ℤ) : ℕ :=
  match varIntSizes.find? (fun item => item.min ≤ value && value ≤ item.max) with
  | some item => item.bytes
  | none => computeLongBufferSize (longFromNumber value false).toInt

/-! ### Numbers

A double holds the integers up to `2 ^ 53`, and rounds larger ones to at least that.
-/

theorem toDouble_of_le {n : ℤ} (h : n.natAbs ≤ 2 ^ 53) : toDouble n = n := by
  have h_round : roundNumber n.natAbs = n.natAbs := by
    have h_exact := Stream.Long.roundNumber_mul_pow 0 h
    rwa [Nat.pow_zero, Nat.mul_one] at h_exact
  rw [toDouble, h_round, Int.sign_mul_natAbs]

/-- A large number stays large. -/
theorem le_natAbs_toDouble {n : ℤ} (h : 2 ^ 53 < n.natAbs) :
    2 ^ 53 ≤ roundNumber n.natAbs := by
  have h_log : 53 ≤ n.natAbs.log2 := (Nat.le_log2 (by omega)).mpr (by omega)
  have h_div : 2 ^ 52 ≤ n.natAbs / 2 ^ (n.natAbs.log2 - 52) := by
    rw [Nat.le_div_iff_mul_le (Nat.two_pow_pos _), ← Nat.pow_add]
    have h_self := Nat.log2_self_le (n := n.natAbs) (by omega)
    rwa [show 52 + (n.natAbs.log2 - 52) = n.natAbs.log2 by omega]
  have h_two : 2 ≤ 2 ^ (n.natAbs.log2 - 52) := Nat.le_self_pow (by omega) 2
  unfold roundNumber
  simp only
  -- the quotient has 53 bits, and at least one more is cut off
  calc 2 ^ 53 = 2 ^ 52 * 2 := by norm_num
    _ ≤ _ := Nat.mul_le_mul (by split <;> omega) h_two

/-- Rounding does not carry a number past a bound that a double holds. -/
theorem lt_toDouble_iff {b n : ℤ} (h : b.natAbs < 2 ^ 53) : b < toDouble n ↔ b < n := by
  by_cases h_exact : n.natAbs ≤ 2 ^ 53
  · rw [toDouble_of_le h_exact]
  · have h_large := le_natAbs_toDouble (not_le.mp h_exact)
    unfold toDouble
    rcases lt_trichotomy n 0 with h_neg | h_zero | h_pos
    · rw [Int.sign_eq_neg_one_of_neg h_neg]
      omega
    · omega
    · rw [Int.sign_eq_one_of_pos h_pos]
      omega

theorem toDouble_lt_iff {b n : ℤ} (h : b.natAbs < 2 ^ 53) : toDouble n < b ↔ n < b := by
  by_cases h_exact : n.natAbs ≤ 2 ^ 53
  · rw [toDouble_of_le h_exact]
  · have h_large := le_natAbs_toDouble (not_le.mp h_exact)
    unfold toDouble
    rcases lt_trichotomy n 0 with h_neg | h_zero | h_pos
    · rw [Int.sign_eq_neg_one_of_neg h_neg]
      omega
    · omega
    · rw [Int.sign_eq_one_of_pos h_pos]
      omega

namespace LongValue

/-- The forms of an integer that a method for unsigned or for signed integers takes: a number in the
safe range, the decimal text of a 64-bit value, or a `Long` of that kind. -/
def Accepted (unsigned : Bool) : LongValue → Prop
  | number n => n.natAbs < 2 ^ 53
  | fraction => False
  | string text => isIntegerText text.toList = true ∧ -2 ^ 63 ≤ decimalValue text.toList ∧
      decimalValue text.toList < 2 ^ 64
  | long u _ => u = unsigned

/-- The value is written with a minus sign. -/
def isNegative : LongValue → Bool
  | number n => n < 0
  | string text => text.toList.head? = some '-'
  | _ => false

/-- Comparing the number that a value is converted to is comparing the integer. -/
theorem lt_toNumber_iff {b : ℤ} (h : b.natAbs < 2 ^ 53) (value : LongValue) :
    b < value.toNumber ↔ b < value.toInt := by
  cases value with
  | number n => rfl
  | fraction => exact lt_toDouble_iff h
  | string text => exact lt_toDouble_iff h
  | long u bits => exact lt_toDouble_iff h

theorem toNumber_lt_iff {b : ℤ} (h : b.natAbs < 2 ^ 53) (value : LongValue) :
    value.toNumber < b ↔ value.toInt < b := by
  cases value with
  | number n => rfl
  | fraction => exact toDouble_lt_iff h
  | string text => exact toDouble_lt_iff h
  | long u bits => exact toDouble_lt_iff h

/-- The number of a safe integer is that integer. -/
theorem toNumber_eq {value : LongValue} (h : value.toInt.natAbs ≤ 2 ^ 53) :
    value.toNumber = value.toInt := by
  cases value with
  | number n => rfl
  | fraction => exact toDouble_of_le h
  | string text => exact toDouble_of_le h
  | long u bits => exact toDouble_of_le h

variable {value : LongValue} {unsigned : Bool}

theorem isInteger_of_accepted (h : value.Accepted unsigned) : value.isInteger = true := by
  cases value with
  | number n => rfl
  | fraction => exact h.elim
  | string text => exact h.1
  | long u bits => rfl

theorem isNumberAbove_of_accepted (h : value.Accepted unsigned) {max : ℤ} (h_max : 2 ^ 53 - 1 ≤ max) :
    value.isNumberAbove max = false := by
  cases value with
  | number n =>
    have h_safe : n.natAbs < 2 ^ 53 := h
    exact decide_eq_false (by omega)
  | fraction => rfl
  | string text => rfl
  | long u bits => rfl

theorem isNumberBelow_of_accepted (h : value.Accepted unsigned) {min : ℤ}
    (h_min : min ≤ -(2 ^ 53 - 1)) : value.isNumberBelow min = false := by
  cases value with
  | number n =>
    have h_safe : n.natAbs < 2 ^ 53 := h
    exact decide_eq_false (by omega)
  | fraction => rfl
  | string text => rfl
  | long u bits => rfl

theorem isLongOf_of_accepted (h : value.Accepted unsigned) : value.isLongOf (!unsigned) = false := by
  cases value with
  | number n => rfl
  | fraction => rfl
  | string text => rfl
  | long u bits =>
    cases h
    cases unsigned <;> rfl

/-- A text without a minus sign is not negative. -/
theorem toInt_nonneg (h : value.Accepted true) (h_sign : value.isNegative = false) :
    0 ≤ value.toInt := by
  cases value with
  | number n => exact not_lt.mp (of_decide_eq_false h_sign)
  | fraction => exact le_rfl
  | string text =>
    change 0 ≤ decimalValue text.toList
    rw [decimalValue, if_neg (of_decide_eq_false h_sign)]
    exact Int.natCast_nonneg _
  | long u bits =>
    cases h
    exact Int.natCast_nonneg _

/-- A text with a minus sign is not positive. -/
theorem toInt_nonpos (h : value.Accepted true) (h_sign : value.isNegative = true) :
    value.toInt ≤ 0 := by
  cases value with
  | number n => exact le_of_lt (of_decide_eq_true h_sign)
  | fraction => exact le_rfl
  | string text =>
    change decimalValue text.toList ≤ 0
    rw [decimalValue, if_pos (of_decide_eq_true h_sign)]
    exact neg_nonpos.mpr (Int.natCast_nonneg _)
  | long u bits => cases h_sign

/-- What is accepted fits in 64 bits. -/
theorem toInt_lt (h : value.Accepted true) : value.toInt < 2 ^ 64 := by
  cases value with
  | number n =>
    have h_safe : n.natAbs < 2 ^ 53 := h
    change n < 2 ^ 64
    omega
  | fraction => exact h.elim
  | string text => exact h.2.2
  | long u bits =>
    cases h
    change (bits.toNat : ℤ) < 2 ^ 64
    exact_mod_cast bits.isLt

end LongValue

/-- **The `Long` of an accepted value** is its last 64 bits. Unsigned, a minus sign is refused. -/
theorem longFromValue_eq {σ : Type} {value : LongValue} {unsigned : Bool}
    (h : value.Accepted unsigned) :
    (longFromValue value unsigned : Action σ OerError (BitVec 64)) =
      if unsigned = true ∧ value.isNegative = true then throw (.error "UInt must be positive")
      else pure (BitVec.ofInt 64 value.toInt) := by
  cases value with
  | number n =>
    -- a number is within the range of a `Long`, so that `fromNumber` does not clamp it
    have h_safe : n.natAbs < 2 ^ 53 := h
    unfold longFromValue LongValue.isNegative
    simp only [decide_eq_true_eq]
    split
    · rfl
    · next h_sign =>
      congr 1
      unfold longFromNumber
      cases unsigned with
      | true =>
        have h_nonneg : ¬n < 0 := fun h_neg => h_sign ⟨rfl, h_neg⟩
        rw [if_pos rfl, min_eq_left (by omega), max_eq_right (by omega)]
        rfl
      | false =>
        rw [if_neg Bool.false_ne_true, min_eq_left (by omega), max_eq_right (by omega)]
        rfl
  | fraction => exact h.elim
  | string text =>
    unfold longFromValue LongValue.isNegative
    simp only [decide_eq_true_eq]
    rfl
  | long u bits =>
    cases h
    -- the bits of a `Long` are kept if it has the sign that is asked for
    have h_bits : bits = BitVec.ofInt 64 (LongValue.long unsigned bits).toInt := by
      cases unsigned with
      | true =>
        change bits = BitVec.ofInt 64 (bits.toNat : ℤ)
        rw [BitVec.ofInt_natCast, BitVec.ofNat_toNat, BitVec.setWidth_eq]
      | false => exact BitVec.ofInt_toInt.symm
    rw [← h_bits]
    change (if unsigned ≠ unsigned then _ else pure bits) =
      if unsigned = true ∧ false = true then _ else pure bits
    rw [if_neg (not_not.mpr rfl), if_neg (fun h => Bool.false_ne_true h.2)]

/-! ### Buffers and `Long`s -/

/-- An unsigned `Long` is read off up to eight bytes. -/
theorem bufferToLong_unsigned {σ : Type} {buffer : Buffer} (h : buffer.length ≤ 8) :
    (bufferToLong buffer true : Action σ OerError (BitVec 64)) =
      pure (BitVec.ofNat 64 (Bytes.ofBytes buffer)) := by
  have h_fold : buffer.foldl (fun (sum : BitVec 64) value => sum <<< 8 + BitVec.ofNat 64 value.toNat) 0 =
      BitVec.ofNat 64 (Bytes.ofBytes buffer) := by
    clear h
    induction buffer using List.reverseRecOn with
    | nil => rfl
    | append_singleton buffer b ih =>
      rw [List.foldl_append, ih, List.foldl_cons, List.foldl_nil, Bytes.ofBytes_concat]
      apply BitVec.eq_of_toNat_eq
      simp only [BitVec.toNat_add, BitVec.toNat_shiftLeft, BitVec.toNat_ofNat, Nat.shiftLeft_eq]
      omega
  rw [bufferToLong, if_neg (not_lt.mpr h), if_pos rfl, h_fold]

/-- A signed `Long` is read off up to eight bytes in two's complement. -/
theorem bufferToLong_signed {σ : Type} {buffer : Buffer} (h : buffer.length ≤ 8) :
    (bufferToLong buffer false : Action σ OerError (BitVec 64)) =
      pure (BitVec.ofInt 64 (Bytes.ofSignedBytes buffer)) := by
  -- after the first byte there is no sign
  have h_tail : ∀ (bs : Buffer) (i : ℕ) (n : ℤ), 0 < i →
      (bs.zipIdx i).foldl (fun sum (p : UInt8 × ℕ) => sum * 256 + BitVec.ofInt 64
        (if p.2 = 0 ∧ 0x80 ≤ p.1 then (p.1.toNat : ℤ) - 0x100 else p.1.toNat)) (BitVec.ofInt 64 n) =
        BitVec.ofInt 64 (n * 256 ^ bs.length + Bytes.ofBytes bs) := by
    intro bs
    -- induction on the bytes, with the sum so far
    induction bs with
    | nil =>
      intro i n _
      rw [List.length_nil, pow_zero, mul_one, Bytes.ofBytes_nil, Nat.cast_zero, add_zero]
      rfl
    | cons b bs ih =>
      intro i n hi
      have h_step : BitVec.ofInt 64 n * 256 + BitVec.ofInt 64 b.toNat =
          BitVec.ofInt 64 (n * 256 + b.toNat) := by
        rw [BitVec.ofInt_add, BitVec.ofInt_mul]
        rfl
      rw [List.zipIdx_cons, List.foldl_cons, if_neg (by omega), h_step,
        ih (i + 1) _ (Nat.succ_pos i), Bytes.ofBytes_cons, List.length_cons]
      congr 1
      push_cast
      ring
  -- the first byte carries the sign
  have h_fold : buffer.zipIdx.foldl (fun sum (p : UInt8 × ℕ) => sum * 256 + BitVec.ofInt 64
      (if p.2 = 0 ∧ 0x80 ≤ p.1 then (p.1.toNat : ℤ) - 0x100 else p.1.toNat)) 0 =
      BitVec.ofInt 64 (Bytes.ofSignedBytes buffer) := by
    cases buffer with
    | nil => rfl
    | cons b bs =>
      have h_first : (0 * 256 + BitVec.ofInt 64 (if 0 = 0 ∧ 0x80 ≤ b then (b.toNat : ℤ) - 0x100
          else b.toNat) : BitVec 64) =
          BitVec.ofInt 64 (if 0x80 ≤ b then (b.toNat : ℤ) - 0x100 else b.toNat) := by
        simp only [true_and, zero_mul, zero_add]
      rw [List.zipIdx_cons, List.foldl_cons, h_first, h_tail bs _ _ (by omega),
        Bytes.ofSignedBytes_cons]
  rw [bufferToLong, if_neg (not_lt.mpr h), if_neg Bool.false_ne_true]
  exact congrArg pure h_fold

/-- Up to eight bytes, `longToBuffer` is the encoding of that length. -/
theorem longToBuffer_eq {value : BitVec 64} {k : ℕ} (hk : k ≤ 8) :
    longToBuffer value k = Bytes.toBytes k value.toNat := by
  have h_drop := Bytes.drop_toBytes (8 - k) k value.toNat
  rw [Nat.sub_add_cancel hk] at h_drop
  rw [longToBuffer, sliceFrom, if_pos (by omega), ← h_drop]
  congr 1
  omega

/-- In two's complement, too. -/
theorem longToBuffer_eq_signed {value : BitVec 64} {k : ℕ} (hk : k ≤ 8) :
    longToBuffer value k = Bytes.toSignedBytes k value.toInt := by
  have h_full : Bytes.toSignedBytes 8 value.toInt = Bytes.toBytes 8 value.toNat := by
    have h_width : 256 ^ 8 = 2 ^ 64 := by norm_num
    have h_nat : (value.toInt % (256 ^ 8 : ℕ)).toNat = value.toNat := by
      rw [BitVec.toInt_eq_toNat_bmod, h_width, Int.bmod_emod, ← Int.natCast_emod,
        Int.toNat_natCast, Nat.mod_eq_of_lt value.isLt]
    rw [Bytes.toSignedBytes, h_nat]
  have h_drop := Bytes.drop_toSignedBytes (8 - k) k value.toInt
  rw [Nat.sub_add_cancel hk, h_full] at h_drop
  rw [longToBuffer, sliceFrom, if_pos (by omega), ← h_drop]
  congr 1
  omega

/-- Past eight bytes, the slice starts before the end and is shorter than asked for. -/
theorem length_longToBuffer_of_lt {value : BitVec 64} {k : ℕ} (hk : 8 < k) :
    (longToBuffer value k).length = min 8 (k - 8) := by
  rw [longToBuffer, sliceFrom, if_neg (by omega), List.length_drop, Bytes.length_toBytes]
  omega

/-! ### Shortest encodings -/

/-- The integers that an encoding of `k` bytes holds. -/
def Fits (signed : Bool) (k : ℕ) (n : ℤ) : Prop :=
  if signed then -(256 ^ k) ≤ 2 * n ∧ 2 * n < 256 ^ k else 0 ≤ n ∧ n < 256 ^ k

instance (signed : Bool) (k : ℕ) (n : ℤ) : Decidable (Fits signed k n) := by
  unfold Fits
  infer_instance

/-- A longer encoding holds what a shorter one does. -/
theorem Fits.mono {signed : Bool} {j k : ℕ} {n : ℤ} (h : Fits signed j n) (h_le : j ≤ k) :
    Fits signed k n := by
  have h_pow : (256 : ℤ) ^ j ≤ 256 ^ k := pow_le_pow_right₀ (by norm_num) h_le
  unfold Fits at h ⊢
  cases signed with
  | true =>
    rw [if_pos rfl] at h ⊢
    omega
  | false =>
    rw [if_neg Bool.false_ne_true] at h ⊢
    omega

/-- No shorter encoding holds the integer. -/
structure Shortest (signed : Bool) (k : ℕ) (n : ℤ) : Prop where
  pos : 1 ≤ k
  fits : Fits signed k n
  le : ∀ j, 1 ≤ j → Fits signed j n → k ≤ j

namespace Shortest

variable {signed : Bool} {j k : ℕ} {n : ℤ}

/-- Exactly the lengths from the shortest on hold the integer. -/
theorem le_iff (h : Shortest signed k n) (h_pos : 1 ≤ j) : k ≤ j ↔ Fits signed j n :=
  ⟨h.fits.mono, h.le j h_pos⟩

/-- There is one shortest length. -/
theorem unique (h : Shortest signed j n) (h' : Shortest signed k n) : j = k :=
  Nat.le_antisymm (h.le k h'.pos h'.fits) (h'.le j h.pos h.fits)

end Shortest

/-- The first of a table of sizes that holds an integer is the shortest. -/
theorem shortest_of_find? {signed : Bool} {p : ℕ → Bool} {m i : ℕ} {n : ℤ}
    (hp : ∀ i < m, p i = true ↔ Fits signed (i + 1) n)
    (h : (List.range m).find? p = some i) : Shortest signed (i + 1) n := by
  rw [List.find?_range_eq_some] at h
  obtain ⟨h_found, h_mem, h_before⟩ := h
  have h_lt : i < m := List.mem_range.mp h_mem
  refine ⟨Nat.le_add_left 1 i, (hp i h_lt).mp h_found, fun j h_pos h_fits => ?_⟩
  by_contra h_less
  have h_not := h_before (j - 1) (by omega)
  have h_yes : p (j - 1) = true := (hp (j - 1) (by omega)).mpr (by rwa [Nat.sub_add_cancel h_pos])
  rw [h_yes] at h_not
  exact absurd h_not (by decide)

/-- The limits of the table of unsigned sizes. -/
theorem toNat_uintMax :
    ∀ i < 8, (BitVec.allOnes 64 >>> (64 - 8 * (i + 1))).toNat = 256 ^ (i + 1) - 1 := by
  decide

/-- The limits of the table of signed sizes. -/
theorem toInt_intRange :
    ∀ i < 8, ((BitVec.intMin 64).sshiftRight (64 - 8 * (i + 1))).toInt * 2 = -(256 ^ (i + 1)) ∧
      ((BitVec.intMax 64).sshiftRight (64 - 8 * (i + 1))).toInt * 2 = 256 ^ (i + 1) - 2 := by
  decide +kernel

/-- **Sizes of unsigned `Long`s.** The table always has an entry, and it is the shortest. -/
theorem getLongUIntBufferSize_eq {σ : Type} (value : BitVec 64) :
    ∃ k ≤ 8, (getLongUIntBufferSize value : Action σ OerError ℕ) = pure k ∧
      Shortest false k value.toNat := by
  have hp : ∀ i < 8, decide (value ≤ BitVec.allOnes 64 >>> (64 - 8 * (i + 1))) = true ↔
      Fits false (i + 1) value.toNat := by
    intro i hi
    have h_pos : 0 < 256 ^ (i + 1) := Nat.pow_pos (by omega)
    rw [decide_eq_true_iff, BitVec.le_def, toNat_uintMax i hi, Fits, if_neg Bool.false_ne_true]
    norm_cast
    omega
  rw [getLongUIntBufferSize, longVarUIntSizes, List.find?_map]
  cases h_find : (List.range 8).find? _ with
  | none =>
    -- eight bytes hold every Long
    have h_last := List.find?_eq_none.mp h_find 7 (by decide)
    exact absurd ((hp 7 (by omega)).mpr ⟨by omega, by have := value.isLt; norm_num; omega⟩) h_last
  | some i =>
    have h_lt : i < 8 := List.mem_range.mp (List.mem_of_find?_eq_some h_find)
    exact ⟨i + 1, h_lt, rfl, shortest_of_find? hp h_find⟩

/-- **Sizes of signed `Long`s.** -/
theorem getLongIntBufferSize_eq {σ : Type} (value : BitVec 64) :
    ∃ k ≤ 8, (getLongIntBufferSize value : Action σ OerError ℕ) = pure k ∧
      Shortest true k value.toInt := by
  have hp : ∀ i < 8, (((BitVec.intMin 64).sshiftRight (64 - 8 * (i + 1))).sle value &&
      value.sle ((BitVec.intMax 64).sshiftRight (64 - 8 * (i + 1)))) = true ↔
      Fits true (i + 1) value.toInt := by
    intro i hi
    obtain ⟨h_min, h_max⟩ := toInt_intRange i hi
    rw [Bool.and_eq_true, BitVec.sle_iff_toInt_le, BitVec.sle_iff_toInt_le, Fits, if_pos rfl]
    omega
  rw [getLongIntBufferSize, longVarIntSizes, List.find?_map]
  cases h_find : (List.range 8).find? _ with
  | none =>
    have h_last := List.find?_eq_none.mp h_find 7 (by decide)
    have h_low := value.le_two_mul_toInt
    have h_high := value.two_mul_toInt_lt
    exact absurd ((hp 7 (by omega)).mpr ⟨by norm_num at *; omega, by norm_num at *; omega⟩) h_last
  | some i =>
    have h_lt : i < 8 := List.mem_range.mp (List.mem_of_find?_eq_some h_find)
    exact ⟨i + 1, h_lt, rfl, shortest_of_find? hp h_find⟩

/-- The table of sizes of unsigned numbers. -/
theorem varUIntSizes_eq :
    varUIntSizes = (List.range 6).map fun i => ⟨0, 256 ^ (i + 1) - 1, i + 1⟩ := by
  decide +kernel

/-- The table of sizes of signed numbers. -/
theorem varIntSizes_eq :
    varIntSizes = (List.range 6).map fun i =>
      ⟨-(256 ^ (i + 1) / 2), 256 ^ (i + 1) / 2 - 1, i + 1⟩ := by
  decide +kernel

/-- The unsigned `Long` of a number that fits. -/
theorem toNat_longFromNumber {n : ℤ} (h_nonneg : 0 ≤ n) (h_lt : n < 2 ^ 64) :
    ((longFromNumber n true).toNat : ℤ) = n := by
  rw [longFromNumber, if_pos rfl, min_eq_left (by omega), max_eq_right h_nonneg, BitVec.toNat_ofInt,
    Int.toNat_of_nonneg (Int.emod_nonneg _ (by norm_num)),
    Int.emod_eq_of_lt h_nonneg (by exact_mod_cast h_lt)]

/-- The signed `Long` of a number that fits. -/
theorem toInt_longFromNumber {n : ℤ} (h_low : -2 ^ 63 ≤ n) (h_high : n < 2 ^ 63) :
    (longFromNumber n false).toInt = n := by
  rw [longFromNumber, if_neg Bool.false_ne_true, min_eq_left (by omega), max_eq_right h_low,
    BitVec.toInt_ofInt_eq_self (by omega) (by exact_mod_cast h_low) (by exact_mod_cast h_high)]

/-- The hexadecimal digits of a number between two powers of 16. -/
theorem length_toDigits_eq {k n : ℕ} (h_low : 16 ^ k ≤ n) (h_high : n < 16 ^ (k + 1)) (hk : 0 < k) :
    (Nat.toDigits 16 n).length = k + 1 := by
  have h_le := (Nat.length_toDigits_le_iff (b := 16) (by omega) (Nat.succ_pos k)).mpr h_high
  have h_gt := (Nat.length_toDigits_le_iff (n := n) (b := 16) (by omega) hk).not.mpr (by omega)
  omega

/-- **Sizes of numbers.** Seven bytes hold the numbers that need more than six. -/
theorem shortest_getUIntBufferSize {n : ℤ} (h_nonneg : 0 ≤ n) (h_safe : n < 2 ^ 53) :
    Shortest false (getUIntBufferSize n) n := by
  have hp : ∀ i < 6, decide (n ≤ 256 ^ (i + 1) - 1) = true ↔ Fits false (i + 1) n := by
    intro i hi
    rw [decide_eq_true_iff, Fits, if_neg Bool.false_ne_true]
    omega
  rw [getUIntBufferSize, varUIntSizes_eq, List.find?_map]
  cases h_find : (List.range 6).find? _ with
  | none =>
    have h_none := List.find?_eq_none.mp h_find
    have h_large : ¬Fits false 6 n := (hp 5 (by omega)).not.mp (h_none 5 (by decide))
    have h_size : computeLongBufferSize (longFromNumber n true).toNat = 7 := by
      rw [toNat_longFromNumber h_nonneg (by omega), computeLongBufferSize, hexLength,
        if_neg (by omega)]
      rw [Fits, if_neg Bool.false_ne_true] at h_large
      -- 13 or 14 digits
      by_cases h_digits : n.natAbs < 16 ^ 13
      · rw [length_toDigits_eq (k := 12) (by omega) h_digits (by omega)]
      · rw [length_toDigits_eq (k := 13) (by omega) (by omega) (by omega)]
    change Shortest false (computeLongBufferSize (longFromNumber n true).toNat) n
    rw [h_size]
    refine ⟨by omega, ?_, fun j h_pos h_fits => ?_⟩
    · rw [Fits, if_neg Bool.false_ne_true]
      omega
    · by_contra h_less
      exact h_none (j - 1) (List.mem_range.mpr (by omega))
        ((hp (j - 1) (by omega)).mpr (by rwa [Nat.sub_add_cancel h_pos]))
  | some i => exact shortest_of_find? hp h_find

/-- A negative number is given one byte, which does not hold it. -/
theorem getUIntBufferSize_of_neg {n : ℤ} (h : n < 0) : getUIntBufferSize n = 1 := by
  have h_first : decide (n ≤ 256 ^ (0 + 1) - 1) = true := decide_eq_true (by omega)
  rw [getUIntBufferSize, varUIntSizes_eq, List.find?_map]
  have h_find : (List.range 6).find? ((fun item : NumberSizeRange => decide (n ≤ item.max)) ∘
      fun i => ⟨0, 256 ^ (i + 1) - 1, i + 1⟩) = some 0 := by
    rw [List.find?_range_eq_some]
    exact ⟨h_first, by decide, fun j hj => absurd hj (Nat.not_lt_zero j)⟩
  rw [h_find]
  rfl

/-- Within the table, the size of a signed number is the shortest. Beyond it, the sign is a digit of
the hexadecimal text and the size depends on it. -/
theorem getIntBufferSize_cases {n : ℤ} (h_safe : n.natAbs < 2 ^ 53) :
    Fits true 6 n ∧ Shortest true (getIntBufferSize n) n ∨
      ¬Fits true 6 n ∧ (∀ j, 1 ≤ j → Fits true j n → 7 ≤ j) ∧ getIntBufferSize n =
        if 0 ≤ n ∧ n < 2 ^ 48 then 6 else if n ≤ -2 ^ 52 then 8 else 7 := by
  -- each of the six sizes is tried in turn
  have hp : ∀ i < 6, (decide (-(256 ^ (i + 1) / 2) ≤ n) && decide (n ≤ 256 ^ (i + 1) / 2 - 1)) = true ↔
      Fits true (i + 1) n := by
    intro i hi
    have h_even : (256 : ℤ) ^ (i + 1) = 2 * (128 * 256 ^ i) := by ring
    rw [Bool.and_eq_true, decide_eq_true_iff, decide_eq_true_iff, Fits, if_pos rfl, h_even]
    omega
  rw [getIntBufferSize, varIntSizes_eq, List.find?_map]
  cases h_find : (List.range 6).find? _ with
  | none =>
    have h_none := List.find?_eq_none.mp h_find
    -- none of them holds the number
    have h_large : ¬Fits true 6 n := (hp 5 (by omega)).not.mp (h_none 5 (by decide))
    refine .inr ⟨h_large, fun j h_pos h_fits => ?_, ?_⟩
    · by_contra h_less
      exact h_none (j - 1) (List.mem_range.mpr (by omega))
        ((hp (j - 1) (by omega)).mpr (by rwa [Nat.sub_add_cancel h_pos]))
    · change computeLongBufferSize (longFromNumber n false).toInt = _
      rw [toInt_longFromNumber (by omega) (by omega), computeLongBufferSize, hexLength]
      rw [Fits, if_pos rfl] at h_large
      -- 12, 13 or 14 digits, and the sign
      by_cases h_twelve : n.natAbs < 16 ^ 12
      · rw [length_toDigits_eq (k := 11) (by omega) h_twelve (by omega)]
        split_ifs <;> omega
      · by_cases h_thirteen : n.natAbs < 16 ^ 13
        · rw [length_toDigits_eq (k := 12) (by omega) h_thirteen (by omega)]
          split_ifs <;> omega
        · rw [length_toDigits_eq (k := 13) (by omega) (by omega) (by omega)]
          split_ifs <;> omega
  | some i =>
    have h_lt : i < 6 := List.mem_range.mp (List.mem_of_find?_eq_some h_find)
    have h_short := shortest_of_find? hp h_find
    have h_fits := h_short.fits
    refine .inl ⟨?_, h_short⟩
    -- what fits in fewer bytes fits in six
    have h_mono : (256 : ℤ) ^ (i + 1) ≤ 256 ^ 6 := pow_le_pow_right₀ (by norm_num) (by omega)
    rw [Fits, if_pos rfl] at h_fits ⊢
    omega

/-- **Sizes of signed numbers** are the shortest, but for the numbers of 48 bits without a sign, which
are given a byte too few, and those at the negative end of the safe range, which are given one too
many. -/
theorem shortest_getIntBufferSize_iff {n : ℤ} (h_safe : n.natAbs < 2 ^ 53) :
    Shortest true (getIntBufferSize n) n ↔ ¬(2 ^ 47 ≤ n ∧ n < 2 ^ 48) ∧ -2 ^ 52 < n := by
  rcases getIntBufferSize_cases h_safe with ⟨h_fits, h_short⟩ | ⟨h_large, h_least, h_size⟩
  · refine iff_of_true h_short ?_
    rw [Fits, if_pos rfl] at h_fits
    omega
  · have h_seven : Fits true 7 n := by
      rw [Fits, if_pos rfl]
      omega
    have h_short : Shortest true 7 n := ⟨by omega, h_seven, h_least⟩
    have h_iff : Shortest true (getIntBufferSize n) n ↔ getIntBufferSize n = 7 :=
      ⟨fun h => h.unique h_short, fun h => h ▸ h_short⟩
    rw [h_iff, h_size]
    rw [Fits, if_pos rfl] at h_large
    split_ifs <;> omega

example : getIntBufferSize (2 ^ 47) = 6 := by decide +kernel

end Interledger.Oer
