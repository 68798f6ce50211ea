import Interledger.Lib.Calendar
import Interledger.Lib.Text
import Interledger.Oer.Util
import Mathlib.Data.Rat.Floor
import Mathlib.Data.List.TakeWhile

/-!
# The times of ILP packets

`ilp-packet/src/utils/date.ts`: an instant as the 17 characters of a Prepare and back. The decoder takes
any texts that `Number` takes for the parts of the time, and parts out of their range run on into the
next, as `Date.UTC` does. The encoder pads every part but the year.

## Main results

* `interledgerTimeToDate_dateToInterledgerTime` — a time with a year of four characters is read back,
  unless it is the epoch;
* `length_dateToInterledgerTime` — the length of a time is that of its year and 13.
-/

namespace Interledger.IlpPacket

open Oer (OerError)

/-- `Date`, whose time value is a number of milliseconds in the range of the language. Dates without one
are none of the type. -/
structure Date where
  time : ℤ
  inRange : time.natAbs ≤ 8640000000000000
  deriving DecidableEq

/-! ### Numbers in texts -/

/-- The white space and line ends that `Number` ignores around a number, as far as they are ASCII. -/
def isSpace (c : Char) : Bool := c = ' ' || ('\t' ≤ c && c ≤ '\r')

/-- The text without the white space around it. -/
def trim (text : List Char) : List Char := ((text.dropWhile isSpace).reverse.dropWhile isSpace).reverse

/-- A digit of a base up to 16. -/
def digitValue (c : Char) : ℕ :=
  if c.isDigit then c.toNat - '0'.toNat
  else if 'a' ≤ c && c ≤ 'f' then c.toNat - 'a'.toNat + 10
  else if 'A' ≤ c && c ≤ 'F' then c.toNat - 'A'.toNat + 10
  else 16

/-- A whole number with the prefix of its base taken off. -/
def radixNumber (base : ℕ) (digits : List Char) : Option ℚ :=
  if digits ≠ [] && digits.all (digitValue · < base) then
    some (digits.foldl (fun n c => base * n + digitValue c) 0 : ℕ)
  else none

/-- The sign and the rest of a text. -/
def splitSign : List Char → ℤ × List Char
  | '-' :: text => (-1, text)
  | '+' :: text => (1, text)
  | text => (1, text)

/-- The exponent of a decimal number, from its `e` on. -/
def exponent : List Char → Option ℤ
  | [] => some 0
  | _ :: text =>
    let (sign, digits) := splitSign text
    if digits ≠ [] && digits.all Char.isDigit then some (sign * (Nat.ofDigitChars 10 digits 0 : ℕ))
    else none

/-- A decimal number. `Infinity` is longer than the parts of a time. -/
def decimalNumber (text : List Char) : Option ℚ := do
  let (sign, unsigned) := splitSign text
  let (mantissa, tail) := unsigned.span fun c => c ≠ 'e' && c ≠ 'E'
  let (whole, point) := mantissa.span (· ≠ '.')
  let fraction := point.drop 1
  let power ← exponent tail
  if (whole ++ fraction) ≠ [] && (whole ++ fraction).all Char.isDigit then
    some (sign * (Nat.ofDigitChars 10 (whole ++ fraction) 0 : ℕ) / 10 ^ fraction.length * 10 ^ power)
  else none

/-- `Number`, of a text; `none` is `NaN`. -/
def toNumber (text : List Char) : Option ℚ :=
  match trim text with
  | [] => some 0
  | '0' :: 'x' :: digits => radixNumber 16 digits
  | '0' :: 'X' :: digits => radixNumber 16 digits
  | '0' :: 'o' :: digits => radixNumber 8 digits
  | '0' :: 'O' :: digits => radixNumber 8 digits
  | '0' :: 'b' :: digits => radixNumber 2 digits
  | '0' :: 'B' :: digits => radixNumber 2 digits
  | text => decimalNumber text

/-! ### `Date` -/

/-- `ToIntegerOrInfinity`. -/
def truncate (q : ℚ) : ℤ := q.num.tdiv q.den

/-- `TimeClip`. -/
def timeClip (time : ℤ) : Option Date :=
  if h : time.natAbs ≤ 8640000000000000 then some ⟨time, h⟩ else none

/-- The milliseconds of a day. -/
def msPerDay : ℤ := 86400000

/-- `Date.UTC`. A year of up to two digits is one of the twentieth century. -/
def dateUTC (year month date hours minutes seconds ms : ℚ) : Option Date :=
  let y := truncate year
  let fullYear := if 0 ≤ y ∧ y ≤ 99 then 1900 + y else y
  let day := Calendar.makeDay fullYear (truncate month) (truncate date)
  timeClip (day * msPerDay + (truncate hours * 3600000 + truncate minutes * 60000 +
    truncate seconds * 1000 + truncate ms))

namespace Date

variable (date : Date)

/-- The day of a time. -/
def day : ℤ := date.time / msPerDay

/-- The milliseconds since the day began. -/
def timeWithinDay : ℕ := (date.time % msPerDay).toNat

/-- `getUTCFullYear`. -/
def getUTCFullYear : ℤ := Calendar.yearFromDay date.day

/-- `getUTCMonth`. -/
def getUTCMonth : ℕ := Calendar.monthFromDay date.day

/-- `getUTCDate`. -/
def getUTCDate : ℕ := (Calendar.dateFromDay date.day).toNat

/-- `getUTCHours`. -/
def getUTCHours : ℕ := date.timeWithinDay / 3600000

/-- `getUTCMinutes`. -/
def getUTCMinutes : ℕ := date.timeWithinDay / 60000 % 60

/-- `getUTCSeconds`. -/
def getUTCSeconds : ℕ := date.timeWithinDay / 1000 % 60

/-- `getUTCMilliseconds`. -/
def getUTCMilliseconds : ℕ := date.timeWithinDay % 1000

end Date

/-! ### Times -/

/-- `pad`. -/
def pad (n : ℕ) : String := if n < 10 then "0" ++ toString n else toString n

/-- `(ms / 1000).toFixed(3).slice(2, 5)`: the three decimals of a fraction. -/
def toFixedDecimals (ms : ℕ) : String :=
  if ms < 10 then "00" ++ toString ms else if ms < 100 then "0" ++ toString ms else toString ms

/-- `dateToInterledgerTime`. -/
def dateToInterledgerTime (date : Date) : String :=
  toString date.getUTCFullYear ++ pad (date.getUTCMonth + 1) ++ pad date.getUTCDate ++
    pad date.getUTCHours ++ pad date.getUTCMinutes ++ pad date.getUTCSeconds ++
    toFixedDecimals date.getUTCMilliseconds

/-- `INTERLEDGER_TIME_LENGTH`. -/
def interledgerTimeLength : ℕ := 17

/-- `String.prototype.slice(start, end)`. -/
def slice (text : List Char) (start stop : ℕ) : List Char := (text.take stop).drop start

/-- The date of the parts of a time. -/
def dateOfParts (time : List Char) : Option Date := do
  let year ← toNumber (slice time 0 4)
  let month ← toNumber (slice time 4 6)
  let date ← toNumber (slice time 6 8)
  let hours ← toNumber (slice time 8 10)
  let minutes ← toNumber (slice time 10 12)
  let seconds ← toNumber (slice time 12 14)
  let ms ← toNumber (slice time 14 17)
  dateUTC year (month - 1) date hours minutes seconds ms

/-- `interledgerTimeToDate`. A time value of zero is taken for an invalid date. -/
def interledgerTimeToDate (interledgerTime : String) : Except OerError Date :=
  match dateOfParts interledgerTime.toList with
  | some date => if date.time = 0 then .error (.error "invalid date") else .ok date
  | none => .error (.error "invalid date")

/-! ### Reading digits -/

section Digits

variable {digits : List Char}

/-- Digits are digits, and nothing else that the number grammar knows. -/
theorem ne_of_isDigit {c d : Char} (h : c.isDigit = true) (hd : d.isDigit = false) : c ≠ d := by
  rintro rfl
  rw [h] at hd
  cases hd

theorem isSpace_of_isDigit {c : Char} (h : c.isDigit = true) : isSpace c = false := by
  have h_range : '0'.toNat ≤ c.toNat ∧ c.toNat ≤ '9'.toNat := by
    rw [Char.isDigit, Bool.and_eq_true, decide_eq_true_iff, decide_eq_true_iff] at h
    exact h
  have h_space : c ≠ ' ' := ne_of_isDigit h (by decide)
  have h_return : ¬c ≤ '\r' := fun h_le => by
    have h_code : c.toNat ≤ '\r'.toNat := h_le
    exact absurd (h_range.1.trans h_code) (by decide)
  rw [isSpace, decide_eq_false h_space, decide_eq_false h_return, Bool.and_false, Bool.false_or]

theorem trim_eq {text : List Char} (h : ∀ c ∈ text, isSpace c = false) : trim text = text := by
  have h_head (l : List Char) (hl : ∀ c ∈ l, isSpace c = false) : l.dropWhile isSpace = l := by
    cases l with
    | nil => rfl
    | cons c l => rw [List.dropWhile_cons_of_neg (by rw [hl c List.mem_cons_self]; exact Bool.false_ne_true)]
  rw [trim, h_head text h, h_head text.reverse fun c hc => h c (List.mem_reverse.mp hc), List.reverse_reverse]

/-- A text that is all of one kind is not split. -/
theorem span_eq {p : Char → Bool} {text : List Char} (h : ∀ c ∈ text, p c = true) :
    text.span p = (text, []) := by
  rw [List.span_eq_takeWhile_dropWhile, List.takeWhile_eq_self_iff.mpr h, List.dropWhile_eq_nil_iff.mpr h]

/-- The characters with a meaning in a number, besides the digits and the white space around it. -/
def numberMarks : List Char := "+-.eExXoObB".toList

/-- A character that is no such mark. Not every one is a digit. -/
def IsPlain (c : Char) : Prop := isSpace c = false ∧ c ∉ numberMarks

instance (c : Char) : Decidable (IsPlain c) := inferInstanceAs (Decidable (_ ∧ _))

theorem isPlain_of_isDigit {c : Char} (h : c.isDigit = true) : IsPlain c := by
  have h_marks : numberMarks.all (fun mark => !mark.isDigit) = true := by decide
  refine ⟨isSpace_of_isDigit h, fun h_mem => ?_⟩
  have h_mark := List.all_eq_true.mp h_marks c h_mem
  rw [h] at h_mark
  cases h_mark

/-- A decimal number without a fraction or an exponent. -/
theorem decimalNumber_plain {sign : ℤ} (text : List Char) (h_split : splitSign text = (sign, digits))
    (h : ∀ c ∈ digits, IsPlain c) :
    decimalNumber text =
      if digits ≠ [] && digits.all Char.isDigit then
        some ((sign * (Nat.ofDigitChars 10 digits 0 : ℕ) : ℤ) : ℚ)
      else none := by
  have h_ne (c : Char) (hc : c ∈ digits) (mark : Char) (h_mark : mark ∈ numberMarks) : c ≠ mark :=
    fun h_eq => (h c hc).2 (h_eq ▸ h_mark)
  have h_mantissa : digits.span (fun c => c ≠ 'e' && c ≠ 'E') = (digits, []) := by
    refine span_eq fun c hc => Bool.and_eq_true_iff.mpr ⟨?_, ?_⟩
    · exact decide_eq_true (h_ne c hc 'e' (by decide))
    · exact decide_eq_true (h_ne c hc 'E' (by decide))
  have h_whole : digits.span (fun c => decide (c ≠ '.')) = (digits, []) :=
    span_eq fun c hc => decide_eq_true (h_ne c hc '.' (by decide))
  rw [decimalNumber, h_split]
  simp only [h_mantissa, h_whole, exponent, List.drop_nil, List.append_nil]
  rw [Option.bind_eq_bind, Option.bind_some, List.length_nil, pow_zero, div_one, zpow_zero, mul_one]
  push_cast
  rfl

/-- A whole decimal number. -/
theorem decimalNumber_digits {sign : ℤ} (text : List Char) (h_split : splitSign text = (sign, digits))
    (h_ne : digits ≠ []) (h : ∀ c ∈ digits, c.isDigit = true) :
    decimalNumber text = some ((sign * (Nat.ofDigitChars 10 digits 0 : ℕ) : ℤ) : ℚ) := by
  have h_digits : (digits ≠ [] && digits.all Char.isDigit) = true :=
    Bool.and_eq_true_iff.mpr ⟨decide_eq_true h_ne, List.all_eq_true.mpr h⟩
  rw [decimalNumber_plain text h_split fun c hc => isPlain_of_isDigit (h c hc), if_pos h_digits]

/-- **A text of plain characters** is a number if all of them are digits. -/
theorem toNumber_plain (h_ne : digits ≠ []) (h : ∀ c ∈ digits, IsPlain c) :
    toNumber digits =
      if digits.all Char.isDigit then some ((Nat.ofDigitChars 10 digits 0 : ℕ) : ℚ) else none := by
  have h_trim := trim_eq fun c hc => (h c hc).1
  have h_split : splitSign digits = (1, digits) := by
    unfold splitSign
    split
    · next text => exact absurd (by decide) (h '-' List.mem_cons_self).2
    · next text => exact absurd (by decide) (h '+' List.mem_cons_self).2
    · rfl
  have h_decimal := decimalNumber_plain digits h_split h
  rw [one_mul, decide_eq_true h_ne, Bool.true_and] at h_decimal
  have h_second (c : Char) (hc : c ∈ numberMarks) (text : List Char) : digits ≠ '0' :: c :: text := by
    rintro rfl
    exact (h c (List.mem_cons_of_mem _ List.mem_cons_self)).2 hc
  rw [toNumber, h_trim]
  split
  · exact absurd rfl h_ne
  · next text => exact absurd rfl (h_second 'x' (by decide) text)
  · next text => exact absurd rfl (h_second 'X' (by decide) text)
  · next text => exact absurd rfl (h_second 'o' (by decide) text)
  · next text => exact absurd rfl (h_second 'O' (by decide) text)
  · next text => exact absurd rfl (h_second 'b' (by decide) text)
  · next text => exact absurd rfl (h_second 'B' (by decide) text)
  · exact_mod_cast h_decimal

/-- **A number in digits**, leading zeros included. -/
theorem toNumber_digits (h_ne : digits ≠ []) (h : ∀ c ∈ digits, c.isDigit = true) :
    toNumber digits = some ((Nat.ofDigitChars 10 digits 0 : ℕ) : ℚ) := by
  rw [toNumber_plain h_ne fun c hc => isPlain_of_isDigit (h c hc), if_pos (List.all_eq_true.mpr h)]

/-- A text with a character that is neither is no number. -/
theorem toNumber_eq_none {c : Char} (h : ∀ c ∈ digits, IsPlain c) (h_mem : c ∈ digits)
    (hc : c.isDigit = false) : toNumber digits = none := by
  have h_all : ¬digits.all Char.isDigit = true := by
    intro h_all
    rw [List.all_eq_true.mp h_all c h_mem] at hc
    cases hc
  rw [toNumber_plain (List.ne_nil_of_mem h_mem) h, if_neg h_all]

/-- A negative one. -/
theorem toNumber_neg_digits (h_ne : digits ≠ []) (h : ∀ c ∈ digits, c.isDigit = true) :
    toNumber ('-' :: digits) = some ((-(Nat.ofDigitChars 10 digits 0 : ℕ) : ℤ) : ℚ) := by
  have h_trim : trim ('-' :: digits) = '-' :: digits := by
    apply trim_eq
    intro c hc
    rcases List.mem_cons.mp hc with rfl | hc
    · rfl
    · exact isSpace_of_isDigit (h c hc)
  have h_decimal := decimalNumber_digits ('-' :: digits) rfl h_ne h
  rw [neg_one_mul] at h_decimal
  rw [toNumber, h_trim]
  exact h_decimal

end Digits

/-- **An integer is read back from its text.** -/
theorem toNumber_toString (n : ℤ) : toNumber (toString n).toList = some (n : ℚ) := by
  have h_digits (m : ℕ) : ∀ c ∈ Nat.toDigits 10 m, c.isDigit = true := fun c hc =>
    Nat.isDigit_of_mem_toDigits (by omega) le_rfl hc
  rw [Int.toString_eq_repr, Int.repr_eq_if]
  by_cases h : 0 ≤ n
  · rw [if_pos h, Nat.toList_repr, toNumber_digits Nat.toDigits_ne_nil (h_digits _),
      Nat.ofDigitChars_ten_toDigits]
    exact_mod_cast congrArg (fun m : ℤ => some (m : ℚ)) (Int.toNat_of_nonneg h)
  · rw [if_neg h, String.toList_append, Nat.toList_repr]
    change toNumber ('-' :: Nat.toDigits 10 (-n).toNat) = _
    rw [toNumber_neg_digits Nat.toDigits_ne_nil (h_digits _), Nat.ofDigitChars_ten_toDigits,
      Int.toNat_of_nonneg (by omega), neg_neg]

/-- Leading zeros do not count. -/
theorem toNumber_zeros (k n : ℕ) :
    toNumber (List.replicate k '0' ++ Nat.toDigits 10 n) = some ((n : ℤ) : ℚ) := by
  have h_ne : List.replicate k '0' ++ Nat.toDigits 10 n ≠ [] :=
    List.append_ne_nil_of_right_ne_nil _ Nat.toDigits_ne_nil
  rw [toNumber_digits h_ne, Nat.ofDigitChars_append, Nat.ofDigitChars_replicate_zero, Nat.mul_zero,
    Nat.ofDigitChars_ten_toDigits]
  · norm_cast
  · intro c hc
    rcases List.mem_append.mp hc with h_zero | h_digit
    · rw [List.eq_of_mem_replicate h_zero]
      rfl
    · exact Nat.isDigit_of_mem_toDigits (by omega) le_rfl h_digit

/-- A number of so many digits. -/
theorem length_toDigits {k n : ℕ} (h_low : 10 ^ k ≤ n) (h_high : n < 10 ^ (k + 1)) (hk : 0 < k) :
    (Nat.toDigits 10 n).length = k + 1 := by
  have h_le := (Nat.length_toDigits_le_iff (b := 10) (by omega) (Nat.succ_pos k)).mpr h_high
  have h_gt := (Nat.length_toDigits_le_iff (n := n) (b := 10) (by omega) hk).not.mpr (by omega)
  omega

theorem length_toDigits_one {n : ℕ} (h : n < 10) : (Nat.toDigits 10 n).length = 1 := by
  rw [Nat.toDigits_of_lt_base h]
  rfl

/-- A part of two characters. -/
theorem pad_spec {n : ℕ} (h : n < 100) :
    (pad n).toList.length = 2 ∧ toNumber (pad n).toList = some ((n : ℤ) : ℚ) := by
  unfold pad
  split
  · next h_one =>
    have h_text : ("0" ++ toString n).toList = List.replicate 1 '0' ++ Nat.toDigits 10 n := by
      rw [String.toList_append, Nat.toString_eq_repr, Nat.toList_repr]
      rfl
    rw [h_text, toNumber_zeros, List.length_append, length_toDigits_one h_one]
    exact ⟨rfl, rfl⟩
  · next h_two =>
    rw [Nat.toString_eq_repr, Nat.toList_repr]
    exact ⟨length_toDigits (k := 1) (by omega) (by omega) (by omega), toNumber_zeros 0 n⟩

/-- The part of three characters. -/
theorem toFixedDecimals_spec {n : ℕ} (h : n < 1000) :
    (toFixedDecimals n).toList.length = 3 ∧
      toNumber (toFixedDecimals n).toList = some ((n : ℤ) : ℚ) := by
  unfold toFixedDecimals
  split
  · next h_one =>
    have h_text : ("00" ++ toString n).toList = List.replicate 2 '0' ++ Nat.toDigits 10 n := by
      rw [String.toList_append, Nat.toString_eq_repr, Nat.toList_repr]
      rfl
    rw [h_text, toNumber_zeros, List.length_append, length_toDigits_one h_one]
    exact ⟨rfl, rfl⟩
  · split
    · next h_one h_two =>
      have h_text : ("0" ++ toString n).toList = List.replicate 1 '0' ++ Nat.toDigits 10 n := by
        rw [String.toList_append, Nat.toString_eq_repr, Nat.toList_repr]
        rfl
      rw [h_text, toNumber_zeros, List.length_append,
        length_toDigits (k := 1) (by omega) (by omega) (by omega)]
      exact ⟨rfl, rfl⟩
    · next h_one h_two =>
      rw [Nat.toString_eq_repr, Nat.toList_repr]
      exact ⟨length_toDigits (k := 2) (by omega) (by omega) (by omega), toNumber_zeros 0 n⟩

/-! ### Reading back a time -/

namespace Date

variable (date : Date)

theorem timeWithinDay_lt : date.timeWithinDay < 86400000 := by
  unfold timeWithinDay msPerDay
  omega

theorem getUTCHours_lt : date.getUTCHours < 24 := by
  have h := date.timeWithinDay_lt
  unfold getUTCHours
  omega

theorem getUTCDate_bounds : 1 ≤ date.getUTCDate ∧ date.getUTCDate ≤ 31 := by
  have h := Calendar.dateFromDay_bounds date.day
  unfold getUTCDate
  omega

/-- The time of the day, by its parts. -/
theorem timeWithinDay_eq : date.getUTCHours * 3600000 + date.getUTCMinutes * 60000 +
    date.getUTCSeconds * 1000 + date.getUTCMilliseconds = date.timeWithinDay := by
  unfold getUTCHours getUTCMinutes getUTCSeconds getUTCMilliseconds
  omega

/-- **The parts of a time make it up again**, unless the year is taken for one of two digits. -/
theorem dateUTC_parts (h_year : ¬(0 ≤ date.getUTCFullYear ∧ date.getUTCFullYear ≤ 99)) :
    dateUTC (date.getUTCFullYear : ℤ) (((date.getUTCMonth + 1 : ℕ) : ℤ) - 1) (date.getUTCDate : ℤ)
      (date.getUTCHours : ℤ) (date.getUTCMinutes : ℤ) (date.getUTCSeconds : ℤ)
      (date.getUTCMilliseconds : ℤ) = some date := by
  have h_truncate (n : ℤ) : truncate n = n := by
    rw [truncate, Rat.num_intCast, Rat.den_intCast]
    exact Int.tdiv_one n
  have h_month : (((date.getUTCMonth + 1 : ℕ) : ℤ) - 1 : ℚ) = ((date.getUTCMonth : ℤ) : ℚ) := by
    push_cast
    ring
  have h_date : (date.getUTCDate : ℤ) = Calendar.dateFromDay date.day :=
    Int.toNat_of_nonneg (by have := Calendar.dateFromDay_bounds date.day; omega)
  have h_time : date.day * msPerDay + ((date.getUTCHours : ℤ) * 3600000 + (date.getUTCMinutes : ℤ) * 60000 +
      (date.getUTCSeconds : ℤ) * 1000 + (date.getUTCMilliseconds : ℤ)) = date.time := by
    have h_parts := date.timeWithinDay_eq
    unfold timeWithinDay day msPerDay at *
    omega
  rw [h_month, dateUTC]
  simp only [h_truncate]
  rw [if_neg h_year, h_date, getUTCFullYear, getUTCMonth, Calendar.civil_inverse, h_time, timeClip,
    dif_pos date.inRange]

end Date

/-- The parts of a time but the year, each of its width and read back. -/
theorem parts_spec (date : Date) :
    ((pad (date.getUTCMonth + 1)).toList.length = 2 ∧ (pad date.getUTCDate).toList.length = 2 ∧
      (pad date.getUTCHours).toList.length = 2 ∧ (pad date.getUTCMinutes).toList.length = 2 ∧
      (pad date.getUTCSeconds).toList.length = 2 ∧
      (toFixedDecimals date.getUTCMilliseconds).toList.length = 3) ∧
    toNumber (pad (date.getUTCMonth + 1)).toList = some (((date.getUTCMonth + 1 : ℕ) : ℤ) : ℚ) ∧
      toNumber (pad date.getUTCDate).toList = some ((date.getUTCDate : ℤ) : ℚ) ∧
      toNumber (pad date.getUTCHours).toList = some ((date.getUTCHours : ℤ) : ℚ) ∧
      toNumber (pad date.getUTCMinutes).toList = some ((date.getUTCMinutes : ℤ) : ℚ) ∧
      toNumber (pad date.getUTCSeconds).toList = some ((date.getUTCSeconds : ℤ) : ℚ) ∧
      toNumber (toFixedDecimals date.getUTCMilliseconds).toList =
        some ((date.getUTCMilliseconds : ℤ) : ℚ) := by
  have h_month : date.getUTCMonth < 12 := Calendar.monthFromDay_lt date.day
  have h_date := date.getUTCDate_bounds
  have h_hours := date.getUTCHours_lt
  have h_minutes : date.getUTCMinutes < 60 := Nat.mod_lt _ (by omega)
  have h_seconds : date.getUTCSeconds < 60 := Nat.mod_lt _ (by omega)
  have h_ms : date.getUTCMilliseconds < 1000 := Nat.mod_lt _ (by omega)
  obtain ⟨h_month_length, h_month_value⟩ := pad_spec (n := date.getUTCMonth + 1) (by omega)
  obtain ⟨h_date_length, h_date_value⟩ := pad_spec (n := date.getUTCDate) (by omega)
  obtain ⟨h_hours_length, h_hours_value⟩ := pad_spec (n := date.getUTCHours) (by omega)
  obtain ⟨h_minutes_length, h_minutes_value⟩ := pad_spec (n := date.getUTCMinutes) (by omega)
  obtain ⟨h_seconds_length, h_seconds_value⟩ := pad_spec (n := date.getUTCSeconds) (by omega)
  obtain ⟨h_ms_length, h_ms_value⟩ := toFixedDecimals_spec h_ms
  exact ⟨⟨h_month_length, h_date_length, h_hours_length, h_minutes_length, h_seconds_length, h_ms_length⟩,
    h_month_value, h_date_value, h_hours_value, h_minutes_value, h_seconds_value, h_ms_value⟩

/-- **The length of a time** is that of its year and thirteen. -/
theorem length_dateToInterledgerTime (date : Date) : (dateToInterledgerTime date).toList.length =
    (toString date.getUTCFullYear).toList.length + 13 := by
  obtain ⟨⟨h_month, h_date, h_hours, h_minutes, h_seconds, h_ms⟩, -⟩ := parts_spec date
  unfold dateToInterledgerTime
  simp only [String.toList_append, List.length_append, h_month, h_date, h_hours, h_minutes, h_seconds, h_ms]

/-- A slice between what stands before and behind it. -/
theorem slice_eq {text part : List Char} {i j : ℕ} (before behind : List Char)
    (h : text = before ++ part ++ behind) (hi : before.length = i) (hj : i + part.length = j) :
    slice text i j = part := by
  have h_length : (before ++ part).length = j := by rw [List.length_append, hi, hj]
  rw [slice, h, List.take_left' h_length, List.drop_left' hi]

/-- The years of so many characters, the minus sign counted. -/
theorem length_toString_le_iff (year : ℤ) (k : ℕ) (hk : 0 < k) :
    (toString year).toList.length ≤ k + 1 ↔ -10 ^ k < year ∧ year < 10 ^ (k + 1) := by
  have h_pos : (0 : ℤ) < 10 ^ (k + 1) := by positivity
  have h_pos' : (0 : ℤ) < 10 ^ k := by positivity
  rw [Int.toString_eq_repr, Int.repr_eq_if]
  by_cases h : 0 ≤ year
  · rw [if_pos h, Nat.toList_repr, Nat.length_toDigits_le_iff (by omega) (Nat.succ_pos k)]
    zify
    rw [Int.toNat_of_nonneg h]
    omega
  · rw [if_neg h, String.toList_append, Nat.toList_repr, List.length_append]
    change 1 + _ ≤ k + 1 ↔ _
    rw [Nat.add_comm, Nat.add_le_add_iff_right, Nat.length_toDigits_le_iff (by omega) hk]
    zify
    rw [Int.toNat_of_nonneg (by omega)]
    omega

namespace Date

variable (date : Date)

/-- The year is written in four characters. -/
def HasFourCharacterYear : Prop :=
  1000 ≤ date.getUTCFullYear ∧ date.getUTCFullYear ≤ 9999 ∨
    -999 ≤ date.getUTCFullYear ∧ date.getUTCFullYear ≤ -100

instance : Decidable date.HasFourCharacterYear := inferInstanceAs (Decidable (_ ∨ _))

/-- The year is written in more than four characters. -/
def HasLongYear : Prop := 10000 ≤ date.getUTCFullYear ∨ date.getUTCFullYear ≤ -1000

instance : Decidable date.HasLongYear := inferInstanceAs (Decidable (_ ∨ _))

variable {date}

/-- The encoder writes the characters due for those years only. -/
theorem length_eq_iff :
    (dateToInterledgerTime date).toList.length = interledgerTimeLength ↔ date.HasFourCharacterYear := by
  have h_three := length_toString_le_iff date.getUTCFullYear 2 (by omega)
  have h_four := length_toString_le_iff date.getUTCFullYear 3 (by omega)
  rw [length_dateToInterledgerTime]
  unfold interledgerTimeLength HasFourCharacterYear
  omega

theorem lt_length_iff :
    interledgerTimeLength < (dateToInterledgerTime date).toList.length ↔ date.HasLongYear := by
  have h_four := length_toString_le_iff date.getUTCFullYear 3 (by omega)
  rw [length_dateToInterledgerTime]
  unfold interledgerTimeLength HasLongYear
  omega

end Date

/-- **A time with a year of four characters is read back.** -/
theorem dateOfParts_dateToInterledgerTime {date : Date} (h : date.HasFourCharacterYear) :
    dateOfParts (dateToInterledgerTime date).toList = some date := by
  have h_parts := date.dateUTC_parts (by unfold Date.HasFourCharacterYear at h; omega)
  -- the year takes four characters, and the other parts have a fixed length
  have h_four : (toString date.getUTCFullYear).toList.length = 4 := by
    have h_length := Date.length_eq_iff.mpr h
    rw [length_dateToInterledgerTime] at h_length
    exact Nat.add_right_cancel h_length
  obtain ⟨⟨h_month, h_date, h_hours, h_minutes, h_seconds, h_ms⟩, h_month', h_date', h_hours', h_minutes',
    h_seconds', h_ms'⟩ := parts_spec date
  -- and each reads back as the number it was written from
  have h_year' := toNumber_toString date.getUTCFullYear
  unfold dateToInterledgerTime dateOfParts
  simp only [String.toList_append]
  generalize (toString date.getUTCFullYear).toList = year at *
  generalize (pad (date.getUTCMonth + 1)).toList = month at *
  generalize (pad date.getUTCDate).toList = dayOfMonth at *
  generalize (pad date.getUTCHours).toList = hours at *
  generalize (pad date.getUTCMinutes).toList = minutes at *
  generalize (pad date.getUTCSeconds).toList = seconds at *
  generalize (toFixedDecimals date.getUTCMilliseconds).toList = ms at *
  generalize h_text : year ++ month ++ dayOfMonth ++ hours ++ minutes ++ seconds ++ ms = text
  -- every slice is one of the parts
  have h₁ : slice text 0 4 = year :=
    slice_eq [] (month ++ dayOfMonth ++ hours ++ minutes ++ seconds ++ ms)
      (by rw [← h_text]; simp only [List.nil_append, List.append_assoc]) rfl (by omega)
  have h₂ : slice text 4 6 = month :=
    slice_eq year (dayOfMonth ++ hours ++ minutes ++ seconds ++ ms)
      (by rw [← h_text]; simp only [List.append_assoc]) h_four (by omega)
  have h₃ : slice text 6 8 = dayOfMonth :=
    slice_eq (year ++ month) (hours ++ minutes ++ seconds ++ ms)
      (by rw [← h_text]; simp only [List.append_assoc]) (by simp only [List.length_append]; omega) (by omega)
  have h₄ : slice text 8 10 = hours :=
    slice_eq (year ++ month ++ dayOfMonth) (minutes ++ seconds ++ ms)
      (by rw [← h_text]; simp only [List.append_assoc]) (by simp only [List.length_append]; omega) (by omega)
  have h₅ : slice text 10 12 = minutes :=
    slice_eq (year ++ month ++ dayOfMonth ++ hours) (seconds ++ ms)
      (by rw [← h_text]; simp only [List.append_assoc]) (by simp only [List.length_append]; omega) (by omega)
  have h₆ : slice text 12 14 = seconds :=
    slice_eq (year ++ month ++ dayOfMonth ++ hours ++ minutes) ms
      (by rw [← h_text]) (by simp only [List.length_append]; omega) (by omega)
  have h₇ : slice text 14 17 = ms :=
    slice_eq (year ++ month ++ dayOfMonth ++ hours ++ minutes ++ seconds) []
      (by rw [← h_text, List.append_nil]) (by simp only [List.length_append]; omega) (by omega)
  rw [h₁, h₂, h₃, h₄, h₅, h₆, h₇, h_year', h_month', h_date', h_hours', h_minutes', h_seconds', h_ms']
  exact h_parts

/-- **Times are read back**, but for the epoch. -/
theorem interledgerTimeToDate_dateToInterledgerTime {date : Date} (h : date.HasFourCharacterYear) :
    interledgerTimeToDate (dateToInterledgerTime date) =
      if date.time = 0 then .error (.error "invalid date") else .ok date := by
  rw [interledgerTimeToDate, dateOfParts_dateToInterledgerTime h]

theorem length_toString_pos (n : ℤ) : 0 < (toString n).toList.length := by
  rw [Int.toString_eq_repr, Int.repr_eq_if]
  split
  · rw [Nat.toList_repr]
    exact Nat.length_toDigits_pos
  · rw [String.toList_append, List.length_append]
    exact Nat.add_pos_left (by decide) _

theorem isDigit_toFixedDecimals {n : ℕ} {c : Char} (hc : c ∈ (toFixedDecimals n).toList) :
    c.isDigit = true := by
  have h_number (hc : c ∈ (toString n).toList) : c.isDigit = true := by
    rw [Nat.toString_eq_repr, Nat.toList_repr] at hc
    exact Nat.isDigit_of_mem_toDigits (by omega) le_rfl hc
  have h_zeros (zeros : String) (h_zero : ∀ d ∈ zeros.toList, d.isDigit = true)
      (hc : c ∈ (zeros ++ toString n).toList) : c.isDigit = true := by
    rw [String.toList_append] at hc
    exact (List.mem_append.mp hc).elim (h_zero c) h_number
  unfold toFixedDecimals at hc
  split_ifs at hc
  · exact h_zeros "00" (List.all_eq_true.mp (by decide)) hc
  · exact h_zeros "0" (List.all_eq_true.mp (by decide)) hc
  · exact h_number hc

/-- **A time with a shorter year** takes in some of what stands behind it, and is no date if that has a
letter. -/
theorem dateOfParts_of_short {date : Date} {more : List Char} {c : Char} (h_ne : more ≠ [])
    (h_length : (dateToInterledgerTime date).toList.length + more.length = interledgerTimeLength)
    (h_more : ∀ c ∈ more, IsPlain c) (hc : c ∈ more) (h_letter : c.isDigit = false) :
    dateOfParts ((dateToInterledgerTime date).toList ++ more) = none := by
  -- the year is shorter, by as many characters as stand behind
  have h_pos := List.length_pos_of_ne_nil h_ne
  have h_year := length_toString_pos date.getUTCFullYear
  have h_digits : ∀ c ∈ (toFixedDecimals date.getUTCMilliseconds).toList, c.isDigit = true :=
    fun c => isDigit_toFixedDecimals
  obtain ⟨⟨h_month, h_date, h_hours, h_minutes, h_seconds, h_ms⟩, -⟩ := parts_spec date
  rw [length_dateToInterledgerTime] at h_length
  unfold interledgerTimeLength at h_length
  unfold dateToInterledgerTime
  simp only [String.toList_append]
  generalize (toString date.getUTCFullYear).toList = year at *
  generalize (pad (date.getUTCMonth + 1)).toList = month at *
  generalize (pad date.getUTCDate).toList = dayOfMonth at *
  generalize (pad date.getUTCHours).toList = hours at *
  generalize (pad date.getUTCMinutes).toList = minutes at *
  generalize (pad date.getUTCSeconds).toList = seconds at *
  generalize (toFixedDecimals date.getUTCMilliseconds).toList = ms at *
  generalize h_text : year ++ month ++ dayOfMonth ++ hours ++ minutes ++ seconds ++ ms ++ more = text
  -- the decimals begin too early, so that the last slice ends with what stands behind
  have h_slice : slice text 14 17 = ms.drop more.length ++ more := by
    apply slice_eq (year ++ month ++ dayOfMonth ++ hours ++ minutes ++ seconds ++ ms.take more.length) []
    · rw [← h_text, List.append_nil, ← List.append_assoc, List.append_assoc _ (ms.take _) (ms.drop _),
        List.take_append_drop]
    · simp only [List.length_append, List.length_take]
      omega
    · simp only [List.length_append, List.length_drop]
      omega
  -- which is no number, since there is a letter in it
  have h_none : toNumber (slice text 14 17) = none := by
    rw [h_slice]
    refine toNumber_eq_none (fun d hd => ?_) (List.mem_append_right _ hc) h_letter
    rcases List.mem_append.mp hd with h_drop | h_behind
    · exact isPlain_of_isDigit (h_digits d (List.mem_of_mem_drop h_drop))
    · exact h_more d h_behind
  unfold dateOfParts
  simp only [h_none, Option.bind_eq_bind, Option.bind_none, Option.bind_fun_none]

/-- A date that is read is not the epoch. -/
theorem time_ne_zero {text : String} {date : Date} (h : interledgerTimeToDate text = .ok date) :
    date.time ≠ 0 := by
  unfold interledgerTimeToDate at h
  split at h
  · split at h
    · cases h
    · next h_time =>
      cases h
      exact h_time
  · cases h

/-! Times are ASCII texts. -/

theorem isAscii_nat (n : ℕ) : Ascii.IsAscii (toString n).toList := by
  intro c hc
  rw [Nat.toString_eq_repr, Nat.toList_repr] at hc
  have h_digit := Nat.isDigit_of_mem_toDigits (by omega) le_rfl hc
  rw [Char.isDigit, Bool.and_eq_true, decide_eq_true_iff, decide_eq_true_iff] at h_digit
  have h_code : c.toNat ≤ '9'.toNat := h_digit.2
  exact h_code.trans_lt (by decide)

theorem isAscii_append {text text' : String} (h : Ascii.IsAscii text.toList)
    (h' : Ascii.IsAscii text'.toList) : Ascii.IsAscii (text ++ text').toList := by
  intro c hc
  rw [String.toList_append] at hc
  rcases List.mem_append.mp hc with hc | hc
  · exact h c hc
  · exact h' c hc

theorem isAscii_int (n : ℤ) : Ascii.IsAscii (toString n).toList := by
  rw [Int.toString_eq_repr, Int.repr_eq_if]
  split
  · exact isAscii_nat _
  · exact isAscii_append (Ascii.isAscii_of_all (by decide)) (isAscii_nat _)

theorem isAscii_pad (n : ℕ) : Ascii.IsAscii (pad n).toList := by
  unfold pad
  split
  · exact isAscii_append (Ascii.isAscii_of_all (by decide)) (isAscii_nat n)
  · exact isAscii_nat n

theorem isAscii_toFixedDecimals (n : ℕ) : Ascii.IsAscii (toFixedDecimals n).toList := by
  unfold toFixedDecimals
  split
  · exact isAscii_append (Ascii.isAscii_of_all (by decide)) (isAscii_nat n)
  · split
    · exact isAscii_append (Ascii.isAscii_of_all (by decide)) (isAscii_nat n)
    · exact isAscii_nat n

theorem isAscii_dateToInterledgerTime (date : Date) :
    Ascii.IsAscii (dateToInterledgerTime date).toList := by
  unfold dateToInterledgerTime
  refine isAscii_append (isAscii_append (isAscii_append (isAscii_append (isAscii_append (isAscii_append
    (isAscii_int _) ?_) ?_) ?_) ?_) ?_) (isAscii_toFixedDecimals _) <;>
  exact isAscii_pad _

example : (interledgerTimeToDate "20240229123456789").toOption.map (dateToInterledgerTime ·) =
    some "20240229123456789" := by decide +kernel

end Interledger.IlpPacket
