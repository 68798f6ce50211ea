import Mathlib.Data.Int.Order.Lemmas
import Mathlib.Data.List.Induction
import Mathlib.Data.Nat.Notation
import Mathlib.Tactic.Common
import Mathlib.Tactic.Linarith
import Mathlib.Tactic.Ring

/-!
# Integers as bytes

Big-endian encodings of a fixed length: `toBytes k n` is the last `k` bytes of the natural number `n`,
and `ofBytes` the number a list of bytes stands for. `toSignedBytes` and `ofSignedBytes` are the
two's complement encodings of integers.

## Main results

* `ofBytes_toBytes`, `toBytes_ofBytes` — numbers below `256 ^ k` are the byte lists of length `k`;
* `ofSignedBytes_toSignedBytes` — two's complement is exact on the integers of its width.
-/

namespace Interledger.Bytes

/-- The number that bytes stand for, the most significant first. -/
def ofBytes (bs : List UInt8) : ℕ := bs.foldl (fun n b => 256 * n + b.toNat) 0

/-- The last `k` bytes of a number. -/
def toBytes : ℕ → ℕ → List UInt8
  | 0, _ => []
  | k + 1, n => toBytes k (n / 256) ++ [UInt8.ofNat n]

@[simp] theorem ofBytes_nil : ofBytes [] = 0 := rfl

@[simp] theorem ofBytes_singleton (b : UInt8) : ofBytes [b] = b.toNat := Nat.zero_add _

theorem ofBytes_concat (bs : List UInt8) (b : UInt8) :
    ofBytes (bs ++ [b]) = 256 * ofBytes bs + b.toNat := by
  rw [ofBytes, List.foldl_append]
  rfl

theorem ofBytes_cons (b : UInt8) (bs : List UInt8) :
    ofBytes (b :: bs) = b.toNat * 256 ^ bs.length + ofBytes bs := by
  induction bs using List.reverseRecOn with
  | nil => rw [ofBytes_singleton, List.length_nil, Nat.pow_zero, Nat.mul_one, ofBytes_nil, Nat.add_zero]
  | append_singleton bs c ih =>
    rw [← List.cons_append, ofBytes_concat, ih, ofBytes_concat, List.length_append,
      List.length_singleton]
    ring

@[simp] theorem length_toBytes (k n : ℕ) : (toBytes k n).length = k := by
  induction k generalizing n with
  | zero => rfl
  | succ k ih => rw [toBytes, List.length_append, ih, List.length_singleton]

/-- Bytes stand for a number of as many base-256 digits. -/
theorem ofBytes_lt (bs : List UInt8) : ofBytes bs < 256 ^ bs.length := by
  induction bs using List.reverseRecOn with
  | nil => exact Nat.one_pos
  | append_singleton bs b ih =>
    have h_byte := b.toNat_lt
    rw [ofBytes_concat, List.length_append, List.length_singleton, Nat.pow_succ]
    omega

/-- **Encoding keeps the last bytes.** -/
theorem ofBytes_toBytes (k n : ℕ) : ofBytes (toBytes k n) = n % 256 ^ k := by
  induction k generalizing n with
  | zero => exact (Nat.mod_one n).symm
  | succ k ih =>
    have h_byte : (UInt8.ofNat n).toNat = n % 256 := rfl
    calc ofBytes (toBytes (k + 1) n)
        = 256 * (n / 256 % 256 ^ k) + n % 256 := by rw [toBytes, ofBytes_concat, ih, h_byte]
      _ = n % (256 * 256 ^ k) := by rw [Nat.mod_mul, Nat.add_comm]
      _ = n % 256 ^ (k + 1) := by rw [Nat.pow_succ']

/-- A number that fits is read back. -/
theorem ofBytes_toBytes_of_lt {k n : ℕ} (h : n < 256 ^ k) : ofBytes (toBytes k n) = n := by
  rw [ofBytes_toBytes, Nat.mod_eq_of_lt h]

/-- **Every byte list is the encoding of its number.** -/
theorem toBytes_ofBytes (bs : List UInt8) : toBytes bs.length (ofBytes bs) = bs := by
  induction bs using List.reverseRecOn with
  | nil => rfl
  | append_singleton bs b ih =>
    have h_byte := b.toNat_lt
    have h_div : (256 * ofBytes bs + b.toNat) / 256 = ofBytes bs := by omega
    have h_last : UInt8.ofNat (256 * ofBytes bs + b.toNat) = b := by
      apply UInt8.toNat_inj.mp
      change (256 * ofBytes bs + b.toNat) % 256 = b.toNat
      omega
    rw [ofBytes_concat, List.length_append, List.length_singleton, toBytes, h_div, ih, h_last]

/-- Only the last bytes of a number matter. -/
theorem toBytes_mod (k n : ℕ) : toBytes k (n % 256 ^ k) = toBytes k n := by
  have h := toBytes_ofBytes (toBytes k n)
  rw [length_toBytes, ofBytes_toBytes] at h
  exact h

/-- The leading bytes of an encoding are dropped. -/
theorem drop_toBytes (j k n : ℕ) : (toBytes (j + k) n).drop j = toBytes k n := by
  induction k generalizing n with
  | zero => exact List.drop_eq_nil_of_le (by rw [length_toBytes, Nat.add_zero])
  | succ k ih =>
    have h_le : j ≤ (toBytes (j + k) (n / 256)).length := by
      rw [length_toBytes]
      exact Nat.le_add_right j k
    change (toBytes (j + k) (n / 256) ++ [UInt8.ofNat n]).drop j = _
    rw [List.drop_append_of_le_length h_le, ih]
    rfl

/-- One byte. -/
theorem toBytes_one (n : ℕ) : toBytes 1 n = [UInt8.ofNat n] := rfl

/-! ### Two's complement -/

/-- The two's complement encoding of an integer in `k` bytes. -/
def toSignedBytes (k : ℕ) (n : ℤ) : List UInt8 := toBytes k (n % (256 ^ k : ℕ)).toNat

/-- The integer that bytes stand for in two's complement. -/
def ofSignedBytes (bs : List UInt8) : ℤ := Int.bmod (ofBytes bs) (256 ^ bs.length)

@[simp] theorem length_toSignedBytes (k : ℕ) (n : ℤ) : (toSignedBytes k n).length = k :=
  length_toBytes k _

/-- The encoding is read as the integer modulo the width. -/
theorem ofBytes_toSignedBytes (k : ℕ) (n : ℤ) :
    (ofBytes (toSignedBytes k n) : ℤ) = n % (256 ^ k : ℕ) := by
  have h_pos : (0 : ℤ) < (256 ^ k : ℕ) := Int.natCast_pos.mpr (Nat.pow_pos (by omega))
  have h_nonneg := Int.emod_nonneg n (ne_of_gt h_pos)
  have h_lt := Int.emod_lt_of_pos n h_pos
  rw [toSignedBytes, ofBytes_toBytes_of_lt (by omega), Int.toNat_of_nonneg h_nonneg]

/-- **Two's complement is exact** on the integers between `-m / 2` and `m / 2`, where `m` is the
number of encodings. -/
theorem ofSignedBytes_toSignedBytes {k : ℕ} {n : ℤ} (h_low : -(256 ^ k : ℕ) ≤ n * 2)
    (h_high : n * 2 < (256 ^ k : ℕ)) : ofSignedBytes (toSignedBytes k n) = n := by
  rw [ofSignedBytes, ofBytes_toSignedBytes, length_toSignedBytes, Int.emod_bmod]
  exact Int.bmod_eq_of_le_mul_two h_low h_high

/-- The first byte carries the sign. -/
theorem ofSignedBytes_cons (b : UInt8) (bs : List UInt8) :
    ofSignedBytes (b :: bs) =
      (if 0x80 ≤ b then (b.toNat : ℤ) - 0x100 else b.toNat) * 256 ^ bs.length + ofBytes bs := by
  have h_lt : (ofBytes bs : ℤ) < 256 ^ bs.length := by exact_mod_cast ofBytes_lt bs
  have h_byte := b.toNat_lt
  have h_pos : (0 : ℤ) < 256 ^ bs.length := pow_pos (by norm_num) _
  rw [ofSignedBytes, ofBytes_cons, List.length_cons]
  by_cases h_sign : 0x80 ≤ b
  · have h_high : 128 ≤ b.toNat := UInt8.le_iff_toNat_le.mp h_sign
    have h_split : ((b.toNat * 256 ^ bs.length + ofBytes bs : ℕ) : ℤ) =
        ((b.toNat : ℤ) - 0x100) * 256 ^ bs.length + ofBytes bs + (256 ^ (bs.length + 1) : ℕ) := by
      push_cast
      ring
    rw [if_pos h_sign, h_split, Int.add_bmod_right]
    apply Int.bmod_eq_of_le_mul_two <;> push_cast <;> rw [pow_succ] <;> nlinarith
  · have h_low : b.toNat < 128 := not_le.mp fun h => h_sign (UInt8.le_iff_toNat_le.mpr h)
    rw [if_neg h_sign]
    push_cast
    apply Int.bmod_eq_of_le_mul_two <;> push_cast <;> rw [pow_succ] <;> nlinarith

/-- A natural number is encoded the same way. -/
theorem toSignedBytes_natCast {k n : ℕ} (h : n < 256 ^ k) : toSignedBytes k n = toBytes k n := by
  rw [toSignedBytes, ← Int.natCast_emod, Int.toNat_natCast, Nat.mod_eq_of_lt h]

/-- An encoding at a larger width ends with the encoding at a smaller one. -/
theorem drop_toSignedBytes (j k : ℕ) (n : ℤ) :
    (toSignedBytes (j + k) n).drop j = toSignedBytes k n := by
  have h_dvd : ((256 ^ k : ℕ) : ℤ) ∣ (256 ^ (j + k) : ℕ) := by
    exact_mod_cast Nat.pow_dvd_pow 256 (Nat.le_add_left k j)
  have h_pos (i : ℕ) : (0 : ℤ) < (256 ^ i : ℕ) := Int.natCast_pos.mpr (Nat.pow_pos (by omega))
  have h_wide := Int.emod_nonneg n (ne_of_gt (h_pos (j + k)))
  -- reducing modulo the larger width first changes nothing modulo the smaller one
  have h_mod : (n % (256 ^ (j + k) : ℕ)).toNat % 256 ^ k = (n % (256 ^ k : ℕ)).toNat := by
    apply Int.ofNat_inj.mp
    rw [Int.natCast_emod, Int.toNat_of_nonneg h_wide,
      Int.toNat_of_nonneg (Int.emod_nonneg n (ne_of_gt (h_pos k))), Int.emod_emod_of_dvd n h_dvd]
  rw [toSignedBytes, drop_toBytes, toSignedBytes, ← h_mod, toBytes_mod]

example : toSignedBytes 2 (-2) = [0xff, 0xfe] := by decide

end Interledger.Bytes
