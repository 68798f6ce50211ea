import Interledger.Oer.OctetString
import Interledger.Oer.WriterInterface

/-!
# What a writer writes, to the byte

`Writer` of `oer-utils/src/lib/writer.ts` as an append-only list of bytes with a limit. A writer over a
given buffer is limited by the buffer, one with a buffer of its own by what `Buffer.alloc` allows.
`AppendsWithin x bytes` says that a program adds `bytes` whenever they stay within the limit, and
otherwise throws, with no more written than a part of them.

## Main results

* `appendsWithin_call`, `appendsWithin_run` — a call writes its encoding, and a list of calls what they
  encode one after the other.
-/

namespace Interledger.Oer

open Ilp (Buffer)
open Interledger.Action

namespace Writer

/-! ### What integers are written as

The methods for integers check their arguments first, and look at the buffer only then.
-/

/-- The checks of `writeUInt`, and the bytes that it then writes. -/
def uintBytes (value : LongValue) (length : ℕ) (σ : Type) : Action σ OerError Buffer :=
  if !value.isInteger then throw (.error "UInt must be an integer")
  else if value.isNumberAbove maxSafeInteger then
    throw (.error "UInt is larger than safe JavaScript range (try using Longs instead)")
  else if length = 0 then throw (.error "UInt length must be greater than zero")
  else if value.isLongOf false then throw (.error "Expected unsigned Long")
  else if length ≤ maxSafeBytes then
    if value.toNumber < 0 then throw (.error "UInt must be positive")
    else if value.toNumber > uintRanges length then
      throw (.error ("UInt " ++ value.toText ++ " does not fit in " ++ toString length ++ " bytes"))
    else pure (Bytes.toBytes length value.toNumber.toNat)
  else do
    let long ← longFromValue value true
    let size ← getLongUIntBufferSize long
    if length < size then
      throw (.error ("UInt " ++ toString long.toNat ++ " does not fit in " ++ toString length ++
        " bytes"))
    else pure (longToBuffer long length)

/-- The checks of `writeInt`, and the bytes that it then writes. -/
def intBytes (value : LongValue) (length : ℕ) (σ : Type) : Action σ OerError Buffer :=
  if !value.isInteger then throw (.error "Int must be an integer")
  else if length = 0 then throw (.error "Int length must be greater than zero")
  else if value.isNumberAbove maxSafeInteger then
    throw (.error "Int is larger than safe JavaScript range (try using Longs instead)")
  else if value.isNumberBelow minSafeInteger then
    throw (.error "Int is smaller than safe JavaScript range (try using Longs instead)")
  else if value.isLongOf true then throw (.error "Expected signed Long")
  else if length ≤ maxSafeBytes then
    if value.toNumber < (intRanges length).1 ∨ value.toNumber > (intRanges length).2 then
      throw (.error ("Int " ++ value.toText ++ " does not fit in " ++ toString length ++ " bytes"))
    else pure (Bytes.toSignedBytes length value.toNumber)
  else do
    let long ← longFromValue value false
    let size ← getLongIntBufferSize long
    if length < size then
      throw (.error ("Int " ++ toString long.toInt ++ " does not fit in " ++ toString length ++
        " bytes"))
    else pure (longToBuffer long length)

/-- The checks of `writeVarUInt`, and its `value` and `lengthOfValue`. -/
def varUIntParts (value : LongValue) (σ : Type) : Action σ OerError (LongValue × ℕ) :=
  if !value.isInteger then throw (.error "UInt must be an integer")
  else match value with
    | .number n => pure (value, getUIntBufferSize n)
    | _ => do
      let long ← longFromValue value true
      let lengthOfValue ← getLongUIntBufferSize long
      return (.long true long, lengthOfValue)

/-- The checks of `writeVarInt`, and its `value` and `lengthOfValue`. -/
def varIntParts (value : LongValue) (σ : Type) : Action σ OerError (LongValue × ℕ) :=
  if !value.isInteger then throw (.error "Int must be an integer")
  else if value.isNumberAbove maxSafeInteger then
    throw (.error "Int is larger than safe JavaScript range")
  else if value.isNumberBelow minSafeInteger then
    throw (.error "Int is smaller than safe JavaScript range")
  else match value with
    | .number n => pure (value, getIntBufferSize n)
    | _ => do
      let long ← longFromValue value false
      let lengthOfValue ← getLongIntBufferSize long
      return (.long false long, lengthOfValue)

section Integers

variable (value : LongValue) (k : ℕ)

theorem writeUInt_eq : writeUInt value k = uintBytes value k Writer >>= write := by
  unfold writeUInt uintBytes
  split_ifs
  any_goals rfl
  simp only [bind_assoc]
  congr 1
  ext1 long
  congr 1
  ext1 size
  split_ifs
  · rfl
  · rw [pure_bind]

theorem writeInt_eq : writeInt value k = intBytes value k Writer >>= write := by
  unfold writeInt intBytes
  split_ifs
  any_goals rfl
  simp only [bind_assoc]
  congr 1
  ext1 long
  congr 1
  ext1 size
  split_ifs
  · rfl
  · rw [pure_bind]

theorem writeVarUInt_eq : writeVarUInt (.value value) = varUIntParts value Writer >>= fun parts =>
    createVarOctetString parts.2 (writeUInt parts.1 parts.2) := by
  simp only [writeVarUInt, varUIntParts]
  split_ifs
  · rfl
  · cases value with
    | number n => rfl
    | fraction => simp only [bind_assoc, pure_bind]
    | string text => simp only [bind_assoc, pure_bind]
    | long u bits => simp only [bind_assoc, pure_bind]

theorem writeVarInt_eq : writeVarInt (.value value) = varIntParts value Writer >>= fun parts =>
    createVarOctetString parts.2 (writeInt parts.1 parts.2) := by
  simp only [writeVarInt, varIntParts]
  split_ifs
  any_goals rfl
  cases value with
  | number n => rfl
  | fraction => simp only [bind_assoc, pure_bind]
  | string text => simp only [bind_assoc, pure_bind]
  | long u bits => simp only [bind_assoc, pure_bind]

variable {value k}

theorem computes_longFromValue (unsigned : Bool) :
    Computes (fun σ => (longFromValue value unsigned : Action σ OerError (BitVec 64))) fun _ => True := by
  cases value with
  | number n => exact .ite (fun _ => .throw _) fun _ => .pure trivial
  | fraction => exact .pure trivial
  | string text => exact .ite (fun _ => .throw _) fun _ => .pure trivial
  | long u bits => exact .ite (fun _ => .throw _) fun _ => .pure trivial

/-- The tables of sizes go up to eight bytes. -/
theorem computes_getLongUIntBufferSize (long : BitVec 64) :
    Computes (fun σ => (getLongUIntBufferSize long : Action σ OerError ℕ)) (· ≤ 8) := by
  unfold getLongUIntBufferSize
  cases h_find : longVarUIntSizes.find? _ with
  | none => exact .throw _
  | some item =>
    obtain ⟨i, h_mem, rfl⟩ := List.mem_map.mp (List.mem_of_find?_eq_some h_find)
    exact .pure (Nat.succ_le_of_lt (List.mem_range.mp h_mem))

theorem computes_getLongIntBufferSize (long : BitVec 64) :
    Computes (fun σ => (getLongIntBufferSize long : Action σ OerError ℕ)) (· ≤ 8) := by
  unfold getLongIntBufferSize
  cases h_find : longVarIntSizes.find? _ with
  | none => exact .throw _
  | some item =>
    obtain ⟨i, h_mem, rfl⟩ := List.mem_map.mp (List.mem_of_find?_eq_some h_find)
    exact .pure (Nat.succ_le_of_lt (List.mem_range.mp h_mem))

theorem length_longToBuffer {long : BitVec 64} (hk : k ≤ 8) : (longToBuffer long k).length = k := by
  rw [longToBuffer_eq hk, Bytes.length_toBytes]

/-- Up to eight bytes, an integer is written in as many as asked for. -/
theorem computes_uintBytes : Computes (uintBytes value k) fun bytes => k ≤ 8 → bytes.length = k := by
  refine .ite (fun _ => .throw _) fun _ => .ite (fun _ => .throw _) fun _ =>
    .ite (fun _ => .throw _) fun _ => .ite (fun _ => .throw _) fun _ => .ite (fun _ => ?_) fun _ => ?_
  · exact .ite (fun _ => .throw _) fun _ => .ite (fun _ => .throw _) fun _ =>
      .pure fun _ => Bytes.length_toBytes _ _
  · refine (computes_longFromValue true).bind fun long _ =>
      (computes_getLongUIntBufferSize long).bind fun size _ => ?_
    exact .ite (fun _ => .throw _) fun _ => .pure length_longToBuffer

theorem computes_intBytes : Computes (intBytes value k) fun bytes => k ≤ 8 → bytes.length = k := by
  refine .ite (fun _ => .throw _) fun _ => .ite (fun _ => .throw _) fun _ =>
    .ite (fun _ => .throw _) fun _ => .ite (fun _ => .throw _) fun _ =>
    .ite (fun _ => .throw _) fun _ => .ite (fun _ => ?_) fun _ => ?_
  · exact .ite (fun _ => .throw _) fun _ => .pure fun _ => Bytes.length_toSignedBytes _ _
  · refine (computes_longFromValue false).bind fun long _ =>
      (computes_getLongIntBufferSize long).bind fun size _ => ?_
    exact .ite (fun _ => .throw _) fun _ => .pure length_longToBuffer

/-- A number above the safe range has no bytes. -/
theorem computes_uintBytes_of_above {n : ℤ} (h : maxSafeInteger < n) {P : Buffer → Prop} :
    Computes (uintBytes (.number n) k) P := by
  have h_above : (LongValue.number n).isNumberAbove maxSafeInteger = true := decide_eq_true h
  refine .ite (fun _ => .throw _) fun _ => ?_
  simp only [if_pos h_above]
  exact .throw _

/-- The length announced is the number of bytes, if there are any. -/
theorem computes_varUIntParts :
    Computes (varUIntParts value) fun parts =>
      Computes (uintBytes parts.1 parts.2) fun bytes => bytes.length = parts.2 := by
  have h_long : Computes (fun σ => (longFromValue value true : Action σ OerError (BitVec 64)) >>=
      fun long => getLongUIntBufferSize long >>= fun lengthOfValue =>
      pure (LongValue.long true long, lengthOfValue)) fun parts =>
      Computes (uintBytes parts.1 parts.2) fun bytes => bytes.length = parts.2 :=
    (computes_longFromValue true).bind fun long _ =>
      (computes_getLongUIntBufferSize long).bind fun size h_size =>
        .pure (computes_uintBytes.mono fun bytes h => h h_size)
  refine .ite (fun _ => .throw _) fun _ => ?_
  cases value with
  | fraction => exact h_long
  | string text => exact h_long
  | long u bits => exact h_long
  | number n =>
    apply Computes.pure
    by_cases h_above : maxSafeInteger < n
    · exact computes_uintBytes_of_above h_above
    · -- in the safe range, seven bytes are enough
      unfold maxSafeInteger at h_above
      have h_size : getUIntBufferSize n ≤ 8 := by
        by_cases h_neg : n < 0
        · rw [getUIntBufferSize_of_neg h_neg]
          decide
        · obtain ⟨m, rfl⟩ := Int.eq_ofNat_of_zero_le (not_lt.mp h_neg)
          exact (getUIntBufferSize_le (by omega)).trans (by omega)
      exact computes_uintBytes.mono fun bytes h => h h_size

theorem computes_varIntParts :
    Computes (varIntParts value) fun parts =>
      Computes (intBytes parts.1 parts.2) fun bytes => bytes.length = parts.2 := by
  have h_long : Computes (fun σ => (longFromValue value false : Action σ OerError (BitVec 64)) >>=
      fun long => getLongIntBufferSize long >>= fun lengthOfValue =>
      pure (LongValue.long false long, lengthOfValue)) fun parts =>
      Computes (intBytes parts.1 parts.2) fun bytes => bytes.length = parts.2 :=
    (computes_longFromValue false).bind fun long _ =>
      (computes_getLongIntBufferSize long).bind fun size h_size =>
        .pure (computes_intBytes.mono fun bytes h => h h_size)
  refine .ite (fun _ => .throw _) fun _ => .ite (fun _ => .throw _) fun h_above =>
    .ite (fun _ => .throw _) fun h_below => ?_
  cases value with
  | fraction => exact h_long
  | string text => exact h_long
  | long u bits => exact h_long
  | number n =>
    apply Computes.pure
    have h_high : ¬maxSafeInteger < n := fun h => h_above (decide_eq_true h)
    have h_low : ¬n < minSafeInteger := fun h => h_below (decide_eq_true h)
    unfold maxSafeInteger at h_high
    unfold minSafeInteger at h_low
    have h_size : getIntBufferSize n ≤ 8 := by
      rcases getIntBufferSize_cases (n := n) (by omega) with ⟨h_fits, h_short⟩ | ⟨-, -, h_eq⟩
      · exact ((h_short.le_iff (by omega)).mpr h_fits).trans (by omega)
      · rw [h_eq]
        split_ifs <;> omega
    exact computes_intBytes.mono fun bytes h => h h_size

end Integers

/-! ### The limit -/

/-- The size of the buffer. -/
def size (w : Writer) : ℕ := w.written.length + w.rest.length

/-- A buffer of the writer's own is empty or has been doubled from the least size. -/
def Proper (w : Writer) : Prop :=
  w.strict = true ∨ w.size = 0 ∨ ∃ k ≤ 27, w.size = minBufferSize * 2 ^ k

/-- How many bytes the writer can come to hold. -/
def limit (w : Writer) : ℕ := if w.strict then w.size else kMaxLength

/-- The second writer is the first with `bytes` written. -/
structure Appended (w : Writer) (bytes : Buffer) (w' : Writer) : Prop where
  proper : Proper w'
  strict : w'.strict = w.strict
  limit : w'.limit = w.limit
  written : w'.written = w.written ++ bytes

/-- The program adds `bytes` if they stay within the limit. If they do not, it throws because the writer
is full, and has written only a part of them. -/
structure AppendsWithin (x : Action Writer OerError Unit) (bytes : Buffer) : Prop where
  fits : ∀ {w : Writer}, Proper w → w.written.length + bytes.length ≤ w.limit →
    ∃ w', x.exec w = (.ok (), w') ∧ Appended w bytes w'
  full : ∀ {w : Writer}, Proper w → w.limit < w.written.length + bytes.length →
    ∃ e kept w', x.exec w = (.error e, w') ∧ Full e ∧ Appended w kept w' ∧ kept <+: bytes ∧
      kept.length < bytes.length

theorem proper_of_strict {w : Writer} (h : w.strict = true) : Proper w := .inl h

theorem limit_of_strict {w : Writer} (h : w.strict = true) : w.limit = w.size := if_pos h

theorem limit_of_not_strict {w : Writer} (h : w.strict = false) : w.limit = kMaxLength := by
  rw [limit, h, if_neg Bool.false_ne_true]

/-- A buffer is no larger than the limit. -/
theorem size_le_limit {w : Writer} (h : Proper w) : w.size ≤ w.limit := by
  cases h_strict : w.strict with
  | true => exact (limit_of_strict h_strict).ge
  | false =>
    rw [limit_of_not_strict h_strict]
    rcases h with h | h | ⟨k, hk, h⟩
    · exact absurd (h_strict.symm.trans h) Bool.false_ne_true
    · exact h.le.trans (Nat.zero_le _)
    · have h_pow : 2 ^ k ≤ 2 ^ 27 := Nat.pow_le_pow_right (by omega) hk
      unfold minBufferSize at h
      unfold kMaxLength
      omega

/-- So is what was written. -/
theorem length_le_limit {w : Writer} (h : Proper w) : w.written.length ≤ w.limit :=
  (Nat.le_add_right _ _).trans (size_le_limit h)

namespace Appended

theorem refl {w : Writer} (h : Proper w) : Appended w [] w := ⟨h, rfl, rfl, (List.append_nil _).symm⟩

theorem trans {w w' w'' : Writer} {bytes bytes' : Buffer} (h : Appended w bytes w')
    (h' : Appended w' bytes' w'') : Appended w (bytes ++ bytes') w'' :=
  ⟨h'.proper, h'.strict.trans h.strict, h'.limit.trans h.limit,
    by rw [h'.written, h.written, List.append_assoc]⟩

end Appended

/-- A writer whose buffer keeps its size stays proper and keeps its limit. -/
theorem Appended.of_size {w w' : Writer} {bytes : Buffer} (h : Proper w) (h_strict : w'.strict = w.strict)
    (h_size : w'.size = w.size) (h_written : w'.written = w.written ++ bytes) : Appended w bytes w' := by
  refine ⟨?_, h_strict, ?_, h_written⟩
  · unfold Proper
    rwa [h_strict, h_size]
  · unfold Writer.limit
    rw [h_strict, h_size]

/-! ### Growing -/

/-- **The loop that doubles the capacity** goes on until the capacity is enough, and no further. -/
theorem growCapacity_eq {minCapacity : ℕ} (rounds : ℕ) {capacity : ℕ} (h_pos : 0 < capacity)
    (h_rounds : minCapacity ≤ capacity + rounds) : ∃ k,
      growCapacity minCapacity rounds capacity = capacity * 2 ^ k ∧
      minCapacity ≤ capacity * 2 ^ k ∧ ∀ j < k, capacity * 2 ^ j < minCapacity := by
  induction rounds generalizing capacity with
  | zero => exact ⟨0, by rw [growCapacity, pow_zero, mul_one], by omega, fun j hj => by omega⟩
  | succ rounds ih =>
    rw [growCapacity]
    split
    · next h_less =>
      obtain ⟨k, h_eq, h_enough, h_least⟩ := @ih (capacity * 2) (by omega) (by omega)
      have h_double (j : ℕ) : capacity * 2 ^ (j + 1) = capacity * 2 * 2 ^ j := by ring
      refine ⟨k + 1, by rw [h_eq, h_double], by rw [h_double]; exact h_enough, fun j hj => ?_⟩
      cases j with
      | zero => rwa [pow_zero, mul_one]
      | succ j =>
        rw [h_double]
        exact h_least j (by omega)
    · next h_enough =>
      exact ⟨0, by rw [pow_zero, mul_one], by omega, fun j hj => by omega⟩

/-- The first size of a buffer that has to grow. -/
theorem exists_firstSize {w : Writer} (h : Proper w) (h_strict : w.strict = false) :
    ∃ k ≤ 27, (if w.size = 0 then minBufferSize else w.size) = minBufferSize * 2 ^ k := by
  by_cases h_empty : w.size = 0
  · exact ⟨0, by omega, by rw [if_pos h_empty, pow_zero, mul_one]⟩
  · rcases h with h | h | ⟨k, hk, h⟩
    · exact absurd (h_strict.symm.trans h) Bool.false_ne_true
    · exact absurd h h_empty
    · exact ⟨k, hk, by rw [if_neg h_empty, h]⟩

/-- **Growing.** A size that fits below the limit is reached by doubling without passing the limit, since
the limit is itself the least size doubled. -/
theorem growCapacity_firstSize {w : Writer} (h : Proper w) (h_strict : w.strict = false)
    (minCapacity : ℕ) :
    ∃ k, growCapacity minCapacity minCapacity (if w.size = 0 then minBufferSize else w.size) =
        minBufferSize * 2 ^ k ∧
      minCapacity ≤ minBufferSize * 2 ^ k ∧ (minCapacity ≤ kMaxLength ↔ k ≤ 27) := by
  obtain ⟨i, hi, h_first⟩ := exists_firstSize h h_strict
  rw [h_first]
  have h_pos : 0 < minBufferSize * 2 ^ i := Nat.mul_pos (by decide) (Nat.two_pow_pos i)
  obtain ⟨k, h_eq, h_enough, h_least⟩ :=
    growCapacity_eq minCapacity h_pos (Nat.le_add_left minCapacity _)
  have h_sum (j : ℕ) : minBufferSize * 2 ^ i * 2 ^ j = minBufferSize * 2 ^ (i + j) := by
    rw [mul_assoc, ← pow_add]
  refine ⟨i + k, by rw [h_eq, h_sum], by rwa [← h_sum], fun h_le => ?_, fun h_le => ?_⟩
  · -- one doubling less would have been too small
    by_contra h_more
    have h_less := h_least (27 - i) (by omega)
    rw [h_sum, Nat.add_sub_cancel' hi] at h_less
    exact absurd h_less (not_lt.mpr h_le)
  · rw [h_sum] at h_enough
    calc minCapacity ≤ minBufferSize * 2 ^ (i + k) := h_enough
      _ ≤ minBufferSize * 2 ^ 27 := Nat.mul_le_mul_left _ (Nat.pow_le_pow_right (by omega) h_le)
      _ = kMaxLength := rfl

/-- **`advance`** makes room within the limit, and changes nothing beyond it. -/
theorem advance_eq {w : Writer} (h : Proper w) (n : ℕ) :
    (w.written.length + n ≤ w.limit ∧ ∃ w', (advance n).exec w = (.ok (), w') ∧ Appended w [] w' ∧
      n ≤ w'.rest.length) ∨
    (w.limit < w.written.length + n ∧ ∃ e, (advance n).exec w = (.error e, w) ∧ Full e) := by
  unfold advance
  rw [exec_bind_ok (exec_get w)]
  simp only
  -- there is room
  by_cases h_fit : w.written.length + n ≤ w.written.length + w.rest.length
  · rw [if_pos h_fit]
    have h_size : w.written.length + w.rest.length ≤ w.limit := size_le_limit h
    exact .inl ⟨h_fit.trans h_size, w, rfl, .refl h, by omega⟩
  rw [if_neg h_fit]
  -- a strict writer has its limit in its buffer
  cases h_strict : w.strict with
  | true =>
    rw [if_pos rfl, limit_of_strict h_strict]
    exact .inr ⟨not_le.mp h_fit, _, rfl, .inr rfl⟩
  | false =>
    rw [if_neg Bool.false_ne_true, limit_of_not_strict h_strict]
    -- the size is doubled until it is enough
    obtain ⟨k, h_grown, h_enough, h_iff⟩ :=
      growCapacity_firstSize h h_strict (w.written.length + n)
    rw [size] at h_grown
    rw [h_grown]
    unfold alloc
    by_cases h_large : kMaxLength < minBufferSize * 2 ^ k
    · -- the doubled size passes the limit only if what is needed does
      have h_more : ¬k ≤ 27 := fun h_le =>
        absurd h_large (not_lt.mpr (Nat.mul_le_mul_left _ (Nat.pow_le_pow_right (by omega) h_le)))
      rw [if_pos h_large]
      exact .inr ⟨not_le.mp fun h_le => h_more (h_iff.mp h_le), _, rfl, .inl rfl⟩
    · rw [if_neg h_large]
      have h_le : k ≤ 27 := h_iff.mp (h_enough.trans (not_lt.mp h_large))
      -- the limit is not that of the buffer
      have h_limit (w' : Writer) (h' : w'.strict = false) : w'.limit = w.limit :=
        (limit_of_not_strict h').trans (limit_of_not_strict h_strict).symm
      have h_length : (List.replicate (minBufferSize * 2 ^ k) (0 : UInt8)).length =
          minBufferSize * 2 ^ k := List.length_replicate
      have h_size : w.written.length + (w.rest ++ (List.replicate (minBufferSize * 2 ^ k) 0).drop
          (w.written.length + w.rest.length)).length = minBufferSize * 2 ^ k := by
        rw [List.length_append, List.length_drop, h_length]
        omega
      refine .inl ⟨h_iff.mpr h_le, _, rfl, ⟨.inr (.inr ⟨k, h_le, h_size⟩), rfl, ?_, ?_⟩, ?_⟩
      · exact h_limit _ h_strict
      · exact (List.append_nil _).symm
      · change n ≤ (w.rest ++ (List.replicate (minBufferSize * 2 ^ k) 0).drop
          (w.written.length + w.rest.length)).length
        omega

/-! ### Appending -/

namespace AppendsWithin

theorem pure : AppendsWithin (Pure.pure ()) [] := by
  refine ⟨fun {w} h _ => ⟨w, rfl, .refl h⟩, fun {w} h h_full => ?_⟩
  have h_length := length_le_limit h
  rw [List.length_nil] at h_full
  omega

/-- One program after the other. -/
theorem bind {x : Action Writer OerError Unit} {y : Unit → Action Writer OerError Unit}
    {bytes bytes' : Buffer} (hx : AppendsWithin x bytes) (hy : AppendsWithin (y ()) bytes') :
    AppendsWithin (x >>= y) (bytes ++ bytes') := by
  have h_after {w w' : Writer} (h : Appended w bytes w') :
      w'.written.length = w.written.length + bytes.length := by
    rw [h.written, List.length_append]
  refine ⟨fun {w} h h_fit => ?_, fun {w} h h_full => ?_⟩
  · rw [List.length_append] at h_fit
    obtain ⟨w₁, h_first, h_app⟩ := hx.fits h (by omega)
    have h_length := h_after h_app
    have h_limit := h_app.limit
    obtain ⟨w₂, h_second, h_app'⟩ := hy.fits h_app.proper (by omega)
    exact ⟨w₂, (exec_bind_ok h_first).trans h_second, h_app.trans h_app'⟩
  · rw [List.length_append] at h_full
    by_cases h_fit : w.written.length + bytes.length ≤ w.limit
    · -- the first part is written, and part of the second
      obtain ⟨w₁, h_first, h_app⟩ := hx.fits h h_fit
      have h_length := h_after h_app
      have h_limit := h_app.limit
      obtain ⟨e, kept, w₂, h_second, h_e, h_app', h_kept, h_less⟩ := hy.full h_app.proper (by omega)
      refine ⟨e, bytes ++ kept, w₂, (exec_bind_ok h_first).trans h_second, h_e, h_app.trans h_app',
        (List.prefix_append_right_inj bytes).mpr h_kept, ?_⟩
      rw [List.length_append, List.length_append]
      omega
    · obtain ⟨e, kept, w₁, h_first, h_e, h_app, h_kept, h_less⟩ := hx.full h (not_le.mp h_fit)
      refine ⟨e, kept, w₁, exec_bind_error h_first, h_e, h_app,
        h_kept.trans (List.prefix_append bytes bytes'), ?_⟩
      rw [List.length_append]
      omega

/-- It is what the program writes to a buffer with room. -/
theorem isEncoding_iff {x : Action Writer OerError Unit} {bytes bytes' : Buffer}
    (h : AppendsWithin x bytes) : IsEncoding x bytes' ↔ bytes' = bytes := by
  constructor
  · rintro ⟨space, w, h_exec, rfl⟩
    have h_proper : Proper (ofBuffer space) := proper_of_strict rfl
    by_cases h_fit : (ofBuffer space).written.length + bytes.length ≤ (ofBuffer space).limit
    · obtain ⟨w', h_exec', h_app⟩ := h.fits h_proper h_fit
      rw [h_exec] at h_exec'
      cases h_exec'
      exact h_app.written
    · obtain ⟨e, kept, w', h_exec', -⟩ := h.full h_proper (not_le.mp h_fit)
      rw [h_exec] at h_exec'
      cases h_exec'
  · rintro rfl
    obtain ⟨w', h_exec, h_app⟩ := h.fits (w := ofBuffer bytes') (proper_of_strict rfl) le_rfl
    exact ⟨bytes', w', h_exec, h_app.written⟩

end AppendsWithin

/-- **`write`** -/
theorem appendsWithin_write (bytes : Buffer) : AppendsWithin (write bytes) bytes := by
  refine ⟨fun {w} h h_fit => ?_, fun {w} h h_full => ?_⟩
  · rcases advance_eq h bytes.length with ⟨-, w', h_advance, h_app, h_room⟩ | ⟨h_full, -⟩
    · unfold write
      rw [exec_bind_ok h_advance]
      refine ⟨_, rfl, Appended.trans h_app (.of_size h_app.proper rfl ?_ rfl)⟩
      change (w'.written ++ bytes).length + (w'.rest.drop bytes.length).length =
        w'.written.length + w'.rest.length
      rw [List.length_append, List.length_drop]
      omega
    · omega
  · have h_length := length_le_limit h
    rcases advance_eq h bytes.length with ⟨h_fit, -⟩ | ⟨-, e, h_advance, h_e⟩
    · omega
    · unfold write
      rw [exec_bind_error h_advance]
      exact ⟨e, [], w, rfl, h_e, .refl h, List.nil_prefix, by rw [List.length_nil]; omega⟩

/-- **`writeLengthPrefix`** -/
theorem appendsWithin_writeLengthPrefix {n : ℕ} (h : n < 2 ^ 53) :
    AppendsWithin (writeLengthPrefix n) (lengthPrefix n) := by
  rw [writeLengthPrefix_eq h, lengthPrefix]
  split
  · exact appendsWithin_write _
  · exact (appendsWithin_write _).bind (appendsWithin_write _)

/-- **`writeVarOctetString`** -/
theorem appendsWithin_writeVarOctetString {bytes : Buffer} (h : bytes.length < 2 ^ 53) :
    AppendsWithin (writeVarOctetString bytes) (lengthPrefix bytes.length ++ bytes) :=
  (appendsWithin_writeLengthPrefix h).bind (appendsWithin_write bytes)

/-- Contents that are as long as the slice fill it. -/
theorem AppendsWithin.fills {contents : Action Writer OerError Unit} {bytes slice : Buffer}
    (h : AppendsWithin contents bytes) (h_length : bytes.length = slice.length) :
    contents.exec (ofBuffer slice) = (.ok (), ⟨bytes, [], true⟩) := by
  have h_proper : Proper (ofBuffer slice) := proper_of_strict rfl
  have h_limit : (ofBuffer slice).limit = 0 + slice.length := limit_of_strict rfl
  obtain ⟨c, h_exec, h_app⟩ := h.fits h_proper (by rw [h_limit, h_length]; exact le_rfl)
  have h_written : c.written = bytes := h_app.written
  have h_strict : c.strict = true := h_app.strict
  have h_size := h_app.limit
  rw [limit_of_strict h_strict, h_limit, size, h_written, h_length, Nat.zero_add] at h_size
  have h_nil : c.rest = [] := List.eq_nil_of_length_eq_zero (by omega)
  obtain ⟨written, rest, strict⟩ := c
  simp only at h_written h_strict h_nil
  rw [h_exec, h_written, h_strict, h_nil]

/-- **`createVarOctetString`** with contents of the length announced. -/
theorem appendsWithin_createVarOctetString {n : ℕ} {contents : Action Writer OerError Unit}
    {bytes : Buffer} (h : AppendsWithin contents bytes) (h_length : bytes.length = n) (hn : n < 2 ^ 53) :
    AppendsWithin (createVarOctetString n contents) (lengthPrefix n ++ bytes) := by
  -- the length prefix, and then the slice
  refine (appendsWithin_writeLengthPrefix hn).bind ⟨fun {w} h_w h_fit => ?_, fun {w} h_w h_full => ?_⟩
  · rcases advance_eq h_w n with ⟨-, w', h_advance, h_app, h_room⟩ | ⟨h_full, -⟩
    · have h_fills : contents.exec (ofBuffer (w'.rest.take n)) = (.ok (), ⟨bytes, [], true⟩) :=
        h.fills (by rw [h_length, List.length_take_of_le h_room])
      rw [exec_bind_ok h_advance, exec_bind_ok (exec_get w')]
      simp only [h_fills]
      refine ⟨_, rfl, Appended.trans h_app (.of_size h_app.proper rfl ?_ ?_)⟩
      · change (w'.written ++ (bytes ++ [])).length + (w'.rest.drop n).length =
          w'.written.length + w'.rest.length
        rw [List.append_nil, List.length_append, List.length_drop]
        omega
      · exact congrArg (w'.written ++ ·) (List.append_nil bytes)
    · omega
  · have h_written := length_le_limit h_w
    rcases advance_eq h_w n with ⟨h_fit, -⟩ | ⟨-, e, h_advance, h_e⟩
    · omega
    · rw [exec_bind_error h_advance]
      exact ⟨e, [], w, rfl, h_e, .refl h_w, List.nil_prefix, by rw [List.length_nil]; omega⟩

/-! ### Calls -/

/-- What throws on every buffer has no encoding. -/
theorem not_isEncoding_of_throws {x : Action Writer OerError Unit} {bytes : Buffer}
    (h : ∀ w, ∃ e w', x.exec w = (.error e, w')) : ¬IsEncoding x bytes := by
  rintro ⟨space, w, h_exec, -⟩
  obtain ⟨e, w', h_throw⟩ := h (ofBuffer space)
  rw [h_exec] at h_throw
  cases h_throw

/-- An integer of a fixed length. -/
theorem appendsWithin_bytes {f : (σ : Type) → Action σ OerError Buffer} {P : Buffer → Prop}
    {bytes : Buffer} (h : Computes f P) (h_encoding : IsEncoding (f Writer >>= write) bytes) :
    AppendsWithin (f Writer >>= write) bytes := by
  rcases h with ⟨e, h_throw⟩ | ⟨written, -, h_pure⟩
  · rw [h_throw] at h_encoding
    exact absurd h_encoding (not_isEncoding_of_throws fun w => ⟨e, w, rfl⟩)
  · rw [h_pure, pure_bind] at h_encoding ⊢
    have h_write := appendsWithin_write written
    rwa [h_write.isEncoding_iff.mp h_encoding]

/-- An integer behind its length. -/
theorem appendsWithin_parts {parts : (σ : Type) → Action σ OerError (LongValue × ℕ)}
    {f : LongValue → ℕ → (σ : Type) → Action σ OerError Buffer} {bytes : Buffer}
    (h : Computes parts fun p => Computes (f p.1 p.2) fun bytes => bytes.length = p.2)
    (h_encoding : IsEncoding
      (parts Writer >>= fun p => createVarOctetString p.2 (f p.1 p.2 Writer >>= write)) bytes) :
    AppendsWithin (parts Writer >>= fun p => createVarOctetString p.2 (f p.1 p.2 Writer >>= write))
      bytes := by
  rcases h with ⟨e, h_throw⟩ | ⟨⟨value, k⟩, h_bytes, h_pure⟩
  · rw [h_throw] at h_encoding
    exact absurd h_encoding (not_isEncoding_of_throws fun w => ⟨e, w, rfl⟩)
  rw [h_pure, pure_bind] at h_encoding ⊢
  by_cases hk : k < 2 ^ 53
  · rcases h_bytes with ⟨e, h_throw⟩ | ⟨written, h_length, h_written⟩
    · simp only [h_throw] at h_encoding
      refine absurd h_encoding (not_isEncoding_of_throws ?_)
      exact throws_createVarOctetString fun slice _ => ⟨e, ofBuffer slice, rfl⟩
    · simp only [h_written, pure_bind] at h_encoding ⊢
      have h_create := appendsWithin_createVarOctetString (appendsWithin_write written) h_length hk
      rwa [h_create.isEncoding_iff.mp h_encoding]
  · refine absurd h_encoding (not_isEncoding_of_throws fun w => ?_)
    obtain ⟨e, w', h_throw⟩ := throws_writeLengthPrefix (not_lt.mp hk) w
    exact ⟨e, w', exec_bind_error h_throw⟩

mutual

/-- The bytes that a call with valid arguments stands for. A nested string is filled by the calls on its
writer. -/
def Encodes : WriterCall → Buffer → Prop
  | .writeUInt value length, bytes => IsEncoding (writeUInt value length) bytes
  | .writeInt value length, bytes => IsEncoding (writeInt value length) bytes
  | .writeVarUInt (.value value), bytes => IsEncoding (writeVarUInt (.value value)) bytes
  | .writeVarUInt (.buffer buffer), bytes =>
    buffer.length < 2 ^ 53 ∧ bytes = lengthPrefix buffer.length ++ buffer
  | .writeVarInt (.value value), bytes => IsEncoding (writeVarInt (.value value)) bytes
  | .writeVarInt (.buffer buffer), bytes =>
    buffer.length < 2 ^ 53 ∧ bytes = lengthPrefix buffer.length ++ buffer
  | .writeOctetString buffer length, bytes => buffer.length = length ∧ bytes = buffer
  | .writeVarOctetString buffer, bytes =>
    buffer.length < 2 ^ 53 ∧ bytes = lengthPrefix buffer.length ++ buffer
  | .createVarOctetString length contents, bytes =>
    length < 2 ^ 53 ∧ ∃ inner, EncodesAll contents inner ∧ inner.length = length ∧
      bytes = lengthPrefix length ++ inner
  | .write buffer, bytes => bytes = buffer

/-- The bytes that a list of calls stands for: those of its calls, one after the other. -/
def EncodesAll : List WriterCall → Buffer → Prop
  | [], bytes => bytes = []
  | c :: calls, bytes => ∃ first more, Encodes c first ∧ EncodesAll calls more ∧ bytes = first ++ more

end

mutual

/-- **A call** writes its bytes within the limit. -/
theorem appendsWithin_call (c : WriterCall) {bytes : Buffer} (h : Encodes c bytes) :
    AppendsWithin (call c) bytes := by
  match c, h with
  | .writeUInt value length, h =>
    rw [Encodes, writeUInt_eq] at h
    rw [call, writeUInt_eq]
    exact appendsWithin_bytes computes_uintBytes h
  | .writeInt value length, h =>
    rw [Encodes, writeInt_eq] at h
    rw [call, writeInt_eq]
    exact appendsWithin_bytes computes_intBytes h
  | .writeVarUInt (.value value), h =>
    rw [Encodes, writeVarUInt_eq] at h
    rw [call, writeVarUInt_eq]
    simp only [writeUInt_eq] at h ⊢
    exact appendsWithin_parts computes_varUIntParts h
  | .writeVarUInt (.buffer buffer), h =>
    rw [Encodes] at h
    obtain ⟨h_length, rfl⟩ := h
    exact appendsWithin_writeVarOctetString h_length
  | .writeVarInt (.value value), h =>
    rw [Encodes, writeVarInt_eq] at h
    rw [call, writeVarInt_eq]
    simp only [writeInt_eq] at h ⊢
    exact appendsWithin_parts computes_varIntParts h
  | .writeVarInt (.buffer buffer), h =>
    rw [Encodes] at h
    obtain ⟨h_length, rfl⟩ := h
    exact appendsWithin_writeVarOctetString h_length
  | .writeOctetString buffer length, h =>
    rw [Encodes] at h
    obtain ⟨h_length, rfl⟩ := h
    rw [call, writeOctetString, if_neg (not_not.mpr h_length)]
    exact appendsWithin_write _
  | .writeVarOctetString buffer, h =>
    rw [Encodes] at h
    obtain ⟨h_length, rfl⟩ := h
    exact appendsWithin_writeVarOctetString h_length
  | .createVarOctetString length contents, h =>
    rw [Encodes] at h
    obtain ⟨h_safe, inner, h_contents, h_length, rfl⟩ := h
    rw [call]
    exact appendsWithin_createVarOctetString (appendsWithin_run contents h_contents) h_length h_safe
  | .write buffer, h =>
    rw [Encodes] at h
    subst h
    exact appendsWithin_write _

/-- **A list of calls** writes the bytes of each. -/
theorem appendsWithin_run (calls : List WriterCall) {bytes : Buffer} (h : EncodesAll calls bytes) :
    AppendsWithin (run calls) bytes := by
  match calls, h with
  | [], h =>
    rw [EncodesAll] at h
    subst h
    exact .pure
  | c :: calls, h =>
    rw [EncodesAll] at h
    obtain ⟨first, more, h_call, h_calls, rfl⟩ := h
    rw [run]
    exact (appendsWithin_call c h_call).bind (appendsWithin_run calls h_calls)

end

end Writer

end Interledger.Oer
