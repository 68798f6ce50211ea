import Interledger.Oer.Writer

/-!
# The predictor

`Predictor` of `oer-utils/src/lib/predictor.ts`, which counts what a `Writer` would write without
writing it, and the two of them run on the same calls.

They part in two places. The predictor does not take the `Buffer` arguments of the two methods for
variable-length integers that `WriterInterface` allows, and it counts the whole length of a fixed-length
integer above eight bytes, of which the writer writes less.

## Main results

* `predicts_iff` — on calls that a new writer completes, the predictor completes with the length written
  exactly when neither of the two occurs.
-/

namespace Interledger.Oer

open Ilp (Buffer)
open Interledger.Action

/-- `Predictor`. -/
structure Predictor where
  size : ℕ
  deriving DecidableEq

namespace Predictor

/-- `new Predictor()`. -/
def empty : Predictor := ⟨0⟩

/-- `length`. -/
def length (p : Predictor) : ℕ := p.size

/-- `skip`. -/
def skip (bytes : ℕ) : Action Predictor OerError Unit := modify fun p => { p with size := p.size + bytes }

/-- `measureVarOctetString`. -/
def measureVarOctetString (length : ℕ) : ℕ :=
  1 + (if length > 127 then getUIntBufferSize length else 0) + length

/-- `skipVarOctetString`. -/
def skipVarOctetString (length : ℕ) : Action Predictor OerError Unit := skip (measureVarOctetString length)

/-- `writeUInt`. -/
def writeUInt (_value : LongValue) (length : ℕ) : Action Predictor OerError Unit := skip length

/-- `writeInt`. -/
def writeInt (_value : LongValue) (length : ℕ) : Action Predictor OerError Unit := skip length

/-- `writeVarUInt`. A `Buffer` is no integer. -/
def writeVarUInt : VarValue → Action Predictor OerError Unit
  | .buffer _ => throw (.error "UInt must be an integer")
  | .value value =>
    if !value.isInteger then throw (.error "UInt must be an integer")
    else match value with
      | .number n =>
        if n < 0 then throw (.error "UInt must be positive") else skipVarOctetString (getUIntBufferSize n)
      | _ => do
        let long ← longFromValue value true
        let lengthOfValue ← getLongUIntBufferSize long
        skipVarOctetString lengthOfValue

/-- `writeVarInt`. -/
def writeVarInt : VarValue → Action Predictor OerError Unit
  | .buffer _ => throw (.error "UInt must be an integer")
  | .value value =>
    if !value.isInteger then throw (.error "UInt must be an integer")
    else match value with
      | .number n => skipVarOctetString (getIntBufferSize n)
      | _ => do
        let long ← longFromValue value false
        let lengthOfValue ← getLongIntBufferSize long
        skipVarOctetString lengthOfValue

/-- `writeOctetString`. -/
def writeOctetString (buffer : Buffer) (length : ℕ) : Action Predictor OerError Unit :=
  if buffer.length ≠ length then
    throw (.error ("Incorrect length for octet string (actual: " ++ toString buffer.length ++
      ", expected: " ++ toString length ++ ")"))
  else skip length

/-- `writeVarOctetString`. -/
def writeVarOctetString (buffer : Buffer) : Action Predictor OerError Unit :=
  skipVarOctetString buffer.length

/-- `createVarOctetString`, with what the caller writes to the predictor it returns, whose size is not
looked at. -/
def createVarOctetString (length : ℕ) (contents : Action Predictor OerError Unit) :
    Action Predictor OerError Unit := do
  skipVarOctetString length
  match (contents.exec empty).1 with
  | .ok () => pure ()
  | .error e => throw e

/-- `write`. -/
def write (bytes : Buffer) : Action Predictor OerError Unit := skip bytes.length

mutual

/-- One call on a predictor. -/
def call : WriterCall → Action Predictor OerError Unit
  | .writeUInt value length => writeUInt value length
  | .writeInt value length => writeInt value length
  | .writeVarUInt value => writeVarUInt value
  | .writeVarInt value => writeVarInt value
  | .writeOctetString buffer length => writeOctetString buffer length
  | .writeVarOctetString buffer => writeVarOctetString buffer
  | .createVarOctetString length contents => createVarOctetString length (run contents)
  | .write buffer => write buffer

/-- A list of calls on a predictor. -/
def run : List WriterCall → Action Predictor OerError Unit
  | [] => pure ()
  | c :: calls => do
    call c
    run calls

end

end Predictor

/-! ### The calls on which the two agree -/

namespace WriterCall

mutual

/-- No method for variable-length integers is given a `Buffer`, at any depth. -/
def takesIntegers : WriterCall → Bool
  | .writeVarUInt (.buffer _) => false
  | .writeVarInt (.buffer _) => false
  | .createVarOctetString _ contents => allTakeIntegers contents
  | _ => true

def allTakeIntegers : List WriterCall → Bool
  | [] => true
  | c :: calls => takesIntegers c && allTakeIntegers calls

end

/-- A fixed-length integer is written in at most eight bytes. -/
def isNarrow : WriterCall → Bool
  | .writeUInt _ length => length ≤ 8
  | .writeInt _ length => length ≤ 8
  | _ => true

end WriterCall

/-- The predictor agrees with the writer about the calls that do not part them. -/
def Predictable (calls : List WriterCall) : Prop :=
  WriterCall.allTakeIntegers calls = true ∧ ∀ c ∈ calls, c.isNarrow = true

/-- Whenever the program completes, it has added `n` bytes, and it took them from the room of a strict
writer. -/
def Writer.Adds (x : Action Writer OerError Unit) (n : ℕ) : Prop :=
  ∀ w w', x.exec w = (.ok (), w') → w'.length = w.length + n ∧ w'.strict = w.strict ∧
    (w.strict = true → w'.rest.length + n = w.rest.length)

/-- The same program on a writer and on a predictor. When the writer completes it, the predictor
completes it under the condition `counts`, and counts no less than was written, and just as much under
the condition `exact`. -/
def Agree (x : Action Writer OerError Unit) (y : Action Predictor OerError Unit) (counts exact : Prop) :
    Prop :=
  ∀ w w', x.exec w = (.ok (), w') → ∃ n m, w'.length = w.length + n ∧ w'.strict = w.strict ∧
    (w.strict = true → w'.rest.length + n = w.rest.length) ∧ n ≤ m ∧ (n = m ↔ exact) ∧
    (counts → ∀ p, y.exec p = (.ok (), ⟨p.size + m⟩)) ∧
    (¬counts → ∀ p, ∃ e p', y.exec p = (.error e, p'))

namespace Agree

variable {x x' : Action Writer OerError Unit} {y y' : Action Predictor OerError Unit}
  {counts counts' exact exact' : Prop}

theorem pure : Agree (Pure.pure ()) (Pure.pure ()) True True := by
  intro w w' h_exec
  cases h_exec
  exact ⟨0, 0, rfl, rfl, fun _ => rfl, le_rfl, by simp, fun _ p => rfl, fun h => absurd trivial h⟩

/-- One call after the other. -/
theorem bind (h : Agree x y counts exact) (h' : Agree x' y' counts' exact') :
    Agree (x >>= fun _ => x') (y >>= fun _ => y') (counts ∧ counts') (exact ∧ exact') := by
  intro w w'' h_exec
  obtain ⟨u, w', h_first, h_second⟩ := exec_bind_eq_ok.mp h_exec
  obtain ⟨n, m, h_length, h_strict, h_rest, h_le, h_eq, h_counts, h_throws⟩ := h w w' h_first
  obtain ⟨n', m', h_length', h_strict', h_rest', h_le', h_eq', h_counts', h_throws'⟩ :=
    h' w' w'' h_second
  refine ⟨n + n', m + m', by omega, h_strict'.trans h_strict, fun h_w => ?_, by omega, ?_, ?_, ?_⟩
  · have h_first_rest := h_rest h_w
    have h_second_rest := h_rest' (h_strict.trans h_w)
    omega
  · -- neither sum makes up for the other
    rw [← h_eq, ← h_eq']
    omega
  · rintro ⟨hc, hc'⟩ p
    rw [exec_bind_ok (h_counts hc p), h_counts' hc', Nat.add_assoc]
  · intro h_not p
    by_cases hc : counts
    · obtain ⟨e, p', h_error⟩ := h_throws' (fun hc' => h_not ⟨hc, hc'⟩) ⟨p.size + m⟩
      exact ⟨e, p', by rw [exec_bind_ok (h_counts hc p), h_error]⟩
    · obtain ⟨e, p', h_error⟩ := h_throws hc p
      exact ⟨e, p', exec_bind_error h_error⟩

/-- The conditions may be spelled otherwise. -/
theorem congr (h : Agree x y counts exact) (hc : counts ↔ counts') (he : exact ↔ exact') :
    Agree x y counts' exact' := by
  rwa [← propext hc, ← propext he]

/-- Throwing on the writer's side is enough. -/
theorem throw (e : OerError) : Agree (MonadExcept.throw e) y counts exact := by
  intro w w' h_exec
  cases h_exec

/-- A check of the writer that the predictor leaves out. -/
theorem throw_or {c : Prop} [Decidable c] {e : OerError} (h : ¬c → Agree x y counts exact) :
    Agree (if c then MonadExcept.throw e else x) y counts exact := by
  split
  · exact throw e
  · next hc => exact h hc

/-- A check that both make. -/
theorem throw_both {c : Prop} [Decidable c] {e e' : OerError} (h : ¬c → Agree x y counts exact) :
    Agree (if c then MonadExcept.throw e else x) (if c then MonadExcept.throw e' else y) counts exact := by
  by_cases hc : c
  · rw [if_pos hc]
    exact throw e
  · rw [if_neg hc, if_neg hc]
    exact h hc

/-- Both compute the same value first. -/
theorem bind_same {α : Type} {z : {σ : Type} → Action σ OerError α} {f : α → Action Writer OerError Unit}
    {g : α → Action Predictor OerError Unit}
    (hz : ∃ r : Except OerError α, ∀ σ (s : σ), (@z σ).exec s = (r, s))
    (h : ∀ v, Agree (f v) (g v) counts exact) : Agree (z >>= f) (z >>= g) counts exact := by
  obtain ⟨r, hz⟩ := hz
  intro w w' h_exec
  cases r with
  | ok v =>
    rw [exec_bind_ok (hz Writer w)] at h_exec
    obtain ⟨n, m, h_length, h_strict, h_rest, h_le, h_eq, h_counts, h_throws⟩ := h v w w' h_exec
    refine ⟨n, m, h_length, h_strict, h_rest, h_le, h_eq, fun hc p => ?_, fun hc p => ?_⟩
    · rw [exec_bind_ok (hz Predictor p), h_counts hc]
    · rw [exec_bind_ok (hz Predictor p)]
      exact h_throws hc p
  | error e =>
    rw [exec_bind_error (hz Writer w)] at h_exec
    cases h_exec

/-- The predictor counts what the writer adds. -/
theorem of_skip {n m : ℕ} (h : Writer.Adds x n) (h_le : n ≤ m) :
    Agree x (Predictor.skip m) True (n = m) := by
  intro w w' h_exec
  obtain ⟨h_length, h_strict, h_rest⟩ := h w w' h_exec
  exact ⟨n, m, h_length, h_strict, h_rest, h_le, Iff.rfl, fun _ p => rfl, fun h => absurd trivial h⟩

end Agree

/-- A program that adds some bytes adds their number. -/
theorem Writer.Adds.of_writes {x : Action Writer OerError Unit} {bytes : Buffer} (h : Writes x bytes) :
    Adds x bytes.length := by
  intro w w' h_exec
  have h_ext : Writer.Extends w bytes w' := h.extends_of_exec h_exec
  refine ⟨?_, h_ext.strict, fun h_strict => ?_⟩
  · rw [length, h_ext.written, List.length_append]
    rfl
  · have h_fits := h_ext.fits h_strict
    rw [h_ext.rest h_fits, List.length_drop]
    omega

theorem agree_write {buffer : Buffer} {m : ℕ} (h : buffer.length ≤ m) :
    Agree (Writer.write buffer) (Predictor.skip m) True (buffer.length = m) :=
  .of_skip (.of_writes (Writer.writes_write buffer)) h

/-! ### Fixed lengths -/

/-- Past eight bytes, `longToBuffer` is shorter than asked for. -/
theorem length_longToBuffer_le (long : BitVec 64) (k : ℕ) :
    (longToBuffer long k).length ≤ k ∧ ((longToBuffer long k).length = k ↔ decide (k ≤ 8) = true) := by
  rw [decide_eq_true_iff]
  by_cases hk : k ≤ 8
  · rw [longToBuffer_eq hk, Bytes.length_toBytes]
    exact ⟨le_rfl, iff_of_true rfl hk⟩
  · rw [length_longToBuffer_of_lt (not_le.mp hk)]
    omega

/-- The `Long` of a value does not depend on the state. -/
theorem exec_longFromValue (value : LongValue) (unsigned : Bool) : ∃ r : Except OerError (BitVec 64),
    ∀ σ (s : σ), (longFromValue value unsigned).exec s = (r, s) := by
  unfold longFromValue
  cases value with
  | number n =>
    simp only
    split
    · exact ⟨_, fun _ _ => rfl⟩
    · exact ⟨_, fun _ _ => rfl⟩
  | fraction => exact ⟨_, fun _ _ => rfl⟩
  | string text =>
    simp only
    split
    · exact ⟨_, fun _ _ => rfl⟩
    · exact ⟨_, fun _ _ => rfl⟩
  | long u bits =>
    simp only
    split
    · exact ⟨_, fun _ _ => rfl⟩
    · exact ⟨_, fun _ _ => rfl⟩

theorem exec_getLongUIntBufferSize (long : BitVec 64) : ∃ r : Except OerError ℕ,
    ∀ σ (s : σ), (getLongUIntBufferSize long).exec s = (r, s) := by
  unfold getLongUIntBufferSize
  split
  · exact ⟨_, fun _ _ => rfl⟩
  · exact ⟨_, fun _ _ => rfl⟩

theorem exec_getLongIntBufferSize (long : BitVec 64) : ∃ r : Except OerError ℕ,
    ∀ σ (s : σ), (getLongIntBufferSize long).exec s = (r, s) := by
  unfold getLongIntBufferSize
  split
  · exact ⟨_, fun _ _ => rfl⟩
  · exact ⟨_, fun _ _ => rfl⟩

/-- A value that the writer computes first, and the predictor does not. -/
theorem Agree.bind_value {α : Type} {z : Action Writer OerError α} {f : α → Action Writer OerError Unit}
    {y : Action Predictor OerError Unit} {counts exact : Prop}
    (hz : ∃ r : Except OerError α, ∀ w : Writer, z.exec w = (r, w))
    (h : ∀ v, Agree (f v) y counts exact) : Agree (z >>= f) y counts exact := by
  obtain ⟨r, hz⟩ := hz
  intro w w' h_exec
  cases r with
  | ok v =>
    rw [exec_bind_ok (hz w)] at h_exec
    exact h v w w' h_exec
  | error e =>
    rw [exec_bind_error (hz w)] at h_exec
    cases h_exec

theorem agree_writeUInt (value : LongValue) (k : ℕ) :
    Agree (Writer.writeUInt value k) (Predictor.writeUInt value k) True (decide (k ≤ 8) = true) := by
  unfold Writer.writeUInt Predictor.writeUInt
  refine .throw_or fun _ => .throw_or fun _ => .throw_or fun _ => .throw_or fun _ => ?_
  split
  · next h_short =>
    have h_six : k ≤ 6 := h_short
    have h_length := Bytes.length_toBytes k value.toNumber.toNat
    refine .throw_or fun _ => .throw_or fun _ => (agree_write h_length.le).congr Iff.rfl ?_
    exact iff_of_true h_length (decide_eq_true (by omega))
  · obtain ⟨r, h_long⟩ := exec_longFromValue value true
    refine .bind_value ⟨r, h_long Writer⟩ fun long => ?_
    obtain ⟨r, h_size⟩ := exec_getLongUIntBufferSize long
    refine .bind_value ⟨r, h_size Writer⟩ fun size => .throw_or fun _ => ?_
    obtain ⟨h_le, h_iff⟩ := length_longToBuffer_le long k
    exact (agree_write h_le).congr Iff.rfl h_iff

theorem agree_writeInt (value : LongValue) (k : ℕ) :
    Agree (Writer.writeInt value k) (Predictor.writeInt value k) True (decide (k ≤ 8) = true) := by
  unfold Writer.writeInt Predictor.writeInt
  refine .throw_or fun _ => .throw_or fun _ => .throw_or fun _ => .throw_or fun _ =>
    .throw_or fun _ => ?_
  split
  · next h_short =>
    have h_six : k ≤ 6 := h_short
    have h_length := Bytes.length_toSignedBytes k value.toNumber
    refine .throw_or fun _ => (agree_write h_length.le).congr Iff.rfl ?_
    exact iff_of_true h_length (decide_eq_true (by omega))
  · obtain ⟨r, h_long⟩ := exec_longFromValue value false
    refine .bind_value ⟨r, h_long Writer⟩ fun long => ?_
    obtain ⟨r, h_size⟩ := exec_getLongIntBufferSize long
    refine .bind_value ⟨r, h_size Writer⟩ fun size => .throw_or fun _ => ?_
    obtain ⟨h_le, h_iff⟩ := length_longToBuffer_le long k
    exact (agree_write h_le).congr Iff.rfl h_iff

/-! ### Variable lengths -/

/-- The length of a prefix and of what comes behind it. -/
theorem measureVarOctetString_eq (n : ℕ) :
    Predictor.measureVarOctetString n = (Writer.lengthPrefix n).length + n := by
  unfold Predictor.measureVarOctetString Writer.lengthPrefix
  by_cases h : n ≤ 127
  · rw [if_neg (by omega), if_pos h, Bytes.length_toBytes]
  · rw [if_pos (by omega), if_neg h, List.length_append, Bytes.length_toBytes, Bytes.length_toBytes]

/-- **Nested strings.** The writer adds the slice that it hands out, whatever is written to it. -/
theorem agree_createVarOctetString {x : Action Writer OerError Unit} {y : Action Predictor OerError Unit}
    {counts exact : Prop} (n : ℕ) (h : Agree x y counts exact) :
    Agree (Writer.createVarOctetString n x) (Predictor.createVarOctetString n y) counts True := by
  intro w w' h_exec
  -- a length that the prefix cannot hold makes the writer throw
  by_cases hn : n < 2 ^ 53
  · rcases Writer.exec_createVarOctetString hn x w with
      ⟨slice, w₁, h_slice, h_create, h_written, h_strict, h_fits, h_rest⟩ | ⟨-, e, w₁, h_create, -⟩
    · rw [h_create] at h_exec
      -- the contents were completed, too
      have h_contents : x.exec (Writer.ofBuffer slice) = (.ok (), (x.exec (Writer.ofBuffer slice)).2) :=
        Prod.ext (Prod.ext_iff.mp h_exec).1 rfl
      obtain rfl : w₁ = w' := (Prod.ext_iff.mp h_exec).2
      obtain ⟨k, m, h_length, -, h_kept, -, -, h_counts, h_throws⟩ := h _ _ h_contents
      have h_kept := h_kept rfl
      -- the slice is filled, whatever the contents wrote
      have h_empty : (Writer.ofBuffer slice).length = 0 := rfl
      have h_full : (Writer.ofBuffer slice).rest.length = n := h_slice
      refine ⟨Predictor.measureVarOctetString n, Predictor.measureVarOctetString n, ?_, h_strict, ?_,
        le_rfl, iff_of_true rfl trivial, fun hc p => ?_, fun hc p => ?_⟩
      · rw [Writer.length, h_written, measureVarOctetString_eq, List.length_append, List.length_append,
          List.length_append]
        change _ + _ + ((x.exec (Writer.ofBuffer slice)).2.length + _) = w.length + _
        change w.length + _ + _ = _
        omega
      · intro h_w
        -- with room for it the buffer has shrunk by the whole string
        have h_room := h_fits h_w
        rw [(h_rest h_room).2, measureVarOctetString_eq, List.length_drop]
        omega
      · have h_skip : (Predictor.skipVarOctetString n).exec p =
            (.ok (), ⟨p.size + Predictor.measureVarOctetString n⟩) := rfl
        rw [Predictor.createVarOctetString, exec_bind_ok h_skip, h_counts hc]
        rfl
      · have h_skip : (Predictor.skipVarOctetString n).exec p =
            (.ok (), ⟨p.size + Predictor.measureVarOctetString n⟩) := rfl
        -- contents that the predictor refuses make it throw
        obtain ⟨e, p', h_error⟩ := h_throws hc Predictor.empty
        rw [Predictor.createVarOctetString, exec_bind_ok h_skip, h_error]
        exact ⟨e, _, rfl⟩
    · rw [h_create] at h_exec
      cases h_exec
  · obtain ⟨e, w₁, h_length⟩ := Writer.throws_writeLengthPrefix (not_lt.mp hn) w
    rw [Writer.createVarOctetString, exec_bind_error h_length] at h_exec
    cases h_exec

/-- Only lengths that can be written need to be looked at. -/
theorem Agree.of_lengthPrefix {f : Unit → Action Writer OerError Unit}
    {y : Action Predictor OerError Unit} {counts exact : Prop} {n : ℕ}
    (h : n < 2 ^ 53 → Agree (Writer.writeLengthPrefix n >>= f) y counts exact) :
    Agree (Writer.writeLengthPrefix n >>= f) y counts exact := by
  intro w w' h_exec
  by_cases hn : n < 2 ^ 53
  · exact h hn w w' h_exec
  · obtain ⟨e, w₁, h_length⟩ := Writer.throws_writeLengthPrefix (not_lt.mp hn) w
    rw [exec_bind_error h_length] at h_exec
    cases h_exec

theorem agree_writeVarOctetString (buffer : Buffer) :
    Agree (Writer.writeVarOctetString buffer) (Predictor.writeVarOctetString buffer) True True := by
  refine .of_lengthPrefix fun hn => ?_
  have h_adds := Writer.Adds.of_writes (@Writer.writes_writeVarOctetString buffer hn)
  rw [List.length_append, ← measureVarOctetString_eq] at h_adds
  exact (Agree.of_skip h_adds le_rfl).congr Iff.rfl (iff_of_true rfl trivial)

/-- An integer of the length that both have computed. -/
theorem agree_integer {x : Action Writer OerError Unit} {y : Action Predictor OerError Unit} {exact : Prop}
    (k : ℕ) (h : Agree x y True exact) :
    Agree (Writer.createVarOctetString k x) (Predictor.skipVarOctetString k) True True := by
  intro w w' h_exec
  obtain ⟨n, m, h_length, h_strict, h_rest, h_le, h_eq, h_counts, -⟩ :=
    agree_createVarOctetString k h w w' h_exec
  refine ⟨n, m, h_length, h_strict, h_rest, h_le, h_eq, fun _ p => ?_, fun h => absurd trivial h⟩
  -- the predictor of the contents is left out
  have h_both := h_counts trivial p
  rw [Predictor.createVarOctetString] at h_both
  obtain ⟨u, p', h_skip, h_contents⟩ := exec_bind_eq_ok.mp h_both
  rw [h_skip]
  split at h_contents
  · exact h_contents
  · cases h_contents

/-- A `Buffer` is taken by the writer only. -/
theorem agree_buffer (buffer : Buffer) (e : OerError) :
    Agree (Writer.writeVarOctetString buffer) (throw e) False True := by
  intro w w' h_exec
  obtain ⟨n, m, h_length, h_strict, h_rest, h_le, h_eq, -, -⟩ :=
    agree_writeVarOctetString buffer w w' h_exec
  exact ⟨n, m, h_length, h_strict, h_rest, h_le, h_eq, fun h => h.elim, fun _ p => ⟨e, p, rfl⟩⟩

theorem agree_writeVarUInt (value : LongValue) :
    Agree (Writer.writeVarUInt (.value value)) (Predictor.writeVarUInt (.value value)) True True := by
  -- all but numbers go through a `Long` in both
  have h_long (value : LongValue) : Agree (longFromValue value true >>= fun long =>
        getLongUIntBufferSize long >>= fun k =>
          Writer.createVarOctetString k (Writer.writeUInt (.long true long) k))
      (longFromValue value true >>= fun long => getLongUIntBufferSize long >>= fun k =>
        Predictor.skipVarOctetString k) True True := by
    refine .bind_same (exec_longFromValue value true) fun long => ?_
    refine .bind_same (exec_getLongUIntBufferSize long) fun k => ?_
    exact agree_integer k (agree_writeUInt _ k)
  refine .throw_both fun _ => ?_
  cases value with
  | number n =>
    by_cases h_neg : n < 0
    · -- the writer refuses a negative number later
      intro w w' h_exec
      have h_throw : ∃ e, Writer.writeUInt (.number n) (getUIntBufferSize n) = throw e := by
        rw [getUIntBufferSize_of_neg h_neg]
        refine ⟨.error "UInt must be positive", ?_⟩
        have h_above : (LongValue.number n).isNumberAbove Writer.maxSafeInteger = false :=
          decide_eq_false (by unfold Writer.maxSafeInteger; omega)
        rw [Writer.writeUInt, h_above]
        exact if_pos h_neg
      obtain ⟨e, h_throw⟩ := h_throw
      obtain ⟨e', w₁, h_error⟩ := @Writer.throws_createVarOctetString (getUIntBufferSize n)
        (Writer.writeUInt (.number n) (getUIntBufferSize n)) (fun slice _ => ⟨e, _, by rw [h_throw]; rfl⟩) w
      rw [h_error] at h_exec
      cases h_exec
    · simp only [if_neg h_neg]
      exact agree_integer _ (agree_writeUInt _ _)
  | fraction => exact h_long .fraction
  | string text => exact h_long (.string text)
  | long u bits => exact h_long (.long u bits)

theorem agree_writeVarInt (value : LongValue) :
    Agree (Writer.writeVarInt (.value value)) (Predictor.writeVarInt (.value value)) True True := by
  have h_long (value : LongValue) : Agree (longFromValue value false >>= fun long =>
        getLongIntBufferSize long >>= fun k =>
          Writer.createVarOctetString k (Writer.writeInt (.long false long) k))
      (longFromValue value false >>= fun long => getLongIntBufferSize long >>= fun k =>
        Predictor.skipVarOctetString k) True True := by
    refine .bind_same (exec_longFromValue value false) fun long => ?_
    refine .bind_same (exec_getLongIntBufferSize long) fun k => ?_
    exact agree_integer k (agree_writeInt _ k)
  refine .throw_both fun _ => .throw_or fun _ => .throw_or fun _ => ?_
  cases value with
  | number n => exact agree_integer _ (agree_writeInt _ _)
  | fraction => exact h_long .fraction
  | string text => exact h_long (.string text)
  | long u bits => exact h_long (.long u bits)

theorem agree_writeOctetString (buffer : Buffer) (length : ℕ) :
    Agree (Writer.writeOctetString buffer length) (Predictor.writeOctetString buffer length) True True := by
  refine .throw_both fun h_length => ?_
  obtain rfl := not_not.mp h_length
  exact (agree_write le_rfl).congr Iff.rfl (iff_of_true rfl trivial)

/-! ### Programs of calls -/

mutual

/-- **One call.** -/
theorem agree_call : ∀ c : WriterCall,
    Agree (Writer.call c) (Predictor.call c) (c.takesIntegers = true) (c.isNarrow = true)
  | .writeUInt value length =>
    (agree_writeUInt value length).congr (iff_of_true trivial rfl) Iff.rfl
  | .writeInt value length => (agree_writeInt value length).congr (iff_of_true trivial rfl) Iff.rfl
  | .writeVarUInt (.buffer buffer) =>
    (agree_buffer buffer _).congr (iff_of_false id Bool.false_ne_true) (iff_of_true trivial rfl)
  | .writeVarUInt (.value value) =>
    (agree_writeVarUInt value).congr (iff_of_true trivial rfl) (iff_of_true trivial rfl)
  | .writeVarInt (.buffer buffer) =>
    (agree_buffer buffer _).congr (iff_of_false id Bool.false_ne_true) (iff_of_true trivial rfl)
  | .writeVarInt (.value value) =>
    (agree_writeVarInt value).congr (iff_of_true trivial rfl) (iff_of_true trivial rfl)
  | .writeOctetString buffer length =>
    (agree_writeOctetString buffer length).congr (iff_of_true trivial rfl) (iff_of_true trivial rfl)
  | .writeVarOctetString buffer =>
    (agree_writeVarOctetString buffer).congr (iff_of_true trivial rfl) (iff_of_true trivial rfl)
  | .createVarOctetString length contents =>
    (agree_createVarOctetString length (agree_run contents)).congr Iff.rfl (iff_of_true trivial rfl)
  | .write _ => (agree_write le_rfl).congr (iff_of_true trivial rfl) (iff_of_true rfl rfl)

/-- **A list of calls**, by the calls one after the other. -/
theorem agree_run : ∀ calls : List WriterCall,
    Agree (Writer.run calls) (Predictor.run calls) (WriterCall.allTakeIntegers calls = true)
      (∀ c ∈ calls, c.isNarrow = true)
  | [] => Agree.pure.congr (iff_of_true trivial rfl) (iff_of_true trivial fun c h => absurd h List.not_mem_nil)
  | c :: calls =>
    ((agree_call c).bind (agree_run calls)).congr Bool.and_eq_true_iff.symm (by rw [List.forall_mem_cons])

end

/-- **The predictor agrees with the writer** on calls that a new writer completes: it completes them with
the length written exactly when no `Buffer` stands for an integer and no fixed-length integer is longer
than eight bytes. -/
theorem predicts_iff {calls : List WriterCall} {w : Writer}
    (h : (Writer.run calls).exec Writer.empty = (.ok (), w)) :
    (∃ p, (Predictor.run calls).exec Predictor.empty = (.ok (), p) ∧ p.length = w.length) ↔
      Predictable calls := by
  obtain ⟨n, m, h_length, -, -, -, h_eq, h_counts, h_throws⟩ := agree_run calls _ w h
  have h_written : w.length = n := h_length.trans (Nat.zero_add n)
  constructor
  · rintro ⟨p, h_exec, h_same⟩
    by_cases h_integers : WriterCall.allTakeIntegers calls = true
    · rw [h_counts h_integers] at h_exec
      cases h_exec
      have h_sum : Predictor.empty.size + m = w.length := h_same
      refine ⟨h_integers, h_eq.mp ?_⟩
      rw [← h_written, ← h_sum]
      exact Nat.zero_add m
    · obtain ⟨e, p', h_error⟩ := h_throws h_integers Predictor.empty
      rw [h_exec] at h_error
      cases h_error
  · rintro ⟨h_integers, h_narrow⟩
    refine ⟨_, h_counts h_integers Predictor.empty, ?_⟩
    rw [h_written, h_eq.mpr h_narrow]
    exact Nat.zero_add m

/-- An octet string with an integer in it is predicted. -/
theorem predicts_iff_createVarOctetString :
    ∃ p, (Predictor.run [.createVarOctetString 4 [.writeVarUInt (.value (.number 300))]]).exec
        Predictor.empty = (.ok (), p) ∧
      p.length = ((Writer.run [.createVarOctetString 4 [.writeVarUInt (.value (.number 300))]]).exec
        Writer.empty).2.length :=
  (predicts_iff (exec_of_fst (by decide +kernel))).mpr ⟨by decide, by decide⟩

/-- A `Buffer` that stands for an integer is written, and not predicted. -/
theorem not_predicts_buffer :
    ∃ calls w, (Writer.run calls).exec Writer.empty = (.ok (), w) ∧
      ¬∃ p, (Predictor.run calls).exec Predictor.empty = (.ok (), p) ∧ p.length = w.length := by
  refine ⟨[.writeVarUInt (.buffer [1])], _, exec_of_fst (by decide +kernel), ?_⟩
  rintro ⟨p, h_exec, -⟩
  cases h_exec

end Interledger.Oer
