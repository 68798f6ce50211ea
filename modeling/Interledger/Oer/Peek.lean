import Interledger.Oer.Reader

/-!
# Peeking

The operations of `Reader` that look at a value and leave it where it is. Those for a fixed length only
compute an offset. The others set a bookmark, read, and restore the cursor, and when the read throws
nothing restores it: the bookmark stays on the stack, and the cursor where the read left it.

## Main results

* `Looks`, `MovesCursor` — what the operations for a fixed length and what the reads can change;
* `isPeekOf_peeking` — a read between a bookmark and its restoration is pure if it returns;
* `peeks_pure_iff` — which peeks are pure and agree with their reads, and where the cursor is after any
  operations.
-/

namespace Interledger.Oer.Reader

open Ilp (Buffer)
open Interledger.Action

/-! ### Looking and moving -/

section Programs

variable {α β : Type}

/-- The program changes nothing and does not depend on the bookmarks, and from a position of the buffer
it returns only if so many bytes are left. -/
def Looks (x : Action Reader OerError α) (n : ℕ) : Prop :=
  ∀ buffer cursor,
    (∃ a, (cursor ≤ buffer.length → cursor + n ≤ buffer.length) ∧
      ∀ bookmarks, x.exec ⟨buffer, cursor, bookmarks⟩ = (.ok a, ⟨buffer, cursor, bookmarks⟩)) ∨
    ∃ e, ∀ bookmarks, x.exec ⟨buffer, cursor, bookmarks⟩ = (.error e, ⟨buffer, cursor, bookmarks⟩)

/-- From a position of the buffer the program changes only the cursor, to another one, and does not
depend on the bookmarks. -/
def MovesCursor (x : Action Reader OerError α) : Prop :=
  ∀ buffer cursor, cursor ≤ buffer.length → ∃ result cursor', cursor' ≤ buffer.length ∧
    ∀ bookmarks, x.exec ⟨buffer, cursor, bookmarks⟩ = (result, ⟨buffer, cursor', bookmarks⟩)

/-- The peek leaves the reader as it is, and returns what the read returns. -/
def IsPeekOf (p x : Action Reader OerError α) (r : Reader) : Prop :=
  (p.exec r).2 = r ∧ ∀ a, (p.exec r).1 = .ok a ↔ (x.exec r).1 = .ok a

namespace Looks

variable {x : Action Reader OerError α} {n : ℕ}

theorem throw (e : OerError) (n : ℕ) : Looks (MonadExcept.throw e : Action Reader OerError α) n :=
  fun _ _ => .inr ⟨e, fun _ => rfl⟩

/-- One look after the other. -/
theorem bind {f : α → Action Reader OerError β} (hx : Looks x n) (hf : ∀ a, Looks (f a) 0) :
    Looks (x >>= f) n := by
  intro buffer cursor
  rcases hx buffer cursor with ⟨a, h_left, h_exec⟩ | ⟨e, h_exec⟩
  · rcases hf a buffer cursor with ⟨b, -, h_next⟩ | ⟨e, h_next⟩
    · exact .inl ⟨b, h_left, fun bookmarks => (exec_bind_ok (h_exec bookmarks)).trans (h_next bookmarks)⟩
    · exact .inr ⟨e, fun bookmarks => (exec_bind_ok (h_exec bookmarks)).trans (h_next bookmarks)⟩
  · exact .inr ⟨e, fun bookmarks => exec_bind_error (h_exec bookmarks)⟩

/-- What is looked at is passed on. -/
theorem map (hx : Looks x n) (f : α → β) : Looks (x >>= fun a => pure (f a)) n := by
  intro buffer cursor
  rcases hx buffer cursor with ⟨a, h_left, h_exec⟩ | ⟨e, h_exec⟩
  · exact .inl ⟨f a, h_left, fun bookmarks => exec_bind_ok (h_exec bookmarks)⟩
  · exact .inr ⟨e, fun bookmarks => exec_bind_error (h_exec bookmarks)⟩

/-- Moving past what was looked at stays in the buffer, -/
theorem movesCursor (hx : Looks x n) :
    MovesCursor (x >>= fun a => advance n >>= fun _ => pure a) := by
  intro buffer cursor h_valid
  rcases hx buffer cursor with ⟨a, h_left, h_exec⟩ | ⟨e, h_exec⟩
  · exact ⟨.ok a, cursor + n, h_left h_valid, fun bookmarks => exec_bind_ok (h_exec bookmarks)⟩
  · exact ⟨.error e, cursor, h_valid, fun bookmarks => exec_bind_error (h_exec bookmarks)⟩

/-- and the look is the peek for that read. -/
theorem isPeekOf (hx : Looks x n) (r : Reader) :
    IsPeekOf x (x >>= fun a => advance n >>= fun _ => pure a) r := by
  rcases hx r.buffer r.cursor with ⟨a, -, h_exec⟩ | ⟨e, h_exec⟩
  · have h_read : (x >>= fun a => advance n >>= fun _ => pure a).exec r = (.ok a, Cursor.skip n r) :=
      exec_bind_ok (h_exec r.bookmarks)
    have h_peek : x.exec r = (.ok a, r) := h_exec r.bookmarks
    refine ⟨congrArg Prod.snd h_peek, fun b => ?_⟩
    rw [h_read, h_peek]
  · have h_read : (x >>= fun a => advance n >>= fun _ => pure a).exec r = (.error e, r) :=
      exec_bind_error (h_exec r.bookmarks)
    have h_peek : x.exec r = (.error e, r) := h_exec r.bookmarks
    refine ⟨congrArg Prod.snd h_peek, fun b => ?_⟩
    rw [h_read, h_peek]

end Looks

namespace MovesCursor

theorem pure (a : α) : MovesCursor (Pure.pure a : Action Reader OerError α) :=
  fun _ cursor h_valid => ⟨.ok a, cursor, h_valid, fun _ => rfl⟩

theorem throw (e : OerError) : MovesCursor (MonadExcept.throw e : Action Reader OerError α) :=
  fun _ cursor h_valid => ⟨.error e, cursor, h_valid, fun _ => rfl⟩

theorem bind {x : Action Reader OerError α} {f : α → Action Reader OerError β} (hx : MovesCursor x)
    (hf : ∀ a, MovesCursor (f a)) : MovesCursor (x >>= f) := by
  intro buffer cursor h_valid
  obtain ⟨result, cursor', h_valid', h_exec⟩ := hx buffer cursor h_valid
  cases result with
  | ok a =>
    obtain ⟨result', cursor'', h_valid'', h_next⟩ := hf a buffer cursor' h_valid'
    exact ⟨result', cursor'', h_valid'', fun bookmarks =>
      (exec_bind_ok (h_exec bookmarks)).trans (h_next bookmarks)⟩
  | error e =>
    exact ⟨.error e, cursor', h_valid', fun bookmarks => exec_bind_error (h_exec bookmarks)⟩

theorem ite {c : Prop} [Decidable c] {x y : Action Reader OerError α} (hx : c → MovesCursor x)
    (hy : ¬c → MovesCursor y) : MovesCursor (if c then x else y) := by
  by_cases h : c
  · rw [if_pos h]
    exact hx h
  · rw [if_neg h]
    exact hy h

/-- Moving the cursor stays in the buffer. -/
theorem valid {x : Action Reader OerError α} {r : Reader} (hx : MovesCursor x) (h_valid : Cursor.Valid r) :
    Cursor.Valid (x.exec r).2 := by
  obtain ⟨result, cursor', h_valid', h_exec⟩ := hx r.buffer r.cursor h_valid
  have h_exec : x.exec r = (result, ⟨r.buffer, cursor', r.bookmarks⟩) := h_exec r.bookmarks
  rw [h_exec]
  exact h_valid'

end MovesCursor

/-- A peek and a read that are passed on in the same way. -/
theorem IsPeekOf.map {p x : Action Reader OerError α} {r : Reader} (h : IsPeekOf p x r) (f : α → β) :
    IsPeekOf (p >>= fun a => pure (f a)) (x >>= fun a => pure (f a)) r := by
  obtain ⟨h_state, h_value⟩ := h
  rw [IsPeekOf, exec_bind, exec_bind]
  cases h_peek : p.exec r with
  | mk peeked r' =>
    cases h_read : x.exec r with
    | mk result r'' =>
      rw [h_peek, h_read] at h_value
      rw [h_peek] at h_state
      cases peeked with
      | ok a =>
        have h_same : result = .ok a := (h_value a).mp rfl
        rw [h_same]
        exact ⟨h_state, fun b => Iff.rfl⟩
      | error e =>
        cases result with
        | ok a => exact nomatch (h_value a).mpr rfl
        | error e' => exact ⟨h_state, fun b => iff_of_false nofun nofun⟩

/-! ### Bookmarks -/

/-- **A read between a bookmark and its restoration.** If the read returns, the reader is as it was;
otherwise the bookmark stays. -/
theorem peeking_cases {x : Action Reader OerError α} {r : Reader} (hx : MovesCursor x)
    (h_valid : Cursor.Valid r) :
    (∃ a, (x.exec r).1 = .ok a ∧ (peeking x).exec r = (.ok a, r)) ∨
      ∃ e cursor, (x.exec r).1 = .error e ∧ cursor ≤ r.buffer.length ∧
        (peeking x).exec r = (.error e, ⟨r.buffer, cursor, r.cursor :: r.bookmarks⟩) := by
  obtain ⟨result, cursor', h_valid', h_exec⟩ := hx r.buffer r.cursor h_valid
  have h_read : x.exec r = (result, ⟨r.buffer, cursor', r.bookmarks⟩) := h_exec r.bookmarks
  have h_marked := h_exec (r.cursor :: r.bookmarks)
  have h_bookmark : bookmark.exec r = (.ok (), ⟨r.buffer, r.cursor, r.cursor :: r.bookmarks⟩) := rfl
  rw [peeking, exec_bind_ok h_bookmark, h_read]
  cases result with
  | ok a =>
    rw [exec_bind_ok h_marked]
    exact .inl ⟨a, rfl, rfl⟩
  | error e =>
    rw [exec_bind_error h_marked]
    exact .inr ⟨e, cursor', rfl, h_valid', rfl⟩

/-- **Such a peek is pure if the read returns**, and only then. -/
theorem isPeekOf_peeking {x : Action Reader OerError α} {r : Reader} (hx : MovesCursor x)
    (h_valid : Cursor.Valid r) : IsPeekOf (peeking x) x r ↔ ∃ a, (x.exec r).1 = .ok a := by
  rcases peeking_cases hx h_valid with ⟨a, h_read, h_peek⟩ | ⟨e, cursor, h_read, -, h_peek⟩
  · rw [IsPeekOf, h_peek, h_read]
    exact iff_of_true ⟨rfl, fun b => Iff.rfl⟩ ⟨a, rfl⟩
  · rw [IsPeekOf, h_peek, h_read]
    refine iff_of_false (fun h => ?_) fun h => ?_
    · -- one more bookmark than before
      have h_marks := congrArg (List.length ∘ Reader.bookmarks) h.1
      exact absurd h_marks (Nat.succ_ne_self _)
    · obtain ⟨a, h_ok⟩ := h
      cases h_ok

/-- The same with the value passed on. -/
theorem isPeekOf_peeking_map {x : Action Reader OerError α} {r : Reader} (hx : MovesCursor x)
    (h_valid : Cursor.Valid r) (f : α → β) :
    IsPeekOf (peeking x >>= fun a => pure (f a)) (x >>= fun a => pure (f a)) r ↔
      ∃ a, (x.exec r).1 = .ok a := by
  constructor
  · intro h
    by_contra h_none
    rcases peeking_cases hx h_valid with ⟨a, h_read, -⟩ | ⟨e, cursor, -, -, h_peek⟩
    · exact h_none ⟨a, h_read⟩
    · have h_state := h.1
      rw [exec_bind_error h_peek] at h_state
      have h_marks := congrArg (List.length ∘ Reader.bookmarks) h_state
      exact absurd h_marks (Nat.succ_ne_self _)
  · intro h
    exact ((isPeekOf_peeking hx h_valid).mpr h).map f

/-- In any case the cursor stays in the buffer. -/
theorem valid_peeking {x : Action Reader OerError α} {r : Reader} (hx : MovesCursor x)
    (h_valid : Cursor.Valid r) : Cursor.Valid ((peeking x).exec r).2 := by
  rcases peeking_cases hx h_valid with ⟨a, -, h_peek⟩ | ⟨e, cursor, -, h_valid', h_peek⟩
  · rw [h_peek]
    exact h_valid
  · rw [h_peek]
    exact h_valid'

/-- Passing on a value does not move the cursor. -/
theorem valid_map {x : Action Reader OerError α} {r : Reader} (h : Cursor.Valid (x.exec r).2) (f : α → β) :
    Cursor.Valid ((x >>= fun a => pure (f a)).exec r).2 := by
  rw [exec_bind]
  cases h_exec : x.exec r with
  | mk result r' =>
    rw [h_exec] at h
    cases result with
    | ok a => exact h
    | error e => exact h

end Programs

/-! ### The programs of the reader -/

theorem looks_ensureAvailable (n : ℕ) : Looks (ensureAvailable n) n := by
  intro buffer cursor
  by_cases h_short : buffer.length < cursor + n
  · exact .inr ⟨_, fun bookmarks => by
      rw [ensureAvailable, exec_bind_ok (exec_get _), if_pos h_short]
      dsimp only
      rfl⟩
  · exact .inl ⟨(), fun _ => not_lt.mp h_short, fun bookmarks => by
      rw [ensureAvailable, exec_bind_ok (exec_get _), if_neg h_short]
      rfl⟩

theorem looks_peek (n : ℕ) : Looks (peek n) n :=
  (looks_ensureAvailable n).bind fun _ buffer cursor =>
    .inl ⟨(buffer.drop cursor).take n, id, fun _ => rfl⟩

theorem looks_bytesAtCursor (n : ℕ) : Looks (bytesAtCursor n) n := by
  intro buffer cursor
  by_cases h_short : buffer.length < cursor + n
  · exact .inr ⟨.rangeError, fun bookmarks => by
      rw [bytesAtCursor, exec_bind_ok (exec_get _), if_pos h_short]
      rfl⟩
  · exact .inl ⟨(buffer.drop cursor).take n, fun _ => not_lt.mp h_short, fun bookmarks => by
      rw [bytesAtCursor, exec_bind_ok (exec_get _), if_neg h_short]
      rfl⟩

/-- Converting bytes does not look at the reader. -/
theorem bufferToLong_cases {σ : Type} (bytes : Buffer) (unsigned : Bool) :
    (bytes.length ≤ 8 ∧ ∃ long, (bufferToLong bytes unsigned : Action σ OerError (BitVec 64)) = pure long) ∨
      8 < bytes.length ∧ ∃ e, (bufferToLong bytes unsigned : Action σ OerError (BitVec 64)) = throw e := by
  unfold bufferToLong
  by_cases h_long : bytes.length > 8
  · rw [if_pos h_long]
    exact .inr ⟨h_long, _, rfl⟩
  · rw [if_neg h_long]
    refine .inl ⟨not_lt.mp h_long, ?_⟩
    split
    · exact ⟨_, rfl⟩
    · exact ⟨_, rfl⟩

section Fixed

variable {α : Type} (n : ℕ)

/-- The two readers of numbers share their checks. -/
theorem number_cases (f : Buffer → α) (e e' e'' : OerError) :
    let p : Action Reader OerError α :=
      if 1 ≤ n ∧ n ≤ maxSafeBytes then do return f (← bytesAtCursor n) else throw e
    let x : Action Reader OerError α :=
      if n < 1 then throw e' else if maxSafeBytes < n then throw e''
      else do
        let bytes ← bytesAtCursor n
        advance n
        return f bytes
    Looks p n ∧ MovesCursor x ∧ ∀ r, IsPeekOf p x r := by
  intro p x
  by_cases h : 1 ≤ n ∧ n ≤ maxSafeBytes
  · have h_peek : p = (bytesAtCursor n >>= fun bytes => pure (f bytes)) := if_pos h
    have h_read : x = (p >>= fun a => advance n >>= fun _ => pure a) := by
      rw [h_peek, bind_assoc]
      exact (if_neg (not_lt.mpr h.1)).trans (if_neg (not_lt.mpr h.2))
    have h_looks : Looks p n := h_peek ▸ (looks_bytesAtCursor n).map f
    rw [h_read]
    exact ⟨h_looks, h_looks.movesCursor, h_looks.isPeekOf⟩
  · have h_peek : p = throw e := if_neg h
    obtain ⟨e₁, h_read⟩ : ∃ e₁, x = throw e₁ := by
      by_cases h_pos : n < 1
      · exact ⟨e', if_pos h_pos⟩
      · have h_large : maxSafeBytes < n := by
          by_contra h_small
          exact h ⟨not_lt.mp h_pos, not_lt.mp h_small⟩
        exact ⟨e'', (if_neg h_pos).trans (if_pos h_large)⟩
    rw [h_peek, h_read]
    refine ⟨.throw e n, .throw e₁, fun r => ⟨rfl, fun a => iff_of_false nofun nofun⟩⟩

/-- A look at a `Long`. -/
theorem looks_long (zero : BitVec 64) (e : OerError) (unsigned : Bool) :
    Looks (if n = 0 then pure zero else if n > 8 then throw e
      else do bufferToLong (← peek n) unsigned) n := by
  by_cases h_zero : n = 0
  · rw [if_pos h_zero, h_zero]
    exact fun _ _ => .inl ⟨zero, id, fun _ => rfl⟩
  rw [if_neg h_zero]
  by_cases h_large : n > 8
  · rw [if_pos h_large]
    exact .throw e n
  rw [if_neg h_large]
  refine (looks_peek n).bind fun bytes => ?_
  rcases bufferToLong_cases (σ := Reader) bytes unsigned with ⟨-, long, h_long⟩ | ⟨-, e, h_throw⟩
  · rw [h_long]
    exact fun _ _ => .inl ⟨long, id, fun _ => rfl⟩
  · rw [h_throw]
    exact .throw e 0

theorem looks_peekUIntLong : Looks (peekUIntLong n) n := looks_long n _ _ true

theorem looks_peekIntLong : Looks (peekIntLong n) n := looks_long n _ _ false

theorem movesCursor_readUIntNumber : MovesCursor (readUIntNumber n) :=
  (number_cases n Bytes.ofBytes .rangeError _ _).2.1

theorem movesCursor_readIntNumber : MovesCursor (readIntNumber n) :=
  (number_cases n Bytes.ofSignedBytes .rangeError _ _).2.1

theorem movesCursor_read : MovesCursor (read n) := (looks_peek n).movesCursor

theorem movesCursor_skip : MovesCursor (skip n) := by
  have h_skip : skip n = (ensureAvailable n >>= fun a => advance n >>= fun _ => pure a) :=
    congrArg (ensureAvailable n >>= ·) (funext fun _ => (bind_pure (advance n)).symm)
  rw [h_skip]
  exact (looks_ensureAvailable n).movesCursor

/-- **Peeks at a fixed number of bytes** are peeks for the reads of as many. -/
theorem isPeekOf_fixed (r : Reader) :
    IsPeekOf (peekUIntNumber n) (readUIntNumber n) r ∧ IsPeekOf (peekUIntLong n) (readUIntLong n) r ∧
      IsPeekOf (peekUInt n) (readUInt n) r ∧ IsPeekOf (peekIntNumber n) (readIntNumber n) r ∧
      IsPeekOf (peekIntLong n) (readIntLong n) r ∧ IsPeekOf (peekInt n) (readInt n) r ∧
      IsPeekOf (peek n) (read n) r := by
  have h_uint : IsPeekOf (peekUIntNumber n) (readUIntNumber n) r :=
    (number_cases n Bytes.ofBytes _ _ _).2.2 r
  have h_int : IsPeekOf (peekIntNumber n) (readIntNumber n) r :=
    (number_cases n Bytes.ofSignedBytes _ _ _).2.2 r
  have h_uint_long : IsPeekOf (peekUIntLong n) (readUIntLong n) r := (looks_peekUIntLong n).isPeekOf r
  have h_int_long : IsPeekOf (peekIntLong n) (readIntLong n) r := (looks_peekIntLong n).isPeekOf r
  refine ⟨h_uint, h_uint_long, ?_, h_int, h_int_long, ?_, (looks_peek n).isPeekOf r⟩
  · unfold peekUInt readUInt
    split
    · exact h_uint.map _
    · exact h_uint_long.map _
  · unfold peekInt readInt
    split
    · exact h_int.map _
    · exact h_int_long.map _

theorem movesCursor_readUInt : MovesCursor (readUInt n) :=
  .ite (fun _ => .bind (movesCursor_readUIntNumber n) fun _ => .pure _) fun _ =>
    .bind (looks_peekUIntLong n).movesCursor fun _ => .pure _

theorem movesCursor_readInt : MovesCursor (readInt n) :=
  .ite (fun _ => .bind (movesCursor_readIntNumber n) fun _ => .pure _) fun _ =>
    .bind (looks_peekIntLong n).movesCursor fun _ => .pure _

end Fixed

/-! ### Values of variable length -/

theorem movesCursor_readLongLength (n : ℕ) : MovesCursor (readLongLength n) := by
  have h_check (m : ℕ) (e : OerError) :
      MovesCursor (if n = 0 ∨ (m : ℤ) < minLength n then throw e else pure m) :=
    .ite (fun _ => .throw e) fun _ => .pure m
  unfold readLongLength
  by_cases h_zero : n = 0
  · rw [if_pos h_zero]
    exact .bind (.pure 0) fun m => h_check m _
  · rw [if_neg h_zero]
    exact .bind (movesCursor_readUIntNumber n) fun m => h_check m _

theorem movesCursor_readLengthPrefix : MovesCursor readLengthPrefix := by
  unfold readLengthPrefix
  exact .bind (movesCursor_readUIntNumber 1) fun length =>
    .ite (fun _ => movesCursor_readLongLength _) fun _ => .pure _

theorem movesCursor_readVarOctetString : MovesCursor readVarOctetString :=
  .bind movesCursor_readLengthPrefix movesCursor_read

theorem movesCursor_skipVarOctetString : MovesCursor skipVarOctetString :=
  .bind movesCursor_readLengthPrefix movesCursor_skip

section Var

variable {α : Type}

/-- The part that the four readers of numbers share: they look at the length first. -/
def varNumber (x : ℕ → Action Reader OerError α) (e e' : OerError) : Action Reader OerError α := do
  let r ← get
  match r.buffer[r.cursor]? with
  | some length =>
    if length = 0 then throw e
    else if length.toNat ≤ maxSafeBytes then do
      advance 1
      x length.toNat
    else throw e'
  | none => throw e'

theorem movesCursor_varNumber {x : ℕ → Action Reader OerError α} (hx : ∀ n, MovesCursor (x n))
    (e e' : OerError) : MovesCursor (varNumber x e e') := by
  intro buffer cursor h_valid
  cases h_byte : buffer[cursor]? with
  | none =>
    refine ⟨.error e', cursor, h_valid, fun bookmarks => ?_⟩
    rw [varNumber, exec_bind_ok (exec_get _)]
    simp only [h_byte]
    rfl
  | some length =>
    have h_lt : cursor < buffer.length := (List.getElem?_eq_some_iff.mp h_byte).1
    by_cases h_zero : length = 0
    · refine ⟨.error e, cursor, h_valid, fun bookmarks => ?_⟩
      rw [varNumber, exec_bind_ok (exec_get _)]
      simp only [h_byte, if_pos h_zero]
      rfl
    by_cases h_short : length.toNat ≤ maxSafeBytes
    · obtain ⟨result, cursor', h_valid', h_exec⟩ := hx length.toNat buffer (cursor + 1) h_lt
      refine ⟨result, cursor', h_valid', fun bookmarks => ?_⟩
      rw [varNumber, exec_bind_ok (exec_get _)]
      simp only [h_byte, if_neg h_zero, if_pos h_short]
      exact h_exec bookmarks
    · refine ⟨.error e', cursor, h_valid, fun bookmarks => ?_⟩
      rw [varNumber, exec_bind_ok (exec_get _)]
      simp only [h_byte, if_neg h_zero, if_neg h_short]
      rfl

/-- A number is next: its length of one to six bytes, and so many bytes. -/
def AtNumber (r : Reader) : Prop :=
  ∃ value more, 1 ≤ value.length ∧ value.length ≤ maxSafeBytes ∧
    Cursor.rest r = UInt8.ofNat value.length :: value ++ more

/-- An octet string is next, of a length that satisfies a condition. -/
def AtOctetString (P : ℕ → Prop) (r : Reader) : Prop :=
  ∃ lengthPrefix value more, IsLengthPrefix lengthPrefix value.length ∧ P value.length ∧
    Cursor.rest r = lengthPrefix ++ value ++ more

/-- **Octet strings are read** where one is next. -/
theorem readVarOctetString_returns_iff {r : Reader} (h_valid : Cursor.Valid r) :
    (∃ a, (readVarOctetString.exec r).1 = .ok a) ↔ AtOctetString (fun _ => True) r := by
  constructor
  · rintro ⟨value, h_ok⟩
    obtain ⟨bytes, more, h_rest, ⟨lengthPrefix, rfl, h_prefix⟩, -⟩ :=
      takes_readVarOctetString r value _ h_valid (exec_of_fst h_ok)
    exact ⟨lengthPrefix, value, more, h_prefix, trivial, h_rest⟩
  · rintro ⟨lengthPrefix, value, more, h_prefix, -, h_rest⟩
    have h_exec := reads_readVarOctetString_of_prefix h_prefix r more h_valid h_rest
    rw [h_exec]
    exact ⟨value, rfl⟩

/-- **`Long`s are read** where an octet string of one to eight bytes is next. -/
theorem varLong_returns_iff {r : Reader} (h_valid : Cursor.Valid r) (e : OerError) (unsigned : Bool) :
    (∃ a, ((do
      let buffer ← readVarOctetString
      if buffer.length = 0 then throw e else bufferToLong buffer unsigned).exec r).1 = .ok a) ↔
      AtOctetString (fun n => 1 ≤ n ∧ n ≤ 8) r := by
  constructor
  · rintro ⟨long, h_ok⟩
    obtain ⟨value, r', h_first, h_rest⟩ := fst_exec_bind_eq_ok h_ok
    obtain ⟨bytes, more, h_bytes, ⟨lengthPrefix, rfl, h_prefix⟩, -⟩ :=
      takes_readVarOctetString r value r' h_valid h_first
    refine ⟨lengthPrefix, value, more, h_prefix, ?_, h_bytes⟩
    by_cases h_zero : value.length = 0
    · rw [if_pos h_zero] at h_rest
      cases h_rest
    · rw [if_neg h_zero] at h_rest
      rcases bufferToLong_cases (σ := Reader) value unsigned with ⟨h_short, -⟩ | ⟨-, e', h_throw⟩
      · exact ⟨Nat.pos_of_ne_zero h_zero, h_short⟩
      · rw [h_throw] at h_rest
        cases h_rest
  · rintro ⟨lengthPrefix, value, more, h_prefix, ⟨h_pos, h_short⟩, h_rest⟩
    have h_exec := reads_readVarOctetString_of_prefix h_prefix r more h_valid h_rest
    rw [exec_bind_ok h_exec, if_neg (by omega)]
    rcases bufferToLong_cases (σ := Reader) value unsigned with ⟨-, long, h_long⟩ | ⟨h_large, -⟩
    · rw [h_long]
      exact ⟨long, rfl⟩
    · exact absurd h_short (not_le.mpr h_large)

/-- A number is next if the next byte is its length and there are so many more. -/
theorem atNumber_iff {r : Reader} {length : UInt8} {more : Buffer} (h : Cursor.rest r = length :: more) :
    AtNumber r ↔ 1 ≤ length.toNat ∧ length.toNat ≤ maxSafeBytes ∧ length.toNat ≤ more.length := by
  constructor
  · rintro ⟨value, more', h_pos, h_six, h_rest⟩
    rw [h, List.cons_append] at h_rest
    obtain ⟨rfl, rfl⟩ := List.cons_eq_cons.mp h_rest
    have h_byte : (UInt8.ofNat value.length).toNat = value.length :=
      Nat.mod_eq_of_lt (h_six.trans_lt (by decide))
    rw [h_byte, List.length_append]
    exact ⟨h_pos, h_six, Nat.le_add_right _ _⟩
  · rintro ⟨h_pos, h_six, h_left⟩
    have h_length : (more.take length.toNat).length = length.toNat := List.length_take_of_le h_left
    refine ⟨more.take length.toNat, more.drop length.toNat, ?_, ?_, ?_⟩
    · rwa [h_length]
    · rwa [h_length]
    · rw [h_length, UInt8.ofNat_toNat, List.cons_append, List.take_append_drop, h]

/-- **Numbers are read** where one is next, if the program for the bytes behind the length returns just
where there are so many. -/
theorem varNumber_returns_iff {r : Reader} {x : ℕ → Action Reader OerError α}
    (hx : ∀ n r, 1 ≤ n → n ≤ maxSafeBytes → Cursor.Valid r →
      ((∃ a, ((x n).exec r).1 = .ok a) ↔ n ≤ (Cursor.rest r).length)) (e e' : OerError) :
    (∃ a, ((varNumber x e e').exec r).1 = .ok a) ↔ AtNumber r := by
  unfold varNumber
  rw [exec_bind_ok (exec_get r)]
  -- without a length byte nothing is read
  cases h_byte : r.buffer[r.cursor]? with
  | none =>
    refine iff_of_false nofun ?_
    rintro ⟨value, more, -, -, h_rest⟩
    rw [getElem?_of_rest h_rest] at h_byte
    cases h_byte
  | some length =>
    obtain ⟨h_lt, h_length⟩ := List.getElem?_eq_some_iff.mp h_byte
    -- the number is in what follows it
    have h_next : Cursor.rest r = length :: Cursor.rest (Cursor.skip 1 r) := by
      change r.buffer.drop r.cursor = length :: r.buffer.drop (r.cursor + 1)
      rw [List.drop_eq_getElem_cons h_lt, h_length]
    rw [atNumber_iff h_next]
    simp only
    -- a length of zero is refused, and so is one of more than six
    by_cases h_zero : length = 0
    · rw [if_pos h_zero, h_zero]
      exact iff_of_false nofun fun h => absurd h.1 (by decide)
    have h_pos : 1 ≤ length.toNat := by
      apply Nat.pos_of_ne_zero
      intro h
      exact h_zero (UInt8.toNat_inj.mp h)
    rw [if_neg h_zero]
    by_cases h_short : length.toNat ≤ maxSafeBytes
    · -- the length byte is passed over
      have h_advance : (advance 1).exec r = (.ok (), Cursor.skip 1 r) := rfl
      rw [if_pos h_short, exec_bind_ok h_advance,
        hx length.toNat _ h_pos h_short (show r.cursor + 1 ≤ r.buffer.length from h_lt)]
      exact ⟨fun h => ⟨h_pos, h_short, h⟩, fun h => h.2.2⟩
    · rw [if_neg h_short]
      exact iff_of_false nofun fun h => h_short h.2.1

/-- Reading a `Long` moves the cursor as reading its octet string does. -/
theorem movesCursor_varLong (e : OerError) (unsigned : Bool) :
    MovesCursor (do
      let buffer ← readVarOctetString
      if buffer.length = 0 then throw e else bufferToLong buffer unsigned) := by
  refine .bind movesCursor_readVarOctetString fun buffer => .ite (fun _ => .throw e) fun _ => ?_
  rcases bufferToLong_cases (σ := Reader) buffer unsigned with ⟨-, long, h_long⟩ | ⟨-, e', h_throw⟩
  · rw [h_long]
    exact .pure long
  · rw [h_throw]
    exact .throw e'

/-- The reads of numbers return where there are so many bytes. -/
theorem number_returns_iff (f : Buffer → α) (e e' : OerError) (n : ℕ) (r : Reader) (h_pos : 1 ≤ n)
    (h_six : n ≤ maxSafeBytes) (h_valid : Cursor.Valid r) :
    (∃ a, ((if n < 1 then throw e else if maxSafeBytes < n then throw e'
      else do
        let bytes ← bytesAtCursor n
        advance n
        return f bytes : Action Reader OerError α).exec r).1 = .ok a) ↔ n ≤ (Cursor.rest r).length := by
  have h_valid : r.cursor ≤ r.buffer.length := h_valid
  rw [if_neg (not_lt.mpr h_pos), if_neg (not_lt.mpr h_six)]
  change _ ↔ n ≤ (r.buffer.drop r.cursor).length
  rw [List.length_drop]
  by_cases h_short : r.buffer.length < r.cursor + n
  · have h_throw : (bytesAtCursor n).exec r = (.error .rangeError, r) := by
      rw [bytesAtCursor, exec_bind_ok (exec_get r), if_pos h_short]
      rfl
    rw [exec_bind_error h_throw]
    apply iff_of_false
    · rintro ⟨a, h_ok⟩
      cases h_ok
    · omega
  · have h_bytes : (bytesAtCursor n).exec r = (.ok ((r.buffer.drop r.cursor).take n), r) := by
      rw [bytesAtCursor, exec_bind_ok (exec_get r), if_neg h_short]
      rfl
    rw [exec_bind_ok h_bytes]
    exact iff_of_true ⟨_, rfl⟩ (by omega)

end Var

/-! ### The operations -/

/-- A peek, with the length that it is given. -/
inductive PeekOp
  | uIntNumber (length : ℕ)
  | uIntLong (length : ℕ)
  | uInt (length : ℕ)
  | intNumber (length : ℕ)
  | intLong (length : ℕ)
  | int (length : ℕ)
  | octetString (length : ℕ)
  | varUIntNumber
  | varUIntLong
  | varUInt
  | varIntNumber
  | varIntLong
  | varInt
  | varOctetString

namespace PeekOp

/-- What is returned. -/
abbrev Result : PeekOp → Type
  | uIntNumber _ | varUIntNumber => ℕ
  | intNumber _ | varIntNumber => ℤ
  | uIntLong _ | intLong _ | varUIntLong | varIntLong => BitVec 64
  | uInt _ | int _ | varUInt | varInt => String
  | octetString _ | varOctetString => Buffer

/-- The peek. -/
def peek : (op : PeekOp) → Action Reader OerError op.Result
  | uIntNumber length => peekUIntNumber length
  | uIntLong length => peekUIntLong length
  | uInt length => peekUInt length
  | intNumber length => peekIntNumber length
  | intLong length => peekIntLong length
  | int length => peekInt length
  | octetString length => Reader.peek length
  | varUIntNumber => peekVarUIntNumber
  | varUIntLong => peekVarUIntLong
  | varUInt => peekVarUInt
  | varIntNumber => peekVarIntNumber
  | varIntLong => peekVarIntLong
  | varInt => peekVarInt
  | varOctetString => peekVarOctetString

/-- The corresponding read. -/
def read : (op : PeekOp) → Action Reader OerError op.Result
  | uIntNumber length => readUIntNumber length
  | uIntLong length => readUIntLong length
  | uInt length => readUInt length
  | intNumber length => readIntNumber length
  | intLong length => readIntLong length
  | int length => readInt length
  | octetString length => Reader.read length
  | varUIntNumber => readVarUIntNumber
  | varUIntLong => readVarUIntLong
  | varUInt => readVarUInt
  | varIntNumber => readVarIntNumber
  | varIntLong => readVarIntLong
  | varInt => readVarInt
  | varOctetString => readVarOctetString

/-- For a value of variable length, one is next. Nothing is asked for a fixed length. -/
def HasValue : PeekOp → Reader → Prop
  | varUIntNumber, r | varIntNumber, r => AtNumber r
  | varUIntLong, r | varUInt, r | varIntLong, r | varInt, r => AtOctetString (fun n => 1 ≤ n ∧ n ≤ 8) r
  | varOctetString, r => AtOctetString (fun _ => True) r
  | _, _ => True

variable {r : Reader}

theorem movesCursor_varUIntNumber : MovesCursor readVarUIntNumber :=
  movesCursor_varNumber movesCursor_readUIntNumber _ _

theorem movesCursor_varIntNumber : MovesCursor readVarIntNumber :=
  movesCursor_varNumber movesCursor_readIntNumber _ _

theorem movesCursor_varUIntLong : MovesCursor readVarUIntLong := movesCursor_varLong _ true

theorem movesCursor_varIntLong : MovesCursor readVarIntLong := movesCursor_varLong _ false

theorem movesCursor_read (op : PeekOp) : MovesCursor op.read := by
  cases op with
  | uIntNumber length => exact movesCursor_readUIntNumber length
  | uIntLong length => exact (looks_peekUIntLong length).movesCursor
  | uInt length => exact movesCursor_readUInt length
  | intNumber length => exact movesCursor_readIntNumber length
  | intLong length => exact (looks_peekIntLong length).movesCursor
  | int length => exact movesCursor_readInt length
  | octetString length => exact Reader.movesCursor_read length
  | varUIntNumber => exact movesCursor_varUIntNumber
  | varUIntLong => exact movesCursor_varUIntLong
  | varUInt => exact movesCursor_varUIntLong.bind fun _ => .pure _
  | varIntNumber => exact movesCursor_varIntNumber
  | varIntLong => exact movesCursor_varIntLong
  | varInt => exact movesCursor_varIntLong.bind fun _ => .pure _
  | varOctetString => exact movesCursor_readVarOctetString

/-- **Which peeks are pure** and agree with their reads. -/
theorem isPeekOf_iff (op : PeekOp) (h_valid : Cursor.Valid r) : IsPeekOf op.peek op.read r ↔ op.HasValue r := by
  cases op with
  | uIntNumber length => exact iff_of_true (isPeekOf_fixed length r).1 trivial
  | uIntLong length => exact iff_of_true (isPeekOf_fixed length r).2.1 trivial
  | uInt length => exact iff_of_true (isPeekOf_fixed length r).2.2.1 trivial
  | intNumber length => exact iff_of_true (isPeekOf_fixed length r).2.2.2.1 trivial
  | intLong length => exact iff_of_true (isPeekOf_fixed length r).2.2.2.2.1 trivial
  | int length => exact iff_of_true (isPeekOf_fixed length r).2.2.2.2.2.1 trivial
  | octetString length => exact iff_of_true (isPeekOf_fixed length r).2.2.2.2.2.2 trivial
  | varUIntNumber =>
    exact (isPeekOf_peeking movesCursor_varUIntNumber h_valid).trans
      (varNumber_returns_iff (number_returns_iff Bytes.ofBytes _ _) _ _)
  | varUIntLong =>
    exact (isPeekOf_peeking movesCursor_varUIntLong h_valid).trans (varLong_returns_iff h_valid _ true)
  | varUInt =>
    exact (isPeekOf_peeking_map movesCursor_varUIntLong h_valid _).trans
      (varLong_returns_iff h_valid _ true)
  | varIntNumber =>
    exact (isPeekOf_peeking movesCursor_varIntNumber h_valid).trans
      (varNumber_returns_iff (number_returns_iff Bytes.ofSignedBytes _ _) _ _)
  | varIntLong =>
    exact (isPeekOf_peeking movesCursor_varIntLong h_valid).trans (varLong_returns_iff h_valid _ false)
  | varInt =>
    exact (isPeekOf_peeking_map movesCursor_varIntLong h_valid _).trans
      (varLong_returns_iff h_valid _ false)
  | varOctetString =>
    exact (isPeekOf_peeking movesCursor_readVarOctetString h_valid).trans
      (readVarOctetString_returns_iff h_valid)

theorem valid_of_hasValue {op : PeekOp} (h_valid : Cursor.Valid r) (h : op.HasValue r) :
    Cursor.Valid (op.peek.exec r).2 := by
  rw [((op.isPeekOf_iff h_valid).mpr h).1]
  exact h_valid

/-- A peek that is not pure still leaves the cursor in the buffer. -/
theorem valid_peek (op : PeekOp) (h_valid : Cursor.Valid r) : Cursor.Valid (op.peek.exec r).2 := by
  cases op with
  | varUIntNumber => exact valid_peeking movesCursor_varUIntNumber h_valid
  | varUIntLong => exact valid_peeking movesCursor_varUIntLong h_valid
  | varUInt => exact valid_map (valid_peeking movesCursor_varUIntLong h_valid) _
  | varIntNumber => exact valid_peeking movesCursor_varIntNumber h_valid
  | varIntLong => exact valid_peeking movesCursor_varIntLong h_valid
  | varInt => exact valid_map (valid_peeking movesCursor_varIntLong h_valid) _
  | varOctetString => exact valid_peeking movesCursor_readVarOctetString h_valid
  | _ => exact valid_of_hasValue h_valid trivial

end PeekOp

/-- An operation that may move the cursor. The skips of integers are those of octet strings. -/
inductive ReaderCall
  | peek (op : PeekOp)
  | read (op : PeekOp)
  | skip (bytes : ℕ)
  | skipVarOctetString

/-- The reader that an operation leaves, also one that throws. -/
def ReaderCall.after (r : Reader) : ReaderCall → Reader
  | peek op => (op.peek.exec r).2
  | read op => (op.read.exec r).2
  | skip bytes => ((Reader.skip bytes).exec r).2
  | skipVarOctetString => (Reader.skipVarOctetString.exec r).2

/-- Operations one after the other, whether or not they throw. -/
def afterAll (r : Reader) (calls : List ReaderCall) : Reader := calls.foldl ReaderCall.after r

/-- One operation leaves the cursor in the buffer. -/
theorem valid_after {r : Reader} (h_valid : Cursor.Valid r) (call : ReaderCall) :
    Cursor.Valid (call.after r) := by
  cases call with
  | peek op => exact op.valid_peek h_valid
  | read op => exact op.movesCursor_read.valid h_valid
  | skip bytes => exact (movesCursor_skip bytes).valid h_valid
  | skipVarOctetString => exact movesCursor_skipVarOctetString.valid h_valid

/-- **Peeks.** From a position of the buffer, a peek leaves the reader as it was and returns or throws as
the read does, if and only if it is for a fixed length or a value of its kind is next. After any
operations, also those that throw, the cursor is in the buffer. -/
theorem peeks_pure_iff {r : Reader} (h_valid : r.cursor ≤ r.buffer.length) :
    (∀ op : PeekOp, IsPeekOf op.peek op.read r ↔ op.HasValue r) ∧
      ∀ calls, (afterAll r calls).cursor ≤ (afterAll r calls).buffer.length := by
  refine ⟨fun op => op.isPeekOf_iff h_valid, fun calls => ?_⟩
  induction calls generalizing r with
  | nil => exact h_valid
  | cons call calls ih => exact ih (valid_after h_valid call)

/-- A reader with a bookmark before two bytes behind their length. -/
theorem peeks_pure_iff_two_bytes :
    (∀ op : PeekOp, IsPeekOf op.peek op.read ⟨[9, 2, 7, 8], 1, [0]⟩ ↔ op.HasValue ⟨[9, 2, 7, 8], 1, [0]⟩) ∧
      ∀ calls, (afterAll ⟨[9, 2, 7, 8], 1, [0]⟩ calls).cursor ≤
        (afterAll ⟨[9, 2, 7, 8], 1, [0]⟩ calls).buffer.length :=
  peeks_pure_iff (r := ⟨[9, 2, 7, 8], 1, [0]⟩) (by decide)

/-- **A peek that throws** behind the length of an octet string leaves its bookmark, and the cursor behind
the length. -/
theorem not_isPeekOf_underflow :
    (peekVarOctetString.exec (ofBuffer [5, 1])).2 = ⟨[5, 1], 1, [0]⟩ ∧
      ¬IsPeekOf PeekOp.varOctetString.peek PeekOp.varOctetString.read (ofBuffer [5, 1]) := by
  have h_left : (peekVarOctetString.exec (ofBuffer [5, 1])).2 = ⟨[5, 1], 1, [0]⟩ := by
    decide +kernel
  refine ⟨h_left, fun h => ?_⟩
  have h_state : (peekVarOctetString.exec (ofBuffer [5, 1])).2 = ofBuffer [5, 1] := h.1
  rw [h_left] at h_state
  cases h_state

end Interledger.Oer.Reader
