import Interledger.Lib.Action
import Mathlib.Data.Nat.Notation

/-!
# Programs that read and write sequences

A decoder is a program whose state is a **cursor** into a sequence of items, an encoder one whose
state is a **sink** that items are added to. `Reads x ts a` says that `x` takes exactly the items
`ts` off the front of whatever is left and returns `a`; `Writes x ts` says that `x` adds exactly
`ts`, unless the sink runs out of room.

Both are put together along the program (`Reads.bind`, `Writes.bind`, `Reads.readMany`,
`Writes.forEach`), so that a round trip is: the encoder writes some items, the decoder reads the same
items and returns what was encoded. `Takes x P` is the converse of `Reads`: whenever `x` returns, the
items that it took and the value satisfy `P`.
-/

namespace Interledger

open Interledger.Action

/-- A state that is a position in a sequence of items. -/
class Cursor (σ : Type) (τ : outParam Type) where
  /-- The items that have not been read. -/
  rest : σ → List τ
  /-- Move past a number of items. -/
  skip : ℕ → σ → σ
  /-- The position is one of the sequence. -/
  Valid : σ → Prop
  valid_skip {n : ℕ} {s : σ} (h : Valid s) (hn : n ≤ (rest s).length) : Valid (skip n s)
  rest_skip (n : ℕ) (s : σ) : rest (skip n s) = (rest s).drop n
  skip_zero (s : σ) : skip 0 s = s
  skip_skip (m n : ℕ) (s : σ) : skip n (skip m s) = skip (m + n) s

/-- A state that items are added to. -/
class Sink (σ : Type) (τ ε : outParam Type) where
  /-- The second state is the first with these items added. -/
  Extends : σ → List τ → σ → Prop
  /-- So many items can be added for sure. -/
  HasRoom : ℕ → σ → Prop
  /-- The errors of a sink that is full. -/
  Full : ε → Prop
  extends_nil (s : σ) : Extends s [] s
  extends_append {s t u : σ} {ts us : List τ} (h : Extends s ts t) (h' : Extends t us u) :
    Extends s (ts ++ us) u
  hasRoom_of_add {m n : ℕ} {s : σ} (h : HasRoom (m + n) s) : HasRoom m s
  hasRoom_after {n : ℕ} {s t : σ} {ts : List τ} (h : HasRoom (ts.length + n) s)
    (h' : Extends s ts t) : HasRoom n t

/-- Read `n` items of a kind. -/
def Action.readMany {σ ε α : Type} (x : Action σ ε α) : ℕ → Action σ ε (List α)
  | 0 => pure []
  | n + 1 => do
    let a ← x
    return a :: (← readMany x n)

/-! ### Decoders -/

section Reads

variable {σ ε τ α β : Type} [Cursor σ τ]

/-- Wherever the items `ts` are next, the program reads them and returns `a`. -/
def Reads (x : Action σ ε α) (ts : List τ) (a : α) : Prop :=
  ∀ s more, Cursor.Valid s → Cursor.rest s = ts ++ more → x.exec s = (.ok a, Cursor.skip ts.length s)

namespace Reads

/-- Returning a value reads nothing. -/
theorem pure (a : α) : Reads (Pure.pure a : Action σ ε α) [] a := by
  intro s more _ _
  rw [exec_pure, List.length_nil, Cursor.skip_zero]

/-- After one decoder, the program goes on with the items behind those that it read. -/
theorem exec_bind {x : Action σ ε α} {f : α → Action σ ε β} {ts : List τ} {a : α} {s : σ} {more : List τ}
    (hx : Reads x ts a) (h_valid : Cursor.Valid s) (h_rest : Cursor.rest s = ts ++ more) :
    (x >>= f).exec s = (f a).exec (Cursor.skip ts.length s) ∧
      Cursor.Valid (Cursor.skip ts.length s) ∧ Cursor.rest (Cursor.skip ts.length s) = more := by
  refine ⟨exec_bind_ok (hx s more h_valid h_rest), ?_, ?_⟩
  · apply Cursor.valid_skip h_valid
    rw [h_rest, List.length_append]
    exact Nat.le_add_right _ _
  · rw [Cursor.rest_skip, h_rest, List.drop_left]

/-- One decoder after the other reads the items of both. -/
theorem bind {x : Action σ ε α} {f : α → Action σ ε β} {ts us : List τ} {a : α} {b : β}
    (hx : Reads x ts a) (hf : Reads (f a) us b) : Reads (x >>= f) (ts ++ us) b := by
  intro s more h_valid h_rest
  rw [List.append_assoc] at h_rest
  obtain ⟨h_exec, h_valid', h_after⟩ := hx.exec_bind (f := f) h_valid h_rest
  rw [h_exec, hf _ more h_valid' h_after, Cursor.skip_skip, List.length_append]

/-- The value read is passed on. -/
theorem map {x : Action σ ε α} {ts : List τ} {a : α} (f : α → β) (hx : Reads x ts a) :
    Reads (x >>= fun a => Pure.pure (f a)) ts (f a) := by
  have h : Reads (x >>= fun a => Pure.pure (f a)) (ts ++ []) (f a) := hx.bind (.pure (f a))
  rwa [List.append_nil] at h

/-- As many items of a kind as were written. -/
theorem readMany {x : Action σ ε β} {enc : α → List τ} {dec : α → β} {as : List α}
    (h : ∀ a ∈ as, Reads x (enc a) (dec a)) :
    Reads (Action.readMany x as.length) (as.flatMap enc) (as.map dec) := by
  induction as with
  | nil => exact .pure []
  | cons a as ih =>
    have h_tail := ih fun a' h_mem => h a' (List.mem_cons_of_mem a h_mem)
    exact (h a List.mem_cons_self).bind (h_tail.map (dec a :: ·))

end Reads

/-- Whenever the program returns, it took some items off the front of what was left, and they and the
value satisfy `P`. -/
def Takes (x : Action σ ε α) (P : List τ → α → Prop) : Prop :=
  ∀ s a t, Cursor.Valid s → x.exec s = (.ok a, t) →
    ∃ ts more, Cursor.rest s = ts ++ more ∧ P ts a ∧ t = Cursor.skip ts.length s

namespace Takes

/-- Returning a value takes nothing. -/
theorem pure (a : α) : Takes (Pure.pure a : Action σ ε α) fun ts b => ts = [] ∧ b = a := by
  intro s b t _ h_exec
  rw [exec_pure] at h_exec
  cases h_exec
  exact ⟨[], Cursor.rest s, rfl, ⟨rfl, rfl⟩, (Cursor.skip_zero s).symm⟩

/-- Throwing returns nothing. -/
theorem throw (e : ε) (P : List τ → α → Prop) :
    Takes (MonadExcept.throw e : Action σ ε α) P := by
  intro s a t _ h_exec
  rw [exec_throw] at h_exec
  cases h_exec

/-- One decoder after the other takes the items of both. -/
theorem bind {x : Action σ ε α} {f : α → Action σ ε β} {P : List τ → α → Prop}
    {Q : α → List τ → β → Prop} (hx : Takes x P) (hf : ∀ a, Takes (f a) (Q a)) :
    Takes (x >>= f) fun ts b => ∃ us vs a, ts = us ++ vs ∧ P us a ∧ Q a vs b := by
  intro s b u h_valid h_exec
  obtain ⟨a, t, h_first, h_second⟩ := exec_bind_eq_ok.mp h_exec
  -- the first action takes `us`, and the second goes on behind it
  obtain ⟨us, more, h_rest, h_P, rfl⟩ := hx s a t h_valid h_first
  have h_after : Cursor.rest (Cursor.skip us.length s) = more := by
    rw [Cursor.rest_skip, h_rest, List.drop_left]
  have h_valid' : Cursor.Valid (Cursor.skip us.length s) := by
    apply Cursor.valid_skip h_valid
    rw [h_rest, List.length_append]
    exact Nat.le_add_right _ _
  obtain ⟨vs, more', h_rest', h_Q, rfl⟩ := hf a _ b u h_valid' h_second
  rw [h_after] at h_rest'
  refine ⟨us ++ vs, more', ?_, ⟨us, vs, a, rfl, h_P, h_Q⟩, ?_⟩
  · rw [h_rest, h_rest', List.append_assoc]
  · rw [Cursor.skip_skip, List.length_append]

/-- A decoder of a fixed number of items, which throws when there are fewer. -/
theorem of_length {x : Action σ ε α} {n : ℕ} {f : List τ → α}
    (h_reads : ∀ ts : List τ, ts.length = n → Reads x ts (f ts))
    (h_short : ∀ s, Cursor.Valid s → (Cursor.rest s).length < n → ∃ e t, x.exec s = (.error e, t)) :
    Takes x fun ts a => ts.length = n ∧ a = f ts := by
  intro s a t h_valid h_exec
  by_cases h_less : (Cursor.rest s).length < n
  · obtain ⟨e, u, h_error⟩ := h_short s h_valid h_less
    rw [h_exec] at h_error
    cases h_error
  · have h_split := (List.take_append_drop n (Cursor.rest s)).symm
    have h_length : ((Cursor.rest s).take n).length = n := List.length_take_of_le (Nat.not_lt.mp h_less)
    rw [h_reads _ h_length s _ h_valid h_split] at h_exec
    cases h_exec
    exact ⟨_, _, h_split, ⟨h_length, rfl⟩, rfl⟩

theorem mono {x : Action σ ε α} {P Q : List τ → α → Prop} (h : Takes x P)
    (h_imp : ∀ ts a, P ts a → Q ts a) : Takes x Q := by
  intro s a t h_valid h_exec
  obtain ⟨ts, more, h_rest, h_P, h_skip⟩ := h s a t h_valid h_exec
  exact ⟨ts, more, h_rest, h_imp ts a h_P, h_skip⟩

/-- Many items of a kind are taken one after the other. -/
theorem readMany {x : Action σ ε α} {P : List τ → α → Prop} (hx : Takes x P) (n : ℕ) :
    Takes (Action.readMany x n) fun ts as =>
      as.length = n ∧ ∃ parts, ts = parts.flatten ∧ List.Forall₂ P parts as := by
  induction n with
  | zero =>
    apply (Takes.pure ([] : List α)).mono
    rintro ts as ⟨rfl, rfl⟩
    exact ⟨rfl, [], rfl, .nil⟩
  | succ n ih =>
    apply (hx.bind fun a => ih.bind fun as => Takes.pure (a :: as)).mono
    rintro ts all ⟨us, _, a, rfl, h_first, vs, _, as, rfl, ⟨h_length, parts, rfl, h_parts⟩, rfl, rfl⟩
    refine ⟨congrArg (· + 1) h_length, us :: parts, ?_, .cons h_first h_parts⟩
    rw [List.append_nil, List.flatten_cons]

theorem ite {c : Prop} [Decidable c] {x y : Action σ ε α} {P : List τ → α → Prop}
    (hx : c → Takes x P) (hy : ¬c → Takes y P) : Takes (if c then x else y) P := by
  by_cases h : c
  · rw [if_pos h]
    exact hx h
  · rw [if_neg h]
    exact hy h

end Takes

end Reads

/-! ### Encoders -/

section Writes

variable {σ ε τ α : Type} [Sink σ τ ε]

/-- The program adds exactly the items `ts`. Only a sink without room for them keeps it from
returning. -/
def Writes (x : Action σ ε Unit) (ts : List τ) : Prop :=
  ∀ s, (∃ t, x.exec s = (.ok (), t) ∧ Sink.Extends s ts t) ∨
    (¬Sink.HasRoom ts.length s ∧ ∃ e t, x.exec s = (.error e, t) ∧ Sink.Full (σ := σ) e)

namespace Writes

/-- With room, the program returns. -/
theorem exec_of_hasRoom {x : Action σ ε Unit} {ts : List τ} {s : σ} (h : Writes x ts)
    (h_room : Sink.HasRoom ts.length s) : ∃ t, x.exec s = (.ok (), t) ∧ Sink.Extends s ts t := by
  rcases h s with h_ok | ⟨h_full, -⟩
  · exact h_ok
  · exact absurd h_room h_full

/-- A program that returned has added the items. -/
theorem extends_of_exec {x : Action σ ε Unit} {ts : List τ} {s t : σ} (h : Writes x ts)
    (h_exec : x.exec s = (.ok (), t)) : Sink.Extends s ts t := by
  rcases h s with ⟨t', h_ok, h_ext⟩ | ⟨-, e, t', h_error, -⟩
  · rw [h_exec] at h_ok
    cases h_ok
    exact h_ext
  · rw [h_exec] at h_error
    cases h_error

/-- Doing nothing adds nothing. -/
theorem pure : Writes (Pure.pure () : Action σ ε Unit) [] :=
  fun s => .inl ⟨s, rfl, Sink.extends_nil s⟩

/-- One encoder after the other. -/
theorem bind {x : Action σ ε Unit} {y : Unit → Action σ ε Unit} {ts us : List τ}
    (hx : Writes x ts) (hy : Writes (y ()) us) : Writes (x >>= y) (ts ++ us) := by
  intro s
  rw [List.length_append]
  rcases hx s with ⟨t, h_exec, h_ext⟩ | ⟨h_full, e, t, h_exec, h_error⟩
  · rw [exec_bind_ok h_exec]
    rcases hy t with ⟨u, h_exec', h_ext'⟩ | ⟨h_full, h_error⟩
    · exact .inl ⟨u, h_exec', Sink.extends_append h_ext h_ext'⟩
    · -- room for both would have left room for the second
      exact .inr ⟨fun h_room => h_full (Sink.hasRoom_after h_room h_ext), h_error⟩
  · rw [exec_bind_error h_exec]
    exact .inr ⟨fun h_room => h_full (Sink.hasRoom_of_add h_room), e, t, rfl, h_error⟩

/-- An encoder for each item of a list. -/
theorem forEach {f : α → Action σ ε Unit} {enc : α → List τ} {as : List α}
    (h : ∀ a ∈ as, Writes (f a) (enc a)) : Writes (Action.forEach f as) (as.flatMap enc) := by
  induction as with
  | nil => exact .pure
  | cons a as ih =>
    exact (h a List.mem_cons_self).bind (ih fun a' h_mem => h a' (List.mem_cons_of_mem a h_mem))

end Writes

end Writes

end Interledger
