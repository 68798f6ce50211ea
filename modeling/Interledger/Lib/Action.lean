import Mathlib.Order.Defs.Unbundled
import Mathlib.Tactic.Common

/-!
# Programs that change a state and may throw

`Action σ ε` is the monad of programs that read and change a state `σ` and may throw an `ε`. A
program that throws leaves the changes it made before, as a JavaScript function does, and catching
the error does not undo them. `exec` is what a program does to a state: how it ended and the state it
left.

A frame condition is a preorder `R` on states, read as "some part of the state is still the same"
or "has not decreased". `Preserves R x` says that the program `x` respects it however it ends, and
is put together along the program (`Preserves.bind`, `Preserves.ite`, `Preserves.forEach`, …), so
that a function preserves what its parts do.
-/

namespace Interledger

/-- Programs on states `σ` that return or throw an `ε`. -/
abbrev Action (σ ε : Type) : Type → Type := ExceptT ε (StateM σ)

namespace Action

variable {σ ε α β : Type}

/-- How a program ends, and the state it leaves. -/
def exec (x : Action σ ε α) (s : σ) : Except ε α × σ := x.run.run s

/-- A program without a result for each item of a list, in order. An item that throws ends it. -/
def forEach (f : β → Action σ ε Unit) : List β → Action σ ε Unit
  | [] => pure ()
  | b :: bs => do f b; forEach f bs

/-- Build a result item by item. -/
def foldEach (f : α → β → Action σ ε α) : α → List β → Action σ ε α
  | a, [] => pure a
  | a, b :: bs => do foldEach f (← f a b) bs

section Exec

variable (s : σ)

@[simp] theorem exec_pure (a : α) : (pure a : Action σ ε α).exec s = (.ok a, s) := rfl

@[simp] theorem exec_throw (e : ε) : (throw e : Action σ ε α).exec s = (.error e, s) := rfl

@[simp] theorem exec_get : (get : Action σ ε σ).exec s = (.ok s, s) := rfl

@[simp] theorem exec_modify (f : σ → σ) : (modify f : Action σ ε Unit).exec s = (.ok (), f s) := rfl

theorem exec_bind (x : Action σ ε α) (f : α → Action σ ε β) :
    (x >>= f).exec s =
      match x.exec s with
      | (.ok a, t) => (f a).exec t
      | (.error e, t) => (.error e, t) := by
  rw [exec, ExceptT.run_bind, StateT.run_bind]
  cases h : x.exec s with
  | mk r t =>
    have h_run : x.run.run s = (r, t) := h
    rw [h_run]
    cases r <;> rfl

/-- A sequence whose first part returns goes on with its result. -/
theorem exec_bind_ok {x : Action σ ε α} {f : α → Action σ ε β} {s t : σ} {a : α}
    (h : x.exec s = (.ok a, t)) : (x >>= f).exec s = (f a).exec t := by
  rw [exec_bind, h]

/-- A sequence whose first part throws ends there. -/
theorem exec_bind_error {x : Action σ ε α} {f : α → Action σ ε β} {s t : σ} {e : ε}
    (h : x.exec s = (.error e, t)) : (x >>= f).exec s = (.error e, t) := by
  rw [exec_bind, h]

/-- A sequence returns when both parts do. -/
theorem exec_bind_eq_ok {x : Action σ ε α} {f : α → Action σ ε β} {s t : σ} {b : β} :
    (x >>= f).exec s = (.ok b, t) ↔
      ∃ a u, x.exec s = (.ok a, u) ∧ (f a).exec u = (.ok b, t) := by
  rw [exec_bind]
  constructor
  · intro h
    cases h_exec : x.exec s with
    | mk r u =>
      rw [h_exec] at h
      cases r with
      | ok a => exact ⟨a, u, rfl, h⟩
      | error e => cases h
  · rintro ⟨a, u, h_exec, h⟩
    rw [h_exec]
    exact h

/-- A sequence throws when one of its parts does. -/
theorem exec_bind_eq_error {x : Action σ ε α} {f : α → Action σ ε β} {s t : σ} {e : ε} :
    (x >>= f).exec s = (.error e, t) ↔
      x.exec s = (.error e, t) ∨ ∃ a u, x.exec s = (.ok a, u) ∧ (f a).exec u = (.error e, t) := by
  rw [exec_bind]
  constructor
  · intro h
    cases h_exec : x.exec s with
    | mk r u =>
      rw [h_exec] at h
      cases r with
      | ok a => exact .inr ⟨a, u, rfl, h⟩
      | error e' =>
        cases h
        exact .inl rfl
  · rintro (h_exec | ⟨a, u, h_exec, h⟩)
    · rw [h_exec]
    · rw [h_exec]
      exact h

theorem exec_tryCatch (x : Action σ ε α) (f : ε → Action σ ε α) :
    (tryCatch x f).exec s =
      match x.exec s with
      | (.ok a, t) => (.ok a, t)
      | (.error e, t) => (f e).exec t := by
  rw [exec, ExceptT.run_tryCatch, StateT.run_bind]
  cases h : x.exec s with
  | mk r t =>
    have h_run : x.run.run s = (r, t) := h
    rw [h_run]
    cases r <;> rfl

/-- A run whose end is known. -/
theorem exec_of_fst {x : Action σ ε α} {s : σ} {r : Except ε α} (h : (x.exec s).1 = r) :
    x.exec s = (r, (x.exec s).2) := Prod.ext h rfl

/-- What returned went through both programs. -/
theorem fst_exec_bind_eq_ok {x : Action σ ε α} {f : α → Action σ ε β} {s : σ} {b : β}
    (h : ((x >>= f).exec s).1 = .ok b) : ∃ a t, x.exec s = (.ok a, t) ∧ ((f a).exec t).1 = .ok b := by
  obtain ⟨a, t, h_first, h_rest⟩ := exec_bind_eq_ok.mp (exec_of_fst h)
  exact ⟨a, t, h_first, congrArg Prod.fst h_rest⟩

end Exec

/-- What holds before building a result, and is kept by each item that returns, holds of the result
and the state in the end. -/
theorem foldEach_induction {f : α → β → Action σ ε α} (P : α → σ → Prop) {bs : List β}
    (h_step : ∀ a b s a' t, b ∈ bs → P a s → (f a b).exec s = (.ok a', t) → P a' t)
    {a a' : α} {s t : σ} (h : P a s) (h_exec : (foldEach f a bs).exec s = (.ok a', t)) : P a' t := by
  induction bs generalizing a s with
  | nil =>
    cases h_exec
    exact h
  | cons b bs ih =>
    obtain ⟨a₁, u, h_first, h_rest⟩ := exec_bind_eq_ok.mp h_exec
    have h_mid := h_step a b s a₁ u List.mem_cons_self h h_first
    exact ih (fun a b s a' t hb => h_step a b s a' t (List.mem_cons_of_mem _ hb)) h_mid h_rest

/-! ### Frame conditions -/

/-- However the program ends, the state it leaves is related to the one it started in. -/
def Preserves (R : σ → σ → Prop) (x : Action σ ε α) : Prop := ∀ s, R s (x.exec s).2

namespace Preserves

variable {R : σ → σ → Prop} [IsPreorder σ R]

omit [IsPreorder σ R] in
/-- The state a run leaves is related to the one it started in. -/
theorem of_exec {x : Action σ ε α} {s t : σ} {r : Except ε α} (h : Preserves R x)
    (h_exec : x.exec s = (r, t)) : R s t := by
  have h_state := h s
  rw [h_exec] at h_state
  exact h_state

/-- Doing nothing preserves. -/
theorem pure (a : α) : Preserves R (Pure.pure a : Action σ ε α) := fun s => refl_of R s

/-- Throwing changes nothing. -/
theorem throw (e : ε) : Preserves R (MonadExcept.throw e : Action σ ε α) := fun s => refl_of R s

/-- Reading changes nothing. -/
theorem get : Preserves R (MonadState.get : Action σ ε σ) := fun s => refl_of R s

omit [IsPreorder σ R] in
/-- A change preserves what it relates. -/
theorem modify {f : σ → σ} (h : ∀ s, R s (f s)) : Preserves R (modify f : Action σ ε Unit) := h

/-- One program after the other, from one state: the second may rely on what the first left. -/
theorem bind_at {x : Action σ ε α} {f : α → Action σ ε β} {s : σ} (hx : R s (x.exec s).2)
    (hf : ∀ a t, x.exec s = (.ok a, t) → R t ((f a).exec t).2) : R s ((x >>= f).exec s).2 := by
  rw [exec_bind]
  cases h_exec : x.exec s with
  | mk r t =>
    rw [h_exec] at hx
    cases r with
    | ok a => exact trans_of R hx (hf a t h_exec)
    | error e => exact hx

/-- One program after the other. -/
theorem bind {x : Action σ ε α} {f : α → Action σ ε β} (hx : Preserves R x)
    (hf : ∀ a, Preserves R (f a)) : Preserves R (x >>= f) :=
  fun s => bind_at (hx s) fun a t _ => hf a t

/-- A handler runs in the state the error left. -/
theorem tryCatch {x : Action σ ε α} {f : ε → Action σ ε α} (hx : Preserves R x)
    (hf : ∀ e, Preserves R (f e)) : Preserves R (tryCatch x f) := by
  intro s
  have h_x := hx s
  rw [exec_tryCatch]
  cases h_exec : x.exec s with
  | mk r t =>
    rw [h_exec] at h_x
    cases r with
    | ok a => exact h_x
    | error e => exact trans_of R h_x (hf e t)

omit [IsPreorder σ R] in
theorem ite {c : Prop} [Decidable c] {x y : Action σ ε α} (hx : c → Preserves R x)
    (hy : ¬c → Preserves R y) : Preserves R (if c then x else y) := by
  by_cases h : c
  · rw [if_pos h]
    exact hx h
  · rw [if_neg h]
    exact hy h

/-- A program that preserves for each item preserves for the list. -/
theorem forEach {f : β → Action σ ε Unit} (hf : ∀ b, Preserves R (f b)) (bs : List β) :
    Preserves R (forEach f bs) := by
  induction bs with
  | nil => exact .pure ()
  | cons b bs ih => exact .bind (hf b) fun _ => ih

theorem foldEach {f : α → β → Action σ ε α} {bs : List β}
    (hf : ∀ a, ∀ b ∈ bs, Preserves R (f a b)) (a : α) : Preserves R (foldEach f a bs) := by
  induction bs generalizing a with
  | nil => exact .pure a
  | cons b bs ih =>
    refine .bind (hf a b List.mem_cons_self) fun a' => ih (fun a b hb => ?_) a'
    exact hf a b (List.mem_cons_of_mem _ hb)

omit [IsPreorder σ R] in
/-- What a finer condition keeps, a coarser one does. -/
theorem mono {R' : σ → σ → Prop} {x : Action σ ε α} (h : Preserves R x)
    (hR : ∀ s t, R s t → R' s t) : Preserves R' x := fun s => hR _ _ (h s)

end Preserves

/-! ### Programs that do not use the state -/

/-- The program neither reads nor changes the state. Over every kind of state it throws the same error,
or it returns the same value, which satisfies `P`. -/
def Computes {ε α : Type} (x : (σ : Type) → Action σ ε α) (P : α → Prop) : Prop :=
  (∃ e, ∀ σ, x σ = throw e) ∨ ∃ a, P a ∧ ∀ σ, x σ = pure a

namespace Computes

variable {ε α β : Type} {x y : (σ : Type) → Action σ ε α} {P Q : α → Prop}

theorem pure {a : α} (h : P a) : Computes (fun σ => (Pure.pure a : Action σ ε α)) P :=
  .inr ⟨a, h, fun _ => rfl⟩

theorem throw (e : ε) : Computes (fun σ => (MonadExcept.throw e : Action σ ε α)) P :=
  .inl ⟨e, fun _ => rfl⟩

theorem ite {c : Prop} [Decidable c] (hx : c → Computes x P) (hy : ¬c → Computes y P) :
    Computes (fun σ => if c then x σ else y σ) P := by
  by_cases h : c
  · simp only [if_pos h]
    exact hx h
  · simp only [if_neg h]
    exact hy h

/-- What the second program computes may rest on what the first returned. -/
theorem bind {f : α → (σ : Type) → Action σ ε β} {R : β → Prop} (hx : Computes x P)
    (hf : ∀ a, P a → Computes (f a) R) : Computes (fun σ => x σ >>= fun a => f a σ) R := by
  rcases hx with ⟨e, h_throw⟩ | ⟨a, h, h_pure⟩
  · simp only [h_throw]
    exact .inl ⟨e, fun σ => rfl⟩
  · simp only [h_pure, pure_bind]
    exact hf a h

theorem mono (h : Computes x P) (h_imp : ∀ a, P a → Q a) : Computes x Q := by
  rcases h with h_throw | ⟨a, h, h_pure⟩
  · exact .inl h_throw
  · exact .inr ⟨a, h_imp a h, h_pure⟩

end Computes

end Action

end Interledger
