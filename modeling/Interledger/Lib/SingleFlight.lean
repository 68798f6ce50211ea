import Mathlib.Data.Nat.Notation
import Mathlib.Logic.Function.Basic
import Mathlib.Order.Nat
import Mathlib.Tactic.Common

/-!
# One job for each key

Work is begun for a key when there is none under way, and whoever asks for it meanwhile shares it. A job
is *pending* until it is known what comes of it; then it is dropped, or it becomes *active* and is retired
later. Jobs are numbered in the order in which they were begun, and two tables have the number of the job
that is pending or active for a key.

`Tables.Holds` says that the tables and the phases of the jobs agree and that no key is in both tables. Each
change keeps it (`Holds.start`, `Holds.drop`, `Holds.activate`, `Holds.retire`), and where it holds no two
jobs for one key are under way (`Holds.unique`).
-/

namespace Interledger.SingleFlight

/-- Where a job is. -/
inductive Phase
  | pending
  | active
  | ended
  deriving DecidableEq

variable {K : Type}

/-- The jobs that are pending and active, by their keys. -/
structure Tables (K : Type) where
  pending : K → Option ℕ
  active : K → Option ℕ

namespace Tables

/-- No jobs. -/
def empty : Tables K := ⟨fun _ => none, fun _ => none⟩

section Changes

variable [DecidableEq K] (tables : Tables K) (k : K)

/-- A job is begun. -/
def start (i : ℕ) : Tables K := { tables with pending := Function.update tables.pending k (some i) }

/-- A job comes to nothing. -/
def drop : Tables K := { tables with pending := Function.update tables.pending k none }

/-- A job is there to stay. -/
def activate (i : ℕ) : Tables K :=
  ⟨Function.update tables.pending k none, Function.update tables.active k (some i)⟩

/-- A job ends. -/
def retire : Tables K := ⟨Function.update tables.pending k none, Function.update tables.active k none⟩

end Changes

/-- The tables have the jobs that are under way, and no key is in both. -/
structure Holds (tables : Tables K) (jobs : List (K × Phase)) : Prop where
  pending_iff : ∀ k i, tables.pending k = some i ↔ jobs[i]? = some (k, .pending)
  active_iff : ∀ k i, tables.active k = some i ↔ jobs[i]? = some (k, .active)
  apart : ∀ k, tables.pending k = none ∨ tables.active k = none

end Tables

open Tables

/-! ### Lists of jobs -/

theorem getElem?_concat_eq_some {α : Type} {xs : List α} {x y : α} {i : ℕ} :
    (xs ++ [x])[i]? = some y ↔ xs[i]? = some y ∨ i = xs.length ∧ x = y := by
  rcases lt_trichotomy i xs.length with h | rfl | h
  · -- inside the list, at its end, behind it
    rw [List.getElem?_append_left h]
    exact ⟨.inl, fun h_or => h_or.resolve_right fun h_last => absurd h_last.1 h.ne⟩
  · rw [List.getElem?_concat_length, List.getElem?_eq_none le_rfl]
    exact ⟨fun h_last => .inr ⟨rfl, Option.some.inj h_last⟩,
      fun h_or => congrArg some (h_or.resolve_left nofun).2⟩
  · have h_long : (xs ++ [x]).length ≤ i := by
      rw [List.length_append]
      exact h
    rw [List.getElem?_eq_none h_long, List.getElem?_eq_none h.le]
    exact ⟨nofun, fun h_or => h_or.elim nofun fun h_last => absurd h_last.1 h.ne'⟩

theorem getElem?_set_eq_some {α : Type} {xs : List α} {x y z : α} {i j : ℕ} (h : xs[i]? = some z) :
    (xs.set i x)[j]? = some y ↔ j = i ∧ x = y ∨ j ≠ i ∧ xs[j]? = some y := by
  by_cases h_same : j = i
  · obtain rfl := h_same
    rw [List.getElem?_set_self (List.getElem?_eq_some_iff.mp h).1]
    exact ⟨fun h_some => .inl ⟨rfl, Option.some.inj h_some⟩,
      fun h_or => h_or.elim (fun h_x => congrArg some h_x.2) fun h_ne => absurd rfl h_ne.1⟩
  · rw [List.getElem?_set_ne (Ne.symm h_same)]
    exact ⟨fun h_some => .inr ⟨h_same, h_some⟩,
      fun h_or => h_or.elim (fun h_x => absurd h_x.1 h_same) fun h_ne => h_ne.2⟩

namespace Tables.Holds

variable {tables : Tables K} {jobs : List (K × Phase)} {k : K} {i j : ℕ} {p q : Phase}

theorem empty : (Tables.empty : Tables K).Holds [] where
  pending_iff _ _ := ⟨nofun, nofun⟩
  active_iff _ _ := ⟨nofun, nofun⟩
  apart _ := .inl rfl

/-- **No two jobs for one key are under way.** -/
theorem unique (h : tables.Holds jobs) (hi : jobs[i]? = some (k, p)) (hj : jobs[j]? = some (k, q))
    (hp : p ≠ .ended) (hq : q ≠ .ended) : i = j := by
  -- the tables name one index for a key, and are never set at once
  cases p with
  | ended => exact absurd rfl hp
  | pending =>
    have h_i := (h.pending_iff k i).mpr hi
    cases q with
    | ended => exact absurd rfl hq
    | pending => exact Option.some.inj (h_i.symm.trans ((h.pending_iff k j).mpr hj))
    | active =>
      have h_j := (h.active_iff k j).mpr hj
      rcases h.apart k with h_none | h_none
      · rw [h_none] at h_i
        cases h_i
      · rw [h_none] at h_j
        cases h_j
  | active =>
    have h_i := (h.active_iff k i).mpr hi
    cases q with
    | ended => exact absurd rfl hq
    | active => exact Option.some.inj (h_i.symm.trans ((h.active_iff k j).mpr hj))
    | pending =>
      have h_j := (h.pending_iff k j).mpr hj
      rcases h.apart k with h_none | h_none
      · rw [h_none] at h_j
        cases h_j
      · rw [h_none] at h_i
        cases h_i

/-- Nothing is active for a key with a pending job. -/
theorem active_eq_none (h : tables.Holds jobs) (h_job : jobs[i]? = some (k, .pending)) :
    tables.active k = none := by
  refine (h.apart k).resolve_left ?_
  rw [(h.pending_iff k i).mpr h_job]
  exact nofun

section Changes

variable [DecidableEq K]

/-- A job for a key without one. -/
theorem start (h : tables.Holds jobs) (h_pending : tables.pending k = none)
    (h_active : tables.active k = none) : (tables.start k jobs.length).Holds (jobs ++ [(k, .pending)]) where
  pending_iff k' i := by
    rw [getElem?_concat_eq_some, ← h.pending_iff]
    by_cases h_key : k' = k
    · obtain rfl := h_key
      change Function.update tables.pending k' (some jobs.length) k' = some i ↔ _
      rw [Function.update_self, h_pending]
      exact ⟨fun h_last => .inr ⟨(Option.some.inj h_last).symm, rfl⟩,
        fun h_or => h_or.elim nofun fun h_last => congrArg some h_last.1.symm⟩
    · change Function.update tables.pending k (some jobs.length) k' = some i ↔ _
      rw [Function.update_of_ne h_key]
      exact ⟨.inl, fun h_or => h_or.resolve_right fun h_last => h_key (congrArg Prod.fst h_last.2).symm⟩
  active_iff k' i := by
    rw [getElem?_concat_eq_some, ← h.active_iff]
    exact ⟨.inl, fun h_or => h_or.resolve_right fun h_last => nomatch congrArg Prod.snd h_last.2⟩
  apart k' := by
    by_cases h_key : k' = k
    · exact .inr (h_key ▸ h_active)
    · change Function.update tables.pending k (some jobs.length) k' = none ∨ _
      rw [Function.update_of_ne h_key]
      exact h.apart k'

/-- One of the tables, after a job has gone from one phase to another. -/
theorem update_iff {table : K → Option ℕ} {r : Phase}
    (h_iff : ∀ k i, table k = some i ↔ jobs[i]? = some (k, r)) (h_job : jobs[i]? = some (k, q))
    (h_other : ∀ j, jobs[j]? = some (k, r) → j = i) (p : Phase) (k' : K) (j : ℕ) :
    Function.update table k (if p = r then some i else none) k' = some j ↔
      (jobs.set i (k, p))[j]? = some (k', r) := by
  rw [getElem?_set_eq_some h_job]
  by_cases h_key : k' = k
  · -- at the key of the job the table follows its phase
    obtain rfl := h_key
    rw [Function.update_self]
    constructor
    · intro h_some
      split at h_some
      · next h_p => exact .inl ⟨(Option.some.inj h_some).symm, congrArg (Prod.mk k') h_p⟩
      · cases h_some
    · rintro (⟨rfl, h_p⟩ | ⟨h_ne, h_j⟩)
      · exact if_pos (congrArg Prod.snd h_p)
      · exact absurd (h_other j h_j) h_ne
  · -- elsewhere neither the table nor the jobs change
    rw [Function.update_of_ne h_key, h_iff]
    constructor
    · intro h_j
      refine .inr ⟨fun h_same => h_key ?_, h_j⟩
      rw [h_same, h_job] at h_j
      exact (congrArg Prod.fst (Option.some.inj h_j)).symm
    · rintro (⟨-, h_p⟩ | ⟨-, h_j⟩)
      · exact absurd (congrArg Prod.fst h_p).symm h_key
      · exact h_j

/-- A job goes from the phase that it is in to the phase `p`. -/
theorem change (h : tables.Holds jobs) (h_job : jobs[i]? = some (k, q)) (hq : q ≠ .ended) (p : Phase) :
    Holds
      ⟨Function.update tables.pending k (if p = .pending then some i else none),
        Function.update tables.active k (if p = .active then some i else none)⟩
      (jobs.set i (k, p)) where
  -- nothing else is under way for the key
  pending_iff := update_iff h.pending_iff h_job (fun _ h_j => h.unique h_j h_job nofun hq) p
  active_iff := update_iff h.active_iff h_job (fun _ h_j => h.unique h_j h_job nofun hq) p
  apart k' := by
    change Function.update tables.pending k _ k' = none ∨ Function.update tables.active k _ k' = none
    by_cases h_key : k' = k
    · rw [h_key, Function.update_self, Function.update_self]
      cases p with
      | pending => exact .inr rfl
      | active => exact .inl rfl
      | ended => exact .inl rfl
    · rw [Function.update_of_ne h_key, Function.update_of_ne h_key]
      exact h.apart k'

/-- A pending job comes to nothing. -/
theorem drop (h : tables.Holds jobs) (h_job : jobs[i]? = some (k, .pending)) :
    (tables.drop k).Holds (jobs.set i (k, .ended)) := by
  have h_ended := h.change h_job nofun .ended
  have h_same : Function.update tables.active k none = tables.active := by
    rw [← h.active_eq_none h_job, Function.update_eq_self]
  rw [if_neg nofun, if_neg nofun, h_same] at h_ended
  exact h_ended

/-- A pending job becomes active. -/
theorem activate (h : tables.Holds jobs) (h_job : jobs[i]? = some (k, .pending)) :
    (tables.activate k i).Holds (jobs.set i (k, .active)) := by
  have h_active := h.change h_job nofun .active
  rw [if_neg nofun, if_pos rfl] at h_active
  exact h_active

/-- An active job ends. -/
theorem retire (h : tables.Holds jobs) (h_job : jobs[i]? = some (k, .active)) :
    (tables.retire k).Holds (jobs.set i (k, .ended)) := by
  have h_ended := h.change h_job nofun .ended
  rw [if_neg nofun, if_neg nofun] at h_ended
  exact h_ended

end Changes

end Tables.Holds

end Interledger.SingleFlight
