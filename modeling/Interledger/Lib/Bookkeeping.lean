import Mathlib.Algebra.Order.Floor.Div
import Mathlib.Algebra.BigOperators.Group.List.Basic
import Mathlib.Tactic.Linarith

/-!
# Sums over outstanding items, and rounded sums

Two kinds of facts that an accounting argument rests on.

* A list of outstanding items loses one of them when it is settled: `List.eraseIdx` takes out the
  item at one position, and what is summed or counted over the list falls by that item's share
  (`sum_map_eraseIdx`, `countP_eraseIdx`). When an item changes in place, so does its share
  (`sum_map_set`).
* Amounts converted one by one and rounded up add up to at least the rounded conversion of their
  total (`ceilDiv_sum_le_sum_ceilDiv`), the subadditivity of `⌈·/b⌉`.
-/

namespace Interledger

/-! ### Settling one outstanding item -/

section Outstanding

variable {α : Type} {l : List α} {i : ℕ} {x : α}

/-- Taking the item at position `i` out of a list leaves, up to order, the rest. -/
theorem perm_cons_eraseIdx (h : l[i]? = some x) : l.Perm (x :: l.eraseIdx i) := by
  obtain ⟨h_lt, h_get⟩ := List.getElem?_eq_some_iff.mp h
  rw [← h_get]
  exact (List.getElem_cons_eraseIdx_perm h_lt).symm

/-- A sum over outstanding items is the settled item's share plus the sum over the others. -/
theorem sum_map_eraseIdx (f : α → ℕ) (h : l[i]? = some x) :
    (l.map f).sum = f x + ((l.eraseIdx i).map f).sum := by
  rw [((perm_cons_eraseIdx h).map f).sum_eq, List.map_cons, List.sum_cons]

/-- A count over outstanding items is the settled item's share plus the count over the others. -/
theorem countP_eraseIdx (p : α → Bool) (h : l[i]? = some x) :
    l.countP p = (l.eraseIdx i).countP p + if p x then 1 else 0 := by
  rw [(perm_cons_eraseIdx h).countP_eq, List.countP_cons]

theorem mem_of_mem_eraseIdx {y : α} (h : y ∈ l.eraseIdx i) : y ∈ l :=
  (List.eraseIdx_sublist l i).mem h

/-- Leaving out the item with a name that no other one has is taking it out at its position. -/
theorem exists_filter_eq_eraseIdx {β : Type} [DecidableEq β] {f : α → β} (h_nodup : (l.map f).Nodup)
    (h : x ∈ l) : ∃ i, l[i]? = some x ∧ (l.filter fun y => f y ≠ f x) = l.eraseIdx i := by
  induction l with
  | nil => exact absurd h List.not_mem_nil
  | cons z l ih =>
    obtain ⟨h_first, h_tail⟩ := List.nodup_cons.mp h_nodup
    by_cases h_eq : z = x
    · subst h_eq
      refine ⟨0, rfl, ?_⟩
      rw [List.filter_cons_of_neg (by simp), List.eraseIdx_cons_zero, List.filter_eq_self]
      intro y h_mem
      refine decide_eq_true fun h_name => h_first ?_
      rw [← h_name]
      exact List.mem_map_of_mem h_mem
    · have h_mem : x ∈ l := (List.mem_cons.mp h).resolve_left fun h_same => h_eq h_same.symm
      obtain ⟨i, h_get, h_filter⟩ := ih h_tail h_mem
      refine ⟨i + 1, h_get, ?_⟩
      have h_name : f z ≠ f x := fun h_name => h_first (h_name ▸ List.mem_map_of_mem h_mem)
      rw [List.filter_cons_of_pos (by simpa using h_name), h_filter, List.eraseIdx_cons_succ]

/-- The items of a list in which one was replaced. -/
theorem getElem?_set_cases {j : ℕ} {y z : α} (h : (l.set i y)[j]? = some z) :
    (j = i ∧ z = y) ∨ (j ≠ i ∧ l[j]? = some z) := by
  rw [List.getElem?_set] at h
  split at h
  · next h_i =>
    split at h
    · exact .inl ⟨h_i.symm, (Option.some.inj h).symm⟩
    · cases h
  · next h_i => exact .inr ⟨fun h_j => h_i h_j.symm, h⟩

/-- Replacing the item at position `i` exchanges its share of a sum. -/
theorem sum_map_set (f : α → ℕ) (h : l[i]? = some x) (y : α) :
    ((l.set i y).map f).sum + f x = (l.map f).sum + f y := by
  induction l generalizing i with
  | nil => cases h
  | cons z l ih =>
    cases i with
    | zero =>
      obtain rfl : z = x := Option.some.inj h
      rw [List.set_cons_zero, List.map_cons, List.sum_cons, List.map_cons, List.sum_cons]
      omega
    | succ i =>
      have h_tail := ih h
      rw [List.set_cons_succ, List.map_cons, List.sum_cons, List.map_cons, List.sum_cons]
      omega

/-- A sum over items each worth at most `b` for each unit of `g` is at most `b` times the units. -/
theorem sum_map_le_mul {f g : α → ℕ} {b : ℕ} (h : ∀ x ∈ l, f x ≤ b * g x) :
    (l.map f).sum ≤ b * (l.map g).sum := by
  induction l with
  | nil => simp
  | cons x l ih =>
    have h_head := h x List.mem_cons_self
    have h_tail := ih fun y hy => h y (List.mem_cons_of_mem _ hy)
    rw [List.map_cons, List.sum_cons, List.map_cons, List.sum_cons, Nat.mul_add]
    omega

end Outstanding

/-! ### Rounding up part by part -/

section Rounding

variable {b : ℕ}

/-- Rounding two parts up separately yields at least their sum rounded up. -/
theorem add_ceilDiv_le (hb : 0 < b) (x y : ℕ) : (x + y) ⌈/⌉ b ≤ x ⌈/⌉ b + y ⌈/⌉ b := by
  rw [ceilDiv_le_iff_le_mul hb, Nat.mul_add]
  exact Nat.add_le_add (le_smul_ceilDiv hb) (le_smul_ceilDiv hb)

/-- **Subadditivity of the rounded conversion** over a list of parts. -/
theorem ceilDiv_sum_le_sum_ceilDiv {α : Type} (hb : 0 < b) (f : α → ℕ) (l : List α) :
    (l.map f).sum ⌈/⌉ b ≤ (l.map fun x => f x ⌈/⌉ b).sum := by
  induction l with
  | nil => simp
  | cons x l ih =>
    rw [List.map_cons, List.sum_cons, List.map_cons, List.sum_cons]
    exact (add_ceilDiv_le hb _ _).trans (Nat.add_le_add_left ih _)

end Rounding

end Interledger
