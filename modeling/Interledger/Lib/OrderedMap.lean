import Mathlib.Algebra.BigOperators.Group.List.Basic
import Mathlib.Algebra.Ring.Nat
import Mathlib.Data.List.Nodup
import Mathlib.Data.List.Basic

/-!
# Maps in insertion order

A finite map whose entries are visited in the order in which their keys were added, the iteration
order of a JavaScript `Map` and of the properties of an object. A key occurs once, which the
structure carries as a field.

Everything is stated through the lookup `get?`: what each operation does to it (`get?_set`,
`get?_erase`, `get?_mapValues`, `get?_modify`), and that the entries are exactly what it returns
(`mem_entries`). What the values are worth adds up to `sum`, which changes by the value that is added
or removed (`sum_set`, `sum_erase`).
-/

namespace Interledger

/-- A map from keys to values, its entries in the order in which their keys were added. -/
structure OrderedMap (κ α : Type) where
  entries : List (κ × α)
  nodup : (entries.map Prod.fst).Nodup
  deriving DecidableEq

namespace OrderedMap

variable {κ α β : Type} [DecidableEq κ]

/-- The map without entries. -/
def empty : OrderedMap κ α := ⟨[], List.nodup_nil⟩

instance : Inhabited (OrderedMap κ α) := ⟨empty⟩

variable (m : OrderedMap κ α)

/-- The value at a key. -/
def get? (k : κ) : Option α := (m.entries.find? fun p => p.1 = k).map Prod.snd

/-- Change every value, in view of its key. -/
def mapValues (f : κ → α → β) : OrderedMap κ β where
  entries := m.entries.map fun p => (p.1, f p.1 p.2)
  nodup := by
    rw [List.map_map]
    exact m.nodup

/-- Change the value at a key. -/
def modify (k : κ) (f : α → α) : OrderedMap κ α := m.mapValues fun k' a => if k' = k then f a else a

/-- Remove a key. -/
def erase (k : κ) : OrderedMap κ α where
  entries := m.entries.filter fun p => p.1 ≠ k
  nodup := m.nodup.sublist (List.filter_sublist.map _)

/-- Set the value at a key. A new key comes last, an old one stays where it is. -/
def set (k : κ) (a : α) : OrderedMap κ α :=
  if h : k ∈ m.entries.map Prod.fst then m.modify k fun _ => a
  else
    { entries := m.entries ++ [(k, a)]
      nodup := by
        rw [List.map_append]
        refine m.nodup.append (List.nodup_singleton _) ?_
        rw [List.map_singleton, List.disjoint_singleton]
        exact h }

/-- What the values are worth together. -/
def sum (f : α → ℕ) : ℕ := (m.entries.map fun p => f p.2).sum

variable {m} {k k' : κ} {a : α}

@[simp] theorem get?_empty : (empty : OrderedMap κ α).get? k = none := rfl

/-- The entries are what lookups return. -/
theorem mem_entries : (k, a) ∈ m.entries ↔ m.get? k = some a := by
  unfold get?
  constructor
  · intro h_mem
    rw [Option.map_eq_some_iff]
    cases h_find : m.entries.find? fun p => p.1 = k with
    | none =>
      have h_ne := List.find?_eq_none.mp h_find _ h_mem
      simp at h_ne
    | some p =>
      -- a key has one entry
      have h_key : p.1 = k := by simpa using List.find?_some h_find
      have h_eq : p = (k, a) :=
        List.inj_on_of_nodup_map m.nodup (List.mem_of_find?_eq_some h_find) h_mem h_key
      exact ⟨p, rfl, h_eq ▸ rfl⟩
  · intro h_get
    obtain ⟨p, h_find, rfl⟩ := Option.map_eq_some_iff.mp h_get
    have h_key : p.1 = k := by simpa using List.find?_some h_find
    rw [← h_key]
    exact List.mem_of_find?_eq_some h_find

theorem mem_keys : k ∈ m.entries.map Prod.fst ↔ (m.get? k).isSome := by
  rw [List.mem_map, Option.isSome_iff_exists]
  constructor
  · rintro ⟨p, hp, rfl⟩
    exact ⟨p.2, mem_entries.mp hp⟩
  · rintro ⟨a, h⟩
    exact ⟨(k, a), mem_entries.mpr h, rfl⟩

@[simp] theorem get?_mapValues (f : κ → α → β) : (m.mapValues f).get? k = (m.get? k).map (f k) := by
  unfold mapValues get?
  rw [List.find?_map]
  change ((m.entries.find? fun p => p.1 = k).map _).map _ = _
  cases h_find : m.entries.find? fun p => p.1 = k with
  | none => rfl
  | some p =>
    have h_key : p.1 = k := by simpa using List.find?_some h_find
    subst h_key
    rfl

theorem get?_modify (f : α → α) :
    (m.modify k f).get? k' = if k' = k then (m.get? k').map f else m.get? k' := by
  unfold modify
  rw [get?_mapValues]
  split
  · rfl
  · exact Option.map_id'

@[simp] theorem get?_modify_self (f : α → α) : (m.modify k f).get? k = (m.get? k).map f := by
  rw [get?_modify, if_pos rfl]

theorem get?_set : (m.set k a).get? k' = if k' = k then some a else m.get? k' := by
  unfold set
  by_cases h_mem : k ∈ m.entries.map Prod.fst
  · -- a key that is there keeps its place, another goes to the end
    rw [dif_pos h_mem, get?_modify]
    split
    · next h_eq =>
      obtain ⟨b, hb⟩ := Option.isSome_iff_exists.mp (mem_keys.mp h_mem)
      rw [h_eq, hb, Option.map_some]
    · rfl
  · rw [dif_neg h_mem]
    have h_none : m.get? k = none := by
      rw [← Option.not_isSome_iff_eq_none, ← mem_keys]
      exact h_mem
    unfold get? at h_none ⊢
    rw [List.find?_append]
    by_cases h_eq : k' = k
    · subst h_eq
      rw [Option.map_eq_none_iff.mp h_none]
      simp
    · have h_new : [(k, a)].find? (fun p => p.1 = k') = none := by simp [Ne.symm h_eq]
      rw [if_neg h_eq, h_new, Option.or_none]

@[simp] theorem get?_set_self : (m.set k a).get? k = some a := by
  rw [get?_set, if_pos rfl]

theorem get?_erase : (m.erase k).get? k' = if k' = k then none else m.get? k' := by
  cases h : (m.erase k).get? k' with
  | none =>
    split
    · rfl
    · next h_ne =>
      by_contra h_some
      obtain ⟨b, hb⟩ := Option.ne_none_iff_exists'.mp (Ne.symm h_some)
      have h_mem : (k', b) ∈ (m.erase k).entries :=
        List.mem_filter.mpr ⟨mem_entries.mpr hb, by simpa using h_ne⟩
      rw [mem_entries.mp h_mem] at h
      cases h
  | some b =>
    obtain ⟨h_mem, h_ne⟩ := List.mem_filter.mp (mem_entries.mpr h)
    rw [if_neg (by simpa using h_ne), mem_entries.mp h_mem]

@[simp] theorem get?_erase_self : (m.erase k).get? k = none := by
  rw [get?_erase, if_pos rfl]

/-- A new key comes last. -/
theorem entries_set (h : m.get? k = none) : (m.set k a).entries = m.entries ++ [(k, a)] := by
  have h_new : k ∉ m.entries.map Prod.fst := by
    rw [mem_keys, h]
    exact Bool.false_ne_true
  unfold set
  rw [dif_neg h_new]

/-- A new key adds its value. -/
theorem sum_set (f : α → ℕ) (h : m.get? k = none) : (m.set k a).sum f = m.sum f + f a := by
  unfold sum
  rw [entries_set h, List.map_append, List.sum_append, List.map_singleton, List.sum_singleton]

/-- Removing a key takes its value off. -/
theorem sum_erase (f : α → ℕ) (h : m.get? k = some a) : m.sum f = (m.erase k).sum f + f a := by
  have h_mem := mem_entries.mpr h
  have h_nodup := m.nodup
  change (m.entries.map fun p => f p.2).sum =
    ((m.entries.filter fun p => p.1 ≠ k).map fun p => f p.2).sum + f a
  generalize m.entries = l at h_mem h_nodup
  induction l with
  | nil => cases h_mem
  | cons p l ih =>
    rw [List.map_cons, List.nodup_cons] at h_nodup
    rcases List.mem_cons.mp h_mem with rfl | h_tail
    · -- the other entries have other keys
      have h_rest : l.filter (fun p => p.1 ≠ k) = l := by
        refine List.filter_eq_self.mpr fun q hq => ?_
        rw [decide_eq_true_eq]
        intro h_eq
        exact h_nodup.1 (List.mem_map.mpr ⟨q, hq, h_eq⟩)
      rw [List.filter_cons_of_neg (by simp), h_rest, List.map_cons, List.sum_cons, Nat.add_comm]
    · have h_ne : p.1 ≠ k := by
        intro h_eq
        exact h_nodup.1 (List.mem_map.mpr ⟨(k, a), h_tail, h_eq.symm⟩)
      rw [List.filter_cons_of_pos (by simpa using h_ne), List.map_cons, List.map_cons, List.sum_cons,
        List.sum_cons, ih h_tail h_nodup.2, Nat.add_assoc]

end OrderedMap

end Interledger
