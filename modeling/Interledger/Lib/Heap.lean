import Mathlib.Data.List.GetD
import Mathlib.Tactic.Common

/-!
# Blocks of memory

A heap is a number of blocks, each with a value at every index. `load` reads a stretch of a block,
`store` writes one, and `alloc` adds a block. A program that owns a stretch leaves what lies outside it
(`SameOutside`), so that what others read there is still the same (`SameOutside.load_eq`).
-/

namespace Interledger

/-- The blocks given out so far are those below `next`. -/
structure Heap (α : Type) where
  cell : ℕ → ℕ → α
  next : ℕ

namespace Heap

variable {α : Type}

/-- `n` values of a block, from an index on. -/
def load (h : Heap α) (block start n : ℕ) : List α := (List.range n).map fun i => h.cell block (start + i)

/-- Values put into a block, from an index on. -/
def store (h : Heap α) (block start : ℕ) (xs : List α) : Heap α where
  cell b i := if b = block ∧ start ≤ i then xs.getD (i - start) (h.cell b i) else h.cell b i
  next := h.next

/-- A new block, with the same value everywhere. -/
def alloc (h : Heap α) (x : α) : Heap α where
  cell b i := if b = h.next then x else h.cell b i
  next := h.next + 1

/-- The blocks of the first heap have kept what lies outside a stretch of one of them. -/
def SameOutside (block start n : ℕ) (h h' : Heap α) : Prop :=
  ∀ b i, b < h.next → (b ≠ block ∨ i < start ∨ start + n ≤ i) → h'.cell b i = h.cell b i

section Load

variable (h : Heap α) (block start : ℕ)

@[simp] theorem length_load (n : ℕ) : (h.load block start n).length = n := by
  rw [load, List.length_map, List.length_range]

@[simp] theorem load_zero : h.load block start 0 = [] := rfl

/-- A stretch is read in two parts. -/
theorem load_add (m n : ℕ) :
    h.load block start (m + n) = h.load block start m ++ h.load block (start + m) n := by
  rw [load, List.range_add, List.map_append, List.map_map, load, load]
  congr 2
  ext i
  exact congrArg (h.cell block) (Nat.add_assoc start m i).symm

theorem take_load {m n : ℕ} (h_le : m ≤ n) : (h.load block start n).take m = h.load block start m := by
  obtain ⟨k, rfl⟩ := Nat.exists_eq_add_of_le h_le
  rw [load_add, List.take_left' (h.length_load block start m)]

theorem drop_load {m n : ℕ} (h_le : m ≤ n) :
    (h.load block start n).drop m = h.load block (start + m) (n - m) := by
  obtain ⟨k, rfl⟩ := Nat.exists_eq_add_of_le h_le
  rw [load_add, List.drop_left' (h.length_load block start m), Nat.add_sub_cancel_left]

variable {h block start}

/-- What is read depends on the values there. -/
theorem load_congr {h' : Heap α} {block' start' n : ℕ}
    (h_cell : ∀ i < n, h'.cell block' (start' + i) = h.cell block (start + i)) :
    h'.load block' start' n = h.load block start n := by
  unfold load
  exact List.map_congr_left fun i h_mem => h_cell i (List.mem_range.mp h_mem)

end Load

section Store

variable (h : Heap α) (block start : ℕ) (xs : List α)

@[simp] theorem next_store : (h.store block start xs).next = h.next := rfl

/-- **What was stored is read.** -/
theorem load_store : (h.store block start xs).load block start xs.length = xs := by
  apply List.ext_getElem
  · exact length_load _ _ _ _
  · intro i h_i h_lt
    simp only [load, store, List.getElem_map, List.getElem_range]
    rw [if_pos ⟨trivial, Nat.le_add_right start i⟩, Nat.add_sub_cancel_left,
      List.getD_eq_getElem _ _ h_lt]

@[simp] theorem store_nil : h.store block start [] = h := by
  have h_cell (b i : ℕ) : (h.store block start []).cell b i = h.cell b i := by
    simp only [store, List.getD_nil, ite_self]
  exact congrArg (Heap.mk · h.next) (funext fun b => funext (h_cell b))

/-- **Storing** changes nothing else. -/
theorem sameOutside_store {n : ℕ} {start' : ℕ} (h_low : start' ≤ start)
    (h_high : start + xs.length ≤ start' + n) : SameOutside block start' n h (h.store block start xs) := by
  intro b i _ h_out
  simp only [store]
  split
  · next h_in =>
    obtain ⟨rfl, h_le⟩ := h_in
    rw [List.getD_eq_default]
    rcases h_out with h_ne | h_less | h_more
    · exact absurd rfl h_ne
    · omega
    · omega
  · rfl

end Store

section Alloc

variable (h : Heap α) (x : α)

@[simp] theorem next_alloc : (h.alloc x).next = h.next + 1 := rfl

/-- A new block has its value everywhere. -/
theorem load_alloc (start n : ℕ) : (h.alloc x).load h.next start n = List.replicate n x := by
  rw [List.eq_replicate_iff]
  refine ⟨length_load _ _ _ _, fun y h_mem => ?_⟩
  obtain ⟨i, -, rfl⟩ := List.mem_map.mp h_mem
  exact if_pos rfl

end Alloc

namespace SameOutside

variable {h h' h'' : Heap α} {block start n : ℕ}

theorem refl : SameOutside block start n h h := fun _ _ _ _ => rfl

theorem trans (h₁ : SameOutside block start n h h') (h_next : h.next ≤ h'.next)
    (h₂ : SameOutside block start n h' h'') : SameOutside block start n h h'' :=
  fun b i h_b h_out => (h₂ b i (Nat.lt_of_lt_of_le h_b h_next) h_out).trans (h₁ b i h_b h_out)

/-- What is then done to a block that was not there does not count. -/
theorem trans_new (h₁ : SameOutside block start n h h') (h_next : h.next ≤ h'.next)
    {block' start' n' : ℕ} (h_block : h.next ≤ block') (h₂ : SameOutside block' start' n' h' h'') :
    SameOutside block start n h h'' := by
  intro b i h_b h_out
  have h_ne : b ≠ block' := Nat.ne_of_lt (Nat.lt_of_lt_of_le h_b h_block)
  exact (h₂ b i (Nat.lt_of_lt_of_le h_b h_next) (.inl h_ne)).trans (h₁ b i h_b h_out)

/-- A larger stretch leaves less outside. -/
theorem mono {start' n' : ℕ} (h_same : SameOutside block start' n' h h') (h_low : start ≤ start')
    (h_high : start' + n' ≤ start + n) : SameOutside block start n h h' := by
  intro b i h_b h_out
  apply h_same b i h_b
  rcases h_out with h_ne | h_less | h_more
  · exact .inl h_ne
  · exact .inr (.inl (by omega))
  · exact .inr (.inr (by omega))

theorem alloc (x : α) : SameOutside block start n h (h.alloc x) :=
  fun _ _ h_b _ => if_neg (Nat.ne_of_lt h_b)

/-- **Reading outside** the stretch. -/
theorem load_eq (h_same : SameOutside block start n h h') {b i k : ℕ} (h_b : b < h.next)
    (h_out : b ≠ block ∨ i + k ≤ start ∨ start + n ≤ i) : h'.load b i k = h.load b i k := by
  apply load_congr
  intro j hj
  apply h_same b _ h_b
  rcases h_out with h_ne | h_less | h_more
  · exact .inl h_ne
  · exact .inr (.inl (by omega))
  · exact .inr (.inr (by omega))

end SameOutside

/-- **What was stored in a new block**, and what is behind it. -/
theorem load_store_alloc (h : Heap α) (x : α) (xs : List α) (k : ℕ) :
    ((h.alloc x).store h.next 0 xs).load h.next 0 (xs.length + k) = xs ++ List.replicate k x := by
  have h_same := (h.alloc x).sameOutside_store h.next 0 xs (Nat.le_refl _) (Nat.le_refl _)
  rw [load_add, load_store,
    h_same.load_eq (b := h.next) (Nat.lt_succ_self _) (.inr (.inr (Nat.le_refl _))), load_alloc]

end Heap

end Interledger
