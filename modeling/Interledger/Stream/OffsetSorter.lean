import Interledger.Lib.Machine
import Interledger.Stream.Frame
import Mathlib.Data.List.Range

/-!
# Reassembly of incoming data

`OffsetSorter` of `ilp-protocol-stream/src/util/data-offset-sorter.ts` puts the segments of a byte
stream back in order. Segments are pushed with their offset, in any order; `push` links each into a
list sorted by offset, and `read` takes the head off when it starts where reading stopped.

Whatever is pushed, what was read is a prefix of the stream (`reads_prefix`). That everything
covered by the pushed segments can be read needs the segments to fit together: a head that starts
before the read offset is never taken off, and blocks the segments behind it for ever
(`Blocked.step`). Duplicates, overlaps and empty segments inside others have this effect, and they
do arrive, as data of rejected packets is sent again.

## Main results

* `reads_prefix` — what was read, in every run;
* `Blocked.step` — the state no event leaves;
* `reassembles` — all of the covered prefix is read, in every run whose segments fit;
* `duplicate_blocks` — a retransmitted segment after which nothing more is read.
-/

namespace Interledger.Stream

open Interledger.Ilp

/-- `OffsetDataEntry`. The order of a list of entries stands for their `next` pointers. -/
structure OffsetDataEntry where
  data : Buffer
  offset : ℕ
  deriving DecidableEq

/-- The offset after the last byte of an entry. -/
def OffsetDataEntry.endOffset (e : OffsetDataEntry) : ℕ := e.offset + e.data.length

/-- `OffsetSorter`, with the entries from `head` on. -/
structure OffsetSorter where
  entries : List OffsetDataEntry := []
  readOffset : ℕ := 0
  maxOffset : ℕ := 0
  deriving DecidableEq

/-- Where `push` links an entry: before the first one that starts after it. -/
def insertEntry (entry : OffsetDataEntry) : List OffsetDataEntry → List OffsetDataEntry
  | [] => [entry]
  | e :: es => if e.offset > entry.offset then entry :: e :: es else e :: insertEntry entry es

/-- The number of bytes in the entries that follow each other from `offset` on. -/
def contiguousLength (offset : ℕ) : List OffsetDataEntry → ℕ
  | [] => 0
  | e :: es =>
    if e.offset = offset then e.data.length + contiguousLength (offset + e.data.length) es else 0

namespace OffsetSorter

variable (s : OffsetSorter)

/-- `push`. -/
def push (data : Buffer) (offset : ℕ) : OffsetSorter :=
  { s with
    maxOffset := max (offset + data.length) s.maxOffset
    entries := insertEntry { data := data, offset := offset } s.entries }

/-- `read`. -/
def read : Option Buffer × OffsetSorter :=
  match s.entries with
  | [] => (none, s)
  | head :: next =>
    if s.readOffset = head.offset then
      (some head.data,
        { s with readOffset := head.offset + head.data.length, entries := next })
    else (none, s)

/-- `byteLength`. -/
def byteLength : ℕ := contiguousLength s.readOffset s.entries

/-- Reading never goes back. -/
theorem readOffset_le_read : s.readOffset ≤ s.read.2.readOffset := by
  unfold read
  cases s.entries with
  | nil => exact Nat.le_refl _
  | cons head next =>
    by_cases h_eq : s.readOffset = head.offset
    · simp only [if_pos h_eq]
      exact h_eq ▸ Nat.le_add_right _ _
    · simp only [if_neg h_eq]
      exact Nat.le_refl _

end OffsetSorter

/-- The bytes `B[offset..offset+length)` of a stream. -/
def segment (B : ℕ → UInt8) (offset length : ℕ) : Buffer := (List.range' offset length).map B

/-- A sorter in use: what was read from it, one `read` after the other, and the offset and length of
each segment pushed to it. -/
structure Reassembly where
  sorter : OffsetSorter := {}
  output : Buffer := []
  pushed : List (ℕ × ℕ) := []
  deriving DecidableEq

/-- What is done with a sorter. -/
inductive SorterEvent
  | push (offset length : ℕ)
  | read
  deriving DecidableEq

namespace Reassembly

variable (B : ℕ → UInt8) (s : Reassembly)

/-- Push a segment of the stream. -/
def push (offset length : ℕ) : Reassembly :=
  { s with
    sorter := s.sorter.push (segment B offset length) offset
    pushed := s.pushed ++ [(offset, length)] }

/-- Read once. -/
def read : Reassembly :=
  { s with
    sorter := s.sorter.read.2
    output := s.output ++ s.sorter.read.1.getD [] }

/-- Read at most `k` times, until nothing is returned. -/
def readTimes : ℕ → Reassembly → Reassembly
  | 0, s => s
  | k + 1, s =>
    match s.sorter.read.1 with
    | none => s
    | some _ => readTimes k s.read

/-- Read until nothing is returned. Each read takes an entry, so that their number suffices
(`readAll_read`). -/
def readAll : Reassembly := readTimes s.sorter.entries.length s

/-- The runs of a sorter that is pushed segments of `B`. -/
def machine : Machine Reassembly SorterEvent where
  init s := s = {}
  step s
    | .push offset length => some (s.push B offset length)
    | .read => some s.read

end Reassembly

/-! ### Segments -/

section Segments

variable (B : ℕ → UInt8) (o m n : ℕ)

@[simp] theorem length_segment : (segment B o n).length = n := by
  unfold segment
  rw [List.length_map, List.length_range']

/-- Adjacent segments join. -/
theorem segment_append : segment B o m ++ segment B (o + m) n = segment B o (m + n) := by
  unfold segment
  rw [← List.map_append, List.range'_append_1]

/-- A longer segment extends a shorter one. -/
theorem segment_prefix (h : m ≤ n) : segment B o m <+: segment B o n := by
  obtain ⟨k, rfl⟩ := Nat.exists_eq_add_of_le h
  exact ⟨segment B (o + m) k, segment_append B o m k⟩

end Segments

theorem mem_insertEntry {e entry : OffsetDataEntry} {es : List OffsetDataEntry} :
    e ∈ insertEntry entry es ↔ e = entry ∨ e ∈ es := by
  induction es with
  | nil => exact List.mem_cons
  | cons e' es ih =>
    unfold insertEntry
    split
    · exact List.mem_cons
    · rw [List.mem_cons, List.mem_cons, ih]
      exact or_left_comm

/-! ### What was read is a prefix -/

variable {B : ℕ → UInt8} {s t : Reassembly} {ok : Reassembly → SorterEvent → Prop}

/-- All that a read does: it takes the head, which starts at the read offset, or nothing. -/
theorem read_cases (s : Reassembly) :
    (s.sorter.read.1 = none ∧ s.read = s) ∨
    ∃ e es, s.sorter.entries = e :: es ∧ e.offset = s.sorter.readOffset ∧
      s.sorter.read.1 = some e.data ∧
      s.read =
        { s with
          sorter := { s.sorter with readOffset := e.endOffset, entries := es }
          output := s.output ++ e.data } := by
  unfold Reassembly.read OffsetSorter.read
  cases h_entries : s.sorter.entries with
  | nil =>
    left
    exact ⟨rfl, by simp⟩
  | cons e es =>
    by_cases h_head : s.sorter.readOffset = e.offset
    · right
      refine ⟨e, es, rfl, h_head.symm, ?_, ?_⟩
      · simp only [if_pos h_head]
      · simp only [if_pos h_head, Option.getD_some]
        rfl
    · left
      simp only [if_neg h_head]
      exact ⟨trivial, by simp⟩

/-- The entries hold bytes of the stream, the output is its prefix up to the read offset, and what
was pushed has been read or is held by an entry. -/
structure Genuine (B : ℕ → UInt8) (s : Reassembly) : Prop where
  /-- An entry holds the bytes at its offset. -/
  entries : ∀ e ∈ s.sorter.entries, e.data = segment B e.offset e.data.length
  /-- The output is the stream up to the read offset. -/
  output : s.output = segment B 0 s.sorter.readOffset
  /-- No pushed byte is lost. -/
  held : ∀ p ∈ s.pushed, ∀ k, p.1 ≤ k → k < p.1 + p.2 →
    k < s.sorter.readOffset ∨ ∃ e ∈ s.sorter.entries, e.offset ≤ k ∧ k < e.endOffset

namespace Genuine

theorem initial (h : (Reassembly.machine B).init s) : Genuine B s := by
  obtain rfl := h
  exact ⟨nofun, rfl, nofun⟩

theorem push (h : Genuine B s) (offset length : ℕ) : Genuine B (s.push B offset length) := by
  constructor
  · intro e he
    rcases mem_insertEntry.mp he with rfl | h_old
    · rw [length_segment]
    · exact h.entries e h_old
  · exact h.output
  · intro p hp k h_lo h_hi
    rcases List.mem_append.mp hp with h_old | h_new
    · rcases h.held p h_old k h_lo h_hi with h_read | ⟨e, he, h_in⟩
      · exact .inl h_read
      · exact .inr ⟨e, mem_insertEntry.mpr (.inr he), h_in⟩
    · obtain rfl := List.mem_singleton.mp h_new
      refine .inr ⟨_, mem_insertEntry.mpr (.inl rfl), h_lo, ?_⟩
      rw [OffsetDataEntry.endOffset, length_segment]
      exact h_hi

theorem read (h : Genuine B s) : Genuine B s.read := by
  rcases read_cases s with ⟨-, h_eq⟩ | ⟨e, es, h_entries, h_head, -, h_eq⟩
  · rw [h_eq]
    exact h
  · have h_mem : ∀ e' ∈ e :: es, e'.data = segment B e'.offset e'.data.length := by
      intro e' he'
      exact h.entries e' (h_entries ▸ he')
    rw [h_eq]
    constructor
    · intro e' he'
      exact h_mem e' (List.mem_cons_of_mem _ he')
    · -- the head continues the output where it ends
      have h_data := h_mem e List.mem_cons_self
      have h_join := segment_append B 0 e.offset e.data.length
      rw [Nat.zero_add, ← h_data] at h_join
      change s.output ++ e.data = segment B 0 (e.offset + e.data.length)
      rw [h.output, ← h_head, h_join]
    · intro p hp k h_lo h_hi
      change k < e.endOffset ∨ ∃ e' ∈ es, e'.offset ≤ k ∧ k < e'.endOffset
      rcases h.held p hp k h_lo h_hi with h_read | ⟨e', he', h_in⟩
      · left
        have h_le : s.sorter.readOffset ≤ e.endOffset := h_head ▸ Nat.le_add_right _ _
        exact h_read.trans_le h_le
      · rw [h_entries] at he'
        rcases List.mem_cons.mp he' with rfl | h_rest
        · exact .inl h_in.2
        · exact .inr ⟨e', h_rest, h_in⟩

theorem step {e : SorterEvent} (h : Genuine B s)
    (h_step : (Reassembly.machine B).step s e = some t) : Genuine B t := by
  cases e with
  | push offset length =>
    obtain rfl := Option.some.inj h_step
    exact h.push offset length
  | read =>
    obtain rfl := Option.some.inj h_step
    exact h.read

theorem of_reach (h : (Reassembly.machine B).Reach ok s) : Genuine B s :=
  h.invariant _ (fun _ h_init => initial h_init) fun _ _ _ _ h_inv _ h_step => h_inv.step h_step

end Genuine

/-- **What was read is a prefix of the stream**, of the length of the read offset, in every run. -/
theorem reads_prefix (h : (Reassembly.machine B).Reachable s) :
    s.output = segment B 0 s.sorter.readOffset :=
  (Genuine.of_reach h).output

/-! ### The state no event leaves -/

/-- The head starts before the read offset. -/
def Blocked (s : Reassembly) : Prop :=
  ∃ e es, s.sorter.entries = e :: es ∧ e.offset < s.sorter.readOffset

/-- **A blocked sorter stays blocked** and nothing more is read from it: only an entry that starts
even earlier can become the head. -/
theorem Blocked.step {e : SorterEvent} (h : Blocked s)
    (h_step : (Reassembly.machine B).step s e = some t) : Blocked t ∧ t.output = s.output := by
  obtain ⟨head, es, h_entries, h_behind⟩ := h
  cases e with
  | push offset length =>
    obtain rfl := Option.some.inj h_step
    refine ⟨?_, rfl⟩
    simp only [Blocked, Reassembly.push, OffsetSorter.push, h_entries, insertEntry]
    by_cases h_front : head.offset > offset
    · rw [if_pos h_front]
      exact ⟨_, _, rfl, h_front.trans h_behind⟩
    · rw [if_neg h_front]
      exact ⟨_, _, rfl, h_behind⟩
  | read =>
    obtain rfl := Option.some.inj h_step
    rcases read_cases s with ⟨-, h_eq⟩ | ⟨e, _, h_entries', h_head, -⟩
    · rw [h_eq]
      exact ⟨⟨head, es, h_entries, h_behind⟩, rfl⟩
    · -- the head is not where reading stopped
      rw [h_entries] at h_entries'
      obtain ⟨rfl, -⟩ := List.cons.inj h_entries'
      exact absurd h_head h_behind.ne

/-! ### Segments that fit together -/

/-- The entries start at or after `offset`, and each at or after the end of the one before. -/
def Tiled (offset : ℕ) : List OffsetDataEntry → Prop
  | [] => True
  | e :: es => offset ≤ e.offset ∧ Tiled e.endOffset es

/-- The guard: a pushed segment starts at or after the read offset, no entry that starts before or
with it reaches into it, and it does not reach into an entry that starts after it. -/
def Fits (s : Reassembly) : SorterEvent → Prop
  | .push offset length =>
    s.sorter.readOffset ≤ offset ∧
    ∀ e ∈ s.sorter.entries,
      (e.offset ≤ offset → e.endOffset ≤ offset) ∧ (offset < e.offset → offset + length ≤ e.offset)
  | .read => True

instance (e : SorterEvent) : Decidable (Fits s e) := by
  cases e with
  | push offset length => exact inferInstanceAs (Decidable (_ ∧ ∀ e ∈ _, (_ → _) ∧ (_ → _)))
  | read => exact inferInstanceAs (Decidable True)

/-- Entries of a tiling start at or after its offset. -/
theorem Tiled.le {offset : ℕ} {e : OffsetDataEntry} {es : List OffsetDataEntry}
    (h : Tiled offset es) (he : e ∈ es) : offset ≤ e.offset := by
  induction es generalizing offset with
  | nil => cases he
  | cons e' es ih =>
    rcases List.mem_cons.mp he with rfl | h_rest
    · exact h.1
    · have h_end : e'.endOffset ≤ e.offset := ih h.2 h_rest
      exact h.1.trans ((Nat.le_add_right _ _).trans h_end)

/-- An entry that fits keeps the tiling. -/
theorem Tiled.insertEntry {offset : ℕ} {entry : OffsetDataEntry} {es : List OffsetDataEntry}
    (h : Tiled offset es) (h_offset : offset ≤ entry.offset)
    (h_fits : ∀ e ∈ es, (e.offset ≤ entry.offset → e.endOffset ≤ entry.offset) ∧
      (entry.offset < e.offset → entry.endOffset ≤ e.offset)) :
    Tiled offset (insertEntry entry es) := by
  induction es generalizing offset with
  | nil => exact ⟨h_offset, trivial⟩
  | cons e es ih =>
    have h_here := h_fits e List.mem_cons_self
    unfold Stream.insertEntry
    by_cases h_before : e.offset > entry.offset
    · rw [if_pos h_before]
      exact ⟨h_offset, h_here.2 h_before, h.2⟩
    · rw [if_neg h_before]
      refine ⟨h.1, ih h.2 (h_here.1 (not_lt.mp h_before)) fun e' he' => ?_⟩
      exact h_fits e' (List.mem_cons_of_mem _ he')

/-- The entries tile what lies beyond the read offset. -/
def InOrder (s : Reassembly) : Prop := Tiled s.sorter.readOffset s.sorter.entries

theorem InOrder.read (h : InOrder s) : InOrder s.read := by
  rcases read_cases s with ⟨-, h_eq⟩ | ⟨e, es, h_entries, -, -, h_eq⟩
  · rw [h_eq]
    exact h
  · rw [h_eq]
    unfold InOrder at h
    rw [h_entries] at h
    exact h.2

theorem InOrder.step {e : SorterEvent} (h : InOrder s) (h_ok : Fits s e)
    (h_step : (Reassembly.machine B).step s e = some t) : InOrder t := by
  cases e with
  | push offset length =>
    obtain rfl := Option.some.inj h_step
    obtain ⟨h_offset, h_fits⟩ := h_ok
    have h_end : OffsetDataEntry.endOffset ⟨segment B offset length, offset⟩ = offset + length := by
      rw [OffsetDataEntry.endOffset, length_segment]
    refine Tiled.insertEntry h h_offset fun e he => ?_
    rw [h_end]
    exact h_fits e he
  | read =>
    obtain rfl := Option.some.inj h_step
    exact h.read

theorem InOrder.of_reach (h : (Reassembly.machine B).Reach Fits s) : InOrder s := by
  refine h.invariant _ ?_ fun _ _ _ _ h_inv h_ok h_step => h_inv.step h_ok h_step
  rintro s rfl
  exact trivial

/-! ### Reading until nothing is returned -/

/-- What single reads preserve, reading repeatedly does. -/
theorem readTimes_induction {P : Reassembly → Prop} (h_read : ∀ s, P s → P s.read) (k : ℕ)
    (h : P s) : P (s.readTimes k) := by
  induction k generalizing s with
  | zero => exact h
  | succ k ih =>
    unfold Reassembly.readTimes
    split
    · exact h
    · exact ih (h_read s h)

theorem readTimes_read (k : ℕ) (h : s.sorter.entries.length ≤ k) :
    (s.readTimes k).sorter.read.1 = none := by
  induction k generalizing s with
  | zero =>
    have h_nil : s.sorter.entries = [] := List.eq_nil_of_length_eq_zero (Nat.le_zero.mp h)
    unfold Reassembly.readTimes OffsetSorter.read
    rw [h_nil]
  | succ k ih =>
    unfold Reassembly.readTimes
    rcases read_cases s with ⟨h_none, -⟩ | ⟨e, es, h_entries, -, h_some, h_eq⟩
    · rw [h_none]
      exact h_none
    · rw [h_some]
      refine ih ?_
      rw [h_entries, List.length_cons] at h
      rw [h_eq]
      exact Nat.le_of_succ_le_succ h

/-- `readAll` goes on until `read` returns nothing. -/
theorem readAll_read (s : Reassembly) : s.readAll.sorter.read.1 = none :=
  readTimes_read _ le_rfl

/-- `byteLength` is what can be read now. -/
theorem length_output_readAll (s : Reassembly) :
    s.readAll.output.length = s.output.length + s.sorter.byteLength := by
  -- as many reads as there are entries
  have h_times : ∀ (k : ℕ) (s : Reassembly), s.sorter.entries.length = k →
      (s.readTimes k).output.length = s.output.length + s.sorter.byteLength := by
    intro k
    -- induction on the reads, each of which takes one entry or none
    induction k with
    | zero =>
      intro s h
      unfold Reassembly.readTimes OffsetSorter.byteLength
      rw [List.eq_nil_of_length_eq_zero h]
      rfl
    | succ k ih =>
      intro s h
      obtain ⟨e, es, h_entries⟩ := List.exists_cons_of_length_eq_add_one h
      unfold Reassembly.readTimes OffsetSorter.byteLength
      rw [h_entries, contiguousLength]
      rcases read_cases s with ⟨h_none, -⟩ | ⟨e', es', h_entries', h_head, h_some, h_eq⟩
      · -- the head is not contiguous
        have h_gap : e.offset ≠ s.sorter.readOffset := by
          intro h_head
          simp [OffsetSorter.read, h_entries, h_head] at h_none
        rw [h_none, if_neg h_gap]
        rfl
      · -- the head is read, and the next one has to follow it
        rw [h_entries] at h_entries' h
        obtain ⟨rfl, rfl⟩ := List.cons.inj h_entries'
        rw [h_some, if_pos h_head]
        change (s.read.readTimes k).output.length = _
        rw [ih s.read (by rw [h_eq]; exact Nat.succ.inj h), h_eq, OffsetSorter.byteLength,
          List.length_append, OffsetDataEntry.endOffset, h_head, Nat.add_assoc]
  exact h_times _ s rfl

/-- An exhausted tiling leaves a gap at the read offset. -/
theorem InOrder.gap (h : InOrder s) (h_none : s.sorter.read.1 = none) :
    ∀ e ∈ s.sorter.entries, s.sorter.readOffset < e.offset := by
  intro e he
  obtain ⟨head, es, h_entries⟩ := List.exists_cons_of_ne_nil (List.ne_nil_of_mem he)
  have h_tiled : Tiled s.sorter.readOffset (head :: es) := h_entries ▸ h
  have h_gap : s.sorter.readOffset ≠ head.offset := by
    intro h_head
    simp [OffsetSorter.read, h_entries, h_head] at h_none
  have h_lt : s.sorter.readOffset < head.offset := lt_of_le_of_ne h_tiled.1 h_gap
  rw [h_entries] at he
  rcases List.mem_cons.mp he with rfl | h_rest
  · exact h_lt
  · exact h_lt.trans_le ((Nat.le_add_right _ _).trans (h_tiled.2.le h_rest))

/-- The segments pushed so far cover the first `n` bytes. -/
def Covers (pushed : List (ℕ × ℕ)) (n : ℕ) : Prop :=
  ∀ k < n, ∃ p ∈ pushed, p.1 ≤ k ∧ k < p.1 + p.2

instance (pushed : List (ℕ × ℕ)) (n : ℕ) : Decidable (Covers pushed n) :=
  inferInstanceAs (Decidable (∀ k < n, ∃ p ∈ pushed, _ ∧ _))

/-- **Reassembly.** In every run whose segments fit together, what was read is the prefix of the
stream up to the read offset; and once the pushed segments cover the first `n` bytes, reading until
nothing is returned yields all of them. -/
theorem reassembles (h : (Reassembly.machine B).Reach Fits s) :
    s.output = segment B 0 s.sorter.readOffset ∧
    ∀ n, Covers s.pushed n →
      s.readAll.sorter.read.1 = none ∧ segment B 0 n <+: s.readAll.output := by
  refine ⟨(Genuine.of_reach h).output, fun n h_covers => ⟨readAll_read s, ?_⟩⟩
  have h_genuine : Genuine B s.readAll :=
    readTimes_induction (fun _ h => h.read) _ (Genuine.of_reach h)
  have h_order : InOrder s.readAll := readTimes_induction (fun _ h => h.read) _ (InOrder.of_reach h)
  have h_pushed : s.readAll.pushed = s.pushed :=
    readTimes_induction (P := fun t => t.pushed = s.pushed) (fun _ h => h) _ rfl
  rw [h_genuine.output]
  refine segment_prefix B 0 n _ (not_lt.mp fun h_lt => ?_)
  -- the first byte that was not read is covered, but every entry starts after it
  obtain ⟨p, hp, h_lo, h_hi⟩ := h_covers _ h_lt
  rw [← h_pushed] at hp
  rcases h_genuine.held p hp _ h_lo h_hi with h_read | ⟨e, he, h_le, -⟩
  · exact lt_irrefl _ h_read
  · exact absurd h_le (not_le.mpr (h_order.gap (readAll_read s) e he))

/-- Two segments that arrive in the wrong order. -/
theorem reassembles_out_of_order :
    ∃ s, (Reassembly.machine fun k => UInt8.ofNat k).Reachable s ∧
      [0, 1, 2, 3] <+: s.readAll.output := by
  have h : (Reassembly.machine fun k => UInt8.ofNat k).Reach Fits _ :=
    Machine.reach_of_exec [.push 2 2, .read, .push 0 2] rfl rfl
  exact ⟨_, h.reachable, ((reassembles h).2 4 (by decide)).2⟩

/-- **A duplicate blocks the stream**: two bytes are pushed twice, then the two that follow. They
cover the first four bytes, and reading until nothing is returned yields two. -/
theorem duplicate_blocks :
    ∃ s, (Reassembly.machine fun k => UInt8.ofNat k).Reachable s ∧ Covers s.pushed 4 ∧
      s.readAll.sorter.read.1 = none ∧
      ¬ segment (fun k => UInt8.ofNat k) 0 4 <+: s.readAll.output := by
  have h : (Reassembly.machine fun k => UInt8.ofNat k).Reachable _ :=
    Machine.reach_of_exec [.push 0 2, .push 0 2, .push 2 2] rfl rfl
  exact ⟨_, h, by decide, rfl, by decide⟩

end Interledger.Stream
