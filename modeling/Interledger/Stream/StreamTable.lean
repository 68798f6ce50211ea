import Interledger.Lib.Machine
import Mathlib.Data.List.Nodup
import Mathlib.Data.List.Perm.Basic
import Mathlib.Data.List.Range

/-!
# The streams that a peer may open

Two sides open streams with ids of their own parity, and either may close any of them. A side limits the
streams of its peer by a largest id, which it raises by two for each stream that the peer closes.

A stream stays in the table once it was opened, closed or not, so that its id is not used again.

If the peer closes only streams that it opened, and none of its ids is zero, the streams that it opened and
that neither side closed are never more than the ids that were allowed at first. In any run the peer opens
no stream with an id of the other parity, no id twice, and a stream that was closed stays closed.

## Main results

* `step_grows` — what a step leaves of the streams;
* `Sound.step`, `Limited.step` — what it keeps;
* `openByPeer_le` — the bound.
-/

namespace Interledger.Stream

/-- A stream: which side opened it, whether either closed it, and whether there still is a record of it. -/
structure Slot where
  id : ℕ
  byPeer : Bool
  closed : Bool := false
  remoteSentEnd : Bool := false
  recorded : Bool := true
  deriving DecidableEq

/-- Neither side closed the stream. -/
def Slot.isOpen (slot : Slot) : Bool := slot.recorded && !slot.closed && !slot.remoteSentEnd

/-- The streams, in the order in which they were opened. -/
structure StreamTable where
  maxStreamId : ℕ
  nextStreamId : ℕ
  slots : List Slot
  deriving DecidableEq

/-- What changes the streams. -/
inductive TableEvent
  | peerOpens (id : ℕ)
  | peerCloses (id : ℕ)
  | create
  /-- This side closes streams. -/
  | close (ids : List ℕ)
  | removeRecord (id : ℕ)
  deriving DecidableEq

/-- The parity of the ids of this side. -/
def ownParity (isServer : Bool) : ℕ := if isServer then 0 else 1

namespace StreamTable

/-- Change the streams with some ids. -/
def mapSlots (t : StreamTable) (p : ℕ → Bool) (f : Slot → Slot) : StreamTable :=
  { t with slots := t.slots.map fun slot => if p slot.id then f slot else slot }

/-- Allow the peer one more stream. -/
def raise (t : StreamTable) : StreamTable := { t with maxStreamId := t.maxStreamId + 2 }

variable (isServer : Bool)

/-- The table after an event. -/
def step (t : StreamTable) : TableEvent → Option StreamTable
  | .peerOpens id =>
    if id ∈ t.slots.map Slot.id ∨ id % 2 = ownParity isServer ∨ t.maxStreamId < id then none
    else some { t with slots := t.slots ++ [{ id, byPeer := true }] }
  | .peerCloses id =>
    if ∃ slot ∈ t.slots, slot.id = id ∧ slot.isOpen = true then
      some (t.raise.mapSlots (· = id) fun slot => { slot with remoteSentEnd := true })
    else none
  | .create =>
    some { t with
      slots := t.slots ++ [{ id := t.nextStreamId, byPeer := false }]
      nextStreamId := t.nextStreamId + 2 }
  | .close ids => some (t.mapSlots (· ∈ ids) fun slot => { slot with closed := true })
  | .removeRecord id => some (t.mapSlots (· = id) fun slot => { slot with recorded := false })

/-- No streams, and ids for so many of the peer. -/
def initial (maxRemoteStreams : ℕ) : StreamTable where
  maxStreamId := 2 * maxRemoteStreams
  nextStreamId := if isServer then 2 else 1
  slots := []

/-- The runs of a table. -/
def machine (maxRemoteStreams : ℕ) : Machine StreamTable TableEvent where
  init t := t = initial isServer maxRemoteStreams
  step := step isServer

/-- The peer closes only what it opened, and opens no stream with the id zero. -/
def KeepsLimit (t : StreamTable) : TableEvent → Prop
  | .peerOpens id => id ≠ 0
  | .peerCloses id => ∀ slot ∈ t.slots, slot.id = id → slot.byPeer = true
  | _ => True

/-- The events of this side. -/
def IsLocal (_ : StreamTable) : TableEvent → Prop
  | .peerOpens _ => False
  | .peerCloses _ => False
  | _ => True

theorem IsLocal.keepsLimit {t : StreamTable} {e : TableEvent} (h : IsLocal t e) : KeepsLimit t e := by
  cases e with
  | peerOpens id => exact h.elim
  | peerCloses id => exact h.elim
  | create => trivial
  | close ids => trivial
  | removeRecord id => trivial

/-- How many streams the peer opened that neither side closed. -/
def openByPeer (t : StreamTable) : ℕ := t.slots.countP fun slot => slot.byPeer && slot.isOpen

/-- What this side does does not depend on the largest id of the peer. -/
theorem leads_raise {isServer : Bool} {maxRemoteStreams : ℕ} {t t' : StreamTable}
    (h : (machine isServer maxRemoteStreams).Leads IsLocal t t') :
    (machine isServer maxRemoteStreams).Leads IsLocal t.raise t'.raise := by
  induction h with
  | refl => exact .refl
  | tail _ h_last ih =>
    obtain ⟨e, h_local, h_step⟩ := h_last
    refine ih.tail ⟨e, h_local, ?_⟩
    cases e with
    | peerOpens id => exact h_local.elim
    | peerCloses id => exact h_local.elim
    | create =>
      obtain rfl := Option.some.inj h_step
      rfl
    | close ids =>
      obtain rfl := Option.some.inj h_step
      rfl
    | removeRecord id =>
      obtain rfl := Option.some.inj h_step
      rfl

/-! ### Streams are opened once, and stay closed -/

/-- A stream later on. -/
structure Follows (slot slot' : Slot) : Prop where
  id : slot'.id = slot.id
  byPeer : slot'.byPeer = slot.byPeer
  isOpen : slot'.isOpen = true → slot.isOpen = true
  remoteSentEnd : slot.remoteSentEnd = true → slot'.remoteSentEnd = true

/-- The streams that there were are in the same place. -/
def Grows (t t' : StreamTable) : Prop :=
  ∀ (i : ℕ) (slot : Slot), t.slots[i]? = some slot → ∃ slot', t'.slots[i]? = some slot' ∧ Follows slot slot'

theorem Follows.refl (slot : Slot) : Follows slot slot := ⟨rfl, rfl, fun h => h, fun h => h⟩

theorem Follows.trans {slot slot' slot'' : Slot} (h : Follows slot slot') (h' : Follows slot' slot'') :
    Follows slot slot'' where
  id := h'.id.trans h.id
  byPeer := h'.byPeer.trans h.byPeer
  isOpen h_open := h.isOpen (h'.isOpen h_open)
  remoteSentEnd h_end := h'.remoteSentEnd (h.remoteSentEnd h_end)

instance : IsPreorder StreamTable Grows where
  refl _ _ slot h := ⟨slot, h, .refl slot⟩
  trans _ _ _ h h' i slot h_slot := by
    obtain ⟨slot', h_slot', h_follows⟩ := h i slot h_slot
    obtain ⟨slot'', h_slot'', h_follows'⟩ := h' i slot' h_slot'
    exact ⟨slot'', h_slot'', h_follows.trans h_follows'⟩

variable {isServer} {t t' : StreamTable} {e : TableEvent} {p : ℕ → Bool} {f : Slot → Slot}

/-- Streams are added at the end. -/
theorem Grows.concat {slot : Slot} (h : t'.slots = t.slots ++ [slot]) : Grows t t' := by
  intro i slot' h_slot
  refine ⟨slot', ?_, .refl slot'⟩
  rw [h, List.getElem?_append_left (List.getElem?_eq_some_iff.mp h_slot).1]
  exact h_slot

theorem Grows.mapSlots (hf : ∀ slot, Follows slot (f slot)) (h : t'.slots = (t.mapSlots p f).slots) :
    Grows t t' := by
  intro i slot h_slot
  refine ⟨if p slot.id then f slot else slot, ?_, ?_⟩
  · rw [h, StreamTable.mapSlots, List.getElem?_map, h_slot]
    rfl
  · split
    · exact hf slot
    · exact .refl slot

/-- The changes that close a stream. -/
theorem follows_closed (slot : Slot) : Follows slot { slot with closed := true } := by
  refine ⟨rfl, rfl, fun h_open => ?_, fun h_end => h_end⟩
  rw [Slot.isOpen, Bool.not_true, Bool.and_false, Bool.false_and] at h_open
  cases h_open

theorem follows_remoteSentEnd (slot : Slot) : Follows slot { slot with remoteSentEnd := true } := by
  refine ⟨rfl, rfl, fun h_open => ?_, fun _ => rfl⟩
  rw [Slot.isOpen, Bool.not_true, Bool.and_false] at h_open
  cases h_open

theorem follows_removed (slot : Slot) : Follows slot { slot with recorded := false } := by
  refine ⟨rfl, rfl, fun h_open => ?_, fun h_end => h_end⟩
  rw [Slot.isOpen, Bool.false_and] at h_open
  cases h_open

/-- **What a step leaves of the streams.** -/
theorem step_grows (h : step isServer t e = some t') : Grows t t' := by
  cases e with
  | peerOpens id =>
    obtain ⟨-, h⟩ := Option.ite_none_left_eq_some.mp h
    obtain rfl := Option.some.inj h
    exact .concat rfl
  | peerCloses id =>
    obtain ⟨-, h⟩ := Option.ite_none_right_eq_some.mp h
    obtain rfl := Option.some.inj h
    exact .mapSlots (t := t) (p := (· = id)) follows_remoteSentEnd rfl
  | create =>
    obtain rfl := Option.some.inj h
    exact .concat rfl
  | close ids =>
    obtain rfl := Option.some.inj h
    exact .mapSlots follows_closed rfl
  | removeRecord id =>
    obtain rfl := Option.some.inj h
    exact .mapSlots follows_removed rfl

/-- The ids are distinct, and each side has those of its parity. -/
structure Sound (isServer : Bool) (t : StreamTable) : Prop where
  nodup : (t.slots.map Slot.id).Nodup
  peer : ∀ slot ∈ t.slots, slot.byPeer = true → slot.id % 2 ≠ ownParity isServer
  own : ∀ slot ∈ t.slots, slot.byPeer = false → slot.id < t.nextStreamId
  next : t.nextStreamId % 2 = ownParity isServer

/-- The ids that streams have in the end were theirs before. -/
theorem map_id_mapSlots (hf : ∀ slot, Follows slot (f slot)) :
    (t.mapSlots p f).slots.map Slot.id = t.slots.map Slot.id := by
  rw [StreamTable.mapSlots, List.map_map]
  apply List.map_congr_left
  intro slot _
  change Slot.id (if p slot.id then f slot else slot) = slot.id
  split
  · exact (hf slot).id
  · rfl

/-- A stream of the changed table was there before. -/
theorem exists_of_mem_mapSlots (hf : ∀ slot, Follows slot (f slot)) {slot' : Slot}
    (h : slot' ∈ (t.mapSlots p f).slots) : ∃ slot ∈ t.slots, Follows slot slot' := by
  obtain ⟨slot, h_mem, rfl⟩ := List.mem_map.mp h
  refine ⟨slot, h_mem, ?_⟩
  split
  · exact hf slot
  · exact .refl slot

namespace Sound

theorem mapSlots (h : Sound isServer t) (hf : ∀ slot, Follows slot (f slot)) :
    Sound isServer (t.mapSlots p f) where
  nodup := by
    rw [map_id_mapSlots hf]
    exact h.nodup
  peer slot' h_mem h_peer := by
    obtain ⟨slot, h_slot, h_follows⟩ := exists_of_mem_mapSlots hf h_mem
    rw [h_follows.id]
    exact h.peer slot h_slot (h_follows.byPeer.symm.trans h_peer)
  own slot' h_mem h_own := by
    obtain ⟨slot, h_slot, h_follows⟩ := exists_of_mem_mapSlots hf h_mem
    rw [h_follows.id]
    exact h.own slot h_slot (h_follows.byPeer.symm.trans h_own)
  next := h.next

/-- The largest id of the peer says nothing about the streams. -/
theorem raise (h : Sound isServer t) : Sound isServer t.raise := ⟨h.nodup, h.peer, h.own, h.next⟩

/-- The id that this side uses next is new. -/
theorem nextStreamId_notMem (h : Sound isServer t) : t.nextStreamId ∉ t.slots.map Slot.id := by
  intro h_mem
  obtain ⟨slot, h_slot, h_id⟩ := List.mem_map.mp h_mem
  cases h_peer : slot.byPeer with
  | true => exact h.peer slot h_slot h_peer (h_id ▸ h.next)
  | false => exact absurd h_id (h.own slot h_slot h_peer).ne

/-- A stream with a new id. -/
theorem concat (h : Sound isServer t) {slot : Slot} {next : ℕ} (h_new : slot.id ∉ t.slots.map Slot.id)
    (h_peer : slot.byPeer = true → slot.id % 2 ≠ ownParity isServer)
    (h_own : slot.byPeer = false → slot.id < next) (h_next : t.nextStreamId ≤ next)
    (h_parity : next % 2 = ownParity isServer) :
    Sound isServer { t with slots := t.slots ++ [slot], nextStreamId := next } where
  nodup := by
    rw [List.map_append]
    refine h.nodup.append (List.nodup_singleton _) ?_
    rw [List.map_singleton, List.disjoint_singleton]
    exact h_new
  peer slot' h_mem := by
    rcases List.mem_append.mp h_mem with h_old | h_last
    · exact h.peer slot' h_old
    · rw [List.mem_singleton.mp h_last]
      exact h_peer
  own slot' h_mem h_slot := by
    rcases List.mem_append.mp h_mem with h_old | h_last
    · exact (h.own slot' h_old h_slot).trans_le h_next
    · rw [List.mem_singleton.mp h_last] at h_slot ⊢
      exact h_own h_slot
  next := h_parity

/-- **No id is used twice, and the peer has no id of this side.** -/
theorem step (h : Sound isServer t) (h_step : StreamTable.step isServer t e = some t') :
    Sound isServer t' := by
  cases e with
  | peerOpens id =>
    obtain ⟨h_not, h_step⟩ := Option.ite_none_left_eq_some.mp h_step
    obtain rfl := Option.some.inj h_step
    obtain ⟨h_new, h_not⟩ := not_or.mp h_not
    exact h.concat h_new (fun _ => (not_or.mp h_not).1) nofun le_rfl h.next
  | peerCloses id =>
    obtain ⟨-, h_step⟩ := Option.ite_none_right_eq_some.mp h_step
    obtain rfl := Option.some.inj h_step
    exact h.raise.mapSlots follows_remoteSentEnd
  | create =>
    obtain rfl := Option.some.inj h_step
    have h_parity : (t.nextStreamId + 2) % 2 = ownParity isServer := by
      rw [Nat.add_mod_right]
      exact h.next
    exact h.concat h.nextStreamId_notMem nofun (fun _ => Nat.lt_add_of_pos_right Nat.two_pos)
      (Nat.le_add_right _ 2) h_parity
  | close ids =>
    obtain rfl := Option.some.inj h_step
    exact h.mapSlots follows_closed
  | removeRecord id =>
    obtain rfl := Option.some.inj h_step
    exact h.mapSlots follows_removed

theorem initial (maxRemoteStreams : ℕ) : Sound isServer (StreamTable.initial isServer maxRemoteStreams) where
  nodup := List.nodup_nil
  peer := nofun
  own := nofun
  next := by
    change (if isServer then 2 else 1) % 2 = if isServer then 0 else 1
    cases isServer <;> decide

theorem of_reach {maxRemoteStreams : ℕ} {ok : StreamTable → TableEvent → Prop}
    (h : (machine isServer maxRemoteStreams).Reach ok t) : Sound isServer t :=
  h.invariant _ (fun _ h_init => h_init ▸ initial maxRemoteStreams)
    fun _ _ _ _ h_sound _ h_step => h_sound.step h_step

end Sound

/-! ### The limit -/

/-- The largest id grows with the streams that the peer closed, and no stream of the peer is beyond it. -/
structure Limited (maxRemoteStreams : ℕ) (t : StreamTable) : Prop where
  max : t.maxStreamId =
    2 * (maxRemoteStreams + t.slots.countP fun slot => slot.byPeer && slot.remoteSentEnd)
  ids : ∀ slot ∈ t.slots, slot.byPeer = true → 0 < slot.id ∧ slot.id ≤ t.maxStreamId

/-- A change that a count does not see. -/
theorem countP_mapSlots {q : Slot → Bool} (hf : ∀ slot, q (f slot) = q slot) :
    (t.mapSlots p f).slots.countP q = t.slots.countP q := by
  rw [StreamTable.mapSlots, List.countP_map]
  apply List.countP_congr
  intro slot _
  change q (if p slot.id then f slot else slot) = true ↔ q slot = true
  split
  · rw [hf]
  · exact Iff.rfl

/-- A change of one stream that a count does see. -/
theorem countP_map_update {slots : List Slot} {slot : Slot} {q : Slot → Bool}
    (h_nodup : (slots.map Slot.id).Nodup) (h_mem : slot ∈ slots) (h_not : q slot = false)
    (hf : q (f slot) = true) :
    (slots.map fun s => if s.id = slot.id then f s else s).countP q = slots.countP q + 1 := by
  induction slots with
  | nil => cases h_mem
  | cons first rest ih =>
    obtain ⟨h_first, h_rest⟩ := List.nodup_cons.mp h_nodup
    rw [List.map_cons, List.countP_cons, List.countP_cons]
    rcases List.mem_cons.mp h_mem with rfl | h_mem
    · -- no other stream has its id
      have h_same : (rest.map fun s => if s.id = slot.id then f s else s) = rest := by
        conv_rhs => rw [← List.map_id rest]
        apply List.map_congr_left
        intro s h_s
        exact if_neg fun h_id : s.id = slot.id => h_first (h_id ▸ List.mem_map_of_mem h_s)
      rw [h_same, if_pos rfl, hf, h_not, if_pos rfl, if_neg Bool.false_ne_true, Nat.add_zero]
    · have h_ne : first.id ≠ slot.id := fun h_id => h_first (h_id ▸ List.mem_map_of_mem h_mem)
      rw [ih h_rest h_mem, if_neg h_ne, Nat.add_right_comm]

/-- Distinct numbers of one parity, from one to twice a number. -/
theorem length_le_of_parity {ids : List ℕ} {n r : ℕ} (h_nodup : ids.Nodup)
    (h : ∀ id ∈ ids, id % 2 = r ∧ 0 < id ∧ id ≤ 2 * n) : ids.length ≤ n := by
  have h_halves : (ids.map fun id => (id - 1) / 2).Nodup := by
    apply h_nodup.map_on
    intro i hi j hj h_same
    have h_i := h i hi
    have h_j := h j hj
    omega
  have h_subset : (ids.map fun id => (id - 1) / 2) ⊆ List.range n := by
    intro half h_half
    obtain ⟨id, h_id, rfl⟩ := List.mem_map.mp h_half
    have h_le := h id h_id
    rw [List.mem_range]
    omega
  have h_length := (List.subperm_of_subset h_halves h_subset).length_le
  rw [List.length_map, List.length_range] at h_length
  exact h_length

/-- A stream that the peer opened is open, or the peer closed it, or neither. -/
theorem countP_isOpen_add_le (slots : List Slot) :
    (slots.countP fun slot => slot.byPeer && slot.isOpen) +
      (slots.countP fun slot => slot.byPeer && slot.remoteSentEnd) ≤ slots.countP Slot.byPeer := by
  induction slots with
  | nil => exact le_rfl
  | cons slot slots ih =>
    have h_slot : (if (slot.byPeer && slot.isOpen) = true then 1 else 0) +
        (if (slot.byPeer && slot.remoteSentEnd) = true then 1 else 0) ≤ if slot.byPeer = true then 1 else 0 := by
      unfold Slot.isOpen
      cases slot.byPeer <;> cases slot.recorded <;> cases slot.closed <;> cases slot.remoteSentEnd <;> decide
    rw [List.countP_cons, List.countP_cons, List.countP_cons]
    omega

namespace Limited

variable {maxRemoteStreams : ℕ}

theorem mapSlots (h : Limited maxRemoteStreams t) (hf : ∀ slot, Follows slot (f slot))
    (hf' : ∀ slot, (f slot).remoteSentEnd = slot.remoteSentEnd) :
    Limited maxRemoteStreams (t.mapSlots p f) where
  max := by
    rw [countP_mapSlots fun slot => by rw [(hf slot).byPeer, hf']]
    exact h.max
  ids slot' h_mem h_peer := by
    obtain ⟨slot, h_slot, h_follows⟩ := exists_of_mem_mapSlots hf h_mem
    rw [h_follows.id]
    exact h.ids slot h_slot (h_follows.byPeer.symm.trans h_peer)

/-- A new stream, which the peer may have opened. -/
theorem concat (h : Limited maxRemoteStreams t) {slot : Slot} {next : ℕ}
    (h_end : slot.remoteSentEnd = false)
    (h_ids : slot.byPeer = true → 0 < slot.id ∧ slot.id ≤ t.maxStreamId) :
    Limited maxRemoteStreams { t with slots := t.slots ++ [slot], nextStreamId := next } where
  max := by
    rw [List.countP_append, List.countP_singleton, h_end, Bool.and_false, if_neg Bool.false_ne_true]
    exact h.max
  ids slot' h_mem := by
    rcases List.mem_append.mp h_mem with h_old | h_last
    · exact h.ids slot' h_old
    · rw [List.mem_singleton.mp h_last]
      exact h_ids

/-- **What a step keeps of the limit**, if the peer closes only what it opened. -/
theorem step (h : Limited maxRemoteStreams t) (h_sound : Sound isServer t) (h_keeps : KeepsLimit t e)
    (h_step : StreamTable.step isServer t e = some t') : Limited maxRemoteStreams t' := by
  cases e with
  | peerOpens id =>
    obtain ⟨h_not, h_step⟩ := Option.ite_none_left_eq_some.mp h_step
    obtain rfl := Option.some.inj h_step
    -- the new stream is within the limit, which is not zero
    have h_max := (not_or.mp (not_or.mp h_not).2).2
    exact h.concat rfl fun _ => ⟨Nat.pos_of_ne_zero h_keeps, Nat.le_of_not_lt h_max⟩
  | peerCloses id =>
    obtain ⟨⟨slot, h_mem, rfl, h_open⟩, h_step⟩ := Option.ite_none_right_eq_some.mp h_step
    obtain rfl := Option.some.inj h_step
    -- the stream is one of the peer, and was not closed by it before
    have h_peer := h_keeps slot h_mem rfl
    have h_end : slot.remoteSentEnd = false := by
      by_contra h_end
      rw [Bool.not_eq_false] at h_end
      rw [Slot.isOpen, h_end, Bool.not_true, Bool.and_false] at h_open
      cases h_open
    constructor
    · -- one more stream of the peer was closed by it
      have h_count := countP_map_update (f := fun s => { s with remoteSentEnd := true })
        (q := fun s => s.byPeer && s.remoteSentEnd) h_sound.nodup h_mem
        (by simp only [h_end, Bool.and_false]) (by simp only [h_peer, Bool.and_true])
      change t.maxStreamId + 2 = _
      simp only [StreamTable.mapSlots, StreamTable.raise, decide_eq_true_eq]
      rw [h_count, h.max, ← Nat.add_assoc, Nat.mul_succ]
    · intro slot' h_slot' h_peer'
      obtain ⟨s, h_s, h_follows⟩ := exists_of_mem_mapSlots follows_remoteSentEnd h_slot'
      have h_ids := h.ids s h_s (h_follows.byPeer.symm.trans h_peer')
      rw [h_follows.id]
      exact ⟨h_ids.1, h_ids.2.trans (Nat.le_add_right _ 2)⟩
  | create =>
    obtain rfl := Option.some.inj h_step
    exact h.concat rfl nofun
  | close ids =>
    obtain rfl := Option.some.inj h_step
    exact h.mapSlots follows_closed fun _ => rfl
  | removeRecord id =>
    obtain rfl := Option.some.inj h_step
    exact h.mapSlots follows_removed fun _ => rfl

theorem of_reach (h : (machine isServer maxRemoteStreams).Reach KeepsLimit t) :
    Limited maxRemoteStreams t := by
  refine h.invariant _ (fun t h_init => ?_) fun _ _ _ h_reach h_limited h_keeps h_step =>
    h_limited.step (Sound.of_reach h_reach) h_keeps h_step
  obtain rfl := h_init
  exact ⟨rfl, nofun⟩

/-- The streams of the peer that are open. -/
theorem openByPeer_le (h : Limited maxRemoteStreams t) (h_sound : Sound isServer t) :
    t.openByPeer ≤ maxRemoteStreams := by
  have h_length : ((t.slots.filter Slot.byPeer).map Slot.id).length ≤
      maxRemoteStreams + t.slots.countP fun slot => slot.byPeer && slot.remoteSentEnd := by
    apply length_le_of_parity (r := 1 - ownParity isServer)
    · exact h_sound.nodup.sublist (List.filter_sublist.map _)
    · intro id h_id
      obtain ⟨slot, h_slot, rfl⟩ := List.mem_map.mp h_id
      obtain ⟨h_mem, h_peer⟩ := List.mem_filter.mp h_slot
      have h_parity := h_sound.peer slot h_mem h_peer
      have h_ids := h.ids slot h_mem h_peer
      rw [h.max] at h_ids
      refine ⟨?_, h_ids⟩
      unfold ownParity at h_parity ⊢
      split_ifs at h_parity ⊢ <;> omega
  rw [List.length_map, ← List.countP_eq_length_filter] at h_length
  have h_split := countP_isOpen_add_le t.slots
  unfold openByPeer
  omega

end Limited

/-- **The bound on the streams that the peer opened**, in runs in which it closes only those. -/
theorem openByPeer_le {maxRemoteStreams : ℕ}
    (h : (machine isServer maxRemoteStreams).Reach KeepsLimit t) : t.openByPeer ≤ maxRemoteStreams :=
  (Limited.of_reach h).openByPeer_le (Sound.of_reach h)

end StreamTable

end Interledger.Stream
