import Interledger.Stream.HandlePrepare
import Interledger.Stream.StreamTable

/-!
# Which streams of a connection are open

`createStream`, `removeStreamRecord` and the frames of incoming packets, in any order, with the streams that
the application ends or destroys in between. What they do to the streams is what the events of a
`StreamTable` do, so that its invariants are those of a connection.

The peer opens streams with the frames of its packets. Both sides may close any stream, and a `StreamClose`
for a stream that is open raises `maxStreamId`, whichever side opened it.

`nextStreamId` is read by `createStream` alone, and is part of the state of the code around the connection.
The ids that it created are noted there; the program does not look at them.

## Main results

* `Runs`, `admits_runs` — connections whose tables lead to one another;
* `handleNewStream_runs`, `handleStreamClose_runs` — what the frames do to the table;
* `receive_runs` — what a packet does;
* `openByPeer_bounded` — the limit, and what the peer can never do;
* `openByPeer_unbounded` — runs in which the limit is passed.
-/

namespace Interledger.Stream

open Interledger.Ilp Interledger.Action Long
open StreamTable (Sound IsLocal mapSlots)

/-- The code around a connection, with `nextStreamId` and the ids of the streams that were created here. -/
structure Creator (A : Type) where
  app : A
  nextStreamId : ℕ
  created : List StreamId
  deriving DecidableEq

variable {A : Type}

/-- `createStream`. -/
def createStream : Run (Creator A) Unit := do
  let c ← get
  let nextStreamId := c.app.nextStreamId
  if c.remoteMaxStreamId < nextStreamId then do
    queueFrame (.connectionStreamIdBlocked (fromNumber nextStreamId))
    throw (.error "Creating another stream would exceed the remote connection's maximum number of open streams")
  else do
    let streamId := (fromNumber nextStreamId).toStreamId
    modify fun c =>
      { c with
        streams := c.streams.set streamId .created
        app := ⟨c.app.app, nextStreamId + 2, streamId :: c.app.created⟩ }

/-- The frame that tells the peer of a stream without a record. -/
def streamEndFrame (streamId : StreamId) (s : DataAndMoneyStream) : Frame :=
  match s.errorMessage with
  | none => .streamClose streamId.toLong .noError ""
  | some message =>
    if message = "" then .streamClose streamId.toLong .noError ""
    else .streamClose streamId.toLong .applicationError message

/-- `removeStreamRecord`. The send loop is started later. -/
def removeStreamRecord {App : Type} (streamId : StreamId) : Run App Unit := do
  let s := (← get).stream streamId
  modify fun c => c.updateStream streamId fun s => { s with recorded := false }
  if s.sentEnd then pure ()
  else do
    modify fun c => c.updateStream streamId fun s => { s with sentEnd := true }
    queueFrame (streamEndFrame streamId s)

/-- A stream of the table. -/
def slotOf (streamId : StreamId) (byPeer : Bool) (flags : StreamFlags) : Slot :=
  ⟨streamId.val, byPeer, flags.closed, flags.remoteSentEnd, flags.recorded⟩

namespace Connection

variable (c : Connection (Creator A))

/-- The streams of a connection, as a table. -/
def table : StreamTable where
  maxStreamId := c.maxStreamId
  nextStreamId := c.app.nextStreamId
  slots := c.flags.map fun p => slotOf p.1 (p.1 ∉ c.app.created) p.2

/-- The streams that the peer opened and neither side closed. -/
def openByPeer : List StreamId :=
  (c.records.filter fun p => p.1 ∉ c.app.created ∧ p.2.isOpen = true ∧ p.2.remoteSentEnd = false).map Prod.fst

/-- A stream was opened, and one of the sides closed it. -/
def WasClosed (streamId : StreamId) : Prop :=
  ∃ s, c.streams.get? streamId = some s ∧
    (s.recorded = false ∨ s.isOpen = false ∨ s.remoteSentEnd = true)

/-- The streams created here are among the streams, and each side has ids of its parity. -/
structure WellFormed (isServer : Bool) : Prop where
  sound : Sound isServer c.table
  created : ∀ streamId ∈ c.app.created, (c.streams.get? streamId).isSome

end Connection

/-- `opts.maxRemoteStreams || DEFAULT_MAX_REMOTE_STREAMS`. -/
def maxRemoteStreamsOrDefault : Option ℕ → ℕ
  | none => 10
  | some n => if n = 0 then 10 else n

/-- What was done to the streams is a run of the table. -/
def Runs (isServer : Bool) (ok : StreamTable → TableEvent → Prop) (c c' : Connection (Creator A)) : Prop :=
  c.WellFormed isServer →
    c'.WellFormed isServer ∧ (StreamTable.machine isServer 0).Leads ok c.table c'.table

/-- An environment that does to the streams what the side of the connection may do: it creates, closes and
removes them. -/
structure StreamsEnvironment (A : Type) extends Environment (Creator A) where
  maxRemoteStreams : Option ℕ := none
  ofThisSide : ∀ signal c, Runs isServer IsLocal c (respond signal c).1

/-- What happens to a connection: the frames of packets, new ones and those of responses, and what this side
does to its streams. -/
inductive StreamsEvent
  | newStreams (request : Request) (frame : Frame)
  | controlFrame (frame : Frame)
  | createStream
  /-- `_final` finishes. -/
  | finish (streamId : StreamId)
  | destroy (streamId : StreamId) (errorMessage : Option String)
  | removeStreamRecord (streamId : StreamId)
  /-- Other code runs. -/
  | other (signal : Signal)

namespace StreamsEnvironment

variable (env : StreamsEnvironment A)

/-- A connection that was just built. -/
structure IsNew (c : Connection (Creator A)) : Prop where
  streams : c.streams = .empty
  created : c.app.created = []
  nextStreamId : c.app.nextStreamId = if env.isServer then 2 else 1
  maxStreamId : c.maxStreamId = 2 * maxRemoteStreamsOrDefault env.maxRemoteStreams

/-- The runs of a connection. It does not live to create `2 ^ 52` streams. -/
def machine : Machine (Connection (Creator A)) StreamsEvent where
  init := env.IsNew
  step c
    | .newStreams request frame => some ((handleNewStreams env.toEnvironment request frame).exec c).2
    | .controlFrame frame => some ((handleControlFrame env.toEnvironment frame).exec c).2
    | .createStream => if c.app.nextStreamId < 2 ^ 53 then some (createStream.exec c).2 else none
    | .finish streamId => some (c.updateStream streamId fun s => { s with closed := true })
    | .destroy streamId errorMessage => some (c.updateStream streamId fun s => s.destroy errorMessage)
    | .removeStreamRecord streamId => some ((removeStreamRecord streamId).exec c).2
    | .other signal => some (env.respond signal c).1

/-- The runs that keep the limit: no `StreamClose` is for a stream that was created here and is open, and a
client gets no frame that opens the stream zero. -/
def KeepsLimit (c : Connection (Creator A)) : StreamsEvent → Prop
  | .newStreams _ frame => ∀ p ∈ frame.opensStream, env.isServer = false → p.1.toStreamId.val ≠ 0
  | .controlFrame (.streamClose streamId _ _) =>
    ∀ s ∈ c.record? streamId.toStreamId, s.isOpen = true → s.remoteSentEnd = false →
      streamId.toStreamId ∉ c.app.created
  | _ => True

end StreamsEnvironment

/-! ### Changes to the table -/

section Table

variable {isServer : Bool} {ok : StreamTable → TableEvent → Prop} {c c' c'' : Connection (Creator A)}
  {streamId : StreamId}

instance : IsPreorder (Connection (Creator A)) (Runs isServer ok) where
  refl _ h := ⟨h, .refl⟩
  trans _ _ _ h h' h_formed := by
    obtain ⟨h_formed, h_leads⟩ := h h_formed
    obtain ⟨h_formed, h_leads'⟩ := h' h_formed
    exact ⟨h_formed, h_leads.trans h_leads'⟩

/-- Runs of a part of the events. -/
theorem Runs.mono {ok' : StreamTable → TableEvent → Prop} (h : Runs isServer ok c c')
    (h_ok : ∀ t e, ok t e → ok' t e) : Runs isServer ok' c c' := by
  intro h_formed
  obtain ⟨h_formed, h_leads⟩ := h h_formed
  exact ⟨h_formed, h_leads.mono h_ok⟩

/-- One event, which adds no stream to those created here. -/
theorem Runs.of_step {e : TableEvent} (h_ok : ok c.table e)
    (h_step : StreamTable.step isServer c.table e = some c'.table) (h_app : c'.app = c.app)
    (h_streams : ∀ streamId, (c.streams.get? streamId).isSome → (c'.streams.get? streamId).isSome) :
    Runs isServer ok c c' := by
  intro h_formed
  refine ⟨⟨h_formed.sound.step h_step, ?_⟩, Machine.Leads.single h_ok h_step⟩
  rw [h_app]
  exact fun streamId h_created => h_streams streamId (h_formed.created streamId h_created)

/-- A new stream comes last. -/
theorem table_set (app : Creator A) (h : c.streams.get? streamId = none) :
    Connection.table { c with streams := c.streams.set streamId .created, app } =
      { maxStreamId := c.maxStreamId
        nextStreamId := app.nextStreamId
        slots := (c.flags.map fun p => slotOf p.1 (p.1 ∉ app.created) p.2) ++
          [{ id := streamId.val, byPeer := streamId ∉ app.created }] } := by
  unfold Connection.table Connection.flags
  simp only [OrderedMap.entries_set h, List.map_append]
  rfl

/-- The ids of the streams. -/
theorem isSome_get?_iff {App : Type} {c : Connection App} :
    (c.streams.get? streamId).isSome ↔ streamId ∈ c.flags.map Prod.fst := by
  rw [← OrderedMap.mem_keys, Connection.flags, List.map_map]
  exact Iff.rfl

/-- **What is quiet leaves the table as it is.** -/
theorem table_eq_of_quiet (h : c.Quiet c') : c'.table = c.table := by
  unfold Connection.table
  rw [h.app, h.flags, h.maxStreamId]

theorem Runs.of_quiet (h : c.Quiet c') : Runs isServer ok c c' := by
  intro h_formed
  have h_table := table_eq_of_quiet h
  refine ⟨⟨?_, ?_⟩, ?_⟩
  · rw [h_table]
    exact h_formed.sound
  · intro streamId h_created
    rw [h.app] at h_created
    rw [isSome_get?_iff, h.flags, ← isSome_get?_iff]
    exact h_formed.created streamId h_created
  · rw [h_table]
    exact .refl

/-- A change to a stream. -/
theorem table_updateStream {f : DataAndMoneyStream → DataAndMoneyStream} {g : Slot → Slot}
    (h : ∀ byPeer s, slotOf streamId byPeer (f s).flags = g (slotOf streamId byPeer s.flags)) :
    (c.updateStream streamId f).table = c.table.mapSlots (· = streamId.val) g := by
  unfold Connection.table Connection.flags Connection.updateStream OrderedMap.modify OrderedMap.mapValues
    StreamTable.mapSlots
  simp only [List.map_map, decide_eq_true_eq]
  congr 1
  apply List.map_congr_left
  intro p _
  change slotOf p.1 (decide (p.1 ∉ c.app.created))
      (DataAndMoneyStream.flags (if p.1 = streamId then f p.2 else p.2)) =
    if p.1.val = streamId.val then g (slotOf p.1 (decide (p.1 ∉ c.app.created)) p.2.flags)
    else slotOf p.1 (decide (p.1 ∉ c.app.created)) p.2.flags
  by_cases h_id : p.1 = streamId
  · rw [if_pos h_id, if_pos (congrArg Subtype.val h_id), h_id]
    exact h _ p.2
  · rw [if_neg h_id, if_neg fun h_val => h_id (Subtype.ext h_val)]

/-- A stream is closed here. -/
theorem runs_updateStream {f : DataAndMoneyStream → DataAndMoneyStream} {g : Slot → Slot} {e : TableEvent}
    (h_ok : ok c.table e)
    (h : ∀ byPeer s, slotOf streamId byPeer (f s).flags = g (slotOf streamId byPeer s.flags))
    (h_step : StreamTable.step isServer c.table e = some (c.table.mapSlots (· = streamId.val) g)) :
    Runs isServer ok c (c.updateStream streamId f) := by
  refine .of_step h_ok (h_step.trans (congrArg some (table_updateStream h).symm)) rfl fun id h_some => ?_
  rw [isSome_get?_updateStream]
  exact h_some

/-- A stream ends or is destroyed. -/
theorem runs_closed {f : DataAndMoneyStream → DataAndMoneyStream} (h_ok : ∀ t ids, ok t (.close ids))
    (h : ∀ s, (f s).flags = { s.flags with closed := true }) :
    Runs isServer ok c (c.updateStream streamId f) := by
  refine runs_updateStream (g := fun slot => { slot with closed := true }) (h_ok c.table [streamId.val]) ?_ ?_
  · intro byPeer s
    rw [h]
    rfl
  · simp only [StreamTable.step, List.mem_singleton]

end Table

/-! ### What the frames do -/

section Handling

variable {env : StreamsEnvironment A} {ok : StreamTable → TableEvent → Prop}
  {c c' : Connection (Creator A)} {streamId : StreamId}

/-- **What this side does is a run of the table.** -/
theorem admits_runs (h_ok : ∀ t e, IsLocal t e → ok t e) :
    env.toEnvironment.Admits (Runs env.isServer ok) where
  of_quiet _ _ h := .of_quiet h
  respond signal c := (env.ofThisSide signal c).mono h_ok

/-- Destroying a connection closes the streams with a record. -/
theorem destroy_runs (h_ok : ∀ t e, IsLocal t e → ok t e) :
    Preserves (Runs env.isServer ok) (destroy env.toEnvironment) := by
  apply destroy_preserves (admits_runs h_ok)
  intro c
  refine .of_step (e := .close (c.records.map fun p => p.1.val)) (h_ok _ _ trivial) ?_ rfl ?_
  · -- a stream has one entry
    have h_recorded : ∀ p ∈ c.streams.entries,
        (p.1.val ∈ c.records.map fun q => q.1.val) ↔ p.2.recorded = true := by
      intro p h_p
      constructor
      · intro h_mem
        obtain ⟨q, h_q, h_val⟩ := List.mem_map.mp h_mem
        obtain ⟨h_entry, h_record⟩ := List.mem_filter.mp h_q
        have h_same : q = p :=
          List.inj_on_of_nodup_map c.streams.nodup h_entry h_p (Subtype.ext h_val)
        rw [← h_same]
        exact h_record
      · intro h_record
        exact List.mem_map.mpr ⟨p, List.mem_filter.mpr ⟨h_p, h_record⟩, rfl⟩
    unfold StreamTable.step mapSlots Connection.table Connection.flags OrderedMap.mapValues
    simp only [List.map_map]
    congr 2
    -- each recorded stream is closed in the table, and no other
    apply List.map_congr_left
    intro p h_p
    change (if decide (p.1.val ∈ c.records.map fun q => q.1.val) = true then _ else _) =
      slotOf p.1 (decide (p.1 ∉ c.app.created))
        (DataAndMoneyStream.flags (if p.2.recorded then p.2.destroy none else p.2))
    by_cases h_record : p.2.recorded = true
    · rw [if_pos h_record, if_pos (decide_eq_true ((h_recorded p h_p).mpr h_record))]
      rfl
    · rw [if_neg h_record, if_neg fun h_mem => h_record ((h_recorded p h_p).mp (of_decide_eq_true h_mem))]
      rfl
  · intro streamId h_some
    change ((c.streams.mapValues _).get? streamId).isSome
    rw [OrderedMap.get?_mapValues, Option.isSome_map]
    exact h_some

/-- **A frame opens a stream of the peer**, if any. -/
theorem handleNewStream_runs (h_ok : ∀ t e, IsLocal t e → ok t e)
    (h_peer : streamId.val % 2 ≠ ownParity env.isServer → ∀ t, ok t (.peerOpens streamId.val)) :
    Preserves (Runs env.isServer ok) (handleNewStream env.toEnvironment streamId) := by
  refine handleNewStream_preserves (admits_runs h_ok) streamId ?_
  intro c h_new h_even h_odd h_max h_formed
  -- the checks that it has passed are those of the table
  have h_parity : streamId.val % 2 ≠ ownParity env.isServer := by
    unfold ownParity
    cases h_server : env.isServer with
    | true =>
      rw [h_server] at h_even
      exact fun h_zero => h_even ⟨rfl, h_zero⟩
    | false =>
      rw [h_server] at h_odd
      exact fun h_one => h_odd ⟨Bool.false_ne_true, h_one⟩
  -- it was not created here, as what was is known
  have h_created : streamId ∉ c.app.created := by
    intro h_mem
    have h_some := h_formed.created streamId h_mem
    rw [h_new] at h_some
    cases h_some
  -- nor does the table have it
  have h_id : streamId.val ∉ c.table.slots.map Slot.id := by
    intro h_mem
    have h_some : (c.streams.get? streamId).isSome := by
      rw [isSome_get?_iff]
      rw [Connection.table, List.map_map] at h_mem
      obtain ⟨p, h_p, h_val⟩ := List.mem_map.mp h_mem
      exact List.mem_map.mpr ⟨p, h_p, Subtype.ext h_val⟩
    rw [h_new] at h_some
    cases h_some
  refine Runs.of_step (e := .peerOpens streamId.val) (h_peer h_parity c.table) ?_ rfl ?_ h_formed
  · -- so that the table takes it
    have h_not : ¬(streamId.val ∈ c.table.slots.map Slot.id ∨ streamId.val % 2 = ownParity env.isServer ∨
        c.table.maxStreamId < streamId.val) :=
      not_or.mpr ⟨h_id, not_or.mpr ⟨h_parity, Nat.not_lt.mpr h_max⟩⟩
    have h_table := table_set c.app h_new
    rw [decide_eq_true h_created] at h_table
    exact (if_neg h_not).trans (congrArg some h_table.symm)
  · intro id h_some
    change ((c.streams.set streamId .created).get? id).isSome
    rw [OrderedMap.get?_set]
    split
    · rfl
    · exact h_some

/-- A stream with a record, which neither side closed. -/
theorem exists_slot_of_record {s : DataAndMoneyStream} (h_record : c.record? streamId = some s)
    (h_open : s.isOpen = true) (h_end : s.remoteSentEnd = false) :
    ∃ slot ∈ c.table.slots, slot.id = streamId.val ∧ slot.isOpen = true := by
  obtain ⟨h_get, h_recorded⟩ := Option.filter_eq_some_iff.mp h_record
  have h_entry := OrderedMap.mem_entries.mpr h_get
  refine ⟨slotOf streamId (streamId ∉ c.app.created) s.flags, ?_, rfl, ?_⟩
  · exact List.mem_map.mpr ⟨(streamId, s.flags), List.mem_map.mpr ⟨(streamId, s), h_entry, rfl⟩, rfl⟩
  · change (s.recorded && !s.closed && !s.remoteSentEnd) = true
    rw [h_recorded, h_end, Bool.true_and, Bool.not_false, Bool.and_true]
    exact h_open

/-- The end of a stream by the peer, as far as the listeners of the stream: they may do what this side does. -/
theorem remoteEnded_runs (env : StreamsEnvironment A) (c : Connection (Creator A)) (streamId : StreamId)
    (err : Option String) :
    Runs env.isServer IsLocal
      (c.updateStream streamId fun s => { s with remoteSentEnd := true, remoteClosed := true })
      ((remoteEnded env.toEnvironment streamId err).exec c).2 := by
  unfold remoteEnded
  rw [exec_bind_ok (exec_modify _ _)]
  cases err with
  | none => exact env.ofThisSide _ _
  | some message => exact runs_closed (fun _ _ => trivial) fun _ => rfl

/-- Ending a stream does not throw. -/
theorem remoteEnded_isOk {App : Type} (env : Environment App) (streamId : StreamId) (err : Option String)
    (c : Connection App) : ((remoteEnded env streamId err).exec c).1 = .ok () := by
  unfold remoteEnded
  rw [exec_bind_ok (exec_modify _ _)]
  cases err <;> rfl

/-- **A `StreamClose`** ends a stream that is open, and allows the peer one more. -/
theorem handleStreamClose_runs (h_ok : ∀ t e, IsLocal t e → ok t e) (errorMessage : String)
    (h_peer : ∀ s ∈ c.record? streamId, s.isOpen = true → s.remoteSentEnd = false →
      ok c.table (.peerCloses streamId.val)) :
    Runs env.isServer ok c ((handleStreamClose env.toEnvironment streamId errorMessage).exec c).2 := by
  unfold handleStreamClose
  rw [exec_bind_ok (exec_get c)]
  cases h_record : c.record? streamId with
  | none => exact refl_of _ c
  | some s =>
    simp only
    by_cases h_skip : ¬s.isOpen = true ∨ s.remoteSentEnd = true
    · rw [if_pos h_skip]
      exact refl_of _ c
    rw [if_neg h_skip, exec_bind_ok (exec_modify _ _)]
    obtain ⟨h_open, h_end⟩ := not_or.mp h_skip
    rw [not_not] at h_open
    rw [Bool.not_eq_true] at h_end
    -- the stream is ended, then listeners run, then the largest id is raised
    generalize h_sent : c.updateStream streamId (fun s => { s with sentEnd := true }) = c₁
    generalize h_ended : c₁.updateStream streamId
      (fun s => { s with remoteSentEnd := true, remoteClosed := true }) = c₂
    -- listeners run on the closed stream, and may do what the application does
    have h_closed := remoteEnded_runs env c₁ streamId
      (if errorMessage = "" then none else some errorMessage)
    have h_exec := exec_of_fst (remoteEnded_isOk env.toEnvironment streamId
      (if errorMessage = "" then none else some errorMessage) c₁)
    rw [exec_bind_ok h_exec, exec_bind_ok (exec_modify _ _)]
    rw [h_ended] at h_closed
    generalize ((remoteEnded env.toEnvironment streamId _).exec c₁).2 = c₃ at h_closed ⊢
    -- what follows opens and closes nothing
    have h_rest : Preserves (Runs env.isServer ok)
        (do
          queueFrame (.connectionMaxStreamId (fromNumber (← get).maxStreamId))
          startSendLoop env.toEnvironment) :=
      .bind .get fun _ => .bind (queueFrame_preserves (admits_runs h_ok) _) fun _ =>
        startSendLoop_preserves (admits_runs h_ok)
    refine trans_of _ ?_ (h_rest { c₃ with maxStreamId := c₃.maxStreamId + 2 })
    intro h_formed
    have h_quiet : c.Quiet c₁ := h_sent ▸ .updateStream (fun _ => rfl) fun _ => rfl
    -- in the table the stream is closed by the peer
    have h_table : c₂.table =
        c.table.mapSlots (· = streamId.val) fun slot => { slot with remoteSentEnd := true } := by
      rw [← h_ended, table_updateStream (g := fun slot => { slot with remoteSentEnd := true })
        fun _ _ => rfl, table_eq_of_quiet h_quiet]
    have h_formed₂ : c₂.WellFormed env.isServer := by
      constructor
      · rw [h_table]
        exact h_formed.sound.mapSlots StreamTable.follows_remoteSentEnd
      · intro id h_created
        rw [← h_ended, isSome_get?_updateStream, ← h_sent, isSome_get?_updateStream]
        rw [← h_ended, ← h_sent] at h_created
        exact h_formed.created id h_created
    -- a run of the table that had the larger limit from the start
    obtain ⟨h_formed₃, h_leads⟩ := h_closed h_formed₂
    refine ⟨⟨h_formed₃.sound.raise, h_formed₃.created⟩, ?_⟩
    have h_first : (StreamTable.machine env.isServer 0).Leads ok c.table c₂.table.raise := by
      refine Machine.Leads.single (h_peer s h_record h_open h_end) ?_
      rw [h_table]
      exact if_pos (exists_slot_of_record h_record h_open h_end)
    exact h_first.trans ((StreamTable.leads_raise h_leads).mono h_ok)

/-! ### What this side does -/

/-- The next id of this side, as the id of a stream. -/
theorem val_toStreamId_fromNumber {n : ℕ} (h : n < 2 ^ 53) : (fromNumber n).toStreamId.val = n := by
  have h_log : n.log2 ≤ 52 := by
    by_cases h_zero : n = 0
    · rw [h_zero]
      decide
    · exact Nat.le_of_lt_succ ((Nat.log2_lt h_zero).mpr h)
  change roundNumber (fromNumber n).toNat = n
  rw [toNat_fromNumber (h.trans (by decide))]
  apply roundNumber_of_dvd
  rw [Nat.sub_eq_zero_of_le h_log, pow_zero]
  exact one_dvd n

/-- **A stream is created here**, with an id that is new. -/
theorem createStream_runs (h_ok : ∀ t e, IsLocal t e → ok t e) (h_small : c.app.nextStreamId < 2 ^ 53) :
    Runs env.isServer ok c (createStream.exec c).2 := by
  unfold createStream
  rw [exec_bind_ok (exec_get c)]
  simp only
  -- above the limit of the peer nothing is created
  by_cases h_max : c.remoteMaxStreamId < c.app.nextStreamId
  · rw [if_pos h_max]
    exact Preserves.bind (queueFrame_preserves (admits_runs h_ok) _) (fun _ => .throw _) c
  rw [if_neg h_max, exec_modify]
  intro h_formed
  have h_val := val_toStreamId_fromNumber h_small
  generalize (fromNumber c.app.nextStreamId).toStreamId = streamId at h_val ⊢
  -- the next id is free
  have h_new : c.streams.get? streamId = none := by
    rw [← Option.not_isSome_iff_eq_none, isSome_get?_iff]
    intro h_mem
    obtain ⟨p, h_p, rfl⟩ := List.mem_map.mp h_mem
    apply h_formed.sound.nextStreamId_notMem
    rw [Connection.table, List.map_map, ← h_val]
    exact List.mem_map.mpr ⟨p, h_p, rfl⟩
  -- who created the other streams is as before
  have h_others : ∀ p ∈ c.flags, slotOf p.1 (p.1 ∉ c.app.created) p.2 =
      slotOf p.1 (p.1 ∉ streamId :: c.app.created) p.2 := by
    intro p h_p
    have h_ne : p.1 ≠ streamId := by
      rintro rfl
      have h_some := isSome_get?_iff.mpr (List.mem_map_of_mem h_p)
      rw [h_new] at h_some
      cases h_some
    simp only [List.mem_cons, h_ne, false_or]
  have h_table := table_set ⟨c.app.app, c.app.nextStreamId + 2, streamId :: c.app.created⟩ h_new
  rw [← List.map_congr_left h_others, h_val, decide_eq_false (not_not.mpr List.mem_cons_self)] at h_table
  refine ⟨⟨h_formed.sound.step (e := .create) (congrArg some h_table.symm), ?_⟩,
    Machine.Leads.single (h_ok _ .create trivial) (congrArg some h_table.symm)⟩
  intro id h_id
  change ((c.streams.set streamId .created).get? id).isSome
  rw [OrderedMap.get?_set]
  split
  · rfl
  · next h_ne => exact h_formed.created id ((List.mem_cons.mp h_id).resolve_left h_ne)

/-- The record of a stream is removed. -/
theorem removeStreamRecord_runs (h_ok : ∀ t e, IsLocal t e → ok t e) :
    Preserves (Runs env.isServer ok) (removeStreamRecord streamId : Run (Creator A) Unit) := by
  refine .bind .get fun c => .bind (.modify fun c => ?_) fun _ => .ite (fun _ => .pure ()) fun _ => ?_
  · exact runs_updateStream (e := .removeRecord streamId.val) (g := fun slot => { slot with recorded := false })
      (h_ok _ _ trivial) (fun _ _ => rfl) rfl
  · refine .bind (quiet_preserves (admits_runs h_ok) fun _ => ?_) fun _ =>
      queueFrame_preserves (admits_runs h_ok) _
    exact .updateStream (fun _ => rfl) fun _ => rfl

/-! ### Runs -/

/-- The events of the table that a frame may be are among those that count. -/
def Permits (env : StreamsEnvironment A) (ok : StreamTable → TableEvent → Prop) (c : Connection (Creator A)) :
    StreamsEvent → Prop
  | .newStreams _ frame => ∀ p ∈ frame.opensStream, p.1.toStreamId.val % 2 ≠ ownParity env.isServer →
      ∀ t, ok t (.peerOpens p.1.toStreamId.val)
  | .controlFrame (.streamClose streamId _ _) =>
    ∀ s ∈ c.record? streamId.toStreamId, s.isOpen = true → s.remoteSentEnd = false →
      ok c.table (.peerCloses streamId.toStreamId.val)
  | _ => True

/-- One frame of `handleControlFrames`. -/
theorem handleControlFrame_runs (h_ok : ∀ t e, IsLocal t e → ok t e) {frame : Frame}
    (h_permits : Permits env ok c (.controlFrame frame)) :
    Runs env.isServer ok c ((handleControlFrame env.toEnvironment frame).exec c).2 := by
  cases frame with
  | streamClose streamId errorCode errorMessage => exact handleStreamClose_runs h_ok _ h_permits
  | _ =>
    refine handleControlFrame_preserves (admits_runs h_ok) (destroy_runs h_ok) _ (fun _ _ _ h_frame => ?_) c
    cases h_frame

/-- **An event is a run of the table.** -/
theorem step_runs (h_ok : ∀ t e, IsLocal t e → ok t e) {e : StreamsEvent} (h_permits : Permits env ok c e)
    (h_step : env.machine.step c e = some c') : Runs env.isServer ok c c' := by
  cases e with
  | newStreams request frame =>
    obtain rfl := Option.some.inj h_step
    exact handleNewStreams_preserves (admits_runs h_ok) frame
      (fun id carries h_opens => handleNewStream_runs h_ok (h_permits (id, carries) h_opens)) c
  | controlFrame frame =>
    obtain rfl := Option.some.inj h_step
    exact handleControlFrame_runs h_ok h_permits
  | createStream =>
    obtain ⟨h_small, h_step⟩ := Option.ite_none_right_eq_some.mp h_step
    obtain rfl := Option.some.inj h_step
    exact createStream_runs h_ok h_small
  | finish streamId =>
    obtain rfl := Option.some.inj h_step
    exact runs_closed (fun _ _ => h_ok _ _ trivial) fun _ => rfl
  | destroy streamId errorMessage =>
    obtain rfl := Option.some.inj h_step
    exact runs_closed (fun _ _ => h_ok _ _ trivial) fun _ => rfl
  | removeStreamRecord streamId =>
    obtain rfl := Option.some.inj h_step
    exact removeStreamRecord_runs h_ok c
  | other signal =>
    obtain rfl := Option.some.inj h_step
    exact (env.ofThisSide signal c).mono h_ok

/-- Every event counts. -/
theorem permits_true (c : Connection (Creator A)) (e : StreamsEvent) : Permits env (fun _ _ => True) c e := by
  unfold Permits
  split
  · exact fun _ _ _ _ => trivial
  · exact fun _ _ _ _ => trivial
  · trivial

/-- What keeps the limit of the connection keeps that of the table. -/
theorem permits_of_keepsLimit {e : StreamsEvent} (h : env.KeepsLimit c e) :
    Permits env StreamTable.KeepsLimit c e := by
  unfold Permits
  split
  · intro p h_p h_parity t h_zero
    cases h_server : env.isServer with
    | true =>
      rw [h_zero, h_server] at h_parity
      exact h_parity rfl
    | false => exact h p h_p h_server h_zero
  · intro s h_s h_open h_end slot h_slot h_id
    obtain ⟨p, h_p, rfl⟩ := List.mem_map.mp h_slot
    have h_same := Subtype.ext h_id
    change decide (p.1 ∉ c.app.created) = true
    rw [h_same]
    exact decide_eq_true (h s h_s h_open h_end)
  · trivial

/-- **The packets of `handlePrepare`** are runs of the table too. -/
theorem receive_runs (env : StreamsEnvironment A) (prepare : IlpPrepare) :
    Preserves (Runs env.isServer fun _ _ => True) (receive env.toEnvironment prepare) := by
  have h_ok (t : StreamTable) (e : TableEvent) (_ : IsLocal t e) : True := trivial
  refine receive_preserves ?_ prepare
  exact
    { toAdmits := admits_runs h_ok
      handleNewStream := fun _ => handleNewStream_runs h_ok fun _ _ => trivial
      handleStreamClose := fun _ errorMessage _ =>
        handleStreamClose_runs h_ok errorMessage fun _ _ _ _ => trivial
      destroy := destroy_runs h_ok }

/-- **The table of a connection is one that the table reaches.** -/
theorem reach_table {guard : Connection (Creator A) → StreamsEvent → Prop} (h_ok : ∀ t e, IsLocal t e → ok t e)
    (h_guard : ∀ c e, guard c e → Permits env ok c e) (h : env.machine.Reach guard c) :
    c.WellFormed env.isServer ∧
      (StreamTable.machine env.isServer (maxRemoteStreamsOrDefault env.maxRemoteStreams)).Reach ok c.table := by
  refine h.invariant (fun c => c.WellFormed env.isServer ∧ (StreamTable.machine env.isServer
    (maxRemoteStreamsOrDefault env.maxRemoteStreams)).Reach ok c.table) ?_ ?_
  · intro c h_new
    have h_table : c.table =
        StreamTable.initial env.isServer (maxRemoteStreamsOrDefault env.maxRemoteStreams) := by
      unfold Connection.table Connection.flags
      rw [h_new.streams, h_new.maxStreamId, h_new.nextStreamId]
      rfl
    refine ⟨⟨h_table ▸ Sound.initial _, ?_⟩, .init h_table⟩
    rw [h_new.created]
    exact nofun
  · intro c e c' _ h_inv h_e h_step
    obtain ⟨h_formed, h_leads⟩ := step_runs h_ok (h_guard c e h_e) h_step h_inv.1
    exact ⟨h_formed, h_inv.2.leads h_leads⟩

/-- A stream that was closed, in the table. -/
theorem wasClosed_iff : c.WasClosed streamId ↔
    ∃ slot ∈ c.table.slots, slot.id = streamId.val ∧ slot.isOpen = false := by
  have h_flags (s : DataAndMoneyStream) (byPeer : Bool) : (slotOf streamId byPeer s.flags).isOpen = false ↔
      s.recorded = false ∨ s.isOpen = false ∨ s.remoteSentEnd = true := by
    change (s.recorded && !s.closed && !s.remoteSentEnd) = false ↔ _ ∨ (!s.closed) = false ∨ _
    rw [Bool.and_eq_false_iff, Bool.and_eq_false_iff, or_assoc, Bool.not_eq_false' s.remoteSentEnd]
  constructor
  · rintro ⟨s, h_get, h_closed⟩
    have h_entry := OrderedMap.mem_entries.mpr h_get
    refine ⟨slotOf streamId (streamId ∉ c.app.created) s.flags, ?_, rfl, (h_flags s _).mpr h_closed⟩
    exact List.mem_map.mpr ⟨(streamId, s.flags), List.mem_map.mpr ⟨(streamId, s), h_entry, rfl⟩, rfl⟩
  · rintro ⟨slot, h_slot, h_id, h_closed⟩
    obtain ⟨p, h_p, rfl⟩ := List.mem_map.mp h_slot
    obtain ⟨⟨id, s⟩, h_entry, rfl⟩ := List.mem_map.mp h_p
    obtain rfl : id = streamId := Subtype.ext h_id
    exact ⟨s, OrderedMap.mem_entries.mp h_entry, (h_flags s _).mp h_closed⟩

/-- The streams of the peer that are open, in the table. -/
theorem length_openByPeer : c.openByPeer.length = c.table.openByPeer := by
  unfold Connection.openByPeer StreamTable.openByPeer Connection.table Connection.flags Connection.records
  rw [List.length_map, List.filter_filter, ← List.countP_eq_length_filter, List.map_map, List.countP_map]
  apply List.countP_congr
  rintro ⟨id, s⟩ _
  change (decide (id ∉ c.app.created ∧ s.isOpen = true ∧ s.remoteSentEnd = false) && s.recorded) = true ↔
    (decide (id ∉ c.app.created) && (s.recorded && !s.closed && !s.remoteSentEnd)) = true
  unfold DataAndMoneyStream.isOpen
  cases s.recorded <;> cases s.closed <;> cases s.remoteSentEnd <;> simp

/-- **The limit on the streams of the peer.** In every run no stream of the peer has an id of this side, and a
stream that was closed stays closed. The streams of the peer that are open are within the limit, if the limit
is not zero, in the runs that keep it. -/
theorem openByPeer_bounded (env : StreamsEnvironment A) (h : env.machine.Reachable c) :
    (∀ streamId, (c.streams.get? streamId).isSome → streamId ∉ c.app.created →
      streamId.val % 2 ≠ ownParity env.isServer) ∧
    (∀ c' streamId, env.machine.Leads (fun _ _ => True) c c' → c.WasClosed streamId → c'.WasClosed streamId) ∧
    (env.maxRemoteStreams ≠ some 0 → env.machine.Reach env.KeepsLimit c →
      c.openByPeer.length ≤ env.maxRemoteStreams.getD 10) := by
  -- the connection is a run of its table
  have h_ok (t : StreamTable) (e : TableEvent) (_ : IsLocal t e) : True := trivial
  obtain ⟨h_formed, h_reach⟩ := reach_table h_ok (fun c e _ => permits_true c e) h
  refine ⟨?_, ?_, ?_⟩
  · -- who created a stream can be told from its parity
    intro streamId h_some h_created
    obtain ⟨s, h_get⟩ := Option.isSome_iff_exists.mp h_some
    have h_entry := OrderedMap.mem_entries.mpr h_get
    refine h_formed.sound.peer (slotOf streamId (streamId ∉ c.app.created) s.flags) ?_ (decide_eq_true h_created)
    exact List.mem_map.mpr ⟨(streamId, s.flags), List.mem_map.mpr ⟨(streamId, s), h_entry, rfl⟩, rfl⟩
  · intro c' streamId h_leads h_closed
    have h_runs : Runs env.isServer (fun _ _ => True) c c' :=
      h_leads.preorder h fun c e c' _ _ h_step => step_runs h_ok (permits_true c e) h_step
    have h_table : (StreamTable.machine env.isServer (maxRemoteStreamsOrDefault env.maxRemoteStreams)).Leads
        (fun _ _ => True) c.table c'.table := (h_runs h_formed).2
    -- a slot that is closed stays so, in every run from there
    have h_grows : StreamTable.Grows c.table c'.table :=
      h_table.preorder h_reach fun _ _ _ _ _ h_step => StreamTable.step_grows h_step
    rw [wasClosed_iff] at h_closed ⊢
    obtain ⟨slot, h_slot, h_id, h_not⟩ := h_closed
    obtain ⟨i, h_i⟩ := List.getElem?_of_mem h_slot
    obtain ⟨slot', h_i', h_follows⟩ := h_grows i slot h_i
    refine ⟨slot', List.mem_of_getElem? h_i', h_follows.id.trans h_id, ?_⟩
    rw [← Bool.not_eq_true]
    intro h_open
    rw [h_follows.isOpen h_open] at h_not
    cases h_not
  · intro h_limit h_keeps
    obtain ⟨-, h_keeps⟩ := reach_table (fun _ _ h => h.keepsLimit) (fun _ _ h => permits_of_keepsLimit h) h_keeps
    -- the table starts with the limit of the configuration
    have h_default : maxRemoteStreamsOrDefault env.maxRemoteStreams = env.maxRemoteStreams.getD 10 := by
      cases h_config : env.maxRemoteStreams with
      | none => rfl
      | some n =>
        rw [h_config] at h_limit
        exact if_neg fun h_zero => h_limit (congrArg some h_zero)
    rw [length_openByPeer, ← h_default]
    exact StreamTable.openByPeer_le h_keeps

end Handling

/-! ### Some runs -/

/-- A connection around which nothing happens. -/
def plainStreams (isServer : Bool) (maxRemoteStreams : Option ℕ) : StreamsEnvironment Unit where
  isServer := isServer
  sourceAccount := "test.receiver"
  sourceAssetCode := "XYZ"
  sourceAssetScale := 9
  decryptAndDeserialize _ := none
  generateFulfillment data := data
  hash preimage := preimage
  generateReceiptHMAC _ _ := List.replicate 32 0
  writeUInt8 n := if n < 256 then .ok (UInt8.ofNat n) else .error "Number is too large"
  respond _ c := (c, false)
  maxRemoteStreams := maxRemoteStreams
  ofThisSide _ c := refl_of _ c

/-- A connection that was just built. -/
def newConnection (isServer : Bool) (maxRemoteStreams : Option ℕ) : Connection (Creator Unit) where
  app := ⟨(), if isServer then 2 else 1, []⟩
  maxStreamId := 2 * maxRemoteStreamsOrDefault maxRemoteStreams

theorem isNew_newConnection (isServer : Bool) (maxRemoteStreams : Option ℕ) :
    (plainStreams isServer maxRemoteStreams).IsNew (newConnection isServer maxRemoteStreams) :=
  ⟨rfl, rfl, rfl, rfl⟩

/-- The peer sends money on a stream. -/
def sendsMoney (streamId : Long) : StreamsEvent :=
  .newStreams ⟨⟨0, [], []⟩, ⟨1, .prepare, 0, [.streamMoney streamId 1]⟩, []⟩ (.streamMoney streamId 1)

/-- The peer closes a stream. -/
def sendsClose (streamId : Long) : StreamsEvent := .controlFrame (.streamClose streamId .noError "")

instance (env : StreamsEnvironment A) (c : Connection (Creator A)) : (e : StreamsEvent) →
    Decidable (env.KeepsLimit c e)
  | .newStreams _ frame =>
    show Decidable (∀ p ∈ frame.opensStream, env.isServer = false → p.1.toStreamId.val ≠ 0) from
      Option.decidableForallMem frame.opensStream
  | .controlFrame frame =>
    match frame with
    | .streamClose streamId _ _ =>
      show Decidable (∀ s ∈ c.record? streamId.toStreamId, s.isOpen = true → s.remoteSentEnd = false →
          streamId.toStreamId ∉ c.app.created) from
        Option.decidableForallMem (c.record? streamId.toStreamId)
    | .connectionClose _ _ | .connectionNewAddress _ | .connectionMaxData _ | .connectionMaxStreamId _
    | .connectionAssetDetails _ _ | .streamMaxMoney _ _ _ | .streamData _ _ _ | .streamMaxData _ _
    | .connectionDataBlocked _ | .connectionStreamIdBlocked _ | .streamMoney _ _ | .streamMoneyBlocked _ _ _
    | .streamDataBlocked _ _ | .streamReceipt _ _ => .isTrue trivial
  | .createStream | .finish _ | .destroy _ _ | .removeStreamRecord _ | .other _ => .isTrue trivial

/-- The peer opens two streams and closes one of them, so that it may open a third. -/
theorem openByPeer_bounded_two :
    ∃ c, (plainStreams true (some 2)).machine.Reach (plainStreams true (some 2)).KeepsLimit c ∧
      c.openByPeer.map Subtype.val = [3, 5] ∧ c.openByPeer.length ≤ 2 := by
  have h_exec : ((plainStreams true (some 2)).machine.exec (plainStreams true (some 2)).KeepsLimit
      (newConnection true (some 2))
      [sendsMoney 1, sendsMoney 3, sendsMoney 5, .createStream, sendsClose 1, sendsMoney 5, sendsMoney 7]).map
      (fun c => c.openByPeer.map Subtype.val) = some [3, 5] := by
    decide +kernel
  obtain ⟨c, h_exec, h_open⟩ := Option.map_eq_some_iff.mp h_exec
  have h : (plainStreams true (some 2)).machine.Reach (plainStreams true (some 2)).KeepsLimit c :=
    Machine.reach_of_exec _ (isNew_newConnection true (some 2)) h_exec
  exact ⟨c, h, h_open, (openByPeer_bounded _ h.reachable).2.2 nofun h⟩

/-- A server that allows one stream, and closes one that it created: the peer has two streams open. A client
that allows one has two as well, one of them the stream zero, and a server that allows none has one. -/
theorem openByPeer_unbounded :
    (∃ c, (plainStreams true (some 1)).machine.Reachable c ∧ c.openByPeer.map Subtype.val = [1, 3]) ∧
    (∃ c, (plainStreams false (some 1)).machine.Reachable c ∧ c.openByPeer.map Subtype.val = [0, 2]) ∧
    ∃ c, (plainStreams true (some 0)).machine.Reachable c ∧ c.openByPeer.map Subtype.val = [1] := by
  have h_reach (isServer : Bool) (maxRemoteStreams : Option ℕ) (events : List StreamsEvent) (ids : List ℕ)
      (h_exec : ((plainStreams isServer maxRemoteStreams).machine.exec (fun _ _ => True)
        (newConnection isServer maxRemoteStreams) events).map
          (fun c => c.openByPeer.map Subtype.val) = some ids) :
      ∃ c, (plainStreams isServer maxRemoteStreams).machine.Reachable c ∧
        c.openByPeer.map Subtype.val = ids := by
    obtain ⟨c, h_exec, h_open⟩ := Option.map_eq_some_iff.mp h_exec
    exact ⟨c, Machine.reach_of_exec _ (isNew_newConnection _ _) h_exec, h_open⟩
  refine ⟨?_, ?_, ?_⟩
  · exact h_reach _ _ [sendsMoney 1, .createStream, sendsClose 2, sendsMoney 3] _ (by decide +kernel)
  · exact h_reach _ _ [sendsMoney 0, sendsMoney 2] _ (by decide +kernel)
  · exact h_reach _ _ [sendsMoney 1] _ (by decide +kernel)

end Interledger.Stream
