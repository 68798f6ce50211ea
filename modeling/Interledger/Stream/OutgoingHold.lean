import Interledger.Stream.HeldMoney

/-!
# The life of a hold

Once the reply to a packet is handled its holds should be gone: executed, that is added to what the
stream has sent, when the packet was paid, and cancelled otherwise.

Three kinds of replies do not do this. A Fulfill that comes back without data ends the packet before
the holds are executed. A Reject cancels the holds of the streams that the connection still has a
record of, and no others. And executing adds without a check for overflow. In all other cases each
hold is settled (`SettlesHolds`).

## Main results

* `exec_undoRejectedPacket`, `exec_executeHolds` — what becomes of the holds;
* `loadAndSendPacket_settles` — a packet leaves no hold, and the streams have sent what it carried if
  it was paid, exactly when the reply is none of these three;
* `fulfill_without_data_keeps_hold` — a Fulfill that is ignored.
-/

namespace Interledger.Stream

open Interledger.Ilp Interledger.Action Long

variable {App : Type}

/-! ### Cancelling the holds -/

/-- What undoing frames of a packet does: nothing is sent, and the streams that have a record and
gave money to one of them hold none under `n`. -/
structure Undone (n : ℕ) (c c' : Connection App) (frames : List Frame) : Prop where
  totalSent : ∀ id, (c'.stream id).totalSent = (c.stream id).totalSent
  recorded : ∀ id, (c'.stream id).recorded = (c.stream id).recorded
  kept : ∀ id, (c.stream id).recorded = false → (c'.stream id).holds = (c.stream id).holds
  none_of_none : ∀ id, (c.stream id).holds.get? n = none → (c'.stream id).holds.get? n = none
  cancelled : ∀ id amount, (c.stream id).recorded = true → Frame.streamMoney id.toLong amount ∈ frames →
    (c'.stream id).holds.get? n = none

namespace Undone

variable {n : ℕ} {c c₁ c' : Connection App} {frame : Frame} {frames : List Frame}

/-- A frame without money leaves the holds alone. -/
theorem of_same (h_frame : ∀ streamId amount, frame ≠ .streamMoney streamId amount)
    (h : ∀ id, (c'.stream id).account = (c.stream id).account ∧
      (c'.stream id).recorded = (c.stream id).recorded) :
    Undone n c c' [frame] where
  totalSent id := congrArg Account.totalSent (h id).1
  recorded id := (h id).2
  kept id _ := congrArg Account.holds (h id).1
  none_of_none id h_none := by
    have h_holds : (c'.stream id).holds = (c.stream id).holds := congrArg Account.holds (h id).1
    rw [h_holds]
    exact h_none
  cancelled id amount _ h_mem := absurd (List.mem_singleton.mp h_mem).symm (h_frame _ _)

/-- One frame after the others. -/
theorem cons (h : Undone n c c₁ [frame]) (h_rest : Undone n c₁ c' frames) :
    Undone n c c' (frame :: frames) where
  totalSent id := (h_rest.totalSent id).trans (h.totalSent id)
  recorded id := (h_rest.recorded id).trans (h.recorded id)
  kept id h_gone := by
    have h_gone₁ : (c₁.stream id).recorded = false := (h.recorded id).trans h_gone
    exact (h_rest.kept id h_gone₁).trans (h.kept id h_gone)
  none_of_none id h_none := h_rest.none_of_none id (h.none_of_none id h_none)
  cancelled id amount h_record h_mem := by
    rcases List.mem_cons.mp h_mem with rfl | h_later
    · -- cancelled by this frame, and not held again
      exact h_rest.none_of_none id (h.cancelled id amount h_record (List.mem_singleton.mpr rfl))
    · have h_record₁ : (c₁.stream id).recorded = true := (h.recorded id).trans h_record
      exact h_rest.cancelled id amount h_record₁ h_later

end Undone

/-- What has a record is a stream, and not removed. -/
theorem recorded_of_record? {c : Connection App} {id : StreamId} (h : c.record? id ≠ none) :
    (c.streams.get? id).isSome ∧ (c.stream id).recorded = true := by
  unfold Connection.record? at h
  unfold Connection.stream
  cases h_get : c.streams.get? id with
  | none =>
    rw [h_get] at h
    exact absurd rfl h
  | some s =>
    rw [h_get] at h
    refine ⟨rfl, ?_⟩
    by_contra h_gone
    exact h (Option.filter_eq_none_iff.mpr fun _ h_eq => by simpa [← Option.some.inj h_eq] using h_gone)

/-- What has no record was removed, or is no stream. -/
theorem stream_of_not_record? {c : Connection App} {id : StreamId} (h : c.record? id = none)
    (h_record : (c.stream id).recorded = true) : c.stream id = .created := by
  unfold Connection.record? at h
  unfold Connection.stream at h_record ⊢
  cases h_get : c.streams.get? id with
  | none => rfl
  | some s =>
    rw [h_get] at h h_record
    exact absurd h_record (by simpa using h)

/-- Undoing a frame. -/
theorem exec_undoFrame (n : ℕ) (frame : Frame) (c : Connection App) :
    ∃ c', (undoFrame n frame).exec c = (.ok (), c') ∧ Undone n c c' [frame] := by
  cases frame with
  | streamMoney streamId shares =>
    unfold undoFrame
    rw [exec_bind_ok (exec_get c)]
    -- money goes back to the stream it came from
    by_cases h_record : c.record? streamId.toStreamId = none
    · rw [if_pos h_record]
      refine ⟨c, rfl, fun _ => rfl, fun _ => rfl, fun _ _ => rfl, fun _ h => h, fun id amount h h_mem => ?_⟩
      -- the frame names a stream without a record
      cases List.mem_singleton.mp h_mem
      rw [StreamId.toStreamId_toLong] at h_record
      rw [stream_of_not_record? h_record h]
      rfl
    · rw [if_neg h_record]
      obtain ⟨h_known, h_recorded⟩ := recorded_of_record? h_record
      -- its hold for the packet is cancelled, and nothing else of it changes
      have h_self := stream_updateStream_self h_known fun s => s.cancelHold n
      have h_cases := stream_updateStream c streamId.toStreamId fun s => s.cancelHold n
      refine ⟨_, rfl, fun id => ?_, fun id => ?_, fun id h_gone => ?_, fun id h_none => ?_,
        fun id amount _ h_mem => ?_⟩
      · rcases h_cases id with h | ⟨-, h⟩
        · rw [h]
        · rw [h, DataAndMoneyStream.totalSent_cancelHold]
      · rcases h_cases id with h | ⟨-, h⟩
        · rw [h]
        · rw [h, DataAndMoneyStream.recorded_cancelHold]
      · rcases h_cases id with h | ⟨rfl, -⟩
        · rw [h]
        · rw [h_gone] at h_recorded
          cases h_recorded
      · rcases h_cases id with h | ⟨-, h⟩
        · rw [h]
          exact h_none
        · rw [h, DataAndMoneyStream.get?_cancelHold]
      · cases List.mem_singleton.mp h_mem
        rw [StreamId.toStreamId_toLong] at h_self ⊢
        rw [h_self, DataAndMoneyStream.get?_cancelHold]
  | streamData streamId offset data =>
    unfold undoFrame
    rw [exec_bind_ok (exec_get c)]
    -- data is queued again, which is no money
    by_cases h_record : c.record? streamId.toStreamId = none
    · rw [if_pos h_record]
      exact ⟨c, rfl, .of_same nofun fun _ => ⟨rfl, rfl⟩⟩
    · rw [if_neg h_record]
      refine ⟨_, rfl, .of_same nofun fun id => ?_⟩
      rcases stream_updateStream c streamId.toStreamId
        (fun s => s.resendOutgoingData data offset.toNumber) id with h | ⟨-, h⟩
      · rw [h]
        exact ⟨rfl, rfl⟩
      · rw [h]
        exact ⟨rfl, rfl⟩
  | streamClose streamId errorCode errorMessage =>
    exact ⟨_, rfl, .of_same nofun fun _ => ⟨rfl, rfl⟩⟩
  | _ => exact ⟨c, rfl, .of_same nofun fun _ => ⟨rfl, rfl⟩⟩

/-- **Undoing a packet** cancels the holds of the streams that still have a record. -/
theorem exec_undoRejectedPacket (packet : Packet) (c : Connection App) :
    ∃ c', (undoRejectedPacket packet).exec c = (.ok (), c') ∧
      Undone packet.sequence.toNat c c' packet.frames := by
  unfold undoRejectedPacket
  induction packet.frames generalizing c with
  | nil =>
    exact ⟨c, rfl, fun _ => rfl, fun _ => rfl, fun _ _ => rfl, fun _ h => h, nofun⟩
  | cons frame frames ih =>
    obtain ⟨c₁, h_first, h_undone⟩ := exec_undoFrame packet.sequence.toNat frame c
    obtain ⟨c', h_rest, h_undone'⟩ := ih c₁
    refine ⟨c', ?_, h_undone.cons h_undone'⟩
    unfold forEach
    rw [exec_bind_ok h_first]
    exact h_rest

/-! ### Executing the holds -/

/-- Executing one hold moves it to what the stream has sent, whatever the listeners do. -/
theorem exec_executeHold {env : SenderEnvironment App} {n : ℕ} {i : StreamId} {c c' : Connection App}
    (h_exec : (executeHold env.toSendEnvironment n i).exec c = (.ok (), c')) (id : StreamId) :
    (c'.stream id).holds.get? n = (if id = i then none else (c.stream id).holds.get? n) ∧
      (c'.stream id).totalSent = (c.stream id).totalSent +
        if id = i then ((c.stream id).holds.get? n).getD 0 else 0 := by
  unfold executeHold at h_exec
  rw [exec_bind_ok (exec_get c)] at h_exec
  -- without a hold for the packet nothing happens
  cases h_hold : (c.stream i).holds.get? n with
  | none =>
    rw [h_hold] at h_exec
    cases h_exec
    by_cases h_id : id = i
    · rw [if_pos h_id, if_pos h_id, h_id, h_hold]
      exact ⟨rfl, (BitVec.add_zero _).symm⟩
    · rw [if_neg h_id, if_neg h_id]
      exact ⟨rfl, (BitVec.add_zero _).symm⟩
  | some amount =>
    rw [h_hold] at h_exec
    simp only at h_exec
    rw [exec_bind_ok (exec_modify c _)] at h_exec
    -- a stream that holds money exists
    have h_known : (c.streams.get? i).isSome := by
      unfold Connection.stream at h_hold
      by_contra h_absent
      rw [Option.not_isSome_iff_eq_none.mp h_absent] at h_hold
      cases h_hold
    -- listeners send no money of their own
    have h_events : SameSent (c.updateStream i fun s => s.executeHold n) c' := by
      refine Preserves.of_exec (.bind (emit_preserves env.respects.admits _) fun _ => .bind .get fun c => ?_)
        h_exec
      exact .ite (fun _ => emit_preserves env.respects.admits _) fun _ => .pure ()
    rw [h_events.holds id, h_events.totalSent id]
    by_cases h_id : id = i
    · rw [if_pos h_id, if_pos h_id, h_id, stream_updateStream_self h_known, h_hold]
      unfold DataAndMoneyStream.executeHold
      rw [h_hold]
      exact ⟨OrderedMap.get?_erase_self, rfl⟩
    · rw [if_neg h_id, if_neg h_id]
      rcases stream_updateStream c i (fun s => s.executeHold n) id with h | ⟨h, -⟩
      · rw [h]
        exact ⟨rfl, (BitVec.add_zero _).symm⟩
      · exact absurd h h_id

/-- **Executing the holds** of the streams a packet was sent from. -/
theorem exec_executeHolds {env : SenderEnvironment App} {n : ℕ} {ids : List StreamId}
    {c c' : Connection App}
    (h_exec : (forEach (executeHold env.toSendEnvironment n) ids).exec c = (.ok (), c'))
    (id : StreamId) :
    (c'.stream id).holds.get? n = (if id ∈ ids then none else (c.stream id).holds.get? n) ∧
      (c'.stream id).totalSent = (c.stream id).totalSent +
        if id ∈ ids then ((c.stream id).holds.get? n).getD 0 else 0 := by
  induction ids generalizing c with
  | nil =>
    cases h_exec
    exact ⟨rfl, (BitVec.add_zero _).symm⟩
  | cons i ids ih =>
    obtain ⟨_, c₁, h_first, h_rest⟩ := exec_bind_eq_ok.mp h_exec
    obtain ⟨h_hold, h_sent⟩ := exec_executeHold h_first id
    obtain ⟨h_hold', h_sent'⟩ := ih h_rest
    rw [h_hold', h_sent', h_hold, h_sent]
    by_cases h_id : id = i
    · -- executed now; what comes later finds no hold
      have h_mem : id ∈ i :: ids := h_id ▸ List.mem_cons_self
      rw [if_pos h_id, if_pos h_id, if_pos h_mem, if_pos h_mem]
      split <;> exact ⟨rfl, BitVec.add_zero _⟩
    · have h_iff : id ∈ i :: ids ↔ id ∈ ids := by
        rw [List.mem_cons]
        exact or_iff_right h_id
      rw [if_neg h_id, if_neg h_id, add_zero]
      simp only [h_iff, and_self]

/-! ### The life of a hold -/

section Settled

variable (env : SendEnvironment App)

/-- `loadAndSendPacket` until the reply comes in. -/
def awaitReply : Run App (Option (OutgoingPacket × ResponseData)) := do
  await env.toEnvironment
  match ← loadPacket env with
  | none => pure none
  | some outgoing => do
    let response ← transmit env outgoing.packet outgoing.amountToSend
    pure (some (outgoing, response))

/-- `loadAndSendPacket` from the reply on. -/
def settleReply (outgoing : OutgoingPacket) (response : ResponseData) : Run App Unit := do
  let response ← handleResponse env outgoing.packet outgoing.amountToSend response
  await env.toEnvironment
  match response with
  | none => pure ()
  | some response => applyResponse env outgoing response

/-- The sequence number of the packet that is sent next. -/
def packetSequence (c : Connection App) : ℕ := (env.respond .idle c).1.nextPacketSequence

/-- What a stream holds for a packet. -/
def DataAndMoneyStream.heldFor (s : DataAndMoneyStream) (n : ℕ) : Long := (s.holds.get? n).getD 0

/-- What a stream pays for a packet: what it holds for it when a Fulfill whose fulfillment hashes to
the condition comes in, and nothing otherwise. -/
def paidAmount (c : Connection App) (id : StreamId) : ℕ :=
  match (awaitReply env).exec c with
  | (.ok (some (outgoing, .fulfill response)), flight) =>
    if env.hash response.fulfillment
        = (makePrepare env outgoing.packet outgoing.amountToSend).executionCondition then
      ((flight.stream id).heldFor (packetSequence env c)).toNat
    else 0
  | _ => 0

/-- The packet left no hold, and each stream has sent what it paid for it. -/
def HoldsSettled (c c' : Connection App) : Prop :=
  ∀ id, (c'.stream id).holds.get? (packetSequence env c) = none ∧
    (c'.stream id).totalSent.toNat = (c.stream id).totalSent.toNat + paidAmount env c id

/-- The guard: when the reply comes in, a Fulfill without data finds no stream that holds money for
the packet, one with data finds none whose `totalSent` would overflow, and a Reject finds that every
stream that holds money for the packet still has its record. -/
def SettlesHolds (c : Connection App) : Prop :=
  match (awaitReply env).exec c with
  | (.ok (some (_, .fulfill response)), flight) =>
    if response.data = [] then
      ∀ id, (flight.stream id).holds.get? (packetSequence env c) = none
    else
      ∀ id, (flight.stream id).totalSent.toNat
        + ((flight.stream id).heldFor (packetSequence env c)).toNat < 2 ^ 64
  | (.ok (some (_, .reject _)), flight) =>
    ∀ id, (flight.stream id).holds.get? (packetSequence env c) ≠ none →
      (flight.stream id).recorded = true
  | _ => True

variable {env}

/-- A packet that is sent returns when the reply is settled, and one that is not returns at once. -/
theorem exec_loadAndSendPacket_ok {c c' : Connection App}
    (h_exec : (loadAndSendPacket env).exec c = (.ok (), c')) :
    (awaitReply env).exec c = (.ok none, c') ∨
      ∃ outgoing response flight,
        (awaitReply env).exec c = (.ok (some (outgoing, response)), flight) ∧
          (settleReply env outgoing response).exec flight = (.ok (), c') := by
  unfold loadAndSendPacket at h_exec
  rw [exec_bind_ok (exec_await _ c)] at h_exec
  obtain ⟨outgoing, c₁, h_load, h_exec⟩ := exec_bind_eq_ok.mp h_exec
  unfold awaitReply
  rw [exec_bind_ok (exec_await _ c), exec_bind_ok h_load]
  cases outgoing with
  | none =>
    cases h_exec
    exact .inl rfl
  | some outgoing =>
    obtain ⟨response, c₂, h_send, h_exec⟩ := exec_bind_eq_ok.mp h_exec
    unfold sendPacket at h_send
    obtain ⟨data, flight, h_transmit, h_handle⟩ := exec_bind_eq_ok.mp h_send
    refine .inr ⟨outgoing, data, flight, ?_, ?_⟩
    · simp only
      rw [exec_bind_ok h_transmit]
      rfl
    · unfold settleReply
      rw [exec_bind_ok h_handle]
      exact h_exec

end Settled

section Life

variable {env : SenderEnvironment App} {outgoing : OutgoingPacket} {c c' : Connection App}

/-- Until the reply comes in, the streams the packet was sent from hold its money. -/
theorem HeldFor.awaitReply {reply : Option (OutgoingPacket × ResponseData)}
    (h_issued : c.HoldsIssued)
    (h_exec : (awaitReply env.toSendEnvironment).exec c = (.ok reply, c')) :
    match reply with
    | none => HeldFor (packetSequence env.toSendEnvironment c) c c' [] []
    | some (o, _) =>
      HeldFor (packetSequence env.toSendEnvironment c) c c' o.packet.frames o.streamsSentFrom ∧
        o.packet.sequence.toNat = packetSequence env.toSendEnvironment c := by
  have h_idle := env.sameSent .idle c
  unfold Stream.awaitReply at h_exec
  rw [exec_bind_ok (exec_await _ c)] at h_exec
  obtain ⟨loaded, c₁, h_load, h_exec⟩ := exec_bind_eq_ok.mp h_exec
  have h_held := HeldFor.loadPacket (h_idle.holdsIssued h_issued) h_load
  -- the holds of the packet are taken since the call began
  have h_start : ∀ {frames sentFrom},
      HeldFor (packetSequence env.toSendEnvironment c) (env.respond .idle c).1 c₁ frames sentFrom →
        HeldFor (packetSequence env.toSendEnvironment c) c c₁ frames sentFrom := by
    intro frames sentFrom h
    exact ⟨fun id => (h.totalSent id).trans (h_idle.totalSent id), h.held_iff, h.framed⟩
  cases loaded with
  | none =>
    cases h_exec
    exact h_start h_held
  | some o =>
    obtain ⟨response, c₂, h_transmit, h_exec⟩ := exec_bind_eq_ok.mp h_exec
    cases h_exec
    have h_same := (transmit_sameSent env _ _).of_exec h_transmit
    exact ⟨(h_start h_held.1).sameSent h_same, h_held.2⟩

/-- A response that rejects the packet changes no money. -/
theorem applyResponse_reject {response : Packet} (h_type : response.ilpPacketType ≠ .fulfill) :
    SameSent c ((applyResponse env.toSendEnvironment outgoing response).exec c).2 := by
  revert c
  change Preserves SameSent (applyResponse env.toSendEnvironment outgoing response)
  refine .bind (modify_preserves env.respects (fun _ => rfl) fun _ => le_rfl) fun _ => ?_
  refine .bind (handleControlFrames_preserves env.respects.carries _) fun _ => ?_
  refine .bind (modify_preserves env.respects (fun _ => rfl) fun _ => le_rfl) fun _ => ?_
  exact .ite (fun h => absurd h h_type) fun _ => .pure ()

/-- A response that fulfills the packet executes its holds. -/
theorem applyResponse_fulfill {response : Packet} (h_type : response.ilpPacketType = .fulfill)
    (h_exec : (applyResponse env.toSendEnvironment outgoing response).exec c = (.ok (), c'))
    (id : StreamId) :
    (c'.stream id).holds.get? outgoing.packet.sequence.toNat =
        (if id ∈ outgoing.streamsSentFrom then none
        else (c.stream id).holds.get? outgoing.packet.sequence.toNat) ∧
      (c'.stream id).totalSent = (c.stream id).totalSent +
        if id ∈ outgoing.streamsSentFrom then
          (c.stream id).heldFor outgoing.packet.sequence.toNat
        else 0 := by
  unfold applyResponse at h_exec
  -- the actions of `applyResponse`, one after the other
  obtain ⟨_, c₁, h_state, h_exec⟩ := exec_bind_eq_ok.mp h_exec
  obtain ⟨_, c₂, h_frames, h_exec⟩ := exec_bind_eq_ok.mp h_exec
  obtain ⟨_, c₃, h_rate, h_exec⟩ := exec_bind_eq_ok.mp h_exec
  rw [if_pos h_type] at h_exec
  unfold applyFulfill at h_exec
  obtain ⟨_, c₄, h_receipts, h_exec⟩ := exec_bind_eq_ok.mp h_exec
  obtain ⟨_, c₅, h_holds, h_exec⟩ := exec_bind_eq_ok.mp h_exec
  -- what comes before the holds are executed, and what comes after, changes no money
  have h₁ : SameSent c c₁ := by
    cases h_state
    exact .of_ledger_eq rfl le_rfl
  have h₃ : SameSent c₂ c₃ := by
    cases h_rate
    exact .of_ledger_eq rfl le_rfl
  have h_before : SameSent c c₄ := by
    have h_control := (handleControlFrames_preserves env.respects.carries response.frames).of_exec h_frames
    have h_receipt := (Preserves.forEach setReceipt_sameSent response.frames).of_exec h_receipts
    exact trans_of SameSent (trans_of SameSent h₁ h_control) (trans_of SameSent h₃ h_receipt)
  have h_after : SameSent c₅ c' := by
    refine Preserves.of_exec (.bind (addTotalDelivered_sameSent env _) fun _ => ?_) h_exec
    refine .bind (addTotalSent_sameSent env _) fun _ => ?_
    exact modify_preserves env.respects (fun _ => rfl) fun _ => le_rfl
  -- only executing the holds moves money
  obtain ⟨h_hold, h_sent⟩ := exec_executeHolds h_holds id
  rw [h_after.holds id, h_after.totalSent id, h_hold, h_sent, h_before.holds id,
    h_before.totalSent id]
  exact ⟨rfl, rfl⟩

/-- A Fulfill is settled when its fulfillment is right. Without data it is ignored, and with data it
executes the holds. -/
theorem settleReply_fulfill {c₀ : Connection App} {response : IlpFulfill}
    (h_held : HeldFor outgoing.packet.sequence.toNat c₀ c outgoing.packet.frames
      outgoing.streamsSentFrom)
    (h_exec : (settleReply env.toSendEnvironment outgoing (.fulfill response)).exec c = (.ok (), c')) :
    env.hash response.fulfillment = (makePrepare env.toSendEnvironment outgoing.packet
        outgoing.amountToSend).executionCondition ∧
      if response.data = [] then SameSent c c'
      else ∀ id, (c'.stream id).holds.get? outgoing.packet.sequence.toNat = none ∧
        (c'.stream id).totalSent = (c.stream id).totalSent +
          (c.stream id).heldFor outgoing.packet.sequence.toNat := by
  unfold settleReply handleResponse at h_exec
  obtain ⟨answer, c₁, h_handle, h_exec⟩ := exec_bind_eq_ok.mp h_exec
  simp only at h_handle
  rw [exec_bind_ok (exec_await _ c)] at h_handle
  -- a Fulfill with another condition throws
  by_cases h_hash : env.hash response.fulfillment = (makePrepare env.toSendEnvironment
      outgoing.packet outgoing.amountToSend).executionCondition
  swap
  · rw [if_neg h_hash] at h_handle
    cases h_handle
  rw [if_pos h_hash] at h_handle
  refine ⟨h_hash, ?_⟩
  -- the response is read, while the application may do what it likes
  have h_read := exec_readResponse_ok h_handle
  have h_same : SameSent c c₁ :=
    trans_of SameSent (env.sameSent .idle c) ((readResponse_sameSent env _ _ _).of_exec h_handle)
  rw [exec_bind_ok (exec_await _ c₁)] at h_exec
  have h_flight : SameSent c (env.respond .idle c₁).1 :=
    trans_of SameSent h_same (env.sameSent .idle c₁)
  -- without data nothing is counted
  cases answer with
  | none =>
    cases h_exec
    rw [if_pos h_read]
    exact h_flight
  | some answer =>
    obtain ⟨h_data, h_type⟩ := h_read
    rw [if_neg h_data]
    intro id
    -- with a response the holds of the streams it was sent from are executed
    obtain ⟨h_hold, h_sent⟩ := applyResponse_fulfill h_type h_exec id
    have h_iff := h_held.held_iff id
    have h_heldFor : ((env.respond .idle c₁).1.stream id).heldFor outgoing.packet.sequence.toNat =
        (c.stream id).heldFor outgoing.packet.sequence.toNat := by
      unfold DataAndMoneyStream.heldFor
      rw [h_flight.holds id]
    rw [h_hold, h_sent, h_heldFor, h_flight.holds id, h_flight.totalSent id]
    by_cases h_mem : id ∈ outgoing.streamsSentFrom
    · rw [if_pos h_mem, if_pos h_mem]
      exact ⟨rfl, rfl⟩
    · -- a stream the packet was not sent from holds nothing for it
      have h_none : (c.stream id).holds.get? outgoing.packet.sequence.toNat = none :=
        not_not.mp fun h_hold => h_mem (h_iff.mp h_hold)
      rw [if_neg h_mem, if_neg h_mem, h_none]
      unfold DataAndMoneyStream.heldFor
      rw [h_none]
      exact ⟨rfl, rfl⟩

/-- A Reject undoes the packet, and changes no money apart from that. -/
theorem settleReply_reject {response : IlpReject}
    (h_exec : (settleReply env.toSendEnvironment outgoing (.reject response)).exec c = (.ok (), c')) :
    ∃ c₁, Undone outgoing.packet.sequence.toNat c c₁ outgoing.packet.frames ∧ SameSent c₁ c' := by
  -- the holds are undone first
  obtain ⟨c₁, h_undo, h_undone⟩ := exec_undoRejectedPacket outgoing.packet c
  refine ⟨c₁, h_undone, ?_⟩
  unfold settleReply handleResponse at h_exec
  obtain ⟨answer, c₂, h_handle, h_exec⟩ := exec_bind_eq_ok.mp h_exec
  simp only at h_handle
  rw [exec_bind_ok h_undo] at h_handle
  rw [exec_bind_ok (exec_await _ c₂)] at h_exec
  have h_idle := env.sameSent .idle c₂
  by_cases h_final : response.code ≠ .f99ApplicationError
  · -- an error of a connector
    rw [if_pos h_final] at h_handle
    obtain ⟨_, c₃, h_error, h_handle⟩ := exec_bind_eq_ok.mp h_handle
    cases h_handle
    cases h_exec
    exact trans_of SameSent ((handleConnectorError_sameSent env _ _).of_exec h_error) h_idle
  · rw [if_neg h_final] at h_handle
    -- an error of the receiver, which may have a response
    have h_read := exec_readResponse_ok h_handle
    have h_same := (readResponse_sameSent env _ _ _).of_exec h_handle
    cases answer with
    | none =>
      cases h_exec
      exact trans_of SameSent h_same h_idle
    | some answer =>
      -- the receiver's response is a Reject as well
      have h_type : answer.ilpPacketType ≠ .fulfill := by
        rw [h_read.2]
        nofun
      have h_apply : SameSent (env.respond .idle c₂).1 c' := by
        have h : SameSent (env.respond .idle c₂).1 ((applyResponse env.toSendEnvironment outgoing
            answer).exec (env.respond .idle c₂).1).2 := applyResponse_reject h_type
        simp only at h_exec
        rw [h_exec] at h
        exact h
      exact trans_of SameSent h_same (trans_of SameSent h_idle h_apply)

/-- **A packet leaves no hold, and the streams have sent what they paid for it**, exactly when the
reply settles the holds: for every connection whose holds were issued, and for every reply. -/
theorem loadAndSendPacket_settles (env : SenderEnvironment App) {c c' : Connection App}
    (h_issued : c.HoldsIssued)
    (h_exec : (loadAndSendPacket env.toSendEnvironment).exec c = (.ok (), c')) :
    HoldsSettled env.toSendEnvironment c c' ↔ SettlesHolds env.toSendEnvironment c := by
  unfold HoldsSettled SettlesHolds paidAmount
  rcases exec_loadAndSendPacket_ok h_exec with h_reply | ⟨outgoing, response, flight, h_reply, h_settle⟩
  · -- nothing was sent, and nothing is held
    have h_held := HeldFor.awaitReply h_issued h_reply
    rw [h_reply]
    refine iff_of_true (fun id => ⟨?_, ?_⟩) trivial
    · exact not_not.mp fun h_hold => List.not_mem_nil ((h_held.held_iff id).mp h_hold)
    · exact congrArg BitVec.toNat (h_held.totalSent id)
  obtain ⟨h_held, h_sequence⟩ := HeldFor.awaitReply h_issued h_reply
  rw [h_reply]
  have h_start : ∀ id, (flight.stream id).totalSent = (c.stream id).totalSent := h_held.totalSent
  rw [← h_sequence] at h_held ⊢
  cases response with
  | invalid message =>
    cases h_settle
  | fulfill response =>
    obtain ⟨h_hash, h_settled⟩ := settleReply_fulfill h_held h_settle
    simp only [if_pos h_hash]
    by_cases h_data : response.data = []
    · -- the Fulfill is ignored: right if there was nothing to execute
      rw [if_pos h_data] at h_settled ⊢
      constructor
      · intro h id
        rw [← h_settled.holds id]
        exact (h id).1
      · intro h id
        have h_zero : (flight.stream id).heldFor outgoing.packet.sequence.toNat = 0 := by
          unfold DataAndMoneyStream.heldFor
          rw [h id]
          rfl
        rw [h_settled.holds id, h_settled.totalSent id, h_zero, h_start id]
        exact ⟨h id, rfl⟩
    · -- the holds are executed: right if no sum overflows
      rw [if_neg h_data] at h_settled ⊢
      refine forall_congr' fun id => ?_
      obtain ⟨h_none, h_sent⟩ := h_settled id
      rw [h_sent, BitVec.toNat_add, h_start id, and_iff_right h_none]
      constructor
      · intro h_eq
        rw [← h_eq]
        exact Nat.mod_lt _ (by norm_num)
      · exact Nat.mod_eq_of_lt
  | reject response =>
    obtain ⟨c₁, h_undone, h_same⟩ := settleReply_reject h_settle
    simp only
    have h_sent : ∀ id, (c'.stream id).totalSent = (c.stream id).totalSent := by
      intro id
      rw [h_same.totalSent id, h_undone.totalSent id, h_start id]
    constructor
    · -- a stream without its record keeps the hold
      intro h id h_hold
      by_contra h_gone
      have h_kept := h_undone.kept id (Bool.not_eq_true _ ▸ h_gone)
      have h_none := (h id).1
      rw [h_same.holds id, h_kept] at h_none
      exact h_hold h_none
    · intro h id
      rw [h_same.holds id, h_sent id]
      refine ⟨?_, rfl⟩
      by_cases h_hold : (flight.stream id).holds.get? outgoing.packet.sequence.toNat = none
      · exact h_undone.none_of_none id h_hold
      · obtain ⟨amount, h_frame⟩ := h_held.framed id ((h_held.held_iff id).mp h_hold)
        exact h_undone.cancelled id amount (h id h_hold) h_frame

end Life

/-- A sender whose packets are answered by `reply`, the data of which decrypts to `answer`. -/
def plainSender (reply : ResponseData) (answer : Packet) : SenderEnvironment Unit where
  isServer := false
  sourceAccount := "test.sender"
  sourceAssetCode := "XYZ"
  sourceAssetScale := 9
  decryptAndDeserialize _ := some answer
  generateFulfillment data := data
  hash preimage := preimage
  generateReceiptHMAC _ _ := List.replicate 32 0
  writeUInt8 n := if n < 256 then .ok (UInt8.ofNat n) else .error "Number is too large"
  respond _ c := (c, false)
  serializeAndEncrypt _ _ := [1, 2, 3]
  packetByteLength _ := maxDataSize
  frameByteLength _ := 0
  sendData _ _ := some reply
  sameSent _ c := refl_of SameSent c

/-- A sender whose first packet is fulfilled, with the given data. -/
def fulfilledSender (data : Buffer) : SenderEnvironment Unit :=
  plainSender (.fulfill { fulfillment := [1, 2, 3], data := data })
    { sequence := 1, ilpPacketType := .fulfill, prepareAmount := 100, frames := [] }

/-- A connection at rate 1 whose stream 1 may send 100. -/
def fundedConnection : Connection Unit where
  app := ()
  destinationAccount := some "test.receiver"
  closed := false
  connected := true
  exchangeRate := some { Rational.uzero with a := 1 }
  streams :=
    OrderedMap.empty.set (Long.toStreamId 1) { DataAndMoneyStream.created with sendMax := 100 }

theorem fundedConnection_holdsIssued : fundedConnection.HoldsIssued := by
  intro id
  refine stream_induction (P := fun s => ∀ k, s.holds.get? k ≠ none → k < 1) ?_ ?_ id
  · exact fun _ h => absurd rfl h
  · intro p h_mem
    cases List.mem_singleton.mp h_mem
    exact fun _ h => absurd rfl h

/-- A packet of 100 that is fulfilled is paid for, and leaves no hold. -/
theorem loadAndSendPacket_settles_paid :
    ∃ c', (loadAndSendPacket (fulfilledSender [0]).toSendEnvironment).exec fundedConnection =
        (.ok (), c') ∧
      HoldsSettled (fulfilledSender [0]).toSendEnvironment fundedConnection c' := by
  have h_ok : ((loadAndSendPacket (fulfilledSender [0]).toSendEnvironment).exec
      fundedConnection).1 = .ok () := by
    decide +kernel
  have h_exec := exec_of_fst h_ok
  refine ⟨_, h_exec, (loadAndSendPacket_settles _ fundedConnection_holdsIssued h_exec).mpr ?_⟩
  -- the only stream holds the 100 when the reply comes in
  have h_streams : ((awaitReply (fulfilledSender [0]).toSendEnvironment).exec
      fundedConnection).2.streams.entries.map (fun p => (p.2.totalSent, p.2.heldFor 1)) =
        [(0, 100)] := by
    decide +kernel
  obtain ⟨outgoing, flight, h_reply⟩ : ∃ outgoing flight,
      (awaitReply (fulfilledSender [0]).toSendEnvironment).exec fundedConnection =
        (.ok (some (outgoing, .fulfill { fulfillment := [1, 2, 3], data := [0] })), flight) :=
    ⟨_, _, rfl⟩
  rw [h_reply] at h_streams
  unfold SettlesHolds
  rw [h_reply]
  refine stream_induction (P := fun s => s.totalSent.toNat + (s.heldFor 1).toNat < 2 ^ 64) ?_ ?_
  · decide
  · intro p h_mem
    have h_stream := List.mem_map_of_mem (f := fun p => (p.2.totalSent, p.2.heldFor 1)) h_mem
    rw [h_streams] at h_stream
    obtain ⟨h_sent, h_held⟩ := Prod.mk.inj (List.mem_singleton.mp h_stream)
    rw [h_sent, h_held]
    decide

/-- **A Fulfill without data leaves the holds**: the receiver has the money of the packet, while the
stream still holds it and has not sent it. -/
theorem fulfill_without_data_keeps_hold :
    fundedConnection.HoldsIssued ∧
      ∃ c', (loadAndSendPacket (fulfilledSender []).toSendEnvironment).exec fundedConnection =
          (.ok (), c') ∧
        ¬HoldsSettled (fulfilledSender []).toSendEnvironment fundedConnection c' := by
  have h_ok : ((loadAndSendPacket (fulfilledSender []).toSendEnvironment).exec
      fundedConnection).1 = .ok () := by
    decide +kernel
  have h_hold : ((((loadAndSendPacket (fulfilledSender []).toSendEnvironment).exec
      fundedConnection).2.stream (Long.toStreamId 1)).holds.get? 1) = some 100 := by
    decide +kernel
  refine ⟨fundedConnection_holdsIssued, _, exec_of_fst h_ok, fun h_settled => ?_⟩
  have h_none := (h_settled (Long.toStreamId 1)).1
  have h_absurd : some (100 : Long) = none := h_hold.symm.trans h_none
  cases h_absurd

end Interledger.Stream
