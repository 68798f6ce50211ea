import Interledger.Stream.SendPacket

/-!
# The money held for a packet

A packet takes money from the streams of a connection, and each of them holds what it gave under the
sequence number of the packet (`loadPacket`). Nothing else that runs while a packet is under way sends
or holds money: the environment does not (`SenderEnvironment`), and the functions that fill the packet
with frames and data and handle its reply do not either (`SameSent`).

## Main results

* `HeldFor.loadMoney`, `HeldFor.loadPacket` — the streams that hold money for a packet are those it
  takes money from, and each has a frame in it;
* `transmit_sameSent`, `readResponse_sameSent`, … — what sends no money.
-/

namespace Interledger.Stream

open Interledger.Ilp Interledger.Action Long

variable {App : Type}

/-- The money sent and held is as it was, and no sequence number was taken back. -/
structure SameSent (c c' : Connection App) : Prop where
  totalSent : ∀ id, (c'.stream id).totalSent = (c.stream id).totalSent
  holds : ∀ id, (c'.stream id).holds = (c.stream id).holds
  nextPacketSequence : c.nextPacketSequence ≤ c'.nextPacketSequence

instance : IsPreorder (Connection App) SameSent where
  refl _ := ⟨fun _ => rfl, fun _ => rfl, le_rfl⟩
  trans _ _ _ h h' :=
    ⟨fun id => (h'.1 id).trans (h.1 id), fun id => (h'.2 id).trans (h.2 id), h.3.trans h'.3⟩

/-- With the same ledger, nothing was sent or held. -/
theorem SameSent.of_ledger_eq {c c' : Connection App} (h : c'.ledger = c.ledger)
    (h_next : c.nextPacketSequence ≤ c'.nextPacketSequence) : SameSent c c' := by
  have h_account : ∀ id, (c'.stream id).account = (c.stream id).account := by
    intro id
    exact congrFun (congrArg Ledger.account h) id
  refine ⟨fun id => ?_, fun id => ?_, h_next⟩
  · exact congrArg Account.totalSent (h_account id)
  · exact congrArg Account.holds (h_account id)

/-- An environment that sends no money of its own: one packet is under way at a time. -/
structure SenderEnvironment (App : Type) extends SendEnvironment App where
  sameSent : ∀ signal c, SameSent c (respond signal c).1

/-- Every hold has a sequence number that was given out. -/
def Connection.HoldsIssued (c : Connection App) : Prop :=
  ∀ id k, (c.stream id).holds.get? k ≠ none → k < c.nextPacketSequence

theorem SameSent.holdsIssued {c c' : Connection App} (h : SameSent c c') (h_issued : c.HoldsIssued) :
    c'.HoldsIssued := by
  intro id k h_hold
  rw [h.holds id] at h_hold
  exact (h_issued id k h_hold).trans_le h.nextPacketSequence

/-! ### What sends no money -/

section SameSent

variable (env : SenderEnvironment App)

theorem SenderEnvironment.respects : env.toEnvironment.Respects SameSent where
  of_ledger_eq _ _ h h_next := .of_ledger_eq h h_next
  respond := env.sameSent

theorem await_sameSent : Preserves SameSent (await env.toEnvironment) :=
  safeEmit_preserves env.respects.admits _

theorem takeCloseFrames_sameSent : Preserves SameSent (takeCloseFrames : Run App (List Frame)) := by
  refine .bind .get fun c => .ite (fun _ => ?_) fun _ => .pure _
  refine .bind ?_ fun _ => .pure _
  intro c
  exact .of_ledger_eq rfl le_rfl

theorem getExchangeRate_sameSent : Preserves SameSent (getExchangeRate : Run App Rational) := by
  refine .bind .get fun c => ?_
  cases c.exchangeRate with
  | none => exact .throw _
  | some exchangeRate => exact .pure _

/-- Taking data changes no money, whatever the callbacks of the writes do. -/
theorem loadData_sameSent (bytesLeftInPacket : ℤ) (frames : List Frame) (ids : List StreamId) :
    Preserves SameSent (loadData env.toSendEnvironment bytesLeftInPacket frames ids) := by
  induction ids generalizing bytesLeftInPacket frames with
  | nil => exact .pure _
  | cons id ids ih =>
    refine .ite (fun _ => .pure _) fun _ => .bind .get fun c => .bind ?_ fun _ => ?_
    · refine updateStream_preserves env.respects _ fun s => ?_
      unfold DataAndMoneyStream.availableDataToSend
      split
      · split <;> rfl
      · rfl
    · exact .bind (emit_preserves env.respects.admits _) fun _ => .bind .get fun c => ih _ _

theorem stopSending_sameSent (load : Load) : Preserves SameSent (stopSending load : Run App Unit) := by
  intro c
  unfold stopSending
  rw [exec_modify]
  split <;> exact .of_ledger_eq rfl le_rfl

theorem makePacket_sameSent (sequence : ℕ) (exchangeRate : Rational) (load : Load) :
    Preserves SameSent (makePacket env.toSendEnvironment sequence exchangeRate load) := by
  unfold makePacket
  cases env.slippage.complement with
  | none => exact .throw _
  | some complement => exact .pure _

theorem transmit_sameSent (packet : Packet) (sourceAmount : Long) :
    Preserves SameSent (transmit env.toSendEnvironment packet sourceAmount) := by
  refine .bind (await_sameSent env) fun _ => .bind (await_sameSent env) fun _ => ?_
  refine .bind (await_sameSent env) fun _ => .bind .get fun c => .ite (fun _ => .throw _) fun _ => ?_
  refine .bind (emit_preserves env.respects.admits _) fun _ => .bind .get fun c => ?_
  refine .bind (await_sameSent env) fun _ => ?_
  cases env.sendData _ c with
  | none => exact .throw _
  | some response => exact .pure _

theorem handleConnectorError_sameSent (reject : IlpReject) (amountSent : Long) :
    Preserves SameSent (handleConnectorError env.toSendEnvironment reject amountSent) := by
  refine .ite (fun _ => ?_) fun _ => .ite (fun _ => ?_) fun _ => .throw _
  · refine .bind (modify_preserves env.respects (fun _ => rfl) fun _ => le_rfl) fun _ => ?_
    exact .bind .get fun c => .ite (fun _ => .throw _) fun _ => .pure _
  · have h_wait : Preserves SameSent (do
        modify fun c => { c with retryDelay := min (c.retryDelay * 2) retryDelayMax }
        await env.toEnvironment : Run App Unit) := by
      refine .bind (modify_preserves env.respects (fun _ => rfl) fun _ => le_rfl) fun _ => ?_
      exact await_sameSent env
    refine .ite (fun _ => ?_) fun _ => h_wait
    exact .bind (modify_preserves env.respects (fun _ => rfl) fun _ => le_rfl) fun _ => h_wait

theorem readResponse_sameSent (packet : Packet) (type : IlpPacketType) (data : Buffer) :
    Preserves SameSent (readResponse env.toSendEnvironment packet type data) := by
  refine .ite (fun _ => .pure _) fun _ => .bind (await_sameSent env) fun _ => ?_
  cases env.decryptAndDeserialize data with
  | none => exact .throw _
  | some response =>
    exact .ite (fun _ => .throw _) fun _ => .ite (fun _ => .throw _) fun _ => .pure _

theorem setReceipt_sameSent (frame : Frame) : Preserves SameSent (setReceipt frame : Run App Unit) := by
  intro c
  cases frame with
  | streamReceipt streamId receipt =>
    refine Preserves.bind .get (fun c => .ite (fun _ => .pure ()) fun _ => ?_) c
    exact fun c => .of_ledger_eq (ledger_updateStream fun _ => rfl) le_rfl
  | _ => exact refl_of SameSent c

theorem addTotalDelivered_sameSent (value : Long) :
    Preserves SameSent (addTotalDelivered env.toSendEnvironment value) := by
  refine .bind .get fun c => .ite (fun _ => ?_) fun _ => ?_
  · exact .bind env.respects.carries.destroy fun _ => .throw _
  · exact modify_preserves env.respects (fun _ => rfl) fun _ => le_rfl

theorem addTotalSent_sameSent (value : Long) :
    Preserves SameSent (addTotalSent env.toSendEnvironment value) := by
  refine .bind .get fun c => .ite (fun _ => ?_) fun _ => ?_
  · exact .bind env.respects.carries.destroy fun _ => .throw _
  · exact modify_preserves env.respects (fun _ => rfl) fun _ => le_rfl

end SameSent

/-! ### The holds of a packet -/

/-- The streams that hold money under `n` are those the packet was sent from, and a frame of the
packet says so. Nothing was sent since `c₀`. -/
structure HeldFor (n : ℕ) (c₀ c : Connection App) (frames : List Frame) (sentFrom : List StreamId) :
    Prop where
  totalSent : ∀ id, (c.stream id).totalSent = (c₀.stream id).totalSent
  held_iff : ∀ id, (c.stream id).holds.get? n ≠ none ↔ id ∈ sentFrom
  framed : ∀ id ∈ sentFrom, ∃ amount, Frame.streamMoney id.toLong amount ∈ frames

namespace HeldFor

variable {n : ℕ} {c₀ c c' : Connection App} {frames frames' : List Frame} {sentFrom : List StreamId}

theorem sameSent (h : HeldFor n c₀ c frames sentFrom) (h_same : SameSent c c') :
    HeldFor n c₀ c' frames sentFrom where
  totalSent id := (h_same.totalSent id).trans (h.totalSent id)
  held_iff id := by
    rw [h_same.holds id]
    exact h.held_iff id
  framed := h.framed

theorem mono (h : HeldFor n c₀ c frames sentFrom) (h_frames : frames ⊆ frames') :
    HeldFor n c₀ c frames' sentFrom where
  totalSent := h.totalSent
  held_iff := h.held_iff
  framed id h_mem := by
    obtain ⟨amount, h_frame⟩ := h.framed id h_mem
    exact ⟨amount, h_frames h_frame⟩

/-- No stream holds money under a number that was not given out yet. -/
theorem initial (h_issued : c.HoldsIssued) (h_next : c.nextPacketSequence ≤ n) :
    HeldFor n c c frames [] where
  totalSent _ := rfl
  held_iff id := by
    constructor
    · intro h_hold
      exact absurd (h_issued id n h_hold) (not_lt.mpr h_next)
    · nofun
  framed := nofun

/-- A stream that gives money to a packet holds it. -/
theorem holdMoney (h : HeldFor n c₀ c frames sentFrom) {id : StreamId} {amount : Long}
    (h_known : (c.streams.get? id).isSome) (h_pos : amount > 0)
    (h_le : amount ≤ (c.stream id).amountAvailableToSend) :
    HeldFor n c₀ (c.updateStream id fun s => s.holdOutgoing n amount)
      (frames ++ [.streamMoney id.toLong amount]) (sentFrom ++ [id]) where
  totalSent id' := by
    rcases stream_updateStream c id (fun s => s.holdOutgoing n amount) id' with h_eq | ⟨-, h_eq⟩
    · rw [h_eq]
      exact h.totalSent id'
    · rw [h_eq, totalSent_holdOutgoing]
      exact h.totalSent id'
  held_iff id' := by
    rw [List.mem_append, List.mem_singleton]
    by_cases h_id : id' = id
    · -- the stream that pays holds the amount of this packet, and its frame is the last
      rw [h_id, stream_updateStream_self h_known, holds_holdOutgoing h_pos h_le,
        OrderedMap.get?_set_self]
      simp
    · -- any other stream is as it was
      rcases stream_updateStream c id (fun s => s.holdOutgoing n amount) id' with h_eq | ⟨h_eq, -⟩
      · rw [h_eq, h.held_iff id']
        exact (or_iff_left h_id).symm
      · exact absurd h_eq h_id
  framed id' h_mem := by
    rcases List.mem_append.mp h_mem with h_old | h_new
    · obtain ⟨amount', h_frame⟩ := h.framed id' h_old
      exact ⟨amount', List.mem_append_left _ h_frame⟩
    · obtain rfl := List.mem_singleton.mp h_new
      exact ⟨amount, List.mem_append_right _ (List.mem_singleton.mpr rfl)⟩

/-- What the packet takes from a stream, the stream holds. -/
theorem loadStreamMoney {exchangeRate : Rational} {load load' : Load} {id : StreamId}
    (h : HeldFor n c₀ c load.frames load.streamsSentFrom) (h_known : (c.streams.get? id).isSome)
    (h_exec : (loadStreamMoney exchangeRate n load id).exec c = (.ok load', c')) :
    HeldFor n c₀ c' load'.frames load'.streamsSentFrom ∧
      ∀ id', (c'.streams.get? id').isSome = (c.streams.get? id').isSome := by
  unfold Stream.loadStreamMoney getReciprocal at h_exec
  rw [exec_bind_ok (exec_get c)] at h_exec
  cases h_reciprocal : exchangeRate.reciprocal with
  | none =>
    -- a rate of zero has no reciprocal: the loop throws
    rw [h_reciprocal, exec_bind_error (exec_throw c _)] at h_exec
    cases h_exec
  | some reciprocal =>
    rw [h_reciprocal, exec_bind_ok (exec_pure c reciprocal)] at h_exec
    have h_le := amountToSend_le (s := c.stream id) reciprocal load.maxAmountFromNextStream
    generalize (c.stream id).amountToSend reciprocal load.maxAmountFromNextStream = amount
      at h_exec h_le
    unfold Stream.holdMoney at h_exec
    simp only at h_exec
    by_cases h_pos : amount > 0
    · rw [if_pos h_pos] at h_exec
      cases h_exec
      -- a `StreamMoney` frame for the amount held, and at most a `StreamMaxMoney` behind it
      refine ⟨(h.holdMoney h_known h_pos h_le).mono (List.subset_append_left _ _), fun id' => ?_⟩
      exact isSome_get?_updateStream c id _ id'
    · -- nothing is taken: at most a frame is added
      rw [if_neg h_pos] at h_exec
      cases h_exec
      exact ⟨h.mono (List.subset_append_left _ _), fun _ => rfl⟩

/-- **The streams that hold money for a packet** are those it takes money from. -/
theorem loadMoney {exchangeRate : Rational} {load load' : Load} {ids : List StreamId}
    (h : HeldFor n c₀ c load.frames load.streamsSentFrom)
    (h_known : ∀ id ∈ ids, (c.streams.get? id).isSome)
    (h_exec : (loadMoney exchangeRate n load ids).exec c = (.ok load', c')) :
    HeldFor n c₀ c' load'.frames load'.streamsSentFrom := by
  induction ids generalizing c load with
  | nil =>
    cases h_exec
    exact h
  | cons id ids ih =>
    unfold Stream.loadMoney at h_exec
    rw [exec_bind_ok (exec_get c)] at h_exec
    have h_tail : ∀ id' ∈ ids, (c.streams.get? id').isSome :=
      fun id' h_mem => h_known id' (List.mem_cons_of_mem _ h_mem)
    by_cases h_end : (c.stream id).sentEnd = true
    · rw [if_pos h_end] at h_exec
      -- a stream that was ended is skipped
      exact ih h h_tail h_exec
    rw [if_neg h_end] at h_exec
    obtain ⟨load₁, c₁, h_first, h_rest⟩ := exec_bind_eq_ok.mp h_exec
    obtain ⟨h₁, h_same⟩ := h.loadStreamMoney (h_known id List.mem_cons_self) h_first
    by_cases h_full : load₁.maxAmountFromNextStream = 0
    · rw [if_pos h_full] at h_rest
      cases h_rest
      -- the packet is full: the streams that remain are not asked
      exact h₁
    · rw [if_neg h_full] at h_rest
      refine ih h₁ (fun id' h_mem => ?_) h_rest
      rw [h_same id']
      exact h_tail id' h_mem

end HeldFor

/-- **The streams that hold money for a packet** when it is ready to be sent. -/
theorem HeldFor.loadPacket {env : SenderEnvironment App} {c c' : Connection App}
    {outgoing : Option OutgoingPacket} (h_issued : c.HoldsIssued)
    (h_exec : (loadPacket env.toSendEnvironment).exec c = (.ok outgoing, c')) :
    match outgoing with
    | none => HeldFor c.nextPacketSequence c c' [] []
    | some o =>
      HeldFor c.nextPacketSequence c c' o.packet.frames o.streamsSentFrom ∧
        o.packet.sequence.toNat = c.nextPacketSequence := by
  unfold Stream.loadPacket at h_exec
  obtain ⟨n, c₁, h_sequence, h_exec⟩ := exec_bind_eq_ok.mp h_exec
  obtain ⟨rfl, h_max, rfl⟩ := exec_getNextPacketSequence h_sequence
  obtain ⟨queuedFrames, c₂, h_queued, h_exec⟩ := exec_bind_eq_ok.mp h_exec
  rw [exec_bind_ok (exec_get c₂)] at h_exec
  obtain ⟨closeFrames, c₃, h_close, h_exec⟩ := exec_bind_eq_ok.mp h_exec
  obtain ⟨exchangeRate, c₄, h_rate, h_exec⟩ := exec_bind_eq_ok.mp h_exec
  obtain ⟨load, c₅, h_load, h_exec⟩ := exec_bind_eq_ok.mp h_exec
  rw [exec_bind_ok (exec_get c₅)] at h_exec
  obtain ⟨frames, c₆, h_data, h_exec⟩ := exec_bind_eq_ok.mp h_exec
  obtain ⟨_, c₇, h_stop, h_exec⟩ := exec_bind_eq_ok.mp h_exec
  -- up to the money loop nothing is held, and no stream comes or goes
  have h_streams : c₄.streams = c₂.streams := by
    have h₃ := streams_takeCloseFrames c₂
    have h₄ := exec_getExchangeRate c₃
    rw [h_close] at h₃
    rw [h_rate] at h₄
    rw [← h₃]
    exact congrArg Connection.streams h₄
  have h_before : SameSent c c₄ := by
    have h_taken : SameSent c { c with nextPacketSequence := c.nextPacketSequence + 1 } :=
      .of_ledger_eq rfl (Nat.le_succ _)
    refine trans_of SameSent h_taken ?_
    refine trans_of SameSent ((takeQueuedFrames_preserves env.respects.admits).of_exec h_queued) ?_
    refine trans_of SameSent (takeCloseFrames_sameSent.of_exec h_close) ?_
    exact getExchangeRate_sameSent.of_exec h_rate
  have h_loaded : HeldFor c.nextPacketSequence c c₅ load.frames load.streamsSentFrom := by
    refine ((HeldFor.initial h_issued le_rfl).sameSent h_before).loadMoney (fun id h_mem => ?_) h_load
    rw [h_streams]
    exact isSome_of_mem_records h_mem
  -- after it, frames are added
  have h_after : SameSent c₅ c₇ := by
    refine trans_of SameSent ((loadData_sameSent env _ _ _).of_exec h_data) ?_
    exact (stopSending_sameSent _).of_exec h_stop
  have h_held : HeldFor c.nextPacketSequence c c₇ frames load.streamsSentFrom := by
    refine (h_loaded.sameSent h_after).mono fun frame h_mem => ?_
    exact subset_loadData h_data (List.mem_append_left _ h_mem)
  by_cases h_empty : load.amountToSend = 0 ∧ frames = []
  · rw [if_pos h_empty] at h_exec
    cases h_exec
    -- a packet without frames takes no money
    have h_none : load.streamsSentFrom = [] := by
      refine List.eq_nil_iff_forall_not_mem.mpr fun id h_mem => ?_
      obtain ⟨amount, h_frame⟩ := h_held.framed id h_mem
      rw [h_empty.2] at h_frame
      cases h_frame
    rw [h_empty.2, h_none] at h_held
    exact h_held
  · rw [if_neg h_empty] at h_exec
    -- only the amounts of the Prepare depend on the rate
    obtain ⟨o, c₈, h_make, h_exec⟩ := exec_bind_eq_ok.mp h_exec
    cases h_exec
    unfold makePacket at h_make
    cases h_complement : env.slippage.complement with
    | none =>
      rw [h_complement] at h_make
      cases h_make
    | some complement =>
      rw [h_complement] at h_make
      cases h_make
      exact ⟨h_held, toNat_fromNumber (h_max.trans (by norm_num))⟩

/-- What holds of a new stream and of every stream there is. -/
theorem stream_induction {App : Type} {P : DataAndMoneyStream → Prop} {c : Connection App}
    (h_created : P .created) (h : ∀ p ∈ c.streams.entries, P p.2) (id : StreamId) :
    P (c.stream id) := by
  unfold Connection.stream
  cases h_get : c.streams.get? id with
  | none => exact h_created
  | some s => exact h (id, s) (OrderedMap.mem_entries.mpr h_get)

end Interledger.Stream
