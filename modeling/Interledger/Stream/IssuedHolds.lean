import Interledger.Stream.OutgoingHold

/-!
# Holds are issued

Every hold has the sequence number of a packet that was sent (`Connection.HoldsIssued`). Taking a
number and holding money under it keeps this, and settling a reply only takes holds away.

## Main results

* `loadPacket_keepsIssued`, `settleReply_staysIssued` — the two halves of sending a packet;
* `Connection.HoldsIssued.loadAndSendPacket` — holds stay issued, however sending a packet ends.
-/

namespace Interledger.Stream

open Interledger.Ilp Interledger.Action Long

variable {App : Type}

/-- Once the number `n` was given out it stays so, and holds remain issued. -/
def KeepsIssued (n : ℕ) (c c' : Connection App) : Prop :=
  n < c.nextPacketSequence → n < c'.nextPacketSequence ∧ (c.HoldsIssued → c'.HoldsIssued)

instance (n : ℕ) : IsPreorder (Connection App) (KeepsIssued n) where
  refl _ h := ⟨h, id⟩
  trans _ _ _ h h' h_n :=
    have h_mid := h h_n
    ⟨(h' h_mid.1).1, fun h_issued => (h' h_mid.1).2 (h_mid.2 h_issued)⟩

/-- Holds remain issued. -/
def StaysIssued (c c' : Connection App) : Prop := c.HoldsIssued → c'.HoldsIssued

instance : IsPreorder (Connection App) StaysIssued where
  refl _ := id
  trans _ _ _ h h' := h' ∘ h

theorem SameSent.keepsIssued {n : ℕ} {c c' : Connection App} (h : SameSent c c') :
    KeepsIssued n c c' :=
  fun h_n => ⟨h_n.trans_le h.nextPacketSequence, h.holdsIssued⟩

/-- A change to a stream that adds no hold but under numbers that were given out. -/
theorem Connection.HoldsIssued.updateStream {c : Connection App} {id : StreamId}
    {f : DataAndMoneyStream → DataAndMoneyStream} (h_issued : c.HoldsIssued)
    (hf : ∀ s k, (f s).holds.get? k ≠ none → k < c.nextPacketSequence ∨ s.holds.get? k ≠ none) :
    (c.updateStream id f).HoldsIssued := by
  intro id' k h_hold
  rcases stream_updateStream c id f id' with h | ⟨-, h⟩
  · rw [h] at h_hold
    exact h_issued id' k h_hold
  · rw [h] at h_hold
    rcases hf _ k h_hold with h_new | h_old
    · exact h_new
    · exact h_issued id' k h_old

theorem holdOutgoing_adds (n : ℕ) (amount : Long) (s : DataAndMoneyStream) (k : ℕ)
    (h : (s.holdOutgoing n amount).holds.get? k ≠ none) : k = n ∨ s.holds.get? k ≠ none := by
  unfold DataAndMoneyStream.holdOutgoing at h
  simp only at h
  split at h
  · rw [OrderedMap.get?_set] at h
    by_cases h_eq : k = n
    · exact .inl h_eq
    · rw [if_neg h_eq] at h
      exact .inr h
  · exact .inr h

/-- A hold that is left after one was taken away was there before. -/
theorem of_get?_erase {m : OrderedMap ℕ Long} {k k' : ℕ} (h : (m.erase k').get? k ≠ none) :
    m.get? k ≠ none := by
  rw [OrderedMap.get?_erase] at h
  by_cases h_eq : k = k'
  · rw [if_pos h_eq] at h
    exact absurd rfl h
  · rw [if_neg h_eq] at h
    exact h

theorem cancelHold_adds (m : ℕ) (s : DataAndMoneyStream) (k : ℕ)
    (h : (s.cancelHold m).holds.get? k ≠ none) : s.holds.get? k ≠ none := by
  unfold DataAndMoneyStream.cancelHold at h
  split at h
  · exact h
  · exact of_get?_erase h

theorem executeHold_adds (m : ℕ) (s : DataAndMoneyStream) (k : ℕ)
    (h : (s.executeHold m).holds.get? k ≠ none) : s.holds.get? k ≠ none := by
  unfold DataAndMoneyStream.executeHold at h
  split at h
  · exact h
  · exact of_get?_erase h

section Issued

variable (env : SenderEnvironment App) (n : ℕ)

theorem loadStreamMoney_keepsIssued (exchangeRate : Rational) (load : Load) (id : StreamId) :
    Preserves (KeepsIssued n) (loadStreamMoney exchangeRate n load id : Run App Load) := by
  refine .bind .get fun c => .bind ?_ fun reciprocal => .bind ?_ fun load => .pure _
  · unfold getReciprocal
    cases exchangeRate.reciprocal with
    | none => exact .throw _
    | some reciprocal => exact .pure _
  · refine .ite (fun _ => .bind ?_ fun _ => .pure _) fun _ => .pure _
    intro c h_n
    refine ⟨h_n, fun h_issued => h_issued.updateStream fun s k h_hold => ?_⟩
    -- the hold that is added has the number that was just taken
    refine (holdOutgoing_adds n _ s k h_hold).imp_left fun h_eq => ?_
    exact h_eq ▸ h_n

theorem loadMoney_keepsIssued (exchangeRate : Rational) (load : Load) (ids : List StreamId) :
    Preserves (KeepsIssued n) (loadMoney exchangeRate n load ids : Run App Load) := by
  induction ids generalizing load with
  | nil => exact .pure _
  | cons id ids ih =>
    refine .bind .get fun c => .ite (fun _ => ih load) fun _ => ?_
    refine .bind (loadStreamMoney_keepsIssued n exchangeRate load id) fun load => ?_
    exact .ite (fun _ => .pure _) fun _ => ih load

/-- What a packet does once its number was taken. -/
theorem loadPacket_keepsIssued {c : Connection App} (h_issued : c.HoldsIssued) :
    ((loadPacket env.toSendEnvironment).exec c).2.HoldsIssued := by
  have h_same : ∀ {α : Type} {x : Run App α}, Preserves SameSent x → ∀ n, Preserves (KeepsIssued n) x :=
    fun h _ => h.mono fun _ _ h => h.keepsIssued
  have h_taken : ({ c with nextPacketSequence := c.nextPacketSequence + 1 } : Connection App).HoldsIssued :=
    fun id k h_hold => (h_issued id k h_hold).trans (Nat.lt_succ_self _)
  unfold loadPacket
  rw [exec_bind]
  cases h_sequence : (getNextPacketSequence : Run App ℕ).exec c with
  | mk result c₁ =>
  cases result with
  | error e =>
    -- the number was taken even so
    unfold getNextPacketSequence at h_sequence
    rw [exec_bind_ok (exec_get c), exec_bind_ok (exec_modify c _)] at h_sequence
    split at h_sequence
    · cases h_sequence
      exact h_taken
    · cases h_sequence
  | ok n =>
    obtain ⟨rfl, -, rfl⟩ := exec_getNextPacketSequence h_sequence
    -- after it, only the money loop holds anything
    refine (Preserves.bind (R := KeepsIssued c.nextPacketSequence)
      (h_same (takeQueuedFrames_preserves env.respects.admits) _) (fun queuedFrames => ?_) _
      (Nat.lt_succ_self _)).2 h_taken
    refine .bind .get fun c' => .bind (h_same takeCloseFrames_sameSent _) fun closeFrames => ?_
    refine .bind (h_same getExchangeRate_sameSent _) fun exchangeRate => ?_
    refine .bind (loadMoney_keepsIssued _ _ _ _) fun load => .bind .get fun c'' => ?_
    refine .bind (h_same (loadData_sameSent env _ _ _) _) fun frames => ?_
    refine .bind (h_same (stopSending_sameSent _) _) fun _ => .ite (fun _ => .pure _) fun _ => ?_
    exact .bind (h_same (makePacket_sameSent env _ _ _) _) fun outgoing => .pure _

/-- Undoing and executing only take holds away. -/
theorem undoFrame_staysIssued (frame : Frame) :
    Preserves StaysIssued (undoFrame n frame : Run App Unit) := by
  intro c
  cases frame with
  | streamMoney streamId shares =>
    refine Preserves.bind .get (fun c' => .ite (fun _ => .pure ()) fun _ => ?_) c
    exact fun c h => h.updateStream fun s k h_hold => .inr (cancelHold_adds n s k h_hold)
  | streamData streamId offset data =>
    refine Preserves.bind .get (fun c' => .ite (fun _ => .pure ()) fun _ => ?_) c
    exact fun c h => h.updateStream fun s k h_hold => .inr h_hold
  | _ => exact id

theorem executeHold_staysIssued (id : StreamId) :
    Preserves StaysIssued (executeHold env.toSendEnvironment n id) := by
  have h_emit : ∀ signal, Preserves StaysIssued (emit env.toEnvironment signal) :=
    fun signal => (emit_preserves env.respects.admits signal).mono fun _ _ h => h.holdsIssued
  refine .bind .get fun c => ?_
  cases (c.stream id).holds.get? n with
  | none => exact .pure ()
  | some amount =>
    refine .bind ?_ fun _ => .bind (h_emit _) fun _ => .bind .get fun c' => ?_
    · exact fun c h => h.updateStream fun s k h_hold => .inr (executeHold_adds n s k h_hold)
    · exact .ite (fun _ => h_emit _) fun _ => .pure ()

/-- Handling the reply issues no hold. -/
theorem settleReply_staysIssued (outgoing : OutgoingPacket) (response : ResponseData) :
    Preserves StaysIssued (settleReply env.toSendEnvironment outgoing response) := by
  have h_same : ∀ {α : Type} {x : Run App α}, Preserves SameSent x → Preserves StaysIssued x :=
    fun h => h.mono fun _ _ h => h.holdsIssued
  have h_change : ∀ {f : Connection App → Connection App}, (∀ c, (f c).ledger = c.ledger) →
      (∀ c, c.nextPacketSequence ≤ (f c).nextPacketSequence) →
        Preserves StaysIssued (modify f : Run App Unit) :=
    fun hf h_next => h_same (modify_preserves env.respects hf h_next)
  have h_handle : Preserves StaysIssued (handleResponse env.toSendEnvironment outgoing.packet
      outgoing.amountToSend response) := by
    cases response with
    | invalid message => exact .throw _
    | fulfill response =>
      refine .bind (h_same (await_sameSent env)) fun _ => .ite (fun _ => ?_) fun _ => .throw _
      exact h_same (readResponse_sameSent env _ _ _)
    | reject response =>
      -- a reject gives the holds back
      refine .bind (.forEach (undoFrame_staysIssued _) _) fun _ => .ite (fun _ => ?_) fun _ => ?_
      · exact .bind (h_same (handleConnectorError_sameSent env _ _)) fun _ => .pure _
      · exact h_same (readResponse_sameSent env _ _ _)
  refine .bind h_handle fun answer => .bind (h_same (await_sameSent env)) fun _ => ?_
  cases answer with
  | none => exact .pure ()
  | some answer =>
    refine .bind (h_change (fun _ => rfl) fun _ => le_rfl) fun _ => ?_
    refine .bind (h_same (handleControlFrames_preserves env.respects.carries _)) fun _ => ?_
    refine .bind (h_change (fun _ => rfl) fun _ => le_rfl) fun _ => .ite (fun _ => ?_) fun _ => .pure ()
    refine .bind (.forEach (fun frame => h_same (setReceipt_sameSent frame)) _) fun _ => ?_
    -- a response with its receipts turns them into money sent
    refine .bind (.forEach (executeHold_staysIssued env _) _) fun _ => ?_
    refine .bind (h_same (addTotalDelivered_sameSent env _)) fun _ => ?_
    refine .bind (h_same (addTotalSent_sameSent env _)) fun _ => ?_
    exact h_change (fun _ => rfl) fun _ => le_rfl

/-- **Holds are issued**: sending a packet keeps it so, however it ends. -/
theorem Connection.HoldsIssued.loadAndSendPacket {c : Connection App} (h_issued : c.HoldsIssued) :
    ((loadAndSendPacket env.toSendEnvironment).exec c).2.HoldsIssued := by
  have h_same : ∀ {α : Type} {x : Run App α}, Preserves SameSent x → Preserves StaysIssued x :=
    fun h => h.mono fun _ _ h => h.holdsIssued
  have h_load : Preserves StaysIssued (loadPacket env.toSendEnvironment) :=
    fun c h => loadPacket_keepsIssued env h
  refine Preserves.bind (R := StaysIssued) (h_same (await_sameSent env)) (fun _ => ?_) c h_issued
  refine .bind h_load fun outgoing => ?_
  cases outgoing with
  | none => exact .pure ()
  | some outgoing =>
    unfold sendPacket
    simp only
    rw [bind_assoc]
    refine .bind (h_same (transmit_sameSent env _ _)) fun response => ?_
    exact settleReply_staysIssued env outgoing response

end Issued

end Interledger.Stream
