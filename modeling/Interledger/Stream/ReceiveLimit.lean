import Interledger.Stream.IncomingHold
import Interledger.Stream.MultiplyDivide

/-!
# The limit of a stream

`handlePrepare` compares the amount of each `StreamMoney` frame with what its stream can receive
(`_getAmountStreamCanReceive`, and one per cent more), and credits the streams later. The comparison
says nothing about the sum of two frames for one stream, and nothing about what another packet
credits to the stream while `shouldFulfill` is pending.

Where a packet has at most one frame with money for a stream, and the stream has the total it had at
the check, the amount is within the limit: the limit itself is only raised in the meantime.

## Main results

* `toNat_allowableReceiveExtra` — the limit is computed exactly, up to saturation;
* `received_credit_le` — what crediting a packet adds to a stream;
* `never_beyond_limit` — the limit, in every run whose packets are credited as they were checked;
* `two_frames_exceed_limit` — two frames for one stream.
-/

namespace Interledger.Stream

open Interledger.Ilp Interledger.Action Long

variable {App : Type}

/-- `⌈1.01 · (receiveMax - totalReceived)⌉`, nothing once the limit was passed. -/
def allowance (receiveMax totalReceived : Long) : ℕ :=
  (receiveMax.toNat - totalReceived.toNat) * 101 ⌈/⌉ 100

/-- The amounts for one stream together. -/
def creditedTo (id : StreamId) (amounts : List (StreamId × Long)) : ℕ :=
  ((amounts.filter fun p => p.1 = id).map fun p => p.2.toNat).sum

/-- No two amounts other than zero are for the same stream. -/
def DistinctStreams (amounts : List (StreamId × Long)) : Prop :=
  ((amounts.filter fun p => p.2 ≠ 0).map Prod.fst).Nodup
  deriving Decidable

/-! ### The arithmetic of the limit -/

/-- `allowableReceiveExtra` is multiplied without a rounding error, up to saturation. -/
theorem toNat_allowableReceiveExtra (l : Long) :
    (allowableReceiveExtra.multiplyByLongCeil l).toNat = min (l.toNat * 101 ⌈/⌉ 100) (2 ^ 64 - 1) := by
  have h_exact : MultiplyDivideExact l 101 100 :=
    .of_share (by decide) (by decide) (by decide)
  exact h_exact.multiplyByLongCeil (by decide)

/-- A higher limit allows more. -/
theorem allowance_mono {receiveMax receiveMax' totalReceived : Long} (h : receiveMax ≤ receiveMax') :
    allowance receiveMax totalReceived ≤ allowance receiveMax' totalReceived := by
  have h_le : receiveMax.toNat ≤ receiveMax'.toNat := h
  have h_left : (receiveMax.toNat - totalReceived.toNat) * 101 ≤
      (receiveMax'.toNat - totalReceived.toNat) * 101 :=
    Nat.mul_le_mul_right _ (Nat.sub_le_sub_right h_le _)
  unfold allowance
  rw [Nat.ceilDiv_eq_add_pred_div, Nat.ceilDiv_eq_add_pred_div]
  exact Nat.div_le_div_right (Nat.sub_le_sub_right (Nat.add_le_add_right h_left _) _)

/-- A checked amount is within the allowance of its stream. -/
theorem Checked.le_allowance {c : Connection App} {prepare : IlpPrepare} {p : StreamId × Long}
    (h : Checked c prepare p) :
    p.2.toNat ≤ allowance (c.stream p.1).receiveMax (c.stream p.1).totalReceived := by
  have h_le : p.2.toNat ≤
      (allowableReceiveExtra.multiplyByLongCeil (c.stream p.1).amountStreamCanReceive).toNat :=
    h.amount_le
  rw [toNat_allowableReceiveExtra, DataAndMoneyStream.toNat_amountStreamCanReceive] at h_le
  exact h_le.trans (Nat.min_le_left _ _)

/-! ### Crediting -/

section Credited

variable {id : StreamId} {amounts : List (StreamId × Long)}

theorem creditedTo_cons (p : StreamId × Long) :
    creditedTo id (p :: amounts) = (if p.1 = id then p.2.toNat else 0) + creditedTo id amounts := by
  unfold creditedTo
  by_cases h_id : p.1 = id
  · rw [if_pos h_id, List.filter_cons_of_pos (by simpa using h_id), List.map_cons, List.sum_cons]
  · rw [if_neg h_id, List.filter_cons_of_neg (by simpa using h_id), Nat.zero_add]

/-- A stream without an amount other than zero gets nothing. -/
theorem creditedTo_eq_zero (h : id ∉ (amounts.filter fun p => p.2 ≠ 0).map Prod.fst) :
    creditedTo id amounts = 0 := by
  induction amounts with
  | nil => rfl
  | cons p amounts ih =>
    rw [creditedTo_cons]
    by_cases h_zero : p.2 = 0
    · rw [List.filter_cons_of_neg (by simpa using h_zero)] at h
      rw [ih h, h_zero]
      exact ite_self 0
    · rw [List.filter_cons_of_pos (by simpa using h_zero), List.map_cons, List.mem_cons, not_or] at h
      rw [ih h.2, if_neg (Ne.symm h.1)]

/-- With one amount for each stream, a bound on each is a bound on what the stream gets. -/
theorem creditedTo_le {bound : ℕ} (h_distinct : DistinctStreams amounts)
    (h : ∀ p ∈ amounts, p.1 = id → p.2.toNat ≤ bound) : creditedTo id amounts ≤ bound := by
  unfold DistinctStreams at h_distinct
  induction amounts with
  | nil => exact Nat.zero_le _
  | cons p amounts ih =>
    have h_rest : ∀ q ∈ amounts, q.1 = id → q.2.toNat ≤ bound :=
      fun q hq => h q (List.mem_cons_of_mem _ hq)
    rw [creditedTo_cons]
    by_cases h_zero : p.2 = 0
    · rw [List.filter_cons_of_neg (by simpa using h_zero)] at h_distinct
      have h_nothing : (if p.1 = id then p.2.toNat else 0) = 0 := by
        rw [h_zero]
        exact ite_self 0
      rw [h_nothing, Nat.zero_add]
      exact ih h_distinct h_rest
    · rw [List.filter_cons_of_pos (by simpa using h_zero), List.map_cons, List.nodup_cons] at h_distinct
      by_cases h_id : p.1 = id
      · -- the stream gets this amount and no other
        rw [if_pos h_id, creditedTo_eq_zero (h_id ▸ h_distinct.1), Nat.add_zero]
        exact h p List.mem_cons_self h_id
      · rw [if_neg h_id, Nat.zero_add]
        exact ih h_distinct.2 h_rest

end Credited

section Receiver

variable {env : ReceiverEnvironment App} {request : Request} {prepare : IlpPrepare}
  {outcome : Outcome} {amounts : List (StreamId × Long)} {c c' : Connection App}
  {s t : Receiver App} {i : ℕ}

/-- Crediting one amount. -/
theorem received_creditStream_le (env : ReceiverEnvironment App) (c : Connection App) (p : StreamId × Long) (id : StreamId) :
    ((env.respond (.money p.1 p.2) (c.updateStream p.1 fun s => s.addToIncoming p.2)).1.stream
        id).totalReceived.toNat ≤
      (c.stream id).totalReceived.toNat + if p.1 = id then p.2.toNat else 0 := by
  rw [(env.undisturbed (.money p.1 p.2) _).received id]
  rcases stream_updateStream c p.1 (fun s => s.addToIncoming p.2) id with h | ⟨h_id, h⟩
  · rw [h]
    exact Nat.le_add_right _ _
  · rw [h, if_pos h_id.symm]
    exact DataAndMoneyStream.toNat_addToIncoming_le _

/-- **Crediting a packet** adds at most its amounts for a stream. -/
theorem received_credit_le (env : ReceiverEnvironment App) (amounts : List (StreamId × Long))
    (c : Connection App) (id : StreamId) :
    (((credit env.toEnvironment amounts).exec c).2.stream id).totalReceived.toNat ≤
      (c.stream id).totalReceived.toNat + creditedTo id amounts := by
  unfold credit
  generalize (OrderedMap.empty : OrderedMap StreamId Long) = totals
  induction amounts generalizing c totals with
  | nil => exact Nat.le_add_right _ _
  | cons p amounts ih =>
    have h_first := received_creditStream_le env c p id
    have h_exec := exec_creditStream env.toEnvironment c totals p
    simp only at h_exec
    unfold foldEach
    rw [exec_bind, h_exec, creditedTo_cons]
    by_cases h_threw :
        (env.respond (.money p.1 p.2) (c.updateStream p.1 fun s => s.addToIncoming p.2)).2 = true
    · simp only [if_pos h_threw]
      omega
    · simp only [if_neg h_threw]
      have h_rest := ih
        (env.respond (.money p.1 p.2) (c.updateStream p.1 fun s => s.addToIncoming p.2)).1
        (totals.set p.1 ((env.respond (.money p.1 p.2)
          (c.updateStream p.1 fun s => s.addToIncoming p.2)).1.stream p.1).totalReceived)
      omega

/-- What a fulfilled packet adds to a stream. -/
theorem received_fulfill_le {response : Packet}
    (h : (fulfill env.toEnvironment request amounts).exec c = (.ok response, c')) (id : StreamId) :
    (c'.stream id).totalReceived.toNat ≤
      (c.stream id).totalReceived.toNat + creditedTo id amounts := by
  rcases fulfill_cases env.toEnvironment request amounts c with
    ⟨-, e, c₂, h_exec, -, -⟩ | ⟨-, response', c₁, h_exec, h_ledger⟩
  · rw [h_exec] at h
    cases h
  · rw [h_exec] at h
    cases h
    -- the counters of the connection are no part of a stream
    change (c₁.stream id).totalReceived.toNat ≤ _
    rw [(Undisturbed.of_ledger_eq h_ledger).received id]
    exact received_credit_le env amounts c id

/-! ### Limits are only raised -/

/-- No limit of a stream was lowered. -/
def LimitsKept (c c' : Connection App) : Prop :=
  ∀ id, (c.stream id).receiveMax ≤ (c'.stream id).receiveMax

instance : IsPreorder (Connection App) LimitsKept where
  refl _ _ := BitVec.le_refl _
  trans _ _ _ h h' id := BitVec.le_trans (h id) (h' id)

theorem limitsKept_respects (env : ReceiverEnvironment App) :
    env.toEnvironment.Respects LimitsKept where
  of_ledger_eq _ _ h _ := (Undisturbed.of_ledger_eq h).receiveMax
  respond signal c := (env.undisturbed signal c).receiveMax

/-- Crediting changes no limit. -/
theorem limitsKept_addToIncoming (p : StreamId × Long) :
    LimitsKept c (c.updateStream p.1 fun s => s.addToIncoming p.2) := by
  intro id
  rcases stream_updateStream c p.1 (fun s => s.addToIncoming p.2) id with h | ⟨-, h⟩
  · rw [h]
    exact BitVec.le_refl _
  · rw [h]
    exact BitVec.le_refl _

theorem fulfill_limitsKept (env : ReceiverEnvironment App) (request : Request)
    (amounts : List (StreamId × Long)) : Preserves LimitsKept (fulfill env.toEnvironment request amounts) := by
  have h_credit : Preserves LimitsKept (credit env.toEnvironment amounts) := by
    refine .foldEach (fun totals p _ => ?_) _
    refine .bind (.modify fun c => limitsKept_addToIncoming p) fun _ => ?_
    exact .bind (emit_preserves (limitsKept_respects env).admits _) fun _ => .bind .get fun _ => .pure _
  intro c
  have h_limits := h_credit c
  rcases fulfill_cases env.toEnvironment request amounts c with
    ⟨-, e, c₂, h_exec, -, h_ledger⟩ | ⟨-, response', c₁, h_exec, h_ledger⟩
  · rw [h_exec]
    exact trans_of LimitsKept h_limits (Undisturbed.of_ledger_eq h_ledger).receiveMax
  · rw [h_exec]
    exact trans_of LimitsKept h_limits (Undisturbed.of_ledger_eq h_ledger).receiveMax

theorem settle_limitsKept (env : ReceiverEnvironment App) (request : Request) (outcome : Outcome)
    (amounts : List (StreamId × Long)) :
    Preserves LimitsKept (settle env.toEnvironment request outcome amounts) := by
  cases outcome with
  | resolves => exact fulfill_limitsKept env request amounts
  | rejects =>
    refine .bind (.modify fun c id => BitVec.le_refl _) fun _ => ?_
    exact throwFinalApplicationError_preserves (limitsKept_respects env).admits _
  | throws => exact .throw _

/-- Taking a hold changes no stream. -/
theorem checkAndHold_limitsKept (env : ReceiverEnvironment App) (request : Request) :
    Preserves LimitsKept (checkAndHold env.toEnvironment request) := by
  intro c
  cases h_exec : (checkAndHold env.toEnvironment request).exec c with
  | mk result c' =>
    cases result with
    | error e => exact (checkAndHold_error h_exec).receiveMax
    | ok amounts =>
      obtain ⟨-, rfl, -⟩ := checkAndHold_ok h_exec
      exact fun id => BitVec.le_refl _

/-! ### Calls that wait -/

/-- **The runs whose packets are credited as they were checked.** A packet that is fulfilled has at
most one amount other than zero for a stream, and no other packet was credited to its streams since
it was checked. -/
def CreditedAsChecked (env : Environment App) (s : Receiver App) : ReceiverEvent → Prop
  | .check i =>
    match s.calls[i]? with
    | some (.received request) =>
      match (checkAndHold env request).exec s.connection with
      | (.ok amounts, _) => asksShouldFulfill env request = false → DistinctStreams amounts
      | _ => True
    | _ => True
  | .settle i outcome =>
    match s.calls[i]? with
    | some (.held _ amounts checkedTotals) =>
      outcome = .resolves → DistinctStreams amounts ∧ s.connection.totals amounts = checkedTotals
    | _ => True
  | _ => True

instance (env : Environment App) (s : Receiver App) : DecidablePred (CreditedAsChecked env s)
  | .check i => by
    dsimp only [CreditedAsChecked]
    rcases s.calls[i]? with _ | stage
    · infer_instance
    cases stage with
    | received request =>
      dsimp only
      obtain ⟨result, c⟩ := (checkAndHold env request).exec s.connection
      cases result <;> infer_instance
    | _ => exact .isTrue trivial
  | .settle i outcome => by
    dsimp only [CreditedAsChecked]
    rcases s.calls[i]? with _ | stage
    · infer_instance
    cases stage with
    | held request amounts checkedTotals =>
      dsimp only
      infer_instance
    | _ => exact .isTrue trivial
  | .idle | .receive _ => .isTrue trivial

/-- The amounts of a waiting call are within what its streams could receive when they were checked,
by the limit they have now. -/
def WaitingWithin (c : Connection App) (stage : Stage) : Prop :=
  ∀ request amounts checkedTotals, stage = .held request amounts checkedTotals →
    ∀ q ∈ amounts.zip checkedTotals, q.1.2.toNat ≤ allowance (c.stream q.1.1).receiveMax q.2

/-- Every waiting call is. -/
def AllWaitingWithin (s : Receiver App) : Prop := ∀ stage ∈ s.calls, WaitingWithin s.connection stage

/-- Raising limits keeps the calls within them. -/
theorem WaitingWithin.limitsKept {stage : Stage} (h : WaitingWithin c stage) (h' : LimitsKept c c') :
    WaitingWithin c' stage := by
  intro request amounts checkedTotals h_stage q hq
  exact (h request amounts checkedTotals h_stage q hq).trans (allowance_mono (h' q.1.1))

/-- A call that does not wait has nothing to be within. -/
theorem WaitingWithin.of_not_held {stage : Stage}
    (h : ∀ request amounts checkedTotals, stage ≠ .held request amounts checkedTotals) :
    WaitingWithin c stage :=
  fun request amounts checkedTotals h_stage => absurd h_stage (h request amounts checkedTotals)

/-- A packet is within the limits when it starts to wait. -/
theorem WaitingWithin.of_checked (h : ∀ p ∈ amounts, Checked c request.prepare p) :
    WaitingWithin c (.held request amounts (c.totals amounts)) := by
  intro request' amounts' checkedTotals h_stage q hq
  cases h_stage
  -- the totals noted are those of the streams now
  unfold Connection.totals at hq
  rw [← List.map_prod_left_eq_zip] at hq
  obtain ⟨p, hp, rfl⟩ := List.mem_map.mp hq
  exact (h p hp).le_allowance

namespace AllWaitingWithin

/-- A call goes on. -/
theorem advance {stage : Stage} (h : AllWaitingWithin s) (h_limits : LimitsKept s.connection c)
    (h_stage : WaitingWithin c stage) : AllWaitingWithin (s.advance i stage c) := by
  intro stage' h_mem
  rcases List.mem_or_eq_of_mem_set h_mem with h_mem | rfl
  · exact (h stage' h_mem).limitsKept h_limits
  · exact h_stage

theorem receivePrepare (h : AllWaitingWithin s) :
    AllWaitingWithin (s.receivePrepare env.toEnvironment prepare) := by
  have h_limits := receive_preserves (limitsKept_respects env).carries prepare s.connection
  unfold Receiver.receivePrepare
  cases h_exec : (receive env.toEnvironment prepare).exec s.connection with
  | mk result c =>
    rw [h_exec] at h_limits
    cases result with
    | ok request =>
      intro stage h_mem
      rcases List.mem_append.mp h_mem with h_mem | h_mem
      · exact (h stage h_mem).limitsKept h_limits
      · rw [List.mem_singleton.mp h_mem]
        exact .of_not_held fun _ _ _ h_eq => by cases h_eq
    | error e =>
      intro stage h_mem
      rcases List.mem_append.mp h_mem with h_mem | h_mem
      · exact (h stage h_mem).limitsKept h_limits
      · rw [List.mem_singleton.mp h_mem]
        exact .of_not_held fun _ _ _ h_eq => by cases h_eq

/-- A result of a call is no stage that waits. -/
theorem of_result (amount : Long) (result : Except Thrown Packet) :
    WaitingWithin c (.ofResult amount result) := by
  refine .of_not_held fun _ _ _ h_eq => ?_
  cases result with
  | ok response => cases h_eq
  | error e => cases h_eq

theorem checkCall (h : AllWaitingWithin s) : AllWaitingWithin (s.checkCall env.toEnvironment i request) := by
  have h_limits := checkAndHold_limitsKept env request s.connection
  unfold Receiver.checkCall
  cases h_exec : (checkAndHold env.toEnvironment request).exec s.connection with
  | mk result c =>
    rw [h_exec] at h_limits
    cases result with
    | error e =>
      refine h.advance h_limits (.of_not_held fun _ _ _ h_eq => ?_)
      cases h_eq
    | ok amounts =>
      simp only
      by_cases h_asks : asksShouldFulfill env.toEnvironment request = true
      · rw [if_pos h_asks]
        obtain ⟨-, -, h_checked⟩ := checkAndHold_ok h_exec
        exact h.advance h_limits ((WaitingWithin.of_checked h_checked).limitsKept h_limits)
      · rw [if_neg h_asks]
        have h_later := fulfill_limitsKept env request amounts c
        exact h.advance (trans_of LimitsKept h_limits h_later) (of_result _ _)

theorem settleCall (h : AllWaitingWithin s) :
    AllWaitingWithin (s.settleCall env.toEnvironment i outcome request amounts) :=
  h.advance (settle_limitsKept env request outcome amounts s.connection) (of_result _ _)

theorem step {start : Connection App → Prop} {e : ReceiverEvent} (h : AllWaitingWithin s)
    (h_step : (Receiver.machine start env.toEnvironment).step s e = some t) : AllWaitingWithin t := by
  cases e with
  | idle =>
    obtain rfl := Option.some.inj h_step
    exact fun stage h_mem => (h stage h_mem).limitsKept (env.undisturbed .idle s.connection).receiveMax
  | receive prepare =>
    obtain rfl := Option.some.inj h_step
    exact h.receivePrepare
  | check i =>
    unfold Receiver.machine at h_step
    simp only at h_step
    split at h_step
    · obtain rfl := Option.some.inj h_step
      exact h.checkCall
    · cases h_step
  | settle i outcome =>
    unfold Receiver.machine at h_step
    simp only at h_step
    split at h_step
    · obtain rfl := Option.some.inj h_step
      exact h.settleCall
    · cases h_step

theorem of_reach {start : Connection App → Prop} {ok : Receiver App → ReceiverEvent → Prop}
    (h : (Receiver.machine start env.toEnvironment).Reach ok s) : AllWaitingWithin s := by
  refine h.invariant _ (fun s h_init stage h_mem => ?_) fun _ _ _ _ h_inv _ h_step => h_inv.step h_step
  rw [h_init.1] at h_mem
  cases h_mem

end AllWaitingWithin

/-! ### The limit -/

/-- Every stream has at most its total and its allowance from before. -/
def WithinLimits (c c' : Connection App) : Prop :=
  ∀ id, (c'.stream id).totalReceived.toNat ≤ (c.stream id).totalReceived.toNat +
    allowance (c.stream id).receiveMax (c.stream id).totalReceived

/-- Fulfilling a packet whose amounts are within the limits, one for each stream. -/
theorem fulfill_withinLimits {response : Packet} (h_distinct : DistinctStreams amounts)
    (h_within : ∀ p ∈ amounts,
      p.2.toNat ≤ allowance (c.stream p.1).receiveMax (c.stream p.1).totalReceived)
    (h : (fulfill env.toEnvironment request amounts).exec c = (.ok response, c')) :
    WithinLimits c c' := by
  intro id
  refine (received_fulfill_le h id).trans (Nat.add_le_add_left ?_ _)
  refine creditedTo_le h_distinct fun p hp h_id => ?_
  rw [← h_id]
  exact h_within p hp

/-- Only the call that goes on can become fulfilled. -/
theorem advance_fulfilled {j : ℕ} {stage : Stage} {amount : Long}
    (h : (s.advance j stage c).calls[i]? = some (.fulfilled amount))
    (h_pending : s.calls[i]? ≠ some (.fulfilled amount)) : stage = .fulfilled amount := by
  change (s.calls.set j stage)[i]? = _ at h
  rw [List.getElem?_set] at h
  split at h
  · split at h
    · exact Option.some.inj h
    · cases h
  · exact absurd h h_pending

/-- A packet that is fulfilled right after its check. -/
theorem checkCall_withinLimits {j : ℕ} {amount : Long}
    (h_get : s.calls[j]? = some (.received request))
    (h_ok : CreditedAsChecked env.toEnvironment s (.check j))
    (h : (s.checkCall env.toEnvironment j request).calls[i]? = some (.fulfilled amount))
    (h_pending : s.calls[i]? ≠ some (.fulfilled amount)) :
    WithinLimits s.connection (s.checkCall env.toEnvironment j request).connection := by
  unfold CreditedAsChecked at h_ok
  simp only [h_get] at h_ok
  unfold Receiver.checkCall at h ⊢
  cases h_exec : (checkAndHold env.toEnvironment request).exec s.connection with
  | mk result c =>
    rw [h_exec] at h h_ok
    cases result with
    | error e =>
      -- a call that fails fulfills nothing
      have h_stage := advance_fulfilled h h_pending
      cases h_stage
    | ok amounts =>
      simp only at h h_ok ⊢
      -- nor does one that waits for the application
      by_cases h_asks : asksShouldFulfill env.toEnvironment request = true
      · rw [if_pos h_asks] at h
        have h_stage := advance_fulfilled h h_pending
        cases h_stage
      rw [if_neg h_asks] at h ⊢
      -- what the check has found holds when the packet is fulfilled
      obtain ⟨-, rfl, h_checked⟩ := checkAndHold_ok h_exec
      cases h_fulfill : (fulfill env.toEnvironment request amounts).exec
        { s.connection with
          incomingHold := (s.connection.nextIncomingHold request.prepare.amount).1 } with
      | mk result c =>
        rw [h_fulfill] at h
        have h_stage := advance_fulfilled h h_pending
        cases result with
        | error e => cases h_stage
        | ok response =>
          have h_distinct := h_ok (Bool.not_eq_true _ ▸ h_asks)
          -- the hold is no part of a stream
          have h_limits := fulfill_withinLimits (c := { s.connection with
              incomingHold := (s.connection.nextIncomingHold request.prepare.amount).1 })
            h_distinct (fun p hp => (h_checked p hp).le_allowance) h_fulfill
          exact h_limits

/-- A packet that is fulfilled once `shouldFulfill` resolved. -/
theorem settleCall_withinLimits {j : ℕ} {amount : Long} {checkedTotals : List Long}
    (h_waiting : AllWaitingWithin s) (h_get : s.calls[j]? = some (.held request amounts checkedTotals))
    (h_ok : CreditedAsChecked env.toEnvironment s (.settle j outcome))
    (h : (s.settleCall env.toEnvironment j outcome request amounts).calls[i]? = some (.fulfilled amount))
    (h_pending : s.calls[i]? ≠ some (.fulfilled amount)) :
    WithinLimits s.connection (s.settleCall env.toEnvironment j outcome request amounts).connection := by
  unfold CreditedAsChecked at h_ok
  simp only [h_get] at h_ok
  unfold Receiver.settleCall at h ⊢
  cases h_settle : (settle env.toEnvironment request outcome amounts).exec s.connection with
  | mk result c =>
    rw [h_settle] at h
    have h_stage := advance_fulfilled h h_pending
    cases result with
    | error e => cases h_stage
    | ok response =>
      -- only a `shouldFulfill` that resolves leads to a response
      cases outcome with
      | rejects => cases h_settle
      | throws => cases h_settle
      | resolves =>
        obtain ⟨h_distinct, h_totals⟩ := h_ok rfl
        refine fulfill_withinLimits h_distinct (fun p hp => ?_) h_settle
        have h_within := h_waiting _ (List.mem_of_getElem? h_get) request amounts checkedTotals rfl
        refine h_within (p, (s.connection.stream p.1).totalReceived) ?_
        rw [← h_totals]
        unfold Connection.totals
        rw [← List.map_prod_left_eq_zip]
        exact List.mem_map_of_mem hp

/-- **A stream never receives beyond its limit.** In every run whose packets are credited as they were
checked, each step that fulfills a packet leaves every stream with at most what it had received and
its allowance just before. -/
theorem never_beyond_limit {start : Connection App → Prop} {e : ReceiverEvent} {amount : Long}
    (h : (Receiver.machine start env.toEnvironment).Reach (CreditedAsChecked env.toEnvironment) s)
    (h_ok : CreditedAsChecked env.toEnvironment s e)
    (h_step : (Receiver.machine start env.toEnvironment).step s e = some t)
    (h_fulfilled : t.calls[i]? = some (.fulfilled amount))
    (h_pending : s.calls[i]? ≠ some (.fulfilled amount)) (id : StreamId) :
    (t.connection.stream id).totalReceived.toNat ≤ (s.connection.stream id).totalReceived.toNat +
      allowance (s.connection.stream id).receiveMax (s.connection.stream id).totalReceived := by
  cases e with
  | idle =>
    obtain rfl := Option.some.inj h_step
    -- time alone fulfills nothing
    exact absurd h_fulfilled h_pending
  | receive prepare =>
    obtain rfl := Option.some.inj h_step
    -- a new call is not fulfilled yet
    unfold Receiver.receivePrepare at h_fulfilled
    cases h_exec : (receive env.toEnvironment prepare).exec s.connection with
    | mk result c =>
      rw [h_exec] at h_fulfilled
      cases result with
      | ok request =>
        simp only [List.getElem?_append] at h_fulfilled
        split at h_fulfilled
        · exact absurd h_fulfilled h_pending
        · have h_stage := List.mem_singleton.mp (List.mem_of_getElem? h_fulfilled)
          cases h_stage
      | error e =>
        simp only [List.getElem?_append] at h_fulfilled
        split at h_fulfilled
        · exact absurd h_fulfilled h_pending
        · have h_stage := List.mem_singleton.mp (List.mem_of_getElem? h_fulfilled)
          cases h_stage
  | check j =>
    unfold Receiver.machine at h_step
    simp only at h_step
    split at h_step
    · next request h_get =>
      obtain rfl := Option.some.inj h_step
      exact checkCall_withinLimits h_get h_ok h_fulfilled h_pending id
    · cases h_step
  | settle j outcome =>
    unfold Receiver.machine at h_step
    simp only at h_step
    split at h_step
    · next request amounts checkedTotals h_get =>
      obtain rfl := Option.some.inj h_step
      exact settleCall_withinLimits (.of_reach h) h_get h_ok h_fulfilled h_pending id
    · cases h_step

end Receiver

/-- The packets of two payments to stream 1: the first fills it up to 60 of 100, the second gets the
allowance of 41 for the 40 that are left. -/
theorem never_beyond_limit_twice :
    ∃ s t, (Receiver.machine (fun _ => True)
        (plainEnvironment askingOpts moneyPacket).toEnvironment).Reachable s ∧
      (Receiver.machine (fun _ => True) (plainEnvironment askingOpts moneyPacket).toEnvironment).step
        s (.settle 1 .resolves) = some t ∧
      (s.connection.stream (Long.toStreamId 1)).totalReceived = 60 ∧
      (t.connection.stream (Long.toStreamId 1)).totalReceived.toNat ≤ 60 + 41 := by
  have h : (Receiver.machine (fun _ => True) (plainEnvironment askingOpts moneyPacket).toEnvironment).Reach
      (CreditedAsChecked (plainEnvironment askingOpts moneyPacket).toEnvironment) _ :=
    Machine.reach_of_exec (s := openReceiver)
      [.receive (plainPrepare 60), .check 0, .settle 0 .resolves, .receive (plainPrepare 41), .check 1]
      ⟨rfl, trivial⟩ rfl
  exact ⟨_, _, h.reachable, rfl, rfl,
    never_beyond_limit h (e := .settle 1 .resolves) (i := 1) (by decide) rfl rfl (by decide)
      (Long.toStreamId 1)⟩

/-- A packet with two frames for stream 1. -/
def splitPacket : Packet where
  sequence := 1
  ilpPacketType := .prepare
  prepareAmount := 0
  frames := [.streamMoney 1 1, .streamMoney 1 1]

/-- **Two frames for one stream exceed its limit**: each half of 200 passes for a stream that may
receive 100, and both are credited. -/
theorem two_frames_exceed_limit :
    ∃ s t, (Receiver.machine (fun _ => True) (plainEnvironment plainOpts splitPacket).toEnvironment).Reachable s ∧
      (Receiver.machine (fun _ => True) (plainEnvironment plainOpts splitPacket).toEnvironment).step s
        (.check 0) = some t ∧
      t.calls[0]? = some (.fulfilled 200) ∧
      (s.connection.stream (Long.toStreamId 1)).totalReceived = 0 ∧
      (s.connection.stream (Long.toStreamId 1)).receiveMax = 100 ∧
      (t.connection.stream (Long.toStreamId 1)).totalReceived = 200 ∧
      allowance 100 0 = 101 := by
  have h : (Receiver.machine (fun _ => True) (plainEnvironment plainOpts splitPacket).toEnvironment).Reachable _ :=
    Machine.reach_of_exec (s := openReceiver) [.receive (plainPrepare 200)] ⟨rfl, trivial⟩ rfl
  exact ⟨_, _, h, rfl, rfl, rfl, rfl, rfl, rfl⟩

end Interledger.Stream
