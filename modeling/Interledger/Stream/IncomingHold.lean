import Interledger.Lib.Machine
import Interledger.Lib.Bookkeeping
import Interledger.Stream.HandlePrepare

/-!
# What incoming packets do to the money of a connection

A packet passes through `_incomingHold` on its way to `_totalReceived`. Two things go wrong there.

`addIncomingHold` checks the sum of what was received, what is held and the new amount, and then
stores that sum as the new hold: once anything was received, every hold counts it again. And an error
after the hold, in `shouldFulfill` itself, in a listener of `money` or in a receipt, leaves the hold
and the streams as they are.

The code around a connection may raise limits, open and close streams and send, but it does not touch
what was received (`Undisturbed`); an environment like that is a `ReceiverEnvironment`.

## Main results

* `handlePrepare_restores` — when a rejected packet leaves the money as it was, for one call;
* `incomingHold_accounting` — the two counters and the overflow check, in every run of overlapping
  calls whose holds are taken while nothing was received and then do not fail;
* `declined_hold_stays`, `second_hold_counts_total` — what happens otherwise.
-/

namespace Interledger.Stream

open Interledger.Ilp Interledger.Action Long

variable {App : Type}

/-- The money received is as it was: the counters of the connection and of every stream. -/
structure SameReceived (c c' : Connection App) : Prop where
  incomingHold : c'.incomingHold = c.incomingHold
  totalReceived : c'.totalReceived = c.totalReceived
  received : ∀ id, (c'.stream id).totalReceived = (c.stream id).totalReceived

/-- Nothing was received, and no limit was lowered. -/
structure Undisturbed (c c' : Connection App) : Prop extends SameReceived c c' where
  receiveMax : ∀ id, (c.stream id).receiveMax ≤ (c'.stream id).receiveMax

/-- The counters of the connection are as they were. -/
structure SameTotals (c c' : Connection App) : Prop where
  incomingHold : c'.incomingHold = c.incomingHold
  totalReceived : c'.totalReceived = c.totalReceived

instance : IsPreorder (Connection App) SameReceived where
  refl _ := ⟨rfl, rfl, fun _ => rfl⟩
  trans _ _ _ h h' := ⟨h'.1.trans h.1, h'.2.trans h.2, fun id => (h'.3 id).trans (h.3 id)⟩

instance : IsPreorder (Connection App) Undisturbed where
  refl c := ⟨refl_of SameReceived c, fun _ => BitVec.le_refl _⟩
  trans _ _ _ h h' := ⟨trans_of SameReceived h.1 h'.1, fun id => BitVec.le_trans (h.2 id) (h'.2 id)⟩

instance : IsPreorder (Connection App) SameTotals where
  refl _ := ⟨rfl, rfl⟩
  trans _ _ _ h h' := ⟨h'.1.trans h.1, h'.2.trans h.2⟩

theorem SameReceived.sameTotals {c c' : Connection App} (h : SameReceived c c') : SameTotals c c' :=
  ⟨h.incomingHold, h.totalReceived⟩

/-- With the same ledger, nothing was received. -/
theorem Undisturbed.of_ledger_eq {c c' : Connection App} (h : c'.ledger = c.ledger) :
    Undisturbed c c' := by
  have h_account : ∀ id, (c'.stream id).account = (c.stream id).account :=
    fun id => congrFun (congrArg Ledger.account h) id
  refine ⟨⟨congrArg Ledger.incomingHold h, congrArg Ledger.totalReceived h, fun id => ?_⟩,
    fun id => ?_⟩
  · exact congrArg Account.totalReceived (h_account id)
  · exact BitVec.le_of_eq (congrArg Account.receiveMax (h_account id)).symm

/-- An environment that does not touch what was received. -/
structure ReceiverEnvironment (App : Type) extends Environment App where
  undisturbed : ∀ signal c, Undisturbed c (respond signal c).1

section Receiver

variable (env : ReceiverEnvironment App)

theorem ReceiverEnvironment.respects : env.toEnvironment.Respects Undisturbed where
  of_ledger_eq _ _ h _ := .of_ledger_eq h
  respond := env.undisturbed

theorem ReceiverEnvironment.respects_sameTotals : env.toEnvironment.Respects SameTotals where
  of_ledger_eq _ _ h _ := (Undisturbed.of_ledger_eq h).sameTotals
  respond signal c := (env.undisturbed signal c).sameTotals

variable {env} {request : Request} {prepare : IlpPrepare} {outcome : Outcome}
  {amounts : List (StreamId × Long)} {c c' : Connection App}

/-! ### Before and after the hold -/

/-- Until the hold is taken, an error leaves the money as it was. -/
theorem checkAndHold_error {e : Thrown}
    (h : (checkAndHold env.toEnvironment request).exec c = (.error e, c')) : Undisturbed c c' := by
  unfold checkAndHold at h
  have h_check := check_preserves env.respects request
  rcases exec_bind_eq_error.mp h with h | ⟨amounts, c₁, h_ok, h⟩
  · exact h_check.of_exec h
  rcases exec_bind_eq_error.mp h with h | ⟨_, _, _, h⟩
  · -- the hold overflowed
    rw [exec_addIncomingHold] at h
    split at h
    · cases h
      exact trans_of Undisturbed (h_check.of_exec h_ok) (env.respects.carries.destroy c₁)
    · cases h
  · cases h

/-- Taking the hold: the packet was checked, and the hold did not overflow. -/
theorem checkAndHold_ok
    (h : (checkAndHold env.toEnvironment request).exec c = (.ok amounts, c')) :
    ¬(c.nextIncomingHold request.prepare.amount).2 = true ∧
      c' = { c with incomingHold := (c.nextIncomingHold request.prepare.amount).1 } ∧
      ∀ p ∈ amounts, Checked c request.prepare p := by
  unfold checkAndHold at h
  obtain ⟨amounts', c₁, h_check, h_rest⟩ := exec_bind_eq_ok.mp h
  obtain ⟨rfl, h_checked⟩ := check_ok h_check
  obtain ⟨_, c₂, h_hold, h_rest⟩ := exec_bind_eq_ok.mp h_rest
  cases h_rest
  rw [exec_addIncomingHold] at h_hold
  split at h_hold
  · cases h_hold
  · next h_fits =>
    cases h_hold
    exact ⟨h_fits, rfl, h_checked⟩

/-- Crediting changes no counter of the connection. -/
theorem credit_sameTotals (env : ReceiverEnvironment App) (amounts : List (StreamId × Long))
    (c : Connection App) : SameTotals c ((credit env.toEnvironment amounts).exec c).2 := by
  refine Preserves.foldEach (fun totals p _ => ?_) _ c
  refine .bind (.modify fun c => ⟨rfl, rfl⟩) fun _ => ?_
  exact .bind (emit_preserves env.respects_sameTotals.admits _) fun _ => .bind .get fun _ => .pure _

/-- Crediting nothing to each stream changes nothing. -/
theorem credit_zero (env : ReceiverEnvironment App) (c : Connection App) (h_zero : ∀ p ∈ amounts, p.2 = 0) :
    Undisturbed c ((credit env.toEnvironment amounts).exec c).2 := by
  refine Preserves.foldEach (fun totals p hp => ?_) _ c
  refine .bind (updateStream_preserves env.respects _ fun s => ?_) fun _ => ?_
  · rw [h_zero p hp, DataAndMoneyStream.addToIncoming_zero]
  · exact .bind (emit_preserves env.respects.admits _) fun _ => .bind .get fun _ => .pure _

/-- Accepting a packet: the code around the connection ran, and the hold was taken. -/
theorem accept_ok
    (h : (accept env.toEnvironment prepare).exec c = (.ok (request, amounts), c')) :
    request.prepare = prepare ∧ ∃ c₀, Undisturbed c c₀ ∧
      ¬(c₀.nextIncomingHold prepare.amount).2 = true ∧
      c' = { c₀ with incomingHold := (c₀.nextIncomingHold prepare.amount).1 } ∧
      ∀ p ∈ amounts, Checked c₀ prepare p := by
  unfold accept at h
  obtain ⟨_, c₁, h_idle, h⟩ := exec_bind_eq_ok.mp h
  obtain ⟨request', c₂, h_receive, h⟩ := exec_bind_eq_ok.mp h
  obtain ⟨_, c₃, h_idle', h⟩ := exec_bind_eq_ok.mp h
  obtain ⟨amounts', c₄, h_hold, h⟩ := exec_bind_eq_ok.mp h
  cases h
  obtain rfl := (receive_ok h_receive).1
  obtain ⟨h_fits, h_eq, h_checked⟩ := checkAndHold_ok h_hold
  refine ⟨rfl, c₃, ?_, h_fits, h_eq, h_checked⟩
  -- nothing before the hold touches what was received
  have h₁ : Undisturbed c c₁ := (safeEmit_preserves env.respects.admits .idle).of_exec h_idle
  have h₂ : Undisturbed c₁ c₂ := (receive_preserves env.respects.carries _).of_exec h_receive
  have h₃ : Undisturbed c₂ c₃ := (safeEmit_preserves env.respects.admits .idle).of_exec h_idle'
  exact trans_of Undisturbed h₁ (trans_of Undisturbed h₂ h₃)

/-- A packet that is not accepted leaves the money as it was. -/
theorem accept_error {e : Thrown}
    (h : (accept env.toEnvironment prepare).exec c = (.error e, c')) : Undisturbed c c' := by
  unfold accept at h
  have h_idle : Preserves Undisturbed (await env.toEnvironment) := safeEmit_preserves env.respects.admits _
  have h_receive : Preserves Undisturbed (receive env.toEnvironment prepare) :=
    receive_preserves env.respects.carries prepare
  rcases exec_bind_eq_error.mp h with h | ⟨_, c₁, h_ok₁, h⟩
  · exact h_idle.of_exec h
  have h₁ := h_idle.of_exec h_ok₁
  rcases exec_bind_eq_error.mp h with h | ⟨request, c₂, h_ok₂, h⟩
  · exact trans_of Undisturbed h₁ (h_receive.of_exec h)
  have h₂ := trans_of Undisturbed h₁ (h_receive.of_exec h_ok₂)
  rcases exec_bind_eq_error.mp h with h | ⟨_, c₃, h_ok₃, h⟩
  · exact trans_of Undisturbed h₂ (h_idle.of_exec h)
  have h₃ := trans_of Undisturbed h₂ (h_idle.of_exec h_ok₃)
  rcases exec_bind_eq_error.mp h with h | ⟨amounts, c₄, h_hold, h⟩
  · exact trans_of Undisturbed h₃ (checkAndHold_error h)
  · cases h

/-! ### One call -/

/-- A hold was taken and nothing else received. What it adds to is not only the hold before, but the
total received as well. -/
structure Held (c c₁ : Connection App) (amount : Long) : Prop where
  totalReceived : c₁.totalReceived = c.totalReceived
  received : ∀ id, (c₁.stream id).totalReceived = (c.stream id).totalReceived
  incomingHold : c₁.incomingHold.toNat =
    min (c.totalReceived.toNat + c.incomingHold.toNat) (2 ^ 64 - 1) + amount.toNat

theorem Held.undisturbed {amount : Long} (h : Held c c' amount) {c₂ : Connection App}
    (h' : SameReceived c' c₂) : Held c c₂ amount where
  totalReceived := h'.totalReceived.trans h.totalReceived
  received id := (h'.received id).trans (h.received id)
  incomingHold := h'.incomingHold ▸ h.incomingHold

/-- Accepting a packet takes its hold. -/
theorem Held.of_accept
    (h : (accept env.toEnvironment prepare).exec c = (.ok (request, amounts), c')) :
    Held c c' prepare.amount := by
  obtain ⟨-, c₀, h_before, h_fits, rfl, -⟩ := accept_ok h
  refine ⟨h_before.totalReceived, h_before.received, ?_⟩
  rw [toNat_nextIncomingHold h_fits, h_before.totalReceived, h_before.incomingHold]

/-- The hold that `addIncomingHold` starts from is the old one only when nothing was received, or when
there is no room left at all. -/
theorem heldBase_eq_iff (T H : Long) :
    min (T.toNat + H.toNat) (2 ^ 64 - 1) = H.toNat ↔ T = 0 ∨ H = maxUnsignedValue := by
  have h_lt := H.isLt
  rw [← BitVec.toNat_inj, ← BitVec.toNat_inj, toNat_maxUnsignedValue]
  have h_zero : (0 : Long).toNat = 0 := rfl
  rw [h_zero]
  omega

/-- A hold that is released again leaves the base it was added to. -/
theorem Held.removeIncomingHold {amount : Long} (h : Held c c' amount) :
    (c'.removeIncomingHold amount).incomingHold.toNat =
      min (c.totalReceived.toNat + c.incomingHold.toNat) (2 ^ 64 - 1) := by
  have h_le : amount.toNat ≤ c'.incomingHold.toNat := by
    rw [h.incomingHold]
    exact Nat.le_add_left _ _
  unfold Connection.removeIncomingHold
  rw [toNat_checkedSubtract h_le, h.incomingHold, Nat.add_sub_cancel]

/-- What an error after the hold must not disturb, for the money to be as it was: the hold is for
nothing and counts nothing else. -/
def NothingHeld (c : Connection App) (amount : Long) : Prop :=
  amount = 0 ∧ (c.totalReceived = 0 ∨ c.incomingHold = maxUnsignedValue)

/-- **Fulfilling** restores the money, when it fails, exactly if nothing is held. -/
theorem fulfill_restores (h : Held c c' request.prepare.amount)
    (h_zero : request.prepare.amount = 0 → ∀ p ∈ amounts, p.2 = 0) :
    (∀ e c₂, (fulfill env.toEnvironment request amounts).exec c' = (.error e, c₂) →
        SameReceived c c₂) ↔
      (FulfillFails env.toEnvironment amounts c' → NothingHeld c request.prepare.amount) := by
  rcases fulfill_cases env.toEnvironment request amounts c' with
    ⟨h_fails, e, c₂, h_exec, -, h_ledger⟩ | ⟨h_not, response, c₁, h_exec, -⟩
  · -- a call that fails has changed neither hold nor total
    have h_totals : SameTotals c' c₂ :=
      trans_of SameTotals (credit_sameTotals env amounts c') (Undisturbed.of_ledger_eq h_ledger).sameTotals
    constructor
    · intro h_same _
      have h_hold := congrArg BitVec.toNat (h_same e c₂ h_exec).incomingHold
      rw [h_totals.incomingHold, h.incomingHold] at h_hold
      -- the hold grew by the amount and by what was received
      have h_amount : request.prepare.amount.toNat = 0 := by
        have h_lt := c.incomingHold.isLt
        omega
      refine ⟨BitVec.eq_of_toNat_eq h_amount, (heldBase_eq_iff _ _).mp ?_⟩
      rw [h_amount, Nat.add_zero] at h_hold
      exact h_hold
    · intro h_nothing e' c₂' h_exec'
      rw [h_exec] at h_exec'
      cases h_exec'
      obtain ⟨h_amount, h_base⟩ := h_nothing h_fails
      -- with nothing held there was nothing to credit either
      have h_credit := credit_zero env c' (h_zero h_amount)
      have h_same := trans_of Undisturbed h_credit (Undisturbed.of_ledger_eq h_ledger)
      have h_held := h.undisturbed h_same.toSameReceived
      refine ⟨BitVec.eq_of_toNat_eq ?_, h_held.totalReceived, h_held.received⟩
      rw [h_held.incomingHold, (heldBase_eq_iff _ _).mpr h_base, h_amount]
      rfl
  · constructor
    · exact fun _ h_fails => absurd h_fails h_not
    · intro _ e c₂ h_exec'
      rw [h_exec] at h_exec'
      cases h_exec'

/-- When the money is as before after an accepted packet was rejected: a declined one needs that
nothing was received yet, and no error after the hold is undone, unless nothing is held. -/
def Restorable (env : Environment App) (outcome : Outcome) (request : Request)
    (amounts : List (StreamId × Long)) (c c₁ : Connection App) : Prop :=
  if asksShouldFulfill env request then
    match outcome with
    | .resolves => ¬FulfillFails env amounts (env.respond .idle c₁).1
    | .rejects => c.totalReceived = 0
    | .throws => False
  else FulfillFails env amounts c₁ → NothingHeld c request.prepare.amount

/-- The rest of the call, from the hold on. -/
theorem respond_restores (h : Held c c' request.prepare.amount)
    (h_zero : request.prepare.amount = 0 → ∀ p ∈ amounts, p.2 = 0) :
    (∀ e c₂, (respond env.toEnvironment outcome request amounts).exec c' = (.error e, c₂) →
        SameReceived c c₂) ↔ Restorable env.toEnvironment outcome request amounts c c' := by
  unfold respond Restorable
  by_cases h_asks : asksShouldFulfill env.toEnvironment request = true
  · rw [if_pos h_asks, if_pos h_asks]
    -- an application is only asked about a packet with an amount
    have h_pos : request.prepare.amount ≠ 0 := by
      rintro h_amount
      unfold asksShouldFulfill at h_asks
      rw [h_amount] at h_asks
      simp at h_asks
    -- other code runs until `shouldFulfill` has settled
    have h_wait : Held c (env.respond .idle c').1 request.prepare.amount :=
      h.undisturbed (env.undisturbed .idle c').toSameReceived
    rw [exec_bind_ok (exec_await _ _)]
    cases outcome with
    | resolves =>
      -- it agrees, and the packet is fulfilled
      refine (fulfill_restores h_wait h_zero).trans (forall_congr' fun _ => ?_)
      exact iff_false_intro fun h_nothing => h_pos h_nothing.1
    | throws =>
      -- it throws, and the hold stays
      refine iff_false_intro fun h_same => ?_
      have h_hold := congrArg BitVec.toNat (h_same _ _ rfl).incomingHold
      rw [h_wait.incomingHold] at h_hold
      have h_amount : request.prepare.amount.toNat ≠ 0 := fun h_eq => h_pos (BitVec.eq_of_toNat_eq h_eq)
      have h_lt := c.incomingHold.isLt
      omega
    | rejects =>
      -- the hold is released, down to the base it was added to
      have h_released := h_wait.removeIncomingHold
      have h_amount : request.prepare.amount.toNat ≠ 0 := fun h_eq => h_pos (BitVec.eq_of_toNat_eq h_eq)
      have h_room : c.incomingHold ≠ maxUnsignedValue := by
        intro h_max
        have h_hold := h_wait.incomingHold
        have h_lt := (env.respond .idle c').1.incomingHold.isLt
        rw [h_max, toNat_maxUnsignedValue] at h_hold
        omega
      constructor
      · intro h_same
        have h_hold := congrArg BitVec.toNat (h_same _ _ rfl).incomingHold
        exact ((heldBase_eq_iff _ _).mp (h_released.symm.trans h_hold)).resolve_right h_room
      · rintro h_none e c₂ h_exec
        cases h_exec
        refine ⟨BitVec.eq_of_toNat_eq ?_, h_wait.totalReceived, h_wait.received⟩
        exact h_released.trans ((heldBase_eq_iff _ _).mpr (.inl h_none))
  · rw [if_neg h_asks, if_neg h_asks]
    exact fulfill_restores h h_zero

/-- **When a rejected packet leaves the receiver's money as it was**: when it is not accepted, or when
what follows the hold is restorable. -/
theorem handlePrepare_restores (env : ReceiverEnvironment App) (prepare : IlpPrepare)
    (outcome : Outcome) (c : Connection App) :
    (∀ e c', (handlePrepare env.toEnvironment prepare outcome).exec c = (.error e, c') →
        SameReceived c c') ↔
      ∀ request amounts c₁, (accept env.toEnvironment prepare).exec c = (.ok (request, amounts), c₁) →
        Restorable env.toEnvironment outcome request amounts c c₁ := by
  unfold handlePrepare
  cases h_accept : (accept env.toEnvironment prepare).exec c with
  | mk result c₁ =>
    cases result with
    | error e =>
      constructor
      · intro _ request amounts c₁ h_eq
        cases h_eq
      · intro _ e' c' h_exec
        rw [exec_bind_error h_accept] at h_exec
        cases h_exec
        exact (accept_error h_accept).toSameReceived
    | ok r =>
      obtain ⟨request, amounts⟩ := r
      obtain ⟨rfl, c₀, -, -, -, h_checked⟩ := accept_ok h_accept
      rw [exec_bind_ok h_accept]
      refine (respond_restores (.of_accept h_accept) fun h_zero p hp =>
        (h_checked p hp).amount_eq_zero h_zero).trans ?_
      constructor
      · intro h_restorable request' amounts' c₁' h_eq
        cases h_eq
        exact h_restorable
      · exact fun h_all => h_all request amounts c₁ rfl

end Receiver

/-- An environment for packets of known content: the listeners do nothing, and a fulfillment is the
data itself. -/
def plainEnvironment (opts : ConnectionOpts) (packet : Packet) : ReceiverEnvironment Unit where
  toConnectionOpts := opts
  decryptAndDeserialize _ := some packet
  generateFulfillment data := data
  hash preimage := preimage
  generateReceiptHMAC _ _ := List.replicate 32 0
  writeUInt8 n := if n < 256 then .ok (UInt8.ofNat n) else .error "Number is too large"
  respond _ c := (c, false)
  undisturbed _ c := refl_of Undisturbed c

/-- The options of a server without a `shouldFulfill`. -/
def plainOpts : ConnectionOpts where
  isServer := true
  sourceAccount := "test.receiver"
  sourceAssetCode := "XYZ"
  sourceAssetScale := 9

/-- The options of a server that asks `shouldFulfill`. -/
def askingOpts : ConnectionOpts := { plainOpts with shouldFulfill := true }

/-- A packet with all its money for stream 1. -/
def moneyPacket : Packet where
  sequence := 1
  ilpPacketType := .prepare
  prepareAmount := 0
  frames := [.streamMoney 1 1]

/-- A connection whose stream 1 received 5 of 100. -/
def usedConnection : Connection Unit where
  app := ()
  closed := false
  streams :=
    OrderedMap.empty.set (Long.toStreamId 1)
      { DataAndMoneyStream.created with receiveMax := 100, totalReceived := 5 }
  totalReceived := 5

/-- **A declined packet leaves a hold** of everything received before. -/
theorem declined_hold_stays :
    ∃ e c', (handlePrepare (plainEnvironment askingOpts moneyPacket).toEnvironment
        { amount := 1, executionCondition := [], data := [] } .rejects).exec usedConnection =
          (.error e, c') ∧
      ¬SameReceived usedConnection c' := by
  refine ⟨_, _, rfl, fun h_same => ?_⟩
  have h_hold : (5 : Long) = 0 := h_same.incomingHold
  exact absurd h_hold (by decide)

/-! ### Overlapping calls -/

/-- How far a call of `handlePrepare` got. -/
inductive Stage
  /-- It awaits the fulfillment. -/
  | received (request : Request)
  /-- It took the hold and awaits `shouldFulfill`. Noted with it are the totals that the streams had
  when their amounts were checked. -/
  | held (request : Request) (amountsToReceive : List (StreamId × Long)) (checkedTotals : List Long)
  | fulfilled (amount : Long)
  | rejected (e : Thrown)
  deriving DecidableEq

namespace Stage

/-- The amount of a packet that passed `addIncomingHold` and is neither fulfilled nor rejected. -/
def heldAmount : Stage → ℕ
  | held request _ _ => request.prepare.amount.toNat
  | _ => 0

/-- The amount of a fulfilled packet. -/
def fulfilledAmount : Stage → ℕ
  | fulfilled amount => amount.toNat
  | _ => 0

/-- The stage of a call that ended. -/
def ofResult (amount : Long) : Except Thrown Packet → Stage
  | .ok _ => fulfilled amount
  | .error e => rejected e

end Stage

/-- A connection and the calls of its `handlePrepare` so far. -/
structure Receiver (App : Type) where
  connection : Connection App
  calls : List Stage
  deriving DecidableEq

/-- What happens next. -/
inductive ReceiverEvent
  /-- Other code runs. -/
  | idle
  /-- A packet comes in and is received. -/
  | receive (prepare : IlpPrepare)
  /-- Call `i` goes on with the checks. -/
  | check (i : ℕ)
  /-- `shouldFulfill` settles for call `i`. -/
  | settle (i : ℕ) (outcome : Outcome)
  deriving DecidableEq

/-- A connection that has not received anything yet. -/
def Connection.NothingReceived (c : Connection App) : Prop :=
  c.totalReceived = 0 ∧ c.incomingHold = 0

/-- The totals of the streams of some amounts. -/
def Connection.totals (c : Connection App) (amounts : List (StreamId × Long)) : List Long :=
  amounts.map fun p => (c.stream p.1).totalReceived

namespace Receiver

variable (s : Receiver App)

/-- Call `i` goes on to a stage. -/
def advance (i : ℕ) (stage : Stage) (c : Connection App) : Receiver App where
  connection := c
  calls := s.calls.set i stage

/-- Receive a packet. -/
def receivePrepare (env : Environment App) (prepare : IlpPrepare) : Receiver App :=
  match (receive env prepare).exec s.connection with
  | (.ok request, c) => { connection := c, calls := s.calls ++ [.received request] }
  | (.error e, c) => { connection := c, calls := s.calls ++ [.rejected e] }

/-- Check a received packet and take its hold. Without a `shouldFulfill` to wait for, it is fulfilled
at once. -/
def checkCall (env : Environment App) (i : ℕ) (request : Request) : Receiver App :=
  match (checkAndHold env request).exec s.connection with
  | (.error e, c) => s.advance i (.rejected e) c
  | (.ok amounts, c) =>
    if asksShouldFulfill env request then
      s.advance i (.held request amounts (s.connection.totals amounts)) c
    else
      let (result, c) := (fulfill env request amounts).exec c
      s.advance i (.ofResult request.prepare.amount result) c

/-- `shouldFulfill` settled. -/
def settleCall (env : Environment App) (i : ℕ) (outcome : Outcome) (request : Request)
    (amounts : List (StreamId × Long)) : Receiver App :=
  let (result, c) := (Stream.settle env request outcome amounts).exec s.connection
  s.advance i (.ofResult request.prepare.amount result) c

/-- Overlapping calls of `handlePrepare`, on the connections that runs may start from. -/
def machine (start : Connection App → Prop) (env : Environment App) :
    Machine (Receiver App) ReceiverEvent where
  init s := s.calls = [] ∧ start s.connection
  step s
    | .idle => some { s with connection := (env.respond .idle s.connection).1 }
    | .receive prepare => some (s.receivePrepare env prepare)
    | .check i =>
      match s.calls[i]? with
      | some (.received request) => some (s.checkCall env i request)
      | _ => none
    | .settle i outcome =>
      match s.calls[i]? with
      | some (.held request amounts _) => some (s.settleCall env i outcome request amounts)
      | _ => none

/-- **The runs whose counters are right.** A hold is taken only while nothing was received, and what
follows a hold does not fail, unless the hold is for nothing. -/
def SoundHolds (env : Environment App) (s : Receiver App) : ReceiverEvent → Prop
  | .check i =>
    match s.calls[i]? with
    | some (.received request) =>
      match (checkAndHold env request).exec s.connection with
      | (.ok amounts, c) =>
        s.connection.totalReceived = 0 ∧
          (asksShouldFulfill env request = false → FulfillFails env amounts c →
            request.prepare.amount = 0)
      | _ => True
    | _ => True
  | .settle i outcome =>
    match s.calls[i]? with
    | some (.held _ amounts _) =>
      outcome ≠ .throws ∧ (outcome = .resolves → ¬FulfillFails env amounts s.connection)
    | _ => True
  | _ => True

instance (env : Environment App) (s : Receiver App) (e : ReceiverEvent) :
    Decidable (SoundHolds env s e) := by
  unfold SoundHolds
  split
  · split
    · split <;> infer_instance
    · infer_instance
  · split <;> infer_instance
  · infer_instance

end Receiver

section Accounting

variable {env : ReceiverEnvironment App} {request : Request} {prepare : IlpPrepare}
  {outcome : Outcome} {amounts : List (StreamId × Long)} {c c' : Connection App} {s t : Receiver App}
  {i : ℕ}

/-- Fulfilling moves the amount from the hold to the total. -/
theorem fulfill_ok_totals {response : Packet}
    (h : (fulfill env.toEnvironment request amounts).exec c = (.ok response, c')) :
    c'.incomingHold = (checkedSubtract c.incomingHold request.prepare.amount).1 ∧
      c'.totalReceived = (checkedAdd c.totalReceived request.prepare.amount).1 := by
  rcases fulfill_cases env.toEnvironment request amounts c with
    ⟨-, e, c₂, h_exec, -, -⟩ | ⟨-, response', c₁, h_exec, h_ledger⟩
  · rw [h_exec] at h
    cases h
  · rw [h_exec] at h
    cases h
    obtain ⟨h_hold, h_total⟩ := trans_of SameTotals (credit_sameTotals env amounts c)
      (Undisturbed.of_ledger_eq h_ledger).sameTotals
    unfold Connection.addTotalReceived Connection.removeIncomingHold
    rw [h_hold, h_total]
    exact ⟨rfl, rfl⟩

/-- When it fails, the counters stay, and the error is none of an overflow. -/
theorem fulfill_error_totals {e : Thrown}
    (h : (fulfill env.toEnvironment request amounts).exec c = (.error e, c')) :
    FulfillFails env.toEnvironment amounts c ∧ SameTotals c c' ∧ ∀ message, e ≠ .badRequest message := by
  rcases fulfill_cases env.toEnvironment request amounts c with
    ⟨h_fails, e', c₂, h_exec, h_ne, h_ledger⟩ | ⟨-, response, c₁, h_exec, -⟩
  · rw [h_exec] at h
    cases h
    refine ⟨h_fails, ?_, h_ne⟩
    exact trans_of SameTotals (credit_sameTotals env amounts c)
      (Undisturbed.of_ledger_eq h_ledger).sameTotals
  · rw [h_exec] at h
    cases h

/-- The counters of a connection account for its calls. -/
structure Accounted (s : Receiver App) : Prop where
  incomingHold : s.connection.incomingHold.toNat = (s.calls.map Stage.heldAmount).sum
  totalReceived : s.connection.totalReceived.toNat = (s.calls.map Stage.fulfilledAmount).sum
  fits : s.connection.totalReceived.toNat + s.connection.incomingHold.toNat < 2 ^ 64

namespace Accounted

theorem initial (h : (Receiver.machine Connection.NothingReceived env.toEnvironment).init s) : Accounted s := by
  obtain ⟨h_calls, h_total, h_hold⟩ := h
  refine ⟨?_, ?_, ?_⟩
  · rw [h_hold, h_calls]
    rfl
  · rw [h_total, h_calls]
    rfl
  · rw [h_total, h_hold]
    decide

/-- Other code changes no counter. -/
theorem undisturbed (h : Accounted s) (h_same : SameTotals s.connection c) :
    Accounted { s with connection := c } := by
  obtain ⟨h_hold, h_total⟩ := h_same
  refine ⟨?_, ?_, ?_⟩
  · rw [h_hold]
    exact h.incomingHold
  · rw [h_total]
    exact h.totalReceived
  · rw [h_hold, h_total]
    exact h.fits

/-- A call goes on: the counters change by what its stage adds to them and takes off. -/
theorem advance {old stage : Stage} (h : Accounted s) (h_get : s.calls[i]? = some old)
    (h_hold : c.incomingHold.toNat + old.heldAmount =
      s.connection.incomingHold.toNat + stage.heldAmount)
    (h_total : c.totalReceived.toNat + old.fulfilledAmount =
      s.connection.totalReceived.toNat + stage.fulfilledAmount)
    (h_fits : c.totalReceived.toNat + c.incomingHold.toNat < 2 ^ 64) :
    Accounted (s.advance i stage c) := by
  have h_held := sum_map_set Stage.heldAmount h_get stage
  have h_fulfilled := sum_map_set Stage.fulfilledAmount h_get stage
  have h₁ := h.incomingHold
  have h₂ := h.totalReceived
  refine ⟨?_, ?_, h_fits⟩
  · change c.incomingHold.toNat = ((s.calls.set i stage).map Stage.heldAmount).sum
    omega
  · change c.totalReceived.toNat = ((s.calls.set i stage).map Stage.fulfilledAmount).sum
    omega

/-- Receiving a packet takes no hold. -/
theorem receivePrepare (h : Accounted s) :
    Accounted (s.receivePrepare env.toEnvironment prepare) := by
  have h_same := receive_preserves env.respects_sameTotals.carries prepare s.connection
  unfold Receiver.receivePrepare
  cases h_exec : (receive env.toEnvironment prepare).exec s.connection with
  | mk result c =>
    rw [h_exec] at h_same
    have h_next := h.undisturbed h_same
    cases result with
    | ok request =>
      refine ⟨?_, ?_, h_next.fits⟩
      · rw [List.map_append, List.sum_append]
        exact h_next.incomingHold
      · rw [List.map_append, List.sum_append]
        exact h_next.totalReceived
    | error e =>
      refine ⟨?_, ?_, h_next.fits⟩
      · rw [List.map_append, List.sum_append]
        exact h_next.incomingHold
      · rw [List.map_append, List.sum_append]
        exact h_next.totalReceived

/-- A hold taken while nothing was received adds the amount to the hold. -/
theorem nextIncomingHold (h : Accounted s) (h_none : s.connection.totalReceived = 0) {value : Long}
    (h_fits : ¬(s.connection.nextIncomingHold value).2 = true) :
    (s.connection.nextIncomingHold value).1.toNat =
      s.connection.incomingHold.toNat + value.toNat := by
  have h_zero : s.connection.totalReceived.toNat = 0 := by
    rw [h_none]
    rfl
  have h_sum := h.fits
  rw [toNat_nextIncomingHold h_fits, h_zero, Nat.zero_add, Nat.min_eq_left]
  omega

/-- The sum of hold, total and amount is what the overflow check compares. -/
theorem overflow_iff (h : Accounted s) (value : Long) :
    (s.connection.nextIncomingHold value).2 = true ↔
      2 ^ 64 - 1 < s.connection.totalReceived.toNat + s.connection.incomingHold.toNat + value.toNat := by
  have h_sum := h.fits
  rw [nextIncomingHold_overflow, Nat.min_eq_left (by omega)]
  omega

/-- Checking a packet and taking its hold. -/
theorem checkCall (h : Accounted s) (h_get : s.calls[i]? = some (.received request))
    (h_ok : Receiver.SoundHolds env.toEnvironment s (.check i)) :
    Accounted (s.checkCall env.toEnvironment i request) := by
  unfold Receiver.SoundHolds at h_ok
  simp only [h_get] at h_ok
  unfold Receiver.checkCall
  cases h_exec : (checkAndHold env.toEnvironment request).exec s.connection with
  | mk result c =>
    rw [h_exec] at h_ok
    cases result with
    | error e =>
      -- the check fails, before the hold
      have h_same := (checkAndHold_error h_exec).sameTotals
      have h_next := h.undisturbed h_same
      refine h.advance h_get ?_ ?_ h_next.fits
      · rw [h_same.incomingHold]
        rfl
      · rw [h_same.totalReceived]
        rfl
    | ok amounts =>
      -- the amount is added to what is held, and nothing was received before
      obtain ⟨h_none, h_later⟩ := h_ok
      obtain ⟨h_fits, rfl, -⟩ := checkAndHold_ok h_exec
      have h_hold := h.nextIncomingHold h_none h_fits
      have h_zero : s.connection.totalReceived.toNat = 0 := by
        rw [h_none]
        rfl
      have h_lt := (s.connection.nextIncomingHold request.prepare.amount).1.isLt
      simp only
      by_cases h_asks : asksShouldFulfill env.toEnvironment request = true
      · -- it waits with its hold
        rw [if_pos h_asks]
        refine h.advance h_get h_hold rfl ?_
        rw [h_zero, Nat.zero_add]
        exact h_lt
      · rw [if_neg h_asks]
        -- it is fulfilled at once
        cases h_fulfill : (fulfill env.toEnvironment request amounts).exec
          { s.connection with
            incomingHold := (s.connection.nextIncomingHold request.prepare.amount).1 } with
        | mk result c =>
          cases result with
          | ok response =>
            -- the hold is released and the amount credited
            obtain ⟨h_hold', h_total'⟩ := fulfill_ok_totals h_fulfill
            have h_le : request.prepare.amount.toNat ≤
                (s.connection.nextIncomingHold request.prepare.amount).1.toNat :=
              h_hold ▸ Nat.le_add_left _ _
            have h_released : c.incomingHold.toNat = s.connection.incomingHold.toNat := by
              rw [h_hold', toNat_checkedSubtract h_le, h_hold, Nat.add_sub_cancel]
            have h_credited : c.totalReceived.toNat = request.prepare.amount.toNat := by
              rw [h_total', toNat_checkedAdd, h_zero, Nat.zero_add]
              exact Nat.min_eq_left (Nat.le_sub_one_of_lt request.prepare.amount.isLt)
            refine h.advance h_get ?_ ?_ ?_
            · exact h_released
            · rw [h_credited, h_zero]
              exact Nat.add_comm _ _
            · change c.totalReceived.toNat + c.incomingHold.toNat < _
              omega
          | error e =>
            -- nothing was held
            obtain ⟨h_fails, h_same, -⟩ := fulfill_error_totals h_fulfill
            have h_amount := h_later (Bool.not_eq_true _ ▸ h_asks) h_fails
            have h_kept : c.incomingHold.toNat = s.connection.incomingHold.toNat := by
              rw [h_same.incomingHold, h_hold, h_amount]
              rfl
            have h_total : c.totalReceived = s.connection.totalReceived := h_same.totalReceived
            refine h.advance h_get ?_ ?_ ?_
            · exact h_kept
            · rw [h_total]
              rfl
            · rw [h_kept, h_total]
              exact h.fits

/-- What follows the hold. -/
theorem settleCall {totals : List Long} (h : Accounted s)
    (h_get : s.calls[i]? = some (.held request amounts totals))
    (h_ok : Receiver.SoundHolds env.toEnvironment s (.settle i outcome)) :
    Accounted (s.settleCall env.toEnvironment i outcome request amounts) := by
  unfold Receiver.SoundHolds at h_ok
  simp only [h_get] at h_ok
  obtain ⟨h_throws, h_resolves⟩ := h_ok
  have h_le : request.prepare.amount.toNat ≤ s.connection.incomingHold.toNat := by
    rw [h.incomingHold, sum_map_eraseIdx Stage.heldAmount h_get]
    exact Nat.le_add_right _ _
  have h_sum := h.fits
  unfold Receiver.settleCall
  cases outcome with
  | throws => exact absurd rfl h_throws
  | rejects =>
    refine h.advance h_get ?_ rfl ?_
    · change (checkedSubtract s.connection.incomingHold request.prepare.amount).1.toNat + _ = _
      rw [toNat_checkedSubtract h_le]
      exact Nat.sub_add_cancel h_le
    · change s.connection.totalReceived.toNat +
        (checkedSubtract s.connection.incomingHold request.prepare.amount).1.toNat < _
      rw [toNat_checkedSubtract h_le]
      omega
  | resolves =>
    change Accounted (match (fulfill env.toEnvironment request amounts).exec s.connection with
      | (result, c) => s.advance i (.ofResult request.prepare.amount result) c)
    cases h_fulfill : (fulfill env.toEnvironment request amounts).exec s.connection with
    | mk result c =>
      cases result with
      | error e => exact absurd (fulfill_error_totals h_fulfill).1 (h_resolves rfl)
      | ok response =>
        obtain ⟨h_hold', h_total'⟩ := fulfill_ok_totals h_fulfill
        have h_released : c.incomingHold.toNat + request.prepare.amount.toNat =
            s.connection.incomingHold.toNat := by
          rw [h_hold', toNat_checkedSubtract h_le]
          exact Nat.sub_add_cancel h_le
        have h_credited : c.totalReceived.toNat =
            s.connection.totalReceived.toNat + request.prepare.amount.toNat := by
          rw [h_total', toNat_checkedAdd]
          exact Nat.min_eq_left (by omega)
        refine h.advance h_get h_released h_credited ?_
        omega

theorem step {e : ReceiverEvent} (h : Accounted s) (h_ok : Receiver.SoundHolds env.toEnvironment s e)
    (h_step : (Receiver.machine Connection.NothingReceived env.toEnvironment).step s e = some t) : Accounted t := by
  cases e with
  | idle =>
    obtain rfl := Option.some.inj h_step
    exact h.undisturbed (env.undisturbed .idle s.connection).sameTotals
  | receive prepare =>
    obtain rfl := Option.some.inj h_step
    exact h.receivePrepare
  | check i =>
    unfold Receiver.machine at h_step
    simp only at h_step
    split at h_step
    · next request h_get =>
      obtain rfl := Option.some.inj h_step
      exact h.checkCall h_get h_ok
    · cases h_step
  | settle i outcome =>
    unfold Receiver.machine at h_step
    simp only at h_step
    split at h_step
    · next request amounts totals h_get =>
      obtain rfl := Option.some.inj h_step
      exact h.settleCall h_get h_ok
    · cases h_step

theorem of_reach
    (h : (Receiver.machine Connection.NothingReceived env.toEnvironment).Reach
      (Receiver.SoundHolds env.toEnvironment) s) :
    Accounted s :=
  h.invariant _ (fun _ h_init => initial h_init) fun _ _ _ _ h_inv h_ok h_step => h_inv.step h_ok h_step

/-- A packet that passes the checks is refused for overflow exactly when the total, the holds and its
amount exceed the largest `Long`. -/
theorem refused_iff (h : Accounted s) (h_get : s.calls[i]? = some (.received request))
    (h_check : (check env.toEnvironment request).exec s.connection = (.ok amounts, c')) :
    (s.checkCall env.toEnvironment i request).calls[i]? =
        some (.rejected (.badRequest "Total received exceeded MaxUint64")) ↔
      2 ^ 64 - 1 < s.connection.totalReceived.toNat + s.connection.incomingHold.toNat +
        request.prepare.amount.toNat := by
  have h_advance : ∀ (stage : Stage) (c : Connection App), (s.advance i stage c).calls[i]? = some stage :=
    fun stage c => List.getElem?_set_self (List.getElem?_eq_some_iff.mp h_get).1
  rw [← h.overflow_iff]
  obtain ⟨rfl, -⟩ := check_ok h_check
  unfold Receiver.checkCall checkAndHold
  rw [exec_bind_ok h_check, exec_bind, exec_addIncomingHold]
  by_cases h_overflow : (s.connection.nextIncomingHold request.prepare.amount).2 = true
  · rw [if_pos h_overflow]
    simp only [h_advance, h_overflow]
  · rw [if_neg h_overflow]
    refine iff_of_false ?_ h_overflow
    simp only [exec_pure]
    by_cases h_asks : asksShouldFulfill env.toEnvironment request = true
    · rw [if_pos h_asks, h_advance]
      intro h_eq
      cases h_eq
    · rw [if_neg h_asks]
      cases h_fulfill : (fulfill env.toEnvironment request amounts).exec
        { s.connection with
          incomingHold := (s.connection.nextIncomingHold request.prepare.amount).1 } with
      | mk result c =>
        simp only [h_advance]
        intro h_eq
        cases result with
        | ok response => cases h_eq
        | error e =>
          -- errors after the hold are not about overflows
          cases h_eq
          exact (fulfill_error_totals h_fulfill).2.2 _ rfl

end Accounted

/-- **The accounting of incoming packets.** In every run with sound holds, `_incomingHold` is the sum
of the packets that are held, `_totalReceived` the sum of those fulfilled, and a packet that passes
the checks is refused for overflow exactly when it would exceed the largest `Long`. -/
theorem incomingHold_accounting
    (h : (Receiver.machine Connection.NothingReceived env.toEnvironment).Reach
      (Receiver.SoundHolds env.toEnvironment) s) :
    s.connection.incomingHold.toNat = (s.calls.map Stage.heldAmount).sum ∧
      s.connection.totalReceived.toNat = (s.calls.map Stage.fulfilledAmount).sum ∧
      ∀ i request amounts c t, s.calls[i]? = some (.received request) →
        (check env.toEnvironment request).exec s.connection = (.ok amounts, c) →
        (Receiver.machine Connection.NothingReceived env.toEnvironment).step s (.check i) = some t →
        (t.calls[i]? = some (.rejected (.badRequest "Total received exceeded MaxUint64")) ↔
          2 ^ 64 - 1 < s.connection.totalReceived.toNat + s.connection.incomingHold.toNat +
            request.prepare.amount.toNat) := by
  have h_accounted := Accounted.of_reach h
  refine ⟨h_accounted.incomingHold, h_accounted.totalReceived, ?_⟩
  intro i request amounts c t h_get h_check h_step
  unfold Receiver.machine at h_step
  simp only [h_get] at h_step
  obtain rfl := Option.some.inj h_step
  exact h_accounted.refused_iff h_get h_check

end Accounting

/-- A server with one stream that may receive 100. -/
def openReceiver : Receiver Unit where
  connection :=
    { app := (), closed := false
      streams :=
        OrderedMap.empty.set (Long.toStreamId 1)
          { DataAndMoneyStream.created with receiveMax := 100 } }
  calls := []

/-- A Prepare that `plainEnvironment` finds unaltered. -/
def plainPrepare (amount : Long) : IlpPrepare where
  amount := amount
  executionCondition := []
  data := []

/-- Two packets of 3 and 4 overlap; the first is fulfilled and the second declined. -/
theorem incomingHold_accounting_overlapping :
    ∃ s, (Receiver.machine Connection.NothingReceived
        (plainEnvironment askingOpts moneyPacket).toEnvironment).Reachable s ∧
      s.connection.totalReceived = 3 ∧
      s.connection.incomingHold.toNat = (s.calls.map Stage.heldAmount).sum ∧
      s.connection.totalReceived.toNat = (s.calls.map Stage.fulfilledAmount).sum := by
  have h : (Receiver.machine Connection.NothingReceived
      (plainEnvironment askingOpts moneyPacket).toEnvironment).Reach
      (Receiver.SoundHolds (plainEnvironment askingOpts moneyPacket).toEnvironment) _ :=
    Machine.reach_of_exec (s := openReceiver)
      [.receive (plainPrepare 3), .receive (plainPrepare 4), .check 0, .check 1, .settle 0 .resolves,
        .settle 1 .rejects] ⟨rfl, rfl, rfl⟩ rfl
  have h_accounting := incomingHold_accounting h
  exact ⟨_, h.reachable, rfl, h_accounting.1, h_accounting.2.1⟩

/-- **A later hold counts the total as well**: once 5 were received, a packet of 1 that waits for
`shouldFulfill` makes the hold 6. -/
theorem second_hold_counts_total :
    ∃ s, (Receiver.machine Connection.NothingReceived
        (plainEnvironment askingOpts moneyPacket).toEnvironment).Reachable s ∧
      s.connection.incomingHold = 6 ∧ (s.calls.map Stage.heldAmount).sum = 1 := by
  have h : (Receiver.machine Connection.NothingReceived
      (plainEnvironment askingOpts moneyPacket).toEnvironment).Reachable _ :=
    Machine.reach_of_exec (s := openReceiver)
      [.receive (plainPrepare 5), .check 0, .settle 0 .resolves, .receive (plainPrepare 1), .check 1]
      ⟨rfl, rfl, rfl⟩ rfl
  exact ⟨_, h, rfl, rfl⟩

end Interledger.Stream
