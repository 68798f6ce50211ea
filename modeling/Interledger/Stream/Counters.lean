import Interledger.Stream.MultiplyDivide
import Interledger.Stream.SendPacket

/-!
# The counters of a sender

`_totalSent` and `_totalDelivered` of a connection (`ilp-protocol-stream/src/connection.ts`) are changed by
`addTotalSent` and `addTotalDelivered` only, which `loadAndSendPacket` calls when a packet was fulfilled and
the response of the receiver was read. Everything else that a packet does leaves them as they are, and the
exchange rate with them (`SameCounters`); so does the code around a connection that sends one packet at a
time (`PayingEnvironment`).

A packet asks for a minimum: what it carries at the exchange rate, less the slippage. Both products are
rounded down, and neither is out of range.

## Main results

* `handleControlFrames_sameCounters`, `sendPacket_sameCounters` — what counts nothing;
* `loadPacket_ok` — the number of a packet and the minimum it asks for (`Priced`);
* `Priced.le_minimum` — the minimum is short of the slippage by less than two units;
* `sendPacket_ok` — a response is read from the data of the reply, and answers the packet;
* `applyResponse_counts` — what a response counts.
-/

namespace Interledger.Stream

open Interledger.Ilp Interledger.Action Long

variable {App : Type}

/-- Nothing was counted as sent or delivered, the exchange rate is as it was, and no sequence number was
taken back. -/
structure SameCounters (c c' : Connection App) : Prop where
  totalSent : c'.totalSent = c.totalSent
  totalDelivered : c'.totalDelivered = c.totalDelivered
  exchangeRate : c'.exchangeRate = c.exchangeRate
  nextPacketSequence : c.nextPacketSequence ≤ c'.nextPacketSequence

instance : IsPreorder (Connection App) SameCounters where
  refl _ := ⟨rfl, rfl, rfl, le_rfl⟩
  trans _ _ _ h h' := ⟨h'.1.trans h.1, h'.2.trans h.2, h'.3.trans h.3, h.4.trans h'.4⟩

/-- The code around a connection that counts nothing of its own: one packet is under way at a time. -/
structure PayingEnvironment (App : Type) extends SendEnvironment App where
  sameCounters : ∀ signal c, SameCounters c (respond signal c).1

/-! ### What counts nothing -/

/-- A change of other fields. -/
theorem modify_sameCounters {f : Connection App → Connection App} (hf : ∀ c, SameCounters c (f c)) :
    Preserves SameCounters (modify f : Run App Unit) :=
  .modify hf

theorem updateStream_sameCounters (id : StreamId) (f : DataAndMoneyStream → DataAndMoneyStream) :
    Preserves SameCounters (modify fun c => c.updateStream id f : Run App Unit) :=
  modify_sameCounters fun _ => ⟨rfl, rfl, rfl, le_rfl⟩

theorem queueFrame_sameCounters (frame : Frame) :
    Preserves SameCounters (queueFrame frame : Run App Unit) :=
  modify_sameCounters fun _ => ⟨rfl, rfl, rfl, le_rfl⟩

theorem takeQueuedFrames_sameCounters :
    Preserves SameCounters (takeQueuedFrames : Run App (List Frame)) := by
  refine .bind .get fun _ => .bind ?_ fun _ => .pure _
  exact modify_sameCounters fun _ => ⟨rfl, rfl, rfl, le_rfl⟩

theorem sendConnectionClose_sameCounters :
    Preserves SameCounters (sendConnectionClose : Run App Unit) := by
  refine .bind .get fun c => .ite (fun _ => .pure ()) fun _ => .ite (fun _ => ?_) fun _ => ?_
  · exact modify_sameCounters fun _ => ⟨rfl, rfl, rfl, Nat.le_succ _⟩
  · exact modify_sameCounters fun _ => ⟨rfl, rfl, rfl, Nat.le_succ _⟩

section Control

variable {env : Environment App} (h : ∀ signal c, SameCounters c (env.respond signal c).1)

include h

theorem safeEmit_sameCounters (signal : Signal) : Preserves SameCounters (safeEmit env signal) :=
  modify_sameCounters (h signal)

theorem emit_sameCounters (signal : Signal) : Preserves SameCounters (emit env signal) := by
  intro c
  rw [exec_emit]
  exact h signal c

theorem startSendLoop_sameCounters : Preserves SameCounters (startSendLoop env) := by
  refine .bind .get fun c => .ite (fun _ => ?_) fun _ => ?_
  · exact modify_sameCounters fun _ => ⟨rfl, rfl, rfl, le_rfl⟩
  refine .ite (fun _ => safeEmit_sameCounters h _) fun _ => ?_
  refine .ite (fun _ => safeEmit_sameCounters h _) fun _ => ?_
  refine .bind (modify_sameCounters fun _ => ⟨rfl, rfl, rfl, le_rfl⟩) fun _ => ?_
  exact .ite (fun _ => .pure ()) fun _ => safeEmit_sameCounters h _

theorem destroy_sameCounters : Preserves SameCounters (destroy env) := by
  refine .bind .get fun c => .ite (fun _ => .pure ()) fun _ => ?_
  refine .bind (safeEmit_sameCounters h _) fun _ => ?_
  refine .bind (modify_sameCounters fun _ => ⟨rfl, rfl, rfl, le_rfl⟩) fun _ => ?_
  exact sendConnectionClose_sameCounters

theorem handleStreamClose_sameCounters (streamId : StreamId) (errorMessage : String) :
    Preserves SameCounters (handleStreamClose env streamId errorMessage) := by
  refine .bind .get fun c => ?_
  cases c.record? streamId with
  | none => exact .pure ()
  | some s =>
    refine .ite (fun _ => .pure ()) fun _ => ?_
    refine .bind (updateStream_sameCounters _ _) fun _ => .bind ?_ fun _ => ?_
    · -- the stream is ended or destroyed
      refine .bind (updateStream_sameCounters _ _) fun _ => ?_
      split
      · exact updateStream_sameCounters _ _
      · exact safeEmit_sameCounters h _
    · refine .bind (modify_sameCounters fun _ => ⟨rfl, rfl, rfl, le_rfl⟩) fun _ => .bind .get fun _ => ?_
      exact .bind (queueFrame_sameCounters _) fun _ => startSendLoop_sameCounters h

theorem readIncoming_sameCounters (streamId : StreamId) (rounds size : ℕ) :
    Preserves SameCounters (readIncoming env streamId rounds size) := by
  induction rounds generalizing size with
  | zero => exact .pure ()
  | succ rounds ih =>
    refine .bind .get fun c => ?_
    cases (c.stream streamId).incomingData.read.1 with
    | none => exact .pure ()
    | some data =>
      refine .bind (updateStream_sameCounters _ _) fun _ => .bind (emit_sameCounters h _) fun _ => ?_
      exact .ite (fun _ => ih _) fun _ => .pure ()

theorem handleNewAddress_sameCounters (sourceAccount : String) :
    Preserves SameCounters (handleNewAddress env sourceAccount) := by
  refine .bind .get fun c => .bind (queueFrame_sameCounters _) fun _ => ?_
  refine .bind (queueFrame_sameCounters _) fun _ => ?_
  refine .bind (modify_sameCounters fun _ => ⟨rfl, rfl, rfl, le_rfl⟩) fun _ => ?_
  refine .ite (fun _ => ?_) fun _ => .pure ()
  refine .bind (modify_sameCounters fun _ => ⟨rfl, rfl, rfl, le_rfl⟩) fun _ => ?_
  exact safeEmit_sameCounters h _

/-- The handlers of `StreamMaxMoney` and `StreamMaxData`: a change to a stream, and at most the send loop is
started. -/
theorem handleStreamMaxMoney_sameCounters (streamId : StreamId) (receiveMax totalReceived : Long) :
    Preserves SameCounters (handleStreamMaxMoney env streamId receiveMax totalReceived) := by
  refine .bind .get fun c => ?_
  cases c.record? streamId with
  | none => exact .pure ()
  | some s =>
    refine .bind (updateStream_sameCounters _ _) fun _ => .bind .get fun _ => ?_
    exact .ite (fun _ => startSendLoop_sameCounters h) fun _ => .pure ()

theorem handleStreamMaxData_sameCounters (streamId : StreamId) (newOffset : ℕ) :
    Preserves SameCounters (handleStreamMaxData env streamId newOffset) := by
  refine .bind .get fun c => ?_
  cases c.record? streamId with
  | none => exact .pure ()
  | some s =>
    refine .ite (fun _ => ?_) fun _ => .pure ()
    exact .bind (updateStream_sameCounters _ _) fun _ => startSendLoop_sameCounters h

theorem handleStreamData_sameCounters (streamId : StreamId) (data : Buffer) (offset : ℕ) :
    Preserves SameCounters (handleStreamData env streamId data offset) := by
  refine .bind .get fun c => ?_
  cases c.record? streamId with
  | none => exact .pure ()
  | some s =>
    refine .bind ?_ fun _ => .bind .get fun _ => .ite (fun _ => destroy_sameCounters h) fun _ => .pure ()
    refine .bind (updateStream_sameCounters _ _) fun _ => .bind .get fun _ => ?_
    exact readIncoming_sameCounters h _ _ _

theorem handleControlFrame_sameCounters (frame : Frame) :
    Preserves SameCounters (handleControlFrame env frame) := by
  cases frame with
  | connectionNewAddress sourceAccount => exact handleNewAddress_sameCounters h sourceAccount
  | connectionAssetDetails code scale => exact modify_sameCounters fun _ => ⟨rfl, rfl, rfl, le_rfl⟩
  | connectionClose errorCode _ =>
    refine .bind (modify_sameCounters fun _ => ⟨rfl, rfl, rfl, le_rfl⟩) fun _ => ?_
    exact .ite (fun _ => safeEmit_sameCounters h _) fun _ => destroy_sameCounters h
  | connectionMaxData maxOffset => exact modify_sameCounters fun _ => ⟨rfl, rfl, rfl, le_rfl⟩
  | connectionMaxStreamId maxStreamId => exact modify_sameCounters fun _ => ⟨rfl, rfl, rfl, le_rfl⟩
  | streamClose streamId _ errorMessage => exact handleStreamClose_sameCounters h _ errorMessage
  | streamMaxMoney streamId receiveMax totalReceived =>
    exact handleStreamMaxMoney_sameCounters h _ receiveMax totalReceived
  | streamData streamId offset data => exact handleStreamData_sameCounters h _ data _
  | streamMaxData streamId maxOffset => exact handleStreamMaxData_sameCounters h _ _
  | connectionDataBlocked _ => exact .pure ()
  | connectionStreamIdBlocked _ => exact .pure ()
  | streamMoney _ _ => exact .pure ()
  | streamMoneyBlocked _ _ _ => exact .pure ()
  | streamDataBlocked _ _ => exact .pure ()
  | streamReceipt _ _ => exact .pure ()

/-- **Control frames** count nothing. -/
theorem handleControlFrames_sameCounters (frames : List Frame) :
    Preserves SameCounters (handleControlFrames env frames) :=
  .forEach (handleControlFrame_sameCounters h) frames

end Control

/-! ### A packet is filled -/

section Fill

variable (env : PayingEnvironment App)

theorem await_sameCounters : Preserves SameCounters (await env.toEnvironment) :=
  safeEmit_sameCounters env.sameCounters _

theorem takeCloseFrames_sameCounters :
    Preserves SameCounters (takeCloseFrames : Run App (List Frame)) := by
  refine .bind .get fun c => .ite (fun _ => .bind ?_ fun _ => .pure _) fun _ => .pure _
  exact modify_sameCounters fun _ => ⟨rfl, rfl, rfl, le_rfl⟩

theorem loadStreamMoney_sameCounters (exchangeRate : Rational) (n : ℕ) (load : Load) (id : StreamId) :
    Preserves SameCounters (loadStreamMoney exchangeRate n load id : Run App Load) := by
  refine .bind .get fun c => .bind ?_ fun reciprocal => .bind ?_ fun load => .pure _
  · unfold getReciprocal
    cases exchangeRate.reciprocal with
    | none => exact .throw _
    | some reciprocal => exact .pure _
  · exact .ite (fun _ => .bind (updateStream_sameCounters _ _) fun _ => .pure _) fun _ => .pure _

theorem loadMoney_sameCounters (exchangeRate : Rational) (n : ℕ) (load : Load) (ids : List StreamId) :
    Preserves SameCounters (loadMoney exchangeRate n load ids : Run App Load) := by
  induction ids generalizing load with
  | nil => exact .pure _
  | cons id ids ih =>
    refine .bind .get fun c => .ite (fun _ => ih load) fun _ => ?_
    refine .bind (loadStreamMoney_sameCounters exchangeRate n load id) fun load => ?_
    exact .ite (fun _ => .pure _) fun _ => ih load

theorem loadData_sameCounters (bytesLeftInPacket : ℤ) (frames : List Frame) (ids : List StreamId) :
    Preserves SameCounters (loadData env.toSendEnvironment bytesLeftInPacket frames ids) := by
  induction ids generalizing bytesLeftInPacket frames with
  | nil => exact .pure _
  | cons id ids ih =>
    refine .ite (fun _ => .pure _) fun _ => .bind .get fun c => ?_
    refine .bind (updateStream_sameCounters _ _) fun _ => ?_
    exact .bind (emit_sameCounters env.sameCounters _) fun _ => .bind .get fun c => ih _ _

theorem stopSending_sameCounters (load : Load) :
    Preserves SameCounters (stopSending load : Run App Unit) := by
  intro c
  unfold stopSending
  rw [exec_modify]
  split <;> exact ⟨rfl, rfl, rfl, le_rfl⟩

theorem makePacket_sameCounters (n : ℕ) (exchangeRate : Rational) (load : Load) :
    Preserves SameCounters (makePacket env.toSendEnvironment n exchangeRate load) := by
  unfold makePacket
  cases env.slippage.complement with
  | none => exact .throw _
  | some complement => exact .pure _

/-- Filling a packet counts nothing, however it ends. -/
theorem loadPacket_sameCounters : Preserves SameCounters (loadPacket env.toSendEnvironment) := by
  refine .bind ?_ fun n => .bind takeQueuedFrames_sameCounters fun queuedFrames => .bind .get fun c => ?_
  · -- the number is taken, even if it is the last one
    refine .bind .get fun c => .bind ?_ fun _ => .ite (fun _ => .throw _) fun _ => .pure _
    exact modify_sameCounters fun _ => ⟨rfl, rfl, rfl, Nat.le_succ _⟩
  refine .bind takeCloseFrames_sameCounters fun closeFrames => .bind ?_ fun exchangeRate => ?_
  · intro c
    rw [exec_getExchangeRate]
    exact refl_of SameCounters c
  refine .bind (loadMoney_sameCounters _ _ _ _) fun load => .bind .get fun c => ?_
  refine .bind (loadData_sameCounters env _ _ _) fun frames => .bind (stopSending_sameCounters _) fun _ => ?_
  exact .ite (fun _ => .pure _) fun _ => .bind (makePacket_sameCounters env _ _ _) fun _ => .pure _

end Fill

/-! ### What a packet carries, and asks for -/

/-- A packet carries no more than the receiver's amount can count, and asks for this amount at the exchange
rate, less the slippage. -/
structure Priced (slippage exchangeRate : Rational) (outgoing : OutgoingPacket) : Prop where
  fits : outgoing.amountToSend.toNat * exchangeRate.a.toNat / exchangeRate.b.toNat < 2 ^ 64
  minimum : ∃ complement, slippage.complement = some complement ∧
    outgoing.packet.prepareAmount =
      complement.multiplyByLong (exchangeRate.multiplyByLong outgoing.amountToSend)

/-- A product by a rational with a divisor up to `2 ^ 63` is rounded down when it is in range. -/
theorem toNat_multiplyByLong {r : Rational} {value : Long} (h_b : r.b.toNat ≤ 2 ^ 63)
    (h_fits : value.toNat * r.a.toNat / r.b.toNat < 2 ^ 64) :
    (r.multiplyByLong value).toNat = value.toNat * r.a.toNat / r.b.toNat := by
  have h_remainders : RemaindersFit r.b.toNat 0 r.a.toNat value.toNat := .of_le (toNat_pos r.b_ne) h_b
  have h_exact : MultiplyDivideExact value r.a r.b := .of_fits r.b_ne ⟨h_remainders, .inl h_fits⟩
  obtain ⟨quo, h_quo, h_toNat⟩ := h_exact.floor
  unfold Rational.multiplyByLong
  rw [h_quo, Option.getD_some, h_toNat, saturate]
  exact Nat.min_eq_left (Nat.le_sub_one_of_lt h_fits)

/-- What a packet may carry is in range at the exchange rate. -/
theorem initialMaxAmount_fits (exchangeRate : Rational) (testMaximumPacketAmount : Long) {amount : ℕ}
    (h_le : amount ≤ (initialMaxAmount exchangeRate testMaximumPacketAmount).toNat) :
    amount * exchangeRate.a.toNat / exchangeRate.b.toNat < 2 ^ 64 := by
  have h_pos := toNat_pos exchangeRate.b_ne
  unfold initialMaxAmount at h_le
  by_cases h_rate : exchangeRate.greaterThanOne = true
  · -- at a rate above one the reciprocal bounds the packet
    rw [if_pos h_rate] at h_le
    have h_above : exchangeRate.b.toNat < exchangeRate.a.toNat := by
      simpa [Rational.greaterThanOne, BitVec.lt_def] using h_rate
    have h_a : exchangeRate.a ≠ 0 := by
      intro h_zero
      rw [h_zero] at h_above
      exact absurd h_above (Nat.not_lt_zero _)
    rw [Rational.reciprocal, dif_neg h_a] at h_le
    simp only at h_le
    -- rounding down does not bring it past what the receiver can count
    have h_quotient : maxUnsignedValue.toNat * exchangeRate.b.toNat / exchangeRate.a.toNat < 2 ^ 64 := by
      rw [toNat_maxUnsignedValue]
      refine (Nat.div_le_of_le_mul ?_).trans_lt (by norm_num : 2 ^ 64 - 1 < 2 ^ 64)
      rw [Nat.mul_comm]
      exact Nat.mul_le_mul_right _ h_above.le
    have h_amount : amount ≤ (2 ^ 64 - 1) * exchangeRate.b.toNat / exchangeRate.a.toNat := by
      refine h_le.trans ?_
      rw [toNat_minLong]
      exact (Nat.min_le_right _ _).trans (toNat_multiplyDivideFloor h_a h_quotient).1
    rw [Nat.div_lt_iff_lt_mul h_pos]
    calc amount * exchangeRate.a.toNat
        ≤ (2 ^ 64 - 1) * exchangeRate.b.toNat / exchangeRate.a.toNat * exchangeRate.a.toNat :=
          Nat.mul_le_mul_right _ h_amount
      _ ≤ (2 ^ 64 - 1) * exchangeRate.b.toNat := Nat.div_mul_le_self _ _
      _ < 2 ^ 64 * exchangeRate.b.toNat := Nat.mul_lt_mul_of_pos_right (by norm_num) h_pos
  · -- otherwise less arrives than is sent
    rw [if_neg h_rate] at h_le
    have h_below : exchangeRate.a.toNat ≤ exchangeRate.b.toNat := by
      simpa [Rational.greaterThanOne, BitVec.le_def] using h_rate
    rw [Nat.div_lt_iff_lt_mul h_pos]
    calc amount * exchangeRate.a.toNat
        ≤ testMaximumPacketAmount.toNat * exchangeRate.b.toNat := Nat.mul_le_mul h_le h_below
      _ < 2 ^ 64 * exchangeRate.b.toNat := Nat.mul_lt_mul_of_pos_right testMaximumPacketAmount.isLt h_pos

/-- Two products in a row that are rounded down lose less than two units, for a second factor up to one. -/
theorem mul_le_floor_floor {a b k c : ℕ} (x : ℕ) (h_b : 0 < b) (h_c : 0 < c) (h_k : k ≤ c) :
    k * a * x ≤ c * b * (x * a / b * k / c + 2) := by
  have h_first : x * a ≤ b * (x * a / b + 1) := (Nat.lt_mul_div_succ _ h_b).le
  have h_second : x * a / b * k ≤ c * (x * a / b * k / c + 1) := (Nat.lt_mul_div_succ _ h_c).le
  calc k * a * x
      = k * (x * a) := by ring
    _ ≤ k * (b * (x * a / b + 1)) := Nat.mul_le_mul_left k h_first
    _ = b * (x * a / b * k + k) := by ring
    _ ≤ b * (c * (x * a / b * k / c + 1) + c) := Nat.mul_le_mul_left b (Nat.add_le_add h_second h_k)
    _ = c * b * (x * a / b * k / c + 2) := by ring

/-- **The minimum** is what the packet carries at the exchange rate, less the slippage and less than two
units. -/
theorem Priced.le_minimum {slippage exchangeRate : Rational} {outgoing : OutgoingPacket}
    (h : Priced slippage exchangeRate outgoing) (h_slippage : slippage.b.toNat ≤ 2 ^ 63)
    (h_rate : exchangeRate.b.toNat ≤ 2 ^ 63) :
    (slippage.b.toNat - slippage.a.toNat) * exchangeRate.a.toNat * outgoing.amountToSend.toNat ≤
      slippage.b.toNat * exchangeRate.b.toNat * (outgoing.packet.prepareAmount.toNat + 2) := by
  obtain ⟨h_fits, complement, h_complement, h_minimum⟩ := h
  unfold Rational.complement at h_complement
  -- the slippage is at most one, or there would be no minimum
  by_cases h_above : slippage.a > slippage.b
  · rw [if_pos h_above] at h_complement
    cases h_complement
  rw [if_neg h_above] at h_complement
  obtain rfl := Option.some.inj h_complement
  have h_le : slippage.a.toNat ≤ slippage.b.toNat := by
    simpa [BitVec.lt_def] using h_above
  have h_a : (slippage.b - slippage.a).toNat = slippage.b.toNat - slippage.a.toNat :=
    BitVec.toNat_sub_of_le h_le
  have h_delivered := toNat_multiplyByLong h_rate h_fits
  -- the second product is below the first
  have h_asked : (exchangeRate.multiplyByLong outgoing.amountToSend).toNat *
      (slippage.b - slippage.a).toNat / slippage.b.toNat < 2 ^ 64 := by
    rw [Nat.div_lt_iff_lt_mul (toNat_pos slippage.b_ne), h_a]
    refine (Nat.mul_le_mul_left _ (Nat.sub_le _ _)).trans_lt ?_
    exact Nat.mul_lt_mul_of_pos_right (BitVec.isLt _) (toNat_pos slippage.b_ne)
  have h_prepare : outgoing.packet.prepareAmount.toNat =
      outgoing.amountToSend.toNat * exchangeRate.a.toNat / exchangeRate.b.toNat *
        (slippage.b.toNat - slippage.a.toNat) / slippage.b.toNat := by
    have h_product := toNat_multiplyByLong (r := ⟨slippage.b - slippage.a, slippage.b, slippage.b_ne⟩)
      h_slippage h_asked
    rw [h_minimum, h_product, h_delivered, h_a]
  rw [h_prepare]
  exact mul_le_floor_floor _ (toNat_pos exchangeRate.b_ne) (toNat_pos slippage.b_ne) (Nat.sub_le _ _)

/-- A packet takes no more from a stream than it may still carry. -/
theorem amountToSend_le_max {s : DataAndMoneyStream} (reciprocal : Rational) (maxAmount : Long) :
    (s.amountToSend reciprocal maxAmount).toNat ≤ maxAmount.toNat := by
  have h_min : (minLong s.amountAvailableToSend maxAmount).toNat ≤ maxAmount.toNat := by
    rw [toNat_minLong]
    exact Nat.min_le_right _ _
  unfold DataAndMoneyStream.amountToSend
  simp only
  split
  · next h_less => exact (BitVec.lt_def.mp h_less).le.trans h_min
  · exact h_min

/-- Loading money moves it from what the packet may still carry to what it carries. -/
theorem loadMoney_total {exchangeRate : Rational} {n : ℕ} {load load' : Load} {ids : List StreamId}
    {c c' : Connection App}
    (h_exec : (loadMoney exchangeRate n load ids).exec c = (.ok load', c'))
    (h_fits : load.amountToSend.toNat + load.maxAmountFromNextStream.toNat < 2 ^ 64) :
    load'.amountToSend.toNat + load'.maxAmountFromNextStream.toNat =
      load.amountToSend.toNat + load.maxAmountFromNextStream.toNat := by
  -- induction on the streams
  induction ids generalizing load c with
  | nil =>
    cases h_exec
    rfl
  | cons id ids ih =>
    unfold loadMoney at h_exec
    rw [exec_bind_ok (exec_get c)] at h_exec
    -- a stream that ended is passed over
    by_cases h_end : (c.stream id).sentEnd = true
    · rw [if_pos h_end] at h_exec
      exact ih h_exec h_fits
    rw [if_neg h_end] at h_exec
    obtain ⟨load₁, c₁, h_first, h_rest⟩ := exec_bind_eq_ok.mp h_exec
    -- what one stream holds is taken from what the packet may still carry
    have h_step : load₁.amountToSend.toNat + load₁.maxAmountFromNextStream.toNat =
        load.amountToSend.toNat + load.maxAmountFromNextStream.toNat := by
      unfold loadStreamMoney getReciprocal at h_first
      rw [exec_bind_ok (exec_get c)] at h_first
      cases h_reciprocal : exchangeRate.reciprocal with
      | none =>
        rw [h_reciprocal, exec_bind_error (exec_throw c _)] at h_first
        cases h_first
      | some reciprocal =>
        rw [h_reciprocal, exec_bind_ok (exec_pure c reciprocal)] at h_first
        -- it fits, so that neither sum wraps
        have h_le : ((c.stream id).amountToSend reciprocal load.maxAmountFromNextStream).toNat ≤
            load.maxAmountFromNextStream.toNat := amountToSend_le_max reciprocal _
        generalize (c.stream id).amountToSend reciprocal load.maxAmountFromNextStream = amount
          at h_first h_le
        unfold holdMoney at h_first
        simp only at h_first
        by_cases h_pos : amount > 0
        · rw [if_pos h_pos] at h_first
          cases h_first
          change (load.amountToSend + amount).toNat + (load.maxAmountFromNextStream - amount).toNat = _
          rw [BitVec.toNat_sub_of_le h_le, BitVec.toNat_add, Nat.mod_eq_of_lt (by omega)]
          omega
        · rw [if_neg h_pos] at h_first
          cases h_first
          rfl
    by_cases h_full : load₁.maxAmountFromNextStream = 0
    · rw [if_pos h_full] at h_rest
      cases h_rest
      exact h_step
    · rw [if_neg h_full] at h_rest
      rw [ih h_rest (h_step ▸ h_fits), h_step]

/-- **A packet that is filled**: its number is the next one of the connection, and it is priced. -/
theorem loadPacket_ok {env : PayingEnvironment App} {c c' : Connection App} {outgoing : OutgoingPacket}
    {rate : Rational} (h_rate : c.exchangeRate = some rate)
    (h_exec : (loadPacket env.toSendEnvironment).exec c = (.ok (some outgoing), c')) :
    outgoing.packet.sequence.toNat = c.nextPacketSequence ∧
      c.nextPacketSequence < c'.nextPacketSequence ∧ Priced env.slippage rate outgoing := by
  unfold loadPacket at h_exec
  -- the actions of `loadPacket`, one after the other
  obtain ⟨n, c₁, h_sequence, h_exec⟩ := exec_bind_eq_ok.mp h_exec
  obtain ⟨rfl, h_max, rfl⟩ := exec_getNextPacketSequence h_sequence
  obtain ⟨queuedFrames, c₂, h_queued, h_exec⟩ := exec_bind_eq_ok.mp h_exec
  rw [exec_bind_ok (exec_get c₂)] at h_exec
  obtain ⟨closeFrames, c₃, h_close, h_exec⟩ := exec_bind_eq_ok.mp h_exec
  obtain ⟨exchangeRate, c₄, h_exchange, h_exec⟩ := exec_bind_eq_ok.mp h_exec
  obtain ⟨load, c₅, h_load, h_exec⟩ := exec_bind_eq_ok.mp h_exec
  rw [exec_bind_ok (exec_get c₅)] at h_exec
  obtain ⟨frames, c₆, h_data, h_exec⟩ := exec_bind_eq_ok.mp h_exec
  obtain ⟨_, c₇, h_stop, h_exec⟩ := exec_bind_eq_ok.mp h_exec
  -- none of them touches the counters, nor the rate
  have h₂ : SameCounters { c with nextPacketSequence := c.nextPacketSequence + 1 } c₃ :=
    trans_of SameCounters (takeQueuedFrames_sameCounters.of_exec h_queued)
      (takeCloseFrames_sameCounters.of_exec h_close)
  obtain ⟨h_same, h_exchangeRate⟩ : c₄ = c₃ ∧ exchangeRate = rate := by
    have h_read : c₃.exchangeRate = some rate := h₂.exchangeRate.trans h_rate
    unfold getExchangeRate at h_exchange
    rw [exec_bind_ok (exec_get c₃), h_read] at h_exchange
    cases h_exchange
    exact ⟨rfl, rfl⟩
  have h_after : SameCounters { c with nextPacketSequence := c.nextPacketSequence + 1 } c₇ := by
    have h₅ : SameCounters c₄ c₅ := (loadMoney_sameCounters _ _ _ _).of_exec h_load
    have h₆ : SameCounters c₅ c₆ := (loadData_sameCounters env _ _ _).of_exec h_data
    have h₇ : SameCounters c₆ c₇ := (stopSending_sameCounters _).of_exec h_stop
    exact trans_of SameCounters (h_same ▸ h₂) (trans_of SameCounters h₅ (trans_of SameCounters h₆ h₇))
  -- an empty packet is not sent
  by_cases h_empty : load.amountToSend = 0 ∧ frames = []
  · rw [if_pos h_empty] at h_exec
    cases h_exec
  rw [if_neg h_empty] at h_exec
  obtain ⟨o, c₈, h_make, h_exec⟩ := exec_bind_eq_ok.mp h_exec
  cases h_exec
  -- the minimum is computed last
  unfold makePacket at h_make
  cases h_complement : env.slippage.complement with
  | none =>
    rw [h_complement] at h_make
    cases h_make
  | some complement =>
    rw [h_complement] at h_make
    cases h_make
    refine ⟨toNat_fromNumber (h_max.trans (by norm_num)), h_after.nextPacketSequence, ?_, complement,
      h_complement, ?_⟩
    · -- what is carried comes out of the most that a packet may carry
      have h_total : load.amountToSend.toNat + load.maxAmountFromNextStream.toNat =
          0 + (initialMaxAmount exchangeRate c₂.congestion.testMaximumPacketAmount).toNat := by
        refine loadMoney_total h_load ?_
        change 0 + (initialMaxAmount exchangeRate c₂.congestion.testMaximumPacketAmount).toNat < _
        rw [Nat.zero_add]
        exact BitVec.isLt _
      rw [Nat.zero_add, h_exchangeRate] at h_total
      exact initialMaxAmount_fits rate _ (h_total ▸ Nat.le_add_right _ _)
    · change complement.multiplyByLong (exchangeRate.multiplyByLong load.amountToSend) = _
      rw [h_exchangeRate]

/-! ### The reply -/

/-- The data that a reply carries. -/
def ResponseData.data? : ResponseData → Option Buffer
  | fulfill response => some response.data
  | reject response => some response.data
  | invalid _ => none

/-- The same surroundings, where `plugin.sendData` resolves to this reply or throws. -/
def PayingEnvironment.answering (env : PayingEnvironment App) (reply : Option ResponseData) :
    PayingEnvironment App where
  toEnvironment := env.toEnvironment
  serializeAndEncrypt := env.serializeAndEncrypt
  packetByteLength := env.packetByteLength
  frameByteLength := env.frameByteLength
  sendData _ _ := reply
  sameCounters := env.sameCounters

section Reply

variable (env : PayingEnvironment App)

theorem transmit_sameCounters (packet : Packet) (sourceAmount : Long) :
    Preserves SameCounters (transmit env.toSendEnvironment packet sourceAmount) := by
  refine .bind (await_sameCounters env) fun _ => .bind (await_sameCounters env) fun _ => ?_
  refine .bind (await_sameCounters env) fun _ => .bind .get fun c => .ite (fun _ => .throw _) fun _ => ?_
  refine .bind (emit_sameCounters env.sameCounters _) fun _ => .bind .get fun c => ?_
  refine .bind (await_sameCounters env) fun _ => ?_
  cases env.sendData _ c with
  | none => exact .throw _
  | some response => exact .pure _

theorem undoFrame_sameCounters (n : ℕ) (frame : Frame) :
    Preserves SameCounters (undoFrame n frame : Run App Unit) := by
  cases frame with
  | streamMoney streamId shares =>
    exact .bind .get fun c => .ite (fun _ => .pure ()) fun _ => updateStream_sameCounters _ _
  | streamData streamId offset data =>
    exact .bind .get fun c => .ite (fun _ => .pure ()) fun _ => updateStream_sameCounters _ _
  | streamClose streamId errorCode errorMessage => exact queueFrame_sameCounters _
  | _ => exact .pure ()

theorem handleConnectorError_sameCounters (reject : IlpReject) (amountSent : Long) :
    Preserves SameCounters (handleConnectorError env.toSendEnvironment reject amountSent) := by
  have h_change : ∀ f : Connection App → Connection App, (∀ c, SameCounters c (f c)) →
      Preserves SameCounters (modify f : Run App Unit) := fun _ => modify_sameCounters
  refine .ite (fun _ => ?_) fun _ => .ite (fun _ => ?_) fun _ => .throw _
  · refine .bind (h_change _ fun _ => ⟨rfl, rfl, rfl, le_rfl⟩) fun _ => .bind .get fun c => ?_
    exact .ite (fun _ => .throw _) fun _ => .pure _
  · have h_wait : Preserves SameCounters (do
        modify fun c => { c with retryDelay := min (c.retryDelay * 2) retryDelayMax }
        await env.toEnvironment : Run App Unit) :=
      .bind (h_change _ fun _ => ⟨rfl, rfl, rfl, le_rfl⟩) fun _ => await_sameCounters env
    refine .ite (fun _ => ?_) fun _ => h_wait
    exact .bind (h_change _ fun _ => ⟨rfl, rfl, rfl, le_rfl⟩) fun _ => h_wait

theorem readResponse_sameCounters (packet : Packet) (type : IlpPacketType) (data : Buffer) :
    Preserves SameCounters (readResponse env.toSendEnvironment packet type data) := by
  refine .ite (fun _ => .pure _) fun _ => .bind (await_sameCounters env) fun _ => ?_
  cases env.decryptAndDeserialize data with
  | none => exact .throw _
  | some response => exact .ite (fun _ => .throw _) fun _ => .ite (fun _ => .throw _) fun _ => .pure _

/-- **Sending a packet** counts nothing, whatever the reply. -/
theorem sendPacket_sameCounters (packet : Packet) (sourceAmount : Long) :
    Preserves SameCounters (sendPacket env.toSendEnvironment packet sourceAmount) := by
  refine .bind (transmit_sameCounters env packet sourceAmount) fun reply => ?_
  cases reply with
  | invalid message => exact .throw _
  | fulfill response =>
    refine .bind (await_sameCounters env) fun _ => .ite (fun _ => ?_) fun _ => .throw _
    exact readResponse_sameCounters env _ _ _
  | reject response =>
    refine .bind (.forEach (undoFrame_sameCounters _) _) fun _ => .ite (fun _ => ?_) fun _ => ?_
    · exact .bind (handleConnectorError_sameCounters env _ _) fun _ => .pure _
    · exact readResponse_sameCounters env _ _ _

variable {env}

/-- A response was read from the data, and answers the packet. -/
theorem readResponse_ok {packet response : Packet} {type : IlpPacketType} {data : Buffer}
    {c c' : Connection App}
    (h_exec : (readResponse env.toSendEnvironment packet type data).exec c = (.ok (some response), c')) :
    env.decryptAndDeserialize data = some response ∧ response.sequence = packet.sequence := by
  unfold readResponse at h_exec
  by_cases h_data : data = []
  · rw [if_pos h_data] at h_exec
    cases h_exec
  rw [if_neg h_data, exec_bind_ok (exec_await _ c)] at h_exec
  cases h_decrypt : env.decryptAndDeserialize data with
  | none =>
    rw [h_decrypt] at h_exec
    cases h_exec
  | some answer =>
    rw [h_decrypt] at h_exec
    simp only at h_exec
    by_cases h_sequence : answer.sequence ≠ packet.sequence
    · rw [if_pos h_sequence] at h_exec
      cases h_exec
    rw [if_neg h_sequence] at h_exec
    by_cases h_type : answer.ilpPacketType ≠ type
    · rw [if_pos h_type] at h_exec
      cases h_exec
    · rw [if_neg h_type] at h_exec
      cases h_exec
      exact ⟨rfl, not_not.mp h_sequence⟩

/-- **A response** comes from the data of the reply, and has the sequence number of the packet. -/
theorem sendPacket_ok {packet response : Packet} {sourceAmount : Long} {reply : Option ResponseData}
    {c c' : Connection App}
    (h_exec : (sendPacket (env.answering reply).toSendEnvironment packet sourceAmount).exec c =
      (.ok (some response), c')) :
    (∃ r data, reply = some r ∧ r.data? = some data ∧ env.decryptAndDeserialize data = some response) ∧
      response.sequence = packet.sequence := by
  unfold sendPacket at h_exec
  obtain ⟨r, c₁, h_transmit, h_handle⟩ := exec_bind_eq_ok.mp h_exec
  -- it is the reply that came, after the events of the packet
  have h_reply : reply = some r := by
    unfold transmit at h_transmit
    obtain ⟨_, c₂, -, h_transmit⟩ := exec_bind_eq_ok.mp h_transmit
    obtain ⟨_, c₃, -, h_transmit⟩ := exec_bind_eq_ok.mp h_transmit
    obtain ⟨_, c₄, -, h_transmit⟩ := exec_bind_eq_ok.mp h_transmit
    rw [exec_bind_ok (exec_get c₄)] at h_transmit
    by_cases h_account : c₄.destinationAccount = none
    · rw [if_pos h_account] at h_transmit
      cases h_transmit
    rw [if_neg h_account] at h_transmit
    obtain ⟨_, c₅, -, h_transmit⟩ := exec_bind_eq_ok.mp h_transmit
    rw [exec_bind_ok (exec_get c₅)] at h_transmit
    obtain ⟨_, c₆, -, h_transmit⟩ := exec_bind_eq_ok.mp h_transmit
    cases reply with
    | none => cases h_transmit
    | some r' =>
      cases h_transmit
      rfl
  -- only a reply with data that decrypts is a response, and one to this packet
  cases r with
  | invalid message => cases h_handle
  | fulfill response' =>
    unfold handleResponse at h_handle
    rw [exec_bind_ok (exec_await _ c₁)] at h_handle
    split at h_handle
    · obtain ⟨h_decrypt, h_sequence⟩ := readResponse_ok h_handle
      exact ⟨⟨_, _, h_reply, rfl, h_decrypt⟩, h_sequence⟩
    · cases h_handle
  | reject response' =>
    unfold handleResponse at h_handle
    obtain ⟨_, c₂, -, h_handle⟩ := exec_bind_eq_ok.mp h_handle
    split at h_handle
    · obtain ⟨_, c₃, -, h_handle⟩ := exec_bind_eq_ok.mp h_handle
      cases h_handle
    · obtain ⟨h_decrypt, h_sequence⟩ := readResponse_ok h_handle
      exact ⟨⟨_, _, h_reply, rfl, h_decrypt⟩, h_sequence⟩

end Reply

/-! ### The response -/

/-- So much was counted as delivered, and so much as sent. -/
structure Counts (delivered sent : ℕ) (c c' : Connection App) : Prop where
  totalDelivered : c'.totalDelivered.toNat = c.totalDelivered.toNat + delivered
  totalSent : c'.totalSent.toNat = c.totalSent.toNat + sent
  exchangeRate : c'.exchangeRate = c.exchangeRate
  nextPacketSequence : c.nextPacketSequence ≤ c'.nextPacketSequence

namespace Counts

variable {delivered sent delivered' sent' : ℕ} {c c₁ c' : Connection App}

theorem of_sameCounters (h : SameCounters c c') : Counts 0 0 c c' where
  totalDelivered := congrArg BitVec.toNat h.totalDelivered
  totalSent := congrArg BitVec.toNat h.totalSent
  exchangeRate := h.exchangeRate
  nextPacketSequence := h.nextPacketSequence

theorem trans (h : Counts delivered sent c c₁) (h' : Counts delivered' sent' c₁ c') :
    Counts (delivered + delivered') (sent + sent') c c' where
  totalDelivered := by rw [h'.totalDelivered, h.totalDelivered, Nat.add_assoc]
  totalSent := by rw [h'.totalSent, h.totalSent, Nat.add_assoc]
  exchangeRate := h'.exchangeRate.trans h.exchangeRate
  nextPacketSequence := h.nextPacketSequence.trans h'.nextPacketSequence

theorem after (h : Counts delivered sent c c₁) (h' : SameCounters c₁ c') : Counts delivered sent c c' :=
  h.trans (of_sameCounters h')

theorem before (h : SameCounters c c₁) (h' : Counts delivered sent c₁ c') : Counts delivered sent c c' := by
  have h_both := (of_sameCounters h).trans h'
  rwa [Nat.zero_add, Nat.zero_add] at h_both

end Counts

section Response

variable {env : PayingEnvironment App} {outgoing : OutgoingPacket} {response : Packet} {c c' : Connection App}

/-- A sum that does not overflow. -/
theorem toNat_checkedAdd_of_not {a b : Long} (h : ¬(checkedAdd a b).2 = true) :
    (checkedAdd a b).1.toNat = a.toNat + b.toNat := by
  rw [overflow_checkedAdd, not_le] at h
  rw [toNat_checkedAdd]
  exact Nat.min_eq_left (Nat.le_sub_one_of_lt h)

/-- Counting what was delivered: an overflow counts nothing. -/
theorem addTotalDelivered_cases (env : PayingEnvironment App) (value : Long) (c : Connection App) :
    (∃ e c', (addTotalDelivered env.toSendEnvironment value).exec c = (.error e, c') ∧ SameCounters c c') ∨
      ∃ c', (addTotalDelivered env.toSendEnvironment value).exec c = (.ok (), c') ∧
        Counts value.toNat 0 c c' := by
  unfold addTotalDelivered
  rw [exec_bind_ok (exec_get c)]
  simp only
  by_cases h_overflow : (checkedAdd c.totalDelivered value).2 = true
  · rw [if_pos h_overflow]
    refine .inl ⟨_, _, exec_bind_ok (Prod.ext (destroy_isOk _ c) rfl), ?_⟩
    exact destroy_sameCounters env.sameCounters c
  · rw [if_neg h_overflow]
    exact .inr ⟨_, rfl, toNat_checkedAdd_of_not h_overflow, rfl, rfl, le_rfl⟩

/-- Counting what was sent: an overflow counts nothing. -/
theorem addTotalSent_cases (env : PayingEnvironment App) (value : Long) (c : Connection App) :
    (∃ e c', (addTotalSent env.toSendEnvironment value).exec c = (.error e, c') ∧ SameCounters c c') ∨
      ∃ c', (addTotalSent env.toSendEnvironment value).exec c = (.ok (), c') ∧
        Counts 0 value.toNat c c' := by
  unfold addTotalSent
  rw [exec_bind_ok (exec_get c)]
  simp only
  by_cases h_overflow : (checkedAdd c.totalSent value).2 = true
  · rw [if_pos h_overflow]
    refine .inl ⟨_, _, exec_bind_ok (Prod.ext (destroy_isOk _ c) rfl), ?_⟩
    exact destroy_sameCounters env.sameCounters c
  · rw [if_neg h_overflow]
    exact .inr ⟨_, rfl, rfl, toNat_checkedAdd_of_not h_overflow, rfl, le_rfl⟩

theorem setReceipt_sameCounters (frame : Frame) :
    Preserves SameCounters (setReceipt frame : Run App Unit) := by
  cases frame with
  | streamReceipt streamId receipt =>
    exact .bind .get fun c => .ite (fun _ => .pure ()) fun _ => updateStream_sameCounters _ _
  | _ => exact .pure ()

theorem executeHold_sameCounters (env : PayingEnvironment App) (n : ℕ) (id : StreamId) :
    Preserves SameCounters (executeHold env.toSendEnvironment n id) := by
  refine .bind .get fun c => ?_
  cases (c.stream id).holds.get? n with
  | none => exact .pure ()
  | some amount =>
    refine .bind (updateStream_sameCounters _ _) fun _ => ?_
    refine .bind (emit_sameCounters env.sameCounters _) fun _ => .bind .get fun c => ?_
    exact .ite (fun _ => emit_sameCounters env.sameCounters _) fun _ => .pure ()

/-- What a response counts, by how handling it ends: a Fulfill that is handled to the end counts both
amounts, one that is not counts nothing or what was delivered. -/
def ResponseCounts (outgoing : OutgoingPacket) (response : Packet) (result : Except Thrown Unit)
    (c c' : Connection App) : Prop :=
  match result with
  | .ok _ =>
    if response.ilpPacketType = .fulfill then
      Counts response.prepareAmount.toNat outgoing.amountToSend.toNat c c'
    else Counts 0 0 c c'
  | .error _ =>
    Counts 0 0 c c' ∨ response.ilpPacketType = .fulfill ∧ Counts response.prepareAmount.toNat 0 c c'

theorem ResponseCounts.before {c₁ : Connection App} {result : Except Thrown Unit} (h : SameCounters c c₁)
    (h' : ResponseCounts outgoing response result c₁ c') : ResponseCounts outgoing response result c c' := by
  cases result with
  | ok _ =>
    unfold ResponseCounts at h' ⊢
    simp only at h' ⊢
    split
    · next h_type =>
      rw [if_pos h_type] at h'
      exact .before h h'
    · next h_type =>
      rw [if_neg h_type] at h'
      exact .before h h'
  | error e =>
    exact h'.imp (.before h) fun ⟨h_type, h_counts⟩ => ⟨h_type, .before h h_counts⟩

/-- A Fulfill: nothing is counted until the holds are executed, then what was delivered, then what was
sent. -/
theorem applyFulfill_counts (h_type : response.ilpPacketType = .fulfill) {result : Except Thrown Unit}
    (h_exec : (applyFulfill env.toSendEnvironment outgoing response).exec c = (result, c')) :
    ResponseCounts outgoing response result c c' := by
  unfold applyFulfill at h_exec
  -- receipts and holds count nothing, and a listener may throw among them
  have h_receipts : Preserves SameCounters (forEach setReceipt response.frames : Run App Unit) :=
    .forEach setReceipt_sameCounters _
  have h_holds : Preserves SameCounters (forEach (executeHold env.toSendEnvironment
      outgoing.packet.sequence.toNat) outgoing.streamsSentFrom) := .forEach (executeHold_sameCounters env _) _
  rw [exec_bind] at h_exec
  cases h₁ : (forEach setReceipt response.frames : Run App Unit).exec c with
  | mk result₁ c₁ =>
  rw [h₁] at h_exec
  have h_same₁ := h_receipts.of_exec h₁
  cases result₁ with
  | error e =>
    cases h_exec
    exact .inl (.of_sameCounters h_same₁)
  | ok _ =>
  refine ResponseCounts.before h_same₁ ?_
  simp only at h_exec
  rw [exec_bind] at h_exec
  cases h₂ : (forEach (executeHold env.toSendEnvironment outgoing.packet.sequence.toNat)
      outgoing.streamsSentFrom).exec c₁ with
  | mk result₂ c₂ =>
  rw [h₂] at h_exec
  have h_same₂ := h_holds.of_exec h₂
  cases result₂ with
  | error e =>
    cases h_exec
    exact .inl (.of_sameCounters h_same₂)
  | ok _ =>
  refine ResponseCounts.before h_same₂ ?_
  simp only at h_exec
  -- then what was delivered is counted
  rcases addTotalDelivered_cases env response.prepareAmount c₂ with ⟨e, c₃, h₃, h_same₃⟩ | ⟨c₃, h₃, h_counts₃⟩
  · rw [exec_bind_error h₃] at h_exec
    cases h_exec
    exact .inl (.of_sameCounters h_same₃)
  rw [exec_bind_ok h₃] at h_exec
  -- and then what was sent
  rcases addTotalSent_cases env outgoing.amountToSend c₃ with ⟨e, c₄, h₄, h_same₄⟩ | ⟨c₄, h₄, h_counts₄⟩
  · -- what was delivered is counted already
    rw [exec_bind_error h₄] at h_exec
    cases h_exec
    exact .inr ⟨h_type, h_counts₃.after h_same₄⟩
  rw [exec_bind_ok h₄] at h_exec
  cases h_exec
  have h_counts := h_counts₃.trans h_counts₄
  rw [Nat.add_zero, Nat.zero_add] at h_counts
  unfold ResponseCounts
  simp only
  rw [if_pos h_type]
  exact h_counts.after ⟨rfl, rfl, rfl, le_rfl⟩

/-- **What a response counts.** -/
theorem applyResponse_counts {result : Except Thrown Unit}
    (h_exec : (applyResponse env.toSendEnvironment outgoing response).exec c = (result, c')) :
    ResponseCounts outgoing response result c c' := by
  unfold applyResponse at h_exec
  rw [exec_bind_ok (exec_modify c _), exec_bind] at h_exec
  -- the frames and the rate count nothing
  have h_state : SameCounters c { c with
      remoteState := if c.remoteState = .init then .connected else c.remoteState
      remoteKnowsOurAccount := true } := ⟨rfl, rfl, rfl, le_rfl⟩
  refine .before h_state ?_
  cases h_frames : (handleControlFrames env.toEnvironment response.frames).exec { c with
      remoteState := if c.remoteState = .init then .connected else c.remoteState
      remoteKnowsOurAccount := true } with
  | mk result₁ c₁ =>
  rw [h_frames] at h_exec
  have h_same := (handleControlFrames_sameCounters env.sameCounters response.frames).of_exec h_frames
  cases result₁ with
  | error e =>
    cases h_exec
    exact .inl (.of_sameCounters h_same)
  | ok _ =>
  simp only at h_exec
  rw [exec_bind_ok (exec_modify c₁ _)] at h_exec
  have h_rate : SameCounters c₁ { c₁ with
      lastPacketExchangeRate :=
        if h : outgoing.amountToSend = 0 then c₁.lastPacketExchangeRate
        else ⟨response.prepareAmount, outgoing.amountToSend, h⟩ } := ⟨rfl, rfl, rfl, le_rfl⟩
  refine .before h_same (.before h_rate ?_)
  by_cases h_type : response.ilpPacketType = .fulfill
  · rw [if_pos h_type] at h_exec
    exact applyFulfill_counts h_type h_exec
  · rw [if_neg h_type] at h_exec
    cases h_exec
    unfold ResponseCounts
    simp only
    rw [if_neg h_type]
    exact .of_sameCounters (refl_of SameCounters _)

end Response

end Interledger.Stream
