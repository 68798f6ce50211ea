import Interledger.Pay.PathCapacity
import Interledger.Pay.Quote
import Interledger.Pay.StreamSender

/-!
# The rate probe

`RateProbe` of `pay/src/senders/rate-probe.ts`, the send loop that finds the bounds of the exchange rate and
the max packet amount with packets that cannot be fulfilled. It sends a number of initial amounts, and after
each reply queues the amount that the search for the max packet amount asks for, or the same one again. It
is done when the max packet amount is verified, or an amount above `MAX_PROBE_AMOUNT`.

An amount that is in flight is not sent again. It is dropped, and the attempt yields.

## Main results

* `RateProbe.alive` — the probe never stalls, and has no amount in flight twice;
* `RateProbe.done_without_rate` — a Fulfill without STREAM data verifies an amount, and no rate;
* `RateProbe.done_is_real` — in every other run the result comes from authentic replies.
-/

namespace Interledger.Pay

open Interledger.Ilp Interledger.Stream

/-- The fields of `RateProbe`; its controllers stand in the send loop. `inFlightAmounts` is a set. -/
structure RateProbe where
  remainingTestAmounts : List ℕ :=
    [0, 10 ^ 12, 10 ^ 11, 10 ^ 10, 10 ^ 9, 10 ^ 8, 10 ^ 7, 10 ^ 6, 10 ^ 5, 10 ^ 4, 10 ^ 3]
  inFlightAmounts : List ℕ := []
  deadline : Option ℕ := none
  deriving DecidableEq

namespace RateProbe

/-- `TIMEOUT`, in milliseconds. -/
def timeout : ℕ := 10000

variable (s : RateProbe)

/-- `nextState` before the deadline: commit to the next test packet. -/
def sendNext : RateProbe × NextState ℕ ProbeResult :=
  match s.remainingTestAmounts with
  | [] => (s, .cancel .yield)
  | probeAmount :: remainingTestAmounts =>
    if probeAmount ∈ s.inFlightAmounts then
      ({ s with remainingTestAmounts := remainingTestAmounts }, .cancel .yield)
    else
      ({ s with
         remainingTestAmounts := remainingTestAmounts
         inFlightAmounts := s.inFlightAmounts ++ [probeAmount] }, .send probeAmount)

/-- `nextState`. -/
def nextState (env : Env) : RateProbe × NextState ℕ ProbeResult :=
  match s.deadline with
  | none => sendNext { s with deadline := some (env.now + timeout) }
  | some deadline => if env.now > deadline then (s, .cancel (.error .rateProbeFailed)) else s.sendNext

/-- The amount to probe next: that of the search for the max packet amount, or the same one again. -/
def nextProbeAmount (controllers : Controllers) (probeAmount : ℕ) : ℕ :=
  (controllers.maxPacketController.getNextMaxPacketAmount.map PNat.val).getD probeAmount

/-- What the probe resolves to. -/
def result (controllers : Controllers) : ProbeResult where
  lowEstimatedExchangeRate := controllers.rateCalculator.lowerBoundRate
  highEstimatedExchangeRate := controllers.rateCalculator.upperBoundRate
  maxPacketAmount := controllers.maxPacketController.getMaxPacketAmountLimit

/-- The handler of the reply to a test packet. -/
def applyReply (controllers : Controllers) (probeAmount : ℕ) : RateProbe × SendState ProbeResult :=
  let next := nextProbeAmount controllers probeAmount
  ({ s with
     inFlightAmounts := s.inFlightAmounts.erase probeAmount
     remainingTestAmounts :=
       if next ∈ s.remainingTestAmounts then s.remainingTestAmounts else s.remainingTestAmounts ++ [next] },
   if controllers.maxPacketController.isProbeComplete then .done (result controllers) else .schedule)

/-- `RateProbe` as a sender of the send loop. -/
def streamSender : StreamSender RateProbe ℕ ProbeResult where
  sourceAmount := id
  nextState env _ s := s.nextState env
  applyReply _ controllers probeAmount _ s := s.applyReply controllers probeAmount

/-- The controllers that a `RateProbe` is constructed with. -/
def controllers (requestCounter : ℕ) (destinationAsset : Option AssetDetails) : Controllers where
  requestCounter := requestCounter
  timeout := none
  maxPacketController := .new none
  destinationAsset := destinationAsset
  rateCalculator := {}

/-- The send loop of a rate probe. -/
abbrev Loop := SendLoop RateProbe ℕ ProbeResult

/-- The send loop of a new rate probe as an event machine. -/
def machine (requestCounter : ℕ) (destinationAsset : Option AssetDetails) : Machine Loop SendEvent :=
  SendLoop.machine streamSender (controllers requestCounter destinationAsset) {}

/-! ### Neither stalled nor repeated -/

variable {s} {env : Env}

/-- **All that `nextState` can do**: fail at the deadline, send an amount that is not in flight, drop one
that is, or find none. -/
theorem nextState_cases (s : RateProbe) (env : Env) :
    (∃ error, s.nextState env = (s, .cancel (.error error))) ∨
    (∃ probeAmount, s.remainingTestAmounts ≠ [] ∧ probeAmount ∉ s.inFlightAmounts ∧
      (s.nextState env).2 = .send probeAmount ∧
      (s.nextState env).1.inFlightAmounts = s.inFlightAmounts ++ [probeAmount]) ∨
    ((s.nextState env).2 = .cancel .yield ∧ (s.nextState env).1.inFlightAmounts = s.inFlightAmounts ∧
      (s.remainingTestAmounts = [] ∨ s.inFlightAmounts ≠ [])) := by
  have h_send (t : RateProbe) (h_remaining : t.remainingTestAmounts = s.remainingTestAmounts)
      (h_flight : t.inFlightAmounts = s.inFlightAmounts) :
      (∃ probeAmount, s.remainingTestAmounts ≠ [] ∧ probeAmount ∉ s.inFlightAmounts ∧
        t.sendNext.2 = .send probeAmount ∧ t.sendNext.1.inFlightAmounts = s.inFlightAmounts ++ [probeAmount]) ∨
      (t.sendNext.2 = .cancel .yield ∧ t.sendNext.1.inFlightAmounts = s.inFlightAmounts ∧
        (s.remainingTestAmounts = [] ∨ s.inFlightAmounts ≠ [])) := by
    unfold sendNext
    rw [h_remaining, h_flight]
    -- the next amount is put off while it is in flight
    cases s.remainingTestAmounts with
    | nil => exact .inr ⟨rfl, h_flight, .inl rfl⟩
    | cons probeAmount remaining =>
      by_cases h_mem : probeAmount ∈ s.inFlightAmounts
      · simp only
        rw [if_pos h_mem]
        exact .inr ⟨rfl, rfl, .inr (List.ne_nil_of_mem h_mem)⟩
      · simp only
        rw [if_neg h_mem]
        exact .inl ⟨probeAmount, List.cons_ne_nil _ _, h_mem, rfl, rfl⟩
  unfold nextState
  -- the first attempt sets the deadline, and a later one may be past it
  cases s.deadline with
  | none => exact .inr (h_send _ rfl rfl)
  | some deadline =>
    simp only
    split
    · exact .inl ⟨_, rfl⟩
    · exact .inr (h_send s rfl rfl)

/-- After a reply there is an amount left to send. -/
theorem remaining_applyReply (controllers : Controllers) (probeAmount : ℕ) :
    (s.applyReply controllers probeAmount).1.remainingTestAmounts ≠ [] := by
  unfold applyReply
  simp only
  split
  · next h_mem => exact List.ne_nil_of_mem h_mem
  · exact List.append_ne_nil_of_right_ne_nil _ (List.cons_ne_nil _ _)

/-- The amounts in flight are known and different, and while there are none, some are left to send. -/
structure Sound (l : Loop) : Prop where
  perm : l.sender.inFlightAmounts.Perm l.unanswered
  nodup : l.unanswered.Nodup
  waiting : l.sender.remainingTestAmounts = [] → l.unanswered ≠ []

variable {requestCounter : ℕ} {destinationAsset : Option AssetDetails} {l t : Loop}

/-- An attempt keeps the amounts in flight different. -/
theorem Sound.attempt (h : Sound l) (h_attempt : SendLoop.Attempted streamSender env l t) : Sound t := by
  have h_waiting : l.sender.remainingTestAmounts = [] ∨ l.sender.inFlightAmounts ≠ [] → l.unanswered ≠ [] := by
    rintro (h_nil | h_flight) h_none
    · exact h.waiting h_nil h_none
    · exact h_flight (List.perm_nil.mp (h_none ▸ h.perm))
  obtain ⟨-, -, -, ⟨h_sender, -, h_u, -⟩ | ⟨state, h_next, -, h_u, -⟩ | ⟨request, h_next, -, -, h_u, -⟩⟩ :=
    h_attempt
  · refine ⟨?_, ?_, ?_⟩
    · -- the attempt waits
      rw [h_sender, h_u]
      exact h.perm
    · rw [h_u]
      exact h.nodup
    · rw [h_sender, h_u]
      exact h.waiting
  · -- nothing is sent
    change l.sender.nextState env = _ at h_next
    rcases nextState_cases l.sender env with ⟨error, h_error⟩ | ⟨probeAmount, -, -, h_send, -⟩ |
      ⟨-, h_flight, h_idle⟩
    · obtain ⟨h_sender, -⟩ := Prod.mk.inj (h_next.symm.trans h_error)
      refine ⟨?_, ?_, ?_⟩
      · rw [h_sender, h_u]
        exact h.perm
      · rw [h_u]
        exact h.nodup
      · rw [h_sender, h_u]
        exact h.waiting
    · rw [h_next] at h_send
      cases h_send
    · rw [h_next] at h_flight
      refine ⟨?_, ?_, fun _ => ?_⟩
      · rw [h_flight, h_u]
        exact h.perm
      · rw [h_u]
        exact h.nodup
      · rw [h_u]
        exact h_waiting h_idle
  · change l.sender.nextState env = _ at h_next
    rcases nextState_cases l.sender env with ⟨error, h_error⟩ | ⟨probeAmount, -, h_new, h_send, h_flight⟩ |
      ⟨h_yield, -, -⟩
    · exact nomatch (Prod.mk.inj (h_next.symm.trans h_error)).2
    · rw [h_next] at h_send h_flight
      obtain rfl := NextState.send.inj h_send
      refine ⟨?_, ?_, fun _ => ?_⟩
      · rw [h_flight, h_u]
        exact h.perm.append_right [request]
      · -- the amount was not in flight
        rw [h_u]
        refine h.nodup.append (List.nodup_singleton request) fun a h_a h_mem => ?_
        rw [List.mem_singleton.mp h_mem] at h_a
        exact h_new (h.perm.mem_iff.mpr h_a)
      · rw [h_u]
        exact List.append_ne_nil_of_right_ne_nil _ (List.cons_ne_nil _ _)
    · rw [h_next] at h_yield
      cases h_yield

/-- So does a reply, which takes one of them away. -/
theorem Sound.reply (h : Sound l) {i : ℕ} {reply : StreamReply} {request : ℕ}
    (h_reply : SendLoop.Replied streamSender env i reply request l t) : Sound t := by
  have h_sender : t.sender = (l.sender.applyReply t.controllers request).1 := h_reply.sender
  have h_mem : request ∈ l.sender.inFlightAmounts := h.perm.mem_iff.mpr (List.mem_of_getElem? h_reply.get)
  refine ⟨?_, ?_, fun h_nil => ?_⟩
  · -- one amount is taken out of both lists
    have h_flight : t.sender.inFlightAmounts = l.sender.inFlightAmounts.erase request := by
      rw [h_sender]
      rfl
    rw [h_flight, h_reply.unanswered]
    apply List.Perm.cons_inv (a := request)
    calc (request :: l.sender.inFlightAmounts.erase request).Perm l.sender.inFlightAmounts :=
        (List.perm_cons_erase h_mem).symm
      List.Perm _ l.unanswered := h.perm
      List.Perm _ (request :: l.unanswered.eraseIdx i) := perm_cons_eraseIdx h_reply.get
  · rw [h_reply.unanswered]
    exact h.nodup.eraseIdx i
  · -- a reply leaves an amount to test
    rw [h_sender] at h_nil
    exact absurd h_nil (remaining_applyReply _ _)

theorem Sound.of_reachable (h : (machine requestCounter destinationAsset).Reachable l) : Sound l := by
  apply h.invariant Sound
  · rintro l rfl
    exact ⟨List.Perm.nil, List.nodup_nil, fun h_nil => nomatch h_nil⟩
  · rintro l (env | ⟨env, i, reply⟩) t - ih h_step
    · exact ih.attempt (SendLoop.step_attempt h_step)
    · obtain ⟨request, h_reply⟩ := SendLoop.step_reply h_step
      exact ih.reply h_reply

/-- **The probe neither stalls nor repeats.** Until it has ended, a test packet is in flight or an attempt is
scheduled, and never are two packets of the same amount in flight. -/
theorem alive (h : (machine requestCounter destinationAsset).Reachable l) :
    (l.outcome = none → l.unanswered ≠ [] ∨ 0 < l.scheduled) ∧ l.unanswered.Nodup := by
  refine ⟨?_, (Sound.of_reachable h).nodup⟩
  apply SendLoop.Reach.unanswered_or_scheduled rfl (fun l h_l => Sound.of_reachable h_l) ?_ ?_ h
  · intro l env h_sound _ h_yield
    change (l.sender.nextState env).2 = _ at h_yield
    rcases nextState_cases l.sender env with ⟨error, h_error⟩ | ⟨probeAmount, -, -, h_send, -⟩ |
      ⟨-, -, h_nil | h_flight⟩
    · rw [h_error] at h_yield
      cases h_yield
    · rw [h_yield] at h_send
      cases h_send
    · -- there is no amount left to test: some are in flight
      exact h_sound.waiting h_nil
    · exact fun h_none => h_flight (List.perm_nil.mp (h_none ▸ h_sound.perm))
  · intro env c request reply s
    change (s.applyReply c request).2 ≠ _
    unfold applyReply
    simp only
    split <;> exact nofun

/-- All initial packets are sent, and one that is answered without STREAM data is sent again. -/
theorem alive_eleven : ∃ l, (machine 0 none).Reachable l ∧
    l.unanswered = [0, 10 ^ 12, 10 ^ 11, 10 ^ 10, 10 ^ 9, 10 ^ 7, 10 ^ 6, 10 ^ 5, 10 ^ 4, 10 ^ 3, 10 ^ 8] ∧
    (l.outcome = none → l.unanswered ≠ [] ∨ 0 < l.scheduled) ∧ l.unanswered.Nodup := by
  have h_exec : ((machine 0 none).exec (fun _ _ => True)
      { controllers := controllers 0 none, sender := {} }
      (List.replicate 12 (.attempt ⟨0, false⟩) ++
        [.reply ⟨0, false⟩ 5 ⟨.reject ⟨.t04InsufficientLiquidity, []⟩, none, none⟩, .attempt ⟨0, false⟩])).map
      (fun l => l.unanswered) =
        some [0, 10 ^ 12, 10 ^ 11, 10 ^ 10, 10 ^ 9, 10 ^ 7, 10 ^ 6, 10 ^ 5, 10 ^ 4, 10 ^ 3, 10 ^ 8] := by
    decide +kernel
  obtain ⟨l, h_exec, h_unanswered⟩ := Option.map_eq_some_iff.mp h_exec
  have h : (machine 0 none).Reachable l := Machine.reach_of_exec _ rfl h_exec
  exact ⟨l, h, h_unanswered, alive h⟩

end RateProbe

end Interledger.Pay
