import Interledger.Pay.RateBounds
import Interledger.Pay.RateProbe

/-!
# What a rate probe resolves to

The controllers of a send loop are what the replies so far have made of them (`rateCalculator_eq`,
`maxPacketController_eq`), so that the result of a `RateProbe` can be traced back to replies.

Its packets cannot be fulfilled, but a Fulfill of one is not refused: without a fulfillment of its own to
compare, the request takes any. `isAuthentic` counts it, and the max packet controller with it, whether or not
it carries STREAM data. The exchange rate controller asks for the data.

## Main results

* `RateProbe.done_without_rate` — a Fulfill without STREAM data ends the probe with no rate;
* `RateProbe.done_is_real` — in a run without such a Fulfill, the result comes from authentic replies.
-/

namespace Interledger.Pay

open Interledger.Ilp Interledger.Stream

/-! ### The controllers and the replies -/

/-- The controller after a number of replies, in the order in which they come in. -/
def MaxPacketAmountController.applyReplies (c : MaxPacketAmountController) (replies : List (ℕ × StreamReply)) :
    MaxPacketAmountController :=
  replies.foldl (fun c p => (c.applyReply p.1 p.2).1) c

namespace SendLoop

variable {σ ρ τ : Type} {S : StreamSender σ ρ τ} {controllers : Controllers} {sender : σ}
  {ok : SendLoop σ ρ τ → SendEvent → Prop} {l : SendLoop σ ρ τ}

/-- The amounts of the answered packets, with the replies. -/
def replies (S : StreamSender σ ρ τ) (l : SendLoop σ ρ τ) : List (ℕ × StreamReply) :=
  l.answered.map fun p => (S.sourceAmount p.1, p.2)

/-- **A controller is what the replies made of it**, when only replies change it. -/
theorem Reach.controller_eq {γ : Type} (get : Controllers → γ) (apply : γ → ℕ × StreamReply → γ)
    (h_request : ∀ c env, get (c.applyRequest env) = get c)
    (h_reply : ∀ c env amount reply, get (c.applyReply env amount reply).1 = apply (get c) (amount, reply))
    (h : (machine S controllers sender).Reach ok l) :
    get l.controllers = (l.replies S).foldl apply (get controllers) := by
  apply h.invariant fun l => get l.controllers = (l.replies S).foldl apply (get controllers)
  · rintro l rfl
    rfl
  · rintro l (env | ⟨env, i, reply⟩) t - ih - h_step
    · obtain ⟨-, -, h_answered, ⟨-, h_c, -⟩ | ⟨-, -, h_c, -⟩ | ⟨request, -, -, h_c, -⟩⟩ := step_attempt h_step
      · rw [h_c, ih, replies, replies, h_answered]
      · rw [h_c, ih, replies, replies, h_answered]
      · rw [h_c, h_request, ih, replies, replies, h_answered]
    · obtain ⟨request, h_replied⟩ := step_reply h_step
      rw [h_replied.controllers, h_reply, ih, replies, replies, h_replied.answered, List.map_append,
        List.foldl_append]
      rfl

theorem Reach.rateCalculator_eq (h : (machine S controllers sender).Reach ok l) :
    l.controllers.rateCalculator = controllers.rateCalculator.applyReplies (l.replies S) :=
  Reach.controller_eq Controllers.rateCalculator (fun c p => c.applyReply p.1 p.2)
    (fun c env => c.applyRequest_rateCalculator env) (fun c env _ _ => c.applyReply_rateCalculator env _ _) h

theorem Reach.maxPacketController_eq (h : (machine S controllers sender).Reach ok l) :
    l.controllers.maxPacketController = controllers.maxPacketController.applyReplies (l.replies S) :=
  Reach.controller_eq Controllers.maxPacketController (fun c p => (c.applyReply p.1 p.2).1)
    (fun c env => c.applyRequest_maxPacketController env)
    (fun c env _ _ => c.applyReply_maxPacketController env _ _) h

end SendLoop

/-! ### The rate -/

namespace ExchangeRateController

/-- The reply tells a rate. -/
def Observes (p : ℕ × StreamReply) : Prop := 0 < p.1 ∧ ∃ destinationAmount, p.2.destinationAmount = some destinationAmount

/-- A bound is that of the reply. -/
def ComesFrom (c : ExchangeRateController) (p : ℕ × StreamReply) : Prop :=
  ∃ destinationAmount, 0 < p.1 ∧ p.2.destinationAmount = some destinationAmount ∧
    (c.lowerBoundRate.toRat = (destinationAmount : ℚ) / p.1 ∨
      c.upperBoundRate.toRat = (destinationAmount + 1 : ℚ) / p.1)

/-- The bounds are not both those that the controller starts with. -/
def Narrowed (c : ExchangeRateController) : Prop :=
  0 < c.lowerBoundRate.toRat ∨ c.upperBoundRate.toRat < maxU64

variable {c : ExchangeRateController} {p : ℕ × StreamReply} {replies : List (ℕ × StreamReply)}

/-- A reply that tells a rate narrows the bounds. -/
theorem narrowed_of_observes (c : ExchangeRateController) (h : Observes p) : (c.applyReply p.1 p.2).Narrowed := by
  obtain ⟨h_pos, d, h_some⟩ := h
  have h_s : (0 : ℚ) < p.1 := Nat.cast_pos.mpr h_pos
  have h_bound : 0 < (d : ℚ) / p.1 ∨ (d + 1 : ℚ) / p.1 < maxU64 := by
    rcases Nat.eq_zero_or_pos d with rfl | h_d
    · right
      rw [Nat.cast_zero, zero_add, div_lt_iff₀ h_s]
      calc (1 : ℚ) < maxU64 * 1 := by norm_num [maxU64]
        _ ≤ maxU64 * p.1 := mul_le_mul_of_nonneg_left (by exact_mod_cast h_pos) (Nat.cast_nonneg _)
    · exact .inl (div_pos (Nat.cast_pos.mpr h_d) h_s)
  unfold Narrowed
  rcases applyReply_bounds (c := c) h_pos h_some with ⟨-, h_lower, h_upper⟩ | ⟨-, h_lower, h_upper⟩
  · rwa [h_lower, h_upper]
  · rw [h_lower, h_upper]
    exact h_bound.imp (fun h => h.trans_le (le_max_right _ _)) fun h => (min_le_right _ _).trans_lt h

/-- A reply leaves the bounds alone, or one of them becomes its own. -/
theorem applyReply_eq_or_comesFrom (c : ExchangeRateController) (p : ℕ × StreamReply) :
    ((c.applyReply p.1 p.2).lowerBoundRate.toRat = c.lowerBoundRate.toRat ∧
      (c.applyReply p.1 p.2).upperBoundRate.toRat = c.upperBoundRate.toRat) ∨
    (c.applyReply p.1 p.2).ComesFrom p := by
  by_cases h_observes : Observes p
  · obtain ⟨h_pos, d, h_some⟩ := h_observes
    rcases applyReply_bounds (c := c) h_pos h_some with ⟨-, h_lower, -⟩ | ⟨-, h_lower, h_upper⟩
    · exact .inr ⟨d, h_pos, h_some, .inl h_lower⟩
    · rcases max_choice c.lowerBoundRate.toRat ((d : ℚ) / p.1) with h_max | h_max
      · rcases min_choice c.upperBoundRate.toRat ((d + 1 : ℚ) / p.1) with h_min | h_min
        · exact .inl ⟨h_lower.trans h_max, h_upper.trans h_min⟩
        · exact .inr ⟨d, h_pos, h_some, .inr (h_upper.trans h_min)⟩
      · exact .inr ⟨d, h_pos, h_some, .inl (h_lower.trans h_max)⟩
  · have h_none : p.1 = 0 ∨ p.2.destinationAmount = none := by
      rcases Nat.eq_zero_or_pos p.1 with h_zero | h_pos
      · exact .inl h_zero
      · exact .inr (Option.eq_none_iff_forall_ne_some.mpr fun d h_some => h_observes ⟨h_pos, d, h_some⟩)
    rw [applyReply_of_none h_none]
    exact .inl ⟨rfl, rfl⟩

theorem applyReplies_append (c : ExchangeRateController) (replies : List (ℕ × StreamReply)) (p : ℕ × StreamReply) :
    c.applyReplies (replies ++ [p]) = (c.applyReplies replies).applyReply p.1 p.2 := by
  rw [applyReplies, applyReplies, List.foldl_append]
  rfl

/-- **After a reply that tells a rate**, the bounds are not both the initial ones, and one comes from such a
reply. -/
theorem narrowed_applyReplies (h : ∃ p ∈ replies, Observes p) :
    (applyReplies {} replies).Narrowed ∧ ∃ p ∈ replies, (applyReplies {} replies).ComesFrom p := by
  -- without such a reply the bounds are still the initial ones
  have h_all (replies : List (ℕ × StreamReply)) :
      ((∃ p ∈ replies, Observes p) → (applyReplies {} replies).Narrowed) ∧
      ((applyReplies {} replies).Narrowed → ∃ p ∈ replies, (applyReplies {} replies).ComesFrom p) := by
    -- induction on the replies, the last one first
    induction replies using List.reverseRecOn with
    | nil =>
      refine ⟨fun ⟨p, h_mem, _⟩ => absurd h_mem List.not_mem_nil, fun h_narrowed => ?_⟩
      unfold Narrowed applyReplies Ratio.toRat at h_narrowed
      norm_num [maxU64] at h_narrowed
    | append_singleton replies p ih =>
      rw [applyReplies_append]
      constructor
      · rintro ⟨q, h_mem, h_observes⟩
        rcases List.mem_append.mp h_mem with h_old | h_new
        · -- the last reply observes something, or one before it did
          by_cases h_p : Observes p
          · exact narrowed_of_observes _ h_p
          · have h_none : p.1 = 0 ∨ p.2.destinationAmount = none := by
              rcases Nat.eq_zero_or_pos p.1 with h_zero | h_pos
              · exact .inl h_zero
              · exact .inr (Option.eq_none_iff_forall_ne_some.mpr fun d h_some => h_p ⟨h_pos, d, h_some⟩)
            rw [applyReply_of_none h_none]
            exact ih.1 ⟨q, h_old, h_observes⟩
        · obtain rfl := List.mem_singleton.mp h_new
          exact narrowed_of_observes _ h_observes
      · intro h_narrowed
        -- the last reply has moved the bounds, or they come from before
        rcases applyReply_eq_or_comesFrom (applyReplies {} replies) p with ⟨h_lower, h_upper⟩ | h_from
        · unfold Narrowed at h_narrowed
          rw [h_lower, h_upper] at h_narrowed
          obtain ⟨q, h_mem, d, h_pos, h_some, h_bound⟩ := ih.2 h_narrowed
          refine ⟨q, List.mem_append_left _ h_mem, d, h_pos, h_some, ?_⟩
          rwa [h_lower, h_upper]
        · exact ⟨p, List.mem_append_right _ (List.mem_singleton_self p), h_from⟩
  exact ⟨(h_all replies).1 h, (h_all replies).2 ((h_all replies).1 h)⟩

end ExchangeRateController

/-! ### The max packet amount -/

namespace MaxPacketAmountController

/-- The reply is an F08 that tells a positive maximum. -/
def TellsMax (p : ℕ × StreamReply) (max : ℕ+) : Prop :=
  ∃ data isPreciseMax, IsF08 p.2 data ∧ newMax data p.1 = some ((max : ℕ), isPreciseMax)

/-- The limit is the least that the F08s told, and what got through is at most what was acknowledged. -/
structure TracedTo (replies : List (ℕ × StreamReply)) (c : MaxPacketAmountController) : Prop where
  unknown : c.state = .unknownMax → ∀ p ∈ replies, ∀ max, ¬TellsMax p max
  told : c.state ≠ .unknownMax → ∃ p ∈ replies, TellsMax p c.getMaxPacketAmountLimit
  least : ∀ p ∈ replies, ∀ max, TellsMax p max → c.getMaxPacketAmountLimit ≤ max
  verified : c.verifiedPathCapacity = 0 ∨
    ∃ p ∈ replies, c.verifiedPathCapacity ≤ p.1 ∧ Acknowledges p.2

variable {c : MaxPacketAmountController} {p : ℕ × StreamReply} {replies : List (ℕ × StreamReply)}

/-- An F08 that tells a maximum makes it known, and the limit is not above it. -/
theorem limit_le_of_tellsMax (c : MaxPacketAmountController) {max : ℕ+} (h : TellsMax p max) :
    (c.applyReply p.1 p.2).1.state ≠ .unknownMax ∧ (c.applyReply p.1 p.2).1.getMaxPacketAmountLimit ≤ max := by
  obtain ⟨data, isPreciseMax, h_f08, h_new⟩ := h
  rw [applyReply_of_f08 h_f08 h_new]
  split
  · refine ⟨adjustPathCapacity_known ?_, (setMax_limit max isPreciseMax).le⟩
    cases isPreciseMax <;> exact nofun
  · next h_lowers =>
    unfold lowersMax at h_lowers
    unfold getMaxPacketAmountLimit
    cases h_state : c.state with
    | unknownMax =>
      rw [h_state] at h_lowers
      exact absurd rfl h_lowers
    | preciseMax m | impreciseMax m =>
      rw [h_state, decide_eq_true_eq, not_lt] at h_lowers
      exact ⟨nofun, h_lowers⟩

/-- **One more reply.** -/
theorem TracedTo.applyReply (h : TracedTo replies c) (p : ℕ × StreamReply) :
    TracedTo (replies ++ [p]) (c.applyReply p.1 p.2).1 := by
  have h_last : p ∈ replies ++ [p] := List.mem_append_right _ (List.mem_singleton_self p)
  have h_known : c.state ≠ .unknownMax → (c.applyReply p.1 p.2).1.state ≠ .unknownMax := applyReply_known
  -- the limit and what got through, in each of the cases
  have h_cases : ((c.applyReply p.1 p.2).1.getMaxPacketAmountLimit = c.getMaxPacketAmountLimit ∧
        ((c.applyReply p.1 p.2).1.state ≠ .unknownMax → c.state ≠ .unknownMax) ∨
      TellsMax p (c.applyReply p.1 p.2).1.getMaxPacketAmountLimit ∧
        (c.state ≠ .unknownMax →
          (c.applyReply p.1 p.2).1.getMaxPacketAmountLimit ≤ c.getMaxPacketAmountLimit)) ∧
      ((c.applyReply p.1 p.2).1.verifiedPathCapacity ≤ c.verifiedPathCapacity ∨
        (c.applyReply p.1 p.2).1.verifiedPathCapacity ≤ p.1 ∧ Acknowledges p.2) := by
    rcases applyReply_cases c p.1 p.2 with h_eq | ⟨h_ack, h_eq⟩ |
      ⟨data, max, isPreciseMax, h_f08, h_new, h_lowers, h_eq⟩
    · rw [h_eq]
      exact ⟨.inl ⟨rfl, id⟩, .inl le_rfl⟩
    · rw [h_eq, adjustPathCapacity_verified]
      refine ⟨.inl ⟨adjustPathCapacity_limit, fun h_state h_unknown => h_state ?_⟩, ?_⟩
      · unfold adjustPathCapacity
        rw [h_unknown]
      · rcases max_choice c.verifiedPathCapacity p.1 with h_max | h_max
        · rw [h_max]
          exact .inl (min_le_left _ _)
        · rw [h_max]
          exact .inr ⟨min_le_left _ _, h_ack⟩
    · rw [h_eq, setMax_limit, setMax_verified]
      refine ⟨.inr ⟨⟨data, isPreciseMax, h_f08, h_new⟩, fun h_state => ?_⟩, .inl (min_le_left _ _)⟩
      unfold lowersMax at h_lowers
      unfold getMaxPacketAmountLimit
      cases h_c : c.state with
      | unknownMax => exact absurd h_c h_state
      | preciseMax m | impreciseMax m =>
        rw [h_c] at h_lowers
        exact le_of_lt (of_decide_eq_true h_lowers)
  -- from these the trace of all replies
  obtain ⟨h_limit, h_verified⟩ := h_cases
  refine ⟨fun h_unknown q h_mem max h_tells => ?_, fun h_state => ?_, fun q h_mem max h_tells => ?_, ?_⟩
  · rcases List.mem_append.mp h_mem with h_old | h_new
    · exact h.unknown (not_not.mp fun h_ne => h_known h_ne h_unknown) q h_old max h_tells
    · obtain rfl := List.mem_singleton.mp h_new
      exact (limit_le_of_tellsMax c h_tells).1 h_unknown
  · rcases h_limit with ⟨h_same, h_before⟩ | ⟨h_tells, -⟩
    · obtain ⟨q, h_mem, h_tells⟩ := h.told (h_before h_state)
      exact ⟨q, List.mem_append_left _ h_mem, h_same ▸ h_tells⟩
    · exact ⟨p, h_last, h_tells⟩
  · rcases List.mem_append.mp h_mem with h_old | h_new
    · -- something was told before, so that the limit was known
      have h_state : c.state ≠ .unknownMax := fun h_unknown => h.unknown h_unknown q h_old max h_tells
      have h_le := h.least q h_old max h_tells
      rcases h_limit with ⟨h_same, -⟩ | ⟨-, h_lower⟩
      · rwa [h_same]
      · exact (h_lower h_state).trans h_le
    · obtain rfl := List.mem_singleton.mp h_new
      exact (limit_le_of_tellsMax c h_tells).2
  · rcases h_verified with h_le | ⟨h_le, h_ack⟩
    · rcases h.verified with h_zero | ⟨q, h_mem, h_q, h_ack⟩
      · exact .inl (Nat.le_zero.mp (h_zero ▸ h_le))
      · exact .inr ⟨q, List.mem_append_left _ h_mem, h_le.trans h_q, h_ack⟩
    · exact .inr ⟨p, h_last, h_le, h_ack⟩

/-- **The max packet amount after any replies.** -/
theorem tracedTo_applyReplies (replies : List (ℕ × StreamReply)) :
    TracedTo replies ((new none).applyReplies replies) := by
  induction replies using List.reverseRecOn with
  | nil =>
    exact ⟨fun _ p h_mem => absurd h_mem List.not_mem_nil, fun h_state => absurd rfl h_state,
      fun p h_mem => absurd h_mem List.not_mem_nil, .inl rfl⟩
  | append_singleton replies p ih =>
    have h_step : (new none).applyReplies (replies ++ [p]) =
        (((new none).applyReplies replies).applyReply p.1 p.2).1 := by
      rw [applyReplies, applyReplies, List.foldl_append]
      rfl
    rw [h_step]
    exact ih.applyReply p

end MaxPacketAmountController

/-! ### The result -/

namespace RateProbe

open ExchangeRateController MaxPacketAmountController

variable {requestCounter : ℕ} {destinationAsset : Option AssetDetails} {l t : Loop} {e : SendEvent}
  {value : ProbeResult}

/-- The reply carries authentic STREAM data. -/
def HasStreamData (reply : StreamReply) : Prop := reply.frames.isSome ∧ reply.destinationAmount.isSome

/-- The packet was acknowledged with authentic STREAM data. -/
def Acknowledged (p : ℕ × StreamReply) : Prop := Acknowledges p.2 ∧ HasStreamData p.2

/-- What the result of a probe comes from: its rates from a reply with STREAM data to a packet of a positive
amount, and its max packet amount, if the F08s told one, from the least of these, with a packet of at least
the amount that was acknowledged. -/
structure IsReal (replies : List (ℕ × StreamReply)) (value : ProbeResult) : Prop where
  bounded : ¬(value.lowEstimatedExchangeRate.toRat = 0 ∧ value.highEstimatedExchangeRate.toRat = 2 ^ 64 - 1)
  observed : ∃ p ∈ replies, 0 < p.1 ∧ ∃ destinationAmount, p.2.destinationAmount = some destinationAmount ∧
    (value.lowEstimatedExchangeRate.toRat = (destinationAmount : ℚ) / p.1 ∨
      value.highEstimatedExchangeRate.toRat = (destinationAmount + 1 : ℚ) / p.1)
  capacity :
    (∀ p ∈ replies, ∀ max, ¬TellsMax p max) ∧ (∃ p ∈ replies, maxProbeAmount ≤ p.1 ∧ Acknowledged p) ∨
    (∃ p ∈ replies, TellsMax p value.maxPacketAmount) ∧
      (∀ p ∈ replies, ∀ max, TellsMax p max → value.maxPacketAmount ≤ max) ∧
      ∃ p ∈ replies, value.maxPacketAmount ≤ p.1 ∧ Acknowledged p

/-- A Fulfill of a packet that has an amount carries STREAM data. -/
def CarriesData (l : Loop) : SendEvent → Prop
  | .attempt _ => True
  | .reply _ i reply =>
    ∀ probeAmount ∈ l.unanswered[i]?, 0 < probeAmount → reply.isFulfill = true → HasStreamData reply

instance (reply : StreamReply) : Decidable (HasStreamData reply) := inferInstanceAs (Decidable (_ ∧ _))

instance (l : Loop) : (e : SendEvent) → Decidable (CarriesData l e)
  | .attempt _ => inferInstanceAs (Decidable True)
  | .reply _ i reply =>
    inferInstanceAs (Decidable (∀ probeAmount ∈ l.unanswered[i]?, 0 < probeAmount → reply.isFulfill = true →
      HasStreamData reply))

/-- In such a run, what counts as an acknowledgement carries STREAM data. -/
theorem acknowledged_of_reach (h : (machine requestCounter destinationAsset).Reach CarriesData l) :
    ∀ p ∈ l.answered, 0 < p.1 → Acknowledges p.2 → Acknowledged p := by
  apply h.invariant fun l => ∀ p ∈ l.answered, 0 < p.1 → Acknowledges p.2 → Acknowledged p
  · rintro l rfl p h_mem
    exact absurd h_mem List.not_mem_nil
  · rintro l (env | ⟨env, i, reply⟩) t - ih h_ok h_step p h_mem h_pos h_ack
    · rw [(SendLoop.step_attempt h_step).answered] at h_mem
      exact ih p h_mem h_pos h_ack
    · obtain ⟨request, h_replied⟩ := SendLoop.step_reply h_step
      rw [h_replied.answered] at h_mem
      rcases List.mem_append.mp h_mem with h_old | h_new
      · exact ih p h_old h_pos h_ack
      · obtain rfl := List.mem_singleton.mp h_new
        refine ⟨h_ack, ?_⟩
        by_cases h_fulfill : reply.isFulfill = true
        · exact h_ok request h_replied.get h_pos h_fulfill
        · -- a Reject is authentic only with STREAM data
          have h_authentic := h_ack.1
          unfold StreamReply.isAuthentic at h_authentic
          unfold StreamReply.isFulfill at h_fulfill
          cases h_ilp : reply.ilpReply with
          | fulfill =>
            rw [h_ilp] at h_fulfill
            exact absurd rfl h_fulfill
          | reject ilpReject =>
            simp only [h_ilp] at h_authentic
            exact Bool.and_eq_true_iff.mp h_authentic

/-- **The step that ends the probe** is a reply after which the max packet amount is verified. -/
theorem complete_of_done (h_step : (machine requestCounter destinationAsset).step l e = some t)
    (h_run : l.outcome = none) (h_done : t.outcome = some (.ok value)) :
    t.controllers.maxPacketController.isProbeComplete = true ∧ value = result t.controllers := by
  rcases e with env | ⟨env, i, reply⟩
  · obtain ⟨-, -, -, ⟨-, -, -, h_out⟩ | ⟨state, h_next, -, -, h_t⟩ | ⟨request, -, -, -, -, h_out, -⟩⟩ :=
      SendLoop.step_attempt h_step
    · rcases h_out with ⟨error, h_error⟩ | ⟨h_none, -⟩
      · rw [h_done] at h_error
        cases h_error
      · rw [h_done] at h_none
        cases h_none
    · -- an attempt that is cancelled ends with an error, if at all
      change l.sender.nextState env = _ at h_next
      rcases nextState_cases l.sender env with ⟨error, h_error⟩ | ⟨probeAmount, -, -, h_send, -⟩ | ⟨h_yield, -, -⟩
      · obtain ⟨-, h_state⟩ := Prod.mk.inj (h_next.symm.trans h_error)
        obtain rfl := NextState.cancel.inj h_state
        rw [h_t] at h_done
        cases h_done
      · rw [h_next] at h_send
        cases h_send
      · rw [h_next] at h_yield
        obtain rfl := NextState.cancel.inj h_yield
        rw [h_t] at h_done
        exact absurd (h_run.symm.trans h_done) nofun
    · rw [h_done] at h_out
      cases h_out
  · -- a reply ends the probe only when the search is complete
    obtain ⟨request, h_replied⟩ := SendLoop.step_reply h_step
    rcases h_replied.done h_done with h_before | ⟨-, h_state⟩
    · rw [h_run] at h_before
      cases h_before
    · change (l.sender.applyReply t.controllers request).2 = _ at h_state
      unfold applyReply at h_state
      simp only at h_state
      split at h_state
      · next h_complete =>
        cases h_state
        exact ⟨h_complete, rfl⟩
      · cases h_state

/-- **A finished probe has a real result**, in every run in which a Fulfill of a packet with an amount carries
STREAM data. -/
theorem done_is_real (h : (machine requestCounter destinationAsset).Reach CarriesData l)
    (h_ok : CarriesData l e) (h_step : (machine requestCounter destinationAsset).step l e = some t)
    (h_run : l.outcome = none) (h_done : t.outcome = some (.ok value)) : IsReal t.answered value := by
  have h_t := h.step h_ok h_step
  -- the result is what the controllers know
  obtain ⟨h_complete, rfl⟩ := complete_of_done h_step h_run h_done
  have h_replies : t.replies streamSender = t.answered := List.map_id _
  -- which they know from the replies
  have h_rate : t.controllers.rateCalculator = applyReplies {} t.answered :=
    h_replies ▸ SendLoop.Reach.rateCalculator_eq h_t
  have h_max : t.controllers.maxPacketController = (new none).applyReplies t.answered :=
    h_replies ▸ SendLoop.Reach.maxPacketController_eq h_t
  have h_traced := tracedTo_applyReplies t.answered
  rw [← h_max] at h_traced
  -- what got through was acknowledged by some packet
  have h_ack {m : ℕ} (h_pos : 0 < m) (h_le : m ≤ t.controllers.maxPacketController.verifiedPathCapacity) :
      ∃ p ∈ t.answered, m ≤ p.1 ∧ Acknowledged p := by
    rcases h_traced.verified with h_zero | ⟨p, h_mem, h_p, h_ack⟩
    · omega
    · exact ⟨p, h_mem, h_le.trans h_p, acknowledged_of_reach h_t p h_mem (by omega) h_ack⟩
  -- the maximum was told, or none is known up to the largest probe
  have h_capacity :
      (∀ p ∈ t.answered, ∀ max, ¬TellsMax p max) ∧
        (∃ p ∈ t.answered, maxProbeAmount ≤ p.1 ∧ Acknowledged p) ∨
      (∃ p ∈ t.answered, TellsMax p t.controllers.maxPacketController.getMaxPacketAmountLimit) ∧
        (∀ p ∈ t.answered, ∀ max, TellsMax p max →
          t.controllers.maxPacketController.getMaxPacketAmountLimit ≤ max) ∧
        ∃ p ∈ t.answered, t.controllers.maxPacketController.getMaxPacketAmountLimit ≤ p.1 ∧ Acknowledged p := by
    unfold isProbeComplete at h_complete
    cases h_state : t.controllers.maxPacketController.state with
    | unknownMax =>
      rw [h_state] at h_complete
      exact .inl ⟨h_traced.unknown h_state, h_ack (by decide) (of_decide_eq_true h_complete)⟩
    | preciseMax m =>
      rw [h_state] at h_complete
      have h_limit : t.controllers.maxPacketController.getMaxPacketAmountLimit = m := by
        unfold getMaxPacketAmountLimit
        rw [h_state]
      refine .inr ⟨h_traced.told (by rw [h_state]; exact nofun), h_traced.least, ?_⟩
      exact h_ack (PNat.pos _) (h_limit ▸ (of_decide_eq_true h_complete).ge)
    | impreciseMax m =>
      rw [h_state] at h_complete
      cases h_complete
  -- the packet that was acknowledged told a rate
  have h_observes : ∃ p ∈ t.answered, Observes p := by
    have h_any : ∃ p ∈ t.answered, 0 < p.1 ∧ Acknowledged p := by
      rcases h_capacity with ⟨-, p, h_mem, h_p, h_ack⟩ | ⟨-, -, p, h_mem, h_p, h_ack⟩
      · exact ⟨p, h_mem, lt_of_lt_of_le (by decide) h_p, h_ack⟩
      · exact ⟨p, h_mem, lt_of_lt_of_le (PNat.pos _) h_p, h_ack⟩
    obtain ⟨p, h_mem, h_pos, -, -, h_amount⟩ := h_any
    exact ⟨p, h_mem, h_pos, Option.isSome_iff_exists.mp h_amount⟩
  -- so that the bounds come from a reply
  obtain ⟨h_narrowed, p, h_mem, d, h_pos, h_some, h_bound⟩ := narrowed_applyReplies h_observes
  refine ⟨?_, ⟨p, h_mem, h_pos, d, h_some, ?_⟩, h_capacity⟩
  · rintro ⟨h_low, h_high⟩
    unfold result at h_low h_high
    rw [h_rate] at h_low h_high
    rcases h_narrowed with h_lower | h_upper
    · exact h_lower.ne' h_low
    · rw [h_high] at h_upper
      norm_num [maxU64] at h_upper
  · unfold result
    rwa [h_rate]

/-- A new probe that has sent its first two packets, of 0 and of `10 ^ 12` units. -/
def twoSent : Option Loop :=
  (machine 0 none).exec CarriesData { controllers := controllers 0 none, sender := {} }
    [.attempt ⟨0, false⟩, .attempt ⟨0, false⟩]

/-- The state of the probe when the second of the two packets is answered. -/
theorem exists_answered (reply : StreamReply) (value : ProbeResult)
    (h : (twoSent.bind fun l => (machine 0 none).step l (.reply ⟨0, false⟩ 1 reply)).map (fun t =>
      (t.answered, t.outcome)) = some ([(10 ^ 12, reply)], some (.ok value))) :
    ∃ l t, (machine 0 none).Reach CarriesData l ∧ l.unanswered[1]? = some (10 ^ 12) ∧
      (machine 0 none).step l (.reply ⟨0, false⟩ 1 reply) = some t ∧ l.outcome = none ∧
      t.answered = [(10 ^ 12, reply)] ∧ t.outcome = some (.ok value) := by
  obtain ⟨t, h_step, h_end⟩ := Option.map_eq_some_iff.mp h
  obtain ⟨l, h_exec, h_step⟩ := Option.bind_eq_some_iff.mp h_step
  obtain ⟨h_answered, h_outcome⟩ := Prod.mk.inj h_end
  have h_sent : twoSent.map (fun l => (l.unanswered[1]?, l.outcome)) = some (some (10 ^ 12), none) := by
    decide +kernel
  rw [h_exec] at h_sent
  obtain ⟨h_flight, h_run⟩ := Prod.mk.inj (Option.some.inj h_sent)
  exact ⟨l, t, Machine.reach_of_exec _ rfl h_exec, h_flight, h_step, h_run, h_answered, h_outcome⟩

/-- The receiver rejects the packet and reports half a unit for each. -/
theorem done_is_real_half : ∃ (l t : Loop) (value : ProbeResult), (machine 0 none).Reach CarriesData l ∧
    t.outcome = some (.ok value) ∧ value.lowEstimatedExchangeRate = ⟨5 * 10 ^ 11, 10 ^ 12, by decide⟩ ∧
    IsReal t.answered value := by
  obtain ⟨l, t, h, -, h_step, h_run, -, h_done⟩ := exists_answered
    ⟨.reject ⟨.f99ApplicationError, []⟩, some [], some (5 * 10 ^ 11)⟩
    ⟨⟨maxU64, by decide⟩, ⟨5 * 10 ^ 11, 10 ^ 12, by decide⟩,
      ⟨⟨5 * 10 ^ 11 + 1, 10 ^ 12, by decide⟩, by decide⟩⟩ (by decide +kernel)
  have h_ok : CarriesData l (.reply ⟨0, false⟩ 1
      ⟨.reject ⟨.f99ApplicationError, []⟩, some [], some (5 * 10 ^ 11)⟩) := fun _ _ _ _ => ⟨rfl, rfl⟩
  exact ⟨l, t, _, h, h_done, rfl, done_is_real h h_ok h_step h_run h_done⟩

/-- **A forged Fulfill** of the packet, without STREAM data, ends the probe with the initial bounds. -/
theorem done_without_rate : ∃ (l t : Loop) (value : ProbeResult), (machine 0 none).Reachable l ∧
    (machine 0 none).step l (.reply ⟨0, false⟩ 1 ⟨.fulfill, none, none⟩) = some t ∧ l.outcome = none ∧
    t.outcome = some (.ok value) ∧ value.lowEstimatedExchangeRate = ⟨0, 1, by decide⟩ ∧
    value.highEstimatedExchangeRate = ⟨⟨maxU64, 1, by decide⟩, by decide⟩ ∧ ¬IsReal t.answered value := by
  obtain ⟨l, t, h, -, h_step, h_run, -, h_done⟩ := exists_answered ⟨.fulfill, none, none⟩
    ⟨⟨maxU64, by decide⟩, ⟨0, 1, by decide⟩, ⟨⟨maxU64, 1, by decide⟩, by decide⟩⟩ (by decide +kernel)
  refine ⟨l, t, _, h.reachable, h_step, h_run, h_done, rfl, rfl, fun h_real => h_real.bounded ?_⟩
  unfold Ratio.toRat
  norm_num [maxU64]

end RateProbe

end Interledger.Pay
