import Interledger.Pay.ProbeResult

/-!
# Paths with a constant rate

A path that converts at one rate all the time: of a packet of `s` units it delivers `r * s`, rounded down,
unless the packet is above its max packet amount. What is delivered is answered by the receiver, who fulfils
what may be fulfilled and meets its minimum, and reports the amount either way.

## Main results

* `ConstantPath.rate_mem_rates` — the rate is within the bounds, once it has been observed;
* `ConstantPath.mem_rates_of_done` — so it is within those that a rate probe resolves to.
-/

namespace Interledger.Pay

open Interledger.Ilp Interledger.Stream

/-- The code of a Reject. -/
def StreamReply.errorCode (reply : StreamReply) : Option IlpErrorCode :=
  match reply.ilpReply with
  | .fulfill => none
  | .reject ilpReject => some ilpReject.code

theorem StreamReply.isFulfill_iff (reply : StreamReply) : reply.isFulfill = true ↔ reply.errorCode = none := by
  unfold isFulfill errorCode
  cases reply.ilpReply with
  | fulfill => exact iff_of_true rfl rfl
  | reject ilpReject => exact iff_of_false Bool.false_ne_true (Option.some_ne_none _)

/-- A path with a constant rate and a constant max packet amount. No packet carries more than `MAX_U64`. -/
structure ConstantPath where
  rate : PositiveRatio
  maxPacketAmount : ℕ
  maxPacketAmount_le : maxPacketAmount ≤ maxU64
  delivered_le : multiplyFloor maxPacketAmount rate.toRatio ≤ maxU64

namespace ConstantPath

open ExchangeRateController

variable (path : ConstantPath)

/-- What is delivered of a packet. -/
def deliver (sourceAmount : ℕ) : ℕ := multiplyFloor sourceAmount path.rate.toRatio

/-- The replies to a packet, which the receiver fulfils or does not. One that is too large for the path does
not get to the receiver. -/
def Answers (fulfills : Bool) (sourceAmount : ℕ) (reply : StreamReply) : Prop :=
  if path.maxPacketAmount < sourceAmount then
    reply.errorCode = some .f08AmountTooLarge ∧ reply.frames = none ∧ reply.destinationAmount = none
  else
    reply.errorCode = (if fulfills then none else some .f99ApplicationError) ∧ reply.frames.isSome = true ∧
      reply.destinationAmount = some (path.deliver sourceAmount)

instance (fulfills : Bool) (sourceAmount : ℕ) (reply : StreamReply) :
    Decidable (path.Answers fulfills sourceAmount reply) :=
  inferInstanceAs (Decidable (ite _ _ _))

variable {path} {fulfills : Bool} {sourceAmount : ℕ} {reply : StreamReply}

theorem deliver_eq_floor (sourceAmount : ℕ) :
    path.deliver sourceAmount = ⌊path.rate.toRat * sourceAmount⌋₊ :=
  multiplyFloor_eq_floor _ _

/-- What is delivered fits in a packet. -/
theorem deliver_le (h : sourceAmount ≤ path.maxPacketAmount) : path.deliver sourceAmount ≤ maxU64 :=
  (Nat.div_le_div_right (Nat.mul_le_mul_right _ h)).trans path.delivered_le

/-- The amount is reported as it is delivered. -/
theorem Answers.reports (h : path.Answers fulfills sourceAmount reply) :
    Reports path.rate.toRat (sourceAmount, reply) := by
  intro destinationAmount h_some _
  unfold Answers at h
  split at h
  · rw [h.2.2] at h_some
    cases h_some
  · rw [h.2.2] at h_some
    rw [← Option.some.inj h_some]
    exact deliver_eq_floor sourceAmount

theorem Answers.isFulfill_eq (h : path.Answers fulfills sourceAmount reply)
    (h_le : sourceAmount ≤ path.maxPacketAmount) : reply.isFulfill = fulfills := by
  unfold Answers at h
  rw [if_neg (not_lt.mpr h_le)] at h
  rw [Bool.eq_iff_iff, StreamReply.isFulfill_iff, h.1]
  cases fulfills <;> simp

/-- What may not be fulfilled is not. -/
theorem Answers.isFulfill_eq_false (h : path.Answers false sourceAmount reply) : reply.isFulfill = false := by
  by_cases h_le : sourceAmount ≤ path.maxPacketAmount
  · exact h.isFulfill_eq h_le
  · unfold Answers at h
    rw [if_pos (not_le.mp h_le)] at h
    rw [← Bool.not_eq_true, StreamReply.isFulfill_iff, h.1]
    exact Option.some_ne_none _

/-! ### The bounds of the rate -/

/-- Without a reply that tells a rate the bounds are the initial ones. -/
theorem applyReplies_of_not_observes {c : ExchangeRateController} {replies : List (ℕ × StreamReply)}
    (h : ∀ p ∈ replies, ¬Observes p) : c.applyReplies replies = c := by
  induction replies with
  | nil => rfl
  | cons p replies ih =>
    have h_none : p.1 = 0 ∨ p.2.destinationAmount = none := by
      by_contra h_both
      obtain ⟨h_ne, h_some⟩ := not_or.mp h_both
      exact h p List.mem_cons_self ⟨Nat.pos_of_ne_zero h_ne, Option.ne_none_iff_exists'.mp h_some⟩
    change (c.applyReply p.1 p.2).applyReplies replies = c
    rw [applyReply_of_none h_none]
    exact ih fun q h_q => h q (List.mem_cons_of_mem p h_q)

/-- The first reply that tells a rate brings it within the bounds, be it above `MAX_U64` or not. -/
theorem mem_rates_of_first {r : ℚ} {p : ℕ × StreamReply} (h_nonneg : 0 ≤ r) (h_reports : Reports r p)
    (h_observes : Observes p) : r ∈ (applyReply {} p.1 p.2).rates := by
  obtain ⟨h_pos, d, h_some⟩ := h_observes
  have h_packet : r ∈ packetRates p.1 d :=
    (RateInterval.floor_mul_eq_iff h_nonneg h_pos).mp (h_reports d h_some h_pos).symm
  rw [rates_applyReply sound_new h_pos h_some]
  -- the bounds of a new controller are cut down, or they are given up
  split
  · next h_common =>
    refine ⟨⟨?_, ?_⟩, h_packet⟩
    · change (0 : ℕ) / (1 : ℕ) ≤ r
      rw [Nat.cast_zero, zero_div]
      exact h_nonneg
    · -- a rate of `MAX_U64` or more would have delivered more than the bounds allow
      obtain ⟨q, ⟨-, h_q⟩, h_le, -⟩ := h_common
      change q < (maxU64 : ℕ) / (1 : ℕ) at h_q
      change r < (maxU64 : ℕ) / (1 : ℕ)
      rw [Nat.cast_one, div_one] at h_q ⊢
      by_contra h_large
      have h_s : (0 : ℚ) < p.1 := Nat.cast_pos.mpr h_pos
      have h_d : maxU64 * p.1 ≤ d := by
        rw [h_reports d h_some h_pos]
        apply Nat.le_floor
        rw [Nat.cast_mul]
        exact mul_le_mul_of_nonneg_right (not_lt.mp h_large) h_s.le
      have h_ratio : (maxU64 : ℚ) ≤ d / p.1 := by
        rw [le_div_iff₀ h_s]
        exact_mod_cast h_d
      exact absurd h_q (not_lt.mpr (h_ratio.trans h_le))
  · exact h_packet

/-- **The rate is within the bounds**, once a reply has told it. -/
theorem rate_mem_rates {replies : List (ℕ × StreamReply)}
    (h_reports : ∀ p ∈ replies, Reports path.rate.toRat p) (h_observes : ∃ p ∈ replies, Observes p) :
    path.rate.toRat ∈ (applyReplies {} replies).rates := by
  induction replies using List.reverseRecOn with
  | nil =>
    obtain ⟨p, h_p, -⟩ := h_observes
    exact absurd h_p List.not_mem_nil
  | append_singleton replies p ih =>
    have h_last := h_reports p (List.mem_append_right _ (List.mem_singleton_self p))
    have h_before := fun q h_q => h_reports q (List.mem_append_left _ h_q)
    rw [applyReplies_append]
    -- the rate is kept once it is in, and the first observation brings it in
    by_cases h_old : ∃ q ∈ replies, Observes q
    · exact (applyReply_of_reports (ih h_before h_old) h_last).1
    · have h_none : ∀ q ∈ replies, ¬Observes q := fun q h_q h => h_old ⟨q, h_q, h⟩
      rw [applyReplies_of_not_observes h_none]
      apply mem_rates_of_first path.rate.toRat_pos.le h_last
      obtain ⟨q, h_q, h⟩ := h_observes
      rcases List.mem_append.mp h_q with h_old' | h_new
      · exact absurd h (h_none q h_old')
      · rwa [← List.mem_singleton.mp h_new]

/-! ### A rate probe on the path -/

variable (path) in
/-- The replies to the packets of a rate probe are those of the path. None of the packets may be fulfilled. -/
def Probes (l : RateProbe.Loop) : SendEvent → Prop
  | .attempt _ => True
  | .reply _ i reply => ∀ probeAmount ∈ l.unanswered[i]?, path.Answers false probeAmount reply

instance (l : RateProbe.Loop) : (e : SendEvent) → Decidable (path.Probes l e)
  | .attempt _ => .isTrue trivial
  | .reply _ i reply =>
    show Decidable (∀ probeAmount ∈ l.unanswered[i]?, path.Answers false probeAmount reply) from
      Option.decidableForallMem l.unanswered[i]?

variable {requestCounter : ℕ} {destinationAsset : Option AssetDetails} {l : RateProbe.Loop} {value : ProbeResult}

/-- No packet of the probe is fulfilled, with data or without. -/
theorem Probes.carriesData {e : SendEvent} (h : path.Probes l e) : RateProbe.CarriesData l e := by
  cases e with
  | attempt env => trivial
  | reply env i reply =>
    intro probeAmount h_get _ h_fulfill
    rw [(h probeAmount h_get).isFulfill_eq_false] at h_fulfill
    cases h_fulfill

/-- The packets and replies of a probe. -/
theorem reports_of_reach (h : (RateProbe.machine requestCounter destinationAsset).Reach path.Probes l) :
    ∀ p ∈ l.answered, Reports path.rate.toRat p := by
  apply h.invariant fun l => ∀ p ∈ l.answered, Reports path.rate.toRat p
  · rintro l rfl p h_mem
    exact absurd h_mem List.not_mem_nil
  · rintro l (env | ⟨env, i, reply⟩) t - ih h_ok h_step p h_mem
    · rw [(SendLoop.step_attempt h_step).answered] at h_mem
      exact ih p h_mem
    · obtain ⟨probeAmount, h_replied⟩ := SendLoop.step_reply h_step
      rw [h_replied.answered] at h_mem
      rcases List.mem_append.mp h_mem with h_old | h_new
      · exact ih p h_old
      · obtain rfl := List.mem_singleton.mp h_new
        exact (h_ok probeAmount h_replied.get).reports

/-- **What a rate probe resolves to** on the path: bounds around its rate. -/
theorem mem_rates_of_done (h : (RateProbe.machine requestCounter destinationAsset).Reach path.Probes l)
    (h_done : l.outcome = some (.ok value)) :
    path.rate.toRat ∈
      Set.Ico value.lowEstimatedExchangeRate.toRat value.highEstimatedExchangeRate.toRat := by
  revert h_done
  apply h.invariant fun l => l.outcome = some (.ok value) → path.rate.toRat ∈
    Set.Ico value.lowEstimatedExchangeRate.toRat value.highEstimatedExchangeRate.toRat
  · rintro l rfl h_done
    cases h_done
  · intro l e t h_l ih h_ok h_step h_done
    by_cases h_run : l.outcome = none
    · -- this is the reply that ends the probe
      have h_data := h_l.mono fun _ _ h => h.carriesData
      obtain ⟨p, h_p, h_observes⟩ :=
        (RateProbe.done_is_real h_data h_ok.carriesData h_step h_run h_done).observed
      obtain ⟨-, rfl⟩ := RateProbe.complete_of_done h_step h_run h_done
      have h_t := h_l.step h_ok h_step
      have h_rate : t.controllers.rateCalculator = applyReplies {} t.answered := by
        have h_eq := SendLoop.Reach.rateCalculator_eq h_t
        rwa [show t.replies RateProbe.streamSender = t.answered from List.map_id _] at h_eq
      change path.rate.toRat ∈ t.controllers.rateCalculator.rates
      rw [h_rate]
      exact rate_mem_rates (reports_of_reach h_t) ⟨p, h_p, h_observes.1, h_observes.2.imp fun _ h => h.1⟩
    · -- it has ended before
      apply ih
      rcases e with env | ⟨env, i, reply⟩
      · exact absurd (SendLoop.step_attempt h_step).running h_run
      · obtain ⟨_, h_replied⟩ := SendLoop.step_reply h_step
        rw [← h_replied.outcome_of_some (Option.isSome_iff_ne_none.mpr h_run)]
        exact h_done

end ConstantPath

end Interledger.Pay
