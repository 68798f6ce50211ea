import Interledger.Lib.Machine
import Interledger.Pay.Controllers

/-!
# The search for the max packet amount

`MaxPacketAmountController` keeps a limit on the amount of a packet and an amount that got through. F08s
lower the limit, acknowledgements raise the amount, and while the limit is imprecise the next packet is half
way between them.

The packets in flight are kept beside the controller, so that a reply may come after the limit was lowered
for another one.

## Main results

* `MaxPacketAmountController.applyReply_cases` — all that a reply can do;
* `PacketSearch.search_bounds` — the order of the amounts in every state, and the search on a path with a constant
  maximum, which each probe brings closer to its end.
-/

namespace Interledger.Pay

open Interledger.Ilp

namespace MaxPacketAmountController

variable (c : MaxPacketAmountController)

/-- The reply is an F08 with this data. -/
def IsF08 (reply : StreamReply) (data : Buffer) : Prop :=
  ∃ ilpReject, reply.ilpReply = .reject ilpReject ∧ ilpReject.code = .f08AmountTooLarge ∧ ilpReject.data = data

/-- The reply is authentic and no F08. -/
def Acknowledges (reply : StreamReply) : Prop :=
  reply.isAuthentic = true ∧ ∀ data, ¬IsF08 reply data

/-- The state for a limit. -/
def knownMax (maxPacketAmount : ℕ+) (isPreciseMax : Bool) : MaxPacketAmount :=
  if isPreciseMax then .preciseMax maxPacketAmount else .impreciseMax maxPacketAmount

/-- The controller with a new limit, as an F08 sets it. -/
def setMax (maxPacketAmount : ℕ+) (isPreciseMax : Bool) : MaxPacketAmountController :=
  adjustPathCapacity { c with state := knownMax maxPacketAmount isPreciseMax } c.verifiedPathCapacity

/-- What got through is within the limit, and below one that is imprecise. -/
structure Sound : Prop where
  verified_le : c.verifiedPathCapacity ≤ c.getMaxPacketAmountLimit
  verified_lt : ∀ m, c.state = .impreciseMax m → c.verifiedPathCapacity < m

/-- How far the limit is from what got through. -/
def gap : ℕ := c.getMaxPacketAmountLimit - c.verifiedPathCapacity

variable {c} {sourceAmount ackAmount : ℕ} {reply : StreamReply} {data : Buffer}

/-! ### One reply -/

theorem adjustPathCapacity_verified : (c.adjustPathCapacity ackAmount).verifiedPathCapacity =
    min (max c.verifiedPathCapacity ackAmount) c.getMaxPacketAmountLimit := by
  unfold adjustPathCapacity
  rw [orLesser_some, orGreater_some]

/-- An acknowledgement leaves the limit alone. -/
theorem adjustPathCapacity_limit :
    (c.adjustPathCapacity ackAmount).getMaxPacketAmountLimit = c.getMaxPacketAmountLimit := by
  unfold adjustPathCapacity getMaxPacketAmountLimit
  cases c.state with
  | preciseMax m | unknownMax => rfl
  | impreciseMax m =>
    simp only
    by_cases h : orLesser (orGreater c.verifiedPathCapacity (some ackAmount)) (some (m : ℕ)) = m
    · rw [if_pos h]
    · rw [if_neg h]

/-- An imprecise limit stays imprecise only as long as it is not reached. -/
theorem adjustPathCapacity_imprecise {m : ℕ+} (h : (c.adjustPathCapacity ackAmount).state = .impreciseMax m) :
    c.state = .impreciseMax m ∧ (c.adjustPathCapacity ackAmount).verifiedPathCapacity ≠ m := by
  unfold adjustPathCapacity at h ⊢
  cases h_state : c.state with
  | preciseMax m' | unknownMax =>
    rw [h_state] at h
    cases h
  | impreciseMax m' =>
    rw [h_state] at h
    simp only at h
    split at h
    · cases h
    · next h_ne =>
      cases h
      exact ⟨rfl, h_ne⟩

/-- A limit becomes precise when it is reached. -/
theorem adjustPathCapacity_precise {m : ℕ+} (h : (c.adjustPathCapacity ackAmount).state = .preciseMax m) :
    c.state = .preciseMax m ∨
      c.state = .impreciseMax m ∧ (c.adjustPathCapacity ackAmount).verifiedPathCapacity = m := by
  unfold adjustPathCapacity at h ⊢
  cases h_state : c.state with
  | preciseMax m' =>
    rw [h_state] at h
    exact .inl h
  | unknownMax =>
    rw [h_state] at h
    cases h
  | impreciseMax m' =>
    rw [h_state] at h
    simp only at h
    split at h
    · next h_eq =>
      cases h
      exact .inr ⟨rfl, h_eq⟩
    · cases h

/-- Whatever it was before, the controller is sound after an adjustment. -/
theorem sound_adjustPathCapacity (c : MaxPacketAmountController) (ackAmount : ℕ) :
    (c.adjustPathCapacity ackAmount).Sound := by
  have h_le : (c.adjustPathCapacity ackAmount).verifiedPathCapacity ≤
      (c.adjustPathCapacity ackAmount).getMaxPacketAmountLimit := by
    rw [adjustPathCapacity_verified, adjustPathCapacity_limit]
    exact min_le_right _ _
  refine ⟨h_le, fun m h_state => ?_⟩
  obtain ⟨-, h_ne⟩ := adjustPathCapacity_imprecise h_state
  apply lt_of_le_of_ne _ h_ne
  unfold getMaxPacketAmountLimit at h_le
  rwa [h_state] at h_le

theorem setMax_limit (maxPacketAmount : ℕ+) (isPreciseMax : Bool) :
    (c.setMax maxPacketAmount isPreciseMax).getMaxPacketAmountLimit = maxPacketAmount := by
  rw [setMax, adjustPathCapacity_limit]
  cases isPreciseMax <;> rfl

theorem setMax_verified (maxPacketAmount : ℕ+) (isPreciseMax : Bool) :
    (c.setMax maxPacketAmount isPreciseMax).verifiedPathCapacity =
      min c.verifiedPathCapacity maxPacketAmount := by
  rw [setMax, adjustPathCapacity_verified, max_self]
  cases isPreciseMax <;> rfl

/-- The new maximum is not above what was sent. -/
theorem newMax_le {newMax : ℕ} {isPreciseMax : Bool}
    (h : MaxPacketAmountController.newMax data sourceAmount = some (newMax, isPreciseMax)) :
    newMax ≤ sourceAmount := by
  unfold MaxPacketAmountController.newMax at h
  split at h
  · next remoteReceived remoteMaximum _ =>
    split at h
    · next h_less =>
      cases h
      rw [← Nat.lt_succ_iff, multiplyFloor_lt_iff]
      calc remoteMaximum * sourceAmount ≤ remoteReceived * sourceAmount :=
          Nat.mul_le_mul_right _ (le_of_lt h_less)
        _ = sourceAmount * remoteReceived := Nat.mul_comm _ _
        _ < (sourceAmount + 1) * remoteReceived := Nat.mul_lt_mul_of_pos_right (Nat.lt_succ_self _)
          (Nat.zero_lt_of_lt h_less)
    · cases h
  · cases h
    rw [saturatingSubtract_eq]
    exact Nat.sub_le _ _

/-- **All that a reply can do**: nothing, acknowledge the packet, or set a lower limit. -/
theorem applyReply_cases (c : MaxPacketAmountController) (sourceAmount : ℕ) (reply : StreamReply) :
    (c.applyReply sourceAmount reply).1 = c ∨
    (Acknowledges reply ∧ (c.applyReply sourceAmount reply).1 = c.adjustPathCapacity sourceAmount) ∨
    ∃ data newMax isPreciseMax, IsF08 reply data ∧
      MaxPacketAmountController.newMax data sourceAmount = some (PNat.val newMax, isPreciseMax) ∧
      c.lowersMax newMax = true ∧ (c.applyReply sourceAmount reply).1 = c.setMax newMax isPreciseMax := by
  -- a reply that is no F08 acknowledges the amount if it is authentic
  have h_ack (h_not : ∀ data, ¬IsF08 reply data) :
      (if reply.isAuthentic then (c.adjustPathCapacity sourceAmount, (none : Option PaymentError))
        else (c, none)).1 = c ∨
      Acknowledges reply ∧ (if reply.isAuthentic then
        (c.adjustPathCapacity sourceAmount, (none : Option PaymentError)) else (c, none)).1 =
          c.adjustPathCapacity sourceAmount := by
    split
    · next h_authentic => exact .inr ⟨⟨h_authentic, h_not⟩, rfl⟩
    · exact .inl rfl
  unfold applyReply
  cases h_reply : reply.ilpReply with
  | fulfill =>
    have h_not (data : Buffer) : ¬IsF08 reply data := by
      rintro ⟨ilpReject, h_reject, -⟩
      rw [h_reply] at h_reject
      cases h_reject
    exact (h_ack h_not).imp_right .inl
  | reject ilpReject =>
    simp only
    -- an F08 gives a new maximum, which may be none
    by_cases h_code : ilpReject.code = .f08AmountTooLarge
    · rw [if_pos h_code]
      unfold reduceMaxPacketAmount
      cases h_new : MaxPacketAmountController.newMax ilpReject.data sourceAmount with
      | none => exact .inl rfl
      | some p =>
        obtain ⟨newMax, isPreciseMax⟩ := p
        simp only
        by_cases h_pos : 0 < newMax
        · rw [dif_pos h_pos]
          by_cases h_lowers : c.lowersMax newMax = true
          · rw [if_pos h_lowers]
            exact .inr (.inr ⟨ilpReject.data, ⟨newMax, h_pos⟩, isPreciseMax, ⟨ilpReject, h_reply, h_code, rfl⟩,
              h_new, h_lowers, rfl⟩)
          · rw [if_neg h_lowers]
            exact .inl rfl
        · rw [dif_neg h_pos]
          exact .inl rfl
    · rw [if_neg h_code]
      have h_not (data : Buffer) : ¬IsF08 reply data := by
        rintro ⟨ilpReject', h_reject, h_code', -⟩
        rw [h_reply] at h_reject
        cases h_reject
        exact h_code h_code'
      exact (h_ack h_not).imp_right .inl

/-- An acknowledgement counts. -/
theorem applyReply_of_acknowledges (h : Acknowledges reply) :
    (c.applyReply sourceAmount reply).1 = c.adjustPathCapacity sourceAmount := by
  unfold applyReply
  cases h_reply : reply.ilpReply with
  | fulfill =>
    simp only
    rw [if_pos h.1]
  | reject ilpReject =>
    have h_code : ilpReject.code ≠ .f08AmountTooLarge := fun h_f08 =>
      h.2 ilpReject.data ⟨ilpReject, h_reply, h_f08, rfl⟩
    simp only
    rw [if_neg h_code, if_pos h.1]

/-- So does an F08 that tells a maximum below the limit. -/
theorem applyReply_of_f08 (h : IsF08 reply data) {newMax : ℕ+} {isPreciseMax : Bool}
    (h_new : MaxPacketAmountController.newMax data sourceAmount = some ((newMax : ℕ), isPreciseMax)) :
    (c.applyReply sourceAmount reply).1 = if c.lowersMax newMax then c.setMax newMax isPreciseMax else c := by
  obtain ⟨ilpReject, h_reply, h_code, rfl⟩ := h
  unfold applyReply reduceMaxPacketAmount
  rw [h_reply]
  simp only
  rw [if_pos h_code, h_new]
  simp only
  rw [dif_pos newMax.pos]
  split <;> rfl

/-- Without amounts to read, the maximum is below what was sent. -/
theorem newMax_of_none (h_data : readF08 data = none) (newMax : ℕ+) :
    MaxPacketAmountController.newMax data (newMax + 1) = some ((newMax : ℕ), false) := by
  unfold MaxPacketAmountController.newMax
  rw [h_data, saturatingSubtract_eq]
  rfl

/-- **The limit never rises**, for packets of amounts that an ILP packet can hold. -/
theorem applyReply_limit_le (c : MaxPacketAmountController) (reply : StreamReply)
    (h : sourceAmount ≤ maxU64) :
    (c.applyReply sourceAmount reply).1.getMaxPacketAmountLimit ≤ c.getMaxPacketAmountLimit := by
  rcases applyReply_cases c sourceAmount reply with h_eq | ⟨-, h_eq⟩ |
    ⟨data, newMax, isPreciseMax, -, h_new, h_lowers, h_eq⟩
  · rw [h_eq]
  · rw [h_eq, adjustPathCapacity_limit]
  · rw [h_eq, setMax_limit]
    unfold lowersMax at h_lowers
    unfold getMaxPacketAmountLimit
    cases h_state : c.state with
    | preciseMax m | impreciseMax m =>
      rw [h_state] at h_lowers
      exact le_of_lt (of_decide_eq_true h_lowers)
    | unknownMax => exact (newMax_le h_new).trans h

/-- A reply keeps the controller sound. -/
theorem Sound.applyReply (h : c.Sound) (sourceAmount : ℕ) (reply : StreamReply) :
    (c.applyReply sourceAmount reply).1.Sound := by
  rcases applyReply_cases c sourceAmount reply with h_eq | ⟨-, h_eq⟩ | ⟨_, _, _, -, -, -, h_eq⟩
  · rwa [h_eq]
  · rw [h_eq]
    exact sound_adjustPathCapacity c _
  · rw [h_eq]
    exact sound_adjustPathCapacity _ _

theorem sound_new (preciseMaxPacketAmount : Option ℕ+) : (new preciseMaxPacketAmount).Sound := by
  cases preciseMaxPacketAmount with
  | none | some m => exact ⟨Nat.zero_le _, fun m h => nomatch h⟩

/-- **The next amount** is within the limit, and above what got through while the limit is imprecise. -/
theorem Sound.getNextMaxPacketAmount (h : c.Sound) {amount : ℕ+}
    (h_next : c.getNextMaxPacketAmount = some amount) :
    amount ≤ c.getMaxPacketAmountLimit ∧
      ∀ m, c.state = .impreciseMax m → c.verifiedPathCapacity < amount := by
  unfold MaxPacketAmountController.getNextMaxPacketAmount getMaxPacketAmountLimit at *
  cases h_state : c.state with
  | preciseMax m =>
    rw [h_state] at h_next
    cases h_next
    exact ⟨le_rfl, fun m' h' => nomatch h'⟩
  | unknownMax =>
    rw [h_state] at h_next
    cases h_next
  | impreciseMax m =>
    have h_lt := h.verified_lt m h_state
    rw [h_state] at h_next
    cases h_next
    -- half of a difference that is positive, rounded up
    have h_half : 0 < divideCeil (saturatingSubtract m c.verifiedPathCapacity) 2 ∧
        divideCeil (saturatingSubtract m c.verifiedPathCapacity) 2 + c.verifiedPathCapacity ≤ m := by
      unfold divideCeil
      rw [saturatingSubtract_eq]
      omega
    exact ⟨h_half.2, fun _ _ => Nat.lt_add_of_pos_left h_half.1⟩

/-- Until the limit is reached, the next amount is above what got through. -/
theorem Sound.lt_getNextMaxPacketAmount (h : c.Sound) (h_gap : 0 < c.gap) {amount : ℕ+}
    (h_next : c.getNextMaxPacketAmount = some amount) : c.verifiedPathCapacity < amount := by
  cases h_state : c.state with
  | preciseMax m =>
    unfold gap getMaxPacketAmountLimit at h_gap
    unfold MaxPacketAmountController.getNextMaxPacketAmount at h_next
    rw [h_state] at h_gap h_next
    obtain rfl := Option.some.inj h_next
    exact Nat.lt_of_sub_pos h_gap
  | impreciseMax m => exact (h.getNextMaxPacketAmount h_next).2 m h_state
  | unknownMax =>
    unfold MaxPacketAmountController.getNextMaxPacketAmount at h_next
    rw [h_state] at h_next
    cases h_next

/-- A lower limit counts. -/
theorem lowersMax_of_lt {newMax : ℕ+} (h_lt : (newMax : ℕ) < c.getMaxPacketAmountLimit) :
    c.lowersMax newMax = true := by
  unfold lowersMax
  unfold getMaxPacketAmountLimit at h_lt
  cases h_state : c.state with
  | preciseMax m | impreciseMax m =>
    rw [h_state] at h_lt
    exact decide_eq_true h_lt
  | unknownMax => rfl

/-! ### A path with a constant maximum -/

/-- What a path with the maximum `max` answers to a packet: an F08 without amounts to read, or an
acknowledgement. -/
def Answers (max sourceAmount : ℕ) (reply : StreamReply) : Prop :=
  if max < sourceAmount then ∃ data, IsF08 reply data ∧ readF08 data = none
  else Acknowledges reply

/-- The maximum is between what got through and the limit, which is precise only there. -/
structure Brackets (max : ℕ) (c : MaxPacketAmountController) : Prop where
  verified_le : c.verifiedPathCapacity ≤ max
  le_limit : max ≤ c.getMaxPacketAmountLimit
  precise : ∀ m, c.state = .preciseMax m → m = max

variable {max : ℕ}

theorem adjustPathCapacity_brackets {c : MaxPacketAmountController} (h_ack : ackAmount ≤ max)
    (h_verified : c.verifiedPathCapacity ≤ max) (h_limit : max ≤ c.getMaxPacketAmountLimit)
    (h_precise : ∀ m, c.state = .preciseMax m → m = max) : Brackets max (c.adjustPathCapacity ackAmount) := by
  have h_le : (c.adjustPathCapacity ackAmount).verifiedPathCapacity ≤ max := by
    rw [adjustPathCapacity_verified]
    exact (min_le_left _ _).trans (max_le h_verified h_ack)
  refine ⟨h_le, h_limit.trans_eq (congrArg PNat.val adjustPathCapacity_limit.symm), fun m h_state => ?_⟩
  rcases adjustPathCapacity_precise h_state with h_before | ⟨h_before, h_reached⟩
  · exact h_precise m h_before
  · -- the limit is reached from below
    unfold getMaxPacketAmountLimit at h_limit
    rw [h_before] at h_limit
    exact le_antisymm (h_reached ▸ h_le) h_limit

/-- **On a path with a constant maximum**, every reply keeps it between the two amounts. -/
theorem Brackets.applyReply (h : Brackets max c) (h_answer : Answers max sourceAmount reply) :
    Brackets max (c.applyReply sourceAmount reply).1 := by
  unfold Answers at h_answer
  rcases applyReply_cases c sourceAmount reply with h_eq | ⟨h_ack, h_eq⟩ |
    ⟨data, newMax, isPreciseMax, h_f08, h_new, h_lowers, h_eq⟩
  · rwa [h_eq]
  · rw [h_eq]
    split at h_answer
    · obtain ⟨data, h_f08, -⟩ := h_answer
      exact absurd h_f08 (h_ack.2 data)
    · next h_le => exact adjustPathCapacity_brackets (not_lt.mp h_le) h.verified_le h.le_limit h.precise
  · rw [h_eq]
    split at h_answer
    · next h_above =>
      obtain ⟨data', ⟨ilpReject, h_reject, -, rfl⟩, h_none⟩ := h_answer
      obtain ⟨ilpReject', h_reject', -, rfl⟩ := h_f08
      obtain rfl := IlpReply.reject.inj (h_reject.symm.trans h_reject')
      unfold MaxPacketAmountController.newMax at h_new
      rw [h_none] at h_new
      obtain ⟨h_max, rfl⟩ := Prod.mk.inj (Option.some.inj h_new)
      rw [saturatingSubtract_eq] at h_max
      refine adjustPathCapacity_brackets h.verified_le h.verified_le ?_ fun m h_state => nomatch h_state
      change max ≤ (newMax : ℕ)
      omega
    · exact absurd h_f08 (h_answer.2 data)

/-- **An amount between the two brings the search closer to its end.** -/
theorem gap_applyReply_lt (h_max : 1 ≤ max) (h_above : c.verifiedPathCapacity < sourceAmount)
    (h_le : sourceAmount ≤ c.getMaxPacketAmountLimit) (h_answer : Answers max sourceAmount reply) :
    (c.applyReply sourceAmount reply).1.gap < c.gap := by
  unfold gap
  unfold Answers at h_answer
  split at h_answer
  · next h_too_large =>
    -- the limit comes down to what was sent, less one
    obtain ⟨data, h_f08, h_none⟩ := h_answer
    obtain ⟨newMax, rfl⟩ : ∃ newMax : ℕ+, sourceAmount = newMax + 1 :=
      ⟨⟨sourceAmount - 1, by omega⟩, by rw [PNat.mk_coe]; omega⟩
    have h_lowers := @lowersMax_of_lt c newMax (by omega)
    rw [applyReply_of_f08 h_f08 (newMax_of_none h_none newMax), if_pos h_lowers, setMax_limit, setMax_verified]
    omega
  · -- what got through goes up to what was sent
    rw [applyReply_of_acknowledges h_answer, adjustPathCapacity_limit, adjustPathCapacity_verified]
    omega

/-- One probe of the search, with the answer of the path. -/
def Probes (max : ℕ) (c c' : MaxPacketAmountController) : Prop :=
  ∃ amount reply, c.getNextMaxPacketAmount = some amount ∧ Answers max amount reply ∧
    c' = (c.applyReply amount reply).1

/-- A search that is over has found the maximum. -/
theorem Brackets.eq_max (h : Brackets max c) (h_sound : c.Sound) (h_known : c.state ≠ .unknownMax)
    (h_gap : c.gap = 0) : (∃ m, c.state = .preciseMax m ∧ m = max) ∧ c.verifiedPathCapacity = max := by
  have h_verified := h.verified_le
  have h_limit := h.le_limit
  unfold gap at h_gap
  refine ⟨?_, by omega⟩
  cases h_state : c.state with
  | preciseMax m => exact ⟨m, rfl, h.precise m h_state⟩
  | impreciseMax m =>
    -- an imprecise limit is above what got through
    have h_lt := h_sound.verified_lt m h_state
    unfold getMaxPacketAmountLimit at h_gap
    rw [h_state] at h_gap
    simp only at h_gap
    omega
  | unknownMax => exact absurd h_state h_known

/-- **The search finishes**, after no more probes than the distance of the two amounts. -/
theorem exists_eq_max (h_max : 1 ≤ max) (h : Brackets max c) (h_sound : c.Sound)
    (h_known : c.state ≠ .unknownMax) (search : ℕ → MaxPacketAmountController) (h_start : search 0 = c)
    (h_probes : ∀ n, Probes max (search n) (search (n + 1))) :
    ∃ n ≤ c.gap, (∃ m, (search n).state = .preciseMax m ∧ m = max) ∧
      (search n).verifiedPathCapacity = max := by
  induction h_n : c.gap using Nat.strong_induction_on generalizing c search with
  | h n ih =>
    subst h_n h_start
    rcases Nat.eq_zero_or_pos (search 0).gap with h_zero | h_gap
    · exact ⟨0, Nat.zero_le _, h.eq_max h_sound h_known h_zero⟩
    · obtain ⟨amount, reply, h_next, h_answer, h_search⟩ := h_probes 0
      have h_lt : (search 1).gap < (search 0).gap := by
        rw [h_search]
        exact gap_applyReply_lt h_max (h_sound.lt_getNextMaxPacketAmount h_gap h_next)
          (h_sound.getNextMaxPacketAmount h_next).1 h_answer
      have h_known' : (search 1).state ≠ .unknownMax := by
        rw [h_search]
        exact applyReply_known h_known
      obtain ⟨n, h_n, h_end⟩ := ih (search 1).gap h_lt (c := search 1) (h_search ▸ h.applyReply h_answer)
        (h_search ▸ h_sound.applyReply _ _) h_known' (fun n => search (n + 1)) rfl
        (fun n => h_probes (n + 1)) rfl
      exact ⟨n + 1, by omega, h_end⟩

end MaxPacketAmountController

/-! ### Packets in flight -/

open MaxPacketAmountController

/-- The controller, and the amounts of the packets in flight. -/
structure PacketSearch where
  controller : MaxPacketAmountController
  unanswered : List ℕ := []

namespace PacketSearch

/-- A packet is sent, or the `i`-th of those in flight is answered. -/
inductive Event
  | send (sourceAmount : ℕ)
  | reply (i : ℕ) (reply : StreamReply)

/-- A packet has the next amount of the controller, if there is one, or less, and one that an ILP packet can
hold. -/
def step (s : PacketSearch) : Event → Option PacketSearch
  | .send sourceAmount =>
    if (∀ amount ∈ s.controller.getNextMaxPacketAmount, sourceAmount ≤ amount) ∧ sourceAmount ≤ maxU64 then
      some { s with unanswered := s.unanswered ++ [sourceAmount] }
    else none
  | .reply i reply =>
    s.unanswered[i]?.map fun sourceAmount =>
      { controller := (s.controller.applyReply sourceAmount reply).1, unanswered := s.unanswered.eraseIdx i }

/-- The search as an event machine. -/
def machine (preciseMaxPacketAmount : Option ℕ+) : Machine PacketSearch Event where
  init s := s = { controller := .new preciseMaxPacketAmount }
  step := step

/-- Every reply is the answer of a path with this maximum. -/
def OnPath (max : ℕ) (s : PacketSearch) : Event → Prop
  | .send _ => True
  | .reply i reply => ∀ sourceAmount, s.unanswered[i]? = some sourceAmount → Answers max sourceAmount reply

variable {preciseMaxPacketAmount : Option ℕ+} {s t : PacketSearch} {e : Event} {max : ℕ}

/-- **All that one event can do to the controller**: nothing, or what the reply to a packet in flight does. -/
theorem controller_of_step (h : s.step e = some t) : t.controller = s.controller ∨
    ∃ i reply sourceAmount, e = .reply i reply ∧ s.unanswered[i]? = some sourceAmount ∧
      t.controller = (s.controller.applyReply sourceAmount reply).1 := by
  cases e with
  | send sourceAmount =>
    simp only [step] at h
    split at h
    · obtain rfl := Option.some.inj h
      exact .inl rfl
    · exact nomatch h
  | reply i reply =>
    simp only [step] at h
    obtain ⟨sourceAmount, h_some, rfl⟩ := Option.map_eq_some_iff.mp h
    exact .inr ⟨i, reply, sourceAmount, rfl, h_some, rfl⟩

/-- Every packet in flight has an amount that an ILP packet can hold. -/
theorem unanswered_le (h : (machine preciseMaxPacketAmount).Reachable s) :
    ∀ sourceAmount ∈ s.unanswered, sourceAmount ≤ maxU64 := by
  apply h.invariant fun s => ∀ sourceAmount ∈ s.unanswered, sourceAmount ≤ maxU64
  · rintro s rfl sourceAmount h_mem
    cases h_mem
  · intro s e t _ ih h_step sourceAmount h_mem
    change s.step e = some t at h_step
    cases e with
    | send sent =>
      simp only [step] at h_step
      split at h_step
      · next h_sent =>
        obtain rfl := Option.some.inj h_step
        rcases List.mem_append.mp h_mem with h_old | h_new
        · exact ih _ h_old
        · rw [List.mem_singleton.mp h_new]
          exact h_sent.2
      · exact nomatch h_step
    | reply i reply =>
      simp only [step] at h_step
      obtain ⟨_, _, rfl⟩ := Option.map_eq_some_iff.mp h_step
      exact ih _ (List.mem_of_mem_eraseIdx h_mem)

theorem sound_of_reachable (h : (machine preciseMaxPacketAmount).Reachable s) : s.controller.Sound := by
  apply h.invariant fun s => s.controller.Sound
  · rintro s rfl
    exact sound_new preciseMaxPacketAmount
  · intro s e t _ ih h_step
    rcases controller_of_step h_step with h_same | ⟨i, reply, sourceAmount, -, -, h_reply⟩
    · rwa [h_same]
    · rw [h_reply]
      exact ih.applyReply sourceAmount reply

/-- The order of the limits after and before a step. -/
def LimitLE (t s : PacketSearch) : Prop :=
  t.controller.getMaxPacketAmountLimit ≤ s.controller.getMaxPacketAmountLimit

instance : IsPreorder PacketSearch (fun s t => LimitLE t s) where
  refl _ := le_rfl
  trans _ _ _ h h' := le_trans h' h

/-- **The limit never rises** in a run. -/
theorem limit_le_of_leads (h : (machine preciseMaxPacketAmount).Reachable s)
    (h_leads : (machine preciseMaxPacketAmount).Leads (fun _ _ => True) s t) : LimitLE t s := by
  apply h_leads.preorder (R := fun s t => LimitLE t s) h
  intro s e t h_s _ h_step
  unfold LimitLE
  rcases controller_of_step h_step with h_same | ⟨i, reply, sourceAmount, -, h_some, h_reply⟩
  · rw [h_same]
  · rw [h_reply]
    exact applyReply_limit_le _ _ (unanswered_le h_s _ (List.mem_of_getElem? h_some))

theorem brackets_of_reach (h_max : max ≤ maxU64) (h_precise : ∀ m ∈ preciseMaxPacketAmount, (m : ℕ) = max)
    (h : (machine preciseMaxPacketAmount).Reach (OnPath max) s) : Brackets max s.controller := by
  apply h.invariant fun s => Brackets max s.controller
  · rintro s rfl
    cases preciseMaxPacketAmount with
    | none => exact ⟨Nat.zero_le _, h_max, fun m h => nomatch h⟩
    | some m =>
      refine ⟨Nat.zero_le _, (h_precise m rfl).ge, fun m' h_state => ?_⟩
      cases h_state
      exact h_precise m rfl
  · intro s e t _ ih h_ok h_step
    rcases controller_of_step h_step with h_same | ⟨i, reply, sourceAmount, rfl, h_some, h_reply⟩
    · rwa [h_same]
    · rw [h_reply]
      exact ih.applyReply (h_ok sourceAmount h_some)

/-- **The max packet amount.** In every state what got through is within the limit, the next amount is
within it too and above what got through as long as the limit is imprecise, and the limit never rises.

On a path with a constant maximum, it is always between what got through and the limit, which is precise
only there, each probe brings the two closer, and a search that has begun finishes. -/
theorem search_bounds (preciseMaxPacketAmount : Option ℕ+) :
    (∀ s, (machine preciseMaxPacketAmount).Reachable s →
      s.controller.verifiedPathCapacity ≤ s.controller.getMaxPacketAmountLimit ∧
      (∀ amount, s.controller.getNextMaxPacketAmount = some amount →
        1 ≤ amount ∧ amount ≤ s.controller.getMaxPacketAmountLimit ∧
        ∀ m, s.controller.state = .impreciseMax m → s.controller.verifiedPathCapacity < amount) ∧
      ∀ t, (machine preciseMaxPacketAmount).Leads (fun _ _ => True) s t →
        t.controller.getMaxPacketAmountLimit ≤ s.controller.getMaxPacketAmountLimit) ∧
    (∀ max s, 1 ≤ max → max ≤ maxU64 → (∀ m ∈ preciseMaxPacketAmount, (m : ℕ) = max) →
      (machine preciseMaxPacketAmount).Reach (OnPath max) s →
      s.controller.verifiedPathCapacity ≤ max ∧ max ≤ s.controller.getMaxPacketAmountLimit ∧
      (∀ m, s.controller.state = .preciseMax m → m = max) ∧
      (∀ (amount : ℕ+) reply, Answers max amount reply → 0 < s.controller.gap →
        s.controller.getNextMaxPacketAmount = some amount ∨
          s.controller.getNextMaxPacketAmount = none ∧ s.controller.verifiedPathCapacity < amount ∧
            amount ≤ maxU64 →
        (s.controller.applyReply amount reply).1.gap < s.controller.gap) ∧
      (s.controller.state ≠ .unknownMax → ∀ search : ℕ → MaxPacketAmountController,
        search 0 = s.controller → (∀ n, Probes max (search n) (search (n + 1))) →
        ∃ n ≤ s.controller.gap, (∃ m, (search n).state = .preciseMax m ∧ m = max) ∧
          (search n).verifiedPathCapacity = max)) := by
  constructor
  · -- in every run
    intro s h
    have h_sound := sound_of_reachable h
    refine ⟨h_sound.verified_le, fun amount h_next => ?_, fun t h_leads => limit_le_of_leads h h_leads⟩
    exact ⟨amount.pos, h_sound.getNextMaxPacketAmount h_next⟩
  · -- on a path with a constant maximum
    intro max s h_one h_max h_precise h
    have h_sound := sound_of_reachable h.reachable
    have h_brackets := brackets_of_reach h_max h_precise h
    refine ⟨h_brackets.verified_le, h_brackets.le_limit, h_brackets.precise, ?_, ?_⟩
    · -- each probe narrows what is not known
      rintro amount reply h_answer h_gap (h_next | ⟨h_none, h_above, h_le⟩)
      · exact gap_applyReply_lt h_one (h_sound.lt_getNextMaxPacketAmount h_gap h_next)
          (h_sound.getNextMaxPacketAmount h_next).1 h_answer
      · have h_limit : (s.controller.getMaxPacketAmountLimit : ℕ) = maxU64 := by
          unfold getNextMaxPacketAmount at h_none
          unfold getMaxPacketAmountLimit
          cases h_state : s.controller.state with
          | preciseMax m | impreciseMax m =>
            rw [h_state] at h_none
            cases h_none
          | unknownMax => rfl
        exact gap_applyReply_lt h_one h_above (h_limit ▸ h_le) h_answer
    · -- and so a search ends
      intro h_known search h_start h_probes
      exact exists_eq_max h_one h_brackets h_sound h_known search h_start h_probes

end PacketSearch

end Interledger.Pay
