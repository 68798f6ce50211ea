import Interledger.Payout.PayoutConnection

/-!
# What drives a payout on

A payout connection acts only when an event calls it: it has no loop of its own. So that a payout is
finished, something must be pending whenever money is left to pay: a network step that is awaited, a
retry timer, or a stream that may send the rest. `Driven` says which of them it is in each state.

Two consequences for the runs without late effects. A payout that says it is idle has paid all it was
asked to pay. And as long as it was neither closed nor has given up, and a retry is left, the events it
waits for can finish it: nobody has to call `send` again.

## Main results

* `Driven.step` — something drives the payout on after every event;
* `idle_is_paid` — `IDLE` means paid;
* `payout_can_finish` — from every state of a run, the payout can be finished.
-/

namespace Interledger.Payout

open PayoutConnection

variable {maxRetries : ℕ} {s t : PayoutConnection}

/-- What the stream of an attempt that is not cleaned up has sent. -/
def Attempt.pending (a : Attempt) : ℕ := if a.appliedSent then 0 else a.totalSent

/-! ### What drives the payout on -/

/-- The attempt under way is the one whose stream `this.stream` is, it may send the rest of the target
while it is open, and `IDLE` means that it has sent it. -/
structure Attended (s : PayoutConnection) : Prop where
  /-- Set by `attach`, when no other attempt is open. -/
  stream : ∀ (i : ℕ) (a : Attempt), s.attempts[i]? = some a → a.appliedSent = false → s.stream = some i
  connecting : s.closing = false → s.state = .connecting → 0 < s.querying + s.connecting
  live : s.state = .sending ∨ s.state = .idle →
    ∃ (i : ℕ) (a : Attempt), s.attempts[i]? = some a ∧ a.appliedSent = false
  /-- Only a closed stream refuses the limit that `send` sets. -/
  allowed : s.state = .sending ∨ s.state = .idle → ∀ a ∈ s.attempts, a.appliedSent = false →
    a.closed = false → s.target ≤ s.sent + a.sendMax
  paid : s.state = .idle → ∀ a ∈ s.attempts, a.appliedSent = false → s.target ≤ s.sent + a.totalSent
  /-- `send` adds to the target, unless it throws. -/
  requested : s.closing = false → s.target = s.requested

/-- A payout that is attended, and does not rest disconnected with money left to pay. -/
structure Driven (s : PayoutConnection) : Prop extends Attended s where
  waiting : s.closing = false → s.state = .disconnected → s.target ≤ s.sent ∨ s.timers ≠ []

/-- The stream of an open attempt is allowed all that remains of the target. -/
def MaySendRest (s : PayoutConnection) : Prop :=
  ∃ (i : ℕ) (a : Attempt),
    s.attempts[i]? = some a ∧ a.appliedSent = false ∧ s.target ≤ s.sent + a.sendMax

/-- An item of a list to which one was added, past the end of the old list, is the last. -/
theorem eq_length_of_getElem?_concat {α : Type} {l : List α} {a b : α} {i : ℕ} (h_lt : ¬i < l.length)
    (h_at : (l ++ [a])[i]? = some b) : i = l.length := by
  have h_bound := (List.getElem?_eq_some_iff.mp h_at).1
  rw [List.length_append, List.length_singleton] at h_bound
  omega

/-- When no attempt is open, all are cleaned up. -/
theorem appliedSent_of_sum (h : (s.attempts.map Attempt.open).sum = 0) {a : Attempt}
    (h_mem : a ∈ s.attempts) : a.appliedSent = true := by
  have h_zero : a.open = 0 :=
    List.sum_eq_zero_iff_forall_eq_nat.mp h _ (List.mem_map_of_mem h_mem)
  by_contra h_not
  simp [Attempt.open, h_not] at h_zero

namespace Attended

theorem initial : Attended {} where
  stream i a h_get := by cases h_get
  connecting _ h_state := by cases h_state
  live h_state := by rcases h_state with h_state | h_state <;> cases h_state
  allowed _ a h_mem := absurd h_mem List.not_mem_nil
  paid _ a h_mem := absurd h_mem List.not_mem_nil
  requested _ := rfl

/-- Leaving `SENDING` and `IDLE`, nothing is asked of the attempts but that the open one is the current
one. -/
theorem of_state (h_state : ¬(s.state = .sending ∨ s.state = .idle))
    (h_stream : ∀ (i : ℕ) (a : Attempt), s.attempts[i]? = some a → a.appliedSent = false → s.stream = some i)
    (h_connecting : s.closing = false → s.state = .connecting → 0 < s.querying + s.connecting)
    (h_requested : s.closing = false → s.target = s.requested) : Attended s where
  stream := h_stream
  connecting := h_connecting
  live h := absurd h h_state
  allowed h := absurd h h_state
  paid h := absurd (.inr h) h_state
  requested := h_requested

/-- Starting over, or giving up. Either way the payout does not rest. -/
theorem safeTrySending (h : Attended s) : Driven (s.safeTrySending maxRetries) := by
  unfold PayoutConnection.safeTrySending
  by_cases h_retries : s.retries ≥ maxRetries
  · rw [if_pos h_retries]
    refine ⟨of_state ?_ h.stream nofun h.requested, nofun⟩
    rintro (h_state | h_state) <;> cases h_state
  · rw [if_neg h_retries]
    unfold PayoutConnection.trySending
    by_cases h_state : s.state = .disconnected
    · rw [if_neg (not_not.mpr h_state)]
      refine ⟨of_state ?_ h.stream (fun _ _ => ?_) h.requested, nofun⟩
      · rintro (h_state | h_state) <;> cases h_state
      · show 0 < s.querying + 1 + s.connecting
        omega
    · rw [if_pos h_state]
      exact ⟨⟨h.stream, h.connecting, h.live, h.allowed, h.paid, h.requested⟩,
        fun _ h_eq => absurd h_eq h_state⟩

/-- A failure of a network step sets a timer, unless the payout is being closed. -/
theorem catchError (h : Attended s) (querying connecting : ℕ) :
    Driven (PayoutConnection.catchError { s with querying := querying, connecting := connecting }) := by
  unfold PayoutConnection.catchError
  by_cases h_closing : s.closing = true
  · rw [if_pos h_closing]
    have h_not : s.closing ≠ false := fun h_false => absurd (h_closing.symm.trans h_false) nofun
    exact ⟨⟨h.stream, fun h_false => absurd h_false h_not, h.live, h.allowed, h.paid, h.requested⟩,
      fun h_false => absurd h_false h_not⟩
  · rw [if_neg h_closing]
    refine ⟨of_state ?_ h.stream nofun h.requested, fun _ _ => .inr ?_⟩
    · rintro (h_state | h_state) <;> cases h_state
    · exact List.append_ne_nil_of_right_ne_nil _ (List.cons_ne_nil _ _)

/-- Replacing an attempt by one with the same limit, which may be closed and may have sent more. -/
theorem set {i : ℕ} {a : Attempt} (h : Attended s) (a' : Attempt) (h_get : s.attempts[i]? = some a)
    (h_applied : a'.appliedSent = a.appliedSent) (h_closed : a'.closed = false → a.closed = false)
    (h_max : a'.sendMax = a.sendMax) (h_total : a.totalSent ≤ a'.totalSent) :
    Attended { s with attempts := s.attempts.set i a' } := by
  have h_mem : a ∈ s.attempts := List.mem_of_getElem? h_get
  have h_lt : i < s.attempts.length := (List.getElem?_eq_some_iff.mp h_get).1
  refine ⟨?_, h.connecting, ?_, ?_, ?_, h.requested⟩
  · intro j b h_at h_open
    rcases getElem?_set_cases h_at with ⟨rfl, rfl⟩ | ⟨-, h_old⟩
    · exact h.stream j a h_get (h_applied.symm.trans h_open)
    · exact h.stream j b h_old h_open
  · intro h_state
    obtain ⟨j, b, h_at, h_open⟩ := h.live h_state
    by_cases h_eq : i = j
    · subst h_eq
      obtain rfl := Option.some.inj (h_get.symm.trans h_at)
      exact ⟨i, a', List.getElem?_set_self h_lt, h_applied.trans h_open⟩
    · exact ⟨j, b, (List.getElem?_set_ne h_eq).trans h_at, h_open⟩
  · intro h_state b h_b h_open h_b_closed
    rcases List.mem_or_eq_of_mem_set h_b with h_old | rfl
    · exact h.allowed h_state b h_old h_open h_b_closed
    · show s.target ≤ s.sent + b.sendMax
      rw [h_max]
      exact h.allowed h_state a h_mem (h_applied.symm.trans h_open) (h_closed h_b_closed)
  · intro h_state b h_b h_open
    rcases List.mem_or_eq_of_mem_set h_b with h_old | rfl
    · exact h.paid h_state b h_old h_open
    · exact (h.paid h_state a h_mem (h_applied.symm.trans h_open)).trans
        (Nat.add_le_add_left h_total s.sent)

/-- Whatever takes the place of the open attempt is the only one that may be open. -/
theorem eq_of_open {i : ℕ} {a a' b : Attempt} (h : Attended s) (h_get : s.attempts[i]? = some a)
    (h_open : a.appliedSent = false) (h_mem : b ∈ s.attempts.set i a') (h_b : b.appliedSent = false) :
    b = a' := by
  obtain ⟨j, h_at⟩ := List.getElem?_of_mem h_mem
  rcases getElem?_set_cases h_at with ⟨-, h_eq⟩ | ⟨h_ne, h_old⟩
  · exact h_eq
  · have h_current : some j = some i := (h.stream j b h_old h_b).symm.trans (h.stream i a h_get h_open)
    exact absurd (Option.some.inj h_current) h_ne

/-- More is asked for while no stream sends. -/
theorem raise (h : Attended s) (h_state : ¬(s.state = .sending ∨ s.state = .idle)) (amount : ℕ) :
    Attended { s with target := s.target + amount, requested := s.requested + amount } :=
  of_state h_state h.stream h.connecting fun h_closing =>
    congrArg (· + amount) (h.requested h_closing)

/-- The callback of `cleanUp` leaves no attempt of its own open. -/
theorem detach (h : Attended s) (i : ℕ) (a : Attempt) : Attended (s.detach i a) := by
  unfold PayoutConnection.detach
  refine of_state ?_ ?_ nofun h.requested
  · rintro (h_state | h_state) <;> cases h_state
  · intro j b h_at h_open
    rcases getElem?_set_cases h_at with ⟨-, rfl⟩ | ⟨-, h_old⟩
    · cases h_open
    · exact h.stream j b h_old h_open

end Attended

namespace Driven

theorem initial (h : (machine maxRetries).init s) : Driven s := by
  obtain rfl := h
  exact ⟨Attended.initial, fun _ _ => .inl le_rfl⟩

theorem set {i : ℕ} {a : Attempt} (h : Driven s) (a' : Attempt) (h_get : s.attempts[i]? = some a)
    (h_applied : a'.appliedSent = a.appliedSent) (h_closed : a'.closed = false → a.closed = false)
    (h_max : a'.sendMax = a.sendMax) (h_total : a.totalSent ≤ a'.totalSent) :
    Driven { s with attempts := s.attempts.set i a' } :=
  ⟨h.toAttended.set a' h_get h_applied h_closed h_max h_total, h.waiting⟩

/-- A limit that is not below what was sent is taken, unless the stream is closed. -/
theorem allowed_setSendMax {a : Attempt} {limit : ℕ} (h_total : a.totalSent ≤ limit) :
    ((a.setSendMax limit).getD a).appliedSent = a.appliedSent ∧
      (((a.setSendMax limit).getD a).closed = false → ((a.setSendMax limit).getD a).sendMax = limit) := by
  unfold Attempt.setSendMax
  by_cases h_closed : a.closed = true
  · rw [if_pos h_closed]
    exact ⟨rfl, fun h_false => absurd (h_closed.symm.trans h_false) nofun⟩
  · rw [if_neg h_closed, if_neg (Int.natCast_nonneg _).not_gt, if_neg (by omega)]
    exact ⟨rfl, fun _ => Int.toNat_natCast limit⟩

/-- The stream that sends is allowed the raised target at once, unless it is closed; without one the
payout starts over. -/
theorem send (h : Driven s) (h_one : Exclusive s) (amount : ℕ) : Driven (s.send maxRetries amount) := by
  have h_raised := h_one.raise amount
  unfold PayoutConnection.send
  simp only
  -- a connection that closes takes nothing
  by_cases h_closing : s.closing = true
  · rw [if_pos h_closing]
    have h_not : s.closing ≠ false := fun h_false => absurd (h_closing.symm.trans h_false) nofun
    exact ⟨⟨h.stream, fun h_false => absurd h_false h_not, h.live, h.allowed, h.paid,
      fun h_false => absurd h_false h_not⟩, fun h_false => absurd h_false h_not⟩
  · rw [if_neg h_closing]
    -- while a stream is open its maximum is raised
    by_cases h_state : s.state = .sending ∨ s.state = .idle
    · obtain ⟨i, a, h_get, h_open⟩ := h.live h_state
      have h_stream : s.stream = some i := h.stream i a h_get h_open
      have h_lt : i < s.attempts.length := (List.getElem?_eq_some_iff.mp h_get).1
      have h_sound := h_raised.sound a (List.mem_of_getElem? h_get)
      have h_current : (s.stream.bind fun i => s.attempts[i]?.map fun a => (i, a)) = some (i, a) := by
        rw [h_stream, Option.bind_some, h_get, Option.map_some]
      rw [h_current]
      simp only
      rw [if_pos h_state]
      -- what the stream was allowed before is no more than what it is allowed now
      have h_limit : a.sendMax + s.sent ≤ s.target + amount := h_sound.limit h_open
      have h_within := h_sound.within h_open
      -- to what is left of the target
      have h_max : PayoutConnection.getSendMax
          { s with requested := s.requested + amount, target := s.target + amount }
            = ((s.target + amount - s.sent : ℕ) : ℤ) := by
        show ((s.target + amount : ℕ) : ℤ) - s.sent = _
        omega
      rw [h_max]
      obtain ⟨h_applied, h_allowed⟩ := allowed_setSendMax (a := a)
        (show a.totalSent ≤ s.target + amount - s.sent by omega)
      refine ⟨⟨?_, nofun, fun _ => ⟨i, _, List.getElem?_set_self h_lt, h_applied.trans h_open⟩, ?_, nofun,
        fun _ => ?_⟩, nofun⟩
      · intro j b h_at h_b
        rcases getElem?_set_cases h_at with ⟨rfl, -⟩ | ⟨-, h_old⟩
        · exact h_stream
        · exact h.stream j b h_old h_b
      · intro _ b h_mem h_b h_b_closed
        obtain rfl := h.eq_of_open h_get h_open h_mem h_b
        have h_eq := h_allowed h_b_closed
        show s.target + amount ≤ s.sent + _
        omega
      · exact congrArg (· + amount) (h.requested (Bool.eq_false_of_not_eq_true h_closing))
    · -- otherwise the connection tries to send, or has it tried later
      have h_start := @Attended.safeTrySending maxRetries _ (h.toAttended.raise h_state amount)
      split
      · rw [if_neg h_state]
        exact h_start
      · exact h_start

/-- The stream of a new connection is the only one that is open, and is allowed all that remains. -/
theorem attach (h : Driven s) (h_one : Exclusive s) (h_pos : 0 < s.connecting) :
    Driven (PayoutConnection.attach { s with connecting := s.connecting - 1 }) ∧
      MaySendRest (PayoutConnection.attach { s with connecting := s.connecting - 1 }) := by
  have h_single := h_one.single
  have h_under : underWay s = s.querying + s.connecting + (s.attempts.map Attempt.open).sum := rfl
  -- the attempt that connected is the only one under way, so that all streams were counted
  have h_none : ∀ a ∈ s.attempts, a.appliedSent = true := by
    intro a h_mem
    exact appliedSent_of_sum (by omega) h_mem
  -- either way an attempt is appended that nothing was sent on, with its stream open
  have h_append : ∀ (a : Attempt) (state : State), state = .sending ∨ state = .idle →
      a.appliedSent = false → s.target ≤ s.sent + a.sendMax → (state = .idle → s.target ≤ s.sent) →
      ∀ t : PayoutConnection,
        t = { s with
              connecting := s.connecting - 1
              stream := some s.attempts.length
              state := state
              attempts := s.attempts ++ [a] } →
        Driven t ∧ MaySendRest t := by
    intro a state h_state h_open h_allowed h_paid t h_t
    subst h_t
    have h_last : (s.attempts ++ [a])[s.attempts.length]? = some a := List.getElem?_concat_length
    have h_new : ∀ b ∈ s.attempts ++ [a], b.appliedSent = false → b = a := by
      intro b h_mem h_b
      rcases List.mem_append.mp h_mem with h_old | h_mem
      · exact absurd ((h_none b h_old).symm.trans h_b) nofun
      · exact List.mem_singleton.mp h_mem
    refine ⟨⟨⟨?_, ?_, ?_, ?_, ?_, h.requested⟩, ?_⟩, s.attempts.length, a, h_last, h_open, h_allowed⟩
    · intro i b h_at h_b
      by_cases h_lt : i < s.attempts.length
      · rw [List.getElem?_append_left h_lt] at h_at
        exact absurd ((h_none b (List.mem_of_getElem? h_at)).symm.trans h_b) nofun
      · exact congrArg some (eq_length_of_getElem?_concat h_lt h_at).symm
    · rintro - rfl
      rcases h_state with h_state | h_state <;> cases h_state
    · exact fun _ => ⟨s.attempts.length, a, h_last, h_open⟩
    · intro _ b h_mem h_b _
      rw [h_new b h_mem h_b]
      exact h_allowed
    · intro h_idle b _ _
      exact (h_paid h_idle).trans (Nat.le_add_right _ _)
    · rintro - rfl
      rcases h_state with h_state | h_state <;> cases h_state
  -- the stream is allowed what is left of the target
  have h_le := h_one.sent_le
  have h_max : PayoutConnection.getSendMax
      { s with connecting := s.connecting - 1, stream := some s.attempts.length }
        = ((s.target - s.sent : ℕ) : ℤ) := by
    show (s.target : ℤ) - s.sent = _
    omega
  unfold PayoutConnection.attach
  simp only
  split
  · rw [h_max]
    obtain ⟨h_applied, h_allowed⟩ := allowed_setSendMax (a := {}) (Nat.zero_le (s.target - s.sent))
    -- something is left, and a new stream accepts it
    have h_closed : ((Attempt.setSendMax {} ((s.target - s.sent : ℕ) : ℤ)).getD {}).closed = false := by
      unfold Attempt.setSendMax
      rw [if_neg Bool.false_ne_true, if_neg (Int.natCast_nonneg _).not_gt,
        if_neg (show ¬((0 : ℕ) : ℤ) > ((s.target - s.sent : ℕ) : ℤ) by omega)]
      rfl
    refine h_append _ _ (.inl rfl) h_applied ?_ nofun _ rfl
    have h_eq := h_allowed h_closed
    omega
  · next h_more =>
    -- nothing is left, and the connection is idle
    rw [h_max] at h_more
    exact h_append _ _ (.inr rfl) rfl (by omega) (by omega) _ rfl

theorem runCleanUp (h : Driven s) (i : ℕ) (a : Attempt) : Driven (s.runCleanUp maxRetries i a) := by
  have h_detached := h.toAttended.detach i a
  unfold PayoutConnection.runCleanUp
  simp only
  by_cases h_more : (s.detach i a).getSendMax > 0
  · rw [if_pos h_more]
    exact h_detached.safeTrySending
  · rw [if_neg h_more]
    refine ⟨h_detached, fun _ _ => .inl ?_⟩
    unfold getSendMax at h_more
    omega

/-- `IDLE` is set when the money sent makes up the target. -/
theorem sendMoney {i amount : ℕ} {a : Attempt} (h : Driven s) (h_one : Exclusive s)
    (h_get : s.attempts[i]? = some a) (h_max : a.totalSent + amount ≤ a.sendMax)
    (h_listening : a.listening = true) : Driven (s.sendMoney i a amount) := by
  -- the stream is the open one
  have h_sound := h_one.sound a (List.mem_of_getElem? h_get)
  have h_open : a.appliedSent = false := by simpa [h_listening] using h_sound.listening
  have h_counted := h_sound.counted h_open
  have h_lt : i < s.attempts.length := (List.getElem?_eq_some_iff.mp h_get).1
  -- its amounts grow
  have h_set := h.set
    { a with
      totalSent := a.totalSent + amount
      totalStreamAmount := a.totalStreamAmount + amount }
    h_get rfl id rfl (Nat.le_add_right _ _)
  unfold PayoutConnection.sendMoney
  simp only
  rw [if_pos h_listening]
  -- either all of the target is sent now, or there is more to send
  by_cases h_enough : a.totalStreamAmount + amount + s.sent ≥ s.target
  · rw [if_pos h_enough]
    refine ⟨⟨h_set.stream, nofun, fun _ => ⟨i, _, List.getElem?_set_self h_lt, h_open⟩, ?_, ?_,
      h_set.requested⟩, nofun⟩
    · intro _ b h_mem h_b _
      obtain rfl := h.eq_of_open h_get h_open h_mem h_b
      show s.target ≤ s.sent + a.sendMax
      omega
    · intro _ b h_mem h_b
      obtain rfl := h.eq_of_open h_get h_open h_mem h_b
      show s.target ≤ s.sent + (a.totalSent + amount)
      omega
  · rw [if_neg h_enough]
    exact ⟨⟨h_set.stream, h_set.connecting, h_set.live, h_set.allowed, h_set.paid, h_set.requested⟩,
      h_set.waiting⟩

/-- Something drives the payout on after every event. -/
theorem step {e : PayoutEvent} (h : Driven s) (h_one : Exclusive s) (h_ok : NoLateEffects s e)
    (h_step : s.step maxRetries e = some t) : Driven t := by
  cases e with
  | send amount =>
    obtain rfl := Option.some.inj h_step
    exact h.send h_one amount
  | queried =>
    obtain ⟨h_pos, h_eq⟩ := Option.ite_none_right_eq_some.mp h_step
    obtain rfl := Option.some.inj h_eq
    refine ⟨⟨h.stream, fun h_closing h_state => ?_, h.live, h.allowed, h.paid, h.requested⟩, h.waiting⟩
    show 0 < s.querying - 1 + (s.connecting + 1)
    omega
  | queryFailed =>
    obtain ⟨-, h_eq⟩ := Option.ite_none_right_eq_some.mp h_step
    obtain rfl := Option.some.inj h_eq
    exact h.toAttended.catchError (s.querying - 1) s.connecting
  | connected =>
    obtain ⟨h_pos, h_eq⟩ := Option.ite_none_right_eq_some.mp h_step
    obtain rfl := Option.some.inj h_eq
    exact (h.attach h_one h_pos).1
  | connectFailed =>
    obtain ⟨-, h_eq⟩ := Option.ite_none_right_eq_some.mp h_step
    obtain rfl := Option.some.inj h_eq
    exact h.toAttended.catchError s.querying (s.connecting - 1)
  | streamClosed i =>
    obtain ⟨a, h_get, rfl⟩ := Option.map_eq_some_iff.mp h_step
    exact h.set _ h_get rfl nofun rfl le_rfl
  | ended i =>
    obtain ⟨a, h_get, h_eq⟩ := Option.bind_eq_some_iff.mp h_step
    obtain ⟨-, h_eq⟩ := Option.ite_none_right_eq_some.mp h_eq
    obtain rfl := Option.some.inj h_eq
    exact h.set _ h_get rfl id rfl le_rfl
  | cleanUp i =>
    obtain ⟨a, -, h_eq⟩ := Option.bind_eq_some_iff.mp h_step
    obtain ⟨-, h_eq⟩ := Option.ite_none_right_eq_some.mp h_eq
    obtain rfl := Option.some.inj h_eq
    exact h.runCleanUp i a
  | outgoingMoney i amount =>
    obtain ⟨a, h_get, h_eq⟩ := Option.bind_eq_some_iff.mp h_step
    obtain ⟨h_max, h_eq⟩ := Option.ite_none_right_eq_some.mp h_eq
    obtain rfl := Option.some.inj h_eq
    exact h.sendMoney h_one h_get h_max (h_ok a h_get)
  | retry timer =>
    obtain ⟨-, h_eq⟩ := Option.ite_none_right_eq_some.mp h_step
    obtain rfl := Option.some.inj h_eq
    exact Attended.safeTrySending
      ⟨h.stream, h.connecting, h.live, h.allowed, h.paid, h.requested⟩
  | close =>
    obtain rfl := Option.some.inj h_step
    exact ⟨⟨h.stream, nofun, h.live, h.allowed, h.paid, nofun⟩, nofun⟩

theorem of_reach (h : (machine maxRetries).Reach NoLateEffects s) : Driven s :=
  h.invariant _ (fun _ h_init => initial h_init)
    fun _ _ _ h_reach h_inv h_ok h_step => h_inv.step (Exclusive.of_reach h_reach) h_ok h_step

end Driven

/-! ### Idle means paid -/

namespace Exclusive

/-- What all streams sent is what the cleaned-up ones did, and what the open one has so far. -/
theorem totalSent_eq (h : Exclusive s) :
    s.totalSent = s.sent + (s.attempts.map Attempt.pending).sum := by
  unfold PayoutConnection.totalSent
  rw [h.sent, ← List.sum_map_add]
  refine congrArg List.sum (List.map_congr_left fun a _ => ?_)
  unfold Attempt.applied Attempt.pending
  split
  · exact (Nat.add_zero _).symm
  · exact (Nat.zero_add _).symm

theorem sent_le_totalSent (h : Exclusive s) : s.sent ≤ s.totalSent := by
  rw [h.totalSent_eq]
  exact Nat.le_add_right _ _

theorem sent_add_le_totalSent {i : ℕ} {a : Attempt} (h : Exclusive s) (h_get : s.attempts[i]? = some a)
    (h_open : a.appliedSent = false) : s.sent + a.totalSent ≤ s.totalSent := by
  have h_sum := sum_map_eraseIdx Attempt.pending h_get
  have h_pending : a.pending = a.totalSent := by simp [Attempt.pending, h_open]
  rw [h.totalSent_eq]
  omega

end Exclusive

/-- **Idle means paid.** In every run without late effects, a payout that is in the state `IDLE` has sent
exactly its target, which is all that `send` was called with as long as it is not closed. -/
theorem idle_is_paid (h : (machine maxRetries).Reach NoLateEffects s) (h_idle : s.state = .idle) :
    (s.attempts.map Attempt.totalSent).sum = s.target ∧
      (s.closing = false → (s.attempts.map Attempt.totalSent).sum = s.requested) := by
  have h_one := Exclusive.of_reach h
  have h_driven := Driven.of_reach h
  obtain ⟨i, a, h_get, h_open⟩ := h_driven.live (.inr h_idle)
  have h_paid := h_driven.paid h_idle a (List.mem_of_getElem? h_get) h_open
  have h_all : s.totalSent = s.target :=
    le_antisymm h_one.totalSent_le (h_paid.trans (h_one.sent_add_le_totalSent h_get h_open))
  exact ⟨h_all, fun h_closing => h_all.trans (h_driven.requested h_closing)⟩

/-- A payout that has sent 4 of 10 over a connection that was lost, and is idle after sending the rest. -/
theorem idle_is_paid_reconnect :
    ∃ s, (machine 20).Reachable s ∧ s.state = .idle ∧ s.attempts.length = 2 ∧
      (s.attempts.map Attempt.totalSent).sum = 10 := by
  have h : (machine 20).Reach NoLateEffects _ :=
    Machine.reach_of_exec
      [.send 10, .queried, .connected, .outgoingMoney 0 4, .ended 0, .cleanUp 0, .queried,
        .connected, .outgoingMoney 1 6] rfl rfl
  exact ⟨_, h.reachable, rfl, rfl, (idle_is_paid h rfl).1⟩

/-! ### What is left can be paid -/

/-- The events that come without the caller, and nothing late. -/
def Unaided (s : PayoutConnection) (e : PayoutEvent) : Prop :=
  NoLateEffects s e ∧ (∀ amount, e ≠ .send amount) ∧ e ≠ .close

/-- Such events can bring the payout to where all that was asked for is sent. -/
def CanFinish (maxRetries : ℕ) (s : PayoutConnection) : Prop :=
  ∃ t, (machine maxRetries).Leads Unaided s t ∧ t.requested = s.requested ∧
    (t.attempts.map Attempt.totalSent).sum = s.requested

section Frame

@[simp] theorem safeTrySending_requested :
    (s.safeTrySending maxRetries).requested = s.requested := by
  unfold PayoutConnection.safeTrySending PayoutConnection.trySending
  split
  · rfl
  · split <;> rfl

@[simp] theorem safeTrySending_closing : (s.safeTrySending maxRetries).closing = s.closing := by
  unfold PayoutConnection.safeTrySending PayoutConnection.trySending
  split
  · rfl
  · split <;> rfl

@[simp] theorem safeTrySending_target : (s.safeTrySending maxRetries).target = s.target := by
  unfold PayoutConnection.safeTrySending PayoutConnection.trySending
  split
  · rfl
  · split <;> rfl

/-- Only the caller asks for more, or closes the payout. -/
theorem frame_of_step {e : PayoutEvent} (h_send : ∀ amount, e ≠ .send amount) (h_close : e ≠ .close)
    (h_step : s.step maxRetries e = some t) :
    t.target = s.target ∧ t.requested = s.requested ∧ t.closing = s.closing := by
  cases e with
  | send amount => exact absurd rfl (h_send amount)
  | close => exact absurd rfl h_close
  | queried =>
    obtain ⟨-, h_eq⟩ := Option.ite_none_right_eq_some.mp h_step
    obtain rfl := Option.some.inj h_eq
    exact ⟨rfl, rfl, rfl⟩
  | queryFailed =>
    obtain ⟨-, h_eq⟩ := Option.ite_none_right_eq_some.mp h_step
    obtain rfl := Option.some.inj h_eq
    unfold PayoutConnection.catchError
    split <;> exact ⟨rfl, rfl, rfl⟩
  | connected =>
    obtain ⟨-, h_eq⟩ := Option.ite_none_right_eq_some.mp h_step
    obtain rfl := Option.some.inj h_eq
    unfold PayoutConnection.attach
    simp only
    split <;> exact ⟨rfl, rfl, rfl⟩
  | connectFailed =>
    obtain ⟨-, h_eq⟩ := Option.ite_none_right_eq_some.mp h_step
    obtain rfl := Option.some.inj h_eq
    unfold PayoutConnection.catchError
    split <;> exact ⟨rfl, rfl, rfl⟩
  | streamClosed i =>
    obtain ⟨a, -, rfl⟩ := Option.map_eq_some_iff.mp h_step
    exact ⟨rfl, rfl, rfl⟩
  | ended i =>
    obtain ⟨a, -, h_eq⟩ := Option.bind_eq_some_iff.mp h_step
    obtain ⟨-, h_eq⟩ := Option.ite_none_right_eq_some.mp h_eq
    obtain rfl := Option.some.inj h_eq
    exact ⟨rfl, rfl, rfl⟩
  | cleanUp i =>
    obtain ⟨a, -, h_eq⟩ := Option.bind_eq_some_iff.mp h_step
    obtain ⟨-, h_eq⟩ := Option.ite_none_right_eq_some.mp h_eq
    obtain rfl := Option.some.inj h_eq
    unfold PayoutConnection.runCleanUp
    simp only
    split
    · rw [safeTrySending_target, safeTrySending_requested, safeTrySending_closing]
      exact ⟨rfl, rfl, rfl⟩
    · exact ⟨rfl, rfl, rfl⟩
  | outgoingMoney i amount =>
    obtain ⟨a, -, h_eq⟩ := Option.bind_eq_some_iff.mp h_step
    obtain ⟨-, h_eq⟩ := Option.ite_none_right_eq_some.mp h_eq
    obtain rfl := Option.some.inj h_eq
    unfold PayoutConnection.sendMoney
    simp only
    split <;> exact ⟨rfl, rfl, rfl⟩
  | retry timer =>
    obtain ⟨-, h_eq⟩ := Option.ite_none_right_eq_some.mp h_step
    obtain rfl := Option.some.inj h_eq
    rw [safeTrySending_target, safeTrySending_requested, safeTrySending_closing]
    exact ⟨rfl, rfl, rfl⟩

end Frame

/-- A payout that goes on: not closed, one attempt at a time, and driven. -/
structure Ongoing (s : PayoutConnection) : Prop where
  exclusive : Exclusive s
  driven : Driven s
  closing : s.closing = false

namespace Ongoing

theorem step {e : PayoutEvent} (h : Ongoing s) (h_ok : Unaided s e)
    (h_step : s.step maxRetries e = some t) : Ongoing t where
  exclusive := h.exclusive.step h_ok.1 h_step
  driven := h.driven.step h.exclusive h_ok.1 h_step
  closing := (frame_of_step h_ok.2.1 h_ok.2.2 h_step).2.2.trans h.closing

/-- What can be finished after an event can be finished before it. -/
theorem canFinish_of_step {e : PayoutEvent} (h_ok : Unaided s e)
    (h_step : s.step maxRetries e = some t) (h : CanFinish maxRetries t) : CanFinish maxRetries s := by
  obtain ⟨u, h_leads, h_requested, h_total⟩ := h
  have h_same := (frame_of_step h_ok.2.1 h_ok.2.2 h_step).2.1
  exact ⟨u, trans_of ((machine maxRetries).Leads Unaided) (.single h_ok h_step) h_leads,
    h_requested.trans h_same, h_total.trans h_same⟩

theorem canFinish_of_paid (h : Ongoing s) (h_paid : s.target ≤ s.totalSent) :
    CanFinish maxRetries s :=
  ⟨s, .refl, rfl,
    (le_antisymm h.exclusive.totalSent_le h_paid).trans (h.driven.requested h.closing)⟩

/-- The open stream sends the rest. -/
theorem canFinish_of_maySendRest (h : Ongoing s) (h_rest : MaySendRest s) : CanFinish maxRetries s := by
  -- there is an open stream that may carry the rest
  obtain ⟨i, a, h_get, h_open, h_allowed⟩ := h_rest
  have h_sound := h.exclusive.sound a (List.mem_of_getElem? h_get)
  have h_lt : i < s.attempts.length := (List.getElem?_eq_some_iff.mp h_get).1
  have h_within := h_sound.within h_open
  have h_listening : a.listening = true := by rw [h_sound.listening, h_open, Bool.not_false]
  -- it does so in one go
  have h_step : s.step maxRetries (.outgoingMoney i (a.sendMax - a.totalSent))
      = some (s.sendMoney i a (a.sendMax - a.totalSent)) := by
    show (s.attempts[i]?.bind fun a' => _) = _
    rw [h_get, Option.bind_some, if_pos (by omega)]
  have h_ok : Unaided s (.outgoingMoney i (a.sendMax - a.totalSent)) := by
    refine ⟨fun b h_b => ?_, nofun, nofun⟩
    obtain rfl := Option.some.inj (h_get.symm.trans h_b)
    exact h_listening
  have h_next := h.step h_ok h_step
  refine canFinish_of_step h_ok h_step (h_next.canFinish_of_paid ?_)
  let a' : Attempt :=
    { a with
      totalSent := a.totalSent + (a.sendMax - a.totalSent)
      totalStreamAmount := a.totalStreamAmount + (a.sendMax - a.totalSent) }
  -- after that the attempt has sent what it may
  have h_sent : (s.sendMoney i a (a.sendMax - a.totalSent)).attempts[i]? = some a' := by
    unfold PayoutConnection.sendMoney
    simp only
    rw [if_pos h_listening]
    exact List.getElem?_set_self h_lt
  have h_same : (s.sendMoney i a (a.sendMax - a.totalSent)).target = s.target ∧
      (s.sendMoney i a (a.sendMax - a.totalSent)).sent = s.sent := by
    unfold PayoutConnection.sendMoney
    simp only
    rw [if_pos h_listening]
    exact ⟨rfl, rfl⟩
  -- which is the target
  calc (s.sendMoney i a (a.sendMax - a.totalSent)).target
      = s.target := h_same.1
    _ ≤ s.sent + a'.totalSent := by
        show s.target ≤ s.sent + (a.totalSent + (a.sendMax - a.totalSent))
        omega
    _ = (s.sendMoney i a (a.sendMax - a.totalSent)).sent + a'.totalSent := by rw [h_same.2]
    _ ≤ (s.sendMoney i a (a.sendMax - a.totalSent)).totalSent :=
        h_next.exclusive.sent_add_le_totalSent h_sent h_open

/-- The connection is created. -/
theorem canFinish_of_connecting (h : Ongoing s) (h_pos : 0 < s.connecting) :
    CanFinish maxRetries s := by
  have h_step : s.step maxRetries .connected
      = some (PayoutConnection.attach { s with connecting := s.connecting - 1 }) := if_pos h_pos
  have h_ok : Unaided s .connected := ⟨trivial, nofun, nofun⟩
  have h_rest := (h.driven.attach h.exclusive h_pos).2
  exact canFinish_of_step h_ok h_step ((h.step h_ok h_step).canFinish_of_maySendRest h_rest)

/-- The network steps succeed. -/
theorem canFinish_of_underWay (h : Ongoing s) (h_pos : 0 < s.querying + s.connecting) :
    CanFinish maxRetries s := by
  by_cases h_connecting : 0 < s.connecting
  · exact h.canFinish_of_connecting h_connecting
  · have h_step : s.step maxRetries .queried
        = some { s with querying := s.querying - 1, connecting := s.connecting + 1 } :=
      if_pos (by omega)
    have h_ok : Unaided s .queried := ⟨trivial, nofun, nofun⟩
    exact canFinish_of_step h_ok h_step
      ((h.step h_ok h_step).canFinish_of_connecting (Nat.succ_pos _))

/-- Starting over, with a retry left. -/
theorem canFinish_of_safeTrySending (h : Ongoing (s.safeTrySending maxRetries))
    (h_state : s.state = .disconnected) (h_retries : s.retries < maxRetries) :
    CanFinish maxRetries (s.safeTrySending maxRetries) := by
  refine h.canFinish_of_underWay ?_
  unfold PayoutConnection.safeTrySending PayoutConnection.trySending
  rw [if_neg (by omega), if_neg (not_not.mpr h_state)]
  show 0 < s.querying + 1 + s.connecting
  omega

/-- The timer fires. -/
theorem canFinish_of_disconnected (h : Ongoing s) (h_state : s.state = .disconnected)
    (h_retries : s.retries < maxRetries) : CanFinish maxRetries s := by
  rcases h.driven.waiting h.closing h_state with h_paid | h_timers
  · exact h.canFinish_of_paid (h_paid.trans h.exclusive.sent_le_totalSent)
  · obtain ⟨timer, h_mem⟩ := List.exists_mem_of_ne_nil _ h_timers
    have h_step : s.step maxRetries (.retry timer)
        = some (PayoutConnection.safeTrySending maxRetries { s with timers := s.timers.erase timer }) :=
      if_pos h_mem
    have h_ok : Unaided s (.retry timer) := ⟨trivial, nofun, nofun⟩
    exact canFinish_of_step h_ok h_step
      (canFinish_of_safeTrySending (h.step h_ok h_step) h_state h_retries)

/-- The clean-up of the open attempt runs. -/
theorem canFinish_of_cleanUp {i : ℕ} {a : Attempt} (h : Ongoing s) (h_get : s.attempts[i]? = some a)
    (h_open : a.appliedSent = false) (h_cleanUps : 0 < a.cleanUps) (h_retries : s.retries < maxRetries) :
    CanFinish maxRetries s := by
  have h_step : s.step maxRetries (.cleanUp i) = some (s.runCleanUp maxRetries i a) := by
    show (s.attempts[i]?.bind fun a' => _) = _
    rw [h_get, Option.bind_some, if_pos h_cleanUps]
  have h_ok : Unaided s (.cleanUp i) := by
    refine ⟨fun b h_b h_applied => ?_, nofun, nofun⟩
    obtain rfl := Option.some.inj (h_get.symm.trans h_b)
    exact absurd (h_open.symm.trans h_applied) nofun
  have h_next := h.step h_ok h_step
  refine canFinish_of_step h_ok h_step ?_
  unfold PayoutConnection.runCleanUp at h_next ⊢
  simp only at h_next ⊢
  by_cases h_more : (s.detach i a).getSendMax > 0
  · rw [if_pos h_more] at h_next ⊢
    exact canFinish_of_safeTrySending h_next rfl h_retries
  · rw [if_neg h_more] at h_next ⊢
    refine h_next.canFinish_of_paid (le_trans ?_ h_next.exclusive.sent_le_totalSent)
    unfold getSendMax at h_more
    omega

/-- Whatever the payout waits for comes. -/
theorem canFinish (h : Ongoing s) (h_state : s.state ≠ .aborted) (h_retries : s.retries < maxRetries) :
    CanFinish maxRetries s := by
  have h_live : s.state = .sending ∨ s.state = .idle → CanFinish maxRetries s := by
    intro h_current
    obtain ⟨i, a, h_get, h_open⟩ := h.driven.live h_current
    have h_mem : a ∈ s.attempts := List.mem_of_getElem? h_get
    by_cases h_closed : a.closed = false
    · exact h.canFinish_of_maySendRest
        ⟨i, a, h_get, h_open, h.driven.allowed h_current a h_mem h_open h_closed⟩
    · -- the stream is closed, and its event is still to come
      have h_listening : a.listening = true := by
        rw [(h.exclusive.sound a h_mem).listening, h_open, Bool.not_false]
      have h_step : s.step maxRetries (.ended i)
          = some { s with attempts := s.attempts.set i { a with cleanUps := a.cleanUps + 1 } } := by
        show (s.attempts[i]?.bind fun a' => _) = _
        rw [h_get, Option.bind_some, if_pos h_listening]
      have h_ok : Unaided s (.ended i) := ⟨trivial, nofun, nofun⟩
      have h_lt : i < s.attempts.length := (List.getElem?_eq_some_iff.mp h_get).1
      exact canFinish_of_step h_ok h_step
        ((h.step h_ok h_step).canFinish_of_cleanUp (List.getElem?_set_self h_lt) h_open
          (Nat.succ_pos _) h_retries)
  cases h_eq : s.state with
  | disconnected => exact h.canFinish_of_disconnected h_eq h_retries
  | connecting => exact h.canFinish_of_underWay (h.driven.connecting h.closing h_eq)
  | idle => exact h_live (.inr h_eq)
  | sending => exact h_live (.inl h_eq)
  | aborted => exact absurd h_eq h_state

end Ongoing

/-- **The rest can be paid.** In every run without late effects, from each state of a payout that is not
closed, has not given up and has a retry left, events that need no further call lead to a state where all
that `send` was called with is sent, no more and no less. -/
theorem payout_can_finish (h : (machine maxRetries).Reach NoLateEffects s) (h_closing : s.closing = false)
    (h_state : s.state ≠ .aborted) (h_retries : s.retries < maxRetries) :
    ∃ t, (machine maxRetries).Leads Unaided s t ∧ t.requested = s.requested ∧
      (t.attempts.map Attempt.totalSent).sum = s.requested :=
  Ongoing.canFinish ⟨Exclusive.of_reach h, Driven.of_reach h, h_closing⟩ h_state h_retries

/-- A payout whose connection was lost after 4 of 10 and whose next query failed. -/
theorem payout_can_finish_retry :
    ∃ s t, (machine 20).Reachable s ∧ (s.attempts.map Attempt.totalSent).sum = 4 ∧
      (machine 20).Leads Unaided s t ∧ t.requested = 10 ∧
      (t.attempts.map Attempt.totalSent).sum = 10 := by
  have h : (machine 20).Reach NoLateEffects _ :=
    Machine.reach_of_exec
      [.send 10, .queried, .connected, .outgoingMoney 0 4, .ended 0, .cleanUp 0, .queryFailed] rfl rfl
  obtain ⟨t, h_leads, h_requested, h_total⟩ := payout_can_finish h rfl nofun (by decide)
  exact ⟨_, t, h.reachable, rfl, h_leads, h_requested, h_total⟩

end Interledger.Payout
