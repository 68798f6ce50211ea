import Interledger.Lib.Bookkeeping
import Interledger.Lib.Machine
import Mathlib.Data.Int.Notation
import Mathlib.Algebra.Order.Group.Nat

/-!
# Payouts over a sequence of connections

`PayoutConnection` of `ilp-spsp-payout/src/lib/PayoutConnection.ts` pays a growing target amount. One
connection at a time is to be used: `trySending` starts only from `DISCONNECTED`, queries the
receiver, opens a connection and lets its stream send what remains of the target. When the
connection or the stream closes or fails, a clean-up scheduled with `setImmediate` removes the
listeners, adds what the stream sent to `sent`, and starts over if something remains.

Everything that can happen is an event: the calls of `send` and `close`, the completions of the two
network steps of `trySending`, the events of connections and streams, the scheduled clean-ups and
the retry timers. A stream sends money only within the last `sendMax` set on it.

Each closing or failing event schedules a clean-up of its own, and every one of them resets the
state to `DISCONNECTED`, also while the attempt that the first one started is under way: two
connections are then allowed to send the same remainder. And what a stream sends after its listeners
were removed is never added to `sent`. The law holds of the runs without these two late effects,
`NoLateEffects`.

## Main results

* `Exclusive.step` — one attempt at a time, and `sent` exact, as long as nothing happens late;
* `payout_never_overpays` — no overpayment in those runs;
* `payout_pays_twice` — a run that sends 16 for a target of 10.
-/

namespace Interledger.Payout

/-- `State`. -/
inductive State
  | disconnected
  | connecting
  | idle
  | sending
  | aborted
  deriving DecidableEq

/-- A connection that `trySending` created: its stream, and the variables its listeners close over.
The connection and the stream have the same listeners, attached and removed together. -/
structure Attempt where
  /-- The stream's `sendMax`. -/
  sendMax : ℕ := 0
  /-- The money the stream has sent. -/
  totalSent : ℕ := 0
  /-- The stream is closed. -/
  closed : Bool := false
  totalStreamAmount : ℕ := 0
  appliedSent : Bool := false
  listening : Bool := true
  /-- The clean-ups scheduled and not yet run. -/
  cleanUps : ℕ := 0
  deriving DecidableEq

/-- `DataAndMoneyStream.setSendMax`, which throws on a closed stream, a negative limit and one below
the total sent. -/
def Attempt.setSendMax (a : Attempt) (limit : ℤ) : Option Attempt :=
  if a.closed then none
  else if limit < 0 then none
  else if (a.totalSent : ℤ) > limit then none
  else some { a with sendMax := limit.toNat }

/-- `PayoutConnection`. `stream` is the position of the attempt whose stream `this.stream` is;
`querying` and `connecting` count the calls of `trySending` that await the receiver's details and
the connection; `timers` are the retry timers that are set, of which `safeSendTimer` is the last.
`requested` sums up the amounts passed to `send`. -/
structure PayoutConnection where
  state : State := .disconnected
  closing : Bool := false
  retries : ℕ := 0
  target : ℕ := 0
  sent : ℕ := 0
  stream : Option ℕ := none
  attempts : List Attempt := []
  querying : ℕ := 0
  connecting : ℕ := 0
  timers : List ℕ := []
  safeSendTimer : Option ℕ := none
  nextTimer : ℕ := 0
  requested : ℕ := 0
  deriving DecidableEq

/-- What happens to a payout connection. -/
inductive PayoutEvent
  /-- The call of `send`. -/
  | send (amount : ℕ)
  /-- The SPSP query of a `trySending` completes. -/
  | queried
  | queryFailed
  /-- The connection of a `trySending` is created. -/
  | connected
  | connectFailed
  /-- The stream of an attempt is closed; its event may follow later. -/
  | streamClosed (i : ℕ)
  /-- A `'close'` or `'error'` event of the connection or the stream of an attempt. -/
  | ended (i : ℕ)
  /-- A scheduled clean-up of an attempt runs. -/
  | cleanUp (i : ℕ)
  /-- The stream of an attempt sends money. -/
  | outgoingMoney (i amount : ℕ)
  /-- A retry timer fires. -/
  | retry (timer : ℕ)
  /-- The call of `close`. -/
  | close
  deriving DecidableEq

namespace PayoutConnection

variable (maxRetries : ℕ) (s : PayoutConnection)

/-- `getSendMax`. -/
def getSendMax : ℤ := s.target - s.sent

/-- `trySending` up to its first `await`. -/
def trySending : PayoutConnection :=
  if s.state ≠ .disconnected then s
  else { s with state := .connecting, querying := s.querying + 1 }

/-- `safeTrySending`. -/
def safeTrySending : PayoutConnection :=
  if s.retries ≥ maxRetries then { s with retries := s.retries + 1, state := .aborted }
  else trySending { s with retries := s.retries + 1 }

/-- The `catch` of `safeTrySending`: try again after the retry interval. -/
def catchError : PayoutConnection :=
  if s.closing then s
  else
    { s with
      state := .disconnected
      timers := s.timers ++ [s.nextTimer]
      safeSendTimer := some s.nextTimer
      nextTimer := s.nextTimer + 1 }

/-- `send`. It throws when closing. A `setSendMax` that throws leaves the stream as it is. -/
def send (amount : ℕ) : PayoutConnection :=
  let s := { s with requested := s.requested + amount }
  if s.closing then s
  else
    let s := { s with target := s.target + amount }
    match s.stream.bind fun i => s.attempts[i]?.map fun a => (i, a) with
    | some (i, a) =>
      if s.state = .sending ∨ s.state = .idle then
        { s with
          state := .sending
          attempts := s.attempts.set i ((a.setSendMax s.getSendMax).getD a) }
      else s.safeTrySending maxRetries
    | none => s.safeTrySending maxRetries

/-- The rest of `trySending`, once the connection is created. -/
def attach : PayoutConnection :=
  let s := { s with stream := some s.attempts.length }
  let a : Attempt := {}
  if s.getSendMax > 0 then
    { s with
      state := .sending
      attempts := s.attempts ++ [(a.setSendMax s.getSendMax).getD a] }
  else { s with state := .idle, attempts := s.attempts ++ [a] }

/-- The callback of `cleanUp`, up to its test whether something remains. -/
def detach (i : ℕ) (a : Attempt) : PayoutConnection :=
  { s with
    state := .disconnected
    attempts := s.attempts.set i
      { a with cleanUps := a.cleanUps - 1, listening := false, appliedSent := true }
    sent := if a.appliedSent then s.sent else s.sent + a.totalStreamAmount }

/-- The callback of `cleanUp`. -/
def runCleanUp (i : ℕ) (a : Attempt) : PayoutConnection :=
  let s := s.detach i a
  if s.getSendMax > 0 then s.safeTrySending maxRetries else s

/-- Money goes out on the stream of an attempt; `onOutgoingMoney` takes note while it listens. -/
def sendMoney (i : ℕ) (a : Attempt) (amount : ℕ) : PayoutConnection :=
  let a := { a with totalSent := a.totalSent + amount }
  if a.listening then
    let a := { a with totalStreamAmount := a.totalStreamAmount + amount }
    { s with
      retries := 0
      attempts := s.attempts.set i a
      state := if a.totalStreamAmount + s.sent ≥ s.target then .idle else s.state }
  else { s with attempts := s.attempts.set i a }

/-- One event. A stream sends money only within its `sendMax`. -/
def step : PayoutEvent → Option PayoutConnection
  | .send amount => some (s.send maxRetries amount)
  | .queried =>
    if 0 < s.querying then
      some { s with querying := s.querying - 1, connecting := s.connecting + 1 }
    else none
  | .queryFailed =>
    if 0 < s.querying then some (catchError { s with querying := s.querying - 1 }) else none
  | .connected =>
    if 0 < s.connecting then some (attach { s with connecting := s.connecting - 1 }) else none
  | .connectFailed =>
    if 0 < s.connecting then some (catchError { s with connecting := s.connecting - 1 }) else none
  | .streamClosed i =>
    s.attempts[i]?.map fun a => { s with attempts := s.attempts.set i { a with closed := true } }
  | .ended i =>
    s.attempts[i]?.bind fun a =>
      if a.listening then
        some { s with attempts := s.attempts.set i { a with cleanUps := a.cleanUps + 1 } }
      else none
  | .cleanUp i =>
    s.attempts[i]?.bind fun a => if 0 < a.cleanUps then some (s.runCleanUp maxRetries i a) else none
  | .outgoingMoney i amount =>
    s.attempts[i]?.bind fun a =>
      if a.totalSent + amount ≤ a.sendMax then some (s.sendMoney i a amount) else none
  | .retry timer =>
    if timer ∈ s.timers then
      some (safeTrySending maxRetries { s with timers := s.timers.erase timer })
    else none
  | .close =>
    some
      { s with
        closing := true
        timers := s.safeSendTimer.elim s.timers fun timer => s.timers.erase timer }

/-- The runs of a payout connection. -/
def machine : Machine PayoutConnection PayoutEvent where
  init s := s = {}
  step s := s.step maxRetries

/-- The money sent over all streams ever created. -/
def totalSent : ℕ := (s.attempts.map Attempt.totalSent).sum

end PayoutConnection

/-! ### One attempt at a time -/

open PayoutConnection

variable {maxRetries : ℕ} {s t : PayoutConnection}

/-- 1 for an attempt whose amount is not yet part of `sent`. -/
def Attempt.open (a : Attempt) : ℕ := if a.appliedSent then 0 else 1

/-- What an attempt sent, once that is part of `sent`. -/
def Attempt.applied (a : Attempt) : ℕ := if a.appliedSent then a.totalSent else 0

/-- The attempts under way: awaiting a network step, or connected and not cleaned up. -/
def underWay (s : PayoutConnection) : ℕ :=
  s.querying + s.connecting + (s.attempts.map Attempt.open).sum

/-- An attempt that is not cleaned up listens to all its stream sends, which keeps to what remained
of the target when it began. -/
structure Attempt.Sound (target sent : ℕ) (a : Attempt) : Prop where
  listening : a.listening = !a.appliedSent
  counted : a.appliedSent = false → a.totalStreamAmount = a.totalSent
  within : a.appliedSent = false → a.totalSent ≤ a.sendMax
  limit : a.appliedSent = false → a.sendMax + sent ≤ target

/-- At most one attempt is under way, none when disconnected, and `sent` is what the others sent. -/
structure Exclusive (s : PayoutConnection) : Prop where
  single : underWay s ≤ 1
  disconnected : s.state = .disconnected → underWay s = 0
  /-- `sent` is exactly what the cleaned-up attempts sent. -/
  sent : s.sent = (s.attempts.map Attempt.applied).sum
  /-- No more than the target. -/
  sent_le : s.sent ≤ s.target
  target_le : s.target ≤ s.requested
  sound : ∀ a ∈ s.attempts, a.Sound s.target s.sent

/-- The guard: a clean-up that runs again for an attempt finds no other attempt under way, and a
stream sends money only while its listeners are attached. -/
def NoLateEffects (s : PayoutConnection) : PayoutEvent → Prop
  | .cleanUp i => ∀ a, s.attempts[i]? = some a → a.appliedSent = true → underWay s = 0
  | .outgoingMoney i _ => ∀ a, s.attempts[i]? = some a → a.listening = true
  | _ => True

/-- A property of an optional item is decided by looking at the item. -/
local instance decidableForallEqSome {α : Type} (o : Option α) (p : α → Prop) [DecidablePred p] :
    Decidable (∀ a, o = some a → p a) :=
  match o with
  | none => .isTrue nofun
  | some a =>
    decidable_of_iff (p a) ⟨fun h _ h_eq => Option.some.inj h_eq ▸ h, fun h => h a rfl⟩

instance (e : PayoutEvent) : Decidable (NoLateEffects s e) := by
  cases e <;> unfold NoLateEffects <;> infer_instance

theorem Attempt.Sound.mono {target target' sent : ℕ} {a : Attempt} (h : a.Sound target sent)
    (h_target : target ≤ target') : a.Sound target' sent where
  listening := h.listening
  counted := h.counted
  within := h.within
  limit h_open := (h.limit h_open).trans h_target

namespace Exclusive

theorem initial (h : (machine maxRetries).init s) : Exclusive s := by
  obtain rfl := h
  exact ⟨Nat.zero_le _, fun _ => rfl, rfl, le_rfl, le_rfl, nofun⟩

/-! What leaves the attempts, the amounts and the state alone keeps the invariant. -/

/-- Giving up. -/
theorem abort (h : Exclusive s) (retries : ℕ) :
    Exclusive { s with retries := retries, state := .aborted } :=
  ⟨h.single, nofun, h.sent, h.sent_le, h.target_le, h.sound⟩

/-- A new attempt begins only when none is under way. -/
theorem trySending (h : Exclusive s) : Exclusive s.trySending := by
  unfold PayoutConnection.trySending
  by_cases h_state : s.state = .disconnected
  · rw [if_neg (not_not.mpr h_state)]
    have h_none := h.disconnected h_state
    have h_one : s.querying + 1 + s.connecting + (s.attempts.map Attempt.open).sum = 1 := by
      unfold underWay at h_none
      omega
    exact ⟨h_one.le, nofun, h.sent, h.sent_le, h.target_le, h.sound⟩
  · rw [if_pos h_state]
    exact h

theorem safeTrySending (h : Exclusive s) : Exclusive (s.safeTrySending maxRetries) := by
  unfold PayoutConnection.safeTrySending
  split
  · exact h.abort _
  · exact trySending ⟨h.single, h.disconnected, h.sent, h.sent_le, h.target_le, h.sound⟩

/-- When the attempt that failed was the one under way, none is left. -/
theorem catchError (h : Exclusive s) (h_none : underWay s = 0) : Exclusive s.catchError := by
  unfold PayoutConnection.catchError
  split
  · exact h
  · exact ⟨h_none.le.trans zero_le_one, fun _ => h_none, h.sent, h.sent_le, h.target_le, h.sound⟩

/-- Replacing an attempt by a sound one with the same share of `sent`. -/
theorem set {i : ℕ} {a : Attempt} (h : Exclusive s) (a' : Attempt) (h_get : s.attempts[i]? = some a)
    (h_sound : a'.Sound s.target s.sent) (h_open : a'.open = a.open)
    (h_applied : a'.applied = a.applied) : Exclusive { s with attempts := s.attempts.set i a' } := by
  have h_sum_open := sum_map_set Attempt.open h_get a'
  have h_sum_applied := sum_map_set Attempt.applied h_get a'
  have h_under : underWay { s with attempts := s.attempts.set i a' } = underWay s := by
    unfold underWay
    simp only
    omega
  refine ⟨h_under ▸ h.single, fun h_state => h_under.trans (h.disconnected h_state), ?_, h.sent_le,
    h.target_le, ?_⟩
  · have h_sent := h.sent
    simp only
    omega
  · intro b hb
    rcases List.mem_or_eq_of_mem_set hb with h_old | rfl
    · exact h.sound b h_old
    · exact h_sound

/-- Raising the target. -/
theorem raise (h : Exclusive s) (amount : ℕ) :
    Exclusive { s with target := s.target + amount, requested := s.requested + amount } where
  single := h.single
  disconnected := h.disconnected
  sent := h.sent
  sent_le := h.sent_le.trans (Nat.le_add_right _ _)
  target_le := Nat.add_le_add_right h.target_le _
  sound a ha := (h.sound a ha).mono (Nat.le_add_right _ _)

/-- What `setSendMax` allows a stream keeps to what remains of the target. -/
theorem sound_setSendMax {a : Attempt} (h : Exclusive s) (h_sound : a.Sound s.target s.sent) :
    ((a.setSendMax s.getSendMax).getD a).Sound s.target s.sent ∧
      ((a.setSendMax s.getSendMax).getD a).open = a.open ∧
      ((a.setSendMax s.getSendMax).getD a).applied = a.applied := by
  have h_le := h.sent_le
  have h_max : s.getSendMax = ((s.target - s.sent : ℕ) : ℤ) := by
    unfold getSendMax
    omega
  rw [h_max]
  unfold Attempt.setSendMax
  by_cases h_closed : a.closed = true
  · rw [if_pos h_closed]
    exact ⟨h_sound, rfl, rfl⟩
  · rw [if_neg h_closed, if_neg (Int.natCast_nonneg _).not_gt]
    by_cases h_below : (a.totalSent : ℤ) > ((s.target - s.sent : ℕ) : ℤ)
    · rw [if_pos h_below]
      exact ⟨h_sound, rfl, rfl⟩
    · rw [if_neg h_below]
      refine ⟨⟨h_sound.listening, h_sound.counted, fun _ => ?_, fun _ => ?_⟩, rfl, rfl⟩
      · simp only [Option.getD_some, Int.toNat_natCast]
        omega
      · simp only [Option.getD_some, Int.toNat_natCast]
        omega

theorem send (h : Exclusive s) (amount : ℕ) : Exclusive (s.send maxRetries amount) := by
  have h_raised := h.raise amount
  unfold PayoutConnection.send
  simp only
  by_cases h_closing : s.closing = true
  · rw [if_pos h_closing]
    exact ⟨h.single, h.disconnected, h.sent, h.sent_le,
      h.target_le.trans (Nat.le_add_right _ _), h.sound⟩
  · rw [if_neg h_closing]
    split
    · next i a h_stream =>
      split
      · -- the stream of the current connection may send more
        obtain ⟨j, -, h_found⟩ := Option.bind_eq_some_iff.mp h_stream
        obtain ⟨b, h_get, h_eq⟩ := Option.map_eq_some_iff.mp h_found
        obtain ⟨rfl, rfl⟩ := Prod.mk.inj h_eq
        have h_mem : b ∈ s.attempts := List.mem_of_getElem? h_get
        obtain ⟨h_sound, h_open, h_applied⟩ := h_raised.sound_setSendMax (h_raised.sound b h_mem)
        have h_set := h_raised.set _ h_get h_sound h_open h_applied
        exact ⟨h_set.single, nofun, h_set.sent, h_set.sent_le, h_set.target_le, h_set.sound⟩
      · exact h_raised.safeTrySending
    · exact h_raised.safeTrySending

/-- A new connection takes the place of the call that was awaiting it. -/
theorem attach (h : Exclusive s) (h_pos : 0 < s.connecting) :
    Exclusive (PayoutConnection.attach { s with connecting := s.connecting - 1 }) := by
  -- the attempt that connects is the only one under way
  have h_single := h.single
  have h_under : underWay s = s.querying + s.connecting + (s.attempts.map Attempt.open).sum := rfl
  -- its stream has sent nothing yet
  have h_fresh : Attempt.Sound s.target s.sent {} :=
    ⟨rfl, fun _ => rfl, fun _ => le_rfl, fun _ => (Nat.zero_add _).trans_le h.sent_le⟩
  -- either way a sound attempt that has sent nothing is appended
  have h_append : ∀ (a : Attempt) (state : State), a.Sound s.target s.sent → a.open = 1 →
      a.applied = 0 → state ≠ .disconnected →
      Exclusive
        { s with
          connecting := s.connecting - 1
          stream := some s.attempts.length
          state := state
          attempts := s.attempts ++ [a] } := by
    intro a state h_sound h_open h_applied h_state
    refine ⟨?_, fun h_eq => absurd h_eq h_state, ?_, h.sent_le, h.target_le, ?_⟩
    · unfold underWay
      simp only [List.map_append, List.sum_append, List.map_cons, List.map_nil, List.sum_cons,
        List.sum_nil, h_open]
      omega
    · simp only [List.map_append, List.sum_append, List.map_cons, List.map_nil,
        List.sum_singleton, h_applied]
      exact h.sent
    · intro b hb
      rcases List.mem_append.mp hb with h_old | h_new
      · exact h.sound b h_old
      · obtain rfl := List.mem_singleton.mp h_new
        exact h_sound
  -- the first maximum sends nothing by itself
  have h_set := h.sound_setSendMax h_fresh
  unfold PayoutConnection.attach
  simp only
  split
  · exact h_append _ _ h_set.1 h_set.2.1 h_set.2.2 (by rintro ⟨⟩)
  · exact h_append _ _ h_fresh rfl rfl (by rintro ⟨⟩)

/-- The first clean-up of an attempt ends the one under way; a later one must find none. -/
theorem detach {i : ℕ} {a : Attempt} (h : Exclusive s) (h_get : s.attempts[i]? = some a)
    (h_late : a.appliedSent = true → underWay s = 0) : Exclusive (s.detach i a) := by
  have h_mem := List.mem_of_getElem? h_get
  have h_sound := h.sound a h_mem
  have h_single := h.single
  have h_sent := h.sent
  have h_under : underWay s = s.querying + s.connecting + (s.attempts.map Attempt.open).sum := rfl
  -- the clean-up leaves the attempt with its amount counted
  let a' : Attempt :=
    { a with cleanUps := a.cleanUps - 1, listening := false, appliedSent := true }
  have h_sum_open := sum_map_set Attempt.open h_get a'
  have h_sum_applied := sum_map_set Attempt.applied h_get a'
  have h_open' : a'.open = 0 := rfl
  have h_applied' : a'.applied = a.totalSent := rfl
  have h_sound' : ∀ n, a'.Sound s.target n := fun n => ⟨rfl, nofun, nofun, nofun⟩
  unfold PayoutConnection.detach
  cases h_applied : a.appliedSent with
  | true =>
    -- it was counted before, so that nothing may be under way
    have h_none := h_late h_applied
    have h_open : a.open = 0 := by simp [Attempt.open, h_applied]
    have h_share : a.applied = a.totalSent := by simp [Attempt.applied, h_applied]
    have h_zero : underWay { s with state := .disconnected, attempts := s.attempts.set i a' } = 0 := by
      unfold underWay
      simp only
      omega
    rw [if_pos rfl]
    refine ⟨h_zero.le.trans zero_le_one, fun _ => h_zero, ?_, h.sent_le, h.target_le, ?_⟩
    · change s.sent = ((s.attempts.set i a').map Attempt.applied).sum
      omega
    · intro b hb
      rcases List.mem_or_eq_of_mem_set hb with h_old | rfl
      · exact h.sound b h_old
      · exact h_sound' _
  | false =>
    have h_open : a.open = 1 := by simp [Attempt.open, h_applied]
    have h_share : a.applied = 0 := by simp [Attempt.applied, h_applied]
    -- it is counted now
    have h_counted := h_sound.counted h_applied
    have h_within := h_sound.within h_applied
    have h_limit := h_sound.limit h_applied
    -- the attempt was the only one under way
    have h_rest : ((s.attempts.set i a').map Attempt.open).sum = 0 := by omega
    have h_zero : underWay
        { s with
          state := .disconnected
          attempts := s.attempts.set i a'
          sent := s.sent + a.totalStreamAmount } = 0 := by
      unfold underWay
      simp only
      omega
    rw [if_neg Bool.false_ne_true]
    refine ⟨h_zero.le.trans zero_le_one, fun _ => h_zero, ?_, ?_, h.target_le, ?_⟩
    · change s.sent + a.totalStreamAmount = ((s.attempts.set i a').map Attempt.applied).sum
      omega
    · change s.sent + a.totalStreamAmount ≤ s.target
      omega
    · intro b hb
      -- every attempt left is cleaned up, and the amount sent says nothing about those
      have h_applied_b : b.appliedSent = true := by
        have h_zero_b : b.open = 0 :=
          List.sum_eq_zero_iff_forall_eq_nat.mp h_rest _ (List.mem_map_of_mem hb)
        by_contra h_not
        simp [Attempt.open, h_not] at h_zero_b
      rcases List.mem_or_eq_of_mem_set hb with h_old | rfl
      · exact ⟨(h.sound b h_old).listening, by simp [h_applied_b], by simp [h_applied_b],
          by simp [h_applied_b]⟩
      · exact h_sound' _

theorem runCleanUp {i : ℕ} {a : Attempt} (h : Exclusive s) (h_get : s.attempts[i]? = some a)
    (h_late : a.appliedSent = true → underWay s = 0) :
    Exclusive (s.runCleanUp maxRetries i a) := by
  have h_detached := h.detach h_get h_late
  unfold PayoutConnection.runCleanUp
  simp only
  split
  · exact h_detached.safeTrySending
  · exact h_detached

theorem sendMoney {i amount : ℕ} {a : Attempt} (h : Exclusive s)
    (h_get : s.attempts[i]? = some a) (h_max : a.totalSent + amount ≤ a.sendMax)
    (h_listening : a.listening = true) : Exclusive (s.sendMoney i a amount) := by
  have h_sound := h.sound a (List.mem_of_getElem? h_get)
  have h_open : a.appliedSent = false := by simpa [h_listening] using h_sound.listening
  have h_counted := h_sound.counted h_open
  have h_set := h.set
    { a with
      totalSent := a.totalSent + amount
      totalStreamAmount := a.totalStreamAmount + amount }
    h_get
    ⟨h_sound.listening, fun _ => by simp only [h_counted], fun _ => h_max, h_sound.limit⟩ rfl
    (by simp [Attempt.applied, h_open])
  unfold PayoutConnection.sendMoney
  simp only
  rw [if_pos h_listening]
  refine ⟨h_set.single, fun h_state => ?_, h_set.sent, h_set.sent_le, h_set.target_le, h_set.sound⟩
  refine h_set.disconnected ?_
  simp only at h_state
  split at h_state
  · cases h_state
  · exact h_state

/-- Every event without a late effect keeps the attempts apart. -/
theorem step {e : PayoutEvent} (h : Exclusive s) (h_ok : NoLateEffects s e)
    (h_step : s.step maxRetries e = some t) : Exclusive t := by
  have h_single := h.single
  have h_under : underWay s = s.querying + s.connecting + (s.attempts.map Attempt.open).sum := rfl
  cases e with
  | send amount =>
    obtain rfl := Option.some.inj h_step
    exact h.send amount
  | queried =>
    obtain ⟨h_pos, h_eq⟩ := Option.ite_none_right_eq_some.mp h_step
    obtain rfl := Option.some.inj h_eq
    -- the attempt goes on, and is still the only one
    have h_same : underWay { s with querying := s.querying - 1, connecting := s.connecting + 1 }
        = underWay s := by
      unfold underWay
      simp only
      omega
    exact ⟨h_same ▸ h.single, fun h_state => h_same.trans (h.disconnected h_state), h.sent,
      h.sent_le, h.target_le, h.sound⟩
  | queryFailed =>
    obtain ⟨h_pos, h_eq⟩ := Option.ite_none_right_eq_some.mp h_step
    obtain rfl := Option.some.inj h_eq
    -- no other attempt is under way when this one fails
    have h_none : underWay { s with querying := s.querying - 1 } = 0 := by
      unfold underWay
      simp only
      omega
    exact catchError
      ⟨h_none.le.trans zero_le_one, fun _ => h_none, h.sent, h.sent_le, h.target_le, h.sound⟩ h_none
  | connected =>
    obtain ⟨h_pos, h_eq⟩ := Option.ite_none_right_eq_some.mp h_step
    obtain rfl := Option.some.inj h_eq
    exact h.attach h_pos
  | connectFailed =>
    obtain ⟨h_pos, h_eq⟩ := Option.ite_none_right_eq_some.mp h_step
    obtain rfl := Option.some.inj h_eq
    have h_none : underWay { s with connecting := s.connecting - 1 } = 0 := by
      unfold underWay
      simp only
      omega
    exact catchError
      ⟨h_none.le.trans zero_le_one, fun _ => h_none, h.sent, h.sent_le, h.target_le, h.sound⟩ h_none
  | streamClosed i =>
    obtain ⟨a, h_get, rfl⟩ := Option.map_eq_some_iff.mp h_step
    obtain ⟨h₁, h₂, h₃, h₄⟩ := h.sound a (List.mem_of_getElem? h_get)
    exact h.set _ h_get ⟨h₁, h₂, h₃, h₄⟩ rfl rfl
  | ended i =>
    obtain ⟨a, h_get, h_eq⟩ := Option.bind_eq_some_iff.mp h_step
    obtain ⟨-, h_eq⟩ := Option.ite_none_right_eq_some.mp h_eq
    obtain rfl := Option.some.inj h_eq
    obtain ⟨h₁, h₂, h₃, h₄⟩ := h.sound a (List.mem_of_getElem? h_get)
    exact h.set _ h_get ⟨h₁, h₂, h₃, h₄⟩ rfl rfl
  | cleanUp i =>
    obtain ⟨a, h_get, h_eq⟩ := Option.bind_eq_some_iff.mp h_step
    obtain ⟨-, h_eq⟩ := Option.ite_none_right_eq_some.mp h_eq
    obtain rfl := Option.some.inj h_eq
    exact h.runCleanUp h_get (h_ok a h_get)
  | outgoingMoney i amount =>
    obtain ⟨a, h_get, h_eq⟩ := Option.bind_eq_some_iff.mp h_step
    obtain ⟨h_max, h_eq⟩ := Option.ite_none_right_eq_some.mp h_eq
    obtain rfl := Option.some.inj h_eq
    exact h.sendMoney h_get h_max (h_ok a h_get)
  | retry timer =>
    obtain ⟨-, h_eq⟩ := Option.ite_none_right_eq_some.mp h_step
    obtain rfl := Option.some.inj h_eq
    exact safeTrySending ⟨h.single, h.disconnected, h.sent, h.sent_le, h.target_le, h.sound⟩
  | close =>
    obtain rfl := Option.some.inj h_step
    exact ⟨h.single, h.disconnected, h.sent, h.sent_le, h.target_le, h.sound⟩

theorem of_reach (h : (machine maxRetries).Reach NoLateEffects s) : Exclusive s :=
  h.invariant _ (fun _ h_init => initial h_init)
    fun _ _ _ _ h_inv h_ok h_step => h_inv.step h_ok h_step

/-- What all streams sent is what the cleaned-up ones did, and at most what remained of the target
for the one that is open. -/
theorem totalSent_le (h : Exclusive s) : s.totalSent ≤ s.target := by
  let live : Attempt → ℕ := fun a => if a.appliedSent then 0 else a.totalSent
  have h_split : s.totalSent
      = (s.attempts.map Attempt.applied).sum + (s.attempts.map live).sum := by
    unfold PayoutConnection.totalSent
    rw [← List.sum_map_add]
    congr 1
    refine List.map_congr_left fun a _ => ?_
    simp only [live, Attempt.applied]
    split <;> omega
  have h_live : (s.attempts.map live).sum
      ≤ (s.target - s.sent) * (s.attempts.map Attempt.open).sum := by
    refine sum_map_le_mul fun a ha => ?_
    obtain ⟨-, -, h_within, h_limit⟩ := h.sound a ha
    cases h_applied : a.appliedSent with
    | true => simp [live, h_applied]
    | false =>
      have h₁ := h_within h_applied
      have h₂ := h_limit h_applied
      simp only [live, Attempt.open, h_applied, Bool.false_eq_true, if_false, Nat.mul_one]
      omega
  have h_one : (s.attempts.map Attempt.open).sum ≤ 1 :=
    (Nat.le_add_left _ _).trans h.single
  have h_mul := Nat.mul_le_mul_left (s.target - s.sent) h_one
  have h_le := h.sent_le
  rw [h_split, ← h.sent]
  omega

end Exclusive

/-- **No overpayment.** In every run without late effects, the money sent over all streams is at
most the sum of the amounts passed to `send`. -/
theorem payout_never_overpays (h : (machine maxRetries).Reach NoLateEffects s) :
    (s.attempts.map Attempt.totalSent).sum ≤ s.requested :=
  (Exclusive.of_reach h).totalSent_le.trans (Exclusive.of_reach h).target_le

/-- A payout that sends 4 of 10, loses its connection and sends the rest over another. -/
theorem payout_never_overpays_reconnect :
    ∃ s, (machine 20).Reachable s ∧ s.attempts.length = 2 ∧
      (s.attempts.map Attempt.totalSent).sum ≤ 10 := by
  have h : (machine 20).Reach NoLateEffects _ :=
    Machine.reach_of_exec
      [.send 10, .queried, .connected, .outgoingMoney 0 4, .ended 0, .cleanUp 0, .queried,
        .connected, .outgoingMoney 1 6] rfl rfl
  exact ⟨_, h.reachable, rfl, payout_never_overpays h⟩

/-- **The remainder is paid twice**: the stream and its connection both close after 4 of 10 were
sent. The first clean-up starts a new attempt and the second, run right after it, another; each
connection may send the 6 that remain. -/
theorem payout_pays_twice :
    ∃ s, (machine 20).Reachable s ∧ s.requested = 10 ∧
      (s.attempts.map Attempt.totalSent).sum = 16 := by
  have h : (machine 20).Reachable _ :=
    Machine.reach_of_exec
      [.send 10, .queried, .connected, .outgoingMoney 0 4, .ended 0, .ended 0, .cleanUp 0,
        .cleanUp 0, .queried, .queried, .connected, .connected, .outgoingMoney 1 6,
        .outgoingMoney 2 6] rfl rfl
  exact ⟨_, h, rfl, rfl⟩

end Interledger.Payout
