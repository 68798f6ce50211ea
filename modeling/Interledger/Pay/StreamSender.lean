import Interledger.Lib.Bookkeeping
import Interledger.Lib.Machine
import Interledger.Pay.Controllers

/-!
# The send loop of a STREAM sender

`StreamSender` of `pay/src/senders/index.ts`. The loop waits for whichever comes first of a
scheduled attempt (`requestScheduler`) and a reply (`replyScheduler`), runs it, and acts on the
state it returns. Nothing orders the replies, so the loop is an event machine: an **attempt** runs
one scheduled `trySending`, a **reply** answers one of the requests in flight. When the loop has
ended the outstanding replies are still processed (`replyScheduler.complete()`), attempts no more.

A concrete sender supplies `nextState`, which commits to the next request or cancels the attempt,
and the handler of that request's reply. Both read the controllers and neither writes them, and a
request records what its reply handler closes over.

The requests answered so far are kept beside the ones in flight. They are the history the
accounting of a sender is stated over; no transition reads them.

## Main results

* `SendLoop.step_attempt`, `SendLoop.step_reply` — all that one event can do;
* `SendLoop.Reach.inFlightCount_eq` — the pacer counts exactly the requests in flight;
* `SendLoop.Reach.unanswered_or_scheduled` — the loop is alive as long as the sender yields only
  with a request in flight and every reply that does not end the loop schedules an attempt.
-/

namespace Interledger.Pay

/-- `SendState` without `Send`: how an attempt or a reply moves the send loop. -/
inductive SendState (τ : Type)
  | done (value : τ)
  | error (value : PaymentError)
  | schedule
  | yield
  deriving DecidableEq

/-- What `nextState` returns: the request to send, or the state that cancels the attempt. -/
inductive NextState (ρ τ : Type)
  | send (request : ρ)
  | cancel (state : SendState τ)
  deriving DecidableEq

/-- What distinguishes one `StreamSender` from another: its own state `σ`, the requests `ρ` it
sends and the value `τ` its loop resolves to. -/
structure StreamSender (σ ρ τ : Type) where
  sourceAmount : ρ → ℕ
  nextState : Env → Controllers → σ → σ × NextState ρ τ
  applyReply : Env → Controllers → ρ → StreamReply → σ → σ × SendState τ

/-- The state of a send loop. `scheduled` counts the attempts in `requestScheduler`, `unanswered`
are the requests in flight, and `outcome` is what the loop has resolved to. -/
structure SendLoop (σ ρ τ : Type) where
  controllers : Controllers
  sender : σ
  scheduled : ℕ := 1
  unanswered : List ρ := []
  answered : List (ρ × StreamReply) := []
  outcome : Option (Except PaymentError τ) := none

/-- What the loop reacts to. A reply answers the `i`-th request in flight. -/
inductive SendEvent
  | attempt (env : Env)
  | reply (env : Env) (i : ℕ) (reply : StreamReply)
  deriving DecidableEq

namespace SendLoop

variable {σ ρ τ : Type}

/-- The `switch` of `start` on the state an attempt or a reply returned. -/
def handle (l : SendLoop σ ρ τ) : SendState τ → SendLoop σ ρ τ
  | .done value => { l with outcome := some (.ok value) }
  | .error value => { l with outcome := some (.error value) }
  | .schedule => { l with scheduled := l.scheduled + 1 }
  | .yield => l

/-- The requests that were fulfilled. -/
def fulfilled (l : SendLoop σ ρ τ) : List ρ :=
  (l.answered.filter fun p => p.2.isFulfill).map Prod.fst

variable (S : StreamSender σ ρ τ)

/-- `trySending`, run as the next scheduled attempt: the controllers may veto it, then the sender
commits to a request or cancels. -/
def trySending (env : Env) (l : SendLoop σ ρ τ) : SendLoop σ ρ τ :=
  match l.controllers.buildRequest env with
  | .error value => l.handle (.error value)
  | .schedule => l.handle .schedule
  | .yield => l.handle .yield
  | .ready =>
    match S.nextState env l.controllers l.sender with
    | (sender, .cancel state) => handle { l with sender := sender } state
    | (sender, .send request) =>
      handle
        { l with
          sender := sender
          controllers := l.controllers.applyRequest env
          unanswered := l.unanswered ++ [request] } .schedule

/-- The effects of a reply: every controller's, then the sender's. The first error of a controller
overrides the sender's state. -/
def applyEffects (env : Env) (request : ρ) (reply : StreamReply) (l : SendLoop σ ρ τ) :
    SendLoop σ ρ τ × SendState τ :=
  let (controllers, error) := l.controllers.applyReply env (S.sourceAmount request) reply
  let (sender, newState) := S.applyReply env controllers request reply l.sender
  ({ l with controllers := controllers, sender := sender },
   match error with
   | some value => .error value
   | none => newState)

/-- One event of the loop. Once it has ended, no attempt runs and what a reply returns is
dropped. -/
def step (l : SendLoop σ ρ τ) : SendEvent → Option (SendLoop σ ρ τ)
  | .attempt env =>
    if l.outcome.isNone ∧ 0 < l.scheduled then
      some (trySending S env { l with scheduled := l.scheduled - 1 })
    else none
  | .reply env i reply =>
    l.unanswered[i]?.map fun request =>
      let (l', state) := applyEffects S env request reply
        { l with
          unanswered := l.unanswered.eraseIdx i
          answered := l.answered ++ [(request, reply)] }
      if l.outcome.isSome then l' else l'.handle state

/-- The send loop of `S` as an event machine, started from the given controllers and sender. -/
def machine (controllers : Controllers) (sender : σ) : Machine (SendLoop σ ρ τ) SendEvent where
  init l := l = { controllers := controllers, sender := sender }
  step := step S

/-! ### What the loop's bookkeeping leaves alone -/

section Handle

variable (l : SendLoop σ ρ τ) (state : SendState τ)

@[simp] theorem handle_controllers : (l.handle state).controllers = l.controllers := by
  cases state <;> rfl

@[simp] theorem handle_sender : (l.handle state).sender = l.sender := by
  cases state <;> rfl

@[simp] theorem handle_unanswered : (l.handle state).unanswered = l.unanswered := by
  cases state <;> rfl

@[simp] theorem handle_answered : (l.handle state).answered = l.answered := by
  cases state <;> rfl

@[simp] theorem handle_fulfilled : (l.handle state).fulfilled = l.fulfilled := by
  cases state <;> rfl

end Handle

variable {S} {l l' : SendLoop σ ρ τ} {env : Env} {i : ℕ} {reply : StreamReply}

/-- A reply is fulfilled or changes nothing about the fulfilled requests. -/
theorem fulfilled_append (l : SendLoop σ ρ τ) (request : ρ) (reply : StreamReply) :
    ((l.answered ++ [(request, reply)]).filter fun p => p.2.isFulfill).map Prod.fst
      = l.fulfilled ++ if reply.isFulfill then [request] else [] := by
  unfold fulfilled
  rw [List.filter_append, List.map_append]
  cases h : reply.isFulfill <;> simp [h]

/-! ### All that one event can do -/

/-- What an attempt does. -/
structure Attempted (S : StreamSender σ ρ τ) (env : Env) (l l' : SendLoop σ ρ τ) : Prop where
  /-- Attempts run only before the loop has ended. -/
  running : l.outcome = none
  /-- It is one of the scheduled ones. -/
  scheduled : 0 < l.scheduled
  /-- An attempt answers no request. -/
  answered : l'.answered = l.answered
  /-- Either it is vetoed, or cancelled by the sender, or it sends one request. -/
  cases :
    (l'.sender = l.sender ∧ l'.controllers = l.controllers ∧ l'.unanswered = l.unanswered ∧
      ((∃ value, l'.outcome = some (.error value)) ∨
        l'.outcome = none ∧ (l'.scheduled = l.scheduled ∨
          l'.scheduled + 1 = l.scheduled ∧ maxInflightPackets ≤ l.controllers.inFlightCount))) ∨
    (∃ state, S.nextState env l.controllers l.sender = (l'.sender, .cancel state) ∧
      l'.controllers = l.controllers ∧ l'.unanswered = l.unanswered ∧
      l' = handle { l with sender := l'.sender, scheduled := l.scheduled - 1 } state) ∨
    (∃ request, S.nextState env l.controllers l.sender = (l'.sender, .send request) ∧
      l.controllers.buildRequest env = .ready ∧
      l'.controllers = l.controllers.applyRequest env ∧
      l'.unanswered = l.unanswered ++ [request] ∧
      l'.outcome = none ∧ l'.scheduled = l.scheduled)

/-- A yield of the controllers comes from the pacer. -/
theorem inFlightCount_of_yield {c : Controllers} (h : c.buildRequest env = .yield) :
    maxInflightPackets ≤ c.inFlightCount := by
  unfold Controllers.buildRequest at h
  split at h <;> try cases h
  split at h <;> try cases h
  split at h <;> try cases h
  split at h <;> try cases h
  assumption

theorem step_attempt (h : step S l (.attempt env) = some l') : Attempted S env l l' := by
  simp only [step] at h
  split at h
  case isFalse => cases h
  case isTrue h_guard =>
    obtain ⟨h_run, h_sched⟩ := h_guard
    rw [Option.isNone_iff_eq_none] at h_run
    obtain rfl := Option.some.inj h
    unfold trySending
    -- the controllers decide first
    cases h_build : l.controllers.buildRequest env with
    | error value =>
      exact ⟨h_run, h_sched, rfl, .inl ⟨rfl, rfl, rfl, .inl ⟨value, rfl⟩⟩⟩
    | schedule =>
      refine ⟨h_run, h_sched, rfl, .inl ⟨rfl, rfl, rfl, .inr ⟨h_run, .inl ?_⟩⟩⟩
      exact Nat.sub_add_cancel h_sched
    | yield =>
      refine ⟨h_run, h_sched, rfl, .inl ⟨rfl, rfl, rfl, .inr ⟨h_run, .inr ⟨?_, ?_⟩⟩⟩⟩
      · exact Nat.sub_add_cancel h_sched
      · exact inFlightCount_of_yield h_build
    | ready =>
      simp only
      -- and then the sender
      rcases h_next : S.nextState env l.controllers l.sender with ⟨sender, request | state⟩
      · refine ⟨h_run, h_sched, by simp, .inr (.inr ⟨request, ?_, h_build, ?_, ?_, ?_, ?_⟩)⟩
        · simpa only [handle_sender] using h_next
        · simp only [handle_controllers]
        · simp only [handle_unanswered]
        · exact h_run
        · exact Nat.sub_add_cancel h_sched
      · refine ⟨h_run, h_sched, by simp, .inr (.inl ⟨state, ?_, by simp, by simp, by simp⟩)⟩
        simpa only [handle_sender] using h_next

/-- What the reply to a request does. -/
structure Replied (S : StreamSender σ ρ τ) (env : Env) (i : ℕ) (reply : StreamReply) (request : ρ)
    (l l' : SendLoop σ ρ τ) : Prop where
  /-- The request was in flight. -/
  get : l.unanswered[i]? = some request
  /-- It no longer is. -/
  unanswered : l'.unanswered = l.unanswered.eraseIdx i
  /-- It is recorded with its reply. -/
  answered : l'.answered = l.answered ++ [(request, reply)]
  /-- The controllers take note first. -/
  controllers : l'.controllers
    = (l.controllers.applyReply env (S.sourceAmount request) reply).1
  /-- Then the sender does. -/
  sender : l'.sender = (S.applyReply env l'.controllers request reply l.sender).1
  /-- What the loop has resolved to stays. -/
  outcome_of_some : l.outcome.isSome → l'.outcome = l.outcome
  /-- Before that, the loop ends with an error, or goes on as the sender says. -/
  outcome_of_none : l.outcome = none →
    (∃ value, l'.outcome = some (.error value)) ∨
      ∀ state, (S.applyReply env l'.controllers request reply l.sender).2 = state →
        (state = .schedule → l'.outcome = none ∧ l'.scheduled = l.scheduled + 1) ∧
        (state = .yield → l'.outcome = none ∧ l'.scheduled = l.scheduled) ∧
        (∀ value, state = .done value → l'.outcome = some (.ok value)) ∧
        (∀ value, state = .error value → l'.outcome = some (.error value))

theorem step_reply (h : step S l (.reply env i reply) = some l') :
    ∃ request, Replied S env i reply request l l' := by
  obtain ⟨request, h_get, rfl⟩ := Option.map_eq_some_iff.mp h
  refine ⟨request, ?_⟩
  simp only [applyEffects]
  cases h_out : l.outcome with
  | some value =>
    exact ⟨h_get, rfl, rfl, rfl, rfl, fun _ => h_out.symm, by simp [h_out]⟩
  | none =>
    refine ⟨h_get, by simp, by simp, by simp, by simp, by simp [h_out], fun _ => ?_⟩
    cases h_err : (l.controllers.applyReply env (S.sourceAmount request) reply).2 with
    | some value => exact .inl ⟨value, rfl⟩
    | none =>
      refine .inr fun state h_state => ?_
      simp only [Option.isSome_none, Bool.false_eq_true, if_false, handle_controllers] at h_state ⊢
      rw [h_state]
      refine ⟨?_, ?_, ?_, ?_⟩
      · rintro rfl
        exact ⟨rfl, rfl⟩
      · rintro rfl
        exact ⟨rfl, rfl⟩
      · rintro value rfl
        rfl
      · rintro value rfl
        rfl

namespace Replied

variable {request : ρ}

/-- The fulfilled requests after the reply. -/
theorem fulfilled (h : Replied S env i reply request l l') :
    l'.fulfilled = l.fulfilled ++ if reply.isFulfill then [request] else [] := by
  unfold SendLoop.fulfilled
  rw [h.answered, fulfilled_append]
  rfl

/-- A loop that is still running after the reply was running before, and the sender's state is
neither done nor an error. -/
theorem running (h : Replied S env i reply request l l') (h_run : l'.outcome = none) :
    l.outcome = none ∧
      ((S.applyReply env l'.controllers request reply l.sender).2 = .schedule ∧
          l'.scheduled = l.scheduled + 1 ∨
        (S.applyReply env l'.controllers request reply l.sender).2 = .yield ∧
          l'.scheduled = l.scheduled) := by
  have h_before : l.outcome = none := by
    by_contra h_some
    rw [h.outcome_of_some (Option.isSome_iff_ne_none.mpr h_some)] at h_run
    exact h_some h_run
  refine ⟨h_before, ?_⟩
  rcases h.outcome_of_none h_before with ⟨value, h_err⟩ | h_state
  · rw [h_run] at h_err
    cases h_err
  · obtain ⟨h_sched, h_yield, h_done, h_error⟩ := h_state _ rfl
    cases h_eq : (S.applyReply env l'.controllers request reply l.sender).2 with
    | schedule => exact .inl ⟨rfl, (h_sched h_eq).2⟩
    | yield => exact .inr ⟨rfl, (h_yield h_eq).2⟩
    | done value =>
      rw [h_done value h_eq] at h_run
      cases h_run
    | error value =>
      rw [h_error value h_eq] at h_run
      cases h_run

/-- A loop that ended well ended so before, or this reply did it. -/
theorem done (h : Replied S env i reply request l l') {value : τ}
    (h_done : l'.outcome = some (.ok value)) :
    l.outcome = some (.ok value) ∨
      l.outcome = none ∧ (S.applyReply env l'.controllers request reply l.sender).2 = .done value := by
  cases h_out : l.outcome with
  | some result =>
    rw [h.outcome_of_some (by simp [h_out]), h_out] at h_done
    exact .inl h_done
  | none =>
    refine .inr ⟨rfl, ?_⟩
    rcases h.outcome_of_none h_out with ⟨_, h_err⟩ | h_state
    · rw [h_done] at h_err
      cases h_err
    · obtain ⟨h_sched, h_yield, h_ok, h_error⟩ := h_state _ rfl
      cases h_eq : (S.applyReply env l'.controllers request reply l.sender).2 with
      | schedule => simp [(h_sched h_eq).1] at h_done
      | yield => simp [(h_yield h_eq).1] at h_done
      | done value' =>
        rw [h_ok value' h_eq] at h_done
        cases h_done
        rfl
      | error value' => simp [h_error value' h_eq] at h_done

end Replied

/-- What the loop has ended with stays. -/
theorem outcome_of_step {e : SendEvent} (h : step S l e = some l') (h_end : l.outcome ≠ none) :
    l'.outcome = l.outcome := by
  cases e with
  | attempt env => exact absurd (step_attempt h).running h_end
  | reply env i reply =>
    obtain ⟨request, h_replied⟩ := step_reply h
    exact h_replied.outcome_of_some (Option.isSome_iff_ne_none.mpr h_end)

/-- **Where an error comes from**: of an attempt, from a controller or from `nextState`, -/
theorem error_of_attempt (h : step S l (.attempt env) = some l') {value : PaymentError}
    (h_end : l'.outcome = some (.error value)) :
    l.controllers.buildRequest env = .error value ∨
      (S.nextState env l.controllers l.sender).2 = .cancel (.error value) := by
  -- the loop was running before
  have h_run := (step_attempt h).running
  simp only [step] at h
  split_ifs at h
  obtain rfl := Option.some.inj h
  unfold trySending at h_end
  simp only at h_end
  -- only these two may end it with an error
  cases h_build : l.controllers.buildRequest env with
  | error value' =>
    rw [h_build] at h_end
    obtain rfl := Except.error.inj (Option.some.inj h_end)
    exact .inl rfl
  | schedule | yield =>
    rw [h_build] at h_end
    exact absurd (h_run.symm.trans h_end) nofun
  | ready =>
    right
    rw [h_build] at h_end
    rcases h_next : S.nextState env l.controllers l.sender with ⟨sender, request | state⟩
    · simp only [h_next] at h_end
      exact absurd (h_run.symm.trans h_end) nofun
    · simp only [h_next] at h_end
      cases state with
      | done value' => cases h_end
      | error value' =>
        obtain rfl := Except.error.inj (Option.some.inj h_end)
        rfl
      | schedule | yield => exact absurd (h_run.symm.trans h_end) nofun

/-- and of a reply, from a controller or from the sender. -/
theorem error_of_reply (h : step S l (.reply env i reply) = some l') (h_run : l.outcome = none)
    {value : PaymentError} (h_end : l'.outcome = some (.error value)) :
    ∃ request, l.unanswered[i]? = some request ∧
      ((l.controllers.applyReply env (S.sourceAmount request) reply).2 = some value ∨
        (S.applyReply env l'.controllers request reply l.sender).2 = .error value) := by
  obtain ⟨request, h_get, rfl⟩ := Option.map_eq_some_iff.mp h
  refine ⟨request, h_get, ?_⟩
  simp only [h_run, Option.isSome_none, Bool.false_eq_true, if_false, handle_controllers] at h_end ⊢
  cases h_error : (l.controllers.applyReply env (S.sourceAmount request) reply).2 with
  | some value' =>
    simp only [applyEffects, h_error] at h_end
    exact .inl (congrArg some (Except.error.inj (Option.some.inj h_end)))
  | none =>
    simp only [applyEffects, h_error] at h_end ⊢
    right
    cases h_state : (S.applyReply env (l.controllers.applyReply env (S.sourceAmount request) reply).1 request
      reply l.sender).2 with
    | done value' =>
      rw [h_state] at h_end
      cases h_end
    | error value' =>
      rw [h_state] at h_end
      exact congrArg SendState.error (Except.error.inj (Option.some.inj h_end))
    | schedule | yield =>
      rw [h_state] at h_end
      cases h_end

/-! ### Invariants of every sender's loop -/

variable {controllers : Controllers} {sender : σ} {ok : SendLoop σ ρ τ → SendEvent → Prop}

/-- **The pacer's count**: the packets in flight are exactly the requests not yet answered. -/
theorem Reach.inFlightCount_eq (h₀ : controllers.inFlightCount = 0)
    (h : (machine S controllers sender).Reach ok l) :
    l.controllers.inFlightCount = l.unanswered.length := by
  refine h.invariant (fun l => l.controllers.inFlightCount = l.unanswered.length) ?_ ?_
  · rintro s rfl
    exact h₀
  · rintro s (env | ⟨env, i, reply⟩) t - ih - h_step
    · obtain ⟨-, -, -, ⟨-, h_c, h_u, -⟩ | ⟨-, -, h_c, h_u, -⟩ | ⟨request, -, -, h_c, h_u, -⟩⟩ :=
        step_attempt h_step
      · rw [h_c, h_u, ih]
      · rw [h_c, h_u, ih]
      · rw [h_c, h_u, Controllers.applyRequest_inFlightCount, ih, List.length_append,
          List.length_singleton]
    · obtain ⟨request, h_reply⟩ := step_reply h_step
      obtain ⟨h_lt, -⟩ := List.getElem?_eq_some_iff.mp h_reply.get
      rw [h_reply.controllers, h_reply.unanswered, Controllers.applyReply_inFlightCount, ih,
        List.length_eraseIdx_of_lt h_lt]

/-- **The loop stays alive.** If the sender, in the states `Inv` describes, cancels an attempt with
`Yield` only while a request is in flight, and no reply makes it yield, then the loop has ended, or
an attempt is scheduled, or a reply is outstanding. -/
theorem Reach.unanswered_or_scheduled {Inv : SendLoop σ ρ τ → Prop}
    (h₀ : controllers.inFlightCount = 0)
    (h_inv : ∀ l, (machine S controllers sender).Reach ok l → Inv l)
    (h_yield : ∀ l env, Inv l → l.outcome = none →
      (S.nextState env l.controllers l.sender).2 = .cancel .yield → l.unanswered ≠ [])
    (h_reply : ∀ env c request reply s, (S.applyReply env c request reply s).2 ≠ .yield)
    (h : (machine S controllers sender).Reach ok l) :
    l.outcome = none → l.unanswered ≠ [] ∨ 0 < l.scheduled := by
  refine h.invariant (fun l => l.outcome = none → l.unanswered ≠ [] ∨ 0 < l.scheduled) ?_ ?_
  · -- an attempt is scheduled at first
    rintro s rfl -
    exact .inr Nat.one_pos
  · rintro s (env | ⟨env, i, reply⟩) t h_reach ih - h_step h_run
    · obtain ⟨h_before, h_sched, -, ⟨-, -, h_u, h_out⟩ | ⟨state, h_next, -, h_u, h_t⟩ |
        ⟨request, -, -, -, h_u, -⟩⟩ := step_attempt h_step
      · rcases h_out with ⟨value, h_err⟩ | ⟨-, h_same | ⟨-, h_full⟩⟩
        · rw [h_run] at h_err
          cases h_err
        · exact .inr (h_same ▸ h_sched)
        · -- the pacer yields only with many requests in flight
          refine .inl fun h_nil => ?_
          rw [Reach.inFlightCount_eq h₀ h_reach, ← h_u, h_nil, List.length_nil] at h_full
          exact absurd h_full (by decide)
      · -- a sender that yields is waiting for a reply
        cases state with
        | done value =>
          rw [h_t] at h_run
          cases h_run
        | error value =>
          rw [h_t] at h_run
          cases h_run
        | schedule =>
          rw [h_t]
          exact .inr (Nat.succ_pos _)
        | yield =>
          rw [h_u]
          exact .inl (h_yield s env (h_inv s h_reach) h_before (by rw [h_next]))
      · rw [h_u]
        exact .inl (List.append_ne_nil_of_right_ne_nil _ (List.cons_ne_nil _ _))
    · obtain ⟨request, h_replied⟩ := step_reply h_step
      obtain ⟨-, ⟨-, h_sched⟩ | ⟨h_eq, -⟩⟩ := h_replied.running h_run
      · exact .inr (h_sched ▸ Nat.succ_pos _)
      · exact absurd h_eq (h_reply _ _ _ _ _)

end SendLoop

end Interledger.Pay
