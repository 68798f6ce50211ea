import Interledger.Pay.Accounting
import Interledger.Pay.Start

/-!
# The runs of a send loop

What holds between two jobs of `start` holds in every state that a run reaches, whatever the sender and
its controllers do. Where the sender has the controllers of `Controllers`, each job is an event of
`SendLoop` or none, so that all that was found about those applies to what `start` leaves behind.

## Main results

* `Start.Sound.step` — each event keeps the books, and what holds in the phase that the loop is in;
* `Start.simulates` — every job is an event of the send loop or none;
* `Start.Sound.jobs_end` — the jobs run out if nothing else happens;
* `start_handles_every_reply` — no reply is handled twice or dropped, and all of them are handled before
  `start` resolves.
-/

namespace Interledger.Pay

/-- How many more jobs a job leads to before another function is executed. -/
def Job.weight {ρ : Type} : Job ρ → ℕ
  | .react _ .resolveTick => 3
  | .react _ .run => 2
  | .race _ _ => 2
  | .loop _ => 1
  | .resolve => 1

namespace Start

open Job

variable {σ ρ τ : Type}

/-- What holds between two jobs. -/
structure Sound (s : Start σ ρ τ) : Prop where
  books : Books s
  phase : Running s ∨ Completing s

section Steps

variable {s s' : Start σ ρ τ} {S : SendFunctions σ ρ τ} {env : Env} {job : Job ρ} {rest : List (Job ρ)}
  {effects : Effects ρ}

/-- A task is resumed. -/
theorem Books.resolveTick (h : Books s) (effects : Effects ρ) : Books (s.resolveTick effects) := by
  -- a race at most is added to the jobs
  have h_jobs (settles : Bool) (round : ℕ) (run : Run Unit Unit) :
      .react (.inl run) .run ∉ s.jobs ++ if settles then [.race round effects] else [] := by
    intro h_mem
    rcases List.mem_append.mp h_mem with h_old | h_new
    · exact h.noAttempt run h_old
    · cases eq_race_of_mem h_new
  cases effects with
  | inl run =>
    -- the tick touches no promise
    have h_same : (s.requestScheduler.resolveTick run).promise = s.requestScheduler.promise := by
      unfold Scheduler.resolveTick
      split <;> rfl
    refine ⟨h.requests.resolveTick run, h.replies, ?_, h_jobs _ _, h.nodup, h.handled, h.covered⟩
    change ∀ n reactions, (s.requestScheduler.resolveTick run).promise n = _ → _
    rw [h_same]
    exact h.attempts
  | inr run =>
    -- nor a task
    have h_same : (s.replyScheduler.resolveTick run).tasks = s.replyScheduler.tasks ∧
        (s.replyScheduler.resolveTick run).promise = s.replyScheduler.promise ∧
        (s.replyScheduler.resolveTick run).pendingTasks = s.replyScheduler.pendingTasks := by
      unfold Scheduler.resolveTick
      split <;> exact ⟨rfl, rfl, rfl⟩
    refine ⟨h.requests, h.replies.resolveTick run, h.attempts, h_jobs _ _, h.nodup, ?_, ?_⟩
    · intro run' h_mem
      change (s.replyScheduler.resolveTick run).tasks[run'.1.id]? = _ ∧
        (s.replyScheduler.resolveTick run).promise run'.1.id = _
      rw [h_same.1, h_same.2.1]
      exact h.handled run' h_mem
    · intro n h_lt
      change n < (s.replyScheduler.resolveTick run).tasks.length at h_lt
      change n ∈ s.handledIds ∨ n ∈ (s.replyScheduler.resolveTick run).pendingTasks.map Task.id
      rw [h_same.1] at h_lt
      rw [h_same.2.2]
      exact h.covered n h_lt

/-- The delay of an attempt is over. -/
theorem Books.delayed {n : ℕ} {scheduler : Scheduler Unit Unit} {run : Run Unit Unit}
    {reactions : List Reaction} (h : Books s)
    (h_fulfill : s.requestScheduler.fulfill n () = some (scheduler, run, reactions)) :
    Books { s with
      requestScheduler := scheduler
      jobs := s.jobs ++ reactions.map (.react (.inl run)) } := by
  obtain ⟨-, -, -, h_pending, h_scheduler⟩ := Scheduler.fulfill_eq_some h_fulfill
  refine ⟨h.requests.fulfill h_fulfill, h.replies, ?_, ?_, h.nodup, h.handled, h.covered⟩
  · intro m before h_promise
    rw [h_scheduler] at h_promise
    exact h.attempts m before (pending_of_update h_promise).2
  · intro run' h_mem
    rcases List.mem_append.mp h_mem with h_old | h_new
    · exact h.noAttempt run' h_old
    · obtain ⟨reaction, h_reaction, h_eq⟩ := List.mem_map.mp h_new
      cases h_eq
      exact h.attempts n reactions h_pending h_reaction

/-- A request is replied to. -/
theorem Books.replied {n : ℕ} {reply : StreamReply} {scheduler : Scheduler ρ StreamReply}
    {run : Run ρ StreamReply} {reactions : List Reaction} (h : Books s)
    (h_fulfill : s.replyScheduler.fulfill n reply = some (scheduler, run, reactions)) :
    Books { s with
      replyScheduler := scheduler
      jobs := s.jobs ++ reactions.map (.react (.inr run)) } := by
  obtain ⟨-, -, -, h_pending, h_scheduler⟩ := Scheduler.fulfill_eq_some h_fulfill
  refine ⟨h.requests, h.replies.fulfill h_fulfill, h.attempts, ?_, h.nodup, ?_, ?_⟩
  · intro run' h_mem
    rcases List.mem_append.mp h_mem with h_old | h_new
    · exact h.noAttempt run' h_old
    · obtain ⟨_, -, h_eq⟩ := List.mem_map.mp h_new
      cases h_eq
  · intro run' h_mem
    obtain ⟨h_task, h_promise⟩ := h.handled run' h_mem
    rw [h_scheduler]
    refine ⟨h_task, ?_⟩
    -- the reply that was handled came before
    have h_ne : run'.1.id ≠ n := by
      intro h_same
      rw [h_same, h_pending] at h_promise
      cases h_promise
    change Function.update _ _ _ run'.1.id = _
    rw [Function.update_of_ne h_ne]
    exact h_promise
  · rw [h_scheduler]
    exact h.covered

/-- The end of a race, to which the winner's job may be added. -/
theorem Books.race (h : Books s) (k : ℕ) (effects : Effects ρ) :
    Books (runJob S env s (.race k effects)) := by
  change Books (if _ then _ else _)
  split
  · refine ⟨h.requests, h.replies, h.attempts, ?_, h.nodup, h.handled, h.covered⟩
    intro run h_mem
    rcases List.mem_append.mp h_mem with h_old | h_new
    · exact h.noAttempt run h_old
    · cases List.mem_singleton.mp h_new
  · exact h

/-- `start` resolves, once the last reply is handled. -/
theorem Completing.resolve (h : Completing s) (h_jobs : s.jobs = .resolve :: rest) :
    Completing { s with jobs := rest, result := s.value } := by
  have h_mem : .resolve ∈ s.jobs := by
    rw [h_jobs]
    exact List.mem_cons_self
  refine h.of_quiet rfl rfl rfl rfl rfl rfl ?_ ?_ fun _ => .inl h_mem
  · rw [h_jobs]
    rfl
  · intro effects h_effects
    apply h.noLoop effects
    rw [h_jobs]
    exact List.mem_cons_of_mem _ h_effects

namespace Sound

theorem start (sender : σ) : Sound (Start.start sender : Start σ ρ τ) := by
  -- the first round begins like any other, after an attempt is scheduled
  let before : Start σ ρ τ := { sender := sender, raced := true }
  have h_books : Books before :=
    { requests := Recorded.empty
      replies := Recorded.empty
      attempts := fun n reactions h_promise h_mem => by
        cases h_promise
        cases h_mem
      noAttempt := nofun
      nodup := List.nodup_nil
      handled := nofun
      covered := nofun }
  have h_paused : Paused before :=
    { value := rfl
      result := rfl
      noRun := nofun
      noResolve := nofun
      reactions := fun n reactions h_promise h_mem => by
        cases h_promise
        cases h_mem
      unhandled := nofun
      raced := rfl
      requests := ⟨nofun, nofun, nofun⟩
      replies := ⟨nofun, nofun, nofun⟩
      noLoop := nofun }
  exact ⟨h_books.queue.nextRound, .inl (h_paused.queue h_books).nextRound⟩

/-- **Each job** keeps the books and the phase, or takes the loop to the next. -/
theorem runJob (h : Sound s) (h_jobs : s.jobs = job :: rest) :
    Sound (Start.runJob S env { s with jobs := rest } job) := by
  obtain ⟨h_books, h_phase⟩ := h
  -- the job is taken off the queue, and the phase says which jobs there are
  have h_rest : Books { s with jobs := rest } := by
    refine h_books.of_jobs fun run h_mem => h_books.noAttempt run ?_
    rw [h_jobs]
    exact List.mem_cons_of_mem _ h_mem
  have h_head : job ∈ s.jobs := by
    rw [h_jobs]
    exact List.mem_cons_self
  cases job with
  | react effects reaction =>
    cases reaction with
    | resolveTick =>
      refine ⟨h_rest.resolveTick effects, ?_⟩
      rcases h_phase with h_running | h_completing
      · exact .inl (h_running.resolveTick h_jobs)
      · have h_none : Job.outstanding (.react effects .resolveTick : Job ρ) = none := by
          cases effects <;> rfl
        exact .inr ((h_completing.tail h_jobs h_none).resolveTick effects)
    | run =>
      cases effects with
      | inl run => exact absurd h_head (h_books.noAttempt run)
      | inr run =>
        rcases h_phase with h_running | h_completing
        · exact absurd h_head (h_running.noRun run)
        · -- a reply is handled while the loop completes
          obtain ⟨h_completing', h_books'⟩ := h_completing.run h_books h_jobs rfl
          exact ⟨h_books', .inr h_completing'⟩
  | race k effects =>
    refine ⟨h_rest.race k effects, ?_⟩
    rcases h_phase with h_running | h_completing
    · exact .inl (h_running.race h_jobs)
    · -- the race of the last round was settled when the loop ended
      have h_same : Start.runJob S env { s with jobs := rest } (.race k effects) = { s with jobs := rest } := by
        change (if k = s.round ∧ (!s.raced) = true then _ else _) = _
        rw [h_completing.raced]
        exact if_neg fun h_and => Bool.false_ne_true h_and.2
      rw [h_same]
      exact .inr (h_completing.tail h_jobs rfl)
  | loop effects =>
    rcases h_phase with h_running | h_completing
    · -- the loop goes on, or ends
      obtain ⟨h_paused, h_books'⟩ := h_running.loop h_books h_jobs S env
      obtain ⟨h_after, h_phase⟩ := h_paused.handle h_books' _
      exact ⟨h_after, h_phase⟩
    · exact absurd h_head (h_completing.noLoop effects)
  | resolve =>
    rcases h_phase with h_running | h_completing
    · exact absurd h_head h_running.noResolve
    · -- `start` returns when all replies are handled
      refine ⟨?_, .inr (h_completing.resolve h_jobs)⟩
      exact ⟨h_rest.requests, h_rest.replies, h_rest.attempts, h_rest.noAttempt, h_rest.nodup,
        h_rest.handled, h_rest.covered⟩

/-- **Each event** does. -/
theorem step {e : StartEvent} (h : Sound s) (h_step : Start.step S s e = some s') : Sound s' := by
  cases e with
  | job env =>
    cases h_jobs : s.jobs with
    | nil =>
      simp only [Start.step, h_jobs] at h_step
      cases h_step
    | cons job rest =>
      simp only [Start.step, h_jobs] at h_step
      obtain rfl := Option.some.inj h_step
      exact h.runJob h_jobs
  | delayed n =>
    obtain ⟨⟨scheduler, run, reactions⟩, h_fulfill, rfl⟩ := Option.map_eq_some_iff.mp h_step
    refine ⟨h.books.delayed h_fulfill, ?_⟩
    rcases h.phase with h_running | h_completing
    · exact .inl (h_running.delayed h.books h_fulfill)
    · exact .inr (h_completing.delayed _ _ _)
  | replied n reply =>
    obtain ⟨⟨scheduler, run, reactions⟩, h_fulfill, rfl⟩ := Option.map_eq_some_iff.mp h_step
    refine ⟨h.books.replied h_fulfill, ?_⟩
    rcases h.phase with h_running | h_completing
    · exact .inl (h_running.replied h.books h_fulfill)
    · exact .inr (h_completing.replied h.books h_fulfill)

theorem of_reach {sender : σ} (h : (machine S sender).Reachable s) : Sound s := by
  refine h.invariant Sound ?_ ?_
  · rintro s rfl
    exact start sender
  · intro s e t _ h_s h_t
    exact h_s.step h_t

/-- **What has come is handled** when no job is left. -/
theorem handled_of_idle (h : Sound s) (h_jobs : s.jobs = []) {n : ℕ}
    (h_lt : n < s.replyScheduler.tasks.length) {reply : StreamReply}
    (h_promise : s.replyScheduler.promise n = .fulfilled reply) : n ∈ s.handledIds := by
  rcases h.books.covered n h_lt with h_handled | h_pending
  · exact h_handled
  · obtain ⟨t, h_t, rfl⟩ := List.mem_map.mp h_pending
    rcases h.phase with h_running | h_completing
    · -- a tick that is not settled would be, and one that is settled would take part in the race
      have h_raced : s.raced = false := by
        have h_loops := h_running.loops
        rw [h_jobs] at h_loops
        by_contra h_raced
        rw [if_pos (Bool.of_not_eq_false h_raced)] at h_loops
        cases h_loops
      have h_replies := h_running.replies
      rw [h_jobs] at h_replies
      cases h_tick : s.replyScheduler.nextTick with
      | none => cases h_replies.resumes h_tick (t, reply) h_t h_promise
      | some run => cases h_replies.race_of_tick h_raced run h_tick
    · by_contra h_new
      rcases h_completing.waiting t (mem_unhandled.mpr ⟨h_t, h_new⟩) with ⟨_, h_mem⟩ | ⟨_, h_wait, -⟩
      · rw [h_jobs] at h_mem
        cases h_mem
      · rw [h_promise] at h_wait
        cases h_wait

/-- **Nothing is unhandled** once `start` has resolved. -/
theorem unhandled_of_result (h : Sound s) (h_result : s.result.isSome) : s.unhandled = [] := by
  rcases h.phase with h_running | h_completing
  · rw [h_running.result] at h_result
    cases h_result
  · have h_zero := h_completing.resolved (.inr h_result)
    rw [h_completing.completing] at h_zero
    exact List.eq_nil_of_length_eq_zero h_zero

/-- **Every reply is handled** once `start` has resolved. -/
theorem handled_of_result (h : Sound s) (h_result : s.result.isSome) {n : ℕ}
    (h_lt : n < s.replyScheduler.tasks.length) : n ∈ s.handledIds := by
  rcases h.books.covered n h_lt with h_handled | h_pending
  · exact h_handled
  · obtain ⟨t, h_t, rfl⟩ := List.mem_map.mp h_pending
    by_contra h_new
    have h_mem : t ∈ s.unhandled := mem_unhandled.mpr ⟨h_t, h_new⟩
    rw [h.unhandled_of_result h_result] at h_mem
    cases h_mem

end Sound

end Steps

/-! ### The jobs run out -/

section Termination

variable {s s' : Start σ ρ τ} {S : SendFunctions σ ρ τ} {env : Env} {job : Job ρ} {rest : List (Job ρ)}
  {effects : Effects ρ}

/-- The functions that a round may execute. -/
def resolvedCount (s : Start σ ρ τ) : ℕ :=
  s.requestScheduler.resolved.length + s.replyScheduler.resolved.length

/-- What is left to do without another event: the functions to execute, and the jobs. -/
def remaining (s : Start σ ρ τ) : ℕ × ℕ := (s.resolvedCount, (s.jobs.map Job.weight).sum)

/-- Acting on what a function returned resolves no task. -/
theorem Books.resolvedCount_handle (h : Books s) (state : SendState τ) :
    (s.handle state).resolvedCount = s.resolvedCount := by
  have h_requests : (s.requestScheduler.queue ()).next.resolved = s.requestScheduler.resolved :=
    (Scheduler.resolved_wait _).trans (h.requests.resolved_queue ())
  have h_next {κ α : Type} (scheduler : Scheduler κ α) : scheduler.next.resolved = scheduler.resolved :=
    Scheduler.resolved_wait .resolveTick
  have h_complete : s.replyScheduler.complete.resolved = s.replyScheduler.resolved :=
    Scheduler.resolved_wait .run
  cases state with
  | done value | error value =>
    change _ + s.replyScheduler.complete.resolved.length = _
    rw [h_complete]
    rfl
  | schedule =>
    change (s.requestScheduler.queue ()).next.resolved.length + s.replyScheduler.next.resolved.length = _
    rw [h_requests, h_next]
    rfl
  | yield =>
    change s.requestScheduler.next.resolved.length + s.replyScheduler.next.resolved.length = _
    rw [h_next, h_next]
    rfl

/-- Nor does an attempt. -/
theorem resolvedCount_trySending (h : Recorded s.replyScheduler) :
    (s.trySending S env).1.resolvedCount = s.resolvedCount := by
  unfold Start.trySending
  rcases S.trySending env s.sender with ⟨sender, request | state⟩
  · change _ + (s.replyScheduler.queue request).resolved.length = _
    rw [h.resolved_queue]
    rfl
  · rfl

theorem runJob_loop : runJob S env s (.loop effects) =
    ((s.delete effects).run S env effects).1.handle ((s.delete effects).run S env effects).2 := rfl

/-- **The function that has won** is one less to execute. -/
theorem Running.resolvedCount_loop (h : Running s) (h_books : Books s)
    (h_jobs : s.jobs = .loop effects :: rest) :
    (runJob S env { s with jobs := rest } (.loop effects)).resolvedCount < s.resolvedCount := by
  obtain ⟨-, h_books'⟩ := h.loop h_books h_jobs S env
  rw [runJob_loop, h_books'.resolvedCount_handle]
  cases effects with
  | inl run =>
    have h_less := Scheduler.length_resolved_delete (h.attempt h_jobs)
    have h_same : ((({ s with jobs := rest } : Start σ ρ τ).delete (.inl run)).trySending S env).1.resolvedCount =
        (({ s with jobs := rest } : Start σ ρ τ).delete (.inl run)).resolvedCount :=
      resolvedCount_trySending h_books.replies
    refine Nat.lt_of_le_of_lt (Nat.le_of_eq h_same) ?_
    exact Nat.add_lt_add_right h_less _
  | inr run =>
    have h_less := Scheduler.length_resolved_delete (h.reply h_jobs)
    change _ + (s.replyScheduler.delete run.1).resolved.length < _
    exact Nat.add_lt_add_left h_less _

/-- **One job less** to run, or one function less to execute. -/
theorem Sound.remaining_lex (h : Sound s) (h_jobs : s.jobs = job :: rest) :
    Prod.Lex (· < ·) (· < ·) (Start.runJob S env { s with jobs := rest } job).remaining s.remaining := by
  -- the weight of the queue falls by that of the job
  have h_weight : (s.jobs.map Job.weight).sum = job.weight + (rest.map Job.weight).sum := by
    rw [h_jobs, List.map_cons, List.sum_cons]
  have h_head : job ∈ s.jobs := by
    rw [h_jobs]
    exact List.mem_cons_self
  -- a job that executes no function of a round
  have h_quiet {t : Start σ ρ τ} (h_count : t.resolvedCount = s.resolvedCount) (new : List (Job ρ))
      (h_rest : t.jobs = rest ++ new) (h_less : (new.map Job.weight).sum < job.weight) :
      Prod.Lex (· < ·) (· < ·) t.remaining s.remaining := by
    unfold remaining
    rw [h_count, h_weight, h_rest, List.map_append, List.sum_append, Nat.add_comm]
    exact .right _ (Nat.add_lt_add_right h_less _)
  -- a reaction adds a race, which weighs less
  have h_race (settles : Bool) (round : ℕ) (effects : Effects ρ) :
      ((if settles then [Job.race round effects] else []).map Job.weight).sum < 3 := by
    cases settles with
    | false => exact Nat.zero_lt_succ 2
    | true => exact Nat.lt_succ_self 2
  -- only a loop may add heavier jobs, and it takes up a reply or an attempt that has come
  cases job with
  | react effects reaction =>
    cases reaction with
    | resolveTick =>
      cases effects with
      | inl run =>
        refine h_quiet ?_ _ rfl (h_race _ _ _)
        change (s.requestScheduler.resolveTick run).resolved.length + _ = _
        rw [Scheduler.resolved_resolveTick]
        rfl
      | inr run =>
        refine h_quiet ?_ _ rfl (h_race _ _ _)
        change _ + (s.replyScheduler.resolveTick run).resolved.length = _
        rw [Scheduler.resolved_resolveTick]
        rfl
    | run =>
      cases effects with
      | inl run => exact absurd h_head (h.books.noAttempt run)
      | inr run =>
        refine h_quiet rfl _ rfl ?_
        split
        · exact Nat.lt_succ_self 1
        · exact Nat.zero_lt_succ 1
  | race k effects =>
    change Prod.Lex _ _ (remaining (if k = s.round ∧ (!s.raced) = true then _ else _)) _
    split
    · exact h_quiet rfl _ rfl (Nat.lt_succ_self 1)
    · exact h_quiet rfl [] (List.append_nil _).symm (Nat.zero_lt_succ 1)
  | loop effects =>
    rcases h.phase with h_running | h_completing
    · exact .left _ _ (h_running.resolvedCount_loop h.books h_jobs)
    · exact absurd h_head (h_completing.noLoop effects)
  | resolve => exact h_quiet rfl [] (List.append_nil _).symm (Nat.zero_lt_succ 0)

/-- **The jobs run out** if nothing else happens. -/
theorem Sound.jobs_end (h : Sound s) :
    Acc (fun t s : Start σ ρ τ => ∃ env, Start.step S s (.job env) = some t) s := by
  have h_wf : WellFounded fun t s : Start σ ρ τ => Prod.Lex (· < ·) (· < ·) t.remaining s.remaining :=
    InvImage.wf remaining (Prod.lex Nat.lt_wfRel Nat.lt_wfRel).wf
  induction s using h_wf.induction with
  | _ s ih =>
    refine ⟨s, fun t ⟨env, h_step⟩ => ih t ?_ (h.step h_step)⟩
    cases h_jobs : s.jobs with
    | nil =>
      simp only [Start.step, h_jobs] at h_step
      cases h_step
    | cons job rest =>
      simp only [Start.step, h_jobs] at h_step
      obtain rfl := Option.some.inj h_step
      exact h.remaining_lex h_jobs

end Termination

/-! ### The send loop that runs -/

/-- The send loop: how many attempts are scheduled, and which requests are replied to. -/
def toLoop (s : Start (Controllers × σ) (Sent (Controllers × σ) ρ τ) τ) : SendLoop σ ρ τ where
  controllers := s.sender.1
  sender := s.sender.2
  scheduled := s.requestScheduler.pendingTasks.length
  unanswered := s.unhandled.map fun t => t.closure.request
  answered := s.handled.map fun run => (run.1.closure.request, run.2)
  outcome := s.value

section Simulation

variable {S : StreamSender σ ρ τ} {s s' : Start (Controllers × σ) (Sent (Controllers × σ) ρ τ) τ} {env : Env}

/-- All tasks are replies to requests of the sender. -/
def IsOf (S : StreamSender σ ρ τ) (s : Start (Controllers × σ) (Sent (Controllers × σ) ρ τ) τ) : Prop :=
  ∀ sent ∈ s.replyScheduler.tasks, sent = S.sent sent.request

theorem toLoop_congr (h_sender : s'.sender = s.sender)
    (h_requests : s'.requestScheduler.pendingTasks = s.requestScheduler.pendingTasks)
    (h_replies : s'.replyScheduler.pendingTasks = s.replyScheduler.pendingTasks)
    (h_handled : s'.handled = s.handled) (h_value : s'.value = s.value) : s'.toLoop = s.toLoop := by
  unfold toLoop unhandled
  rw [h_sender, h_requests, h_replies, h_handled, h_value]

theorem toLoop_handle (s : Start (Controllers × σ) (Sent (Controllers × σ) ρ τ) τ) (state : SendState τ) :
    (s.handle state).toLoop = s.toLoop.handle state := by
  cases state with
  | done value | error value | yield => rfl
  | schedule =>
    have h_length : (s.requestScheduler.queue ()).pendingTasks.length =
        s.requestScheduler.pendingTasks.length + 1 := List.length_append
    change { s.toLoop with scheduled := (s.requestScheduler.queue ()).pendingTasks.length } = _
    rw [h_length]
    rfl

theorem trySending_of_cancel {F : SendFunctions σ ρ τ} {s : Start σ ρ τ} {sender : σ}
    {state : SendState τ} (h : F.trySending env s.sender = (sender, .cancel state)) :
    s.trySending F env = ({ s with sender := sender }, state) := by
  unfold Start.trySending
  rw [h]

theorem trySending_of_send {F : SendFunctions σ ρ τ} {s : Start σ ρ τ} {sender : σ} {request : ρ}
    (h : F.trySending env s.sender = (sender, .send request)) :
    s.trySending F env =
      ({ s with sender := sender, replyScheduler := s.replyScheduler.queue request }, .schedule) := by
  unfold Start.trySending
  rw [h]

/-- A request that is sent is unanswered. -/
theorem Books.unhandled_queue {s : Start σ ρ τ} (h : Books s) (sender : σ) (request : ρ) :
    ({ s with sender := sender, replyScheduler := s.replyScheduler.queue request } : Start σ ρ τ).unhandled =
      s.unhandled ++ [⟨s.replyScheduler.tasks.length, request⟩] := by
  have h_new : s.replyScheduler.tasks.length ∉ s.handledIds := by
    intro h_mem
    obtain ⟨run, h_run, h_id⟩ := List.mem_map.mp h_mem
    have h_lt := (List.getElem?_eq_some_iff.mp (h.handled run h_run).1).1
    exact absurd h_id (Nat.ne_of_lt h_lt)
  change List.filter _ (s.replyScheduler.pendingTasks ++ [_]) = _
  rw [List.filter_append]
  refine congrArg (fun last => s.unhandled ++ last) ?_
  exact List.filter_cons_of_pos (decide_eq_true h_new)

/-- **An attempt** is one of the send loop. -/
theorem toLoop_trySending (h_books : Books s) :
    (s.trySending S.toSender.functions env).1.toLoop.handle (s.trySending S.toSender.functions env).2 =
      SendLoop.trySending S env s.toLoop := by
  have h_attempt : S.toSender.functions.trySending env s.sender = _ :=
    S.toSender_trySending env s.sender.1 s.sender.2
  unfold SendLoop.trySending
  cases h_build : s.sender.1.buildRequest env with
  | error value | schedule | yield =>
    rw [h_build] at h_attempt
    have h_veto : s.toLoop.controllers.buildRequest env = _ := h_build
    rw [trySending_of_cancel h_attempt, h_veto]
  | ready =>
    simp only [h_build] at h_attempt
    have h_ready : s.toLoop.controllers.buildRequest env = .ready := h_build
    simp only [h_ready]
    rcases h_next : S.nextState env s.sender.1 s.sender.2 with ⟨sender, request | state⟩
    · simp only [h_next] at h_attempt
      have h_send : S.nextState env s.toLoop.controllers s.toLoop.sender = (sender, .send request) := h_next
      have h_unhandled := h_books.unhandled_queue (s.sender.1.applyRequest env, sender) (S.sent request)
      rw [trySending_of_send h_attempt, h_send]
      refine congrArg (SendLoop.handle · .schedule) ?_
      unfold toLoop
      rw [h_unhandled, List.map_append]
      rfl
    · simp only [h_next] at h_attempt
      have h_cancel : S.nextState env s.toLoop.controllers s.toLoop.sender = (sender, .cancel state) := h_next
      rw [trySending_of_cancel h_attempt, h_cancel]
      rfl

/-- **A reply** answers one of the requests that are in flight. -/
theorem toLoop_reply (h_books : Books s) (h_of : IsOf S s) {run : Run (Sent (Controllers × σ) ρ τ) StreamReply}
    (h_mem : run.1 ∈ s.unhandled)
    (h_sender : s'.sender = (run.1.closure.applyEffects env run.2 s.sender).1)
    (h_handled : s'.handled = s.handled ++ [run])
    (h_pending : s'.replyScheduler.pendingTasks = s.replyScheduler.pendingTasks ∨
      s'.replyScheduler.pendingTasks = (s.replyScheduler.delete run.1).pendingTasks)
    (h_requests : s'.requestScheduler.pendingTasks = s.requestScheduler.pendingTasks)
    (h_value : s'.value = s.value) :
    ∃ i, s.toLoop.step S (.reply env i run.2) =
      some (if s.value.isSome then s'.toLoop
        else s'.toLoop.handle (run.1.closure.applyEffects env run.2 s.sender).2) := by
  -- the reply is the one of an unhandled task, at some place
  obtain ⟨i, h_get, h_erase⟩ := Completing.unhandled_eraseIdx h_books h_mem h_handled h_pending
  have h_sent : run.1.closure = S.sent run.1.closure.request := by
    apply h_of
    exact List.mem_of_getElem? (h_books.replies.tasks _ (mem_unhandled.mp h_mem).1)
  have h_request : s.toLoop.unanswered[i]? = some run.1.closure.request := by
    change (s.unhandled.map _)[i]? = _
    rw [List.getElem?_map, h_get]
    rfl
  -- what the effects are, of the controllers and then of the sender
  have h_effects : run.1.closure.applyEffects env run.2 s.sender =
      (S.sent run.1.closure.request).applyEffects env run.2 (s.sender.1, s.sender.2) :=
    congrArg (fun sent => sent.applyEffects env run.2 s.sender) h_sent
  rw [S.sent_applyEffects] at h_effects
  -- the loop takes the request off at the same place, and keeps the reply
  have h_loop : SendLoop.applyEffects S env run.1.closure.request run.2
      { s.toLoop with
        unanswered := s.toLoop.unanswered.eraseIdx i
        answered := s.toLoop.answered ++ [(run.1.closure.request, run.2)] } =
      (s'.toLoop, (run.1.closure.applyEffects env run.2 s.sender).2) := by
    have h_unanswered : s.toLoop.unanswered.eraseIdx i = s'.unhandled.map fun t => t.closure.request := by
      rw [h_erase]
      exact List.eraseIdx_map ..
    have h_answered : s.toLoop.answered ++ [(run.1.closure.request, run.2)] =
        s'.handled.map fun run => (run.1.closure.request, run.2) := by
      rw [h_handled, List.map_append]
      rfl
    rw [h_unanswered, h_answered]
    unfold toLoop
    rw [h_sender, h_requests, h_value, h_effects]
    rfl
  refine ⟨i, ?_⟩
  unfold SendLoop.step
  simp only [h_request, Option.map_some, h_loop]
  rfl

/-- Acting on what a function returned sends no request. -/
theorem tasks_handle {s : Start σ ρ τ} (state : SendState τ) :
    (s.handle state).replyScheduler.tasks = s.replyScheduler.tasks := by
  cases state <;> rfl

/-- An attempt sends requests of the sender only. -/
theorem IsOf.trySending (h : IsOf S s) : IsOf S (s.trySending S.toSender.functions env).1 := by
  have h_attempt : S.toSender.functions.trySending env s.sender = _ :=
    S.toSender_trySending env s.sender.1 s.sender.2
  unfold Start.trySending
  rw [h_attempt]
  cases s.sender.1.buildRequest env with
  | error value | schedule | yield => exact h
  | ready =>
    simp only
    rcases S.nextState env s.sender.1 s.sender.2 with ⟨sender, request | state⟩
    · intro sent h_mem
      rcases List.mem_append.mp h_mem with h_old | h_new
      · exact h sent h_old
      · rw [List.mem_singleton.mp h_new]
        rfl
    · exact h

/-- **The rest of a round** is an event of the send loop. -/
theorem Running.simulates {effects : Effects (Sent (Controllers × σ) ρ τ)}
    {rest : List (Job (Sent (Controllers × σ) ρ τ))} (h : Running s) (h_books : Books s) (h_of : IsOf S s)
    (h_jobs : s.jobs = .loop effects :: rest)
    (h_after : s' = runJob S.toSender.functions env { s with jobs := rest } (.loop effects)) :
    IsOf S s' ∧ ∃ e, s.toLoop.step S e = some s'.toLoop := by
  cases effects with
  | inl run =>
    obtain ⟨h_pending, h_promise⟩ := Scheduler.mem_resolved.mp (h.attempt h_jobs)
    -- the attempt is no longer scheduled
    let before : Start (Controllers × σ) (Sent (Controllers × σ) ρ τ) τ :=
      { s with jobs := rest, requestScheduler := s.requestScheduler.delete run.1 }
    -- which keeps the books
    have h_before : Books before :=
      { h_books with
        requests := h_books.requests.delete h_promise
        noAttempt := fun run' h_mem => by
          apply h_books.noAttempt run'
          rw [h_jobs]
          exact List.mem_cons_of_mem _ h_mem }
    have h_length : (s.requestScheduler.delete run.1).pendingTasks.length =
        s.requestScheduler.pendingTasks.length - 1 := by
      obtain ⟨i, h_get, h_erase⟩ := exists_filter_eq_eraseIdx h_books.requests.nodup h_pending
      change (s.requestScheduler.pendingTasks.filter _).length = _
      rw [h_erase]
      exact List.length_eraseIdx_of_lt (List.getElem?_eq_some_iff.mp h_get).1
    have h_loop : before.toLoop = { s.toLoop with scheduled := s.toLoop.scheduled - 1 } := by
      change { s.toLoop with scheduled := (s.requestScheduler.delete run.1).pendingTasks.length } = _
      rw [h_length]
      rfl
    -- it tries to send, and so does the loop
    have h_eq : s' = (before.trySending S.toSender.functions env).1.handle
        (before.trySending S.toSender.functions env).2 := h_after
    refine ⟨?_, .attempt env, ?_⟩
    · intro sent h_mem
      rw [h_eq, tasks_handle] at h_mem
      have h_before_of : IsOf S before := h_of
      exact h_before_of.trySending sent h_mem
    · -- an attempt was scheduled
      have h_scheduled : s.toLoop.outcome.isNone ∧ 0 < s.toLoop.scheduled := by
        refine ⟨?_, List.length_pos_of_mem h_pending⟩
        change s.value.isNone = true
        rw [h.value]
        rfl
      unfold SendLoop.step
      simp only
      rw [if_pos h_scheduled, h_eq, toLoop_handle, toLoop_trySending h_before, h_loop]
  | inr run =>
    obtain ⟨h_pending, h_promise⟩ := Scheduler.mem_resolved.mp (h.reply h_jobs)
    have h_unhandled := mem_unhandled.mpr ⟨h_pending, h.unhandled run.1 h_pending⟩
    -- the reply is handled
    let after : Start (Controllers × σ) (Sent (Controllers × σ) ρ τ) τ :=
      { s with
        jobs := rest
        replyScheduler := s.replyScheduler.delete run.1
        sender := (run.1.closure.applyEffects env run.2 s.sender).1
        handled := s.handled ++ [run] }
    have h_eq : s' = after.handle (run.1.closure.applyEffects env run.2 s.sender).2 := h_after
    refine ⟨?_, ?_⟩
    · intro sent h_mem
      rw [h_eq, tasks_handle] at h_mem
      exact h_of sent h_mem
    · have h_reply : ∃ i, s.toLoop.step S (.reply env i run.2) = some (if s.value.isSome then after.toLoop
          else after.toLoop.handle (run.1.closure.applyEffects env run.2 s.sender).2) :=
        toLoop_reply h_books h_of h_unhandled rfl rfl (.inr rfl) rfl rfl
      obtain ⟨i, h_step⟩ := h_reply
      refine ⟨.reply env i run.2, ?_⟩
      rw [h_step, h.value, h_eq, toLoop_handle]
      rfl

/-- **Each event** is one of the send loop, or none. -/
theorem simulates {e : StartEvent} (h : Sound s) (h_of : IsOf S s)
    (h_step : Start.step S.toSender.functions s e = some s') :
    IsOf S s' ∧ (s'.toLoop = s.toLoop ∨ ∃ e', s.toLoop.step S e' = some s'.toLoop) := by
  cases e with
  | job env =>
    -- only handling a reply and attempting to send are steps of the loop
    cases h_jobs : s.jobs with
    | nil =>
      simp only [Start.step, h_jobs] at h_step
      cases h_step
    | cons job rest =>
      simp only [Start.step, h_jobs] at h_step
      have h_eq := (Option.some.inj h_step).symm
      have h_head : job ∈ s.jobs := by
        rw [h_jobs]
        exact List.mem_cons_self
      cases job with
      | react effects reaction =>
        cases reaction with
        | resolveTick =>
          rw [h_eq]
          cases effects with
          | inl run =>
            refine ⟨h_of, .inl (toLoop_congr rfl ?_ rfl rfl rfl)⟩
            change (s.requestScheduler.resolveTick run).pendingTasks = _
            unfold Scheduler.resolveTick
            split <;> rfl
          | inr run =>
            have h_same : (s.replyScheduler.resolveTick run).tasks = s.replyScheduler.tasks ∧
                (s.replyScheduler.resolveTick run).pendingTasks = s.replyScheduler.pendingTasks := by
              unfold Scheduler.resolveTick
              split <;> exact ⟨rfl, rfl⟩
            refine ⟨fun sent h_mem => h_of sent ?_, .inl (toLoop_congr rfl rfl h_same.2 rfl rfl)⟩
            rw [← h_same.1]
            exact h_mem
        | run =>
          cases effects with
          | inl run => exact absurd h_head (h.books.noAttempt run)
          | inr run =>
            rcases h.phase with h_running | h_completing
            · exact absurd h_head (h_running.noRun run)
            · have h_mem : run ∈ s.jobs.filterMap Job.outstanding :=
                List.mem_filterMap.mpr ⟨_, h_head, rfl⟩
              obtain ⟨h_unhandled, -⟩ := h_completing.outstanding run h_mem
              have h_reply : ∃ i, s.toLoop.step S (.reply env i run.2) = some (if s.value.isSome then s'.toLoop
                  else s'.toLoop.handle (run.1.closure.applyEffects env run.2 s.sender).2) := by
                rw [h_eq]
                exact toLoop_reply h.books h_of h_unhandled rfl rfl (.inl rfl) rfl rfl
              obtain ⟨i, h_step⟩ := h_reply
              rw [if_pos h_completing.value] at h_step
              rw [h_eq] at h_step ⊢
              exact ⟨h_of, .inr ⟨_, h_step⟩⟩
      | race k effects =>
        rw [h_eq]
        change IsOf S (if k = s.round ∧ (!s.raced) = true then _ else _) ∧
          (toLoop (if k = s.round ∧ (!s.raced) = true then _ else _) = _ ∨ _)
        split
        · exact ⟨h_of, .inl rfl⟩
        · exact ⟨h_of, .inl rfl⟩
      | loop effects =>
        rcases h.phase with h_running | h_completing
        · exact (h_running.simulates h.books h_of h_jobs h_eq).imp_right .inr
        · exact absurd h_head (h_completing.noLoop effects)
      | resolve =>
        rw [h_eq]
        exact ⟨h_of, .inl rfl⟩
  | delayed n =>
    -- timers and replies only settle promises
    obtain ⟨⟨scheduler, run, reactions⟩, h_fulfill, rfl⟩ := Option.map_eq_some_iff.mp h_step
    obtain ⟨-, -, -, -, h_scheduler⟩ := Scheduler.fulfill_eq_some h_fulfill
    refine ⟨h_of, .inl (toLoop_congr rfl ?_ rfl rfl rfl)⟩
    rw [h_scheduler]
  | replied n reply =>
    obtain ⟨⟨scheduler, run, reactions⟩, h_fulfill, rfl⟩ := Option.map_eq_some_iff.mp h_step
    obtain ⟨-, -, -, -, h_scheduler⟩ := Scheduler.fulfill_eq_some h_fulfill
    refine ⟨?_, .inl (toLoop_congr rfl rfl ?_ rfl rfl)⟩
    · rw [h_scheduler]
      exact h_of
    · rw [h_scheduler]

/-- **A run of `start` is one of the send loop.** -/
theorem reachable_toLoop {controllers : Controllers} {sender : σ}
    (h : (machine S.toSender.functions (controllers, sender)).Reachable s) :
    (SendLoop.machine S controllers sender).Reachable s.toLoop := by
  have h_of {s : Start (Controllers × σ) (Sent (Controllers × σ) ρ τ) τ}
      (h : (machine S.toSender.functions (controllers, sender)).Reachable s) : IsOf S s := by
    refine h.invariant (IsOf S) ?_ ?_
    · rintro s rfl sent h_mem
      cases h_mem
    · intro s e t h_s h_of h_t
      exact (simulates (Sound.of_reach h_s) h_of h_t).1
  refine h.simulated toLoop ?_ ?_
  · rintro s rfl
    rfl
  · intro s e t h_s h_t
    exact (simulates (Sound.of_reach h_s) (h_of h_s) h_t).2

end Simulation

end Start

/-- **Every reply is handled exactly once**, whatever the sender and its controllers are, and in whatever
order the promises of its requests are fulfilled and its attempts are due.

No reply is handled twice, and one that is handled is that to a request which was sent. As long as there
are jobs, they run out unless a promise is fulfilled, and then all replies that have come are handled.
Once `start` has resolved, the replies to all requests are, so that nothing is in flight in what `pay`
returns. -/
theorem start_handles_every_reply :
    (∀ (σ β ρ τ : Type) (S : Sender σ β ρ τ) (sender : σ) (s : Start σ (Sent σ ρ τ) τ),
      (Start.machine S.functions sender).Reachable s →
        s.handledIds.Nodup ∧
        (∀ run ∈ s.handled, s.replyScheduler.tasks[run.1.id]? = some run.1.closure ∧
          s.replyScheduler.promise run.1.id = .fulfilled run.2) ∧
        Acc (fun t s => ∃ env, Start.step S.functions s (.job env) = some t) s ∧
        (s.jobs = [] → ∀ n < s.replyScheduler.tasks.length, ∀ reply,
          s.replyScheduler.promise n = .fulfilled reply → n ∈ s.handledIds) ∧
        (s.result.isSome → ∀ n < s.replyScheduler.tasks.length, n ∈ s.handledIds)) ∧
    ∀ quote requestCounter destinationAsset s,
      (Start.machine (PaymentSender.streamSender quote).toSender.functions
        (PaymentSender.controllers quote requestCounter destinationAsset, {})).Reachable s →
      s.result.isSome →
        s.sender.2.sourceAmountInFlight = 0 ∧ s.sender.2.destinationAmountInFlight = 0 := by
  refine ⟨?_, ?_⟩
  · intro σ β ρ τ S sender s h_reach
    -- every sender
    have h := Start.Sound.of_reach h_reach
    refine ⟨h.books.nodup, h.books.handled, h.jobs_end, ?_, ?_⟩
    · intro h_jobs n h_lt reply h_promise
      exact h.handled_of_idle h_jobs h_lt h_promise
    · intro h_result n h_lt
      exact h.handled_of_result h_result h_lt
  · intro quote requestCounter destinationAsset s h_reach h_result
    -- the sender of payments, whose books say what is in flight
    have h_accounting := Accounting.of_reach (Start.reachable_toLoop h_reach)
    have h_unanswered : s.toLoop.unanswered = [] := by
      change s.unhandled.map _ = []
      rw [(Start.Sound.of_reach h_reach).unhandled_of_result h_result, List.map_nil]
    have h_source := h_accounting.sourceInFlight
    have h_destination := h_accounting.destinationInFlight
    rw [h_unanswered] at h_source h_destination
    exact ⟨h_source, h_destination⟩

/-- A payment in two packets, both of which are in flight when the first reply comes. -/
theorem start_handles_every_reply_small :
    ∃ s, (Start.machine (PaymentSender.streamSender smallQuote).toSender.functions
        (PaymentSender.controllers smallQuote 0 none, {})).Reachable s ∧
      s.handledIds = [0, 1] ∧ s.handledIds.Nodup ∧ s.result.isSome ∧
      s.sender.2.sourceAmountInFlight = 0 ∧ s.sender.2.destinationAmountInFlight = 0 := by
  let job : StartEvent := .job { now := 0, tooEarly := false }
  let fulfilled (destinationAmount : ℕ) : StreamReply :=
    { ilpReply := .fulfill, frames := some [], destinationAmount := some destinationAmount }
  have h_exec : ((Start.machine (PaymentSender.streamSender smallQuote).toSender.functions
      (PaymentSender.controllers smallQuote 0 none, {})).exec (fun _ _ => True)
      (Start.start (PaymentSender.controllers smallQuote 0 none, {}))
      ([.delayed 0] ++ List.replicate 4 job ++ [.delayed 1] ++ List.replicate 4 job ++ [.delayed 2] ++
        List.replicate 4 job ++ [.replied 0 (fulfilled 100)] ++ List.replicate 6 job ++
        [.replied 1 (fulfilled 49)] ++ List.replicate 7 job)).map
      (fun s => (s.handledIds, s.result.isSome)) = some ([0, 1], true) := by
    decide +kernel
  obtain ⟨s, h_exec, h_end⟩ := Option.map_eq_some_iff.mp h_exec
  obtain ⟨h_handled, h_result⟩ := Prod.mk.inj h_end
  have h := Machine.reach_of_exec _ rfl h_exec
  refine ⟨s, h, h_handled, ?_, h_result, ?_⟩
  · exact (start_handles_every_reply.1 _ _ _ _ _ _ s h).1
  · exact start_handles_every_reply.2 _ _ _ s h h_result

end Interledger.Pay
