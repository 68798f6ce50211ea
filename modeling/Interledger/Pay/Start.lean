import Interledger.Pay.Scheduler
import Interledger.Pay.Sender

/-!
# Running a send loop

`StreamSender.start` of `pay/src/senders/index.ts`, job by job. A round of the loop waits for the first of
two ticks, that of the scheduled attempts and that of the replies, executes the function that it was
settled with, and goes on as the function's state says. When the loop is done it waits until the replies
that are still outstanding have been handled. Between two jobs, the promise of a request may be fulfilled
with its reply, and the delay of a scheduled attempt may be over.

## Main results

* `Books` — each request is recorded, and its reply pending or handled once;
* `Running.loop`, `Paused.handle`, `Paused.nextRound` — a round, from the function that has won to the next;
* `Paused.finish`, `Completing.run` — the end of the loop, and what is still handled after it.
-/

namespace Interledger.Pay

/-- A function that a scheduler executes: an attempt, or the effects of a reply. -/
abbrev Effects (ρ : Type) := Run Unit Unit ⊕ Run ρ StreamReply

/-- A job: the reaction to the promise of a task, the reaction of `Promise.race` to a tick, the rest of a
round, and the rest of `start` once the outstanding replies are handled. -/
inductive Job (ρ : Type)
  | react (run : Effects ρ) (reaction : Reaction)
  | race (round : ℕ) (run : Effects ρ)
  | loop (run : Effects ρ)
  | resolve

/-- What `start` keeps between its jobs. `raced` says whether the race of the round is settled, `value` is
that of the state that ended the loop, `completing` counts the replies that `complete` still waits for,
and `result` is what `start` has resolved to. The replies whose handlers have run are kept beside. -/
structure Start (σ ρ τ : Type) where
  sender : σ
  requestScheduler : Scheduler Unit Unit := {}
  replyScheduler : Scheduler ρ StreamReply := {}
  jobs : List (Job ρ) := []
  round : ℕ := 0
  raced : Bool := false
  value : Option (Except PaymentError τ) := none
  completing : ℕ := 0
  handled : List (Run ρ StreamReply) := []
  result : Option (Except PaymentError τ) := none

/-- What happens to a send loop: the next job runs, the delay of an attempt is over, or a request is
replied to. -/
inductive StartEvent
  | job (env : Env)
  | delayed (n : ℕ)
  | replied (n : ℕ) (reply : StreamReply)

namespace Start

variable {σ ρ τ : Type}

/-- The start of a round, up to `await Promise.race`. -/
def nextRound (s : Start σ ρ τ) : Start σ ρ τ :=
  { s with
    replyScheduler := s.replyScheduler.next
    requestScheduler := s.requestScheduler.next
    jobs := s.jobs ++ (s.replyScheduler.resolved.map fun run => .react (.inr run) .resolveTick) ++
      s.requestScheduler.resolved.map fun run => .react (.inl run) .resolveTick
    round := s.round + 1
    raced := false }

/-- `start`, up to the first `await`. -/
def start (sender : σ) : Start σ ρ τ :=
  nextRound
    { sender := sender
      requestScheduler := Scheduler.queue {} () }

/-- The end of the loop, up to `await this.replyScheduler.complete()`, which resolves at once when nothing
is outstanding. -/
def finish (value : Except PaymentError τ) (s : Start σ ρ τ) : Start σ ρ τ :=
  { s with
    value := some value
    replyScheduler := s.replyScheduler.complete
    completing := s.replyScheduler.pendingTasks.length
    jobs := s.jobs ++ (s.replyScheduler.resolved.map fun run => .react (.inr run) .run) ++
      if s.replyScheduler.pendingTasks.length = 0 then [.resolve] else [] }

/-- The `switch` on the state that a function returned. -/
def handle (s : Start σ ρ τ) : SendState τ → Start σ ρ τ
  | .done value => s.finish (.ok value)
  | .error value => s.finish (.error value)
  | .schedule => nextRound { s with requestScheduler := s.requestScheduler.queue () }
  | .yield => s.nextRound

variable (S : SendFunctions σ ρ τ)

/-- `trySending`, which queues the effects of the reply to a request that is sent. -/
def trySending (env : Env) (s : Start σ ρ τ) : Start σ ρ τ × SendState τ :=
  match S.trySending env s.sender with
  | (sender, .cancel state) => ({ s with sender := sender }, state)
  | (sender, .send request) =>
    ({ s with
       sender := sender
       replyScheduler := s.replyScheduler.queue request }, .schedule)

/-- The function that a task resolved with. -/
def run (env : Env) (s : Start σ ρ τ) : Effects ρ → Start σ ρ τ × SendState τ
  | .inl _ => trySending S env s
  | .inr (task, reply) =>
    let (sender, state) := S.applyEffects env task.closure reply s.sender
    ({ s with sender := sender, handled := s.handled ++ [(task, reply)] }, state)

/-- The rest of `resolveTick`. -/
def resolveTick (s : Start σ ρ τ) : Effects ρ → Start σ ρ τ
  | .inl run =>
    { s with
      requestScheduler := s.requestScheduler.resolveTick run
      jobs := s.jobs ++ if s.requestScheduler.nextTick.isNone then [.race s.round (.inl run)] else [] }
  | .inr run =>
    { s with
      replyScheduler := s.replyScheduler.resolveTick run
      jobs := s.jobs ++ if s.replyScheduler.nextTick.isNone then [.race s.round (.inr run)] else [] }

/-- `this.pendingTasks.delete(task)`, which the function that settles a tick begins with. -/
def delete (s : Start σ ρ τ) : Effects ρ → Start σ ρ τ
  | .inl run => { s with requestScheduler := s.requestScheduler.delete run.1 }
  | .inr run => { s with replyScheduler := s.replyScheduler.delete run.1 }

/-- One job. -/
def runJob (env : Env) (s : Start σ ρ τ) : Job ρ → Start σ ρ τ
  | .react effects .resolveTick => s.resolveTick effects
  | .react effects .run =>
    let (s, _) := s.run S env effects
    { s with
      completing := s.completing - 1
      jobs := s.jobs ++ if s.completing = 1 then [.resolve] else [] }
  | .race round effects =>
    if round = s.round ∧ !s.raced then { s with raced := true, jobs := s.jobs ++ [.loop effects] }
    else s
  | .loop effects =>
    let (s, state) := (s.delete effects).run S env effects
    s.handle state
  | .resolve => { s with result := s.value }

/-- One event. -/
def step (s : Start σ ρ τ) : StartEvent → Option (Start σ ρ τ)
  | .job env =>
    match s.jobs with
    | [] => none
    | job :: jobs => some (runJob S env { s with jobs := jobs } job)
  | .delayed n =>
    (s.requestScheduler.fulfill n ()).map fun (requestScheduler, run, reactions) =>
      { s with
        requestScheduler := requestScheduler
        jobs := s.jobs ++ reactions.map (.react (.inl run)) }
  | .replied n reply =>
    (s.replyScheduler.fulfill n reply).map fun (replyScheduler, run, reactions) =>
      { s with
        replyScheduler := replyScheduler
        jobs := s.jobs ++ reactions.map (.react (.inr run)) }

/-- `start` of a sender as an event machine. -/
def machine (sender : σ) : Machine (Start σ ρ τ) StartEvent where
  init s := s = start sender
  step := step S

/-- The replies that are not handled, of those that were pending when the loop ended or are pending. -/
def unhandled (s : Start σ ρ τ) : List (Task ρ) :=
  s.replyScheduler.pendingTasks.filter fun t => t.id ∉ s.handled.map fun run => run.1.id

end Start

/-! ### The jobs of each scheduler -/

namespace Job

variable {ρ κ α : Type}

/-- The part that a job takes in a round, for the scheduler of one kind of functions. -/
def view (kind : Effects ρ → Option (Run κ α)) : Job ρ → Option (RoundJob κ α)
  | .react effects .resolveTick => (kind effects).map .resume
  | .race round effects => (kind effects).map (.race round)
  | .loop effects => (kind effects).map .loop
  | .react _ .run | .resolve => none

/-- The parts that the jobs take in a round. -/
def views (kind : Effects ρ → Option (Run κ α)) (jobs : List (Job ρ)) : List (RoundJob κ α) :=
  jobs.filterMap (view kind)

/-- The job is the rest of a round. -/
def isLoop : Job ρ → Bool
  | .loop _ => true
  | _ => false

/-- The reply that a job handles after the end of the loop. -/
def outstanding : Job ρ → Option (Run ρ StreamReply)
  | .react (.inr run) .run => some run
  | _ => none

variable {kind : Effects ρ → Option (Run κ α)} {effects : Effects ρ} {run : Run κ α}
  {jobs : List (Job ρ)}

theorem views_append (jobs jobs' : List (Job ρ)) :
    views kind (jobs ++ jobs') = views kind jobs ++ views kind jobs' := List.filterMap_append

theorem views_cons_of_none {job : Job ρ} (h : view kind job = none) (jobs : List (Job ρ)) :
    views kind (job :: jobs) = views kind jobs := List.filterMap_cons_none h

theorem views_cons_of_some {job : Job ρ} {roundJob : RoundJob κ α} (h : view kind job = some roundJob)
    (jobs : List (Job ρ)) : views kind (job :: jobs) = roundJob :: views kind jobs :=
  List.filterMap_cons_some h

/-- Reactions to a promise of the other kind. -/
theorem views_react_of_none (h : kind effects = none) (reactions : List Reaction) :
    views kind (reactions.map (.react effects)) = [] := by
  rw [views, List.filterMap_eq_nil_iff]
  intro job h_job
  obtain ⟨reaction, -, rfl⟩ := List.mem_map.mp h_job
  cases reaction with
  | resolveTick => exact congrArg (Option.map RoundJob.resume) h
  | run => rfl

/-- Reactions to a promise resume the task. -/
theorem views_react_of_some (h : kind effects = some run) (reactions : List Reaction) :
    (∀ job ∈ views kind (reactions.map (.react effects)), job = .resume run) ∧
      (.resolveTick ∈ reactions → .resume run ∈ views kind (reactions.map (.react effects))) := by
  have h_view : view kind (.react effects .resolveTick) = some (.resume run) :=
    congrArg (Option.map RoundJob.resume) h
  constructor
  · intro job h_job
    obtain ⟨job', h_mem, h_some⟩ := List.mem_filterMap.mp h_job
    obtain ⟨reaction, -, rfl⟩ := List.mem_map.mp h_mem
    cases reaction with
    | resolveTick =>
      rw [h_view] at h_some
      exact (Option.some.inj h_some).symm
    | run => cases h_some
  · intro h_mem
    exact List.mem_filterMap.mpr ⟨_, List.mem_map_of_mem h_mem, h_view⟩

/-- The rest of a round is one of either scheduler. -/
theorem noLoop_views (h : ∀ effects, .loop effects ∉ jobs) (run : Run κ α) :
    .loop run ∉ views kind jobs := by
  intro h_mem
  obtain ⟨job, h_job, h_some⟩ := List.mem_filterMap.mp h_mem
  cases job with
  | loop effects => exact h effects h_job
  | react effects reaction =>
    cases reaction with
    | resolveTick =>
      obtain ⟨_, -, h_eq⟩ := Option.map_eq_some_iff.mp h_some
      cases h_eq
    | run => cases h_some
  | race round effects =>
    obtain ⟨_, -, h_eq⟩ := Option.map_eq_some_iff.mp h_some
    cases h_eq
  | resolve => cases h_some

/-- Where no job is the rest of a round, none is counted. -/
theorem countP_isLoop_eq_zero : jobs.countP isLoop = 0 ↔ ∀ effects, .loop effects ∉ jobs := by
  rw [List.countP_eq_zero]
  constructor
  · intro h effects h_mem
    exact h _ h_mem rfl
  · intro h job h_mem h_loop
    cases job with
    | loop effects => exact h effects h_mem
    | react _ _ | race _ _ | resolve => cases h_loop

/-- No reaction of `complete` is outstanding among those of `resolveTick`. -/
theorem outstanding_react (run : Run ρ StreamReply) (reactions : List Reaction) :
    (reactions.map (.react (.inr run))).filterMap outstanding =
      List.replicate (reactions.count .run) run := by
  induction reactions with
  | nil => rfl
  | cons reaction reactions ih =>
    cases reaction with
    | resolveTick =>
      rw [List.count_cons_of_ne (by decide)]
      exact ih
    | run =>
      rw [List.count_cons_self, List.replicate_succ, ← ih]
      rfl

/-- The resolved tasks of a scheduler are about to settle its tick. -/
theorem views_resolved_of_some {inj : Run κ α → Effects ρ} (h : ∀ run, kind (inj run) = some run)
    (runs : List (Run κ α)) :
    views kind (runs.map fun run => .react (inj run) .resolveTick) = runs.map .resume := by
  induction runs with
  | nil => rfl
  | cons run runs ih =>
    have h_view : view kind (.react (inj run) .resolveTick) = some (.resume run) :=
      congrArg (Option.map RoundJob.resume) (h run)
    rw [List.map_cons, views_cons_of_some h_view, ih, List.map_cons]

theorem views_resolved_of_none {κ' α' : Type} {inj : Run κ' α' → Effects ρ}
    (h : ∀ run, kind (inj run) = none) (runs : List (Run κ' α')) (reaction : Reaction) :
    views kind (runs.map fun run => .react (inj run) reaction) = [] := by
  rw [views, List.filterMap_eq_nil_iff]
  intro job h_job
  obtain ⟨run, -, rfl⟩ := List.mem_map.mp h_job
  cases reaction with
  | resolveTick => exact congrArg (Option.map RoundJob.resume) (h run)
  | run => rfl

end Job

/-! ### What holds between two jobs -/

namespace Start

open Job

variable {σ ρ τ : Type}

/-- The numbers of the replies that were handled. -/
abbrev handledIds (s : Start σ ρ τ) : List ℕ := s.handled.map fun run => run.1.id

/-- **The books**: every request that was sent is recorded, and its reply handled or pending; a reply that
was handled is the one that its promise was fulfilled with, and was handled once. -/
structure Books (s : Start σ ρ τ) : Prop where
  requests : Recorded s.requestScheduler
  replies : Recorded s.replyScheduler
  attempts : ∀ n reactions, s.requestScheduler.promise n = .pending reactions → .run ∉ reactions
  noAttempt : ∀ run, .react (.inl run) .run ∉ s.jobs
  nodup : s.handledIds.Nodup
  handled : ∀ run ∈ s.handled, s.replyScheduler.tasks[run.1.id]? = some run.1.closure ∧
    s.replyScheduler.promise run.1.id = .fulfilled run.2
  covered : ∀ n < s.replyScheduler.tasks.length,
    n ∈ s.handledIds ∨ n ∈ s.replyScheduler.pendingTasks.map Task.id

/-- What holds while the loop runs, in a round and between two. -/
structure Live (s : Start σ ρ τ) : Prop where
  value : s.value = none
  result : s.result = none
  noRun : ∀ run, .react (.inr run) .run ∉ s.jobs
  noResolve : .resolve ∉ s.jobs
  reactions : ∀ n reactions, s.replyScheduler.promise n = .pending reactions → .run ∉ reactions
  unhandled : ∀ t ∈ s.replyScheduler.pendingTasks, t.id ∉ s.handledIds

/-- **A round** is awaited. -/
structure Running (s : Start σ ρ τ) : Prop extends Live s where
  requests : Racing s.requestScheduler (views Sum.getLeft? s.jobs) s.round s.raced
  replies : Racing s.replyScheduler (views Sum.getRight? s.jobs) s.round s.raced
  loops : s.jobs.countP isLoop = if s.raced then 1 else 0

/-- **Between two rounds**. -/
structure Paused (s : Start σ ρ τ) : Prop extends Live s where
  raced : s.raced = true
  requests : Between s.requestScheduler (views Sum.getLeft? s.jobs) s.round
  replies : Between s.replyScheduler (views Sum.getRight? s.jobs) s.round
  noLoop : ∀ effects, .loop effects ∉ s.jobs

/-- **The loop has ended**: each reply that is not handled waits to be, once. -/
structure Completing (s : Start σ ρ τ) : Prop where
  value : s.value.isSome
  raced : s.raced = true
  noLoop : ∀ effects, .loop effects ∉ s.jobs
  outstanding : ∀ run ∈ s.jobs.filterMap outstanding,
    run.1 ∈ s.unhandled ∧ s.replyScheduler.promise run.1.id = .fulfilled run.2
  nodup : ((s.jobs.filterMap Job.outstanding).map fun run => run.1.id).Nodup
  waiting : ∀ t ∈ s.unhandled, (∃ reply, (t, reply) ∈ s.jobs.filterMap Job.outstanding) ∨
    ∃ reactions, s.replyScheduler.promise t.id = .pending reactions ∧ .run ∈ reactions
  once : ∀ n reactions, s.replyScheduler.promise n = .pending reactions → reactions.count .run ≤ 1
  completing : s.completing = s.unhandled.length
  resolved : .resolve ∈ s.jobs ∨ s.result.isSome → s.completing = 0

section Rounds

variable {s : Start σ ρ τ}

/-- No reply is handled as long as it is pending. -/
theorem Live.unhandled_eq (h : Live s) : s.unhandled = s.replyScheduler.pendingTasks :=
  List.filter_eq_self.mpr fun t h_t => decide_eq_true (h.unhandled t h_t)

theorem mem_unhandled {t : Task ρ} :
    t ∈ s.unhandled ↔ t ∈ s.replyScheduler.pendingTasks ∧ t.id ∉ s.handledIds := by
  unfold unhandled
  rw [List.mem_filter, decide_eq_true_iff]

/-- The jobs of a new round. -/
theorem mem_nextRound_jobs {job : Job ρ} (h_mem : job ∈ s.nextRound.jobs) :
    job ∈ s.jobs ∨ ∃ effects, job = .react effects .resolveTick := by
  rcases List.mem_append.mp h_mem with h_mem | h_mem
  · rcases List.mem_append.mp h_mem with h_mem | h_mem
    · exact .inl h_mem
    · obtain ⟨_, -, h_eq⟩ := List.mem_map.mp h_mem
      exact .inr ⟨_, h_eq.symm⟩
  · obtain ⟨_, -, h_eq⟩ := List.mem_map.mp h_mem
    exact .inr ⟨_, h_eq.symm⟩

/-- Waiting for a tick adds no reaction of `complete`. -/
theorem run_notMem_wait {κ α : Type} {scheduler : Scheduler κ α}
    (h : ∀ n reactions, scheduler.promise n = .pending reactions → .run ∉ reactions) (n : ℕ)
    (reactions : List Reaction) (h_promise : (scheduler.wait .resolveTick).promise n = .pending reactions) :
    .run ∉ reactions := by
  change (if _ then (scheduler.promise n).wait .resolveTick else scheduler.promise n) = _ at h_promise
  split at h_promise
  · cases h_before : scheduler.promise n with
    | pending before =>
      rw [h_before] at h_promise
      cases h_promise
      intro h_mem
      rcases List.mem_append.mp h_mem with h_old | h_new
      · exact h n before h_before h_old
      · cases List.mem_singleton.mp h_new
    | fulfilled value =>
      rw [h_before] at h_promise
      cases h_promise
  · exact h n reactions h_promise

/-- **A round begins.** -/
theorem Paused.nextRound (h : Paused s) : Running s.nextRound where
  value := h.value
  result := h.result
  noRun := by
    intro run h_mem
    rcases mem_nextRound_jobs h_mem with h_mem | ⟨effects, h_eq⟩
    · exact h.noRun run h_mem
    · cases h_eq
  noResolve := by
    intro h_mem
    rcases mem_nextRound_jobs h_mem with h_mem | ⟨effects, h_eq⟩
    · exact h.noResolve h_mem
    · cases h_eq
  reactions := run_notMem_wait h.reactions
  unhandled := h.unhandled
  requests := by
    -- a new round gives each fulfilled promise of its scheduler a new reaction
    have h_views : views Sum.getLeft? s.nextRound.jobs =
        views Sum.getLeft? s.jobs ++ s.requestScheduler.resolved.map .resume := by
      unfold Start.nextRound
      simp only
      rw [views_append, views_append, views_resolved_of_none fun _ => rfl, List.append_nil,
        views_resolved_of_some fun _ => rfl]
    rw [h_views]
    exact h.requests.next
  replies := by
    have h_views : views Sum.getRight? s.nextRound.jobs =
        views Sum.getRight? s.jobs ++ s.replyScheduler.resolved.map .resume := by
      unfold Start.nextRound
      simp only
      rw [views_append, views_append, views_resolved_of_some fun _ => rfl,
        views_resolved_of_none fun _ => rfl, List.append_nil]
    rw [h_views]
    exact h.replies.next
  loops := by
    -- none of the new jobs is a loop
    change _ = 0
    rw [countP_isLoop_eq_zero]
    intro effects h_mem
    rcases mem_nextRound_jobs h_mem with h_mem | ⟨_, h_eq⟩
    · exact h.noLoop effects h_mem
    · cases h_eq

/-- A list of reactions to which that of `complete` is added once. -/
theorem count_run_wait {κ α : Type} {scheduler : Scheduler κ α}
    (h : ∀ n reactions, scheduler.promise n = .pending reactions → .run ∉ reactions) (n : ℕ)
    (reactions : List Reaction) (h_promise : (scheduler.wait .run).promise n = .pending reactions) :
    reactions.count .run ≤ 1 := by
  change (if _ then (scheduler.promise n).wait .run else scheduler.promise n) = _ at h_promise
  split at h_promise
  · cases h_before : scheduler.promise n with
    | pending before =>
      rw [h_before] at h_promise
      cases h_promise
      rw [List.count_append, List.count_eq_zero.mpr (h n before h_before)]
      exact le_rfl
    | fulfilled value =>
      rw [h_before] at h_promise
      cases h_promise
  · rw [List.count_eq_zero.mpr (h n reactions h_promise)]
    exact Nat.zero_le _

/-- What is outstanding when the loop ends are the replies that have come. -/
theorem Live.outstanding_finish (h : Live s) (value : Except PaymentError τ) :
    (s.finish value).jobs.filterMap Job.outstanding = s.replyScheduler.resolved := by
  have h_before : s.jobs.filterMap Job.outstanding = [] := by
    rw [List.filterMap_eq_nil_iff]
    intro job h_mem
    cases job with
    | react effects reaction =>
      cases effects with
      | inl run => rfl
      | inr run =>
        cases reaction with
        | resolveTick => rfl
        | run => exact absurd h_mem (h.noRun run)
    | race _ _ | loop _ | resolve => rfl
  have h_runs (runs : List (Run ρ StreamReply)) :
      (runs.map fun run => Job.react (.inr run) .run).filterMap Job.outstanding = runs := by
    rw [List.filterMap_map]
    exact List.filterMap_some
  have h_last : (if s.replyScheduler.pendingTasks.length = 0 then [(.resolve : Job ρ)] else []).filterMap
      Job.outstanding = [] := by
    split <;> rfl
  change List.filterMap _ (s.jobs ++ _ ++ _) = _
  rw [List.filterMap_append, List.filterMap_append, h_before, h_runs, h_last, List.nil_append,
    List.append_nil]

/-- **The loop ends**, and what is pending is to be handled. -/
theorem Paused.finish (h : Paused s) (h_books : Books s) (value : Except PaymentError τ) :
    Completing (s.finish value) := by
  have h_outstanding := h.outstanding_finish value
  have h_unhandled : (s.finish value).unhandled = s.replyScheduler.pendingTasks := h.unhandled_eq
  -- completing adds a `run` for each reply that is there, and `resolve` if none is outstanding
  have h_jobs {job : Job ρ} (h_mem : job ∈ (s.finish value).jobs) :
      job ∈ s.jobs ∨ (∃ run, job = .react (.inr run) .run) ∨
        job = .resolve ∧ s.replyScheduler.pendingTasks.length = 0 := by
    rcases List.mem_append.mp h_mem with h_mem | h_mem
    · rcases List.mem_append.mp h_mem with h_mem | h_mem
      · exact .inl h_mem
      · obtain ⟨run, -, h_eq⟩ := List.mem_map.mp h_mem
        exact .inr (.inl ⟨run, h_eq.symm⟩)
    · split at h_mem
      · next h_none => exact .inr (.inr ⟨List.mem_singleton.mp h_mem, h_none⟩)
      · cases h_mem
  exact
    { value := rfl
      raced := h.raced
      noLoop := fun effects h_mem => by
        rcases h_jobs h_mem with h_mem | ⟨run, h_eq⟩ | ⟨h_eq, -⟩
        · exact h.noLoop effects h_mem
        · cases h_eq
        · cases h_eq
      outstanding := fun run h_mem => by
        rw [h_outstanding] at h_mem
        obtain ⟨h_pending, h_promise⟩ := Scheduler.mem_resolved.mp h_mem
        rw [h_unhandled]
        exact ⟨h_pending, Scheduler.promise_wait_eq_fulfilled.mpr h_promise⟩
      nodup := by
        have h_sublist := (Scheduler.resolved_sublist s.replyScheduler).map Task.id
        rw [List.map_map] at h_sublist
        rw [h_outstanding]
        exact h_books.replies.nodup.sublist h_sublist
      waiting := fun t h_mem => by
        rw [h_unhandled] at h_mem
        rw [h_outstanding]
        -- a reply that is there has its `run` now, and one that is not will have it when it comes
        cases h_promise : s.replyScheduler.promise t.id with
        | fulfilled reply => exact .inl ⟨reply, Scheduler.mem_resolved.mpr ⟨h_mem, h_promise⟩⟩
        | pending reactions =>
          refine .inr ⟨reactions ++ [.run], ?_, List.mem_append_right _ (List.mem_singleton_self _)⟩
          change (if _ then (s.replyScheduler.promise t.id).wait .run else _) = _
          rw [if_pos (List.mem_map_of_mem h_mem), h_promise]
          rfl
      once := count_run_wait h.reactions
      completing := by
        rw [h_unhandled]
        rfl
      resolved := fun h_resolved => by
        -- it has resolved only if nothing was outstanding
        rcases h_resolved with h_mem | h_some
        · rcases h_jobs h_mem with h_mem | ⟨run, h_eq⟩ | ⟨-, h_none⟩
          · exact absurd h_mem h.noResolve
          · cases h_eq
          · exact h_none
        · change s.result.isSome = true at h_some
          rw [h.result] at h_some
          cases h_some }

end Rounds

section Recording

variable {s : Start σ ρ τ} {S : SendFunctions σ ρ τ} {env : Env}

namespace Books

/-- Jobs come and go. -/
theorem of_jobs (h : Books s) {jobs : List (Job ρ)} (h_jobs : ∀ run, .react (.inl run) .run ∉ jobs) :
    Books { s with jobs := jobs } :=
  ⟨h.requests, h.replies, h.attempts, h_jobs, h.nodup, h.handled, h.covered⟩

theorem nextRound (h : Books s) : Books s.nextRound where
  requests := h.requests.next
  replies := h.replies.next
  attempts := run_notMem_wait h.attempts
  noAttempt := by
    intro run h_mem
    rcases mem_nextRound_jobs h_mem with h_mem | ⟨effects, h_eq⟩
    · exact h.noAttempt run h_mem
    · cases h_eq
  nodup := h.nodup
  handled := fun run h_mem =>
    ⟨(h.handled run h_mem).1, Scheduler.promise_wait_eq_fulfilled.mpr (h.handled run h_mem).2⟩
  covered := h.covered

theorem finish (h : Books s) (value : Except PaymentError τ) : Books (s.finish value) where
  requests := h.requests
  replies := h.replies.wait .run
  attempts := h.attempts
  noAttempt := by
    intro run h_mem
    rcases List.mem_append.mp h_mem with h_mem | h_mem
    · rcases List.mem_append.mp h_mem with h_mem | h_mem
      · exact h.noAttempt run h_mem
      · obtain ⟨_, -, h_eq⟩ := List.mem_map.mp h_mem
        cases h_eq
    · split at h_mem
      · cases List.mem_singleton.mp h_mem
      · cases h_mem
  nodup := h.nodup
  handled := fun run h_mem =>
    ⟨(h.handled run h_mem).1, Scheduler.promise_wait_eq_fulfilled.mpr (h.handled run h_mem).2⟩
  covered := h.covered

/-- Another attempt is scheduled. -/
theorem queue (h : Books s) : Books { s with requestScheduler := s.requestScheduler.queue () } where
  requests := h.requests.queue ()
  replies := h.replies
  attempts := by
    intro n reactions h_promise h_mem
    change Function.update s.requestScheduler.promise _ (.pending [.resolveTick]) n = _ at h_promise
    by_cases h_new : n = s.requestScheduler.tasks.length
    · rw [h_new, Function.update_self] at h_promise
      cases h_promise
      cases List.mem_singleton.mp h_mem
    · rw [Function.update_of_ne h_new] at h_promise
      exact h.attempts n reactions h_promise h_mem
  noAttempt := h.noAttempt
  nodup := h.nodup
  handled := h.handled
  covered := h.covered

/-- A request is sent. -/
theorem send (h : Books s) (sender : σ) (request : ρ) :
    Books { s with
      sender := sender
      replyScheduler := s.replyScheduler.queue request } where
  requests := h.requests
  replies := h.replies.queue request
  attempts := h.attempts
  noAttempt := h.noAttempt
  nodup := h.nodup
  handled := by
    intro run h_mem
    obtain ⟨h_task, h_promise⟩ := h.handled run h_mem
    have h_lt := (List.getElem?_eq_some_iff.mp h_task).1
    refine ⟨?_, ?_⟩
    · change (s.replyScheduler.tasks ++ [request])[run.1.id]? = _
      rw [List.getElem?_append_left h_lt]
      exact h_task
    · change Function.update s.replyScheduler.promise _ _ run.1.id = _
      rw [Function.update_of_ne (Nat.ne_of_lt h_lt)]
      exact h_promise
  covered := by
    intro n h_lt
    change n ∈ s.handledIds ∨ n ∈ (s.replyScheduler.pendingTasks ++ [_]).map Task.id
    rw [List.map_append, List.mem_append]
    by_cases h_new : n = s.replyScheduler.tasks.length
    · exact .inr (.inr (List.mem_singleton.mpr h_new))
    · have h_length : n < (s.replyScheduler.tasks ++ [request]).length := h_lt
      rw [List.length_append, List.length_singleton] at h_length
      exact (h.covered n (by omega)).imp_right .inl

/-- A reply is handled. It may be left among the pending ones. -/
theorem reply (h : Books s) {run : Run ρ StreamReply} (h_pending : run.1 ∈ s.replyScheduler.pendingTasks)
    (h_promise : s.replyScheduler.promise run.1.id = .fulfilled run.2) (h_new : run.1.id ∉ s.handledIds)
    (sender : σ) {replyScheduler : Scheduler ρ StreamReply}
    (h_scheduler : replyScheduler = s.replyScheduler ∨
      replyScheduler = s.replyScheduler.delete run.1) :
    Books { s with
      sender := sender
      replyScheduler := replyScheduler
      handled := s.handled ++ [run] } := by
  -- the scheduler keeps its records, also when it drops the task
  have h_recorded : Recorded replyScheduler := by
    rcases h_scheduler with rfl | rfl
    · exact h.replies
    · exact h.replies.delete h_promise
  have h_same : replyScheduler.tasks = s.replyScheduler.tasks ∧
      replyScheduler.promise = s.replyScheduler.promise := by
    rcases h_scheduler with rfl | rfl
    · exact ⟨rfl, rfl⟩
    · exact ⟨rfl, rfl⟩
  -- and it drops no other task
  have h_left (t : Task ρ) (h_t : t ∈ s.replyScheduler.pendingTasks) (h_ne : t.id ≠ run.1.id) :
      t ∈ replyScheduler.pendingTasks := by
    rcases h_scheduler with rfl | rfl
    · exact h_t
    · exact List.mem_filter.mpr ⟨h_t, decide_eq_true h_ne⟩
  refine ⟨h.requests, h_recorded, h.attempts, h.noAttempt, ?_, ?_, ?_⟩
  · -- the reply was not handled before
    change ((s.handled ++ [run]).map fun run => run.1.id).Nodup
    rw [List.map_append]
    refine h.nodup.append (List.nodup_singleton _) fun n h_old h_last => h_new ?_
    have h_same : n = run.1.id := List.mem_singleton.mp h_last
    rw [← h_same]
    exact h_old
  · intro run' h_mem
    change replyScheduler.tasks[run'.1.id]? = _ ∧ replyScheduler.promise run'.1.id = _
    rw [h_same.1, h_same.2]
    rcases List.mem_append.mp h_mem with h_old | h_last
    · exact h.handled run' h_old
    · rw [List.mem_singleton.mp h_last]
      exact ⟨h.replies.tasks run.1 h_pending, h_promise⟩
  · intro n h_lt
    change n ∈ (s.handled ++ [run]).map (fun run => run.1.id) ∨ n ∈ replyScheduler.pendingTasks.map Task.id
    change n < replyScheduler.tasks.length at h_lt
    rw [h_same.1] at h_lt
    rw [List.map_append, List.mem_append]
    -- the task is handled now, and the others are as before
    by_cases h_last : n = run.1.id
    · exact .inl (.inr (List.mem_singleton.mpr h_last))
    · rcases h.covered n h_lt with h_old | h_pending'
      · exact .inl (.inl h_old)
      · obtain ⟨t, h_t, rfl⟩ := List.mem_map.mp h_pending'
        exact .inr (List.mem_map_of_mem (h_left t h_t h_last))

end Books

namespace Paused

/-- Another attempt is scheduled. -/
theorem queue (h : Paused s) (h_books : Books s) :
    Paused { s with requestScheduler := s.requestScheduler.queue () } :=
  { h with requests := h.requests.queue h_books.requests () }

/-- A request is sent. -/
theorem send (h : Paused s) (h_books : Books s) (sender : σ) (request : ρ) :
    Paused { s with
      sender := sender
      replyScheduler := s.replyScheduler.queue request } :=
  { h with
    replies := h.replies.queue h_books.replies request
    reactions := fun n reactions h_promise h_mem => by
      change Function.update s.replyScheduler.promise _ (.pending [.resolveTick]) n = _ at h_promise
      by_cases h_new : n = s.replyScheduler.tasks.length
      · rw [h_new, Function.update_self] at h_promise
        cases h_promise
        cases List.mem_singleton.mp h_mem
      · rw [Function.update_of_ne h_new] at h_promise
        exact h.reactions n reactions h_promise h_mem
    unhandled := fun t h_t h_mem => by
      rcases List.mem_append.mp h_t with h_old | h_new
      · exact h.unhandled t h_old h_mem
      · -- the replies that were handled are older
        obtain ⟨run, h_run, h_id⟩ := List.mem_map.mp h_mem
        have h_lt := (List.getElem?_eq_some_iff.mp (h_books.handled run h_run).1).1
        rw [List.mem_singleton.mp h_new] at h_id
        exact absurd h_id (Nat.ne_of_lt h_lt) }

/-- An attempt may send a request. -/
theorem trySending (h : Paused s) (h_books : Books s) :
    Paused (s.trySending S env).1 ∧ Books (s.trySending S env).1 := by
  unfold Start.trySending
  rcases S.trySending env s.sender with ⟨sender, request | state⟩
  · exact ⟨h.send h_books _ _, h_books.send _ _⟩
  · refine ⟨{ h with }, ?_⟩
    exact ⟨h_books.requests, h_books.replies, h_books.attempts, h_books.noAttempt, h_books.nodup,
      h_books.handled, h_books.covered⟩

/-- The `switch` on what a function returned. -/
theorem handle (h : Paused s) (h_books : Books s) (state : SendState τ) :
    Books (s.handle state) ∧ (Running (s.handle state) ∨ Completing (s.handle state)) := by
  cases state with
  | done value => exact ⟨h_books.finish _, .inr (h.finish h_books _)⟩
  | error value => exact ⟨h_books.finish _, .inr (h.finish h_books _)⟩
  | schedule => exact ⟨h_books.queue.nextRound, .inl (h.queue h_books).nextRound⟩
  | yield => exact ⟨h_books.nextRound, .inl h.nextRound⟩

end Paused

/-- Fewer jobs. -/
theorem Live.of_jobs (h : Live s) {jobs : List (Job ρ)} (h_jobs : ∀ job ∈ jobs, job ∈ s.jobs) :
    Live { s with jobs := jobs } :=
  { h with
    noRun := fun run h_mem => h.noRun run (h_jobs _ h_mem)
    noResolve := fun h_mem => h.noResolve (h_jobs _ h_mem) }

variable {effects : Effects ρ} {rest : List (Job ρ)} {job : Job ρ}

/-- The attempt that has won was scheduled, and its delay is over. -/
theorem Running.attempt {run : Run Unit Unit} (h : Running s) (h_jobs : s.jobs = .loop (.inl run) :: rest) :
    run ∈ s.requestScheduler.resolved := by
  have h_view : view Sum.getLeft? (.loop (.inl run) : Job ρ) = some (.loop run) := rfl
  have h_requests := h.requests
  rw [h_jobs, views_cons_of_some h_view] at h_requests
  obtain ⟨-, h_tick, -⟩ := h_requests.loop run List.mem_cons_self
  exact Scheduler.mem_resolved.mpr (h_requests.tick run h_tick)

/-- The reply that has won was waited for, and has come. -/
theorem Running.reply {run : Run ρ StreamReply} (h : Running s)
    (h_jobs : s.jobs = .loop (.inr run) :: rest) : run ∈ s.replyScheduler.resolved := by
  have h_view : view Sum.getRight? (.loop (.inr run) : Job ρ) = some (.loop run) := rfl
  have h_replies := h.replies
  rw [h_jobs, views_cons_of_some h_view] at h_replies
  obtain ⟨-, h_tick, -⟩ := h_replies.loop run List.mem_cons_self
  exact Scheduler.mem_resolved.mpr (h_replies.tick run h_tick)

/-- **The rest of a round**: the function that has won is executed, and no longer pending. -/
theorem Running.loop (h : Running s) (h_books : Books s) (h_jobs : s.jobs = .loop effects :: rest)
    (S : SendFunctions σ ρ τ) (env : Env) :
    Paused ((({ s with jobs := rest } : Start σ ρ τ).delete effects).run S env effects).1 ∧
      Books ((({ s with jobs := rest } : Start σ ρ τ).delete effects).run S env effects).1 := by
  -- the job is the only loop, and it comes from a round that was raced
  have h_count := h.loops
  rw [h_jobs, List.countP_cons_of_pos rfl] at h_count
  have h_raced : s.raced = true := by
    by_contra h_not
    rw [if_neg h_not] at h_count
    cases h_count
  rw [if_pos h_raced] at h_count
  have h_noLoop : ∀ effects, .loop effects ∉ rest := countP_isLoop_eq_zero.mp (Nat.succ.inj h_count)
  -- the other jobs stay
  have h_rest : ∀ job ∈ rest, job ∈ s.jobs := fun job h_mem => h_jobs ▸ List.mem_cons_of_mem _ h_mem
  have h_live := h.toLive.of_jobs h_rest
  have h_books' : Books { s with jobs := rest } :=
    h_books.of_jobs fun run h_mem => h_books.noAttempt run (h_rest _ h_mem)
  have h_requests := h.requests
  have h_replies := h.replies
  rw [h_jobs] at h_requests h_replies
  cases effects with
  | inl run =>
    -- an attempt to send
    obtain ⟨h_pending, h_promise⟩ := Scheduler.mem_resolved.mp (h.attempt h_jobs)
    have h_left : view Sum.getLeft? (.loop (.inl run) : Job ρ) = some (.loop run) := rfl
    have h_right : view Sum.getRight? (.loop (.inl run) : Job ρ) = none := rfl
    rw [views_cons_of_some h_left] at h_requests
    rw [views_cons_of_none h_right] at h_replies
    have h_paused : Paused ({ s with jobs := rest, requestScheduler := s.requestScheduler.delete run.1 } :
        Start σ ρ τ) :=
      { h_live with
        raced := h_raced
        requests := h_requests.executed h_books.requests (noLoop_views h_noLoop)
        replies := h_replies.between (noLoop_views h_noLoop)
        noLoop := h_noLoop }
    refine h_paused.trySending ?_
    exact { h_books' with requests := h_books.requests.delete h_promise }
  | inr run =>
    -- a reply, which has not been handled yet
    obtain ⟨h_pending, h_promise⟩ := Scheduler.mem_resolved.mp (h.reply h_jobs)
    have h_left : view Sum.getLeft? (.loop (.inr run) : Job ρ) = none := rfl
    have h_right : view Sum.getRight? (.loop (.inr run) : Job ρ) = some (.loop run) := rfl
    rw [views_cons_of_none h_left] at h_requests
    rw [views_cons_of_some h_right] at h_replies
    have h_new := h.unhandled run.1 h_pending
    refine ⟨?_, h_books'.reply h_pending h_promise h_new _ (.inr rfl)⟩
    exact
      { h_live with
        raced := h_raced
        requests := h_requests.between (noLoop_views h_noLoop)
        replies := h_replies.executed h_books.replies (noLoop_views h_noLoop)
        noLoop := h_noLoop
        unhandled := fun t h_t h_mem => by
          obtain ⟨h_t, h_ne⟩ := List.mem_filter.mp h_t
          change t.id ∈ (s.handled ++ [run]).map (fun run => run.1.id) at h_mem
          rw [List.map_append, List.mem_append] at h_mem
          rcases h_mem with h_old | h_last
          · exact h.unhandled t h_t h_old
          · exact of_decide_eq_true h_ne (List.mem_singleton.mp h_last) }

/-- The race that a settled tick takes part in. -/
theorem views_race {κ α : Type} {kind : Effects ρ → Option (Run κ α)} {run : Run κ α} {round : ℕ}
    (settles : Bool) (h : kind effects = some run) :
    views kind (if settles then [.race round effects] else []) =
      if settles then [.race round run] else [] := by
  have h_view : view kind (.race round effects) = some (.race round run) :=
    congrArg (Option.map (RoundJob.race round)) h
  cases settles with
  | false => rfl
  | true => exact List.filterMap_cons_some h_view

theorem views_race_of_none {κ α : Type} {kind : Effects ρ → Option (Run κ α)} {round : ℕ}
    (settles : Bool) (h : kind effects = none) :
    views kind (if settles then [.race round effects] else []) = [] := by
  have h_view : view kind (.race round effects) = none :=
    congrArg (Option.map (RoundJob.race round)) h
  cases settles with
  | false => rfl
  | true => exact List.filterMap_cons_none h_view

/-- A race is no other job. -/
theorem eq_race_of_mem {settles : Bool} {round : ℕ}
    (h : job ∈ if settles then [.race round effects] else []) : job = .race round effects := by
  cases settles with
  | false => cases h
  | true => exact List.mem_singleton.mp h

theorem countP_race (settles : Bool) (round : ℕ) :
    (if settles then [(.race round effects : Job ρ)] else []).countP isLoop = 0 := by
  cases settles <;> rfl

/-- A race may be added to the jobs. -/
theorem Live.race (h : Live s) (settles : Bool) (round : ℕ) (effects : Effects ρ) :
    Live { s with jobs := s.jobs ++ if settles then [.race round effects] else [] } :=
  { h with
    noRun := fun run h_mem => by
      rcases List.mem_append.mp h_mem with h_old | h_new
      · exact h.noRun run h_old
      · cases eq_race_of_mem h_new
    noResolve := fun h_mem => by
      rcases List.mem_append.mp h_mem with h_old | h_new
      · exact h.noResolve h_old
      · cases eq_race_of_mem h_new }

/-- **A task is resumed**. -/
theorem Running.resolveTick (h : Running s) (h_jobs : s.jobs = .react effects .resolveTick :: rest) :
    Running (({ s with jobs := rest } : Start σ ρ τ).resolveTick effects) := by
  -- the other jobs stay, and none of them becomes a loop
  have h_rest : ∀ job ∈ rest, job ∈ s.jobs := fun job h_mem => h_jobs ▸ List.mem_cons_of_mem _ h_mem
  have h_live := h.toLive.of_jobs h_rest
  have h_loops := h.loops
  have h_requests := h.requests
  have h_replies := h.replies
  rw [h_jobs, List.countP_cons_of_neg (by exact Bool.false_ne_true)] at h_loops
  rw [h_jobs] at h_requests h_replies
  cases effects with
  | inl run =>
    have h_left : view Sum.getLeft? (.react (.inl run) .resolveTick : Job ρ) = some (.resume run) := rfl
    have h_right : view Sum.getRight? (.react (.inl run) .resolveTick : Job ρ) = none := rfl
    rw [views_cons_of_some h_left] at h_requests
    rw [views_cons_of_none h_right] at h_replies
    -- the request scheduler's tick joins the race of this round
    have h_race := h_live.race s.requestScheduler.nextTick.isNone s.round (.inl run)
    refine { h_race with requests := ?_, replies := ?_, loops := ?_ }
    · change Racing _ (views _ (rest ++ _)) s.round s.raced
      rw [views_append, views_race _ rfl]
      exact h_requests.resolveTick
    · change Racing _ (views _ (rest ++ _)) s.round s.raced
      rw [views_append, views_race_of_none _ rfl, List.append_nil]
      exact h_replies
    · change (rest ++ _).countP isLoop = _
      rw [List.countP_append, countP_race, h_loops]
      rfl
  | inr run =>
    have h_left : view Sum.getLeft? (.react (.inr run) .resolveTick : Job ρ) = none := rfl
    have h_right : view Sum.getRight? (.react (.inr run) .resolveTick : Job ρ) = some (.resume run) := rfl
    rw [views_cons_of_none h_left] at h_requests
    rw [views_cons_of_some h_right] at h_replies
    -- the same for the reply scheduler
    have h_race := h_live.race s.replyScheduler.nextTick.isNone s.round (.inr run)
    -- the scheduler's records are not touched
    have h_same : (s.replyScheduler.resolveTick run).promise = s.replyScheduler.promise ∧
        (s.replyScheduler.resolveTick run).pendingTasks = s.replyScheduler.pendingTasks := by
      unfold Scheduler.resolveTick
      split <;> exact ⟨rfl, rfl⟩
    refine { h_race with requests := ?_, replies := ?_, loops := ?_, reactions := ?_, unhandled := ?_ }
    · change ∀ n reactions, (s.replyScheduler.resolveTick run).promise n = _ → _
      rw [h_same.1]
      exact h.reactions
    · change ∀ t ∈ (s.replyScheduler.resolveTick run).pendingTasks, _
      rw [h_same.2]
      exact h.unhandled
    · change Racing _ (views _ (rest ++ _)) s.round s.raced
      rw [views_append, views_race_of_none _ rfl, List.append_nil]
      exact h_requests
    · change Racing _ (views _ (rest ++ _)) s.round s.raced
      rw [views_append, views_race _ rfl]
      exact h_replies.resolveTick
    · change (rest ++ _).countP isLoop = _
      rw [List.countP_append, countP_race, h_loops]
      rfl

/-- The winner of a race may be added to the jobs. -/
theorem Live.loop (h : Live s) (effects : Effects ρ) :
    Live { s with raced := true, jobs := s.jobs ++ [.loop effects] } :=
  { h with
    noRun := fun run h_mem => by
      rcases List.mem_append.mp h_mem with h_old | h_new
      · exact h.noRun run h_old
      · cases List.mem_singleton.mp h_new
    noResolve := fun h_mem => by
      rcases List.mem_append.mp h_mem with h_old | h_new
      · exact h.noResolve h_old
      · cases List.mem_singleton.mp h_new }

/-- **A tick takes part in the race**, which it wins if it is that of the round and not settled. -/
theorem Running.race {k : ℕ} (h : Running s) (h_jobs : s.jobs = .race k effects :: rest) :
    Running (runJob S env { s with jobs := rest } (.race k effects)) := by
  -- the other jobs stay
  have h_rest : ∀ job ∈ rest, job ∈ s.jobs := fun job h_mem => h_jobs ▸ List.mem_cons_of_mem _ h_mem
  have h_live := h.toLive.of_jobs h_rest
  have h_loops := h.loops
  have h_requests := h.requests
  have h_replies := h.replies
  rw [h_jobs, List.countP_cons_of_neg (by exact Bool.false_ne_true)] at h_loops
  rw [h_jobs] at h_requests h_replies
  have h_count : (rest ++ [Job.loop effects]).countP isLoop = rest.countP isLoop + 1 := by
    rw [List.countP_append]
    rfl
  change Running (if k = s.round ∧ !s.raced then _ else _)
  -- the first to come in a round that has no winner yet starts a loop
  by_cases h_wins : k = s.round ∧ (!s.raced) = true
  · rw [if_pos h_wins]
    obtain ⟨rfl, h_raced⟩ := h_wins
    rw [Bool.not_eq_true'] at h_raced
    rw [h_raced] at h_requests h_replies h_loops
    -- the other scheduler has lost the round
    have h_loop := h_live.loop effects
    cases effects with
    | inl run =>
      have h_left : view Sum.getLeft? (.race s.round (.inl run) : Job ρ) = some (.race s.round run) := rfl
      have h_right : view Sum.getRight? (.race s.round (.inl run) : Job ρ) = none := rfl
      rw [views_cons_of_some h_left] at h_requests
      rw [views_cons_of_none h_right] at h_replies
      refine { h_loop with requests := ?_, replies := ?_, loops := ?_ }
      · change Racing _ (views _ (rest ++ _)) s.round true
        rw [views_append]
        exact h_requests.won
      · change Racing _ (views _ (rest ++ _)) s.round true
        rw [views_append]
        change Racing _ (views _ rest ++ []) s.round true
        rw [List.append_nil]
        exact h_replies.lost
      · change (rest ++ [_]).countP isLoop = 1
        rw [h_count, h_loops]
        rfl
    | inr run =>
      have h_left : view Sum.getLeft? (.race s.round (.inr run) : Job ρ) = none := rfl
      have h_right : view Sum.getRight? (.race s.round (.inr run) : Job ρ) = some (.race s.round run) := rfl
      rw [views_cons_of_none h_left] at h_requests
      rw [views_cons_of_some h_right] at h_replies
      refine { h_loop with requests := ?_, replies := ?_, loops := ?_ }
      · change Racing _ (views _ (rest ++ _)) s.round true
        rw [views_append]
        change Racing _ (views _ rest ++ []) s.round true
        rw [List.append_nil]
        exact h_requests.lost
      · change Racing _ (views _ (rest ++ _)) s.round true
        rw [views_append]
        exact h_replies.won
      · change (rest ++ [_]).countP isLoop = 1
        rw [h_count, h_loops]
        rfl
  · rw [if_neg h_wins]
    -- a race that is over, or of an earlier round, does nothing
    have h_over : k ≠ s.round ∨ s.raced = true := by
      rw [not_and_or] at h_wins
      refine h_wins.imp_right fun h_not => ?_
      rwa [Bool.not_eq_true', Bool.not_eq_false] at h_not
    cases effects with
    | inl run =>
      have h_left : view Sum.getLeft? (.race k (.inl run) : Job ρ) = some (.race k run) := rfl
      have h_right : view Sum.getRight? (.race k (.inl run) : Job ρ) = none := rfl
      rw [views_cons_of_some h_left] at h_requests
      rw [views_cons_of_none h_right] at h_replies
      exact { h_live with requests := h_requests.stale h_over, replies := h_replies, loops := h_loops }
    | inr run =>
      have h_left : view Sum.getLeft? (.race k (.inr run) : Job ρ) = none := rfl
      have h_right : view Sum.getRight? (.race k (.inr run) : Job ρ) = some (.race k run) := rfl
      rw [views_cons_of_none h_left] at h_requests
      rw [views_cons_of_some h_right] at h_replies
      exact { h_live with requests := h_requests, replies := h_replies.stale h_over, loops := h_loops }

/-- Reactions of `resolveTick` may be added to the jobs. -/
theorem Live.react (h : Live s) {reactions : List Reaction} (h_none : .run ∉ reactions)
    (effects : Effects ρ) : Live { s with jobs := s.jobs ++ reactions.map (.react effects) } :=
  { h with
    noRun := fun run h_mem => by
      rcases List.mem_append.mp h_mem with h_old | h_new
      · exact h.noRun run h_old
      · obtain ⟨reaction, h_reaction, h_eq⟩ := List.mem_map.mp h_new
        cases h_eq
        exact h_none h_reaction
    noResolve := fun h_mem => by
      rcases List.mem_append.mp h_mem with h_old | h_new
      · exact h.noResolve h_old
      · obtain ⟨reaction, -, h_eq⟩ := List.mem_map.mp h_new
        cases h_eq }

theorem countP_react (reactions : List Reaction) (effects : Effects ρ) :
    (reactions.map (.react effects)).countP isLoop = 0 := by
  rw [countP_isLoop_eq_zero]
  intro effects' h_mem
  obtain ⟨reaction, -, h_eq⟩ := List.mem_map.mp h_mem
  cases h_eq

/-- A promise that is fulfilled has no reactions left. -/
theorem pending_of_update {α : Type} {promise : ℕ → Promise α} {n m : ℕ} {value : α}
    {reactions : List Reaction}
    (h : Function.update promise n (.fulfilled value) m = .pending reactions) :
    m ≠ n ∧ promise m = .pending reactions := by
  by_cases h_same : m = n
  · rw [h_same, Function.update_self] at h
    cases h
  · rw [Function.update_of_ne h_same] at h
    exact ⟨h_same, h⟩

/-- The delay of an attempt is over. -/
theorem Running.delayed {n : ℕ} {scheduler : Scheduler Unit Unit} {run : Run Unit Unit}
    {reactions : List Reaction} (h : Running s) (h_books : Books s)
    (h_fulfill : s.requestScheduler.fulfill n () = some (scheduler, run, reactions)) :
    Running { s with
      requestScheduler := scheduler
      jobs := s.jobs ++ reactions.map (.react (.inl run)) } := by
  obtain ⟨h_task, rfl, -, h_pending, h_scheduler⟩ := Scheduler.fulfill_eq_some h_fulfill
  obtain ⟨-, h_resume⟩ := h_books.requests.unresolved _ _ _ h_task h_pending
  have h_react := h.toLive.react (h_books.attempts _ _ h_pending) (.inl run)
  have h_left : Sum.getLeft? (.inl run : Effects ρ) = some run := rfl
  have h_right : Sum.getRight? (.inl run : Effects ρ) = none := rfl
  obtain ⟨h_all, h_mem⟩ := views_react_of_some h_left reactions
  refine { h_react with requests := ?_, replies := ?_, loops := ?_ }
  · rw [views_append]
    exact h.requests.fulfill h_books.requests h_fulfill h_all (h_mem h_resume)
  · rw [views_append, views_react_of_none h_right, List.append_nil]
    exact h.replies
  · rw [List.countP_append, countP_react, h.loops]
    rfl

/-- A request is replied to. -/
theorem Running.replied {n : ℕ} {reply : StreamReply} {scheduler : Scheduler ρ StreamReply}
    {run : Run ρ StreamReply} {reactions : List Reaction} (h : Running s) (h_books : Books s)
    (h_fulfill : s.replyScheduler.fulfill n reply = some (scheduler, run, reactions)) :
    Running { s with
      replyScheduler := scheduler
      jobs := s.jobs ++ reactions.map (.react (.inr run)) } := by
  obtain ⟨h_task, rfl, -, h_pending, h_scheduler⟩ := Scheduler.fulfill_eq_some h_fulfill
  obtain ⟨-, h_resume⟩ := h_books.replies.unresolved _ _ _ h_task h_pending
  have h_react := h.toLive.react (h.reactions _ _ h_pending) (.inr run)
  have h_left : Sum.getLeft? (.inr run : Effects ρ) = none := rfl
  have h_right : Sum.getRight? (.inr run : Effects ρ) = some run := rfl
  obtain ⟨h_all, h_mem⟩ := views_react_of_some h_right reactions
  refine { h_react with requests := ?_, replies := ?_, loops := ?_, reactions := ?_, unhandled := ?_ }
  · intro m before h_promise
    rw [h_scheduler] at h_promise
    exact h.reactions m before (pending_of_update h_promise).2
  · rw [h_scheduler]
    exact h.unhandled
  · rw [views_append, views_react_of_none h_left, List.append_nil]
    exact h.requests
  · rw [views_append]
    exact h.replies.fulfill h_books.replies h_fulfill h_all (h_mem h_resume)
  · rw [List.countP_append, countP_react, h.loops]
    rfl

/-! ### After the end of the loop -/

namespace Completing

variable {s' : Start σ ρ τ}

/-- What neither handles a reply nor fulfils its promise. -/
theorem of_quiet (h : Completing s) (h_value : s'.value = s.value) (h_raced : s'.raced = s.raced)
    (h_promise : s'.replyScheduler.promise = s.replyScheduler.promise)
    (h_pending : s'.replyScheduler.pendingTasks = s.replyScheduler.pendingTasks)
    (h_handled : s'.handled = s.handled) (h_completing : s'.completing = s.completing)
    (h_outstanding : s'.jobs.filterMap Job.outstanding = s.jobs.filterMap Job.outstanding)
    (h_noLoop : ∀ effects, .loop effects ∉ s'.jobs)
    (h_resolved : .resolve ∈ s'.jobs ∨ s'.result.isSome → .resolve ∈ s.jobs ∨ s.result.isSome) :
    Completing s' := by
  have h_unhandled : s'.unhandled = s.unhandled := by
    unfold Start.unhandled
    rw [h_pending, h_handled]
  exact
    { value := h_value ▸ h.value
      raced := h_raced ▸ h.raced
      noLoop := h_noLoop
      outstanding := by
        rw [h_outstanding, h_unhandled, h_promise]
        exact h.outstanding
      nodup := by
        rw [h_outstanding]
        exact h.nodup
      waiting := by
        rw [h_outstanding, h_unhandled, h_promise]
        exact h.waiting
      once := by
        rw [h_promise]
        exact h.once
      completing := by
        rw [h_completing, h_unhandled]
        exact h.completing
      resolved := fun h_some => by
        rw [h_completing]
        exact h.resolved (h_resolved h_some) }

/-- A job that handles no reply. -/
theorem tail (h : Completing s) (h_jobs : s.jobs = job :: rest) (h_job : Job.outstanding job = none) :
    Completing { s with jobs := rest } := by
  refine h.of_quiet rfl rfl rfl rfl rfl rfl ?_ ?_ ?_
  · rw [h_jobs, List.filterMap_cons_none h_job]
  · intro effects h_mem
    exact h.noLoop effects (h_jobs ▸ List.mem_cons_of_mem _ h_mem)
  · exact fun h_some => h_some.imp_left fun h_mem => h_jobs ▸ List.mem_cons_of_mem _ h_mem

/-- A task is resumed, to no effect. -/
theorem resolveTick (h : Completing s) (effects : Effects ρ) : Completing (s.resolveTick effects) := by
  have h_outstanding (settles : Bool) (round : ℕ) :
      (s.jobs ++ if settles then [Job.race round effects] else []).filterMap Job.outstanding =
        s.jobs.filterMap Job.outstanding := by
    rw [List.filterMap_append]
    cases settles <;> exact List.append_nil _
  have h_noLoop (settles : Bool) (round : ℕ) (effects' : Effects ρ) :
      .loop effects' ∉ s.jobs ++ if settles then [.race round effects] else [] := by
    intro h_mem
    rcases List.mem_append.mp h_mem with h_old | h_new
    · exact h.noLoop effects' h_old
    · cases eq_race_of_mem h_new
  have h_resolve (settles : Bool) (round : ℕ)
      (h_some : .resolve ∈ (s.jobs ++ if settles then [.race round effects] else []) ∨
        s.result.isSome = true) : .resolve ∈ s.jobs ∨ s.result.isSome = true := by
    refine h_some.imp_left fun h_mem => ?_
    rcases List.mem_append.mp h_mem with h_old | h_new
    · exact h_old
    · cases eq_race_of_mem h_new
  cases effects with
  | inl run =>
    exact h.of_quiet rfl rfl rfl rfl rfl rfl (h_outstanding _ _) (h_noLoop _ _) (h_resolve _ _)
  | inr run =>
    have h_same : (s.replyScheduler.resolveTick run).promise = s.replyScheduler.promise ∧
        (s.replyScheduler.resolveTick run).pendingTasks = s.replyScheduler.pendingTasks := by
      unfold Scheduler.resolveTick
      split <;> exact ⟨rfl, rfl⟩
    exact h.of_quiet rfl rfl h_same.1 h_same.2 rfl rfl (h_outstanding _ _) (h_noLoop _ _) (h_resolve _ _)

/-- The delay of an attempt is over, to no effect. -/
theorem delayed (h : Completing s) (scheduler : Scheduler Unit Unit) (run : Run Unit Unit)
    (reactions : List Reaction) :
    Completing { s with
      requestScheduler := scheduler
      jobs := s.jobs ++ reactions.map (.react (.inl run)) } := by
  have h_none : (reactions.map (.react (.inl run) : Reaction → Job ρ)).filterMap Job.outstanding = [] := by
    rw [List.filterMap_eq_nil_iff]
    intro job h_mem
    obtain ⟨reaction, -, rfl⟩ := List.mem_map.mp h_mem
    rfl
  refine h.of_quiet rfl rfl rfl rfl rfl rfl ?_ ?_ ?_
  · rw [List.filterMap_append, h_none, List.append_nil]
  · intro effects h_mem
    rcases List.mem_append.mp h_mem with h_old | h_new
    · exact h.noLoop effects h_old
    · obtain ⟨_, -, h_eq⟩ := List.mem_map.mp h_new
      cases h_eq
  · refine fun h_some => h_some.imp_left fun h_mem => ?_
    rcases List.mem_append.mp h_mem with h_old | h_new
    · exact h_old
    · obtain ⟨_, -, h_eq⟩ := List.mem_map.mp h_new
      cases h_eq

/-- **A request is replied to**; its reply is to be handled. -/
theorem replied {n : ℕ} {reply : StreamReply} {scheduler : Scheduler ρ StreamReply}
    {run : Run ρ StreamReply} {reactions : List Reaction} (h : Completing s) (h_books : Books s)
    (h_fulfill : s.replyScheduler.fulfill n reply = some (scheduler, run, reactions)) :
    Completing { s with
      replyScheduler := scheduler
      jobs := s.jobs ++ reactions.map (.react (.inr run)) } := by
  obtain ⟨h_task, rfl, rfl, h_pending, rfl⟩ := Scheduler.fulfill_eq_some h_fulfill
  obtain ⟨h_mem_pending, -⟩ := h_books.replies.unresolved _ _ _ h_task h_pending
  have h_fresh : run.1 ∈ s.unhandled := by
    refine mem_unhandled.mpr ⟨h_mem_pending, fun h_mem => ?_⟩
    -- a reply that was handled has come before
    obtain ⟨run', h_run', h_id⟩ := List.mem_map.mp h_mem
    have h_promise := (h_books.handled run' h_run').2
    change run'.1.id = run.1.id at h_id
    rw [h_id, h_pending] at h_promise
    cases h_promise
  -- the reactions of the promise become jobs, a `run` among them when it waits for one
  have h_outstanding : (s.jobs ++ reactions.map (Job.react (.inr run))).filterMap Job.outstanding =
      s.jobs.filterMap Job.outstanding ++ List.replicate (reactions.count .run) run := by
    rw [List.filterMap_append, Job.outstanding_react]
  -- a `run` that was due is for another reply
  have h_other {run' : Run ρ StreamReply} (h_mem : run' ∈ s.jobs.filterMap Job.outstanding) :
      run'.1.id ≠ run.1.id := by
    intro h_id
    have h_promise := (h.outstanding run' h_mem).2
    rw [h_id, h_pending] at h_promise
    cases h_promise
  exact
    { value := h.value
      raced := h.raced
      noLoop := fun effects h_mem => by
        rcases List.mem_append.mp h_mem with h_old | h_new
        · exact h.noLoop effects h_old
        · obtain ⟨_, -, h_eq⟩ := List.mem_map.mp h_new
          cases h_eq
      outstanding := fun run' h_mem => by
        change run' ∈ (s.jobs ++ _).filterMap _ at h_mem
        rw [h_outstanding] at h_mem
        change run'.1 ∈ s.unhandled ∧ Function.update _ _ _ run'.1.id = _
        rcases List.mem_append.mp h_mem with h_old | h_new
        · obtain ⟨h_unhandled, h_promise⟩ := h.outstanding run' h_old
          rw [Function.update_of_ne (h_other h_old)]
          exact ⟨h_unhandled, h_promise⟩
        · rw [List.eq_of_mem_replicate h_new, Function.update_self]
          exact ⟨h_fresh, rfl⟩
      nodup := by
        change (((s.jobs ++ _).filterMap _).map _).Nodup
        rw [h_outstanding, List.map_append, List.map_replicate]
        -- there is at most one `run` for the new reply
        refine h.nodup.append (List.nodup_replicate.mpr (h.once _ _ h_pending)) fun m h_old h_new => ?_
        obtain ⟨run', h_run', rfl⟩ := List.mem_map.mp h_old
        exact h_other h_run' (List.eq_of_mem_replicate h_new)
      waiting := fun t h_mem => by
        change (∃ reply, (t, reply) ∈ (s.jobs ++ _).filterMap _) ∨
          ∃ reactions, Function.update _ _ _ t.id = _ ∧ _
        rw [h_outstanding]
        -- the reply itself is among the jobs now
        by_cases h_id : t.id = run.1.id
        · obtain ⟨h_t, -⟩ := mem_unhandled.mp h_mem
          have h_same : t = run.1 := h_books.replies.eq_of_id h_t h_mem_pending h_id
          subst h_same
          rcases h.waiting run.1 h_mem with ⟨reply, h_old⟩ | ⟨before, h_before, h_run⟩
          · have h_ne := h_other h_old
            exact absurd rfl h_ne
          · rw [h_pending] at h_before
            cases h_before
            refine .inl ⟨run.2, List.mem_append_right _ (List.mem_replicate.mpr ⟨?_, rfl⟩)⟩
            exact Nat.ne_of_gt (List.count_pos_iff.mpr h_run)
        · rw [Function.update_of_ne h_id]
          exact (h.waiting t h_mem).imp_left fun ⟨reply, h_old⟩ =>
            ⟨reply, List.mem_append_left _ h_old⟩
      once := fun m before h_promise => h.once m before (pending_of_update h_promise).2
      completing := h.completing
      resolved := fun h_some => h.resolved <| h_some.imp_left fun h_mem => by
        rcases List.mem_append.mp h_mem with h_old | h_new
        · exact h_old
        · obtain ⟨_, -, h_eq⟩ := List.mem_map.mp h_new
          cases h_eq }

/-- What is left when a reply was handled: all others. -/
theorem unhandled_eraseIdx (h_books : Books s) {run : Run ρ StreamReply} (h_mem : run.1 ∈ s.unhandled)
    (h_handled : s'.handled = s.handled ++ [run])
    (h_pending : s'.replyScheduler.pendingTasks = s.replyScheduler.pendingTasks ∨
      s'.replyScheduler.pendingTasks = (s.replyScheduler.delete run.1).pendingTasks) :
    ∃ i, s.unhandled[i]? = some run.1 ∧ s'.unhandled = s.unhandled.eraseIdx i := by
  have h_nodup : (s.unhandled.map Task.id).Nodup :=
    h_books.replies.nodup.sublist (List.filter_sublist.map Task.id)
  obtain ⟨i, h_get, h_erase⟩ := exists_filter_eq_eraseIdx h_nodup h_mem
  refine ⟨i, h_get, ?_⟩
  rw [← h_erase]
  -- whether it is left among the pending ones or not
  have h_ids (t : Task ρ) : (t.id ∉ s'.handled.map fun run => run.1.id) ↔
      t.id ∉ s.handledIds ∧ t.id ≠ run.1.id := by
    rw [h_handled, List.map_append, List.mem_append, not_or, List.map_singleton, List.mem_singleton]
  unfold Start.unhandled
  rw [List.filter_filter]
  rcases h_pending with h_same | h_deleted
  · rw [h_same]
    apply List.filter_congr
    intro t _
    rw [← Bool.decide_and, decide_eq_decide, h_ids, and_comm]
  · rw [h_deleted]
    unfold Scheduler.delete
    simp only
    rw [List.filter_filter]
    apply List.filter_congr
    intro t _
    rw [← Bool.decide_and, ← Bool.decide_and, decide_eq_decide, h_ids]
    tauto

/-- **A reply is handled**, the last of which lets `complete` resolve. -/
theorem run {run : Run ρ StreamReply} (h : Completing s) (h_books : Books s)
    (h_jobs : s.jobs = .react (.inr run) .run :: rest) {sender : σ}
    (h_after : s' = { s with
      sender := sender
      handled := s.handled ++ [run]
      completing := s.completing - 1
      jobs := rest ++ if s.completing = 1 then [.resolve] else [] }) :
    Completing s' ∧ Books s' := by
  have h_view : Job.outstanding (.react (.inr run) .run : Job ρ) = some run := rfl
  -- the job was due
  have h_cons : s.jobs.filterMap Job.outstanding = run :: rest.filterMap Job.outstanding := by
    rw [h_jobs, List.filterMap_cons_some h_view]
  have h_rest : ∀ job ∈ rest, job ∈ s.jobs := fun job h_mem => h_jobs ▸ List.mem_cons_of_mem _ h_mem
  obtain ⟨h_unhandled, h_promise⟩ := h.outstanding run (h_cons ▸ List.mem_cons_self)
  obtain ⟨h_pending, h_new⟩ := mem_unhandled.mp h_unhandled
  have h_nodup := h.nodup
  rw [h_cons, List.map_cons, List.nodup_cons] at h_nodup
  have h_pos : 0 < s.completing := by
    rw [h.completing]
    exact List.length_pos_of_mem h_unhandled
  -- nothing has resolved yet
  have h_open : ¬(.resolve ∈ s.jobs ∨ s.result.isSome = true) := fun h_some =>
    absurd (h.resolved h_some) (Nat.ne_of_gt h_pos)
  -- `resolve` follows when it was the last one
  have h_jobs' {job : Job ρ} (h_mem : job ∈ s'.jobs) :
      job ∈ rest ∨ job = .resolve ∧ s.completing = 1 := by
    rw [h_after] at h_mem
    rcases List.mem_append.mp h_mem with h_old | h_mem
    · exact .inl h_old
    · split at h_mem
      · next h_one => exact .inr ⟨List.mem_singleton.mp h_mem, h_one⟩
      · cases h_mem
  have h_outstanding : s'.jobs.filterMap Job.outstanding = rest.filterMap Job.outstanding := by
    rw [h_after]
    change List.filterMap _ (rest ++ _) = _
    rw [List.filterMap_append]
    split <;> exact List.append_nil _
  have h_handled : s'.handled = s.handled ++ [run] := by rw [h_after]
  have h_same : s'.replyScheduler.pendingTasks = s.replyScheduler.pendingTasks := by rw [h_after]
  -- the reply is no longer unhandled
  obtain ⟨i, h_get, h_erase⟩ := unhandled_eraseIdx h_books h_unhandled h_handled (.inl h_same)
  -- the others
  have h_left (t : Task ρ) : t ∈ s'.unhandled ↔ t ∈ s.unhandled ∧ t.id ≠ run.1.id := by
    rw [mem_unhandled, mem_unhandled]
    unfold handledIds
    rw [h_after]
    change _ ∧ t.id ∉ (s.handled ++ [run]).map _ ↔ _
    rw [List.map_append, List.mem_append, not_or, List.map_singleton, List.mem_singleton, and_assoc]
  have h_books' := h_books.reply h_pending h_promise h_new sender (.inl rfl)
  have h_length := List.length_eraseIdx_of_lt (List.getElem?_eq_some_iff.mp h_get).1
  refine ⟨?_, ?_⟩
  · exact
      { value := by
          rw [h_after]
          exact h.value
        raced := by
          rw [h_after]
          exact h.raced
        noLoop := fun effects h_mem => by
          rcases h_jobs' h_mem with h_old | ⟨h_eq, -⟩
          · exact h.noLoop effects (h_rest _ h_old)
          · cases h_eq
        outstanding := fun run' h_mem => by
          rw [h_outstanding] at h_mem
          obtain ⟨h_unhandled', h_promise'⟩ := h.outstanding run' (h_cons ▸ List.mem_cons_of_mem _ h_mem)
          refine ⟨(h_left _).mpr ⟨h_unhandled', fun h_id => ?_⟩, ?_⟩
          · exact h_nodup.1 (h_id ▸ List.mem_map_of_mem h_mem)
          · rw [h_after]
            exact h_promise'
        nodup := by
          rw [h_outstanding]
          exact h_nodup.2
        waiting := fun t h_mem => by
          obtain ⟨h_t, h_ne⟩ := (h_left t).mp h_mem
          rw [h_outstanding]
          rcases h.waiting t h_t with ⟨reply, h_old⟩ | h_before
          · rw [h_cons] at h_old
            refine .inl ⟨reply, (List.mem_cons.mp h_old).resolve_left fun h_eq => h_ne ?_⟩
            rw [← h_eq]
          · rw [h_after]
            exact .inr h_before
        once := by
          rw [h_after]
          exact h.once
        completing := by
          rw [h_erase, h_length, ← h.completing, h_after]
        resolved := fun h_some => by
          rw [h_after]
          rcases h_some with h_mem | h_result
          · rcases h_jobs' h_mem with h_old | ⟨-, h_one⟩
            · exact absurd (.inl (h_rest _ h_old)) h_open
            · change s.completing - 1 = 0
              rw [h_one]
          · rw [h_after] at h_result
            exact absurd (.inr h_result) h_open }
  · -- no request is attempted any more
    have h_noAttempt : ∀ run, .react (.inl run) .run ∉ s'.jobs := by
      intro run' h_mem
      rcases h_jobs' h_mem with h_old | ⟨h_eq, -⟩
      · exact h_books.noAttempt run' (h_rest _ h_old)
      · cases h_eq
    rw [h_after] at h_noAttempt ⊢
    exact ⟨h_books'.requests, h_books'.replies, h_books'.attempts, h_noAttempt, h_books'.nodup,
      h_books'.handled, h_books'.covered⟩

end Completing

end Recording

end Start

end Interledger.Pay
