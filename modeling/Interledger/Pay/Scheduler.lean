import Mathlib.Data.List.Nodup
import Mathlib.Data.List.Pairwise
import Mathlib.Logic.Function.Basic
import Mathlib.Tactic.Common

/-!
# The task scheduler of a send loop

`Scheduler` and `PromiseResolver` of `pay/src/senders/index.ts`. A task is a promise of a function. The
scheduler keeps the tasks that were not executed and a **tick**, a promise that the first of them to
resolve settles with its function; `next` replaces the tick and waits for every pending task once more.

A promise is read as the list of the reactions that wait for it. When it is fulfilled they become jobs,
which run one after the other in the order in which they were queued, and a reaction that is added later
is a job at once. A task that was waited for several times therefore leaves several jobs, of which all but
the first must not settle a later tick: the function would be executed twice.

## Main results

* `Racing` — what holds between the scheduler and its jobs while a round of the send loop is awaited;
* `Racing.resolveTick`, `Racing.won`, `Racing.executed`, `Between.next` — how the jobs of a round go
  on, from the settled tick to the next round.
-/

namespace Interledger.Pay

/-- What waits for the promise of a task: the rest of `resolveTick`, or the `then` of `complete`. -/
inductive Reaction
  | resolveTick
  | run
  deriving DecidableEq

/-- A promise: the reactions that wait for it, until it is fulfilled. -/
inductive Promise (α : Type)
  | pending (reactions : List Reaction)
  | fulfilled (value : α)

/-- `then`, for a reaction that has to wait. -/
def Promise.wait {α : Type} (r : Reaction) : Promise α → Promise α
  | .pending reactions => .pending (reactions ++ [r])
  | .fulfilled value => .fulfilled value

/-- A task: the number of its promise, and what the function closes over from the start. -/
structure Task (κ : Type) where
  id : ℕ
  closure : κ

/-- The function a task resolves with, which closes over the value, too. -/
abbrev Run (κ α : Type) := Task κ × α

/-- `Scheduler`: every task that was queued, with its promise, and those that were not executed.
`nextTick` is the function that the tick was resolved with. -/
structure Scheduler (κ α : Type) where
  tasks : List κ := []
  promise : ℕ → Promise α := fun _ => .pending []
  pendingTasks : List (Task κ) := []
  nextTick : Option (Run κ α) := none

namespace Scheduler

variable {κ α : Type} (s : Scheduler κ α)

/-- The functions of the pending tasks whose promises are fulfilled. -/
def resolved : List (Run κ α) :=
  s.pendingTasks.filterMap fun task =>
    match s.promise task.id with
    | .fulfilled value => some (task, value)
    | .pending _ => none

/-- Add a reaction to every pending task. Those that are resolved react at once. -/
def wait (r : Reaction) : Scheduler κ α :=
  { s with
    promise := fun n => if n ∈ s.pendingTasks.map Task.id then (s.promise n).wait r else s.promise n }

/-- `next`. The functions of the tasks that are `resolved` resume `resolveTick` at once. -/
def next : Scheduler κ α := { s.wait .resolveTick with nextTick := none }

/-- `complete`. The functions of the tasks that are `resolved` run at once. -/
def complete : Scheduler κ α := s.wait .run

/-- `queue`, with a promise that is not yet fulfilled. -/
def queue (closure : κ) : Scheduler κ α :=
  { s with
    tasks := s.tasks ++ [closure]
    promise := Function.update s.promise s.tasks.length (.pending [.resolveTick])
    pendingTasks := s.pendingTasks ++ [⟨s.tasks.length, closure⟩] }

/-- The promise of the `n`-th task is fulfilled; its reactions become jobs. -/
def fulfill (n : ℕ) (value : α) : Option (Scheduler κ α × Run κ α × List Reaction) :=
  match s.tasks[n]?, s.promise n with
  | some closure, .pending reactions =>
    some ({ s with promise := Function.update s.promise n (.fulfilled value) }, (⟨n, closure⟩, value),
      reactions)
  | _, _ => none

/-- `nextTick.resolve`, of which only the first call counts. -/
def resolveTick (run : Run κ α) : Scheduler κ α :=
  if s.nextTick.isNone then { s with nextTick := some run } else s

/-- `pendingTasks.delete`. -/
def delete (task : Task κ) : Scheduler κ α :=
  { s with pendingTasks := s.pendingTasks.filter fun t => t.id ≠ task.id }

end Scheduler

/-! ### Records -/

/-- The pending tasks are among those that were queued, and those that are not resolved are pending. -/
structure Recorded {κ α : Type} (s : Scheduler κ α) : Prop where
  nodup : (s.pendingTasks.map Task.id).Nodup
  tasks : ∀ t ∈ s.pendingTasks, s.tasks[t.id]? = some t.closure
  unresolved : ∀ n closure reactions, s.tasks[n]? = some closure → s.promise n = .pending reactions →
    ⟨n, closure⟩ ∈ s.pendingTasks ∧ .resolveTick ∈ reactions

section Records

variable {κ α : Type} {s s' : Scheduler κ α} {t t' : Task κ} {run run' : Run κ α} {n : ℕ} {closure : κ}

namespace Scheduler

theorem mem_resolved : run ∈ s.resolved ↔
    run.1 ∈ s.pendingTasks ∧ s.promise run.1.id = .fulfilled run.2 := by
  obtain ⟨task, value⟩ := run
  unfold resolved
  rw [List.mem_filterMap]
  constructor
  · rintro ⟨t, h_mem, h_some⟩
    cases h_promise : s.promise t.id with
    | pending reactions =>
      rw [h_promise] at h_some
      cases h_some
    | fulfilled value' =>
      rw [h_promise] at h_some
      cases h_some
      exact ⟨h_mem, h_promise⟩
  · rintro ⟨h_mem, h_promise⟩
    refine ⟨task, h_mem, ?_⟩
    rw [h_promise]

theorem resolved_sublist (s : Scheduler κ α) : (s.resolved.map Prod.fst).Sublist s.pendingTasks := by
  unfold resolved
  induction s.pendingTasks with
  | nil => exact .slnil
  | cons task tasks ih =>
    cases h_promise : s.promise task.id with
    | pending reactions =>
      rw [List.filterMap_cons_none (by rw [h_promise])]
      exact ih.cons task
    | fulfilled value =>
      rw [List.filterMap_cons_some (by rw [h_promise])]
      exact ih.cons_cons task

/-- Waiting changes no promise that is fulfilled, -/
theorem promise_wait_eq_fulfilled {r : Reaction} {value : α} :
    (s.wait r).promise n = .fulfilled value ↔ s.promise n = .fulfilled value := by
  change (if _ then (s.promise n).wait r else s.promise n) = _ ↔ _
  split
  · cases s.promise n with
    | pending reactions => exact ⟨fun h => (by cases h), fun h => (by cases h)⟩
    | fulfilled value' => exact Iff.rfl
  · exact Iff.rfl

/-- and only adds to the reactions of one that is not. -/
theorem promise_wait_eq_pending {r : Reaction} {reactions : List Reaction}
    (h : (s.wait r).promise n = .pending reactions) :
    ∃ before, s.promise n = .pending before ∧ ∀ r' ∈ before, r' ∈ reactions := by
  change (if _ then (s.promise n).wait r else s.promise n) = _ at h
  split at h
  · cases h_promise : s.promise n with
    | pending before =>
      rw [h_promise] at h
      cases h
      exact ⟨before, rfl, fun r' h_mem => List.mem_append_left _ h_mem⟩
    | fulfilled value =>
      rw [h_promise] at h
      cases h
  · exact ⟨reactions, h, fun _ h_mem => h_mem⟩

/-- Waiting resolves nothing. -/
theorem resolved_wait (r : Reaction) : (s.wait r).resolved = s.resolved := by
  unfold resolved
  change List.filterMap _ s.pendingTasks = _
  refine List.filterMap_congr fun t _ => ?_
  cases h_promise : s.promise t.id with
  | fulfilled value => rw [promise_wait_eq_fulfilled.mpr h_promise]
  | pending reactions =>
    cases h_after : (s.wait r).promise t.id with
    | pending _ => rfl
    | fulfilled value =>
      rw [promise_wait_eq_fulfilled.mp h_after] at h_promise
      cases h_promise

/-- Nor does a tick that is settled. -/
theorem resolved_resolveTick (run : Run κ α) : (s.resolveTick run).resolved = s.resolved := by
  unfold resolveTick
  split <;> rfl

/-- All that a fulfilled promise changes. -/
theorem fulfill_eq_some {value : α} {reactions : List Reaction}
    (h : s.fulfill n value = some (s', run, reactions)) :
    s.tasks[n]? = some run.1.closure ∧ run.1.id = n ∧ run.2 = value ∧ s.promise n = .pending reactions ∧
      s' = { s with promise := Function.update s.promise n (.fulfilled value) } := by
  unfold fulfill at h
  cases h_task : s.tasks[n]? with
  | none =>
    rw [h_task] at h
    cases h
  | some closure =>
    cases h_promise : s.promise n with
    | fulfilled value' =>
      rw [h_task, h_promise] at h
      cases h
    | pending reactions' =>
      rw [h_task, h_promise] at h
      cases h
      exact ⟨rfl, rfl, rfl, rfl, rfl⟩

end Scheduler

namespace Recorded

open Scheduler

/-- A pending task is told by its number. -/
theorem eq_of_id (h : Recorded s) (h_t : t ∈ s.pendingTasks) (h_t' : t' ∈ s.pendingTasks)
    (h_id : t.id = t'.id) : t = t' :=
  List.inj_on_of_nodup_map h.nodup h_t h_t' h_id

theorem lt (h : Recorded s) (h_t : t ∈ s.pendingTasks) : t.id < s.tasks.length :=
  (List.getElem?_eq_some_iff.mp (h.tasks t h_t)).1

/-- Nothing was queued. -/
theorem empty : Recorded ({} : Scheduler κ α) := ⟨List.nodup_nil, nofun, nofun⟩

theorem queue (h : Recorded s) (closure : κ) : Recorded (s.queue closure) where
  nodup := by
    change ((s.pendingTasks ++ [(⟨s.tasks.length, closure⟩ : Task κ)]).map Task.id).Nodup
    rw [List.map_append]
    refine h.nodup.append (List.nodup_singleton _) fun n h_old h_new => ?_
    -- the number is new
    obtain ⟨t, h_t, rfl⟩ := List.mem_map.mp h_old
    have h_lt := h.lt h_t
    rw [List.mem_singleton.mp h_new] at h_lt
    exact absurd h_lt (Nat.lt_irrefl _)
  tasks := by
    intro t h_t
    change (s.tasks ++ [closure])[t.id]? = _
    rcases List.mem_append.mp h_t with h_old | h_new
    · rw [List.getElem?_append_left (h.lt h_old)]
      exact h.tasks t h_old
    · rw [List.mem_singleton.mp h_new]
      exact List.getElem?_concat_length
  unresolved := by
    intro n c reactions h_task h_promise
    change (s.tasks ++ [closure])[n]? = _ at h_task
    change Function.update s.promise s.tasks.length (.pending [.resolveTick]) n = _ at h_promise
    -- the new task waits for its promise, with the reaction that every promise has at first
    by_cases h_new : n = s.tasks.length
    · rw [h_new, List.getElem?_concat_length] at h_task
      rw [h_new, Function.update_self] at h_promise
      cases h_task
      cases h_promise
      rw [h_new]
      exact ⟨List.mem_append_right _ (List.mem_singleton_self _), List.mem_singleton_self _⟩
    · rw [Function.update_of_ne h_new] at h_promise
      have h_lt : n < s.tasks.length := by
        have h_le := (List.getElem?_eq_some_iff.mp h_task).1
        rw [List.length_append, List.length_singleton] at h_le
        omega
      rw [List.getElem?_append_left h_lt] at h_task
      obtain ⟨h_mem, h_reaction⟩ := h.unresolved n c reactions h_task h_promise
      exact ⟨List.mem_append_left _ h_mem, h_reaction⟩

theorem wait (h : Recorded s) (r : Reaction) : Recorded (s.wait r) where
  nodup := h.nodup
  tasks := h.tasks
  unresolved := by
    intro n c reactions h_task h_promise
    obtain ⟨before, h_before, h_sub⟩ := promise_wait_eq_pending h_promise
    obtain ⟨h_mem, h_reaction⟩ := h.unresolved n c before h_task h_before
    exact ⟨h_mem, h_sub _ h_reaction⟩

theorem next (h : Recorded s) : Recorded s.next where
  nodup := h.nodup
  tasks := h.tasks
  unresolved := (h.wait .resolveTick).unresolved

theorem resolveTick (h : Recorded s) (run : Run κ α) : Recorded (s.resolveTick run) := by
  unfold Scheduler.resolveTick
  split
  · exact ⟨h.nodup, h.tasks, h.unresolved⟩
  · exact h

theorem fulfill (h : Recorded s) {value : α} {reactions : List Reaction}
    (h_fulfill : s.fulfill n value = some (s', run, reactions)) : Recorded s' := by
  obtain ⟨-, -, -, -, rfl⟩ := fulfill_eq_some h_fulfill
  refine ⟨h.nodup, h.tasks, fun m c before h_task h_promise => ?_⟩
  change Function.update s.promise n (.fulfilled value) m = _ at h_promise
  by_cases h_same : m = n
  · rw [h_same, Function.update_self] at h_promise
    cases h_promise
  · rw [Function.update_of_ne h_same] at h_promise
    exact h.unresolved m c before h_task h_promise

theorem delete (h : Recorded s) {value : α} (h_promise : s.promise t.id = .fulfilled value) :
    Recorded (s.delete t) where
  nodup := h.nodup.sublist (List.filter_sublist.map Task.id)
  tasks := fun t' h_t' => h.tasks t' (List.mem_filter.mp h_t').1
  unresolved := by
    intro n c reactions h_task h_pending
    obtain ⟨h_mem, h_reaction⟩ := h.unresolved n c reactions h_task h_pending
    refine ⟨List.mem_filter.mpr ⟨h_mem, decide_eq_true ?_⟩, h_reaction⟩
    -- the task that is deleted was resolved
    change n ≠ t.id
    rintro rfl
    change s.promise t.id = _ at h_pending
    rw [h_promise] at h_pending
    cases h_pending

end Recorded

/-- A promise that is not fulfilled is not resolved. -/
theorem Recorded.resolved_queue (h : Recorded s) (closure : κ) :
    (s.queue closure).resolved = s.resolved := by
  have h_last : Function.update s.promise s.tasks.length (.pending [.resolveTick]) s.tasks.length =
      .pending [.resolveTick] := Function.update_self ..
  unfold Scheduler.resolved
  change List.filterMap _ (s.pendingTasks ++ [_]) = _
  rw [List.filterMap_append]
  have h_none : List.filterMap (fun task =>
      match (s.queue closure).promise task.id with
      | .fulfilled value => some (task, value)
      | .pending _ => none) [(⟨s.tasks.length, closure⟩ : Task κ)] = [] := by
    apply List.filterMap_cons_none
    change (match Function.update s.promise _ _ s.tasks.length with
      | .fulfilled value => some (_, value)
      | .pending _ => none) = none
    rw [h_last]
  rw [h_none, List.append_nil]
  refine List.filterMap_congr fun t h_t => ?_
  have h_old : (s.queue closure).promise t.id = s.promise t.id :=
    Function.update_of_ne (Nat.ne_of_lt (h.lt h_t)) ..
  rw [h_old]

/-- A task that was resolved no longer is when it is deleted. -/
theorem Scheduler.length_resolved_delete (h : run ∈ s.resolved) :
    (s.delete run.1).resolved.length < s.resolved.length := by
  have h_filter : (s.delete run.1).resolved = s.resolved.filter fun r => r.1.id ≠ run.1.id := by
    unfold resolved delete
    simp only
    rw [List.filter_filterMap, List.filterMap_filter]
    refine List.filterMap_congr fun t _ => ?_
    cases s.promise t.id with
    | pending reactions => exact ite_self _
    | fulfilled value =>
      by_cases h_id : t.id = run.1.id
      · rw [Option.filter_some, if_neg (by simp [h_id])]
      · rw [Option.filter_some, if_pos (by simp [h_id])]
  rw [h_filter]
  apply List.length_filter_lt_length_iff_exists.mpr
  exact ⟨run, h, fun h_ne => of_decide_eq_true h_ne rfl⟩

/-! ### Rounds -/

/-- The jobs of a scheduler in a round of the send loop: the rest of `resolveTick`, the reaction of
`Promise.race` to a tick, and the rest of the round that a function has won. -/
inductive RoundJob (κ α : Type)
  | resume (run : Run κ α)
  | race (round : ℕ) (run : Run κ α)
  | loop (run : Run κ α)

/-- **Between two rounds**: the tasks that are about to settle the tick are pending and resolved. -/
structure Between (s : Scheduler κ α) (jobs : List (RoundJob κ α)) (round : ℕ) : Prop where
  resume : ∀ run, .resume run ∈ jobs → run.1 ∈ s.pendingTasks ∧ s.promise run.1.id = .fulfilled run.2
  old : ∀ k run, .race k run ∈ jobs → k ≤ round
  noLoop : ∀ run, .loop run ∉ jobs

/-- **In a round**: the tick was settled by a task that is pending and resolved, which takes part in the
race; as long as it is not settled, every such task is about to settle it. A task that has settled the
tick has no other job left behind the one that it takes part in the race with. -/
structure Racing (s : Scheduler κ α) (jobs : List (RoundJob κ α)) (round : ℕ) (raced : Bool) : Prop where
  resume : ∀ run, .resume run ∈ jobs → run.1 ∈ s.pendingTasks ∧ s.promise run.1.id = .fulfilled run.2
  tick : ∀ run, s.nextTick = some run → run.1 ∈ s.pendingTasks ∧ s.promise run.1.id = .fulfilled run.2
  resumes : s.nextTick = none → ∀ run, run.1 ∈ s.pendingTasks → s.promise run.1.id = .fulfilled run.2 →
    .resume run ∈ jobs
  old : ∀ k run, .race k run ∈ jobs → k ≤ round
  tick_of_race : ∀ run, .race round run ∈ jobs → s.nextTick = some run
  race_of_tick : raced = false → ∀ run, s.nextTick = some run → .race round run ∈ jobs
  order : jobs.Pairwise fun a b => ∀ run, a = .race round run → b ≠ .resume run
  loop : ∀ run, .loop run ∈ jobs → raced = true ∧ s.nextTick = some run ∧ .resume run ∉ jobs

variable {jobs rest new : List (RoundJob κ α)} {round k : ℕ} {raced : Bool}

namespace Between

theorem queue (h : Between s jobs round) (h_recorded : Recorded s) (closure : κ) :
    Between (s.queue closure) jobs round where
  resume := by
    intro run h_run
    obtain ⟨h_mem, h_promise⟩ := h.resume run h_run
    refine ⟨List.mem_append_left _ h_mem, ?_⟩
    change Function.update s.promise s.tasks.length _ run.1.id = _
    rw [Function.update_of_ne (Nat.ne_of_lt (h_recorded.lt h_mem))]
    exact h_promise
  old := h.old
  noLoop := h.noLoop

/-- **A round begins.** -/
theorem next (h : Between s jobs round) :
    Racing s.next (jobs ++ s.resolved.map .resume) (round + 1) false where
  resume := by
    intro run h_run
    change run.1 ∈ s.pendingTasks ∧ (s.wait .resolveTick).promise run.1.id = _
    rw [Scheduler.promise_wait_eq_fulfilled]
    -- what resumes is what was fulfilled when the round began
    rcases List.mem_append.mp h_run with h_old | h_new
    · exact h.resume run h_old
    · obtain ⟨run', h_mem, h_eq⟩ := List.mem_map.mp h_new
      obtain rfl := RoundJob.resume.inj h_eq
      exact Scheduler.mem_resolved.mp h_mem
  tick := by
    intro run h_none
    cases h_none
  resumes := by
    intro _ run h_mem h_promise
    change (s.wait .resolveTick).promise run.1.id = _ at h_promise
    rw [Scheduler.promise_wait_eq_fulfilled] at h_promise
    -- a promise that is there has its job in this round
    exact List.mem_append_right _ (List.mem_map_of_mem (Scheduler.mem_resolved.mpr ⟨h_mem, h_promise⟩))
  old := by
    intro k run h_race
    rcases List.mem_append.mp h_race with h_old | h_new
    · exact Nat.le_succ_of_le (h.old k run h_old)
    · obtain ⟨_, -, h_eq⟩ := List.mem_map.mp h_new
      cases h_eq
  tick_of_race := by
    intro run h_race
    rcases List.mem_append.mp h_race with h_old | h_new
    · -- the races are of earlier rounds
      exact absurd (h.old _ run h_old) (Nat.not_succ_le_self round)
    · obtain ⟨_, -, h_eq⟩ := List.mem_map.mp h_new
      cases h_eq
  race_of_tick := by
    intro _ run h_none
    cases h_none
  order := by
    -- no task takes part in the new race yet
    refine List.pairwise_of_forall_mem_list fun a h_a b _ run h_eq => ?_
    subst h_eq
    rcases List.mem_append.mp h_a with h_old | h_new
    · exact absurd (h.old _ run h_old) (Nat.not_succ_le_self round)
    · obtain ⟨_, -, h_eq⟩ := List.mem_map.mp h_new
      cases h_eq
  loop := by
    intro run h_loop
    rcases List.mem_append.mp h_loop with h_old | h_new
    · exact absurd h_old (h.noLoop run)
    · obtain ⟨_, -, h_eq⟩ := List.mem_map.mp h_new
      cases h_eq

end Between

namespace Racing

/-- A promise is fulfilled during a round. -/
theorem fulfill (h : Racing s jobs round raced) (h_recorded : Recorded s) {value : α}
    {reactions : List Reaction} (h_fulfill : s.fulfill n value = some (s', run, reactions))
    (h_new : ∀ job ∈ new, job = .resume run) (h_resume : .resume run ∈ new) :
    Racing s' (jobs ++ new) round raced := by
  -- the promise was pending, and the task is recorded
  obtain ⟨h_task, rfl, rfl, h_pending, rfl⟩ := Scheduler.fulfill_eq_some h_fulfill
  obtain ⟨h_mem, -⟩ := h_recorded.unresolved _ _ _ h_task h_pending
  -- nothing was resolved with this task so far
  have h_other {run' : Run κ α} (h_promise : s.promise run'.1.id = .fulfilled run'.2) :
      run' ≠ run ∧ Function.update s.promise run.1.id (.fulfilled run.2) run'.1.id = .fulfilled run'.2 := by
    have h_ne : run'.1.id ≠ run.1.id := by
      intro h_same
      rw [h_same, h_pending] at h_promise
      cases h_promise
    refine ⟨fun h_eq => h_ne (by rw [h_eq]), ?_⟩
    rw [Function.update_of_ne h_ne]
    exact h_promise
  have h_old {job : RoundJob κ α} (h_job : job ∈ jobs ++ new) (h_ne : ∀ run', job ≠ .resume run') :
      job ∈ jobs := by
    rcases List.mem_append.mp h_job with h_job | h_job
    · exact h_job
    · exact absurd (h_new job h_job) (h_ne run)
  exact
    { resume := fun run' h_run' => by
        rcases List.mem_append.mp h_run' with h_job | h_job
        · obtain ⟨h_mem', h_promise⟩ := h.resume run' h_job
          exact ⟨h_mem', (h_other h_promise).2⟩
        · obtain rfl := RoundJob.resume.inj (h_new _ h_job)
          exact ⟨h_mem, Function.update_self ..⟩
      tick := fun run' h_tick => by
        obtain ⟨h_mem', h_promise⟩ := h.tick run' h_tick
        exact ⟨h_mem', (h_other h_promise).2⟩
      resumes := fun h_none run' h_mem' h_promise => by
        change Function.update s.promise run.1.id _ run'.1.id = _ at h_promise
        by_cases h_same : run'.1.id = run.1.id
        · rw [h_same, Function.update_self] at h_promise
          have h_task' : run'.1 = run.1 := h_recorded.eq_of_id h_mem' h_mem h_same
          have h_run : run' = run := Prod.ext h_task' (Promise.fulfilled.inj h_promise).symm
          rw [h_run]
          exact List.mem_append_right _ h_resume
        · rw [Function.update_of_ne h_same] at h_promise
          exact List.mem_append_left _ (h.resumes h_none run' h_mem' h_promise)
      old := fun k run' h_race => h.old k run' (h_old h_race fun _ => nofun)
      tick_of_race := fun run' h_race => h.tick_of_race run' (h_old h_race fun _ => nofun)
      race_of_tick := fun h_raced run' h_tick => List.mem_append_left _ (h.race_of_tick h_raced run' h_tick)
      order := by
        refine List.pairwise_append.mpr ⟨h.order, ?_, fun a h_a b h_b run' h_race h_eq => ?_⟩
        · refine List.pairwise_of_forall_mem_list fun a h_a b _ run' h_race => ?_
          rw [h_new a h_a] at h_race
          cases h_race
        · subst h_race
          obtain rfl := RoundJob.resume.inj ((h_new b h_b).symm.trans h_eq)
          exact (h_other (h.tick _ (h.tick_of_race _ h_a)).2).1 rfl
      loop := fun run' h_loop => by
        obtain ⟨h_raced, h_tick, h_resume'⟩ := h.loop run' (h_old h_loop fun _ => nofun)
        refine ⟨h_raced, h_tick, fun h_job => ?_⟩
        rcases List.mem_append.mp h_job with h_job | h_job
        · exact h_resume' h_job
        · obtain rfl := RoundJob.resume.inj (h_new _ h_job)
          exact (h_other (h.tick _ h_tick).2).1 rfl }

/-- **The tick is settled** by the first task that is resumed. -/
theorem resolveTick (h : Racing s (.resume run :: rest) round raced) :
    Racing (s.resolveTick run) (rest ++ if s.nextTick.isNone then [.race round run] else []) round
      raced := by
  obtain ⟨h_mem, h_promise⟩ := h.resume run List.mem_cons_self
  have h_order := (List.pairwise_cons.mp h.order).2
  cases h_tick : s.nextTick with
  | none =>
    have h_settled : s.resolveTick run = { s with nextTick := some run } := by
      unfold Scheduler.resolveTick
      rw [h_tick]
      rfl
    -- a race would have settled the tick
    have h_no (run' : Run κ α) : .race round run' ∉ rest := by
      intro h_race
      have h_some := h.tick_of_race run' (List.mem_cons_of_mem _ h_race)
      rw [h_tick] at h_some
      cases h_some
    have h_raced : ∀ run', .race round run' ∈ rest ++ [.race round run] → run' = run := by
      intro run' h_race
      rcases List.mem_append.mp h_race with h_job | h_job
      · exact absurd h_job (h_no run')
      · rw [List.mem_singleton, RoundJob.race.injEq] at h_job
        exact h_job.2
    rw [h_settled]
    change Racing _ (rest ++ [.race round run]) round raced
    exact
      { resume := fun run' h_run' => by
          rcases List.mem_append.mp h_run' with h_job | h_job
          · exact h.resume run' (List.mem_cons_of_mem _ h_job)
          · cases List.mem_singleton.mp h_job
        tick := fun run' h_some => by
          cases h_some
          exact ⟨h_mem, h_promise⟩
        resumes := fun h_none => (by cases h_none)
        old := fun k run' h_race => by
          rcases List.mem_append.mp h_race with h_job | h_job
          · exact h.old k run' (List.mem_cons_of_mem _ h_job)
          · rw [List.mem_singleton, RoundJob.race.injEq] at h_job
            exact Nat.le_of_eq h_job.1
        tick_of_race := fun run' h_race => by
          rw [h_raced run' h_race]
        race_of_tick := fun _ run' h_some => by
          cases h_some
          exact List.mem_append_right _ (List.mem_singleton_self _)
        order := by
          refine List.pairwise_append.mpr
            ⟨h_order, List.pairwise_singleton _ _, fun a h_a b h_b run' h_race => ?_⟩
          rw [List.mem_singleton.mp h_b]
          exact nofun
        loop := fun run' h_loop => by
          rcases List.mem_append.mp h_loop with h_job | h_job
          · obtain ⟨-, h_some, -⟩ := h.loop run' (List.mem_cons_of_mem _ h_job)
            rw [h_tick] at h_some
            cases h_some
          · cases List.mem_singleton.mp h_job }
  | some first =>
    have h_same : s.resolveTick run = s := by
      unfold Scheduler.resolveTick
      rw [h_tick]
      rfl
    rw [h_same]
    change Racing s (rest ++ []) round raced
    rw [List.append_nil]
    exact
      { resume := fun run' h_run' => h.resume run' (List.mem_cons_of_mem _ h_run')
        tick := h.tick
        resumes := fun h_none => by
          rw [h_tick] at h_none
          cases h_none
        old := fun k run' h_race => h.old k run' (List.mem_cons_of_mem _ h_race)
        tick_of_race := fun run' h_race => h.tick_of_race run' (List.mem_cons_of_mem _ h_race)
        race_of_tick := fun h_raced run' h_some =>
          (List.mem_cons.mp (h.race_of_tick h_raced run' h_some)).resolve_left nofun
        order := h_order
        loop := fun run' h_loop => by
          obtain ⟨h_raced, h_some, h_resume⟩ := h.loop run' (List.mem_cons_of_mem _ h_loop)
          exact ⟨h_raced, h_some, fun h_job => h_resume (List.mem_cons_of_mem _ h_job)⟩ }

/-- **The race is won**, by a task that has no other job left. -/
theorem won (h : Racing s (.race round run :: rest) round false) :
    Racing s (rest ++ [.loop run]) round true := by
  obtain ⟨h_first, h_order⟩ := List.pairwise_cons.mp h.order
  have h_tick := h.tick_of_race run List.mem_cons_self
  have h_old {job : RoundJob κ α} (h_job : job ∈ rest ++ [.loop run]) (h_ne : ∀ run', job ≠ .loop run') :
      job ∈ .race round run :: rest := by
    rcases List.mem_append.mp h_job with h_job | h_job
    · exact List.mem_cons_of_mem _ h_job
    · exact absurd (List.mem_singleton.mp h_job) (h_ne run)
  exact
    { resume := fun run' h_run' => h.resume run' (h_old h_run' fun _ => nofun)
      tick := h.tick
      resumes := fun h_none => by
        rw [h_tick] at h_none
        cases h_none
      old := fun k run' h_race => h.old k run' (h_old h_race fun _ => nofun)
      tick_of_race := fun run' h_race => h.tick_of_race run' (h_old h_race fun _ => nofun)
      race_of_tick := fun h_raced => (by cases h_raced)
      order := by
        refine List.pairwise_append.mpr
          ⟨h_order, List.pairwise_singleton _ _, fun a h_a b h_b run' h_race => ?_⟩
        rw [List.mem_singleton.mp h_b]
        exact nofun
      loop := fun run' h_loop => by
        rcases List.mem_append.mp h_loop with h_job | h_job
        · obtain ⟨h_raced, -⟩ := h.loop run' (List.mem_cons_of_mem _ h_job)
          cases h_raced
        · obtain rfl := RoundJob.loop.inj (List.mem_singleton.mp h_job)
          refine ⟨rfl, h_tick, fun h_resume => ?_⟩
          rcases List.mem_append.mp h_resume with h_job' | h_job'
          · exact h_first _ h_job' run' rfl rfl
          · cases List.mem_singleton.mp h_job' }

/-- The race is won by the other scheduler's task. -/
theorem lost (h : Racing s jobs round raced) : Racing s jobs round true :=
  { h with
    race_of_tick := fun h_raced => (by cases h_raced)
    loop := fun run' h_loop => ⟨rfl, (h.loop run' h_loop).2⟩ }

/-- A race that is over. -/
theorem stale (h : Racing s (.race k run :: rest) round raced) (h_over : k ≠ round ∨ raced = true) :
    Racing s rest round raced where
  resume := fun run' h_run' => h.resume run' (List.mem_cons_of_mem _ h_run')
  tick := h.tick
  resumes := fun h_none run' h_mem h_promise =>
    (List.mem_cons.mp (h.resumes h_none run' h_mem h_promise)).resolve_left nofun
  old := fun k run' h_race => h.old k run' (List.mem_cons_of_mem _ h_race)
  tick_of_race := fun run' h_race => h.tick_of_race run' (List.mem_cons_of_mem _ h_race)
  race_of_tick := by
    intro h_raced run' h_tick
    refine List.mem_of_ne_of_mem (fun h_eq => ?_) (h.race_of_tick h_raced run' h_tick)
    rw [RoundJob.race.injEq] at h_eq
    rcases h_over with h_old | h_won
    · exact h_old h_eq.1.symm
    · rw [h_raced] at h_won
      cases h_won
  order := (List.pairwise_cons.mp h.order).2
  loop := by
    intro run' h_loop
    obtain ⟨h_raced, h_tick, h_resume⟩ := h.loop run' (List.mem_cons_of_mem _ h_loop)
    exact ⟨h_raced, h_tick, fun h_job => h_resume (List.mem_cons_of_mem _ h_job)⟩

/-- **The winner is executed**: it is no longer pending, and nothing is about to settle a tick with it. -/
theorem executed (h : Racing s (.loop run :: rest) round raced) (h_recorded : Recorded s)
    (h_loop : ∀ run', .loop run' ∉ rest) : Between (s.delete run.1) rest round where
  resume := by
    intro run' h_run'
    obtain ⟨-, h_tick, h_no⟩ := h.loop run List.mem_cons_self
    obtain ⟨h_mem, h_promise⟩ := h.tick run h_tick
    obtain ⟨h_mem', h_promise'⟩ := h.resume run' (List.mem_cons_of_mem _ h_run')
    refine ⟨List.mem_filter.mpr ⟨h_mem', decide_eq_true fun h_id => ?_⟩, h_promise'⟩
    -- it would be the winner itself
    have h_task : run'.1 = run.1 := h_recorded.eq_of_id h_mem' h_mem h_id
    rw [h_task, h_promise] at h_promise'
    have h_run : run' = run := Prod.ext h_task (Promise.fulfilled.inj h_promise').symm
    exact h_no (h_run ▸ List.mem_cons_of_mem _ h_run')
  old := fun k run' h_race => h.old k run' (List.mem_cons_of_mem _ h_race)
  noLoop := h_loop

/-- The winner of the other scheduler is executed. -/
theorem between (h : Racing s jobs round raced) (h_loop : ∀ run', .loop run' ∉ jobs) :
    Between s jobs round :=
  ⟨h.resume, h.old, h_loop⟩

end Racing

end Records

end Interledger.Pay
