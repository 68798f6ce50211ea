import Interledger.Lib.OrderedMap
import Interledger.Payout.Progress
import Mathlib.Algebra.Order.BigOperators.Group.List

/-!
# Payouts to many pointers

`Payout` of `ilp-spsp-payout/src/index.ts` keeps a payout connection for each payment pointer that it was
asked to pay, and closes the ones that were not used for a while. A timer looks whether that is so, and is
set again if it is not. A pointer that was closed gets a new connection when it is used again.

Time passes between the events, and a timer fires at any time from when it is due. What happens to a
connection in between are the events of its own machine. The amounts that `send` was called with are noted
in `asked`, and those of the calls that threw in `refused`; the program does not look at either.

`send` throws for a pointer without an entry when no connection can be made for it: `$` for one resolves to
no URL. `payouts` is a plain object, which inherits some properties, so that the name of one of them, such as
`constructor`, is taken for an entry that has no connection. Which names these are may change while the
program runs, and so every call comes with how it turns out for a pointer without an entry.

## Main results

* `Tended.step` — what a pointer has: an entry, an open connection and a timer, or none of them;
* `payouts_are_tended` — in every run, and that every amount is taken on, unless `send` threw;
* `payouts_never_overpay` — no pointer is paid more than was asked for it, in runs without late effects.
-/

namespace Interledger.Payout

/-- `CLEANUP_TIMEOUT`, in milliseconds. -/
def cleanupTimeout : ℕ := 30 * 1000

/-- What `payouts` has for a pointer: the position of its connection, and when it was used last. -/
structure Entry where
  connection : ℕ
  lastSent : ℕ
  deriving DecidableEq

/-- A timer that `makeTimer` has set. -/
structure CleanupTimer (κ : Type) where
  pointer : κ
  due : ℕ
  deriving DecidableEq

/-- What `send` throws for a pointer that has no entry. -/
inductive SendError
  /-- `createPlugin` has thrown, or `resolvePaymentPointer`: "Invalid URL". -/
  | notCreated
  /-- "Cannot read property 'send' of undefined", of what `payouts` inherits under that name. -/
  | inherited
  deriving DecidableEq

/-- `Payout`, with all the connections it has created and the time. -/
structure Payouts (κ : Type) where
  now : ℕ := 0
  payouts : OrderedMap κ Entry := .empty
  timers : List (CleanupTimer κ) := []
  connections : List (κ × PayoutConnection) := []
  asked : List (κ × ℕ) := []
  refused : List (κ × ℕ × SendError) := []

/-- The calls that a connection gets from its owner only. -/
def PayoutEvent.isCall : PayoutEvent → Bool
  | .send _ => true
  | .close => true
  | _ => false

/-- What happens to the payouts. -/
inductive PayoutsEvent (κ : Type)
  /-- Time passes. -/
  | tick (ms : ℕ)
  /-- The call of `send`, with what it throws if the pointer has no entry. -/
  | send (pointer : κ) (amount : ℕ) (error : Option SendError)
  /-- A timer fires. -/
  | timeout (i : ℕ)
  /-- Something happens to a connection. -/
  | connection (i : ℕ) (e : PayoutEvent)

namespace Payouts

variable {κ : Type} [DecidableEq κ] (maxRetries : ℕ) (s : Payouts κ)

/-- `makeTimer`. The least delay is one millisecond. -/
def makeTimer (pointer : κ) (duration : ℕ) : Payouts κ :=
  { s with timers := s.timers ++ [{ pointer, due := s.now + max 1 duration }] }

/-- A connection is called. -/
def call (i : ℕ) (e : PayoutEvent) : Payouts κ :=
  match s.connections[i]? with
  | none => s
  | some (pointer, c) =>
    { s with connections := s.connections.set i (pointer, (c.step maxRetries e).getD c) }

/-- `send`. An entry of its own is found whatever is inherited. -/
def send (pointer : κ) (amount : ℕ) (error : Option SendError) : Payouts κ :=
  let s := { s with asked := s.asked ++ [(pointer, amount)] }
  match s.payouts.get? pointer with
  | none =>
    match error with
    | some error => { s with refused := s.refused ++ [(pointer, amount, error)] }
    | none =>
      call maxRetries
        { s.makeTimer pointer cleanupTimeout with
          payouts := s.payouts.set pointer { connection := s.connections.length, lastSent := s.now }
          connections := s.connections ++ [(pointer, ({} : PayoutConnection))] }
        s.connections.length (.send amount)
  | some entry =>
    call maxRetries { s with payouts := s.payouts.set pointer { entry with lastSent := s.now } }
      entry.connection (.send amount)

/-- `expirePaymentPointer`, which reads the clock once here. -/
def expirePaymentPointer (pointer : κ) : Payouts κ :=
  match s.payouts.get? pointer with
  | none => s
  | some entry =>
    if s.now - entry.lastSent > cleanupTimeout then
      call maxRetries { s with payouts := s.payouts.erase pointer } entry.connection .close
    else s.makeTimer pointer (cleanupTimeout - (s.now - entry.lastSent))

/-- One event. -/
def step : PayoutsEvent κ → Option (Payouts κ)
  | .tick ms => some { s with now := s.now + ms }
  | .send pointer amount error => some (s.send maxRetries pointer amount error)
  | .timeout i =>
    s.timers[i]?.bind fun timer =>
      if timer.due ≤ s.now then
        some (expirePaymentPointer maxRetries { s with timers := s.timers.eraseIdx i } timer.pointer)
      else none
  | .connection i e =>
    if e.isCall then none
    else
      s.connections[i]?.bind fun p =>
        (p.2.step maxRetries e).map fun c => { s with connections := s.connections.set i (p.1, c) }

/-- The runs of the payouts. -/
def machine : Machine (Payouts κ) (PayoutsEvent κ) where
  init s := s = {}
  step s := s.step maxRetries

/-- An amount of each connection of a pointer, summed up. -/
def sumFor (f : PayoutConnection → ℕ) (pointer : κ) : ℕ :=
  (s.connections.map fun p => if p.1 = pointer then f p.2 else 0).sum

/-- All that `send` was called with for a pointer. -/
def askedFor (pointer : κ) : ℕ := (s.asked.map fun p => if p.1 = pointer then p.2 else 0).sum

/-- What the calls that threw for a pointer were to send. -/
def refusedFor (pointer : κ) : ℕ := (s.refused.map fun p => if p.1 = pointer then p.2.1 else 0).sum

/-- A pointer has an entry, one open connection and one timer, or none of these. The timer is due when the
entry may have expired. -/
structure Tended (s : Payouts κ) (k : κ) : Prop where
  past : ∀ entry, s.payouts.get? k = some entry → entry.lastSent ≤ s.now
  /-- `send` finds a connection that is not closing. -/
  connection : ∀ entry, s.payouts.get? k = some entry →
    ∃ c, s.connections[entry.connection]? = some (k, c) ∧ c.closing = false
  only : ∀ (i : ℕ) (c : PayoutConnection), s.connections[i]? = some (k, c) → c.closing = false →
    ∃ entry, s.payouts.get? k = some entry ∧ entry.connection = i
  timers : s.timers.countP (fun timer => timer.pointer = k) = if (s.payouts.get? k).isSome then 1 else 0
  due : ∀ timer ∈ s.timers, timer.pointer = k → ∀ entry, s.payouts.get? k = some entry →
    timer.due ≤ entry.lastSent + cleanupTimeout + 1

end Payouts

open Payouts

variable {κ : Type} {maxRetries : ℕ} {s t : Payouts κ} {k k' : κ}

/-! ### Calls on a connection -/

theorem frame_of_not_isCall {e : PayoutEvent} {c c' : PayoutConnection} (h_call : ¬e.isCall = true)
    (h_step : c.step maxRetries e = some c') :
    c'.target = c.target ∧ c'.requested = c.requested ∧ c'.closing = c.closing := by
  refine frame_of_step ?_ ?_ h_step
  · rintro amount rfl
    exact h_call rfl
  · rintro rfl
    exact h_call rfl

theorem send_closing (c : PayoutConnection) (amount : ℕ) :
    (c.send maxRetries amount).closing = c.closing := by
  unfold PayoutConnection.send
  simp only
  split
  · rfl
  · split
    · split
      · rfl
      · exact safeTrySending_closing
    · exact safeTrySending_closing

theorem send_target (c : PayoutConnection) (amount : ℕ) (h_open : c.closing = false) :
    (c.send maxRetries amount).target = c.target + amount := by
  unfold PayoutConnection.send
  simp only
  rw [if_neg (by rw [h_open]; exact Bool.false_ne_true)]
  split
  · split
    · rfl
    · exact safeTrySending_target
  · exact safeTrySending_target

theorem call_of_get {l : List (κ × PayoutConnection)} {i : ℕ} {e : PayoutEvent} {c c' : PayoutConnection}
    (h_get : l[i]? = some (k, c)) (h_step : c.step maxRetries e = some c') (now : ℕ)
    (payouts : OrderedMap κ Entry) (timers : List (CleanupTimer κ)) (asked : List (κ × ℕ))
    (refused : List (κ × ℕ × SendError)) :
    Payouts.call maxRetries { now, payouts, timers, connections := l, asked, refused } i e
      = { now, payouts, timers, connections := l.set i (k, c'), asked, refused } := by
  unfold Payouts.call
  rw [h_get]
  simp only
  rw [h_step, Option.getD_some]

theorem call_asked (i : ℕ) (e : PayoutEvent) :
    (s.call maxRetries i e).asked = s.asked ∧ (s.call maxRetries i e).refused = s.refused := by
  unfold Payouts.call
  split
  · exact ⟨rfl, rfl⟩
  · exact ⟨rfl, rfl⟩

/-! ### What a pointer has -/

/-- The connections of the other pointers, when one is replaced. -/
theorem getElem?_set_other {l : List (κ × PayoutConnection)} {i : ℕ} {c : PayoutConnection}
    (h_get : l[i]? = some (k', c)) (c' : PayoutConnection) (h_ne : k ≠ k') (j : ℕ) (d : PayoutConnection) :
    (l.set i (k', c'))[j]? = some (k, d) ↔ l[j]? = some (k, d) := by
  by_cases h_eq : i = j
  · subst h_eq
    rw [List.getElem?_set_self (List.getElem?_eq_some_iff.mp h_get).1, h_get]
    constructor
    · intro h
      exact absurd (Prod.mk.inj (Option.some.inj h)).1.symm h_ne
    · intro h
      exact absurd (Prod.mk.inj (Option.some.inj h)).1.symm h_ne
  · rw [List.getElem?_set_ne h_eq]

/-- The connections of the other pointers, when one is added. -/
theorem getElem?_append_other (l : List (κ × PayoutConnection)) (c : PayoutConnection) (h_ne : k ≠ k')
    (j : ℕ) (d : PayoutConnection) : (l ++ [(k', c)])[j]? = some (k, d) ↔ l[j]? = some (k, d) := by
  by_cases h_lt : j < l.length
  · rw [List.getElem?_append_left h_lt]
  · rw [List.getElem?_append_right (not_lt.mp h_lt), List.getElem?_eq_none (not_lt.mp h_lt)]
    constructor
    · intro h
      have h_mem := List.mem_singleton.mp (List.mem_of_getElem? h)
      exact absurd (Prod.mk.inj h_mem).1 h_ne
    · nofun

variable [DecidableEq κ]

namespace Payouts.Tended

theorem initial : Tended ({} : Payouts κ) k where
  past _ h := by cases h
  connection _ h := by cases h
  only i c h := by cases h
  timers := rfl
  due timer h := absurd h List.not_mem_nil

/-- What happens to other pointers, and the passing of time. -/
theorem of_same (h : Tended s k) (h_now : s.now ≤ t.now) (h_get : t.payouts.get? k = s.payouts.get? k)
    (h_connections : ∀ (i : ℕ) (c : PayoutConnection),
      t.connections[i]? = some (k, c) ↔ s.connections[i]? = some (k, c))
    (h_count : t.timers.countP (fun timer => timer.pointer = k)
      = s.timers.countP fun timer => timer.pointer = k)
    (h_timers : ∀ timer ∈ t.timers, timer.pointer = k → timer ∈ s.timers) : Tended t k where
  past entry h_entry := (h.past entry (h_get ▸ h_entry)).trans h_now
  connection entry h_entry := by
    obtain ⟨c, h_at, h_open⟩ := h.connection entry (h_get ▸ h_entry)
    exact ⟨c, (h_connections _ c).mpr h_at, h_open⟩
  only i c h_at h_open := by
    rw [h_get]
    exact h.only i c ((h_connections i c).mp h_at) h_open
  timers := by rw [h_count, h_get, h.timers]
  due timer h_mem h_pointer entry h_entry :=
    h.due timer (h_timers timer h_mem h_pointer) h_pointer entry (h_get ▸ h_entry)

/-- A connection changes, and is not closed. -/
theorem setConnection {i : ℕ} {c c' : PayoutConnection} (h : Tended s k)
    (h_get : s.connections[i]? = some (k', c)) (h_closing : c'.closing = c.closing) :
    Tended { s with connections := s.connections.set i (k', c') } k := by
  have h_lt : i < s.connections.length := (List.getElem?_eq_some_iff.mp h_get).1
  refine ⟨h.past, ?_, ?_, h.timers, h.due⟩
  · intro entry h_entry
    obtain ⟨d, h_at, h_open⟩ := h.connection entry h_entry
    by_cases h_eq : i = entry.connection
    · obtain ⟨rfl, rfl⟩ := Prod.mk.inj (Option.some.inj ((h_eq ▸ h_get).symm.trans h_at))
      refine ⟨c', ?_, h_closing.trans h_open⟩
      show (s.connections.set i (k', c'))[entry.connection]? = _
      rw [← h_eq, List.getElem?_set_self h_lt]
    · exact ⟨d, (List.getElem?_set_ne h_eq).trans h_at, h_open⟩
  · intro j d h_at h_open
    rcases getElem?_set_cases h_at with ⟨rfl, h_same⟩ | ⟨-, h_old⟩
    · obtain ⟨rfl, rfl⟩ := Prod.mk.inj h_same
      exact h.only j c h_get (h_closing.symm.trans h_open)
    · exact h.only j d h_old h_open

/-- A pointer without an entry gets one. -/
theorem create (h : Tended s k) (h_none : s.payouts.get? k = none) :
    Tended
      { s.makeTimer k cleanupTimeout with
        payouts := s.payouts.set k { connection := s.connections.length, lastSent := s.now }
        connections := s.connections ++ [(k, ({} : PayoutConnection))] } k := by
  -- no timer was left for it
  have h_zero : s.timers.countP (fun timer => timer.pointer = k) = 0 := by
    rw [h.timers, h_none]
    rfl
  refine ⟨?_, ?_, ?_, ?_, ?_⟩
  · intro entry h_entry
    rw [OrderedMap.get?_set_self] at h_entry
    obtain rfl := Option.some.inj h_entry
    exact le_rfl
  · -- the connection is the last one, and it is not closing
    intro entry h_entry
    rw [OrderedMap.get?_set_self] at h_entry
    obtain rfl := Option.some.inj h_entry
    exact ⟨{}, List.getElem?_concat_length, rfl⟩
  · -- no other connection for it is open
    intro i c h_at h_open
    by_cases h_lt : i < s.connections.length
    · rw [List.getElem?_append_left h_lt] at h_at
      obtain ⟨entry, h_entry, -⟩ := h.only i c h_at h_open
      exact absurd (h_none.symm.trans h_entry) nofun
    · exact ⟨_, OrderedMap.get?_set_self, (eq_length_of_getElem?_concat h_lt h_at).symm⟩
  · show (s.timers ++ [_]).countP _ = _
    rw [List.countP_append, h_zero, OrderedMap.get?_set_self]
    simp
  · intro timer h_mem h_pointer entry h_entry
    rw [OrderedMap.get?_set_self] at h_entry
    obtain rfl := Option.some.inj h_entry
    rcases List.mem_append.mp h_mem with h_old | h_new
    · -- no timer was left from before
      have h_not := List.countP_eq_zero.mp h_zero timer h_old
      exact absurd (decide_eq_true h_pointer) h_not
    · obtain rfl := List.mem_singleton.mp h_new
      show s.now + max 1 cleanupTimeout ≤ s.now + cleanupTimeout + 1
      omega

/-- A pointer is used again. -/
theorem touch {entry : Entry} (h : Tended s k) (h_entry : s.payouts.get? k = some entry) :
    Tended { s with payouts := s.payouts.set k { entry with lastSent := s.now } } k := by
  refine ⟨?_, ?_, ?_, ?_, ?_⟩
  · intro entry' h_entry'
    rw [OrderedMap.get?_set_self] at h_entry'
    obtain rfl := Option.some.inj h_entry'
    exact le_rfl
  · intro entry' h_entry'
    rw [OrderedMap.get?_set_self] at h_entry'
    obtain rfl := Option.some.inj h_entry'
    exact h.connection entry h_entry
  · intro i c h_at h_open
    obtain ⟨found, h_found, h_connection⟩ := h.only i c h_at h_open
    obtain rfl := Option.some.inj (h_entry.symm.trans h_found)
    exact ⟨_, OrderedMap.get?_set_self, h_connection⟩
  · rw [OrderedMap.get?_set_self]
    show s.timers.countP _ = _
    rw [h.timers, h_entry]
    rfl
  · intro timer h_mem h_pointer entry' h_entry'
    rw [OrderedMap.get?_set_self] at h_entry'
    obtain rfl := Option.some.inj h_entry'
    have h_due := h.due timer h_mem h_pointer entry h_entry
    have h_past := h.past entry h_entry
    show timer.due ≤ s.now + cleanupTimeout + 1
    omega

/-- The timer of a pointer fires: it was its only one, and the pointer has an entry. -/
theorem fired {i : ℕ} {timer : CleanupTimer κ} (h : Tended s timer.pointer)
    (h_timer : s.timers[i]? = some timer) :
    (∃ entry, s.payouts.get? timer.pointer = some entry) ∧
      (s.timers.eraseIdx i).countP (fun other => other.pointer = timer.pointer) = 0 := by
  have h_count := countP_eraseIdx (fun other : CleanupTimer κ => other.pointer = timer.pointer) h_timer
  have h_timers := h.timers
  rw [if_pos (decide_eq_true rfl)] at h_count
  cases h_get : s.payouts.get? timer.pointer with
  | none =>
    rw [h_get, if_neg (by simp)] at h_timers
    omega
  | some entry =>
    rw [h_get, if_pos (by simp)] at h_timers
    exact ⟨⟨entry, rfl⟩, by omega⟩

/-- An entry that has expired is removed, and its connection closed. -/
theorem expire {i : ℕ} {timer : CleanupTimer κ} {entry : Entry} {c' : PayoutConnection}
    (h : Tended s timer.pointer) (h_timer : s.timers[i]? = some timer)
    (h_entry : s.payouts.get? timer.pointer = some entry) (h_closing : c'.closing = true) :
    Tended
      { s with
        timers := s.timers.eraseIdx i
        payouts := s.payouts.erase timer.pointer
        connections := s.connections.set entry.connection (timer.pointer, c') } timer.pointer := by
  have h_none : (s.payouts.erase timer.pointer).get? timer.pointer = none := OrderedMap.get?_erase_self
  refine ⟨?_, ?_, ?_, ?_, ?_⟩
  · intro entry' h_entry'
    exact absurd (h_none.symm.trans h_entry') nofun
  · intro entry' h_entry'
    exact absurd (h_none.symm.trans h_entry') nofun
  · -- another connection that is open would be that of the entry
    intro j d h_at h_open
    rcases getElem?_set_cases h_at with ⟨-, h_same⟩ | ⟨h_ne, h_old⟩
    · obtain ⟨-, rfl⟩ := Prod.mk.inj h_same
      exact absurd (h_closing.symm.trans h_open) nofun
    · obtain ⟨found, h_found, h_connection⟩ := h.only j d h_old h_open
      obtain rfl := Option.some.inj (h_entry.symm.trans h_found)
      exact absurd h_connection.symm h_ne
  · show (s.timers.eraseIdx i).countP _ = _
    rw [(h.fired h_timer).2, h_none]
    rfl
  · intro _ _ _ entry' h_entry'
    exact absurd (h_none.symm.trans h_entry') nofun

/-- An entry that was used in the meantime is looked at again, when it may have expired. -/
theorem rearm {i : ℕ} {timer : CleanupTimer κ} {entry : Entry} (h : Tended s timer.pointer)
    (h_timer : s.timers[i]? = some timer) (h_entry : s.payouts.get? timer.pointer = some entry)
    (h_used : ¬s.now - entry.lastSent > cleanupTimeout) :
    Tended
      (makeTimer { s with timers := s.timers.eraseIdx i } timer.pointer
        (cleanupTimeout - (s.now - entry.lastSent))) timer.pointer := by
  have h_zero := (h.fired h_timer).2
  refine ⟨h.past, h.connection, h.only, ?_, ?_⟩
  · show (s.timers.eraseIdx i ++ [_]).countP _ = if (s.payouts.get? timer.pointer).isSome then 1 else 0
    rw [List.countP_append, h_zero, h_entry]
    simp
  · intro other h_mem h_pointer entry' h_entry'
    obtain rfl := Option.some.inj (h_entry.symm.trans h_entry')
    rcases List.mem_append.mp h_mem with h_old | h_new
    · -- the timer that fired was the only one
      have h_not := List.countP_eq_zero.mp h_zero other h_old
      exact absurd (decide_eq_true h_pointer) h_not
    · obtain rfl := List.mem_singleton.mp h_new
      have h_past := h.past entry h_entry
      show s.now + max 1 (cleanupTimeout - (s.now - entry.lastSent)) ≤ entry.lastSent + cleanupTimeout + 1
      omega

/-- What is only noted. -/
theorem ask (h : Tended s k) (asked : List (κ × ℕ)) (refused : List (κ × ℕ × SendError)) :
    Tended { s with asked := asked, refused := refused } k :=
  ⟨h.past, h.connection, h.only, h.timers, h.due⟩

/-- Setting a timer for another pointer. -/
theorem timers_other (l : List (CleanupTimer κ)) (timer : CleanupTimer κ) (h_ne : k ≠ timer.pointer) :
    ((l ++ [timer]).countP fun other => other.pointer = k) = (l.countP fun other => other.pointer = k) ∧
      ∀ other ∈ l ++ [timer], other.pointer = k → other ∈ l := by
  constructor
  · rw [List.countP_append, List.countP_singleton, if_neg (by simpa using fun h => h_ne h.symm),
      Nat.add_zero]
  · intro other h_mem h_pointer
    rcases List.mem_append.mp h_mem with h_old | h_new
    · exact h_old
    · obtain rfl := List.mem_singleton.mp h_new
      exact absurd h_pointer.symm h_ne

/-- The timer of another pointer fires. -/
theorem eraseIdx_other {l : List (CleanupTimer κ)} {i : ℕ} {timer : CleanupTimer κ}
    (h_timer : l[i]? = some timer) (h_ne : k ≠ timer.pointer) :
    ((l.eraseIdx i).countP fun other => other.pointer = k) = l.countP fun other => other.pointer = k := by
  have h_count := countP_eraseIdx (fun other : CleanupTimer κ => other.pointer = k) h_timer
  rw [if_neg (by simpa using fun h => h_ne h.symm), Nat.add_zero] at h_count
  exact h_count.symm

theorem send (h : ∀ k, Tended s k) (pointer : κ) (amount : ℕ) (error : Option SendError) (k : κ) :
    Tended (s.send maxRetries pointer amount error) k := by
  unfold Payouts.send
  simp only
  split
  · next h_none =>
    split
    · -- it throws, and leaves everything as it was
      exact (h k).ask _ _
    · -- the connection is created and called at once
      have h_last : (s.connections ++ [(pointer, ({} : PayoutConnection))])[s.connections.length]?
          = some (pointer, {}) := List.getElem?_concat_length
      rw [call_of_get h_last rfl]
      by_cases h_eq : k = pointer
      · subst h_eq
        have h_asked := (h k).ask (s.asked ++ [(k, amount)]) s.refused
        exact (h_asked.create h_none).setConnection h_last (send_closing {} amount)
      · have h_timers := timers_other s.timers { pointer, due := s.now + max 1 cleanupTimeout } h_eq
        refine (h k).of_same le_rfl ?_ ?_ h_timers.1 h_timers.2
        · show (s.payouts.set pointer _).get? k = _
          rw [OrderedMap.get?_set, if_neg h_eq]
        · intro j d
          exact (getElem?_set_other h_last _ h_eq j d).trans (getElem?_append_other _ _ h_eq j d)
  · next entry h_entry =>
    obtain ⟨c, h_at, -⟩ := (h pointer).connection entry h_entry
    rw [call_of_get h_at rfl]
    by_cases h_eq : k = pointer
    · subst h_eq
      have h_asked := (h k).ask (s.asked ++ [(k, amount)]) s.refused
      exact (h_asked.touch h_entry).setConnection h_at (send_closing c amount)
    · refine (h k).of_same le_rfl ?_ (getElem?_set_other h_at _ h_eq) rfl fun _ h_mem _ => h_mem
      show (s.payouts.set pointer _).get? k = _
      rw [OrderedMap.get?_set, if_neg h_eq]

theorem timeout {i : ℕ} {timer : CleanupTimer κ} (h : ∀ k, Tended s k)
    (h_timer : s.timers[i]? = some timer) (k : κ) :
    Tended (Payouts.expirePaymentPointer maxRetries { s with timers := s.timers.eraseIdx i } timer.pointer)
      k := by
  obtain ⟨entry, h_entry⟩ := ((h timer.pointer).fired h_timer).1
  unfold Payouts.expirePaymentPointer
  simp only [h_entry]
  split
  · obtain ⟨c, h_at, -⟩ := (h timer.pointer).connection entry h_entry
    rw [call_of_get h_at rfl]
    by_cases h_eq : k = timer.pointer
    · subst h_eq
      exact (h timer.pointer).expire h_timer h_entry rfl
    · refine (h k).of_same le_rfl ?_ (getElem?_set_other h_at _ h_eq) (eraseIdx_other h_timer h_eq) ?_
      · show (s.payouts.erase timer.pointer).get? k = _
        rw [OrderedMap.get?_erase, if_neg h_eq]
      · exact fun _ h_mem _ => mem_of_mem_eraseIdx h_mem
  · next h_used =>
    by_cases h_eq : k = timer.pointer
    · subst h_eq
      exact (h timer.pointer).rearm h_timer h_entry h_used
    · have h_timers := timers_other (s.timers.eraseIdx i)
        { pointer := timer.pointer, due := s.now + max 1 (cleanupTimeout - (s.now - entry.lastSent)) } h_eq
      exact (h k).of_same le_rfl rfl (fun _ _ => Iff.rfl)
        (h_timers.1.trans (eraseIdx_other h_timer h_eq))
        fun other h_mem h_pointer => mem_of_mem_eraseIdx (h_timers.2 other h_mem h_pointer)

/-- Every event leaves each pointer with an entry, an open connection and a timer, or with none. -/
theorem step {e : PayoutsEvent κ} (h : ∀ k, Tended s k) (h_step : s.step maxRetries e = some t) (k : κ) :
    Tended t k := by
  cases e with
  | tick ms =>
    obtain rfl := Option.some.inj h_step
    exact (h k).of_same (Nat.le_add_right _ _) rfl (fun _ _ => Iff.rfl) rfl fun _ h_mem _ => h_mem
  | send pointer amount error =>
    obtain rfl := Option.some.inj h_step
    exact send h pointer amount error k
  | timeout i =>
    obtain ⟨timer, h_timer, h_eq⟩ := Option.bind_eq_some_iff.mp h_step
    obtain ⟨-, h_eq⟩ := Option.ite_none_right_eq_some.mp h_eq
    obtain rfl := Option.some.inj h_eq
    exact timeout h h_timer k
  | connection i e =>
    obtain ⟨h_call, h_eq⟩ := Option.ite_none_left_eq_some.mp h_step
    obtain ⟨⟨pointer, c⟩, h_at, h_eq⟩ := Option.bind_eq_some_iff.mp h_eq
    obtain ⟨c', h_c, rfl⟩ := Option.map_eq_some_iff.mp h_eq
    exact (h k).setConnection h_at (frame_of_not_isCall h_call h_c).2.2

end Payouts.Tended

/-! ### The amounts -/

section Amounts

theorem sumFor_set (f : PayoutConnection → ℕ) {l : List (κ × PayoutConnection)} {i : ℕ}
    {c : PayoutConnection} (h_get : l[i]? = some (k', c)) (c' : PayoutConnection) (k : κ) :
    ((l.set i (k', c')).map fun p => if p.1 = k then f p.2 else 0).sum + (if k' = k then f c else 0)
      = (l.map fun p => if p.1 = k then f p.2 else 0).sum + if k' = k then f c' else 0 :=
  sum_map_set (fun p : κ × PayoutConnection => if p.1 = k then f p.2 else 0) h_get (k', c')

/-- **An amount is taken on** by the connection of its pointer, unless the call throws. -/
theorem taken_send (h : Tended s k') (amount : ℕ) (error : Option SendError) (k : κ) :
    (s.send maxRetries k' amount error).sumFor PayoutConnection.target k
        + (s.send maxRetries k' amount error).refusedFor k
      = s.sumFor PayoutConnection.target k + s.refusedFor k + if k' = k then amount else 0 := by
  unfold Payouts.send
  simp only
  -- the pointer has no entry: the call may throw, or a connection is made for it
  split
  · split
    · next _ thrown =>
      have h_refused : ((s.refused ++ [(k', amount, thrown)]).map fun p => if p.1 = k then p.2.1 else 0).sum
          = s.refusedFor k + if k' = k then amount else 0 := by
        rw [List.map_append, List.sum_append, List.map_singleton, List.sum_singleton]
        rfl
      exact (congrArg (s.sumFor PayoutConnection.target k + ·) h_refused).trans (Nat.add_assoc _ _ _).symm
    · -- the new connection takes the amount
      have h_last : (s.connections ++ [(k', ({} : PayoutConnection))])[s.connections.length]?
          = some (k', {}) := List.getElem?_concat_length
      rw [call_of_get h_last rfl]
      have h_set := sumFor_set PayoutConnection.target h_last
        (PayoutConnection.send maxRetries {} amount) k
      rw [send_target _ _ rfl, List.map_append, List.sum_append, List.map_singleton,
        List.sum_singleton] at h_set
      show (((s.connections ++ _).set _ _).map _).sum + s.refusedFor k
        = (s.connections.map _).sum + s.refusedFor k + _
      have h_zero : (if k' = k then PayoutConnection.target {} else 0) = 0 := ite_self 0
      have h_target : PayoutConnection.target {} + amount = amount := Nat.zero_add amount
      rw [h_target] at h_set
      simp only [h_zero] at h_set
      omega
  · next entry h_entry =>
    -- it has an entry, and its connection is open
    obtain ⟨c, h_at, h_open⟩ := h.connection entry h_entry
    rw [call_of_get h_at rfl]
    have h_set := sumFor_set PayoutConnection.target h_at (c.send maxRetries amount) k
    rw [send_target c amount h_open] at h_set
    show ((s.connections.set _ _).map _).sum + s.refusedFor k
      = (s.connections.map _).sum + s.refusedFor k + _
    by_cases h_eq : k' = k
    · simp only [if_pos h_eq] at h_set ⊢
      omega
    · simp only [if_neg h_eq] at h_set ⊢
      omega

theorem askedFor_send (amount : ℕ) (error : Option SendError) (k : κ) :
    (s.send maxRetries k' amount error).askedFor k = s.askedFor k + if k' = k then amount else 0 := by
  have h_asked : (s.send maxRetries k' amount error).asked = s.asked ++ [(k', amount)] := by
    unfold Payouts.send
    simp only
    split
    · split
      · rfl
      · exact (call_asked _ _).1
    · exact (call_asked _ _).1
  unfold Payouts.askedFor
  rw [h_asked, List.map_append, List.sum_append, List.map_singleton, List.sum_singleton]

/-- All amounts that `send` was called with are part of a target, unless it threw. -/
def TakenOn (s : Payouts κ) (k : κ) : Prop :=
  s.sumFor PayoutConnection.target k + s.refusedFor k = s.askedFor k

/-- Looking at an entry leaves the amounts as they are. -/
theorem TakenOn.expirePaymentPointer (h : TakenOn s k) (maxRetries : ℕ) (pointer : κ) :
    TakenOn (s.expirePaymentPointer maxRetries pointer) k := by
  unfold Payouts.expirePaymentPointer
  split
  · exact h
  · next entry _ =>
    split
    · unfold TakenOn Payouts.askedFor Payouts.refusedFor
      rw [(call_asked _ _).1, (call_asked _ _).2]
      refine (congrArg (· + s.refusedFor k) ?_).trans h
      unfold Payouts.call
      split
      · rfl
      · next pointer' c h_at =>
        exact Nat.add_right_cancel (sumFor_set PayoutConnection.target h_at
          ((c.step maxRetries .close).getD c) k)
    · exact h

theorem TakenOn.step {e : PayoutsEvent κ} (h : TakenOn s k) (h_tended : ∀ k, Tended s k)
    (h_step : s.step maxRetries e = some t) : TakenOn t k := by
  cases e with
  | tick ms =>
    obtain rfl := Option.some.inj h_step
    exact h
  | send pointer amount error =>
    obtain rfl := Option.some.inj h_step
    unfold TakenOn
    rw [taken_send (h_tended pointer), askedFor_send, h]
  | timeout i =>
    obtain ⟨timer, -, h_eq⟩ := Option.bind_eq_some_iff.mp h_step
    obtain ⟨-, h_eq⟩ := Option.ite_none_right_eq_some.mp h_eq
    obtain rfl := Option.some.inj h_eq
    have h_fired : TakenOn { s with timers := s.timers.eraseIdx i } k := h
    exact h_fired.expirePaymentPointer maxRetries timer.pointer
  | connection i e =>
    obtain ⟨h_call, h_eq⟩ := Option.ite_none_left_eq_some.mp h_step
    obtain ⟨⟨pointer, c⟩, h_at, h_eq⟩ := Option.bind_eq_some_iff.mp h_eq
    obtain ⟨c', h_c, rfl⟩ := Option.map_eq_some_iff.mp h_eq
    have h_set := sumFor_set PayoutConnection.target h_at c' k
    rw [(frame_of_not_isCall h_call h_c).1] at h_set
    exact (congrArg (· + s.refusedFor k) (Nat.add_right_cancel h_set)).trans h

end Amounts

/-- Both hold in every run. -/
theorem tended_of_reach (h : (Payouts.machine maxRetries).Reachable s) (k : κ) : Tended s k ∧ TakenOn s k := by
  have h_all : ∀ k, Tended s k ∧ TakenOn s k := by
    refine h.invariant (fun s => ∀ k, Tended s k ∧ TakenOn s k) ?_ ?_
    · intro s h_init k
      obtain rfl := h_init
      exact ⟨.initial, rfl⟩
    · intro s e t _ h_inv h_step k
      exact ⟨.step (fun k => (h_inv k).1) h_step k, (h_inv k).2.step (fun k => (h_inv k).1) h_step⟩
  exact h_all k

/-- The guard: nothing late happens to a connection. -/
def NoneLate (s : Payouts κ) : PayoutsEvent κ → Prop
  | .connection i e => ∀ p, s.connections[i]? = some p → NoLateEffects p.2 e
  | _ => True

attribute [local instance] decidableForallEqSome in
instance (e : PayoutsEvent κ) : Decidable (NoneLate s e) := by
  cases e <;> unfold NoneLate <;> infer_instance

/-- Each connection has had a run of its own. -/
def Reached (maxRetries : ℕ) (s : Payouts κ) : Prop :=
  ∀ p ∈ s.connections, (PayoutConnection.machine maxRetries).Reach NoLateEffects p.2

namespace Reached

omit [DecidableEq κ] in
theorem set {i : ℕ} {c c' : PayoutConnection} {e : PayoutEvent} (h : Reached maxRetries s)
    (h_get : s.connections[i]? = some (k, c)) (h_ok : NoLateEffects c e)
    (h_step : c.step maxRetries e = some c') :
    Reached maxRetries { s with connections := s.connections.set i (k, c') } := by
  intro p h_mem
  rcases List.mem_or_eq_of_mem_set h_mem with h_old | rfl
  · exact h p h_old
  · exact (h (k, c) (List.mem_of_getElem? h_get)).step h_ok h_step

omit [DecidableEq κ] in
theorem call (h : Reached maxRetries s) (i : ℕ) (e : PayoutEvent) (h_ok : ∀ c, NoLateEffects c e) :
    Reached maxRetries (s.call maxRetries i e) := by
  unfold Payouts.call
  split
  · exact h
  · next pointer c h_get =>
    cases h_step : c.step maxRetries e with
    | none =>
      intro p h_mem
      rcases List.mem_or_eq_of_mem_set h_mem with h_old | rfl
      · exact h p h_old
      · exact h (pointer, c) (List.mem_of_getElem? h_get)
    | some c' => exact h.set h_get (h_ok c) h_step

theorem send (h : Reached maxRetries s) (pointer : κ) (amount : ℕ) (error : Option SendError) :
    Reached maxRetries (s.send maxRetries pointer amount error) := by
  unfold Payouts.send
  simp only
  split
  · split
    · exact h
    · refine call (fun p h_mem => ?_) _ (.send amount) fun _ => trivial
      rcases List.mem_append.mp h_mem with h_old | h_new
      · exact h p h_old
      · obtain rfl := List.mem_singleton.mp h_new
        exact .init rfl
  · refine call ?_ _ (.send amount) fun _ => trivial
    exact h

theorem expirePaymentPointer (h : Reached maxRetries s) (pointer : κ) :
    Reached maxRetries (s.expirePaymentPointer maxRetries pointer) := by
  unfold Payouts.expirePaymentPointer
  split
  · exact h
  · split
    · refine call ?_ _ .close fun _ => trivial
      exact h
    · exact h

theorem step {e : PayoutsEvent κ} (h : Reached maxRetries s) (h_ok : NoneLate s e)
    (h_step : s.step maxRetries e = some t) : Reached maxRetries t := by
  cases e with
  | tick ms =>
    obtain rfl := Option.some.inj h_step
    exact h
  | send pointer amount error =>
    obtain rfl := Option.some.inj h_step
    exact h.send pointer amount error
  | timeout i =>
    obtain ⟨timer, -, h_eq⟩ := Option.bind_eq_some_iff.mp h_step
    obtain ⟨-, h_eq⟩ := Option.ite_none_right_eq_some.mp h_eq
    obtain rfl := Option.some.inj h_eq
    have h_fired : Reached maxRetries { s with timers := s.timers.eraseIdx i } := h
    exact h_fired.expirePaymentPointer timer.pointer
  | connection i e =>
    obtain ⟨-, h_eq⟩ := Option.ite_none_left_eq_some.mp h_step
    obtain ⟨⟨pointer, c⟩, h_at, h_eq⟩ := Option.bind_eq_some_iff.mp h_eq
    obtain ⟨c', h_c, rfl⟩ := Option.map_eq_some_iff.mp h_eq
    exact h.set h_at (h_ok _ h_at) h_c

end Reached

/-- **No pointer is overpaid.** In every run in which nothing late happens to a connection, the money that
all the connections of a pointer have sent is at most what `send` was called with for it, also over the
connections that took the place of closed ones. -/
theorem payouts_never_overpay (h : (Payouts.machine maxRetries).Reach NoneLate s) (k : κ) :
    s.sumFor PayoutConnection.totalSent k ≤ s.askedFor k := by
  have h_reached : Reached maxRetries s := by
    refine h.invariant (Reached maxRetries) ?_ fun _ _ _ _ h_inv h_ok h_step => h_inv.step h_ok h_step
    intro s h_init
    obtain rfl := h_init
    nofun
  have h_taken : s.sumFor PayoutConnection.target k + s.refusedFor k = s.askedFor k :=
    (tended_of_reach h.reachable k).2
  have h_sent : s.sumFor PayoutConnection.totalSent k ≤ s.sumFor PayoutConnection.target k := by
    refine List.sum_le_sum fun p h_mem => ?_
    by_cases h_eq : p.1 = k
    · rw [if_pos h_eq, if_pos h_eq]
      exact (Exclusive.of_reach (h_reached p h_mem)).totalSent_le
    · rw [if_neg h_eq, if_neg h_eq]
  exact h_sent.trans (h_taken ▸ Nat.le_add_right _ _)

/-- Two pointers, one of which is paid over two connections: the first was closed after half a minute. -/
theorem payouts_never_overpay_again :
    ∃ s : Payouts ℕ, (Payouts.machine 20).Reachable s ∧ s.connections.length = 3 ∧
      s.sumFor PayoutConnection.totalSent 1 = 14 ∧ s.sumFor PayoutConnection.totalSent 1 ≤ 15 := by
  have h : (Payouts.machine 20 : Machine (Payouts ℕ) _).Reach NoneLate _ :=
    Machine.reach_of_exec
      [.send 1 10 none, .connection 0 .queried, .connection 0 .connected, .connection 0 (.outgoingMoney 0 10),
        .send 2 7 none, .tick 30001, .timeout 0, .send 1 5 none, .connection 2 .queried,
        .connection 2 .connected, .connection 2 (.outgoingMoney 0 4)] rfl rfl
  exact ⟨_, h.reachable, rfl, rfl, payouts_never_overpay h 1⟩

end Interledger.Payout
