import Mathlib.Data.Option.Basic
import Mathlib.Logic.Relation
import Mathlib.Order.Defs.Unbundled
import Mathlib.Tactic.Common

/-!
# Event machines and guarded runs

A program that reacts to events is read as a partial function on its states: `step s e` is the
state after the event `e`, or `none` when `e` cannot happen in `s`. Nothing orders the events, so
a property of every reachable state is a property of every interleaving.

Reachability is relative to a **guard** `ok`, a condition on the state before a step and the event
of that step:

* `Machine.Reach ok s` — some run all of whose steps meet `ok` ends in `s`;
* `Machine.Reachable s` — the unguarded form, every run counts;
* `Machine.Leads ok s t` — such a run leads on from `s` to `t`;
* `Machine.exec` — the executable run along a list of events, from which a concrete reachable
  state is obtained by evaluation (`Machine.reach_of_exec`).

The one induction rule is `Machine.Reach.invariant`: what holds initially and is preserved by each
step that meets the guard holds of every state a guarded run reaches.
-/

namespace Interledger

/-- A machine driven by events: the states a run may start from, and the state after an event
(`none` when the event cannot happen there). -/
structure Machine (State Event : Type) where
  init : State → Prop
  step : State → Event → Option State

namespace Machine

variable {State Event : Type} (m : Machine State Event)

/-- The states reached by the runs whose steps all meet the guard `ok`. -/
inductive Reach (ok : State → Event → Prop) : State → Prop
  | init {s : State} (h : m.init s) : Reach ok s
  | step {s t : State} {e : Event} (h : Reach ok s) (hok : ok s e) (hstep : m.step s e = some t) :
      Reach ok t

/-- The states reached by any run. -/
def Reachable (s : State) : Prop := m.Reach (fun _ _ => True) s

/-- A run whose steps all meet the guard `ok` leads from one state to the other. -/
def Leads (ok : State → Event → Prop) : State → State → Prop :=
  Relation.ReflTransGen fun s t => ∃ e, ok s e ∧ m.step s e = some t

variable {m} {ok ok' : State → Event → Prop} {s t u : State} {e : Event}

/-- **The invariant rule.** An assertion of the initial states that every guarded step preserves
holds of every state a guarded run reaches. The reachability of the state before the step is at
hand, so that an invariant may be proved from earlier ones. -/
theorem Reach.invariant (Inv : State → Prop) (h : m.Reach ok t)
    (h_init : ∀ s, m.init s → Inv s)
    (h_step : ∀ s e t, m.Reach ok s → Inv s → ok s e → m.step s e = some t → Inv t) : Inv t := by
  induction h with
  | init h => exact h_init _ h
  | step h hok hstep ih => exact h_step _ _ _ h ih hok hstep

/-- Weakening the guard admits more runs. -/
theorem Reach.mono (h : m.Reach ok t) (h_ok : ∀ s e, ok s e → ok' s e) : m.Reach ok' t := by
  induction h with
  | init h => exact .init h
  | step _ hok hstep ih => exact .step ih (h_ok _ _ hok) hstep

/-- A guarded run is a run. -/
theorem Reach.reachable (h : m.Reach ok t) : m.Reachable t :=
  h.mono fun _ _ _ => trivial

theorem Reachable.step (h : m.Reachable s) (hstep : m.step s e = some t) : m.Reachable t :=
  Reach.step h trivial hstep

/-- The invariant rule for unguarded runs. -/
theorem Reachable.invariant (Inv : State → Prop) (h : m.Reachable t)
    (h_init : ∀ s, m.init s → Inv s)
    (h_step : ∀ s e t, m.Reachable s → Inv s → m.step s e = some t → Inv t) : Inv t :=
  Reach.invariant Inv h h_init fun s e t hr hi _ hs => h_step s e t hr hi hs

/-- **The simulation rule.** Where every step is one of another machine, or none, a run becomes a run of
that machine. -/
theorem Reachable.simulated {State' Event' : Type} {m' : Machine State' Event'} (f : State → State')
    (h : m.Reachable t) (h_init : ∀ s, m.init s → m'.init (f s))
    (h_step : ∀ s e t, m.Reachable s → m.step s e = some t →
      f t = f s ∨ ∃ e', m'.step (f s) e' = some (f t)) : m'.Reachable (f t) := by
  refine h.invariant (fun s => m'.Reachable (f s)) (fun s h_s => .init (h_init s h_s)) ?_
  intro s e t h_s ih h_t
  rcases h_step s e t h_s h_t with h_same | ⟨e', h_e'⟩
  · rw [h_same]
    exact ih
  · exact ih.step h_e'

instance : IsPreorder State (m.Leads ok) where
  refl _ := .refl
  trans _ _ _ h h' := h.trans h'

theorem Leads.single (hok : ok s e) (hstep : m.step s e = some t) : m.Leads ok s t :=
  Relation.ReflTransGen.single ⟨e, hok, hstep⟩

/-- Weakening the guard admits more runs between two states. -/
theorem Leads.mono (h : m.Leads ok s t) (h_ok : ∀ s e, ok s e → ok' s e) : m.Leads ok' s t :=
  Relation.ReflTransGen.mono (fun s _ ⟨e, hok, hstep⟩ => ⟨e, h_ok s e hok, hstep⟩) s t h

/-- A run goes on from the state that another one reached. -/
theorem Reach.leads (h : m.Reach ok s) (h_leads : m.Leads ok s t) : m.Reach ok t := by
  induction h_leads with
  | refl => exact h
  | tail _ h_step ih =>
    obtain ⟨e, hok, hstep⟩ := h_step
    exact ih.step hok hstep

/-- **The run rule for relations.** A preorder between the states before and after each step holds
between the states before and after a run. -/
theorem Leads.preorder {R : State → State → Prop} [IsPreorder State R] (h : m.Leads ok s t)
    (h_reach : m.Reach ok s)
    (h_step : ∀ s e t, m.Reach ok s → ok s e → m.step s e = some t → R s t) : R s t := by
  induction h with
  | refl => exact refl_of R s
  | tail h_run h_last ih =>
    obtain ⟨e, hok, hstep⟩ := h_last
    exact trans_of R ih (h_step _ _ _ (h_reach.leads h_run) hok hstep)

variable (m ok)

/-- The run along a list of events, stopping with `none` at an event that cannot happen or does
not meet the guard. -/
def exec [∀ s e, Decidable (ok s e)] (s : State) : List Event → Option State
  | [] => some s
  | e :: es => if ok s e then (m.step s e).bind fun t => exec t es else none

variable {m ok}

/-- Evaluating a run reaches its end state. -/
theorem Reach.exec [∀ s e, Decidable (ok s e)] {es : List Event} (h : m.Reach ok s)
    (hexec : m.exec ok s es = some t) : m.Reach ok t := by
  induction es generalizing s with
  | nil =>
    obtain rfl : s = t := Option.some.inj hexec
    exact h
  | cons e es ih =>
    unfold Machine.exec at hexec
    split at hexec
    case isTrue hok =>
      obtain ⟨u, hstep, hexec⟩ := Option.bind_eq_some_iff.mp hexec
      exact ih (h.step hok hstep) hexec
    case isFalse => cases hexec

/-- Evaluating a run leads to its end state. -/
theorem Leads.exec [∀ s e, Decidable (ok s e)] {es : List Event} (hexec : m.exec ok s es = some t) :
    m.Leads ok s t := by
  induction es generalizing s with
  | nil =>
    obtain rfl : s = t := Option.some.inj hexec
    exact .refl
  | cons e es ih =>
    unfold Machine.exec at hexec
    split at hexec
    case isTrue hok =>
      obtain ⟨u, hstep, hexec⟩ := Option.bind_eq_some_iff.mp hexec
      exact .head ⟨e, hok, hstep⟩ (ih hexec)
    case isFalse => cases hexec

/-- A run evaluated from an initial state reaches its end state. -/
theorem reach_of_exec [∀ s e, Decidable (ok s e)] (es : List Event) (h : m.init s)
    (hexec : m.exec ok s es = some t) : m.Reach ok t :=
  Reach.exec (.init h) hexec

end Machine

end Interledger
