import Mathlib.Data.List.Basic
import Mathlib.Data.List.Induction
import Mathlib.Data.List.Infix
import Mathlib.Tactic.Common
import Mathlib.Tactic.Ring
import Mathlib.Topology.MetricSpace.Pseudo.Defs

/-!
# Runs of a labelled transition machine

A machine takes one action at a time, may refuse it, and reports the events of the
step. The rules below lift facts about one step to whole runs: an invariant that may
speak about all events so far, and the equivalence between a guard on every step
taken and a property of every event reported. A machine that refuses nothing is given
by a total step function; its runs are `trace`.
-/

universe u v w x

/-- A deterministic machine: each action either is refused or gives a state and events. -/
structure Machine (State : Type u) (Action : Type v) (Event : Type w) where
  step : State → Action → Option (State × List Event)

namespace Machine

variable {State : Type u} {Action : Type v} {Event : Type w}
  (machine : Machine State Action Event)

/-- Take the actions in order, collecting the events; a refused action refuses the run. -/
def run (state : State) : List Action → Option (State × List Event)
  | [] => some (state, [])
  | action :: actions =>
      (machine.step state action).bind fun middle =>
        (run middle.1 actions).map fun final => (final.1, middle.2 ++ final.2)

/-- The steps a run takes, each with the state it is taken in. -/
def visited (state : State) : List Action → List (State × Action)
  | [] => []
  | action :: actions =>
      (state, action) ::
        match machine.step state action with
        | none => []
        | some (middle, _) => visited middle actions

def ofTotal (step : State → Action → State × List Event) : Machine State Action Event :=
  ⟨fun state action => some (step state action)⟩

def trace (step : State → Action → State × List Event) (state : State) :
    List Action → State × List Event
  | [] => (state, [])
  | action :: actions =>
      let middle := step state action
      let final := trace step middle.1 actions
      (final.1, middle.2 ++ final.2)

variable {machine}

@[simp]
theorem run_nil (state : State) : machine.run state [] = some (state, []) := rfl

theorem run_cons_eq_some {state final : State} {action : Action} {actions : List Action}
    {events : List Event} :
    machine.run state (action :: actions) = some (final, events) ↔
      ∃ middle early later, machine.step state action = some (middle, early) ∧
        machine.run middle actions = some (final, later) ∧ events = early ++ later := by
  simp only [run, Option.bind_eq_some_iff, Option.map_eq_some_iff, Prod.exists, Prod.mk.injEq]
  constructor
  · rintro ⟨middle, early, step, last, later, rest, rfl, rfl⟩
    exact ⟨middle, early, later, step, rest, rfl⟩
  · rintro ⟨middle, early, later, step, rest, rfl⟩
    exact ⟨middle, early, step, final, later, rest, rfl, rfl⟩

/-- An invariant about the state and all the events so far holds after every run. -/
theorem run_invariant (machine : Machine State Action Event)
    (Inv : State → List Event → Prop)
    (preserved : ∀ {state middle action past events}, Inv state past →
      machine.step state action = some (middle, events) → Inv middle (past ++ events))
    {state final : State} {actions : List Action} (past : List Event) {events : List Event}
    (start : Inv state past) (ran : machine.run state actions = some (final, events)) :
    Inv final (past ++ events) := by
  induction actions generalizing state past events with
  | nil =>
      simp only [run_nil, Option.some.injEq, Prod.mk.injEq] at ran
      rcases ran with ⟨rfl, rfl⟩
      simpa using start
  | cons action actions ih =>
      rcases run_cons_eq_some.mp ran with ⟨middle, early, later, step, rest, rfl⟩
      simpa using ih (past ++ early) (preserved start step) rest

theorem run_preserves (machine : Machine State Action Event) (Inv : State → Prop)
    (preserved : ∀ {state middle action events}, Inv state →
      machine.step state action = some (middle, events) → Inv middle)
    {state final : State} {actions : List Action} {events : List Event}
    (start : Inv state) (ran : machine.run state actions = some (final, events)) : Inv final :=
  run_invariant machine (fun state _ => Inv state) preserved [] start ran

/-- An invariant about the state, the actions and the events so far holds after every run. -/
theorem run_record (machine : Machine State Action Event)
    (Inv : State → List Action → List Event → Prop)
    (preserved : ∀ {state middle action past reported events}, Inv state past reported →
      machine.step state action = some (middle, events) →
        Inv middle (past ++ [action]) (reported ++ events))
    {state final : State} {actions : List Action} (past : List Action) (reported : List Event)
    {events : List Event} (start : Inv state past reported)
    (ran : machine.run state actions = some (final, events)) :
    Inv final (past ++ actions) (reported ++ events) := by
  induction actions generalizing state past reported events with
  | nil =>
      simp only [run_nil, Option.some.injEq, Prod.mk.injEq] at ran
      rcases ran with ⟨rfl, rfl⟩
      simpa using start
  | cons action actions ih =>
      rcases run_cons_eq_some.mp ran with ⟨middle, early, later, step, rest, rfl⟩
      simpa using ih (past ++ [action]) (reported ++ early) (preserved start step) rest

/-- An invariant about the state and all the actions taken so far holds after every run. -/
theorem run_history (machine : Machine State Action Event)
    (Inv : State → List Action → Prop)
    (preserved : ∀ {state middle action past events}, Inv state past →
      machine.step state action = some (middle, events) → Inv middle (past ++ [action]))
    {state final : State} {actions : List Action} (past : List Action) {events : List Event}
    (start : Inv state past) (ran : machine.run state actions = some (final, events)) :
    Inv final (past ++ actions) :=
  run_record machine (fun state past _ => Inv state past) preserved past [] start ran

/--
If, under an invariant, a step reports only good events exactly when its guard holds, and
a guarded step keeps the invariant, then the events of a run are all good exactly when
every step of the run is guarded.
-/
theorem run_good_iff_guarded (machine : Machine State Action Event) (Inv : State → Prop)
    (Guard : State → Action → Prop) (Good : Event → Prop)
    (preserved : ∀ {state middle action events}, Inv state → Guard state action →
      machine.step state action = some (middle, events) → Inv middle)
    (goodIff : ∀ {state middle action events}, Inv state →
      machine.step state action = some (middle, events) →
      ((∀ event ∈ events, Good event) ↔ Guard state action))
    {state final : State} {actions : List Action} {events : List Event}
    (start : Inv state) (ran : machine.run state actions = some (final, events)) :
    (∀ event ∈ events, Good event) ↔
      ∀ visit ∈ machine.visited state actions, Guard visit.1 visit.2 := by
  induction actions generalizing state events with
  | nil =>
      simp only [run_nil, Option.some.injEq, Prod.mk.injEq] at ran
      simp [visited, ← ran.2]
  | cons action actions ih =>
      rcases run_cons_eq_some.mp ran with ⟨middle, early, later, step, rest, rfl⟩
      simp only [visited, step, List.mem_append, List.mem_cons, forall_eq_or_imp]
      constructor
      · intro good
        have guarded := (goodIff start step).mp fun event mem => good event (Or.inl mem)
        exact ⟨guarded, (ih (preserved start guarded step) rest).mp
          fun event mem => good event (Or.inr mem)⟩
      · rintro ⟨guarded, visits⟩ event (mem | mem)
        · exact (goodIff start step).mpr guarded event mem
        · exact (ih (preserved start guarded step) rest).mpr visits event mem

theorem run_append_of {state middle final : State} {early late : List Action}
    {before after : List Event} (ranEarly : machine.run state early = some (middle, before))
    (ranLate : machine.run middle late = some (final, after)) :
    machine.run state (early ++ late) = some (final, before ++ after) := by
  induction early generalizing state before with
  | nil =>
      simp only [run_nil, Option.some.injEq, Prod.mk.injEq] at ranEarly
      rcases ranEarly with ⟨rfl, rfl⟩
      exact ranLate
  | cons action early ih =>
      rcases run_cons_eq_some.mp ranEarly with ⟨next, first, rest, step, ran, rfl⟩
      rw [List.append_assoc]
      exact run_cons_eq_some.mpr ⟨next, first, _, step, ih ran, rfl⟩

/-- If each allowed step is matched by a run of an abstract machine, then so is each run of
such steps. -/
theorem run_simulated {AbstractState AbstractAction AbstractEvent : Type*}
    (machine : Machine State Action Event)
    (abstract : Machine AbstractState AbstractAction AbstractEvent)
    (Allowed : Action → Prop) (Rel : State → AbstractState → Prop)
    (matched : ∀ {state next action events related}, Rel state related → Allowed action →
      machine.step state action = some (next, events) →
        ∃ actions relatedNext reported,
          abstract.run related actions = some (relatedNext, reported) ∧ Rel next relatedNext)
    {state final : State} {related : AbstractState} {actions : List Action}
    {events : List Event} (start : Rel state related)
    (allowed : ∀ action ∈ actions, Allowed action)
    (ran : machine.run state actions = some (final, events)) :
    ∃ abstractActions relatedFinal reported,
      abstract.run related abstractActions = some (relatedFinal, reported) ∧
        Rel final relatedFinal := by
  induction actions generalizing state related events with
  | nil =>
      simp only [run_nil, Option.some.injEq, Prod.mk.injEq] at ran
      rcases ran with ⟨rfl, -⟩
      exact ⟨[], related, [], run_nil related, start⟩
  | cons action actions ih =>
      rcases run_cons_eq_some.mp ran with ⟨next, early, later, step, rest, -⟩
      simp only [List.mem_cons, forall_eq_or_imp] at allowed
      rcases matched start allowed.1 step with ⟨first, middle, before, ranFirst, holds⟩
      rcases ih holds allowed.2 rest with ⟨others, last, after, ranOthers, relFinal⟩
      exact ⟨first ++ others, last, before ++ after, run_append_of ranFirst ranOthers, relFinal⟩

section Guided

variable {Input : Type x}

end Guided

section Total

variable (step : State → Action → State × List Event)

@[simp]
theorem trace_nil (state : State) : trace step state [] = (state, []) := rfl

theorem trace_append (state : State) (early late : List Action) :
    trace step state (early ++ late) =
      ((trace step (trace step state early).1 late).1,
        (trace step state early).2 ++ (trace step (trace step state early).1 late).2) := by
  induction early generalizing state with
  | nil => simp
  | cons action early ih => simp [trace, ih]

theorem trace_snoc (state : State) (actions : List Action) (action : Action) :
    trace step state (actions ++ [action]) =
      ((step (trace step state actions).1 action).1,
        (trace step state actions).2 ++ (step (trace step state actions).1 action).2) := by
  rw [trace_append]
  simp [trace]

/-- The events of a run are good exactly when those of every step on the way are. -/
theorem forall_mem_trace_iff (Good : Event → Prop) (state : State) (actions : List Action) :
    (∀ event ∈ (trace step state actions).2, Good event) ↔
      ∀ early action, early ++ [action] <+: actions →
        ∀ event ∈ (step (trace step state early).1 action).2, Good event := by
  induction actions using List.reverseRecOn with
  | nil => simp
  | append_singleton actions last ih =>
      simp only [trace_snoc, List.mem_append, or_imp, forall_and, ih, List.prefix_concat_iff]
      constructor
      · rintro ⟨past, present⟩
        refine ⟨?_, past⟩
        intro early action equal
        rcases List.append_inj' equal rfl with ⟨rfl, lastEq⟩
        cases lastEq
        exact present
      · rintro ⟨present, past⟩
        exact ⟨past, present actions last rfl⟩

theorem run_ofTotal (state : State) (actions : List Action) :
    (ofTotal step).run state actions = some (trace step state actions) := by
  induction actions generalizing state with
  | nil => rfl
  | cons action actions ih => simp [run, trace, ofTotal, ← ih]

theorem trace_invariant (Inv : State → List Event → Prop)
    (preserved : ∀ state action past, Inv state past →
      Inv (step state action).1 (past ++ (step state action).2))
    {state : State} {past : List Event} (start : Inv state past) (actions : List Action) :
    Inv (trace step state actions).1 (past ++ (trace step state actions).2) := by
  apply run_invariant (ofTotal step) Inv ?_ past start (run_ofTotal step state actions)
  intro state middle action past events holds taken
  simp only [ofTotal, Option.some.injEq] at taken
  have next := preserved state action past holds
  rwa [taken] at next

/-- If a step with good events is no longer than `bound`, then a run with good events stays
within `bound` for each of its actions. -/
theorem dist_trace_le [PseudoMetricSpace State] (Good : Event → Prop) {bound : ℝ}
    (short : ∀ state action, (∀ event ∈ (step state action).2, Good event) →
      dist (step state action).1 state ≤ bound)
    (state : State) (actions : List Action)
    (good : ∀ event ∈ (trace step state actions).2, Good event) :
    dist (trace step state actions).1 state ≤ actions.length * bound := by
  induction actions generalizing state with
  | nil => simp
  | cons action actions ih =>
      simp only [trace, List.mem_append] at good ⊢
      have first := short state action fun event mem => good event (Or.inl mem)
      have rest := ih (step state action).1 fun event mem => good event (Or.inr mem)
      calc dist (trace step (step state action).1 actions).1 state
          ≤ actions.length * bound + bound := (dist_triangle _ _ _).trans (add_le_add rest first)
        _ = (action :: actions).length * bound := by
          rw [List.length_cons, Nat.cast_succ]
          ring

end Total

end Machine
