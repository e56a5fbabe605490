import Mathlib

/-!
State machines with partial labelled steps, the states their runs reach, and
the induction rule for invariants. A run may be restricted to steps that meet
a condition on the state before the step, so that a property of all runs and a
property of all runs of a guarded kind are instances of one rule.
-/

namespace Hiom

/-- A machine is deterministic in its label: every choice of a run (which
thread moves, what a crash keeps) is part of the action. A step that is not
possible in a state is `none`. -/
structure Machine (State Action : Type) where
  initial : State → Prop
  step : State → Action → Option State

namespace Machine

variable {State Action : Type} {machine : Machine State Action}
  {ok other : State → Action → Prop} {state next : State}

/-- States reached by runs all of whose steps meet `ok`. -/
inductive Reach (machine : Machine State Action) (ok : State → Action → Prop) :
    State → Prop
  | start {state : State} (init : machine.initial state) : Reach machine ok state
  | move {state next : State} {action : Action} (before : Reach machine ok state)
      (meets : ok state action) (stepped : machine.step state action = some next) :
      Reach machine ok next

def after (machine : Machine State Action) (state : State) : Machine State Action :=
  { machine with initial := fun first => first = state }

abbrev Reachable (machine : Machine State Action) : State → Prop :=
  machine.Reach (fun _ _ => True)

/-- The invariant rule: what holds initially and survives every permitted step
holds in every state reached. -/
theorem Reach.invariant {motive : State → Prop}
    (base : ∀ state, machine.initial state → motive state)
    (preserved : ∀ state action next, motive state → ok state action →
      machine.step state action = some next → motive next)
    (reached : machine.Reach ok state) : motive state := by
  induction reached with
  | start init => exact base _ init
  | move _ meets stepped ih => exact preserved _ _ _ ih meets stepped

/-- As `Reach.invariant`, where a step may also use that its source was
reached. -/
theorem Reach.invariant_reached {motive : State → Prop}
    (base : ∀ state, machine.initial state → motive state)
    (preserved : ∀ state action next, machine.Reach ok state → motive state →
      ok state action → machine.step state action = some next → motive next)
    (reached : machine.Reach ok state) : motive state := by
  induction reached with
  | start init => exact base _ init
  | move before meets stepped ih => exact preserved _ _ _ before ih meets stepped

theorem Reach.weaken (weaker : ∀ state action, ok state action → other state action)
    (reached : machine.Reach ok state) : machine.Reach other state := by
  induction reached with
  | start init => exact .start init
  | move _ meets stepped ih => exact .move ih (weaker _ _ meets) stepped

def run (machine : Machine State Action) : State → List Action → Option State
  | state, [] => some state
  | state, action :: rest =>
      match machine.step state action with
      | some next => machine.run next rest
      | none => none

/-- A concrete run witnesses that its last state is reachable. -/
theorem Reachable.run {actions : List Action} (reached : machine.Reachable state)
    (ran : machine.run state actions = some next) : machine.Reachable next := by
  induction actions generalizing state with
  | nil =>
      cases ran
      exact reached
  | cons action rest ih =>
      simp only [Machine.run] at ran
      split at ran
      · rename_i middle stepped
        exact ih (.move reached trivial stepped) ran
      · cases ran

theorem run_append (first second : List Action) :
    machine.run state (first ++ second) =
      (machine.run state first).bind (fun middle => machine.run middle second) := by
  induction first generalizing state with
  | nil => rfl
  | cons action rest ih =>
      simp only [List.cons_append, Machine.run]
      split
      · exact ih
      · rfl

/-! ### Runs with a check on every step -/

/-- The machine that refuses steps that fail a check. -/
def checked (machine : Machine State Action) (check : State → Action → Bool) :
    Machine State Action where
  initial := machine.initial
  step := fun state action => if check state action then machine.step state action else none

variable {check : State → Action → Bool}

theorem checked_step {action : Action} :
    (machine.checked check).step state action = some next ↔
      check state action = true ∧ machine.step state action = some next := by
  unfold checked
  dsimp only
  split
  · rename_i passed
    simp [passed]
  · rename_i failed
    simp [failed]

theorem run_of_checked {actions : List Action}
    (ran : (machine.checked check).run state actions = some next) :
    machine.run state actions = some next := by
  induction actions generalizing state with
  | nil => exact ran
  | cons action rest ih =>
      simp only [Machine.run] at ran ⊢
      split at ran
      · rename_i middle stepped
        rw [(checked_step.mp stepped).2]
        exact ih ran
      · cases ran

/-- A concrete run whose steps all pass a check that means something where an
invariant holds. -/
theorem Reach.run_checked_where {motive : State → Prop} {actions : List Action}
    (reached : machine.Reach ok state) (start : motive state)
    (meets : ∀ action ∈ actions, ∀ state, motive state → check state action = true →
      ok state action)
    (keeps : ∀ state action next, motive state → check state action = true → ok state action →
      machine.step state action = some next → motive next)
    (ran : (machine.checked check).run state actions = some next) :
    machine.Reach ok next ∧ motive next := by
  induction actions generalizing state with
  | nil =>
      cases ran
      exact ⟨reached, start⟩
  | cons action rest ih =>
      simp only [Machine.run] at ran
      split at ran
      · rename_i middle stepped
        obtain ⟨passed, stepped⟩ := checked_step.mp stepped
        have settles := meets action List.mem_cons_self state start passed
        apply ih (.move reached settles stepped) (keeps _ _ _ start passed settles stepped) _ ran
        exact fun other later => meets other (List.mem_cons_of_mem _ later)
      · cases ran

/-- A concrete run whose steps all pass the check. -/
theorem Reach.run_checked {actions : List Action} (reached : machine.Reach ok state)
    (meets : ∀ state action, check state action = true → ok state action)
    (ran : (machine.checked check).run state actions = some next) : machine.Reach ok next :=
  have ended := reached.run_checked_where (motive := fun _ => True) trivial
    (fun action _ state _ => meets state action) (fun _ _ _ _ _ _ _ => trivial) ran
  ended.1

end Machine

end Hiom
