import Mathlib.Tactic.TypeStar

/-!
# Guarded runs of partial step functions

An action carries every choice a scheduler or an environment can make, so a
step is a partial function.  A run is guarded when each of its steps meets a
condition on the state it starts in; the always true guard gives all runs.
-/

namespace Base

variable {σ α : Type*}

/-- Runs of `step` from `start` in which every step meets `guard`. -/
inductive Run (step : σ → α → Option σ) (guard : σ → α → Prop) (start : σ) :
    List α → σ → Prop where
  | nil : Run step guard start [] start
  | snoc {actions : List α} {state next : σ} {action : α} :
      Run step guard start actions state →
      guard state action →
      step state action = some next →
      Run step guard start (actions ++ [action]) next

/-- The guard that no step fails. -/
def Anywhere : σ → α → Prop := fun _ _ => True

instance (state : σ) (action : α) : Decidable (Anywhere state action) :=
  inferInstanceAs (Decidable True)

namespace Run

variable {step : σ → α → Option σ} {guard : σ → α → Prop} {start : σ}

/-- A property that holds at the start and is kept by every guarded step
holds in every state reached. -/
theorem invariant {property : σ → Prop}
    (initial : property start)
    (preserved : ∀ state action next, property state →
      guard state action → step state action = some next → property next)
    {actions : List α} {state : σ}
    (run : Run step guard start actions state) : property state := by
  induction run with
  | nil => exact initial
  | snoc _ allowed stepped induction =>
      exact preserved _ _ _ induction allowed stepped

theorem history {property : List α → σ → Prop} (initial : property [] start)
    (preserved : ∀ actions state action next,
      Run step guard start actions state → property actions state →
      guard state action → step state action = some next →
      property (actions ++ [action]) next)
    {actions : List α} {state : σ}
    (run : Run step guard start actions state) : property actions state := by
  induction run with
  | nil => exact initial
  | snoc before allowed stepped induction =>
      exact preserved _ _ _ _ before induction allowed stepped

theorem append {before after : List α} {middle state : σ}
    (run : Run step guard start before middle)
    (rest : Run step guard middle after state) :
    Run step guard start (before ++ after) state := by
  induction rest with
  | nil => simpa using run
  | snoc _ allowed stepped induction =>
      rw [← List.append_assoc]
      exact .snoc induction allowed stepped

theorem single {state : σ} {action : α} (allowed : guard start action)
    (stepped : step start action = some state) :
    Run step guard start [action] state :=
  .snoc .nil allowed stepped

theorem guard_iff {guard' : σ → α → Prop}
    (agree : ∀ state action next, step state action = some next →
      (guard state action ↔ guard' state action))
    {actions : List α} {state : σ} :
    Run step guard start actions state ↔
      Run step guard' start actions state := by
  constructor
  · intro run
    induction run with
    | nil => exact .nil
    | snoc _ allowed stepped induction =>
        exact .snoc induction ((agree _ _ _ stepped).mp allowed) stepped
  · intro run
    induction run with
    | nil => exact .nil
    | snoc _ allowed stepped induction =>
        exact .snoc induction ((agree _ _ _ stepped).mpr allowed) stepped

theorem mono {guard' : σ → α → Prop}
    (weaker : ∀ state action, guard state action → guard' state action)
    {actions : List α} {state : σ}
    (run : Run step guard start actions state) :
    Run step guard' start actions state := by
  induction run with
  | nil => exact .nil
  | snoc _ allowed stepped induction =>
      exact .snoc induction (weaker _ _ allowed) stepped

/-- A run meets every guard that its own guard and an invariant imply. -/
theorem weaken {guard' : σ → α → Prop} {property : σ → Prop}
    (initial : property start)
    (preserved : ∀ state action next, property state →
      guard state action → step state action = some next → property next)
    (weaker : ∀ state action, property state → guard state action →
      guard' state action)
    {actions : List α} {state : σ}
    (run : Run step guard start actions state) :
    Run step guard' start actions state := by
  have both : property state ∧ Run step guard' start actions state := by
    induction run with
    | nil => exact ⟨initial, .nil⟩
    | snoc _ allowed stepped induction =>
        obtain ⟨holds, run⟩ := induction
        exact ⟨preserved _ _ _ holds allowed stepped,
          .snoc run (weaker _ _ holds allowed) stepped⟩
  exact both.2

end Run

/-- Take the listed steps one after the other, as long as each one is
possible and meets the guard. -/
def execute (step : σ → α → Option σ) (guard : σ → α → Prop)
    [∀ state action, Decidable (guard state action)] :
    σ → List α → Option σ
  | state, [] => some state
  | state, action :: actions =>
      if guard state action then
        (step state action).bind fun next =>
          execute step guard next actions
      else none

section Execution

variable {step : σ → α → Option σ} {guard : σ → α → Prop}
  [∀ state action, Decidable (guard state action)]

private theorem run_append_of_execute {start state final : σ}
    {before after : List α} (run : Run step guard start before state)
    (executed : execute step guard state after = some final) :
    Run step guard start (before ++ after) final := by
  induction after generalizing before state with
  | nil =>
      simp only [execute, Option.some.injEq] at executed
      subst final
      simpa using run
  | cons action after induction =>
      simp only [execute] at executed
      split at executed
      · rename_i allowed
        obtain ⟨next, stepped, rest⟩ :=
          Option.bind_eq_some_iff.mp executed
        have extended : Run step guard start (before ++ [action]) next :=
          .snoc run allowed stepped
        simpa using induction extended rest
      · simp at executed

theorem run_of_execute {start final : σ} {actions : List α}
    (executed : execute step guard start actions = some final) :
    Run step guard start actions final := by
  simpa using run_append_of_execute .nil executed

/-- What an execution shows about its last state holds of some run. -/
theorem exists_run_of_execute {β : Type*} {start : σ} {actions : List α}
    {view : σ → β} {value : β}
    (executed : (execute step guard start actions).map view = some value) :
    ∃ final, Run step guard start actions final ∧ view final = value := by
  obtain ⟨final, reached, shown⟩ := Option.map_eq_some_iff.mp executed
  exact ⟨final, run_of_execute reached, shown⟩

end Execution

end Base
