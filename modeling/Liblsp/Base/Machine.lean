import Mathlib.Tactic.TypeStar

/-!
# Machines that answer

A machine takes one input after the other, changes its state and answers.
Two machines that keep a relation between their states and answer alike are
not told apart by any sequence of inputs.
-/

namespace Base

variable {σ τ ι ο : Type*}

/-- The last state and all answers of a machine. -/
def play (step : σ → ι → σ × ο) : σ → List ι → σ × List ο
  | state, [] => (state, [])
  | state, input :: inputs =>
      let (next, answer) := step state input
      let (last, answers) := play step next inputs
      (last, answer :: answers)

theorem play_append (step : σ → ι → σ × ο) (state : σ)
    (before after : List ι) :
    play step state (before ++ after) =
      ((play step (play step state before).1 after).1,
        (play step state before).2 ++
          (play step (play step state before).1 after).2) := by
  induction before generalizing state with
  | nil => rfl
  | cons input before induction => simp [play, induction]

theorem play_invariant {step : σ → ι → σ × ο} {property : σ → Prop}
    (preserved : ∀ state input, property state →
      property (step state input).1)
    {start : σ} (initial : property start) (inputs : List ι) :
    property (play step start inputs).1 := by
  induction inputs generalizing start with
  | nil => exact initial
  | cons input inputs induction =>
      apply induction
      exact preserved start input initial

/-- Every input keeps the relation and is answered alike. -/
def Simulates (related : σ → τ → Prop) (step : σ → ι → σ × ο)
    (reference : τ → ι → τ × ο) : Prop :=
  ∀ state model input, related state model →
    related (step state input).1 (reference model input).1 ∧
      (step state input).2 = (reference model input).2

theorem Simulates.play {related : σ → τ → Prop} {step : σ → ι → σ × ο}
    {reference : τ → ι → τ × ο}
    (simulates : Simulates related step reference)
    {state : σ} {model : τ} (start : related state model)
    (inputs : List ι) :
    related (play step state inputs).1 (play reference model inputs).1 ∧
      (play step state inputs).2 = (play reference model inputs).2 := by
  induction inputs generalizing state model with
  | nil => exact ⟨start, rfl⟩
  | cons input inputs induction =>
      obtain ⟨next, answered⟩ := simulates state model input start
      obtain ⟨last, rest⟩ := induction next
      refine ⟨last, ?_⟩
      change _ :: _ = _ :: _
      rw [answered, rest]

end Base
