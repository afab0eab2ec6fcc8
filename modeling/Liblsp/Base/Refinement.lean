import Liblsp.Base.Histories

/-!
# One system of steps behind another

A system does what another one does, if every step of it is matched by some
run of the other one that serves the same calls and keeps a relation between
the two states.  Most often that is no step at all or a single one: the step
at which the change becomes visible.
-/

namespace Base

variable {σ τ α β ο π ι ρ : Type*}

/-- From related states, a guarded step is matched by a guarded run that
serves what the step serves. -/
def Matches (related : σ → τ → Prop) (guard : σ → α → Prop)
    (exec : σ → α → Option (σ × ο)) (served : σ → α → ο → Option (ι × ρ))
    (limit : τ → β → Prop) (coarse : τ → β → Option (τ × π))
    (noted : τ → β → π → Option (ι × ρ)) : Prop :=
  ∀ state model action next outcome, related state model →
    guard state action → exec state action = some (next, outcome) →
    ∃ actions model',
      Run (fun model action => (coarse model action).map Prod.fst) limit
          model actions model' ∧
        history coarse noted model actions =
          (served state action outcome).toList ∧
        related next model'

section Matching

variable {related : σ → τ → Prop} {guard : σ → α → Prop}
  {exec : σ → α → Option (σ × ο)} {served : σ → α → ο → Option (ι × ρ)}
  {limit : τ → β → Prop} {coarse : τ → β → Option (τ × π)}
  {noted : τ → β → π → Option (ι × ρ)} {model model' : τ}

theorem run_of_exec {action : β} {outcome : π}
    (allowed : limit model action)
    (executed : coarse model action = some (model', outcome)) :
    Run (fun model action => (coarse model action).map Prod.fst) limit
        model [action] model' ∧
      history coarse noted model [action] =
        (noted model action outcome).toList := by
  refine ⟨.single allowed (by rw [executed]; rfl), ?_⟩
  simp only [history, executed, List.append_nil]

/-- Every run is matched by a run with the same history. -/
theorem Matches.run
    (matched : Matches related guard exec served limit coarse noted)
    {start state : σ} (initial : related start model) {actions : List α}
    (run : Run (fun state action => (exec state action).map Prod.fst) guard
      start actions state) :
    ∃ coarser model',
      Run (fun model action => (coarse model action).map Prod.fst) limit
          model coarser model' ∧
        history coarse noted model coarser =
          history exec served start actions ∧
        related state model' := by
  induction run with
  | nil => exact ⟨[], model, .nil, rfl, initial⟩
  | @snoc actions state next action run allowed stepped induction =>
      obtain ⟨before, middle, reached, same, kept⟩ := induction
      obtain ⟨⟨_, outcome⟩, executed, rfl⟩ :=
        Option.map_eq_some_iff.mp stepped
      obtain ⟨after, last, rest, serves, still⟩ :=
        matched _ _ _ _ _ kept allowed executed
      refine ⟨before ++ after, last, reached.append rest, ?_, still⟩
      rw [history_append reached, same, serves, history_snoc run executed]

end Matching

end Base
