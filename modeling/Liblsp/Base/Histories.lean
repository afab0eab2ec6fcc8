import Liblsp.Base.Machine
import Liblsp.Base.Run

/-!
# Histories of systems whose calls take effect at once

Many parties use a system at the same time, and a call takes several of its
steps.  If every call that answers takes effect at one of these steps, and if
it answers there like a reference machine, then what the parties see is what
they would see if they used the machine one after the other.
-/

namespace Base

variable {σ τ α ο ι ρ : Type*}

/-- The calls that take effect in some steps, with their answers. -/
def history (exec : σ → α → Option (σ × ο))
    (served : σ → α → ο → Option (ι × ρ)) : σ → List α → List (ι × ρ)
  | _, [] => []
  | state, action :: actions =>
      match exec state action with
      | none => []
      | some (next, outcome) =>
          (served state action outcome).toList ++
            history exec served next actions

/-- The reference machine gives these answers to these calls. -/
def Legal (reference : τ → ι → τ × ρ) (model : τ) (calls : List (ι × ρ)) :
    Prop :=
  (play reference model (calls.map Prod.fst)).2 = calls.map Prod.snd

/-- Where these calls leave the reference machine. -/
def replay (reference : τ → ι → τ × ρ) (model : τ) (calls : List (ι × ρ)) :
    τ :=
  (play reference model (calls.map Prod.fst)).1

section Replaying

variable {reference : τ → ι → τ × ρ} {model : τ}

@[simp] theorem replay_append (before after : List (ι × ρ)) :
    replay reference model (before ++ after) =
      replay reference (replay reference model before) after := by
  rw [replay, List.map_append, play_append]
  rfl

theorem legal_cons_iff {input : ι} {answer : ρ} {calls : List (ι × ρ)} :
    Legal reference model ((input, answer) :: calls) ↔
      (reference model input).2 = answer ∧
        Legal reference (reference model input).1 calls :=
  List.cons_eq_cons

theorem replay_cons (call : ι × ρ) (calls : List (ι × ρ)) :
    replay reference model (call :: calls) =
      replay reference (reference model call.1).1 calls := rfl

theorem legal_append_iff {before after : List (ι × ρ)} :
    Legal reference model (before ++ after) ↔
      Legal reference model before ∧
        Legal reference (replay reference model before) after := by
  induction before generalizing model with
  | nil => exact (and_iff_right rfl).symm
  | cons call before induction =>
      rw [List.cons_append, legal_cons_iff, legal_cons_iff, induction,
        and_assoc]
      rfl

theorem Legal.snoc {calls : List (ι × ρ)}
    (legal : Legal reference model calls) (input : ι) :
    Legal reference model (calls ++
      [(input, (reference (replay reference model calls) input).2)]) :=
  legal_append_iff.mpr ⟨legal, rfl⟩

end Replaying

/-- A step in which no call takes effect keeps the model, and one in which a
call does answers like the reference machine. -/
inductive ServedBy (reference : τ → ι → τ × ρ) (related : τ → Prop)
    (model : τ) : Option (ι × ρ) → Prop where
  | quiet : related model → ServedBy reference related model none
  | answers {input : ι} :
      related (reference model input).1 →
      ServedBy reference related model
        (some (input, (reference model input).2))

/-- Every guarded step is served by the reference machine. -/
def Serves (related : σ → τ → Prop) (guard : σ → α → Prop)
    (exec : σ → α → Option (σ × ο)) (served : σ → α → ο → Option (ι × ρ))
    (reference : τ → ι → τ × ρ) : Prop :=
  ∀ state model action next outcome, related state model →
    guard state action → exec state action = some (next, outcome) →
    ServedBy reference (related next) model (served state action outcome)

section Runs

variable {exec : σ → α → Option (σ × ο)}
  {served : σ → α → ο → Option (ι × ρ)} {guard : σ → α → Prop}

theorem history_append {start state : σ} {before : List α}
    (run : Run (fun state action => (exec state action).map Prod.fst) guard
      start before state) (after : List α) :
    history exec served start (before ++ after) =
      history exec served start before ++
        history exec served state after := by
  induction run generalizing after with
  | nil => rfl
  | @snoc actions state next action _ _ stepped induction =>
      obtain ⟨⟨_, outcome⟩, executed, rfl⟩ :=
        Option.map_eq_some_iff.mp stepped
      rw [List.append_assoc, induction, induction, List.append_assoc]
      simp only [List.singleton_append, history, executed,
        List.append_nil]

theorem history_snoc {start state next : σ} {actions : List α} {action : α}
    {outcome : ο}
    (run : Run (fun state action => (exec state action).map Prod.fst) guard
      start actions state)
    (executed : exec state action = some (next, outcome)) :
    history exec served start (actions ++ [action]) =
      history exec served start actions ++
        (served state action outcome).toList := by
  rw [history_append run]
  simp only [history, executed, List.append_nil]

theorem history_filterMap {κ δ : Type*} (shown : ι × ρ → Option (κ × δ))
    {less : σ → α → ο → Option (κ × δ)}
    (same : ∀ state action outcome,
      less state action outcome =
        (served state action outcome).bind shown)
    (start : σ) (actions : List α) :
    history exec less start actions =
      (history exec served start actions).filterMap shown := by
  induction actions generalizing start with
  | nil => rfl
  | cons action actions induction =>
      cases executed : exec start action with
      | none => simp only [history, executed, List.filterMap_nil]
      | some result =>
          simp only [history, executed, List.filterMap_append, induction,
            same]
          cases served start action result.2 with
          | none => rfl
          | some call => cases kept : shown call <;> simp [kept]

variable {related : σ → τ → Prop} {reference : τ → ι → τ × ρ}

/-- The calls of a run, in the order in which they take effect, are answered
as the reference machine answers them. -/
theorem Serves.run (serves : Serves related guard exec served reference)
    {start state : σ} {model : τ} (initial : related start model)
    {actions : List α}
    (run : Run (fun state action => (exec state action).map Prod.fst) guard
      start actions state) :
    Legal reference model (history exec served start actions) ∧
      related state
        (replay reference model (history exec served start actions)) := by
  induction run with
  | nil => exact ⟨rfl, initial⟩
  | @snoc actions state next action before allowed stepped induction =>
      obtain ⟨⟨_, outcome⟩, executed, rfl⟩ :=
        Option.map_eq_some_iff.mp stepped
      obtain ⟨legal, kept⟩ := induction
      have step := serves _ _ _ _ _ kept allowed executed
      rw [history_snoc before executed]
      generalize served state action outcome = effect at step
      cases step with
      | quiet still =>
          rw [Option.toList_none, List.append_nil]
          exact ⟨legal, still⟩
      | answers still =>
          rw [Option.toList_some, replay_append]
          exact ⟨legal.snoc _, still⟩

end Runs

end Base
