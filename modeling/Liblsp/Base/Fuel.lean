import Mathlib.Tactic.TypeStar

/-!
# Loops run on fuel

An executable loop takes a bound on its number of iterations and yields
`none` when the bound is used up.  `Returns` says that the loop terminates
with a value: every large enough bound produces it.
-/

namespace Base

variable {β γ : Type*}

/-- Every large enough bound lets the computation end, with this value. -/
def Returns (computation : Nat → Option β) (value : β) : Prop :=
  ∃ bound, ∀ fuel, bound ≤ fuel → computation fuel = some value

namespace Returns

theorem unique {computation : Nat → Option β} {left right : β}
    (leftReturns : Returns computation left)
    (rightReturns : Returns computation right) : left = right := by
  obtain ⟨leftBound, leftResult⟩ := leftReturns
  obtain ⟨rightBound, rightResult⟩ := rightReturns
  have equality : some left = some right := by
    rw [← leftResult (max leftBound rightBound) (Nat.le_max_left _ _),
      rightResult (max leftBound rightBound) (Nat.le_max_right _ _)]
  exact Option.some.inj equality

/-- When more fuel never changes a result, any result is the value. -/
theorem eq_of_some {computation : Nat → Option β} {value result : β}
    (returns : Returns computation value)
    (stable : ∀ fuel, computation fuel = some result →
      computation (fuel + 1) = some result)
    {fuel : Nat} (ended : computation fuel = some result) :
    result = value := by
  obtain ⟨bound, final⟩ := returns
  have later : ∀ extra, computation (fuel + extra) = some result := by
    intro extra
    induction extra with
    | zero => exact ended
    | succ extra induction => exact stable _ induction
  have equality : some result = some value := by
    rw [← later bound, final _ (Nat.le_add_left _ _)]
  exact Option.some.inj equality

theorem map {computation : Nat → Option β} {value : β}
    (returns : Returns computation value) (function : β → γ) :
    Returns (fun fuel => (computation fuel).map function)
      (function value) := by
  obtain ⟨bound, result⟩ := returns
  refine ⟨bound, ?_⟩
  intro fuel enough
  simp [result fuel enough]

end Returns

end Base
