import Mathlib.Logic.Function.Basic

/-!
# Where threads are

The points of a system of threads are a function on the threads.  One thread
moves at a time, and the others stay where they are.
-/

namespace Base

variable {Tid Point β : Type*} [DecidableEq Tid] {points : Tid → Point}
  {thread other : Tid} {point : Point}

theorem seen_cases (seen : Point → β) {value : β}
    (now : seen (Function.update points thread point other) = value) :
    (other = thread ∧ seen point = value) ∨
      (other ≠ thread ∧ seen (points other) = value) := by
  by_cases same : other = thread
  · rw [same, Function.update_self] at now
    exact .inl ⟨same, now⟩
  · rw [Function.update_of_ne same] at now
    exact .inr ⟨same, now⟩

theorem point_cases {place : Point}
    (now : Function.update points thread point other = place) :
    (other = thread ∧ point = place) ∨
      (other ≠ thread ∧ points other = place) :=
  seen_cases id now

theorem seen_of_hidden {seen : Point → Option β} {value : β}
    (hidden : seen point = none)
    (now : seen (Function.update points thread point other) = some value) :
    other ≠ thread ∧ seen (points other) = some value := by
  rcases seen_cases seen now with ⟨_, shown⟩ | old
  · rw [hidden] at shown
    cases shown
  · exact old

theorem seen_of_kept {seen : Point → Option β} {value : β}
    (kept : seen point = none ∨ seen point = seen (points thread))
    (now : seen (Function.update points thread point other) = some value) :
    seen (points other) = some value := by
  rcases seen_cases seen now with ⟨same, shown⟩ | ⟨_, old⟩
  · rcases kept with none | kept
    · rw [none] at shown
      cases shown
    · rw [same, ← kept]
      exact shown
  · exact old

/-- Threads that show different values still do after a move to a value that
no other thread shows. -/
theorem apart_update {seen : Point → Option β}
    (apart : ∀ one other value, seen (points one) = some value →
      seen (points other) = some value → one = other)
    (alone : ∀ value, seen point = some value → ∀ other, other ≠ thread →
      seen (points other) ≠ some value) :
    ∀ one other value,
      seen (Function.update points thread point one) = some value →
        seen (Function.update points thread point other) = some value →
          one = other := by
  intro one other value nowOne nowOther
  rcases seen_cases seen nowOne with ⟨isOne, newOne⟩ | ⟨notOne, oldOne⟩
  · rcases seen_cases seen nowOther with ⟨isOther, _⟩ | ⟨notOther, old⟩
    · rw [isOne, isOther]
    · exact absurd old (alone value newOne other notOther)
  · rcases seen_cases seen nowOther with ⟨_, newOther⟩ | ⟨_, oldOther⟩
    · exact absurd oldOne (alone value newOther one notOne)
    · exact apart one other value oldOne oldOther

end Base
