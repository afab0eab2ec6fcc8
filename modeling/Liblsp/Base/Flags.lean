import Liblsp.Base.Histories

/-!
# Flags

A flag is raised any number of times, looked at, and taken.  Nobody takes it
more often than it was raised, and between two who find it raised and take it
somebody has raised it again.
-/

namespace Base

inductive FlagOp where
  | raise
  | look
  | take
  deriving DecidableEq

/-- Who looks at a flag or takes it learns whether it was raised. -/
def flag (up : Bool) : FlagOp → Bool × Option Bool
  | .raise => (true, none)
  | .look => (up, some up)
  | .take => (false, some up)

/-- What the parties do to a flag, and what they learn. -/
abbrev FlagCall := FlagOp × Option Bool

/-- How often somebody finds the flag raised and takes it. -/
def taken (calls : List FlagCall) : Nat :=
  calls.count (.take, some true)

def raised (calls : List FlagCall) : Nat :=
  calls.count (.raise, none)

variable {up : Bool} {calls before middle after : List FlagCall}

theorem taken_le_raised (legal : Legal flag up calls) :
    taken calls + (replay flag up calls).toNat ≤ raised calls + up.toNat := by
  induction calls generalizing up with
  | nil => exact Nat.le_of_eq (Nat.add_comm 0 up.toNat ▸ rfl)
  | cons call calls induction =>
      obtain ⟨op, answer⟩ := call
      obtain ⟨answered, rest⟩ := legal_cons_iff.mp legal
      have fewer := induction rest
      subst answered
      rw [replay_cons]
      cases op with
      | raise =>
          simp only [flag, taken, raised, List.count_cons] at fewer ⊢
          simp at fewer ⊢
          omega
      | look =>
          simp only [flag, taken, raised, List.count_cons] at fewer ⊢
          simpa using fewer
      | take =>
          simp only [flag, taken, raised, List.count_cons] at fewer ⊢
          cases up <;> simp at fewer ⊢ <;> omega

theorem raise_mem_of_replay (legal : Legal flag false calls)
    (pending : replay flag false calls = true) : (.raise, none) ∈ calls := by
  have fewer := taken_le_raised legal
  rw [pending] at fewer
  have positive : 0 < raised calls := by
    simp at fewer
    omega
  exact List.count_pos_iff.mp positive

/-- Between two that find the flag raised it has been raised. -/
theorem raised_between {answer : Option Bool}
    (legal : Legal flag up (before ++ (.take, answer) :: middle ++
      (.take, some true) :: after)) : (.raise, none) ∈ middle := by
  rw [List.append_assoc, List.cons_append] at legal
  have rest := (legal_append_iff.mp legal).2
  obtain ⟨lowered, last⟩ :=
    legal_append_iff.mp (legal_cons_iff.mp rest).2
  have found := (legal_cons_iff.mp last).1
  exact raise_mem_of_replay lowered (Option.some.inj found)

end Base
