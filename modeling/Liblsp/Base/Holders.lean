import Liblsp.Base.Sections

/-!
# How long a lock is held

Every thread that takes the lock gives it back if it can always run its next
statement and if each of its statements brings it nearer to the release.
The other threads cannot hold it up.
-/

namespace Base

variable {Tid σ Place Choice ι ρ : Type*} [DecidableEq Tid]

namespace Statements

variable {program : Statements Tid σ Place Choice (Option (ι × ρ))}
  {allowed : Tid → σ → Place → Choice → Prop} {rank : σ → Place → Nat}

theorem exec_isSome {s : Interleaving Tid σ Place} {holder : Tid}
    {choice : Choice} (held : program.holds (s.place holder) = true)
    (moves : (program.run holder s.shared (s.place holder) choice).isSome =
      true) : (program.exec s (holder, choice)).isSome = true := by
  obtain ⟨ended, runs⟩ := Option.isSome_iff_exists.mp moves
  simp [exec, runs, held]

/-- Every statement of a holder brings it nearer to the release. -/
def Nears (program : Statements Tid σ Place Choice (Option (ι × ρ)))
    (rank : σ → Place → Nat) : Prop :=
  ∀ thread shared place choice shared' place' outcome,
    program.holds place = true →
      program.run thread shared place choice =
        some (shared', place', outcome) →
      rank shared' place' < rank shared place

namespace Nears

variable {s s' : Interleaving Tid σ Place} {holder : Tid}

theorem rank_exec (nears : Nears program rank)
    (disciplined : Disciplined program allowed) (owned : Owned program s)
    (holds : s.owner = some holder) {action : Tid × Choice}
    {outcome : Option (ι × ρ)}
    (executed : program.exec s action = some (s', outcome)) :
    rank s'.shared (s'.place holder) + (if action.1 = holder then 1 else 0) ≤
      rank s.shared (s.place holder) := by
  obtain ⟨mover, choice⟩ := action
  obtain ⟨shared, place, runs, available, rfl⟩ := exec_cases executed
  have held := (owned holder).mp holds
  by_cases own : mover = holder
  · subst mover
    have nearer := nears _ _ _ _ _ _ _ held runs
    simp only [Function.update_self, if_true]
    omega
  · have away : program.holds (s.place mover) = false := by
      rw [Bool.eq_false_iff]
      intro other
      have same := holds.symm.trans ((owned mover).mpr other)
      exact own (Option.some.inj same).symm
    have unheld : program.holds place = false := by
      rw [Bool.eq_false_iff]
      intro taken
      rw [available taken away] at holds
      cases holds
    obtain ⟨rfl, _⟩ := disciplined.outside _ _ _ _ _ _ _ away runs unheld
    simp only [Function.update_of_ne (Ne.symm own), if_neg own]
    exact Nat.le_refl _

/-- As long as it holds the lock, a thread runs no more statements than its
rank allows, however many the others run. -/
theorem rank_run (nears : Nears program rank)
    (disciplined : Disciplined program allowed) (owned : Owned program s)
    {actions : List (Tid × Choice)}
    (run : Run (fun s action => (program.exec s action).map Prod.fst)
      (fun s _ => s.owner = some holder) s actions s') :
    rank s'.shared (s'.place holder) +
        actions.countP (fun action => action.1 = holder) ≤
      rank s.shared (s.place holder) := by
  induction run with
  | nil => exact Nat.le_refl _
  | @snoc actions state next action before holds stepped induction =>
      obtain ⟨⟨_, outcome⟩, executed, rfl⟩ :=
        Option.map_eq_some_iff.mp stepped
      have step := nears.rank_exec disciplined (owned.run before) holds
        executed
      rw [List.countP_append, List.countP_singleton]
      simp only [decide_eq_true_eq]
      omega

end Nears

end Statements

end Base
