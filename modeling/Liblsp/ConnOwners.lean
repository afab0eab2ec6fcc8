import Mathlib.Data.List.Induction
import Mathlib.Data.List.Nodup

/-!
# Owners of connections

The trace of a pool says which slot `lsp_conn_alloc` returned and which slot
`lsp_conn_free` set free, in the order of these steps.
-/

namespace Liblsp

inductive ConnEvent where
  | returned (slot : Nat)
  | freed (slot : Nat)
  deriving DecidableEq

/-- The slots in the hands of callers after one more event. -/
def holdAfter (held : List Nat) : ConnEvent → List Nat
  | .returned slot => slot :: held
  | .freed slot => held.filter (· ≠ slot)

/-- The slots in the hands of callers. -/
def held (trace : List ConnEvent) : List Nat :=
  trace.foldl holdAfter []

/-- No slot is returned again before it is freed, and no two callers hold the
same slot. -/
structure NeverTwoOwners (trace : List ConnEvent) : Prop where
  between : ∀ before mid after slot,
    trace = before ++ .returned slot :: (mid ++ .returned slot :: after) →
      .freed slot ∈ mid
  distinct : (held trace).Nodup

@[simp] theorem held_concat (trace : List ConnEvent) (event : ConnEvent) :
    held (trace ++ [event]) = holdAfter (held trace) event := by
  rw [held, List.foldl_append]
  rfl

theorem mem_held_of_returned {before mid : List ConnEvent} {slot : Nat}
    (kept : .freed slot ∉ mid) :
    slot ∈ held (before ++ .returned slot :: mid) := by
  induction mid using List.reverseRecOn with
  | nil =>
      rw [held_concat]
      exact List.mem_cons_self
  | append_singleton mid event induction =>
      have earlier : slot ∈ held (before ++ .returned slot :: mid) := by
        apply induction
        exact fun member => kept (List.mem_append_left _ member)
      rw [← List.cons_append, ← List.append_assoc, held_concat]
      cases event with
      | returned other => exact List.mem_cons_of_mem _ earlier
      | freed other =>
          have different : slot ≠ other := by
            intro same
            rw [same] at kept
            simp at kept
          exact List.mem_filter.mpr ⟨earlier, by simpa using different⟩

theorem neverTwoOwners_nil : NeverTwoOwners [] := by
  constructor
  · intro before mid after slot shape
    simp at shape
  · exact .nil

private theorem pair_cases {trace before mid after : List ConnEvent}
    {event : ConnEvent} {slot : Nat}
    (shape : trace ++ [event] =
      before ++ .returned slot :: (mid ++ .returned slot :: after)) :
    (event = .returned slot ∧ trace = before ++ .returned slot :: mid) ∨
      ∃ rest, trace =
        before ++ .returned slot :: (mid ++ .returned slot :: rest) := by
  rcases List.eq_nil_or_concat after with none | ⟨rest, last, split⟩
  · left
    subst after
    rw [← List.cons_append, ← List.append_assoc] at shape
    obtain ⟨front, back⟩ := List.append_inj' shape rfl
    exact ⟨(List.cons.inj back).1, front⟩
  · right
    rw [List.concat_eq_append] at split
    subst after
    refine ⟨rest, ?_⟩
    have regrouped : trace ++ [event] =
        (before ++ .returned slot :: (mid ++ .returned slot :: rest)) ++
          [last] := by
      simpa using shape
    exact (List.append_inj' regrouped rfl).1

theorem NeverTwoOwners.freed {trace : List ConnEvent}
    (sound : NeverTwoOwners trace) (slot : Nat) :
    NeverTwoOwners (trace ++ [.freed slot]) := by
  constructor
  · intro before mid after other shape
    rcases pair_cases shape with ⟨wrong, _⟩ | ⟨rest, earlier⟩
    · cases wrong
    · exact sound.between before mid rest other earlier
  · rw [held_concat]
    exact sound.distinct.filter _

theorem NeverTwoOwners.returned {trace : List ConnEvent} {slot : Nat}
    (sound : NeverTwoOwners trace) (available : slot ∉ held trace) :
    NeverTwoOwners (trace ++ [.returned slot]) := by
  constructor
  · intro before mid after other shape
    rcases pair_cases shape with ⟨last, front⟩ | ⟨rest, earlier⟩
    · by_contra kept
      have mine : slot = other := ConnEvent.returned.inj last
      rw [mine, front] at available
      exact available (mem_held_of_returned kept)
    · exact sound.between before mid rest other earlier
  · rw [held_concat]
    exact List.nodup_cons.mpr ⟨available, sound.distinct⟩

end Liblsp
