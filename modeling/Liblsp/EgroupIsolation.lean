import Liblsp.EgroupMasks

/-!
# Waiters with disjoint masks

Leaving out the waits of all threads but one, and all bits but its own, turns
every run into a run, and the states reached into what that waiter sees.
-/

namespace Liblsp

open Base

namespace EgroupThreads

variable {Tid : Type} [DecidableEq Tid] {masks : Tid → UInt32}
  {s s' : EgroupThreads Tid} {action : EgroupAction Tid} {thread : Tid}

private theorem and_mask_and_or (eventBits bits mask : UInt32) :
    eventBits &&& mask &&& (eventBits ||| bits) = eventBits &&& mask := by
  apply UInt32.toBitVec_inj.1
  ext index below
  simp only [UInt32.toBitVec_and, UInt32.toBitVec_or, BitVec.getElem_and,
    BitVec.getElem_or]
  grind

theorem exec_of_step (stepped : s.step action = some s') :
    ∃ outcome, s.exec action = some (s', outcome) := by
  obtain ⟨⟨state, outcome⟩, executed, same⟩ :=
    Option.map_eq_some_iff.mp stepped
  cases same
  exact ⟨outcome, executed⟩

theorem step_of_exec {outcome : Option UInt32}
    (executed : s.exec action = some (s', outcome)) :
    s.step action = some s' := by
  rw [step, executed]
  rfl

/-- The run in which only one waiter and its bits are left. -/
def restrictRun (thread : Tid) (mask : UInt32)
    (actions : List (EgroupAction Tid)) : List (EgroupAction Tid) :=
  actions.filterMap fun action => action.restrict thread mask

variable {actions : List (EgroupAction Tid)}

theorem callsMasked_of_run
    (run : Run step (MaskedCalls masks) initial actions s) :
    CallsMasked masks s := by
  induction run with
  | nil =>
      intro thread call waits
      cases waits
  | snoc _ allowed stepped calls =>
      obtain ⟨outcome, executed⟩ := exec_of_step stepped
      exact calls.exec allowed executed

theorem run_restrict_step
    (disjoint : ∀ one other, one ≠ other → masks one &&& masks other = 0)
    (calls : CallsMasked masks s) (allowed : MaskedCalls masks s action)
    (stepped : s.step action = some s') (thread : Tid)
    {before : List (EgroupAction Tid)}
    (run : Run step (MaskedCalls masks) initial before
      (s.restrictTo thread (masks thread))) :
    Run step (MaskedCalls masks) initial
      (before ++ restrictRun thread (masks thread) [action])
      (s'.restrictTo thread (masks thread)) := by
  obtain ⟨outcome, executed⟩ := exec_of_step stepped
  rcases masked_action_cases allowed with
    ⟨waiter, waits⟩ | ⟨setter, bits, isSet⟩
  · by_cases own : waiter = thread
    · subst own
      have same := exec_restrictTo calls allowed waits executed
      simp only [restrictRun, List.filterMap_cons, List.filterMap_nil,
        restrict_of_waiter waits]
      apply Run.snoc run
      · cases action <;> exact allowed
      · exact step_of_exec same
    · simp only [restrictRun, List.filterMap_cons, List.filterMap_nil,
        restrict_of_other waits own, List.append_nil]
      rw [restrictTo_of_other (disjoint thread waiter (Ne.symm own)) calls
        allowed waits own executed]
      exact run
  · subst isSet
    obtain ⟨_, ended⟩ := exec_set.mp executed
    cases ended
    have same := restrictTo_set executed thread (masks thread)
    exact Run.snoc run trivial (step_of_exec same)

theorem run_restrict
    (disjoint : ∀ one other, one ≠ other → masks one &&& masks other = 0)
    (run : Run step (MaskedCalls masks) initial actions s) (thread : Tid) :
    Run step (MaskedCalls masks) initial
      (restrictRun thread (masks thread) actions)
      (s.restrictTo thread (masks thread)) := by
  induction run with
  | nil =>
      have start : (initial : EgroupThreads Tid).restrictTo thread
          (masks thread) = initial := by
        simp [restrictTo, initial, CondVar.only, CondVar.empty]
      rw [start]
      exact .nil
  | snoc run allowed stepped induction =>
      have calls := callsMasked_of_run run
      have next := run_restrict_step disjoint calls allowed stepped thread
        induction
      rw [restrictRun, List.filterMap_append]
      exact next

/-- The action ends a call of the thread. -/
def Returns (s : EgroupThreads Tid) (thread : Tid)
    (action : EgroupAction Tid) : Prop :=
  action.waiter = some thread ∧
    ∃ s' ebits, s.exec action = some (s', some ebits)

theorem keeps_bits
    (disjoint : ∀ one other, one ≠ other → masks one &&& masks other = 0)
    (calls : CallsMasked masks s) (allowed : MaskedCalls masks s action)
    (stays : ¬Returns s thread action) (stepped : s.step action = some s') :
    s.eventBits &&& masks thread &&& s'.eventBits =
      s.eventBits &&& masks thread := by
  obtain ⟨outcome, executed⟩ := exec_of_step stepped
  have unchanged : s'.eventBits &&& masks thread =
      s.eventBits &&& masks thread →
      s.eventBits &&& masks thread &&& s'.eventBits =
        s.eventBits &&& masks thread := by
    intro same
    rw [UInt32.and_assoc, UInt32.and_comm (masks thread), same,
      ← UInt32.and_assoc, UInt32.and_self]
  rcases masked_action_cases allowed with
    ⟨waiter, waits⟩ | ⟨setter, bits, isSet⟩
  · by_cases own : waiter = thread
    · subst own
      obtain ⟨call, cond, now, clock, _, masked, _, ended⟩ :=
        exec_masked calls allowed waits executed
      rcases loop_masked masked s.eventBits now clock with
        ⟨blocked, _, result⟩ | ⟨result, _⟩
      · rw [result] at ended
        cases ended
        exact unchanged rfl
      · rw [result] at ended
        cases ended
        exact absurd ⟨waits, _, _, executed⟩ stays
    · apply unchanged
      have view := restrictTo_of_other (disjoint thread waiter (Ne.symm own))
        calls allowed waits own executed
      exact congrArg EgroupThreads.eventBits view
  · subst isSet
    obtain ⟨_, ended⟩ := exec_set.mp executed
    cases ended
    exact and_mask_and_or s.eventBits bits (masks thread)

/-- Until its next return a waiter loses no bit of its mask. -/
theorem keeps_bits_of_run
    (disjoint : ∀ one other, one ≠ other → masks one &&& masks other = 0)
    (calls : CallsMasked masks s)
    (run : Run step (fun state action => MaskedCalls masks state action ∧
      ¬Returns state thread action) s actions s') :
    CallsMasked masks s' ∧
      s.eventBits &&& masks thread &&& s'.eventBits =
        s.eventBits &&& masks thread := by
  induction run with
  | nil =>
      refine ⟨calls, ?_⟩
      rw [UInt32.and_assoc, UInt32.and_comm (masks thread),
        ← UInt32.and_assoc, UInt32.and_self]
  | @snoc actions state next action _ allowed stepped induction =>
      obtain ⟨calls, bits⟩ := induction
      obtain ⟨outcome, executed⟩ := exec_of_step stepped
      refine ⟨calls.exec allowed.1 executed, ?_⟩
      have kept := keeps_bits disjoint calls allowed.1 allowed.2 stepped
      calc
        s.eventBits &&& masks thread &&& next.eventBits
            = s.eventBits &&& masks thread &&& state.eventBits &&&
                next.eventBits := by rw [bits]
        _ = s.eventBits &&&
              (state.eventBits &&& masks thread &&& next.eventBits) := by
          simp only [UInt32.and_assoc,
            UInt32.and_comm (masks thread) (state.eventBits &&& _),
            UInt32.and_comm (masks thread) next.eventBits]
        _ = s.eventBits &&& (state.eventBits &&& masks thread) := by
          rw [kept]
        _ = s.eventBits &&& masks thread &&& state.eventBits := by
          rw [UInt32.and_assoc, UInt32.and_comm (masks thread)]
        _ = s.eventBits &&& masks thread := bits

/-- What holds for one waiter after a run with other waiters and setters. -/
structure Undisturbed (masks : Tid → UInt32)
    (actions : List (EgroupAction Tid)) (s : EgroupThreads Tid)
    (thread : Tid) : Prop where
  alone : ∃ alone,
    Run step (MaskedCalls masks) initial
        (restrictRun thread (masks thread) actions) alone ∧
      alone.eventBits = s.eventBits &&& masks thread ∧
      alone.call thread = s.call thread
  answers : ∀ action call s' ebits, MaskedCalls masks s action →
    action.waiter = some thread → s.callOf action = some call →
    s.exec action = some (s', some ebits) →
    egroupHolds ebits (masks thread) call.waitAll = true
  stays : ∀ more s',
    Run step (fun state action => MaskedCalls masks state action ∧
      ¬Returns state thread action) s more s' →
    s.eventBits &&& masks thread &&& s'.eventBits =
      s.eventBits &&& masks thread

/-- Waiters with pairwise disjoint masks that clear only their own bits do not
disturb each other, in any run and however often they wake for nothing. -/
theorem undisturbed_of_run
    (disjoint : ∀ one other, one ≠ other → masks one &&& masks other = 0)
    (run : Run step (MaskedCalls masks) initial actions s) (thread : Tid) :
    Undisturbed masks actions s thread := by
  have calls := callsMasked_of_run run
  constructor
  · refine ⟨s.restrictTo thread (masks thread), ?_, rfl, ?_⟩
    · exact run_restrict disjoint run thread
    · simp [restrictTo]
  · intro action call s' ebits allowed waits of executed
    obtain ⟨same, cond, now, clock, isCall, masked, _, ended⟩ :=
      exec_masked calls allowed waits executed
    cases of.symm.trans isCall
    rcases loop_masked masked s.eventBits now clock with
      ⟨blocked, _, result⟩ | ⟨result, present⟩
    · rw [result] at ended
      cases ended
    · rw [result] at ended
      cases ended
      exact present
  · intro more s' continued
    exact (keeps_bits_of_run disjoint calls continued).2

section Examples

/-- Thread 0 waits for both of the bits 1 and 2, thread 1 for bit 4. -/
def twoMasks : Nat → UInt32
  | 0 => 3
  | 1 => 4
  | _ => 0

/-- A set wakes both waiters; one goes back to sleep, the other returns. -/
def wokenTogether : List (EgroupAction Nat) :=
  [.wait 0 3 false true lspTimeoutMax none none none,
    .wait 1 4 false false lspTimeoutMax none none none,
    .set 2 5,
    .resume 0 .ok none none,
    .resume 1 .ok none none]

private theorem twoMasks_disjoint : ∀ one other, one ≠ other →
    twoMasks one &&& twoMasks other = 0 := by
  intro one other different
  match one, other with
  | 0, 0 => exact absurd rfl different
  | 1, 1 => exact absurd rfl different
  | 0, 1 => decide
  | 1, 0 => decide
  | 0, _ + 2 => exact UInt32.and_zero
  | 1, _ + 2 => exact UInt32.and_zero
  | _ + 2, _ => exact UInt32.zero_and

theorem undisturbed_wokenTogether :
    ∃ s, Run step (MaskedCalls twoMasks) initial wokenTogether s ∧
      s.eventBits = 1 ∧ Undisturbed twoMasks wokenTogether s 0 := by
  have executed :
      (execute step (MaskedCalls twoMasks) initial wokenTogether).map
        EgroupThreads.eventBits = some 1 := by
    decide
  obtain ⟨s, run, eventBits⟩ := exists_run_of_execute executed
  exact ⟨s, run, eventBits, undisturbed_of_run twoMasks_disjoint run 0⟩

end Examples

end EgroupThreads

end Liblsp
