import Liblsp.Base.Threads
import Liblsp.EgroupThreads

/-!
# No waiter sleeps on an event that is there

A set wakes everybody, an exit only clears bits, and a thread that resumes
tests before it blocks again.  So a thread can sleep on a present event only
if it started to: the loops with a finite timeout block before their first
test, the ones without a timeout do not.
-/

namespace Liblsp

open Base

namespace EgroupThreads

variable {Tid : Type}

/-- Nobody is blocked, and not woken yet, on a condition that holds. -/
def NoSleeperOnEvent (s : EgroupThreads Tid) : Prop :=
  ∀ thread ∈ s.cond.sleeping, ∀ call, s.call thread = some call →
    egroupHolds s.eventBits call.bits call.waitAll = false

/-- A call that blocks untested comes before its event. -/
def BlocksBeforeEvent (s : EgroupThreads Tid) : EgroupAction Tid → Prop
  | .wait _ bits _ waitAll timeout start now clock =>
      egroupBlocksUntested timeout start now clock →
        egroupHolds s.eventBits bits waitAll = false
  | _ => True

instance (s : EgroupThreads Tid) (action : EgroupAction Tid) :
    Decidable (BlocksBeforeEvent s action) :=
  match action with
  | .wait .. => inferInstanceAs (Decidable (_ → _))
  | .waitLockFails .. | .resume .. | .set .. | .setLockFails .. =>
      inferInstanceAs (Decidable True)

variable [DecidableEq Tid]

private theorem NoSleeperOnEvent.falls_asleep {s : EgroupThreads Tid}
    (before : NoSleeperOnEvent s) {thread : Tid} {blocked : EgroupCall}
    {cond : CondVar Tid}
    (fewer : ∀ other ∈ cond.sleeping, other ∈ s.cond.sleeping)
    (absent : egroupHolds s.eventBits blocked.bits blocked.waitAll = false) :
    NoSleeperOnEvent
      { s with
        cond := cond.wait thread
        call := Function.update s.call thread (some blocked) } := by
  intro other asleep call waits
  rcases point_cases waits with ⟨_, latest⟩ | ⟨different, earlier⟩
  · cases latest
    exact absent
  · have slept : other ∈ cond.sleeping := by
      simpa [different] using asleep
    exact before other (fewer other slept) call earlier

theorem NoSleeperOnEvent.step {s s' : EgroupThreads Tid}
    {action : EgroupAction Tid} (before : NoSleeperOnEvent s)
    (early : BlocksBeforeEvent s action) (stepped : Step s action s') :
    NoSleeperOnEvent s' := by
  cases stepped with
  | unchanged => exact before
  | sets =>
      intro thread asleep
      cases asleep
  | exits fewer =>
      intro other asleep call waits
      have earlier : s.call other = some call := by
        rcases point_cases waits with ⟨_, none⟩ | ⟨_, earlier⟩
        · cases none
        · exact earlier
      apply Bool.eq_false_iff.mpr
      intro present
      have held := egroupHolds_of_and present
      rw [before other (fewer other asleep) call earlier] at held
      cases held
  | blocks same why =>
      apply before.falls_asleep (fun _ asleep => asleep)
      rw [same.1, same.2.2.1]
      rcases why with untested | absent
      · exact early untested
      · exact absent
  | blocksAgain _ same absent fewer =>
      apply before.falls_asleep fewer
      rw [same.1, same.2.2.1]
      exact absent

/-- A call that blocks untested on a present event sleeps on it. -/
theorem sleeps_on_event {s s' : EgroupThreads Tid}
    {action : EgroupAction Tid} (late : ¬BlocksBeforeEvent s action)
    (stepped : s.step action = some s') : ¬NoSleeperOnEvent s' := by
  cases action with
  | wait thread bits clearOnExit waitAll timeout start now clock =>
      obtain ⟨untested, present⟩ := Classical.not_imp.mp late
      obtain ⟨blocked, same, blocks⟩ := lspEgroupWaitLocked_untested untested
        s.eventBits bits clearOnExit waitAll
      cases place : s.call thread with
      | some call => simp [step, exec, place] at stepped
      | none =>
          simp only [step, exec, place, blocks, Option.map_some,
            Option.some.injEq] at stepped
          subst s'
          intro none
          apply present
          have asleep := none thread (by simp [endSection]) blocked
            (by simp [endSection])
          rw [same.1, same.2.2.1] at asleep
          exact asleep
  | waitLockFails => exact absurd trivial late
  | resume => exact absurd trivial late
  | set => exact absurd trivial late
  | setLockFails => exact absurd trivial late

/-- As long as every call that blocks untested comes before its event, no
thread sleeps on an event that is there; and the first call that comes after
its event does. -/
theorem noSleeperOnEvent_of_run {actions : List (EgroupAction Tid)}
    {s : EgroupThreads Tid}
    (run : Run step BlocksBeforeEvent initial actions s) :
    NoSleeperOnEvent s ∧
      ∀ action s', s.step action = some s' →
        (NoSleeperOnEvent s' ↔ BlocksBeforeEvent s action) := by
  have now : NoSleeperOnEvent s := by
    apply run.invariant
    · intro thread asleep
      cases asleep
    · intro state action next before early stepped
      exact before.step early (step_cases stepped)
  refine ⟨now, ?_⟩
  intro action s' stepped
  constructor
  · intro after
    by_contra late
    exact sleeps_on_event late stepped after
  · intro early
    exact now.step early (step_cases stepped)

section Examples

/-- A finite wait for bit 1, set while it sleeps; meanwhile a wait for all of
bits 1 and 2 sleeps, wakes and sleeps again. -/
def setWhileAsleep : List (EgroupAction Nat) :=
  [.wait 0 1 false false 500 (some ⟨7, 0⟩) (some ⟨7, 0⟩) (some ⟨7, 0⟩),
    .wait 1 3 false true lspTimeoutMax none none none,
    .set 2 1,
    .resume 1 .ok none none,
    .resume 0 .ok none none]

theorem noSleeperOnEvent_setWhileAsleep :
    ∃ s, Run step BlocksBeforeEvent initial setWhileAsleep s ∧
      s.cond.sleeping = [1] ∧ NoSleeperOnEvent s := by
  have executed :
      (execute step BlocksBeforeEvent initial setWhileAsleep).map
        (fun s => s.cond.sleeping) = some [1] := by
    decide
  obtain ⟨s, run, sleeping⟩ := exists_run_of_execute executed
  exact ⟨s, run, sleeping, (noSleeperOnEvent_of_run run).1⟩

/-- The event is set before a finite wait for it starts. -/
def setBeforeWait : List (EgroupAction Nat) :=
  [.set 1 1,
    .wait 0 1 false false 500 (some ⟨7, 0⟩) (some ⟨7, 0⟩) (some ⟨7, 0⟩)]

/-- The waiter sleeps on the event that is there. -/
theorem setBeforeWait_sleeps :
    ∃ s, Run step Anywhere initial setBeforeWait s ∧
      s.cond.sleeping = [0] ∧ ¬NoSleeperOnEvent s := by
  have executed :
      (execute step Anywhere initial setBeforeWait).map
        (fun s => (s.cond.sleeping, s.eventBits,
          (s.call 0).map fun call => (call.bits, call.waitAll))) =
        some ([0], 1, some (1, false)) := by
    decide
  obtain ⟨s, run, view⟩ := exists_run_of_execute executed
  simp only [Prod.mk.injEq, Option.map_eq_some_iff] at view
  obtain ⟨sleeping, eventBits, call, waits, bits, waitAll⟩ := view
  refine ⟨s, run, sleeping, ?_⟩
  intro none
  have absent := none 0 (by simp [sleeping]) call waits
  rw [eventBits, bits, waitAll] at absent
  cases absent

end Examples

end EgroupThreads

end Liblsp
