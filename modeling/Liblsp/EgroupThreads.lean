import Liblsp.Egroup
import Liblsp.QueueThreads

/-!
# Threads on an event group

Any number of threads call `lsp_egroup_wait` and `lsp_egroup_set`.  A section
that holds the mutex is one step.  The action of a step names the thread and
fixes what the schedule and the system decide: whether the lock succeeds, the
clock readings and the result of a wait.
-/

namespace Liblsp

open Base

/-- An event group and the threads blocked on it. -/
structure EgroupThreads (Tid : Type) where
  eventBits : UInt32
  cond : CondVar Tid
  call : Tid → Option EgroupCall

/-- A wait whose lock fails returns the uninitialised `ebits`. -/
inductive EgroupAction (Tid : Type) where
  | wait (thread : Tid) (bits : UInt32) (clearOnExit waitAll : Bool)
      (timeout : UInt32) (start now clock : Option Timespec)
  | waitLockFails (thread : Tid) (ebits : UInt32)
  | resume (thread : Tid) (result : WaitResult)
      (now clock : Option Timespec)
  | set (thread : Tid) (bits : UInt32)
  | setLockFails (thread : Tid)

namespace EgroupThreads

open QueueThreads (endWait)

variable {Tid : Type}

/-- A new event group. -/
def initial : EgroupThreads Tid :=
  { eventBits := 0
    cond := .empty
    call := fun _ => none }

variable [DecidableEq Tid]

/-- A section of `lsp_egroup_wait` ends for a thread. -/
def endSection (s : EgroupThreads Tid) (thread : Tid) :
    UInt32 × EgroupEnd → EgroupThreads Tid × Option UInt32
  | (eventBits, .wait call) =>
      ({ eventBits := eventBits
         cond := s.cond.wait thread
         call := Function.update s.call thread (some call) }, none)
  | (eventBits, .ret ebits) =>
      ({ s with
         eventBits := eventBits
         call := Function.update s.call thread none }, some ebits)

/-- One section under the mutex.  The second result is what a wait returns,
`none` when it stays blocked and for the other function. -/
def exec (s : EgroupThreads Tid) :
    EgroupAction Tid → Option (EgroupThreads Tid × Option UInt32)
  | .wait thread bits clearOnExit waitAll timeout start now clock =>
      match s.call thread with
      | none =>
          some (s.endSection thread
            (lspEgroupWaitLocked s.eventBits bits clearOnExit waitAll timeout
              start now clock))
      | some _ => none
  | .waitLockFails thread ebits =>
      match s.call thread with
      | none => some (s, some ebits)
      | some _ => none
  | .resume thread result now clock =>
      match s.call thread with
      | none => none
      | some call =>
          (endWait s.cond thread call.deadline result).map fun cond =>
            ({ s with cond := cond } : EgroupThreads Tid).endSection thread
              (lspEgroupWaitResumed s.eventBits call result now clock)
  | .set thread bits =>
      match s.call thread with
      | none =>
          some ({ s with
            eventBits := lspEgroupSetLocked s.eventBits bits
            cond := s.cond.broadcast }, none)
      | some _ => none
  | .setLockFails thread =>
      match s.call thread with
      | none => some (s, none)
      | some _ => none

def step (s : EgroupThreads Tid) (action : EgroupAction Tid) :
    Option (EgroupThreads Tid) :=
  (s.exec action).map Prod.fst

section Sections

variable {s : EgroupThreads Tid} {thread : Tid}
  {ended : EgroupThreads Tid × Option UInt32}

theorem exec_wait {bits : UInt32} {clearOnExit waitAll : Bool}
    {timeout : UInt32} {start now clock : Option Timespec} :
    s.exec (.wait thread bits clearOnExit waitAll timeout start now clock) =
        some ended ↔
      s.call thread = none ∧
        s.endSection thread
          (lspEgroupWaitLocked s.eventBits bits clearOnExit waitAll timeout
            start now clock) = ended := by
  cases place : s.call thread with
  | none => simp [exec, place]
  | some call => simp [exec, place]

theorem exec_resume {result : WaitResult} {now clock : Option Timespec} :
    s.exec (.resume thread result now clock) = some ended ↔
      ∃ call cond, s.call thread = some call ∧
        endWait s.cond thread call.deadline result = some cond ∧
        ({ s with cond := cond } : EgroupThreads Tid).endSection thread
          (lspEgroupWaitResumed s.eventBits call result now clock) =
            ended := by
  cases place : s.call thread with
  | none => simp [exec, place]
  | some call => simp [exec, place, Option.map_eq_some_iff]

theorem exec_set {bits : UInt32} :
    s.exec (.set thread bits) = some ended ↔
      s.call thread = none ∧
        ({ s with
          eventBits := lspEgroupSetLocked s.eventBits bits
          cond := s.cond.broadcast }, none) = ended := by
  cases place : s.call thread with
  | none => simp [exec, place]
  | some call => simp [exec, place]

theorem exec_waitLockFails {ebits : UInt32} :
    s.exec (.waitLockFails thread ebits) = some ended ↔
      s.call thread = none ∧ (s, some ebits) = ended := by
  cases place : s.call thread with
  | none => simp [exec, place]
  | some call => simp [exec, place]

theorem exec_setLockFails :
    s.exec (.setLockFails thread) = some ended ↔
      s.call thread = none ∧ (s, none) = ended := by
  cases place : s.call thread with
  | none => simp [exec, place]
  | some call => simp [exec, place]

end Sections

/-- Everything a step can do. -/
inductive Step (s : EgroupThreads Tid) :
    EgroupAction Tid → EgroupThreads Tid → Prop where
  | unchanged {action : EgroupAction Tid} : Step s action s
  | sets {thread : Tid} {bits : UInt32} :
      Step s (.set thread bits)
        { s with
          eventBits := lspEgroupSetLocked s.eventBits bits
          cond := s.cond.broadcast }
  | exits {action : EgroupAction Tid} {thread : Tid} {kept : UInt32}
      {cond : CondVar Tid} :
      (∀ other ∈ cond.sleeping, other ∈ s.cond.sleeping) →
      Step s action
        { eventBits := s.eventBits &&& kept
          cond := cond
          call := Function.update s.call thread none }
  | blocks {thread : Tid} {bits : UInt32} {clearOnExit waitAll : Bool}
      {timeout : UInt32} {start now clock : Option Timespec}
      {blocked : EgroupCall} :
      blocked.SameWait (.enter bits clearOnExit waitAll timeout start) →
      (egroupBlocksUntested timeout start now clock ∨
        egroupHolds s.eventBits bits waitAll = false) →
      Step s
        (.wait thread bits clearOnExit waitAll timeout start now clock)
        { s with
          cond := s.cond.wait thread
          call := Function.update s.call thread (some blocked) }
  | blocksAgain {thread : Tid} {result : WaitResult}
      {now clock : Option Timespec} {call blocked : EgroupCall}
      {cond : CondVar Tid} :
      s.call thread = some call →
      blocked.SameWait call →
      egroupHolds s.eventBits call.bits call.waitAll = false →
      (∀ other ∈ cond.sleeping, other ∈ s.cond.sleeping) →
      Step s (.resume thread result now clock)
        { s with
          cond := cond.wait thread
          call := Function.update s.call thread (some blocked) }

section Inversion

variable {s s' : EgroupThreads Tid}

private theorem endWait_sleeping {cond after : CondVar Tid}
    {thread other : Tid} {deadline : Option Timespec} {result : WaitResult}
    (ended : endWait cond thread deadline result = some after)
    (asleep : other ∈ after.sleeping) : other ∈ cond.sleeping := by
  cases result with
  | ok => exact CondVar.resume_sleeping ended asleep
  | etimedout =>
      cases deadline with
      | none => cases ended
      | some deadline => exact CondVar.expire_sleeping ended asleep
  | einval => cases ended

private theorem step_of_wait {thread : Tid} {bits : UInt32}
    {clearOnExit waitAll : Bool} {timeout : UInt32}
    {start now clock : Option Timespec}
    (stepped : s.step
      (.wait thread bits clearOnExit waitAll timeout start now clock) =
        some s') :
    Step s (.wait thread bits clearOnExit waitAll timeout start now clock)
      s' := by
  obtain ⟨reached, executed, same⟩ := Option.map_eq_some_iff.mp stepped
  obtain ⟨_, ended⟩ := exec_wait.mp executed
  subst same
  subst ended
  rcases lspEgroupWaitLocked_cases s.eventBits bits clearOnExit waitAll
    timeout start now clock with
    ⟨kept, exits⟩ | ⟨blocked, same, blocks, why⟩
  · rw [exits]
    exact .exits (fun _ asleep => asleep)
  · rw [blocks]
    exact .blocks same why

private theorem step_of_resume {thread : Tid} {result : WaitResult}
    {now clock : Option Timespec}
    (stepped : s.step (.resume thread result now clock) = some s') :
    Step s (.resume thread result now clock) s' := by
  obtain ⟨reached, executed, same⟩ := Option.map_eq_some_iff.mp stepped
  obtain ⟨call, cond, place, waited, ended⟩ := exec_resume.mp executed
  subst same
  subst ended
  have fewer : ∀ other ∈ cond.sleeping, other ∈ s.cond.sleeping :=
    fun _ asleep => endWait_sleeping waited asleep
  rcases lspEgroupWaitResumed_cases s.eventBits call result now clock with
    ⟨kept, exits⟩ | ⟨blocked, same, blocks, absent⟩
  · rw [exits]
    exact .exits fewer
  · rw [blocks]
    exact .blocksAgain place same absent fewer

theorem step_cases {action : EgroupAction Tid}
    (stepped : s.step action = some s') : Step s action s' := by
  cases action with
  | wait => exact step_of_wait stepped
  | resume => exact step_of_resume stepped
  | waitLockFails thread ebits =>
      obtain ⟨reached, executed, same⟩ := Option.map_eq_some_iff.mp stepped
      obtain ⟨_, ended⟩ := exec_waitLockFails.mp executed
      subst same
      subst ended
      exact .unchanged
  | set thread bits =>
      obtain ⟨reached, executed, same⟩ := Option.map_eq_some_iff.mp stepped
      obtain ⟨_, ended⟩ := exec_set.mp executed
      subst same
      subst ended
      exact .sets
  | setLockFails thread =>
      obtain ⟨reached, executed, same⟩ := Option.map_eq_some_iff.mp stepped
      obtain ⟨_, ended⟩ := exec_setLockFails.mp executed
      subst same
      subst ended
      exact .unchanged

end Inversion

end EgroupThreads

end Liblsp
