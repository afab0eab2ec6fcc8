import Liblsp.Base.CondVar
import Liblsp.Base.Run
import Liblsp.QueueContents
import Mathlib.Logic.Function.Basic

/-!
# Threads on a queue

Any number of threads call `lsp_queue_push` and `lsp_queue_pop`.  A section
that holds the mutex is one step.  The action of a step names the thread and
fixes what the schedule and the system decide: the clock reading, the result
of a wait, and the waiter that `pthread_cond_signal` marks.
-/

namespace Liblsp

open Base

/-- Where a thread is: in no queue function, or blocked in one of them. -/
inductive QueueCall where
  | outside
  | pushing (item : Nat → UInt8) (deadline : Option Timespec)
  | popping (deadline : Option Timespec)

/-- The queue, its condition variables and the threads.  The items of the
successful pushes and pops are recorded in the order of their sections. -/
structure QueueThreads (Tid : Type) where
  queue : LspQueueHandle
  condFull : CondVar Tid
  condEmpty : CondVar Tid
  call : Tid → QueueCall
  pushed : List (List UInt8)
  popped : List (List UInt8)

inductive QueueAction (Tid : Type) where
  | lockFails (thread : Tid)
  | push (thread : Tid) (item : Nat → UInt8) (timeout : UInt32)
      (clock : Option Timespec) (pick : Tid)
  | pushResumes (thread : Tid) (result : WaitResult) (pick : Tid)
  | pop (thread : Tid) (timeout : UInt32) (clock : Option Timespec)
      (pick : Tid)
  | popResumes (thread : Tid) (result : WaitResult) (pick : Tid)

namespace QueueThreads

variable {Tid : Type}

/-- No thread has called the queue yet. -/
def initial (hdl : LspQueueHandle) : QueueThreads Tid :=
  { queue := hdl
    condFull := .empty
    condEmpty := .empty
    call := fun _ => .outside
    pushed := []
    popped := [] }

variable [DecidableEq Tid]

/-- A blocked thread gets the mutex back: after a signal or spuriously with
`0`, and from a timed wait also with `ETIMEDOUT`. -/
def endWait (cond : CondVar Tid) (thread : Tid)
    (deadline : Option Timespec) : WaitResult → Option (CondVar Tid)
  | .ok => cond.resume thread
  | .etimedout => if deadline.isSome then cond.expire thread else none
  | .einval => none

/-- The end of a push: the signal for a stored item, then the unlock. -/
def finishPush (s : QueueThreads Tid) (thread pick : Tid)
    (item : Nat → UInt8) (hdl : LspQueueHandle) (rc : Int) :
    Option (QueueThreads Tid × Option Int) :=
  let call := Function.update s.call thread .outside
  if rc = lspErrNone then
    (s.condEmpty.signal pick).map fun condEmpty =>
      ({ s with
          queue := hdl
          condEmpty := condEmpty
          call := call
          pushed := s.pushed ++ [s.queue.block item] }, some rc)
  else some ({ s with queue := hdl, call := call }, some rc)

/-- The end of a pop: the signal for a free entry, then the unlock. -/
def finishPop (s : QueueThreads Tid) (thread pick : Tid)
    (hdl : LspQueueHandle) (rc : Int) :
    Option (QueueThreads Tid × Option Int) :=
  let call := Function.update s.call thread .outside
  if rc = lspErrNone then
    (s.condFull.signal pick).map fun condFull =>
      ({ s with
          queue := hdl
          condFull := condFull
          call := call
          popped := s.popped ++ [s.queue.entry s.queue.head] }, some rc)
  else some ({ s with queue := hdl, call := call }, some rc)

/-- One section under the mutex.  The second result is what the call
returns, `none` when it stays blocked. -/
def exec (s : QueueThreads Tid) :
    QueueAction Tid → Option (QueueThreads Tid × Option Int)
  | .lockFails thread =>
      match s.call thread with
      | .outside => some (s, some lspErrMutex)
      | _ => none
  | .push thread item timeout clock pick =>
      match s.call thread with
      | .outside =>
          match lspQueuePushLocked s.queue item timeout clock with
          | (hdl, .wait deadline) =>
              some ({ s with
                queue := hdl
                condFull := s.condFull.wait thread
                call := Function.update s.call thread
                  (.pushing item deadline) }, none)
          | (hdl, .ret rc) => s.finishPush thread pick item hdl rc
      | _ => none
  | .pushResumes thread result pick =>
      match s.call thread with
      | .pushing item deadline =>
          (endWait s.condFull thread deadline result).bind fun condFull =>
            let (hdl, rc) := lspQueuePushResumed s.queue item result
            ({ s with condFull := condFull } :
              QueueThreads Tid).finishPush thread pick item hdl rc
      | _ => none
  | .pop thread timeout clock pick =>
      match s.call thread with
      | .outside =>
          match lspQueuePopLocked s.queue timeout clock with
          | (hdl, .wait deadline) =>
              some ({ s with
                queue := hdl
                condEmpty := s.condEmpty.wait thread
                call := Function.update s.call thread
                  (.popping deadline) }, none)
          | (hdl, .ret rc) => s.finishPop thread pick hdl rc
      | _ => none
  | .popResumes thread result pick =>
      match s.call thread with
      | .popping deadline =>
          (endWait s.condEmpty thread deadline result).bind fun condEmpty =>
            let (hdl, rc) := lspQueuePopResumed s.queue result
            ({ s with condEmpty := condEmpty } :
              QueueThreads Tid).finishPop thread pick hdl rc
      | _ => none

def step (s : QueueThreads Tid) (action : QueueAction Tid) :
    Option (QueueThreads Tid) :=
  (s.exec action).map Prod.fst

/-- Everything a step can do. -/
inductive Step (s : QueueThreads Tid) :
    QueueAction Tid → QueueThreads Tid → Option Int → Prop where
  | unchanged {action : QueueAction Tid} {call : Tid → QueueCall} {rc : Int} :
      rc ≠ lspErrNone →
      Step s action { s with call := call } (some rc)
  | pushRefused {thread pick : Tid} {item : Nat → UInt8} {timeout : UInt32}
      {clock : Option Timespec} {call : Tid → QueueCall} :
      Step s (.push thread item timeout clock pick)
        { s with
          queue := { s.queue with
            waitingFull := toInt (toInt (s.queue.waitingFull + 1) - 1) }
          call := call }
        (some lspErrInvalid)
  | pushBlocks {thread pick : Tid} {item : Nat → UInt8} {timeout : UInt32}
      {clock : Option Timespec} {call : Tid → QueueCall} :
      s.queue.isFull = true →
      timeout > 0 →
      deadlineRefused (queueWaitInternal timeout clock) = false →
      Step s (.push thread item timeout clock pick)
        { s with
          queue := { s.queue with
            waitingFull := toInt (s.queue.waitingFull + 1) }
          condFull := s.condFull.wait thread
          call := call }
        none
  | pushStores {thread pick : Tid} {item : Nat → UInt8} {timeout : UInt32}
      {clock : Option Timespec} {call : Tid → QueueCall}
      {condEmpty : CondVar Tid} :
      s.queue.isFull = false →
      s.condEmpty.signal pick = some condEmpty →
      Step s (.push thread item timeout clock pick)
        { s with
          queue := s.queue.store item
          condEmpty := condEmpty
          call := call
          pushed := s.pushed ++ [s.queue.block item] }
        (some lspErrNone)
  | pushExpires {thread pick : Tid} {call : Tid → QueueCall}
      {condFull : CondVar Tid} :
      s.condFull.expire thread = some condFull →
      Step s (.pushResumes thread .etimedout pick)
        { s with
          queue := { s.queue with
            waitingFull := toInt (s.queue.waitingFull - 1) }
          condFull := condFull
          call := call }
        (some lspErrTimeout)
  | pushResumes {thread pick : Tid} {item : Nat → UInt8}
      {call : Tid → QueueCall} {condFull condEmpty : CondVar Tid} :
      s.condFull.resume thread = some condFull →
      s.condEmpty.signal pick = some condEmpty →
      Step s (.pushResumes thread .ok pick)
        { s with
          queue := ({ s.queue with
            waitingFull := toInt (s.queue.waitingFull - 1) } :
              LspQueueHandle).store item
          condFull := condFull
          condEmpty := condEmpty
          call := call
          pushed := s.pushed ++ [s.queue.block item] }
        (some lspErrNone)
  | popRefused {thread pick : Tid} {timeout : UInt32}
      {clock : Option Timespec} {call : Tid → QueueCall} :
      Step s (.pop thread timeout clock pick)
        { s with
          queue := { s.queue with
            waitingEmpty := toInt (toInt (s.queue.waitingEmpty + 1) - 1) }
          call := call }
        (some lspErrInvalid)
  | popBlocks {thread pick : Tid} {timeout : UInt32}
      {clock : Option Timespec} {call : Tid → QueueCall} :
      s.queue.isEmpty = true →
      timeout > 0 →
      deadlineRefused (queueWaitInternal timeout clock) = false →
      Step s (.pop thread timeout clock pick)
        { s with
          queue := { s.queue with
            waitingEmpty := toInt (s.queue.waitingEmpty + 1) }
          condEmpty := s.condEmpty.wait thread
          call := call }
        none
  | popTakes {thread pick : Tid} {timeout : UInt32}
      {clock : Option Timespec} {call : Tid → QueueCall}
      {condFull : CondVar Tid} :
      s.queue.isEmpty = false →
      s.condFull.signal pick = some condFull →
      Step s (.pop thread timeout clock pick)
        { s with
          queue := s.queue.take
          condFull := condFull
          call := call
          popped := s.popped ++ [s.queue.entry s.queue.head] }
        (some lspErrNone)
  | popExpires {thread pick : Tid} {call : Tid → QueueCall}
      {condEmpty : CondVar Tid} :
      s.condEmpty.expire thread = some condEmpty →
      Step s (.popResumes thread .etimedout pick)
        { s with
          queue := { s.queue with
            waitingEmpty := toInt (s.queue.waitingEmpty - 1) }
          condEmpty := condEmpty
          call := call }
        (some lspErrTimeout)
  | popResumes {thread pick : Tid} {call : Tid → QueueCall}
      {condFull condEmpty : CondVar Tid} :
      s.condEmpty.resume thread = some condEmpty →
      s.condFull.signal pick = some condFull →
      Step s (.popResumes thread .ok pick)
        { s with
          queue := ({ s.queue with
            waitingEmpty := toInt (s.queue.waitingEmpty - 1) } :
              LspQueueHandle).take
          condFull := condFull
          condEmpty := condEmpty
          call := call
          popped := s.popped ++ [s.queue.entry s.queue.head] }
        (some lspErrNone)

section Inversion

variable {s s' : QueueThreads Tid} {outcome : Option Int}

private theorem finishPush_success {thread pick : Tid}
    {item : Nat → UInt8} {hdl : LspQueueHandle}
    (finished : s.finishPush thread pick item hdl lspErrNone =
      some (s', outcome)) :
    ∃ condEmpty, s.condEmpty.signal pick = some condEmpty ∧
      s' = { s with
        queue := hdl
        condEmpty := condEmpty
        call := Function.update s.call thread .outside
        pushed := s.pushed ++ [s.queue.block item] } ∧
      outcome = some lspErrNone := by
  simp only [finishPush, if_true, Option.map_eq_some_iff,
    Prod.mk.injEq] at finished
  obtain ⟨condEmpty, signalled, state, returned⟩ := finished
  exact ⟨condEmpty, signalled, state.symm, returned.symm⟩

private theorem finishPop_success {thread pick : Tid}
    {hdl : LspQueueHandle}
    (finished : s.finishPop thread pick hdl lspErrNone =
      some (s', outcome)) :
    ∃ condFull, s.condFull.signal pick = some condFull ∧
      s' = { s with
        queue := hdl
        condFull := condFull
        call := Function.update s.call thread .outside
        popped := s.popped ++ [s.queue.entry s.queue.head] } ∧
      outcome = some lspErrNone := by
  simp only [finishPop, if_true, Option.map_eq_some_iff,
    Prod.mk.injEq] at finished
  obtain ⟨condFull, signalled, state, returned⟩ := finished
  exact ⟨condFull, signalled, state.symm, returned.symm⟩

private theorem finishPush_failure {thread pick : Tid}
    {item : Nat → UInt8} {hdl : LspQueueHandle} {rc : Int}
    (failed : rc ≠ lspErrNone)
    (finished : s.finishPush thread pick item hdl rc = some (s', outcome)) :
    s' = { s with
        queue := hdl
        call := Function.update s.call thread .outside } ∧
      outcome = some rc := by
  simp only [finishPush, if_neg failed, Option.some.injEq,
    Prod.mk.injEq] at finished
  exact ⟨finished.1.symm, finished.2.symm⟩

private theorem finishPop_failure {thread pick : Tid}
    {hdl : LspQueueHandle} {rc : Int} (failed : rc ≠ lspErrNone)
    (finished : s.finishPop thread pick hdl rc = some (s', outcome)) :
    s' = { s with
        queue := hdl
        call := Function.update s.call thread .outside } ∧
      outcome = some rc := by
  simp only [finishPop, if_neg failed, Option.some.injEq,
    Prod.mk.injEq] at finished
  exact ⟨finished.1.symm, finished.2.symm⟩

private theorem expired_of_endWait {cond after : CondVar Tid}
    {thread : Tid} {deadline : Option Timespec}
    (ended : endWait cond thread deadline .etimedout = some after) :
    cond.expire thread = some after := by
  cases deadline with
  | none => simp [endWait] at ended
  | some deadline => simpa [endWait] using ended

private theorem step_of_push {thread pick : Tid} {item : Nat → UInt8}
    {timeout : UInt32} {clock : Option Timespec}
    (executed : s.exec (.push thread item timeout clock pick) =
      some (s', outcome)) :
    Step s (.push thread item timeout clock pick) s' outcome := by
  simp only [exec] at executed
  cases place : s.call thread with
  | pushing item deadline => simp [place] at executed
  | popping deadline => simp [place] at executed
  | outside =>
      rw [place] at executed
      rcases lspQueuePushLocked_cases s.queue item timeout clock with
        result | result | ⟨full, waits, accepted, result⟩ | ⟨room, result⟩
      · rw [result] at executed
        obtain ⟨state, returned⟩ := finishPush_failure (by decide) executed
        subst state returned
        exact .unchanged (by decide)
      · rw [result] at executed
        obtain ⟨state, returned⟩ := finishPush_failure (by decide) executed
        subst state returned
        exact .pushRefused
      · rw [result] at executed
        simp only [Option.some.injEq, Prod.mk.injEq] at executed
        obtain ⟨state, returned⟩ := executed
        subst state returned
        exact .pushBlocks full waits accepted
      · rw [result] at executed
        obtain ⟨condEmpty, signalled, state, returned⟩ :=
          finishPush_success executed
        subst state returned
        exact .pushStores room signalled

private theorem step_of_pop {thread pick : Tid} {timeout : UInt32}
    {clock : Option Timespec}
    (executed : s.exec (.pop thread timeout clock pick) =
      some (s', outcome)) :
    Step s (.pop thread timeout clock pick) s' outcome := by
  simp only [exec] at executed
  cases place : s.call thread with
  | pushing item deadline => simp [place] at executed
  | popping deadline => simp [place] at executed
  | outside =>
      rw [place] at executed
      rcases lspQueuePopLocked_cases s.queue timeout clock with
        result | result | ⟨empty, waits, accepted, result⟩ | ⟨some, result⟩
      · rw [result] at executed
        obtain ⟨state, returned⟩ := finishPop_failure (by decide) executed
        subst state returned
        exact .unchanged (by decide)
      · rw [result] at executed
        obtain ⟨state, returned⟩ := finishPop_failure (by decide) executed
        subst state returned
        exact .popRefused
      · rw [result] at executed
        simp only [Option.some.injEq, Prod.mk.injEq] at executed
        obtain ⟨state, returned⟩ := executed
        subst state returned
        exact .popBlocks empty waits accepted
      · rw [result] at executed
        obtain ⟨condFull, signalled, state, returned⟩ :=
          finishPop_success executed
        subst state returned
        exact .popTakes some signalled

private theorem step_of_pushResumes {thread pick : Tid}
    {result : WaitResult}
    (executed : s.exec (.pushResumes thread result pick) =
      some (s', outcome)) :
    Step s (.pushResumes thread result pick) s' outcome := by
  simp only [exec] at executed
  cases place : s.call thread with
  | outside => simp [place] at executed
  | popping deadline => simp [place] at executed
  | pushing item deadline =>
      rw [place] at executed
      obtain ⟨condFull, ended, finished⟩ :=
        Option.bind_eq_some_iff.mp executed
      cases result with
      | ok =>
          obtain ⟨condEmpty, signalled, state, returned⟩ :=
            finishPush_success finished
          subst state returned
          exact .pushResumes ended signalled
      | etimedout =>
          have failed : lspErrTimeout ≠ lspErrNone := by decide
          obtain ⟨state, returned⟩ := finishPush_failure failed finished
          subst state returned
          exact .pushExpires (expired_of_endWait ended)
      | einval => simp [endWait] at ended

private theorem step_of_popResumes {thread pick : Tid}
    {result : WaitResult}
    (executed : s.exec (.popResumes thread result pick) =
      some (s', outcome)) :
    Step s (.popResumes thread result pick) s' outcome := by
  simp only [exec] at executed
  cases place : s.call thread with
  | outside => simp [place] at executed
  | pushing item deadline => simp [place] at executed
  | popping deadline =>
      rw [place] at executed
      obtain ⟨condEmpty, ended, finished⟩ :=
        Option.bind_eq_some_iff.mp executed
      cases result with
      | ok =>
          obtain ⟨condFull, signalled, state, returned⟩ :=
            finishPop_success finished
          subst state returned
          exact .popResumes ended signalled
      | etimedout =>
          have failed : lspErrTimeout ≠ lspErrNone := by decide
          obtain ⟨state, returned⟩ := finishPop_failure failed finished
          subst state returned
          exact .popExpires (expired_of_endWait ended)
      | einval => simp [endWait] at ended

theorem step_of_exec {action : QueueAction Tid}
    (executed : s.exec action = some (s', outcome)) :
    Step s action s' outcome := by
  cases action with
  | lockFails thread =>
      simp only [exec] at executed
      split at executed
      · simp only [Option.some.injEq, Prod.mk.injEq] at executed
        obtain ⟨state, returned⟩ := executed
        subst state returned
        exact .unchanged (by decide)
      · simp at executed
  | push thread item timeout clock pick => exact step_of_push executed
  | pushResumes thread result pick => exact step_of_pushResumes executed
  | pop thread timeout clock pick => exact step_of_pop executed
  | popResumes thread result pick => exact step_of_popResumes executed

theorem step_cases {action : QueueAction Tid}
    (stepped : s.step action = some s') :
    ∃ outcome, Step s action s' outcome := by
  obtain ⟨⟨state, outcome⟩, executed, same⟩ :=
    Option.map_eq_some_iff.mp stepped
  have equality : state = s' := same
  subst state
  exact ⟨outcome, step_of_exec executed⟩

end Inversion

/-! ## Where a section leaves its thread -/

section Places

variable {s s' : QueueThreads Tid} {outcome : Option Int}
  {thread pick : Tid}

theorem finishPush_call {item : Nat → UInt8} {hdl : LspQueueHandle}
    {rc : Int}
    (finished : s.finishPush thread pick item hdl rc = some (s', outcome)) :
    s'.call = Function.update s.call thread .outside := by
  by_cases success : rc = lspErrNone
  · subst success
    obtain ⟨_, _, state, _⟩ := finishPush_success finished
    subst state
    rfl
  · obtain ⟨state, _⟩ := finishPush_failure success finished
    subst state
    rfl

theorem finishPop_place {hdl : LspQueueHandle} {rc : Int}
    (finished : s.finishPop thread pick hdl rc = some (s', outcome)) :
    s'.call = Function.update s.call thread .outside ∧
      s'.condEmpty = s.condEmpty ∧ outcome = some rc := by
  by_cases success : rc = lspErrNone
  · subst success
    obtain ⟨_, _, state, returned⟩ := finishPop_success finished
    subst state
    exact ⟨rfl, rfl, returned⟩
  · obtain ⟨state, returned⟩ := finishPop_failure success finished
    subst state
    exact ⟨rfl, rfl, returned⟩

theorem exec_push_place {item : Nat → UInt8} {timeout : UInt32}
    {clock : Option Timespec}
    (executed : s.exec (.push thread item timeout clock pick) =
      some (s', outcome)) :
    ∃ place, s'.call = Function.update s.call thread place := by
  simp only [exec] at executed
  split at executed
  · split at executed
    · cases executed
      exact ⟨_, rfl⟩
    · exact ⟨_, finishPush_call executed⟩
  · cases executed

theorem exec_pop_place {timeout : UInt32} {clock : Option Timespec}
    (executed : s.exec (.pop thread timeout clock pick) =
      some (s', outcome)) :
    s.call thread = .outside ∧
      ((s'.call = Function.update s.call thread .outside ∧
          s'.condEmpty = s.condEmpty ∧ ∃ rc, outcome = some rc) ∨
        ∃ deadline,
          s'.call = Function.update s.call thread (.popping deadline) ∧
          s'.condEmpty = s.condEmpty.wait thread ∧ outcome = none) := by
  simp only [exec] at executed
  split at executed
  · rename_i outside
    refine ⟨outside, ?_⟩
    split at executed
    · cases executed
      exact .inr ⟨_, rfl, rfl, rfl⟩
    · obtain ⟨call, condEmpty, returned⟩ := finishPop_place executed
      exact .inl ⟨call, condEmpty, _, returned⟩
  · cases executed

theorem exec_popResumes_place {result : WaitResult}
    (executed : s.exec (.popResumes thread result pick) =
      some (s', outcome)) :
    ∃ deadline, s.call thread = .popping deadline ∧
      endWait s.condEmpty thread deadline result = some s'.condEmpty ∧
      s'.call = Function.update s.call thread .outside ∧
      ∃ rc, outcome = some rc := by
  simp only [exec] at executed
  split at executed
  · rename_i deadline popping
    obtain ⟨condEmpty, ended, finished⟩ :=
      Option.bind_eq_some_iff.mp executed
    obtain ⟨call, same, returned⟩ := finishPop_place finished
    refine ⟨deadline, popping, ?_, call, _, returned⟩
    rw [same]
    exact ended
  · cases executed

end Places

end QueueThreads

end Liblsp
