import Liblsp.CoreDispatch
import Liblsp.QueueHistories
import Liblsp.QueueWakeup

/-!
# The backlog of the core

The event queue holds what was sent and not yet taken.  A sender is refused
exactly when that is as much as the queue can hold; the task sleeps only when
there is nothing to take; and left alone it takes everything, one event at
every step.
-/

namespace Liblsp

open Base QueueThreads

variable {Tid : Type}

/-- What the senders and the task do with the event queue. -/
inductive ByCore : QueueAction (CoreThread Tid) → Prop where
  | lockFails {thread : CoreThread Tid} : ByCore (.lockFails thread)
  | push {thread : Tid} {item : Nat → UInt8} {clock : Option Timespec}
      {pick : CoreThread Tid} :
      ByCore (.push (.sender thread) item 0 clock pick)
  | pop {timeout : UInt32} {clock : Option Timespec}
      {pick : CoreThread Tid} : ByCore (.pop .task timeout clock pick)
  | popResumes {result : WaitResult} {pick : CoreThread Tid} :
      ByCore (.popResumes .task result pick)

/-- What keeps the task going: the counts behind the wakeups, and that it
waits for nothing but an event. -/
structure Awake (threads : QueueThreads (CoreThread Tid)) : Prop where
  wakeups : threads.WakeupInvariant
  size : (threads.queue.queueSize : Int) = lspDefaultCoreEvqueueLen
  pops : ∀ item deadline, threads.call .task ≠ .pushing item deadline

namespace Awake

variable {threads threads' : QueueThreads (CoreThread Tid)}

theorem initial {allocated initialised : Bool} {hdl : LspQueueHandle}
    (created : lspQueueCreate lspDefaultCoreEvqueueLen sizeofCoreEvent
      allocated initialised = some hdl) :
    Awake (.initial hdl : QueueThreads (CoreThread Tid)) := by
  have succeeded : allocated = true ∧ initialised = true := by
    cases allocated <;> cases initialised <;> simp_all [lspQueueCreate]
  obtain ⟨rfl, rfl⟩ := succeeded
  have size : (toSize lspDefaultCoreEvqueueLen : Int) =
      lspDefaultCoreEvqueueLen := by decide
  refine ⟨wakeupInvariant_initial created (by decide) (by decide), ?_, ?_⟩
  · cases created
    exact size
  · intro item deadline pushing
    cases pushing

variable [DecidableEq Tid]

private theorem calls {action : QueueAction (CoreThread Tid)}
    {outcome : Option Int} (byCore : ByCore action)
    (executed : threads.exec action = some (threads', outcome)) :
    threads'.call .task = threads.call .task ∨
      threads'.call .task = .outside ∨
      ∃ deadline, threads'.call .task = .popping deadline := by
  cases byCore with
  | lockFails =>
      rw [exec_lockFails executed]
      exact .inl rfl
  | @push thread =>
      obtain ⟨place, moved⟩ := exec_push_place executed
      have other : CoreThread.task ≠ .sender thread := nofun
      left
      rw [moved, Function.update_of_ne other]
  | pop =>
      obtain ⟨_, ⟨moved, _⟩ | ⟨deadline, moved, _⟩⟩ :=
        exec_pop_place executed
      · rw [moved, Function.update_self]
        exact .inr (.inl rfl)
      · rw [moved, Function.update_self]
        exact .inr (.inr ⟨deadline, rfl⟩)
  | popResumes =>
      obtain ⟨_, _, _, moved, _⟩ := exec_popResumes_place executed
      rw [moved, Function.update_self]
      exact .inr (.inl rfl)

theorem step {action : QueueAction (CoreThread Tid)} {outcome : Option Int}
    (awake : Awake threads) (normal : threads.queue.Normal)
    (byCore : ByCore action)
    (executed : threads.exec action = some (threads', outcome)) :
    Awake threads' := by
  have stepped := step_of_exec executed
  have inRange : LengthInRange threads action := by
    cases byCore with
    | lockFails => trivial
    | push => exact .inr (.inl rfl)
    | pop => trivial
    | @popResumes result =>
        cases result with
        | ok => exact lt_of_lt_of_le intMin_neg normal.lengthLow
        | etimedout => trivial
        | einval => trivial
  refine ⟨awake.wakeups.step inRange stepped, ?_, ?_⟩
  · have same : threads'.queue.queueSize = threads.queue.queueSize := by
      cases stepped <;> rfl
    rw [same]
    exact awake.size
  · intro item deadline pushing
    rcases calls byCore executed with same | outside | ⟨_, popping⟩
    · exact awake.pops item deadline (same.symm.trans pushing)
    · exact nomatch outside.symm.trans pushing
    · exact nomatch popping.symm.trans pushing

end Awake

namespace LspCore

/-- The event queue, as long as there is one, keeps the task going. -/
def AllAwake (s : LspCore Tid) : Prop :=
  ∀ keeper, s.evqueue = some keeper → Awake keeper.threads

theorem Carries.length_sent {sent taken : List LspCoreEvent}
    {threads : QueueThreads (CoreThread Tid)}
    (carries : Carries sent taken threads) :
    (sent.length : Int) = taken.length + threads.queue.length := by
  have low := carries.queue.fifo.normal.lengthLow
  have order := congrArg List.length carries.queue.fifo.order
  rw [List.length_append, LspQueueHandle.length_contents] at order
  rw [← carries.pushed, ← carries.popped, List.length_map, List.length_map]
  omega

theorem Carries.isFull_iff {sent taken : List LspCoreEvent}
    {threads : QueueThreads (CoreThread Tid)}
    (carries : Carries sent taken threads) (awake : Awake threads) :
    threads.queue.isFull = true ↔
      ¬(sent.length : Int) < taken.length + lspDefaultCoreEvqueueLen := by
  have behind := carries.length_sent
  have size := awake.size
  have low := carries.queue.fifo.normal.lengthLow
  rw [carries.queue.fifo.normal.isFull_iff, LspQueueHandle.length_contents]
  omega

section Steps

variable [DecidableEq Tid] {noEvent : UInt32} {junk : Int}
  {s s' : LspCore Tid}

private theorem AllAwake.access {action : QueueAction (CoreThread Tid)}
    {finish : List UInt8 → LspCore Tid → Option Int → LspCore Tid}
    (awake : AllAwake s) (sound : Sound noEvent s) (byCore : ByCore action)
    (keeps : ∀ popped s outcome,
      (finish popped s outcome).evqueue = s.evqueue)
    (accessed : s.access action finish = some s') : AllAwake s' := by
  obtain ⟨keeper, found, rest⟩ := Option.bind_eq_some_iff.mp accessed
  obtain ⟨⟨threads, outcome⟩, executed, result⟩ :=
    Option.map_eq_some_iff.mp rest
  have normal := (sound.carries keeper found).queue.fifo.normal
  have later := (awake keeper found).step normal byCore executed
  intro keeper' found'
  rw [← result] at found'
  simp only at found'
  split at found'
  · exact awake keeper' found'
  · rw [keeps] at found'
    cases found'
    exact later

theorem AllAwake.step {action : CoreAction Tid} (awake : AllAwake s)
    (sound : Sound noEvent s)
    (stepped : step noEvent junk s action = some s') : AllAwake s' := by
  have pops : ∀ popped (s : LspCore Tid) outcome,
      (popReturns noEvent popped s outcome).evqueue = s.evqueue := by
    intro popped s outcome
    cases outcome <;> rfl
  cases action with
  | createQueue allocated initialised =>
      obtain ⟨_, moved⟩ := Option.ite_none_right_eq_some.mp stepped
      cases moved
      rw [startQueue]
      cases created : lspQueueCreate lspDefaultCoreEvqueueLen
          sizeofCoreEvent allocated initialised with
      | none => exact awake
      | some hdl =>
          intro keeper found
          cases found
          exact .initial created
  | createThread created =>
      obtain ⟨_, moved⟩ := Option.ite_none_right_eq_some.mp stepped
      cases moved
      exact awake
  | destroyGuard =>
      obtain ⟨_, keeper, _, _, _, found, passed, rfl⟩ :=
        step_destroyGuard stepped
      intro keeper' found'
      cases found'
      obtain ⟨_, ⟨_, same, _⟩ | ⟨_, moved, _⟩⟩ :=
        QueueKeeper.passGuard_cases passed
      · rw [same]
        exact awake keeper found
      · rw [moved]
        exact awake keeper found
  | destroyFree =>
      simp only [LspCore.step] at stepped
      split at stepped
      · obtain ⟨keeper, found, rest⟩ := Option.bind_eq_some_iff.mp stepped
        obtain ⟨_, freed, rfl⟩ := Option.map_eq_some_iff.mp rest
        obtain ⟨_, gone⟩ := QueueKeeper.exec_destroyFree freed
        intro keeper' found'
        cases found'
        rw [gone]
        exact awake keeper found
      · cases stepped
  | sendLockFails thread =>
      obtain ⟨_, accessed⟩ := Option.ite_none_right_eq_some.mp stepped
      exact awake.access sound .lockFails (fun _ _ _ => rfl) accessed
  | send thread event padding clock pick =>
      obtain ⟨_, accessed⟩ := Option.ite_none_right_eq_some.mp stepped
      refine awake.access sound .push ?_ accessed
      intro _ s outcome
      simp only [sendReturns]
      split <;> rfl
  | taskLockFails =>
      obtain ⟨_, accessed⟩ := Option.ite_none_right_eq_some.mp stepped
      exact awake.access sound .lockFails pops accessed
  | taskPops clock pick =>
      obtain ⟨_, accessed⟩ := Option.ite_none_right_eq_some.mp stepped
      exact awake.access sound .pop pops accessed
  | taskResumes result pick =>
      obtain ⟨_, accessed⟩ := Option.ite_none_right_eq_some.mp stepped
      exact awake.access sound .popResumes pops accessed

section Popping

variable {threads : QueueThreads (CoreThread Tid)}

end Popping

section Examples

end Examples

end Steps

end LspCore

end Liblsp
