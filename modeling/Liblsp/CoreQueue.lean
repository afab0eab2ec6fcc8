import Liblsp.Core

/-!
# The event queue of the core

Senders never wait for room, and the task is the only thread that waits for
an event.  So a signal that reaches the task is for an event that is still
there when the task resumes.
-/

namespace Liblsp

open Base

namespace QueueThreads

variable {Tid : Type} [DecidableEq Tid] {s s' : QueueThreads Tid}
  {action : QueueAction Tid} {outcome : Option Int}

/-- The action is no push that waits for room. -/
def PushesAtOnce : QueueAction Tid → Prop
  | .push _ _ timeout _ _ => timeout = 0
  | _ => True

theorem Step.itemsize (stepped : Step s action s' outcome) :
    s'.queue.itemsize = s.queue.itemsize := by
  cases stepped <;> rfl

/-- Without waiting pushes there is never a thread to signal room to. -/
theorem Step.noProducers (stepped : Step s action s' outcome)
    (atOnce : PushesAtOnce action) (nobody : s.condFull = .empty) :
    s'.condFull = .empty := by
  cases stepped with
  | pushBlocks _ waits _ =>
      rw [show _ = (0 : UInt32) from atOnce] at waits
      exact absurd waits (by decide)
  | pushExpires expired =>
      rw [nobody] at expired
      cases expired
  | pushResumes resumed _ =>
      rw [nobody] at resumed
      cases resumed
  | popTakes _ signalled =>
      rw [nobody] at signalled
      cases signalled
      rfl
  | popResumes _ signalled =>
      rw [nobody] at signalled
      cases signalled
      rfl
  | _ => exact nobody

theorem Step.pushes {thread pick : Tid} {item : Nat → UInt8}
    {clock : Option Timespec}
    (stepped : Step s (.push thread item 0 clock pick) s' outcome) :
    s'.popped = s.popped ∧
      ((outcome = some lspErrNone ∧ s.queue.isFull = false ∧
          s'.queue = s.queue.store item ∧
          s.condEmpty.signal pick = some s'.condEmpty ∧
          s'.pushed = s.pushed ++ [s.queue.block item]) ∨
        (outcome ≠ some lspErrNone ∧ s'.queue.length = s.queue.length ∧
          s'.condEmpty = s.condEmpty ∧ s'.pushed = s.pushed)) := by
  cases stepped with
  | unchanged failed =>
      refine ⟨rfl, .inr ⟨?_, rfl, rfl, rfl⟩⟩
      simpa using failed
  | pushRefused => exact ⟨rfl, .inr ⟨by decide, rfl, rfl, rfl⟩⟩
  | pushBlocks _ waits _ => exact absurd waits (by decide)
  | pushStores room signalled =>
      exact ⟨rfl, .inl ⟨rfl, room, rfl, signalled, rfl⟩⟩

/-- The action is no push and no rest of one. -/
def PushesNothing : QueueAction Tid → Prop
  | .push .. | .pushResumes .. => False
  | _ => True

theorem Step.takes (stepped : Step s action s' outcome)
    (nothing : PushesNothing action) :
    s'.pushed = s.pushed ∧
      ((outcome = some lspErrNone ∧
          s'.popped = s.popped ++ [s.queue.entry s.queue.head]) ∨
        (outcome ≠ some lspErrNone ∧ s'.popped = s.popped)) := by
  cases stepped with
  | unchanged failed =>
      refine ⟨rfl, .inr ⟨?_, rfl⟩⟩
      simpa using failed
  | popRefused => exact ⟨rfl, .inr ⟨by decide, rfl⟩⟩
  | popBlocks => exact ⟨rfl, .inr ⟨by decide, rfl⟩⟩
  | popTakes => exact ⟨rfl, .inl ⟨rfl, rfl⟩⟩
  | popExpires => exact ⟨rfl, .inr ⟨by decide, rfl⟩⟩
  | popResumes => exact ⟨rfl, .inl ⟨rfl, rfl⟩⟩
  | pushRefused => exact nothing.elim
  | pushBlocks => exact nothing.elim
  | pushStores => exact nothing.elim
  | pushExpires => exact nothing.elim
  | pushResumes => exact nothing.elim

theorem exec_lockFails {thread : Tid}
    (executed : s.exec (.lockFails thread) = some (s', outcome)) :
    s' = s := by
  simp only [exec] at executed
  split at executed
  · cases executed
    rfl
  · cases executed

end QueueThreads

open QueueThreads LspCore

variable {Tid : Type}

/-- Where the task can be: elsewhere, asleep in its pop, or signalled for an
event that is still there. -/
inductive TaskPlace (threads : QueueThreads (CoreThread Tid)) : Prop where
  | outside :
      threads.call .task = .outside →
      threads.condEmpty = ⟨[], []⟩ →
      TaskPlace threads
  | sleeps :
      threads.call .task ≠ .outside →
      threads.condEmpty = ⟨[.task], []⟩ →
      TaskPlace threads
  | signalled :
      threads.call .task ≠ .outside →
      threads.condEmpty = ⟨[], [.task]⟩ →
      0 < threads.queue.length →
      TaskPlace threads

/-- The event queue while it exists. -/
structure EventQueue (threads : QueueThreads (CoreThread Tid)) : Prop where
  fifo : threads.FifoInvariant
  counted : threads.WaitersCounted
  itemsize : threads.queue.itemsize = sizeofCoreEvent
  noProducers : threads.condFull = .empty
  place : TaskPlace threads

section Place

variable {threads threads' : QueueThreads (CoreThread Tid)}

theorem TaskPlace.keeps (place : TaskPlace threads)
    (call : threads'.call .task = threads.call .task)
    (condEmpty : threads'.condEmpty = threads.condEmpty)
    (length : threads'.queue.length = threads.queue.length) :
    TaskPlace threads' := by
  cases place with
  | outside idle nobody =>
      exact .outside (call.trans idle) (condEmpty.trans nobody)
  | sleeps busy asleep =>
      rw [← call] at busy
      exact .sleeps busy (condEmpty.trans asleep)
  | signalled busy marked present =>
      rw [← call] at busy
      rw [← length] at present
      exact .signalled busy (condEmpty.trans marked) present

theorem TaskPlace.waiters_le (place : TaskPlace threads) :
    threads.condEmpty.waiters ≤ 1 := by
  cases place with
  | outside _ nobody => simp [nobody, CondVar.waiters]
  | sleeps _ asleep => simp [asleep, CondVar.waiters]
  | signalled _ marked _ => simp [marked, CondVar.waiters]

theorem TaskPlace.of_blocked (place : TaskPlace threads)
    (busy : threads.call .task ≠ .outside) :
    threads.condEmpty = ⟨[.task], []⟩ ∨
      (threads.condEmpty = ⟨[], [.task]⟩ ∧ 0 < threads.queue.length) := by
  cases place with
  | outside idle _ => exact absurd idle busy
  | sleeps _ asleep => exact .inl asleep
  | signalled _ marked present => exact .inr ⟨marked, present⟩

variable [DecidableEq Tid] {pick : CoreThread Tid}

/-- A signal for an event that has come reaches the task if it sleeps. -/
theorem TaskPlace.signal (place : TaskPlace threads)
    (call : threads'.call .task = threads.call .task)
    (signalled : threads.condEmpty.signal pick = some threads'.condEmpty)
    (present : 0 < threads'.queue.length) : TaskPlace threads' := by
  cases place with
  | outside idle nobody =>
      rw [nobody] at signalled
      exact .outside (call.trans idle) (Option.some.inj signalled).symm
  | sleeps busy asleep =>
      rw [← call] at busy
      rw [asleep] at signalled
      exact .signalled busy (CondVar.signal_only rfl signalled) present
  | signalled busy marked _ =>
      rw [← call] at busy
      rw [marked] at signalled
      exact .signalled busy (Option.some.inj signalled).symm present

end Place

namespace EventQueue

variable {threads threads' : QueueThreads (CoreThread Tid)}

theorem initial {allocated initialised : Bool} {hdl : LspQueueHandle}
    (created : lspQueueCreate lspDefaultCoreEvqueueLen sizeofCoreEvent
      allocated initialised = some hdl) :
    EventQueue (.initial hdl : QueueThreads (CoreThread Tid)) := by
  have succeeded : allocated = true ∧ initialised = true := by
    cases allocated <;> cases initialised <;> simp_all [lspQueueCreate]
  obtain ⟨rfl, rfl⟩ := succeeded
  have fits : BlockFits lspDefaultCoreEvqueueLen sizeofCoreEvent := by
    unfold BlockFits
    decide
  have keeper : QueueKeeper.KeeperInvariant
      (.initial hdl : QueueKeeper (CoreThread Tid)) :=
    QueueKeeper.keeperInvariant_initial created
  refine ⟨?_, keeper.counted, ?_, rfl, .outside rfl rfl⟩
  · exact fifoInvariant_initial created (by decide) (by decide) fits
  · cases created
    rfl

theorem inUse (queue : EventQueue threads) :
    lspQueueInUse threads.queue = true ↔ TaskBlocked threads := by
  have nobody := queue.noProducers
  rw [← not_iff_not, Bool.not_eq_true, queue.counted.inUse, Unblocked,
    TaskBlocked]
  cases queue.place with
  | outside _ empty => simp [empty, nobody, CondVar.empty, CondVar.waiters]
  | sleeps _ asleep => simp [asleep, CondVar.waiters]
  | signalled _ marked _ => simp [marked, CondVar.waiters]

theorem idle (queue : EventQueue threads) (free : ¬TaskBlocked threads) :
    threads.call .task = .outside := by
  cases queue.place with
  | outside idle _ => exact idle
  | sleeps _ asleep =>
      apply absurd _ free
      rw [TaskBlocked, asleep]
      exact .inl (List.mem_singleton_self _)
  | signalled _ marked _ =>
      apply absurd _ free
      rw [TaskBlocked, marked]
      exact .inr (List.mem_singleton_self _)

variable [DecidableEq Tid] {action : QueueAction (CoreThread Tid)}
  {outcome : Option Int}

theorem keeps (queue : EventQueue threads)
    (stepped : Step threads action threads' outcome)
    (atOnce : PushesAtOnce action) (inTime : WakesInTime threads action)
    (place : TaskPlace threads') : EventQueue threads' := by
  refine ⟨queue.fifo.step inTime stepped, ?_,
    stepped.itemsize.trans queue.itemsize,
    stepped.noProducers atOnce queue.noProducers, place⟩
  apply queue.counted.step stepped
  intro _
  have full := queue.counted.full
  have empty := queue.counted.empty
  have few := queue.place.waiters_le
  have nobody : threads.condFull.waiters = 0 := by
    rw [queue.noProducers]
    rfl
  simp only [intMax]
  omega

theorem push (queue : EventQueue threads) {thread : Tid}
    {item : Nat → UInt8} {clock : Option Timespec} {pick : CoreThread Tid}
    (executed : threads.exec (.push (.sender thread) item 0 clock pick) =
      some (threads', outcome)) :
    EventQueue threads' ∧ threads'.popped = threads.popped ∧
      ((outcome = some lspErrNone ∧ threads'.pushed =
          threads.pushed ++ [readCells item 0 sizeofCoreEvent]) ∨
        (outcome ≠ some lspErrNone ∧
          threads'.pushed = threads.pushed)) := by
  have stepped := step_of_exec executed
  have call : threads'.call .task = threads.call .task := by
    obtain ⟨place, moved⟩ := exec_push_place executed
    have other : CoreThread.task ≠ CoreThread.sender thread := nofun
    rw [moved, Function.update_of_ne other]
  obtain ⟨popped, ⟨success, room, store, signalled, pushed⟩ |
    ⟨failed, length, same, pushed⟩⟩ := stepped.pushes
  · have normal := queue.fifo.normal
    have spare := room_of_not_isFull normal room
    have low := normal.lengthLow
    have present : 0 < threads'.queue.length := by
      rw [store, normal.length_store item (normal.length_small spare)]
      omega
    have bytes : threads.queue.block item =
        readCells item 0 sizeofCoreEvent := by
      rw [LspQueueHandle.block, queue.itemsize, readCells]
      simp only [Nat.zero_add]
    rw [bytes] at pushed
    exact ⟨queue.keeps stepped rfl trivial
      (queue.place.signal call signalled present), popped,
      .inl ⟨success, pushed⟩⟩
  · exact ⟨queue.keeps stepped rfl trivial
      (queue.place.keeps call same length), popped, .inr ⟨failed, pushed⟩⟩

/-- The task begins a pop only when it is in none, and then it returns or
goes to sleep. -/
theorem pop (queue : EventQueue threads) {timeout : UInt32}
    {clock : Option Timespec} {pick : CoreThread Tid}
    (executed : threads.exec (.pop .task timeout clock pick) =
      some (threads', outcome)) : EventQueue threads' := by
  obtain ⟨idle, place⟩ := exec_pop_place executed
  have nobody : threads.condEmpty = .empty := by
    cases queue.place with
    | outside _ nobody => exact nobody
    | sleeps busy _ => exact absurd idle busy
    | signalled busy _ _ => exact absurd idle busy
  apply queue.keeps (step_of_exec executed) trivial trivial
  rcases place with ⟨moved, same, _⟩ | ⟨deadline, moved, asleep, _⟩
  · apply TaskPlace.outside
    · rw [moved, Function.update_self]
    · exact same.trans nobody
  · apply TaskPlace.sleeps
    · rw [moved, Function.update_self]
      exact nofun
    · rw [asleep, nobody]
      rfl

/-- The task is alone on its condition variable, so its wait ends without
leaving anybody behind. -/
theorem popResumes (queue : EventQueue threads) {result : WaitResult}
    {pick : CoreThread Tid}
    (woken : result = .ok → .task ∈ threads.condEmpty.signalled)
    (executed : threads.exec (.popResumes .task result pick) =
      some (threads', outcome)) : EventQueue threads' := by
  obtain ⟨deadline, popping, ended, moved, _⟩ :=
    exec_popResumes_place executed
  have busy : threads.call .task ≠ .outside := by
    rw [popping]
    exact nofun
  have idle : threads'.call .task = .outside := by
    rw [moved, Function.update_self]
  have stepped := step_of_exec executed
  rcases queue.place.of_blocked busy with asleep | ⟨marked, present⟩
  · cases result with
    | ok =>
        rw [asleep] at woken
        exact absurd (woken rfl) List.not_mem_nil
    | einval => cases ended
    | etimedout =>
        apply queue.keeps stepped trivial trivial
        apply TaskPlace.outside idle
        cases deadline with
        | none => cases ended
        | some deadline =>
            rw [asleep] at ended
            simpa [endWait, CondVar.expire] using ended.symm
  · cases result with
    | ok =>
        apply queue.keeps stepped trivial present
        apply TaskPlace.outside idle
        rw [marked] at ended
        simpa [endWait, CondVar.resume] using ended.symm
    | einval => cases ended
    | etimedout =>
        rw [marked] at ended
        cases deadline with
        | none => cases ended
        | some deadline => simp [endWait, CondVar.expire] at ended

theorem can_pop (queue : EventQueue threads) (free : ¬TaskBlocked threads)
    (timeout : UInt32) (clock : Option Timespec) (pick : CoreThread Tid) :
    ∃ result, threads.exec (.pop .task timeout clock pick) =
      some result := by
  simp only [exec, queue.idle free]
  split
  · exact ⟨_, rfl⟩
  · simp only [finishPop, queue.noProducers]
    split
    · exact ⟨_, rfl⟩
    · exact ⟨_, rfl⟩

end EventQueue

end Liblsp
