import Liblsp.Base.LittleEndian
import Liblsp.QueueClear

/-!
# The core task and its event queue

`lsp_core_start` creates the event queue and the thread of the core task; a
successful start runs on into the label `queue_err` and destroys the queue.
The task runs from the moment its thread is created, so it may get to its
first `lsp_queue_pop` before that or after it.
-/

namespace Liblsp

open Base

/-- `struct lsp_core_event`. -/
structure LspCoreEvent where
  ev : UInt32
  data : UInt64
  deriving DecidableEq

/-- `sizeof(struct lsp_core_event)` on x86-64. -/
def sizeofCoreEvent : Nat := 16

namespace LspCoreEvent

/-- The bytes of an event: four for `ev`, eight for `data`, and padding in
between. -/
def bytes (event : LspCoreEvent) (padding : Nat → UInt8) (place : Nat) :
    UInt8 :=
  if place < 4 then byteAt event.ev.toNat place
  else if place < 8 then padding place
  else byteAt event.data.toNat (place - 8)

/-- The event that some bytes hold. -/
def ofBytes (bytes : List UInt8) : LspCoreEvent where
  ev := UInt32.ofNat (Base.ofBytes (bytes.take 4))
  data := UInt64.ofNat (Base.ofBytes (bytes.drop 8))

theorem ofBytes_bytes (event : LspCoreEvent) (padding : Nat → UInt8) :
    ofBytes (readCells (event.bytes padding) 0 sizeofCoreEvent) = event := by
  have front : readCells (event.bytes padding) 0 4 =
      readCells (byteAt event.ev.toNat) 0 4 := rfl
  have back : readCells (event.bytes padding) 8 8 =
      readCells (byteAt event.data.toNat) 0 8 := rfl
  have ev : event.ev.toNat % 256 ^ 4 = event.ev.toNat :=
    Nat.mod_eq_of_lt event.ev.toNat_lt
  have data : event.data.toNat % 256 ^ 8 = event.data.toNat :=
    Nat.mod_eq_of_lt event.data.toNat_lt
  rw [ofBytes, sizeofCoreEvent, take_readCells _ (by decide),
    drop_readCells _ (by decide), Nat.zero_add, front, back,
    ofBytes_readCells, ofBytes_readCells, ev, data]
  simp

end LspCoreEvent

/-- `LSP_DEFAULT_CORE_EVQUEUE_LEN`. -/
def lspDefaultCoreEvqueueLen : Int := 32

/-- `lsp_thread_create`, given whether `pthread_create` succeeds. -/
def lspThreadCreate (created : Bool) : Int :=
  if created then lspErrNone else lspErr

/-- What `lsp_core_task` makes of the result of its `lsp_queue_pop`, given
the value of `LSP_EV_NO_EVENT`, which no file defines. -/
def coreTaskEvent (noEvent : UInt32) (event : LspCoreEvent) (rc : Int) :
    LspCoreEvent :=
  if rc = lspErrTimeout ∨ rc = lspErrQueueEmpty then
    { event with ev := noEvent }
  else if rc ≠ lspErrNone then { event with ev := noEvent }
  else event

/-- `nextSleep`. -/
def coreTaskSleep : UInt32 := 500

/-- The threads on the event queue. -/
inductive CoreThread (Tid : Type) where
  | task
  | sender (thread : Tid)
  deriving DecidableEq

/-- How far `lsp_core_start` has got: not called, with a queue, past the
creation of the thread with this `rc`, or returned. -/
inductive CoreStart where
  | called
  | queueCreated
  | threadTried (rc : Int)
  | returned (rc : Int)
  deriving DecidableEq

/-- The core module.  `event` is the variable of the task.  Recorded beside
it are whether the queue and the thread could be created, whether a thread
has used the queue after it was destroyed, the events that were sent with
success, and what the task took for its `switch`, with the result of the
pop. -/
structure LspCore (Tid : Type) where
  start : CoreStart
  evqueue : Option (QueueKeeper (CoreThread Tid))
  event : LspCoreEvent
  queueMade : Bool
  threadMade : Bool
  usedDestroyed : Bool
  sent : List LspCoreEvent
  switched : List (LspCoreEvent × Int)

/-- A step of `lsp_core_start`, of a sender or of the task.  The task blocks
in `lsp_queue_pop` and resumes. -/
inductive CoreAction (Tid : Type) where
  | createQueue (allocated initialised : Bool)
  | createThread (created : Bool)
  | destroyGuard
  | destroyFree
  | sendLockFails (thread : Tid)
  | send (thread : Tid) (event : LspCoreEvent) (padding : Nat → UInt8)
      (clock : Option Timespec) (pick : CoreThread Tid)
  | taskLockFails
  | taskPops (clock : Option Timespec) (pick : CoreThread Tid)
  | taskResumes (result : WaitResult) (pick : CoreThread Tid)

namespace LspCore

variable {Tid : Type}

/-- Before the start, with an arbitrary value in the variable of the task. -/
def initial (event : LspCoreEvent) : LspCore Tid where
  start := .called
  evqueue := none
  event := event
  queueMade := false
  threadMade := false
  usedDestroyed := false
  sent := []
  switched := []

/-- `lsp_core_start` up to the creation of the thread.  Without a queue it
returns the `rc` that it has not set. -/
def startQueue (s : LspCore Tid) (junk : Int) (allocated initialised : Bool) :
    LspCore Tid :=
  match lspQueueCreate lspDefaultCoreEvqueueLen sizeofCoreEvent allocated
      initialised with
  | none => { s with start := .returned junk }
  | some hdl =>
      { s with
        start := .queueCreated
        evqueue := some (.initial hdl)
        queueMade := true }

/-- `lsp_core_sendevent` from the return of `lsp_queue_push` on. -/
def sendReturns (event : LspCoreEvent) (s : LspCore Tid)
    (outcome : Option Int) : LspCore Tid :=
  if outcome = some lspErrNone then { s with sent := s.sent ++ [event] }
  else s

/-- The rest of the task's iteration, if `lsp_queue_pop` has returned. -/
def popReturns (noEvent : UInt32) (popped : List UInt8) (s : LspCore Tid)
    (outcome : Option Int) : LspCore Tid :=
  match outcome with
  | none => s
  | some rc =>
      let event := if rc = lspErrNone then .ofBytes popped else s.event
      let event := coreTaskEvent noEvent event rc
      { s with event := event, switched := s.switched ++ [(event, rc)] }

/-- The task is blocked in `lsp_queue_pop`. -/
def TaskBlocked (threads : QueueThreads (CoreThread Tid)) : Prop :=
  .task ∈ threads.condEmpty.sleeping ∨ .task ∈ threads.condEmpty.signalled

variable [DecidableEq Tid]

/-- A signal has reached the task. -/
def taskSignalled (s : LspCore Tid) : Bool :=
  s.evqueue.any fun keeper => .task ∈ keeper.threads.condEmpty.signalled

instance (threads : QueueThreads (CoreThread Tid)) :
    Decidable (TaskBlocked threads) :=
  inferInstanceAs (Decidable (_ ∨ _))

/-- A section on the event queue.  On a queue that was destroyed it is only
noted. -/
def access (s : LspCore Tid) (action : QueueAction (CoreThread Tid))
    (finish : List UInt8 → LspCore Tid → Option Int → LspCore Tid) :
    Option (LspCore Tid) :=
  s.evqueue.bind fun keeper =>
    (keeper.threads.exec action).map fun (threads, outcome) =>
      if keeper.keeper = .destroyed then { s with usedDestroyed := true }
      else
        let front := keeper.threads.queue.entry keeper.threads.queue.head
        finish front
          { s with evqueue := some { keeper with threads := threads } }
          outcome

def step (noEvent : UInt32) (junk : Int) (s : LspCore Tid) :
    CoreAction Tid → Option (LspCore Tid)
  | .createQueue allocated initialised =>
      if s.start = .called then
        some (s.startQueue junk allocated initialised)
      else none
  | .createThread created =>
      if s.start = .queueCreated then
        some { s with
          start := .threadTried (lspThreadCreate created)
          threadMade := created }
      else none
  | .destroyGuard =>
      match s.start with
      | .threadTried rc =>
          s.evqueue.bind fun keeper =>
            (keeper.exec .destroyGuard).map fun (keeper, outcome) =>
              { s with
                evqueue := some keeper
                start := if outcome = none then .threadTried rc
                  else .returned rc }
      | _ => none
  | .destroyFree =>
      match s.start with
      | .threadTried rc =>
          s.evqueue.bind fun keeper =>
            (keeper.exec .destroyFree).map fun (keeper, _) =>
              { s with evqueue := some keeper, start := .returned rc }
      | _ => none
  | .sendLockFails thread =>
      if s.start = .returned lspErrNone then
        s.access (.lockFails (.sender thread)) fun _ s _ => s
      else none
  | .send thread event padding clock pick =>
      if s.start = .returned lspErrNone then
        s.access (.push (.sender thread) (event.bytes padding) 0 clock pick)
          fun _ => sendReturns event
      else none
  | .taskLockFails =>
      if s.threadMade then
        s.access (.lockFails .task) (popReturns noEvent)
      else none
  | .taskPops clock pick =>
      if s.threadMade then
        s.access (.pop .task coreTaskSleep clock pick) (popReturns noEvent)
      else none
  | .taskResumes result pick =>
      -- no wait ends with success without a signal
      if s.threadMade = true ∧ (result = .ok → s.taskSignalled = true) then
        s.access (.popResumes .task result pick) (popReturns noEvent)
      else none

end LspCore

end Liblsp
