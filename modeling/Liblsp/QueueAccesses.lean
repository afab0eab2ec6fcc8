import Liblsp.Base.Sections
import Liblsp.QueueHistories

/-!
# Pushes and pops statement by statement

In `QueueThreads` a section that holds the mutex is one step.  Here the
threads take turns within the sections: every statement that touches the
control block is a step of its own, and `memcpy` takes one for each byte.
The threads cannot tell the difference.
-/

namespace Liblsp

open Base

/-- A call of `lsp_queue_push` or `lsp_queue_pop`, with the bytes behind its
pointer. -/
inductive QueueRequest where
  | push (item : Nat → UInt8) (timeout : UInt32)
  | pop (data : Nat → UInt8) (timeout : UInt32)

namespace QueueRequest

def timeout : QueueRequest → UInt32
  | .push _ timeout | .pop _ timeout => timeout

def op : QueueRequest → QueueOp
  | .push item _ => .push item
  | .pop .. => .pop

/-- The test at the start of a section. -/
def mustWait (hdl : LspQueueHandle) : QueueRequest → Bool
  | .push .. => hdl.isFull
  | .pop .. => hdl.isEmpty

/-- There is what the call may have waited for. -/
def Finds (hdl : LspQueueHandle) : QueueRequest → Prop
  | .push .. => hdl.length < hdl.queueSize
  | .pop .. => 0 < hdl.length

instance (hdl : LspQueueHandle) (request : QueueRequest) :
    Decidable (request.Finds hdl) :=
  match request with
  | .push .. => inferInstanceAs (Decidable (_ < _))
  | .pop .. => inferInstanceAs (Decidable (_ < _))

/-- What a call returns that would have to wait and has no timeout. -/
def refusal : QueueRequest → Int
  | .push .. => lspErrQueueFull
  | .pop .. => lspErrQueueEmpty

/-- `hdl->waiting_full++`, or `hdl->waiting_empty++` in a pop. -/
def countUp (hdl : LspQueueHandle) : QueueRequest → LspQueueHandle
  | .push .. => { hdl with waitingFull := toInt (hdl.waitingFull + 1) }
  | .pop .. => { hdl with waitingEmpty := toInt (hdl.waitingEmpty + 1) }

def countDown (hdl : LspQueueHandle) : QueueRequest → LspQueueHandle
  | .push .. => { hdl with waitingFull := toInt (hdl.waitingFull - 1) }
  | .pop .. => { hdl with waitingEmpty := toInt (hdl.waitingEmpty - 1) }

/-- One byte of `memcpy`, on the side of the queue. -/
def storeByte (hdl : LspQueueHandle) (byte : Nat) :
    QueueRequest → LspQueueHandle
  | .push item _ =>
      { hdl with
        data := Function.update hdl.data
          (entryFind hdl.tail hdl.itemsize + byte) (item byte) }
  | .pop .. => hdl

/-- One byte of `memcpy`, on the side of the caller. -/
def loadByte (hdl : LspQueueHandle) (byte : Nat) :
    QueueRequest → QueueRequest
  | .push item timeout => .push item timeout
  | .pop data timeout =>
      .pop (Function.update data byte
        (hdl.data (entryFind hdl.head hdl.itemsize + byte))) timeout

/-- `++hdl->tail`, or `++hdl->head` in a pop. -/
def advance (hdl : LspQueueHandle) : QueueRequest → LspQueueHandle
  | .push .. => { hdl with tail := toInt (hdl.tail + 1) }
  | .pop .. => { hdl with head := toInt (hdl.head + 1) }

/-- The assignment of the remainder to `hdl->tail` or `hdl->head`. -/
def wrap (hdl : LspQueueHandle) : QueueRequest → LspQueueHandle
  | .push .. =>
      { hdl with tail := toInt ↑(toSize hdl.tail % hdl.queueSize) }
  | .pop .. => { hdl with head := toInt ↑(toSize hdl.head % hdl.queueSize) }

/-- `hdl->length++`, or `hdl->length--` in a pop. -/
def resize (hdl : LspQueueHandle) : QueueRequest → LspQueueHandle
  | .push .. => { hdl with length := toInt (hdl.length + 1) }
  | .pop .. => { hdl with length := toInt (hdl.length - 1) }

section Itemsize

variable (hdl : LspQueueHandle) (request : QueueRequest) (byte : Nat)

@[simp] theorem countUp_itemsize :
    (request.countUp hdl).itemsize = hdl.itemsize := by
  cases hdl
  cases request <;> rfl

@[simp] theorem countDown_itemsize :
    (request.countDown hdl).itemsize = hdl.itemsize := by
  cases hdl
  cases request <;> rfl

@[simp] theorem storeByte_itemsize :
    (request.storeByte hdl byte).itemsize = hdl.itemsize := by
  cases hdl
  cases request <;> rfl

@[simp] theorem advance_itemsize :
    (request.advance hdl).itemsize = hdl.itemsize := by
  cases hdl
  cases request <;> rfl

@[simp] theorem wrap_itemsize :
    (request.wrap hdl).itemsize = hdl.itemsize := by
  cases hdl
  cases request <;> rfl

@[simp] theorem resize_itemsize :
    (request.resize hdl).itemsize = hdl.itemsize := by
  cases hdl
  cases request <;> rfl

end Itemsize

/-- The bytes behind the pointer of a pop that succeeds. -/
def copied (itemsize : Nat) (rc : Int) :
    QueueRequest → Option (List UInt8)
  | .push .. => none
  | .pop data _ =>
      if rc = lspErrNone then some ((List.range itemsize).map data) else none

end QueueRequest

/-- What the threads on a queue share. -/
structure QueueShared (Tid : Type) where
  queue : LspQueueHandle
  condFull : CondVar Tid
  condEmpty : CondVar Tid

namespace QueueShared

open QueueThreads (endWait)

variable {Tid : Type}

def change (shared : QueueShared Tid)
    (change : LspQueueHandle → LspQueueHandle) : QueueShared Tid :=
  { shared with queue := change shared.queue }

@[simp] theorem change_queue (shared : QueueShared Tid)
    (change : LspQueueHandle → LspQueueHandle) :
    (shared.change change).queue = change shared.queue := rfl

/-- The thread blocks on the condition variable of its call. -/
def block (shared : QueueShared Tid) (thread : Tid) :
    QueueRequest → QueueShared Tid
  | .push .. => { shared with condFull := shared.condFull.wait thread }
  | .pop .. => { shared with condEmpty := shared.condEmpty.wait thread }

variable [DecidableEq Tid]

def wake (shared : QueueShared Tid) (thread : Tid)
    (deadline : Option Timespec) (result : WaitResult) :
    QueueRequest → Option (QueueShared Tid)
  | .push .. =>
      (endWait shared.condFull thread deadline result).map fun condFull =>
        { shared with condFull := condFull }
  | .pop .. =>
      (endWait shared.condEmpty thread deadline result).map fun condEmpty =>
        { shared with condEmpty := condEmpty }

/-- The signal for a stored item, or for a free entry. -/
def signal (shared : QueueShared Tid) (pick : Tid) :
    QueueRequest → Option (QueueShared Tid)
  | .push .. =>
      (shared.condEmpty.signal pick).map fun condEmpty =>
        { shared with condEmpty := condEmpty }
  | .pop .. =>
      (shared.condFull.signal pick).map fun condFull =>
        { shared with condFull := condFull }

end QueueShared

/-- The next statement of a thread: outside, the lock, the test, the counter
before a wait, the wait, blocked in it, the counter behind it, one byte of
the copy, the two stores to the index, the length, the signal, the unlock. -/
inductive QueuePlace where
  | outside
  | locking (request : QueueRequest)
  | testing (request : QueueRequest)
  | counting (request : QueueRequest)
  | waiting (request : QueueRequest)
  | blocked (request : QueueRequest) (deadline : Option Timespec)
  | uncounting (request : QueueRequest) (result : WaitResult)
  | copying (request : QueueRequest) (byte : Nat)
  | advancing (request : QueueRequest)
  | wrapping (request : QueueRequest)
  | resizing (request : QueueRequest)
  | signalling (request : QueueRequest)
  | unlocking (request : QueueRequest) (rc : Int)

/-- Where a thread holds the mutex. -/
def QueuePlace.holds : QueuePlace → Bool
  | .outside | .locking _ | .blocked .. => false
  | _ => true

/-- What the schedule and the system decide about a statement. -/
inductive QueueChoice (Tid : Type) where
  | call (request : QueueRequest)
  | lock (succeeds : Bool)
  | wake (result : WaitResult)
  | go (clock : Option Timespec) (pick : Tid)

/-- Who returns from which call, unless the lock failed, and with what. -/
abbrev QueueReturn (Tid : Type) :=
  (Tid × Option QueueOp) × (Int × Option (List UInt8))

namespace QueueAccesses

variable {Tid : Type} [DecidableEq Tid]

/-- The statements of `lsp_queue_push` and `lsp_queue_pop`. -/
def run (thread : Tid) (shared : QueueShared Tid) :
    QueuePlace → QueueChoice Tid →
      Option (QueueShared Tid × QueuePlace × Option (QueueReturn Tid))
  | .outside, .call request => some (shared, .locking request, none)
  | .locking request, .lock true => some (shared, .testing request, none)
  | .locking _, .lock false =>
      some (shared, .outside, some ((thread, none), lspErrMutex, none))
  | .testing request, .go _ _ =>
      if request.mustWait shared.queue then
        if request.timeout > 0 then some (shared, .counting request, none)
        else some (shared, .unlocking request request.refusal, none)
      else some (shared, .copying request 0, none)
  | .counting request, .go _ _ =>
      some (shared.change request.countUp, .waiting request, none)
  | .waiting request, .go clock _ =>
      let deadline := queueWaitInternal request.timeout clock
      if deadlineRefused deadline then
        some (shared, .uncounting request .einval, none)
      else some (shared.block thread request, .blocked request deadline, none)
  | .blocked request deadline, .wake result =>
      (shared.wake thread deadline result request).map fun shared =>
        (shared, .uncounting request result, none)
  | .uncounting request result, .go _ _ =>
      let shared := shared.change request.countDown
      match result with
      | .ok => some (shared, .copying request 0, none)
      | .etimedout => some (shared, .unlocking request lspErrTimeout, none)
      | .einval => some (shared, .unlocking request lspErrInvalid, none)
  | .copying request byte, .go _ _ =>
      if byte < shared.queue.itemsize then
        some (shared.change fun hdl => request.storeByte hdl byte,
          .copying (request.loadByte shared.queue byte) (byte + 1), none)
      else some (shared, .advancing request, none)
  | .advancing request, .go _ _ =>
      some (shared.change request.advance, .wrapping request, none)
  | .wrapping request, .go _ _ =>
      some (shared.change request.wrap, .resizing request, none)
  | .resizing request, .go _ _ =>
      some (shared.change request.resize, .signalling request, none)
  | .signalling request, .go _ pick =>
      (shared.signal pick request).map fun shared =>
        (shared, .unlocking request lspErrNone, none)
  | .unlocking request rc, .go _ _ =>
      some (shared, .outside,
        some ((thread, some request.op), rc,
          request.copied shared.queue.itemsize rc))
  | _, _ => none

def statements :
    Statements Tid (QueueShared Tid) QueuePlace (QueueChoice Tid)
      (Option (QueueReturn Tid)) where
  holds := QueuePlace.holds
  run := run

def step (s : Interleaving Tid (QueueShared Tid) QueuePlace)
    (access : Tid × QueueChoice Tid) :
    Option (Interleaving Tid (QueueShared Tid) QueuePlace) :=
  (statements.exec s access).map Prod.fst

/-- No thread has called the queue yet. -/
def initial (hdl : LspQueueHandle) :
    Interleaving Tid (QueueShared Tid) QueuePlace where
  shared := { queue := hdl, condFull := .empty, condEmpty := .empty }
  owner := none
  place := fun _ => .outside

theorem initial_owned (hdl : LspQueueHandle) :
    (@statements Tid _).Owned (initial hdl) := by
  intro thread
  exact iff_of_false (Option.some_ne_none thread).symm Bool.false_ne_true

theorem owned_of_run {hdl : LspQueueHandle}
    {guard : Interleaving Tid (QueueShared Tid) QueuePlace →
      Tid × QueueChoice Tid → Prop}
    {accesses : List (Tid × QueueChoice Tid)}
    {s : Interleaving Tid (QueueShared Tid) QueuePlace}
    (run : Run step guard (initial hdl) accesses s) : statements.Owned s :=
  Statements.Owned.run (initial_owned hdl) run

end QueueAccesses

/-! ## One thread by itself -/

namespace QueueRequest

/-- The queue and the request after so many bytes of `memcpy`. -/
def bytesCopied (hdl : LspQueueHandle) (count : Nat) :
    QueueRequest → LspQueueHandle × QueueRequest
  | .push item timeout =>
      ({ hdl with
        data := fun place =>
          if entryFind hdl.tail hdl.itemsize ≤ place ∧
              place < entryFind hdl.tail hdl.itemsize + count then
            item (place - entryFind hdl.tail hdl.itemsize)
          else hdl.data place },
        .push item timeout)
  | .pop data timeout =>
      (hdl, .pop (fun byte =>
        if byte < count then
          hdl.data (entryFind hdl.head hdl.itemsize + byte)
        else data byte) timeout)

/-- The queue and the request after all of `memcpy`. -/
def allCopied (hdl : LspQueueHandle) (request : QueueRequest) :
    LspQueueHandle × QueueRequest :=
  request.bytesCopied hdl hdl.itemsize

/-- The indices and the length after the copy. -/
def settle (hdl : LspQueueHandle) (request : QueueRequest) :
    LspQueueHandle :=
  request.resize (request.wrap (request.advance hdl))

theorem bytesCopied_zero (hdl : LspQueueHandle) (request : QueueRequest) :
    request.bytesCopied hdl 0 = (hdl, request) := by
  cases request with
  | push item timeout =>
      have none : ∀ place : Nat,
          ¬(entryFind hdl.tail hdl.itemsize ≤ place ∧
            place < entryFind hdl.tail hdl.itemsize + 0) := by
        omega
      simp only [bytesCopied, none, if_false]
  | pop data timeout => simp only [bytesCopied, Nat.not_lt_zero, if_false]

theorem bytesCopied_succ (hdl : LspQueueHandle) (request : QueueRequest)
    (count : Nat) :
    request.bytesCopied hdl (count + 1) =
      ((request.bytesCopied hdl count).2.storeByte
          (request.bytesCopied hdl count).1 count,
        (request.bytesCopied hdl count).2.loadByte
          (request.bytesCopied hdl count).1 count) := by
  cases request with
  | push item timeout =>
      simp only [bytesCopied, storeByte, loadByte, Prod.mk.injEq,
        LspQueueHandle.mk.injEq, and_true, true_and]
      funext place
      by_cases here : place = entryFind hdl.tail hdl.itemsize + count
      · rw [here, Function.update_self, if_pos (by omega)]
        congr 1
        omega
      · rw [Function.update_of_ne here]
        have same : (entryFind hdl.tail hdl.itemsize ≤ place ∧
            place < entryFind hdl.tail hdl.itemsize + (count + 1)) ↔
          (entryFind hdl.tail hdl.itemsize ≤ place ∧
            place < entryFind hdl.tail hdl.itemsize + count) := by
          omega
        simp only [same]
  | pop data timeout =>
      simp only [bytesCopied, storeByte, loadByte, Prod.mk.injEq,
        QueueRequest.pop.injEq, and_true, true_and]
      funext byte
      by_cases here : byte = count
      · rw [here, Function.update_self, if_pos (by omega)]
      · rw [Function.update_of_ne here]
        have same : byte < count + 1 ↔ byte < count := by omega
        simp only [same]

theorem bytesCopied_itemsize (hdl : LspQueueHandle) (request : QueueRequest)
    (count : Nat) :
    (request.bytesCopied hdl count).1.itemsize = hdl.itemsize := by
  cases request <;> rfl

theorem settle_push (hdl : LspQueueHandle) (item : Nat → UInt8)
    (timeout : UInt32) :
    (allCopied hdl (.push item timeout)).2.settle
        (allCopied hdl (.push item timeout)).1 = hdl.store item := rfl

theorem settle_pop (hdl : LspQueueHandle) (data : Nat → UInt8)
    (timeout : UInt32) :
    (allCopied hdl (.pop data timeout)).2.settle
        (allCopied hdl (.pop data timeout)).1 = hdl.take := by
  have copied : (allCopied hdl (.pop data timeout)).1 = hdl := rfl
  rw [copied]
  cases hdl
  rfl

/-- The bytes behind the pointer of a pop are the first entry. -/
theorem copied_pop (hdl : LspQueueHandle) (data : Nat → UInt8)
    (timeout : UInt32) :
    (allCopied hdl (.pop data timeout)).2.copied hdl.itemsize lspErrNone =
      some (hdl.entry hdl.head) := by
  simp only [allCopied, bytesCopied, copied, if_true, Option.some.injEq,
    LspQueueHandle.entry]
  apply List.map_congr_left
  intro byte member
  rw [if_pos (List.mem_range.mp member)]

end QueueRequest

namespace QueueAccesses

variable {Tid : Type}

/-- A thread that wakes up finds room, or an item. -/
def InTime (shared : QueueShared Tid) : QueuePlace → QueueChoice Tid → Prop
  | .blocked request _, .wake .ok => request.Finds shared.queue
  | _, _ => True

instance (shared : QueueShared Tid) (place : QueuePlace)
    (choice : QueueChoice Tid) : Decidable (InTime shared place choice) :=
  match place, choice with
  | .blocked request _, .wake .ok =>
      inferInstanceAs (Decidable (request.Finds _))
  | .blocked .., .wake .etimedout | .blocked .., .wake .einval
  | .blocked .., .call _ | .blocked .., .lock _ | .blocked .., .go ..
  | .outside, _ | .locking _, _ | .testing _, _ | .counting _, _
  | .waiting _, _ | .uncounting .., _ | .copying .., _ | .advancing _, _
  | .wrapping _, _ | .resizing _, _ | .signalling _, _ | .unlocking .., _ =>
      inferInstanceAs (Decidable True)

variable [DecidableEq Tid]

/-- A section has got to the copy. -/
inductive Granted (strict : Prop) (thread : Tid) (start : QueueShared Tid) :
    QueuePlace → QueueRequest → QueueShared Tid → Prop where
  | atOnce {request : QueueRequest} :
      request.mustWait start.queue = false →
      Granted strict thread start (.locking request) request start
  | woken {request : QueueRequest} {deadline : Option Timespec}
      {shared : QueueShared Tid} :
      (strict →
        InTime start (.blocked request deadline)
          (.wake .ok : QueueChoice Tid)) →
      start.wake thread deadline .ok request = some shared →
      Granted strict thread start (.blocked request deadline) request
        (shared.change request.countDown)

/-- A section is about to return without having copied anything. -/
inductive Failed (thread : Tid) (start : QueueShared Tid) :
    QueuePlace → QueueRequest → Int → QueueShared Tid → Prop where
  | refused {request : QueueRequest} :
      request.mustWait start.queue = true →
      ¬request.timeout > 0 →
      Failed thread start (.locking request) request request.refusal start
  | invalid {request : QueueRequest} {clock : Option Timespec} :
      request.mustWait start.queue = true →
      request.timeout > 0 →
      deadlineRefused (queueWaitInternal request.timeout clock) = true →
      Failed thread start (.locking request) request lspErrInvalid
        ((start.change request.countUp).change request.countDown)
  | expired {request : QueueRequest} {deadline : Option Timespec}
      {shared : QueueShared Tid} :
      start.wake thread deadline .etimedout request = some shared →
      Failed thread start (.blocked request deadline) request lspErrTimeout
        (shared.change request.countDown)

/-- What a thread that holds the mutex has done since it took it. -/
inductive Stage (strict : Prop) (thread : Tid) (start : QueueShared Tid)
    (before : QueuePlace) : QueueShared Tid → QueuePlace → Prop where
  | testing {request : QueueRequest} :
      before = .locking request →
      Stage strict thread start before start (.testing request)
  | counting {request : QueueRequest} :
      before = .locking request →
      request.mustWait start.queue = true →
      request.timeout > 0 →
      Stage strict thread start before start (.counting request)
  | waiting {request : QueueRequest} :
      before = .locking request →
      request.mustWait start.queue = true →
      request.timeout > 0 →
      Stage strict thread start before (start.change request.countUp)
        (.waiting request)
  | invalid {request : QueueRequest} {clock : Option Timespec} :
      before = .locking request →
      request.mustWait start.queue = true →
      request.timeout > 0 →
      deadlineRefused (queueWaitInternal request.timeout clock) = true →
      Stage strict thread start before (start.change request.countUp)
        (.uncounting request .einval)
  | woken {request : QueueRequest} {deadline : Option Timespec}
      {result : WaitResult} {shared : QueueShared Tid} :
      before = .blocked request deadline →
      (strict →
        InTime start (.blocked request deadline)
          (.wake result : QueueChoice Tid)) →
      start.wake thread deadline result request = some shared →
      Stage strict thread start before shared (.uncounting request result)
  | copying {request : QueueRequest} {shared : QueueShared Tid}
      {count : Nat} :
      Granted strict thread start before request shared →
      count ≤ shared.queue.itemsize →
      Stage strict thread start before
        (shared.change fun hdl => (request.bytesCopied hdl count).1)
        (.copying (request.bytesCopied shared.queue count).2 count)
  | advancing {request copied : QueueRequest} {shared : QueueShared Tid}
      {hdl : LspQueueHandle} :
      Granted strict thread start before request shared →
      request.allCopied shared.queue = (hdl, copied) →
      Stage strict thread start before (shared.change fun _ => hdl)
        (.advancing copied)
  | wrapping {request copied : QueueRequest} {shared : QueueShared Tid}
      {hdl : LspQueueHandle} :
      Granted strict thread start before request shared →
      request.allCopied shared.queue = (hdl, copied) →
      Stage strict thread start before
        (shared.change fun _ => copied.advance hdl) (.wrapping copied)
  | resizing {request copied : QueueRequest} {shared : QueueShared Tid}
      {hdl : LspQueueHandle} :
      Granted strict thread start before request shared →
      request.allCopied shared.queue = (hdl, copied) →
      Stage strict thread start before
        (shared.change fun _ => copied.wrap (copied.advance hdl))
        (.resizing copied)
  | signalling {request copied : QueueRequest} {shared : QueueShared Tid}
      {hdl : LspQueueHandle} :
      Granted strict thread start before request shared →
      request.allCopied shared.queue = (hdl, copied) →
      Stage strict thread start before
        (shared.change fun _ => copied.settle hdl) (.signalling copied)
  | succeeding {request copied : QueueRequest}
      {shared signalled : QueueShared Tid} {hdl : LspQueueHandle}
      {pick : Tid} :
      Granted strict thread start before request shared →
      request.allCopied shared.queue = (hdl, copied) →
      (shared.change fun _ => copied.settle hdl).signal pick copied =
        some signalled →
      Stage strict thread start before signalled (.unlocking copied lspErrNone)
  | failing {request : QueueRequest} {rc : Int} {shared : QueueShared Tid} :
      Failed thread start before request rc shared →
      Stage strict thread start before shared (.unlocking request rc)

theorem Stage.copies {strict : Prop} {thread : Tid}
    {start shared : QueueShared Tid} {before : QueuePlace}
    {request : QueueRequest}
    (granted : Granted strict thread start before request shared) :
    Stage strict thread start before shared (.copying request 0) := by
  have copying := Stage.copying granted (Nat.zero_le _)
  simp only [QueueRequest.bytesCopied_zero] at copying
  exact copying

theorem Stage.copiesByte {strict : Prop} {thread : Tid}
    {start shared : QueueShared Tid} {before : QueuePlace}
    {request : QueueRequest} {count : Nat}
    (granted : Granted strict thread start before request shared)
    (below : count < shared.queue.itemsize) :
    Stage strict thread start before
      ((shared.change fun hdl => (request.bytesCopied hdl count).1).change
        fun hdl =>
          (request.bytesCopied shared.queue count).2.storeByte hdl count)
      (.copying
        ((request.bytesCopied shared.queue count).2.loadByte
          (request.bytesCopied shared.queue count).1 count)
        (count + 1)) := by
  have copying := Stage.copying granted (Nat.succ_le_of_lt below)
  simp only [Nat.succ_eq_add_one, QueueRequest.bytesCopied_succ] at copying
  exact copying

theorem Stage.next {strict : Prop} {thread : Tid}
    {start shared shared' : QueueShared Tid} {before place place' : QueuePlace}
    {choice : QueueChoice Tid}
    {outcome : Option (QueueReturn Tid)}
    (stage : Stage strict thread start before shared place)
    (runs : run thread shared place choice = some (shared', place', outcome))
    (held : place'.holds = true) :
    Stage strict thread start before shared' place' := by
  cases choice with
  | call request => cases stage <;> cases runs
  | lock succeeds => cases stage <;> cases runs
  | wake result => cases stage <;> cases runs
  | go clock pick =>
      cases stage with
      | @testing request origin =>
          simp only [run] at runs
          split at runs
          · rename_i waits
            split at runs
            · rename_i timed
              cases runs
              exact .counting origin waits timed
            · rename_i untimed
              cases runs
              subst before
              exact .failing (.refused waits untimed)
          · rename_i ready
            cases runs
            subst before
            exact .copies (.atOnce (by simpa using ready))
      | counting origin waits timed =>
          cases runs
          exact .waiting origin waits timed
      | waiting origin waits timed =>
          simp only [run] at runs
          split at runs
          · rename_i refused
            cases runs
            exact .invalid origin waits timed refused
          · cases runs
            cases held
      | invalid origin waits timed refused =>
          cases runs
          subst before
          exact .failing (.invalid waits timed refused)
      | @woken request deadline result shared origin inTime woken =>
          subst before
          cases result with
          | ok =>
              cases runs
              exact .copies (.woken inTime woken)
          | etimedout =>
              cases runs
              exact .failing (.expired woken)
          | einval => cases request <;> cases woken
      | @copying request shared count granted below =>
          simp only [run] at runs
          split at runs
          · rename_i more
            cases runs
            have size := request.bytesCopied_itemsize shared.queue count
            exact .copiesByte granted (lt_of_lt_of_eq more size)
          · rename_i last
            cases runs
            have size := request.bytesCopied_itemsize shared.queue count
            have all : count = shared.queue.itemsize :=
              le_antisymm below (le_of_not_gt fun more =>
                last (lt_of_lt_of_eq more size.symm))
            subst all
            have next := Stage.advancing granted rfl
            exact next
      | advancing granted copied =>
          cases runs
          have next := Stage.wrapping granted copied
          exact next
      | wrapping granted copied =>
          cases runs
          have next := Stage.resizing granted copied
          exact next
      | resizing granted copied =>
          cases runs
          have next := Stage.signalling granted copied
          exact next
      | signalling granted copied =>
          obtain ⟨signalled, signals, same⟩ := Option.map_eq_some_iff.mp runs
          cases same
          exact .succeeding granted copied signals
      | succeeding granted copied signals =>
          cases runs
          cases held
      | failing failed =>
          cases runs
          cases held

/-- A statement of a thread without the mutex. -/
inductive Outside (thread : Tid) (shared : QueueShared Tid) :
    QueuePlace → QueueChoice Tid → QueueShared Tid → QueuePlace →
      Option (QueueReturn Tid) → Prop where
  | calls {request : QueueRequest} :
      Outside thread shared .outside (.call request) shared
        (.locking request) none
  | lockFails {request : QueueRequest} :
      Outside thread shared (.locking request) (.lock false) shared .outside
        (some ((thread, none), lspErrMutex, none))
  | locks {request : QueueRequest} :
      Outside thread shared (.locking request) (.lock true) shared
        (.testing request) none
  | wakes {request : QueueRequest} {deadline : Option Timespec}
      {result : WaitResult} {woken : QueueShared Tid} :
      shared.wake thread deadline result request = some woken →
      Outside thread shared (.blocked request deadline) (.wake result) woken
        (.uncounting request result) none

theorem outside_of_run {thread : Tid} {shared shared' : QueueShared Tid}
    {place place' : QueuePlace} {choice : QueueChoice Tid}
    {outcome : Option (QueueReturn Tid)} (unheld : place.holds = false)
    (runs : run thread shared place choice =
      some (shared', place', outcome)) :
    Outside thread shared place choice shared' place' outcome := by
  cases place with
  | outside =>
      cases choice <;> cases runs
      exact .calls
  | locking request =>
      cases choice with
      | lock succeeds =>
          cases succeeds <;> cases runs
          · exact .lockFails
          · exact .locks
      | call request => cases runs
      | wake result => cases runs
      | go clock pick => cases runs
  | blocked request deadline =>
      cases choice with
      | wake result =>
          obtain ⟨woken, wakes, same⟩ := Option.map_eq_some_iff.mp runs
          cases same
          exact .wakes wakes
      | call request => cases runs
      | lock succeeds => cases runs
      | go clock pick => cases runs
  | _ => cases unheld

/-- A statement that gives the mutex back. -/
inductive Unlocks (thread : Tid) (shared : QueueShared Tid) :
    QueuePlace → QueueShared Tid → QueuePlace → Option (QueueReturn Tid) →
      Prop where
  | blocks {request : QueueRequest} {clock : Option Timespec} :
      deadlineRefused (queueWaitInternal request.timeout clock) = false →
      Unlocks thread shared (.waiting request) (shared.block thread request)
        (.blocked request (queueWaitInternal request.timeout clock)) none
  | returns {request : QueueRequest} {rc : Int} :
      Unlocks thread shared (.unlocking request rc) shared .outside
        (some ((thread, some request.op), rc,
          request.copied shared.queue.itemsize rc))

theorem unlocks_of_run {thread : Tid} {shared shared' : QueueShared Tid}
    {place place' : QueuePlace} {choice : QueueChoice Tid}
    {outcome : Option (QueueReturn Tid)} (held : place.holds = true)
    (runs : run thread shared place choice = some (shared', place', outcome))
    (unheld : place'.holds = false) :
    Unlocks thread shared place shared' place' outcome := by
  cases choice with
  | call request => cases place <;> cases runs; cases held
  | lock succeeds =>
      cases place with
      | locking request => cases held
      | _ => cases runs
  | wake result =>
      cases place with
      | blocked request deadline => cases held
      | _ => cases runs
  | go clock pick =>
      cases place with
      | outside => cases runs
      | locking request => cases runs
      | blocked request deadline => cases runs
      | testing request =>
          simp only [run] at runs
          split at runs
          · split at runs <;> cases runs <;> cases unheld
          · cases runs
            cases unheld
      | waiting request =>
          simp only [run] at runs
          split at runs
          · cases runs
            cases unheld
          · rename_i accepted
            cases runs
            exact .blocks (by simpa using accepted)
      | uncounting request result =>
          cases result <;> cases runs <;> cases unheld
      | copying request byte =>
          simp only [run] at runs
          split at runs <;> cases runs <;> cases unheld
      | signalling request =>
          obtain ⟨signalled, _, same⟩ := Option.map_eq_some_iff.mp runs
          cases same
          cases unheld
      | unlocking request rc =>
          cases runs
          exact .returns
      | counting request | advancing request | wrapping request
      | resizing request =>
          cases runs
          cases unheld

theorem silent_of_run {thread : Tid} {shared shared' : QueueShared Tid}
    {place place' : QueuePlace} {choice : QueueChoice Tid}
    {outcome : Option (QueueReturn Tid)}
    (runs : run thread shared place choice = some (shared', place', outcome))
    (held : place'.holds = true) : outcome = none := by
  unfold run at runs
  split at runs
  case h_3 | h_14 =>
    cases runs
    cases held
  case h_4 =>
    split at runs
    · split at runs <;> cases runs <;> rfl
    · cases runs
      rfl
  case h_6 =>
    simp only at runs
    split at runs <;> cases runs <;> rfl
  case h_8 | h_9 => split at runs <;> cases runs <;> rfl
  case h_7 | h_13 =>
    obtain ⟨_, _, same⟩ := Option.map_eq_some_iff.mp runs
    cases same
    rfl
  all_goals cases runs <;> rfl

/-- Either all runs, or those in which the threads wake in time. -/
def Admitted (strict : Prop) (_ : Tid) (shared : QueueShared Tid)
    (place : QueuePlace) (choice : QueueChoice Tid) : Prop :=
  strict → InTime shared place choice

theorem disciplined (strict : Prop) :
    (@statements Tid _).Disciplined (Admitted strict) where
  outside := by
    intro thread shared place choice shared' place' outcome unheld runs still
    cases outside_of_run unheld runs with
    | calls => exact ⟨rfl, fun _ => rfl⟩
    | lockFails => exact ⟨rfl, fun _ => rfl⟩
    | locks => cases still
    | wakes => cases still
  unguarded := by
    intro thread shared place choice shared' place' outcome unheld runs still
      _ other _
    cases outside_of_run unheld runs with
    | calls => exact trivial
    | lockFails => exact trivial
    | locks => cases still
    | wakes => cases still
  quiet := by
    intro thread shared place choice shared' place' outcome runs held
    exact silent_of_run runs held

/-- What a thread does between the lock and the unlock is one of the
stages. -/
theorem stage_of_holding {strict : Prop} {thread : Tid}
    {start shared : QueueShared Tid} {before place : QueuePlace}
    (holding : statements.Holding (Admitted strict) thread start before
      shared place) :
    Stage strict thread start before shared place := by
  induction holding with
  | locks unheld admitted runs held =>
      cases outside_of_run unheld runs with
      | calls => cases held
      | locks => exact .testing rfl
      | wakes woken => exact .woken rfl admitted woken
  | goesOn _ _ runs held induction => exact induction.next runs held

end QueueAccesses

end Liblsp
