import Liblsp.Queue
import Liblsp.ClockReadings

/-!
# The deadlines of timed waits

A timeout becomes a deadline in three places.  `lsp_mutex_lock` carries full
seconds out of the nanoseconds; `queue_wait_internal` and
`egroup_wait_internal` do not, so `pthread_cond_timedwait` refuses their
deadlines whenever a carry is due.
-/

namespace Liblsp

open Base

/-- The deadline that `lsp_mutex_lock` computes from a reading. -/
def lspMutexLockDeadline (timeout : UInt32) (ts : Timespec) : Timespec :=
  let ts : Timespec :=
    { tvSec := ts.tvSec + (timeout / 1000).toNat
      tvNsec := ts.tvNsec + (timeout % 1000 * 1000000).toNat }
  if ts.tvNsec ≥ 1000000000 then
    { tvSec := ts.tvSec + ts.tvNsec / 1000000000
      tvNsec := ts.tvNsec % 1000000000 }
  else ts

/-- `lsp_mutex_lock`, given the results of `pthread_mutex_lock` and of
`pthread_mutex_timedlock`. -/
def lspMutexLock (timeout : UInt32) (clock : Option Timespec)
    (pthreadLock : Int) (pthreadTimedlock : Timespec → Int) : Int :=
  if timeout = lspTimeoutMax then
    if pthreadLock ≠ 0 then lspErrMutex else lspErrNone
  else
    match clock with
    | none => lspErrMutex
    | some ts =>
        if pthreadTimedlock (lspMutexLockDeadline timeout ts) ≠ 0 then
          lspErrMutex
        else lspErrNone

namespace Timespec

/-- Nanoseconds that `pthread` accepts. -/
def ValidNsec (ts : Timespec) : Prop :=
  0 ≤ ts.tvNsec ∧ ts.tvNsec < 1000000000

/-- A deadline that is accepted and lies `timeout` milliseconds after a
reading. -/
structure IsDeadline (deadline reading : Timespec) (timeout : UInt32) :
    Prop where
  valid : deadline.ValidNsec
  exact : deadline.nanos = reading.nanos + timeout.toNat * 1000000

theorem deadlineRefused_iff {deadline : Timespec} :
    deadlineRefused (some deadline) = false ↔ deadline.ValidNsec := by
  simp [deadlineRefused, ValidNsec]

end Timespec

/-- The deadlines from a reading are right in all three places, and no wait
fails because of one. -/
structure DeadlinesRight (timeout : UInt32) (ts : Timespec) : Prop where
  mutex : (lspMutexLockDeadline timeout ts).IsDeadline ts timeout
  queue : ∃ deadline, queueWaitInternal timeout (some ts) = some deadline ∧
    deadline.IsDeadline ts timeout
  egroup : ∃ deadline, egroupWaitInternal timeout (some ts) = some deadline ∧
    deadline.IsDeadline ts timeout
  push : ∀ hdl item,
    (lspQueuePushLocked hdl item timeout (some ts)).2 ≠ .ret lspErrInvalid
  pop : ∀ hdl,
    (lspQueuePopLocked hdl timeout (some ts)).2 ≠ .ret lspErrInvalid
  wait : ∀ (call : EgroupCall) eventBits,
    call.block eventBits timeout (some ts) =
      (eventBits, .wait
        { call with deadline := egroupWaitInternal timeout (some ts) })

/-! ## Milliseconds as seconds and nanoseconds -/

theorem wholeSeconds_toNat (timeout : UInt32) :
    (timeout / 1000).toNat = timeout.toNat / 1000 := by
  rw [UInt32.toNat_div]
  rfl

theorem restNanos_toNat (timeout : UInt32) :
    (timeout % 1000 * 1000000).toNat = timeout.toNat % 1000 * 1000000 := by
  have rest : (timeout % 1000).toNat = timeout.toNat % 1000 :=
    UInt32.toNat_mod timeout 1000
  have factor : (1000000 : UInt32).toNat = 1000000 := rfl
  rw [UInt32.toNat_mul, rest, factor]
  omega

section Deadlines

variable {timeout : UInt32} {ts : Timespec}

theorem lspMutexLockDeadline_isDeadline (reading : ts.ValidNsec) :
    (lspMutexLockDeadline timeout ts).IsDeadline ts timeout := by
  obtain ⟨nonneg, below⟩ := reading
  rw [lspMutexLockDeadline, wholeSeconds_toNat, restNanos_toNat]
  dsimp only
  split
  · constructor
    · constructor <;> dsimp only <;> omega
    · simp only [Timespec.nanos]
      omega
  · constructor
    · constructor <;> dsimp only <;> omega
    · simp only [Timespec.nanos]
      omega

theorem lspMutexLock_of_valid (finite : timeout ≠ lspTimeoutMax)
    (reading : ts.ValidNsec) {pthreadTimedlock : Timespec → Int}
    (accepts : ∀ deadline, deadline.ValidNsec → pthreadTimedlock deadline = 0)
    (pthreadLock : Int) :
    lspMutexLock timeout (some ts) pthreadLock pthreadTimedlock =
      lspErrNone := by
  have right := @lspMutexLockDeadline_isDeadline timeout ts reading
  simp [lspMutexLock, finite, accepts _ right.valid]

theorem condWaitDeadline_some (finite : timeout ≠ lspTimeoutMax) :
    ∃ deadline, condWaitDeadline timeout (some ts) = some deadline ∧
      deadline.nanos = ts.nanos + timeout.toNat * 1000000 ∧
      deadline.tvNsec = ts.tvNsec + timeout.toNat % 1000 * 1000000 := by
  refine ⟨_, if_pos finite, ?_, ?_⟩
  · simp only [Timespec.nanos, wholeSeconds_toNat, restNanos_toNat]
    omega
  · simp only [restNanos_toNat]
    omega

/-- Without a carry the deadline of a wait is right exactly when no carry is
due. -/
theorem condWaitDeadline_isDeadline_iff (finite : timeout ≠ lspTimeoutMax)
    (reading : ts.ValidNsec) :
    (∃ deadline, condWaitDeadline timeout (some ts) = some deadline ∧
        deadline.IsDeadline ts timeout) ↔
      ts.tvNsec + timeout.toNat % 1000 * 1000000 < 1000000000 := by
  obtain ⟨deadline, computed, exact, nsec⟩ := @condWaitDeadline_some timeout
    ts finite
  obtain ⟨nonneg, _⟩ := reading
  constructor
  · rintro ⟨deadline', computed', right⟩
    cases computed.symm.trans computed'
    have below := right.valid.2
    omega
  · intro noCarry
    refine ⟨deadline, computed, ⟨?_, ?_⟩, exact⟩
    · omega
    · omega

theorem lspQueuePushLocked_ne_invalid {clock : Option Timespec}
    (accepted : deadlineRefused (queueWaitInternal timeout clock) = false)
    (hdl : LspQueueHandle) (item : Nat → UInt8) :
    (lspQueuePushLocked hdl item timeout clock).2 ≠ .ret lspErrInvalid := by
  by_cases full : hdl.isFull = true
  · by_cases waits : timeout > 0
    · simp [lspQueuePushLocked, full, waits, accepted]
    · simp [lspQueuePushLocked, full, waits, lspErrQueueFull, lspErrInvalid]
  · simp [lspQueuePushLocked, full, lspErrNone, lspErrInvalid]

theorem lspQueuePopLocked_ne_invalid {clock : Option Timespec}
    (accepted : deadlineRefused (queueWaitInternal timeout clock) = false)
    (hdl : LspQueueHandle) :
    (lspQueuePopLocked hdl timeout clock).2 ≠ .ret lspErrInvalid := by
  by_cases empty : hdl.isEmpty = true
  · by_cases waits : timeout > 0
    · simp [lspQueuePopLocked, empty, waits, accepted]
    · simp [lspQueuePopLocked, empty, waits, lspErrQueueEmpty, lspErrInvalid]
  · simp [lspQueuePopLocked, empty, lspErrNone, lspErrInvalid]

/-- The deadlines are right exactly when the milliseconds of the timeout do
not complete a second of the clock. -/
theorem deadlinesRight_iff (finite : timeout ≠ lspTimeoutMax)
    (reading : ts.ValidNsec) :
    DeadlinesRight timeout ts ↔
      ts.tvNsec + timeout.toNat % 1000 * 1000000 < 1000000000 := by
  constructor
  · intro deadlines
    exact (condWaitDeadline_isDeadline_iff finite reading).mp deadlines.queue
  · intro noCarry
    have right := (condWaitDeadline_isDeadline_iff finite reading).mpr noCarry
    have accepted :
        deadlineRefused (condWaitDeadline timeout (some ts)) = false := by
      obtain ⟨deadline, computed, isDeadline⟩ := right
      rw [computed]
      exact Timespec.deadlineRefused_iff.mpr isDeadline.valid
    constructor
    · exact lspMutexLockDeadline_isDeadline reading
    · exact right
    · exact right
    · exact lspQueuePushLocked_ne_invalid accepted
    · exact lspQueuePopLocked_ne_invalid accepted
    · intro call eventBits
      rcases call.block_cases eventBits timeout (some ts) with
        ⟨refused, _⟩ | ⟨_, blocks⟩
      · cases accepted.symm.trans refused
      · exact blocks

end Deadlines

/-- Half a second from a reading early in its second. -/
theorem deadlinesRight_early :
    DeadlinesRight 500 ⟨7, 100000000⟩ :=
  (deadlinesRight_iff (by decide) ⟨by decide, by decide⟩).mpr (by decide)

/-- Half a second from a reading late in its second makes a wait on an empty
queue fail at once. -/
theorem deadline_refused_late :
    (lspQueuePopLocked
        { length := 0, head := 0, tail := 0, waitingFull := 0,
          waitingEmpty := 0, queueSize := 4, itemsize := 8,
          data := fun _ => 0 }
        500 (some ⟨7, 600000000⟩)).2 = .ret lspErrInvalid ∧
      ¬DeadlinesRight 500 ⟨7, 600000000⟩ := by
  refine ⟨by decide, ?_⟩
  intro deadlines
  exact deadlines.pop
    { length := 0, head := 0, tail := 0, waitingFull := 0,
      waitingEmpty := 0, queueSize := 4, itemsize := 8, data := fun _ => 0 }
    (by decide)

end Liblsp
