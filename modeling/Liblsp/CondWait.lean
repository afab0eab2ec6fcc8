import Liblsp.Types

/-!
# Waiting on a condition variable with a timeout

`queue_wait_internal` and its twin for event groups turn a timeout into the
arguments of a `pthread` wait.  The wait itself releases the mutex, so only
its two ends are visible here: the deadline it is given, and its result.
-/

namespace Liblsp

/-- `struct timespec`. -/
structure Timespec where
  tvSec : Int
  tvNsec : Int
  deriving DecidableEq

/-- What a `pthread` wait returns: `0`, `ETIMEDOUT` or `EINVAL`. -/
inductive WaitResult where
  | ok
  | etimedout
  | einval
  deriving DecidableEq

/-- The deadline for `pthread_cond_timedwait`, or `none` where the code calls
`pthread_cond_wait`: without a timeout, and when the clock cannot be read. -/
def condWaitDeadline (timeout : UInt32) (clock : Option Timespec) :
    Option Timespec :=
  if timeout ≠ lspTimeoutMax then
    clock.map fun ts =>
      { tvSec := ts.tvSec + (timeout / 1000).toNat
        tvNsec := ts.tvNsec + (timeout % 1000 * 1000000).toNat }
  else none

/-- `pthread_cond_timedwait` refuses a deadline without blocking exactly when
its nanoseconds are out of range. -/
def deadlineRefused : Option Timespec → Bool
  | none => false
  | some deadline => deadline.tvNsec < 0 || 1000000000 ≤ deadline.tvNsec

end Liblsp
