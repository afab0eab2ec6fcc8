import Liblsp.Base.CInt
import Liblsp.CondWait

/-!
# Event groups: event bits and critical sections

`lsp_egroup_wait` holds the mutex from the lock to the unlock, except while it
is blocked in `egroup_wait_internal`.  It is cut there into the section up to
the first block and the sections from a wakeup to the next block or to the
exit.  The four loops of the source differ in the condition, which `waitAll`
selects, and in the order of testing and blocking, which the timeout selects.
-/

namespace Liblsp

open Base

/-- `lsp_gettime_ms`, given what `clock_gettime` reads. -/
def lspGettimeMs : Option Timespec → UInt32
  | none => 0
  | some ts => toUint32 ts.tvSec * 1000 + toUint32 ts.tvNsec * 1000000

/-- The arguments and local variables of a `lsp_egroup_wait`, and the deadline
of its last block. -/
structure EgroupCall where
  bits : UInt32
  clearOnExit : Bool
  waitAll : Bool
  timeout : UInt32
  maxTime : UInt32
  remainingTimeout : UInt32
  deadline : Option Timespec

/-- How a section of `lsp_egroup_wait` ends: blocked in
`egroup_wait_internal`, or returning from the call. -/
inductive EgroupEnd where
  | wait (call : EgroupCall)
  | ret (ebits : UInt32)

/-- The condition of a waiter on the event bits. -/
def egroupHolds (eventBits bits : UInt32) (waitAll : Bool) : Bool :=
  if waitAll then eventBits &&& bits = bits else eventBits &&& bits ≠ 0

/-- `egroup_wait_internal`, up to the point where it blocks. -/
def egroupWaitInternal (timeout : UInt32) (clock : Option Timespec) :
    Option Timespec :=
  condWaitDeadline timeout clock

/-- The computation of `remaining_timeout` in the finite loops. -/
def egroupRemaining (maxTime now : UInt32) : UInt32 :=
  if maxTime > now then maxTime - now else 0

namespace EgroupCall

/-- The exit under the mutex: the bits to return, and what is cleared. -/
def exit (call : EgroupCall) (eventBits : UInt32) : UInt32 × EgroupEnd :=
  (if call.clearOnExit then 0 else eventBits &&& ~~~call.bits,
    .ret eventBits)

/-- The call of `egroup_wait_internal`.  A refused deadline is an error other
than a timeout, which every loop leaves at once. -/
def block (call : EgroupCall) (eventBits timeout : UInt32)
    (clock : Option Timespec) : UInt32 × EgroupEnd :=
  let deadline := egroupWaitInternal timeout clock
  if deadlineRefused deadline then call.exit eventBits
  else (eventBits, .wait { call with deadline := deadline })

/-- A loop of `lsp_egroup_wait`, from its head to the next block. -/
def loop (call : EgroupCall) (eventBits : UInt32)
    (now clock : Option Timespec) : UInt32 × EgroupEnd :=
  if call.timeout = lspTimeoutMax then
    if egroupHolds eventBits call.bits call.waitAll then call.exit eventBits
    else call.block eventBits call.timeout clock
  else if call.timeout > 0 then
    if call.remainingTimeout > 0 then
      let call :=
        { call with
          remainingTimeout := egroupRemaining call.maxTime (lspGettimeMs now) }
      call.block eventBits call.remainingTimeout clock
    else call.exit eventBits
  else call.exit eventBits

end EgroupCall

/-- The local variables of `lsp_egroup_wait` before the lock. -/
def EgroupCall.enter (bits : UInt32) (clearOnExit waitAll : Bool)
    (timeout : UInt32) (start : Option Timespec) : EgroupCall :=
  { bits := bits
    clearOnExit := clearOnExit
    waitAll := waitAll
    timeout := timeout
    maxTime := lspGettimeMs start + timeout
    remainingTimeout := timeout
    deadline := none }

/-- `lsp_egroup_wait` from the lock on.  The clock is read before the lock, in
the loop and in `egroup_wait_internal`. -/
def lspEgroupWaitLocked (eventBits bits : UInt32)
    (clearOnExit waitAll : Bool) (timeout : UInt32)
    (start now clock : Option Timespec) : UInt32 × EgroupEnd :=
  (EgroupCall.enter bits clearOnExit waitAll timeout start).loop eventBits
    now clock

/-- `lsp_egroup_wait` from the return of `egroup_wait_internal` on. -/
def lspEgroupWaitResumed (eventBits : UInt32) (call : EgroupCall)
    (result : WaitResult) (now clock : Option Timespec) :
    UInt32 × EgroupEnd :=
  if call.timeout = lspTimeoutMax then
    if result ≠ .ok then call.exit eventBits
    else call.loop eventBits now clock
  else if result ≠ .ok ∧ result ≠ .etimedout then call.exit eventBits
  else if egroupHolds eventBits call.bits call.waitAll then
    call.exit eventBits
  else call.loop eventBits now clock

/-- The locked section of `lsp_egroup_set`. -/
def lspEgroupSetLocked (eventBits bits : UInt32) : UInt32 :=
  eventBits ||| bits

/-! ## What the sections do -/

theorem egroupHolds_of_and {eventBits kept bits : UInt32} {waitAll : Bool}
    (now : egroupHolds (eventBits &&& kept) bits waitAll = true) :
    egroupHolds eventBits bits waitAll = true := by
  have order : eventBits &&& kept &&& bits = eventBits &&& bits &&& kept := by
    rw [UInt32.and_assoc, UInt32.and_comm kept, ← UInt32.and_assoc]
  cases waitAll with
  | true =>
      simp only [egroupHolds, if_true, decide_eq_true_iff] at now ⊢
      calc
        eventBits &&& bits
            = eventBits &&& (eventBits &&& kept &&& bits) := by rw [now]
        _ = eventBits &&& eventBits &&& kept &&& bits := by
          simp only [UInt32.and_assoc]
        _ = eventBits &&& kept &&& bits := by rw [UInt32.and_self]
        _ = bits := now
  | false =>
      simp only [egroupHolds, Bool.false_eq_true, if_false,
        decide_eq_true_iff] at now ⊢
      intro none
      apply now
      rw [order, none, UInt32.zero_and]

namespace EgroupCall

theorem exit_clears (call : EgroupCall) (eventBits : UInt32) :
    ∃ kept, call.exit eventBits = (eventBits &&& kept, .ret eventBits) := by
  cases clear : call.clearOnExit with
  | true => exact ⟨0, by simp [exit, clear]⟩
  | false => exact ⟨~~~call.bits, by simp [exit, clear]⟩

/-- Two calls that wait for the same. -/
def SameWait (left right : EgroupCall) : Prop :=
  left.bits = right.bits ∧ left.clearOnExit = right.clearOnExit ∧
    left.waitAll = right.waitAll ∧ left.timeout = right.timeout

theorem block_cases (call : EgroupCall) (eventBits timeout : UInt32)
    (clock : Option Timespec) :
    (deadlineRefused (egroupWaitInternal timeout clock) = true ∧
        call.block eventBits timeout clock = call.exit eventBits) ∨
      (deadlineRefused (egroupWaitInternal timeout clock) = false ∧
        call.block eventBits timeout clock =
          (eventBits, .wait
            { call with deadline := egroupWaitInternal timeout clock })) := by
  cases refused : deadlineRefused (egroupWaitInternal timeout clock) with
  | true => simp [block, refused]
  | false => simp [block, refused]

/-- Without a timeout a loop tests before it blocks, and nothing refuses the
block. -/
theorem loop_forever {call : EgroupCall}
    (forever : call.timeout = lspTimeoutMax) (eventBits : UInt32)
    (now clock : Option Timespec) :
    call.loop eventBits now clock =
      if egroupHolds eventBits call.bits call.waitAll then
        call.exit eventBits
      else (eventBits, .wait { call with deadline := none }) := by
  have waits : egroupWaitInternal lspTimeoutMax clock = none := by
    simp [egroupWaitInternal, condWaitDeadline]
  simp only [loop, forever, if_true, block, waits]
  rfl

theorem loop_finite {call : EgroupCall}
    (finite : call.timeout ≠ lspTimeoutMax) (positive : call.timeout > 0)
    (left : call.remainingTimeout > 0) (eventBits : UInt32)
    (now clock : Option Timespec) :
    let remaining := egroupRemaining call.maxTime (lspGettimeMs now)
    call.loop eventBits now clock =
      ({ call with remainingTimeout := remaining } : EgroupCall).block
        eventBits remaining clock := by
  simp [loop, finite, positive, left]

theorem loop_over {call : EgroupCall}
    (finite : call.timeout ≠ lspTimeoutMax)
    (expired : ¬(call.timeout > 0 ∧ call.remainingTimeout > 0))
    (eventBits : UInt32) (now clock : Option Timespec) :
    call.loop eventBits now clock = call.exit eventBits := by
  by_cases positive : call.timeout > 0
  · have none : ¬call.remainingTimeout > 0 := by
      intro left
      exact expired ⟨positive, left⟩
    simp [loop, finite, positive, none]
  · simp [loop, finite, positive]

/-- A loop ends the call or blocks for the same wait.  The loop without a
timeout blocks only on a false condition. -/
theorem loop_cases (call : EgroupCall) (eventBits : UInt32)
    (now clock : Option Timespec) :
    call.loop eventBits now clock = call.exit eventBits ∨
      ∃ blocked : EgroupCall, blocked.SameWait call ∧
        call.loop eventBits now clock = (eventBits, .wait blocked) ∧
        (call.timeout = lspTimeoutMax →
          egroupHolds eventBits call.bits call.waitAll = false) := by
  by_cases forever : call.timeout = lspTimeoutMax
  · rw [loop_forever forever]
    cases present : egroupHolds eventBits call.bits call.waitAll with
    | true => exact .inl rfl
    | false =>
        exact .inr ⟨{ call with deadline := none }, ⟨rfl, rfl, rfl, rfl⟩,
          rfl, fun _ => rfl⟩
  · by_cases finite : call.timeout > 0 ∧ call.remainingTimeout > 0
    · have entered := loop_finite forever finite.1 finite.2 eventBits now clock
      rcases block_cases _ eventBits _ clock with
        ⟨_, result⟩ | ⟨_, result⟩
      · exact .inl (entered.trans result)
      · refine .inr ⟨_, ?_, entered.trans result, ?_⟩
        · exact ⟨rfl, rfl, rfl, rfl⟩
        · intro infinite
          exact absurd infinite forever
    · exact .inl (loop_over forever finite eventBits now clock)

end EgroupCall

/-- A call with these arguments and clock readings blocks before it looks at
the event bits. -/
def egroupBlocksUntested (timeout : UInt32)
    (start now clock : Option Timespec) : Prop :=
  timeout ≠ lspTimeoutMax ∧ timeout > 0 ∧
    deadlineRefused (egroupWaitInternal
      (egroupRemaining (lspGettimeMs start + timeout) (lspGettimeMs now))
      clock) = false

instance (timeout : UInt32) (start now clock : Option Timespec) :
    Decidable (egroupBlocksUntested timeout start now clock) :=
  inferInstanceAs (Decidable (_ ∧ _ ∧ _))

section Sections

variable {timeout : UInt32} {start now clock : Option Timespec}

theorem lspEgroupWaitLocked_untested
    (untested : egroupBlocksUntested timeout start now clock)
    (eventBits bits : UInt32) (clearOnExit waitAll : Bool) :
    ∃ blocked : EgroupCall,
      blocked.SameWait (.enter bits clearOnExit waitAll timeout start) ∧
      lspEgroupWaitLocked eventBits bits clearOnExit waitAll timeout start now
        clock = (eventBits, .wait blocked) := by
  obtain ⟨finite, positive, accepted⟩ := untested
  let call : EgroupCall := .enter bits clearOnExit waitAll timeout start
  let remaining := egroupRemaining call.maxTime (lspGettimeMs now)
  let timed : EgroupCall := { call with remainingTimeout := remaining }
  have entered := @EgroupCall.loop_finite call finite positive positive
    eventBits now clock
  rcases timed.block_cases eventBits remaining clock with
    ⟨refused, _⟩ | ⟨_, result⟩
  · cases accepted.symm.trans refused
  · exact ⟨{ timed with deadline := egroupWaitInternal remaining clock },
      ⟨rfl, rfl, rfl, rfl⟩, entered.trans result⟩

/-- The first section ends the call, or blocks untested, or blocks on a false
condition. -/
theorem lspEgroupWaitLocked_cases (eventBits bits : UInt32)
    (clearOnExit waitAll : Bool) (timeout : UInt32)
    (start now clock : Option Timespec) :
    (∃ kept, lspEgroupWaitLocked eventBits bits clearOnExit waitAll timeout
        start now clock = (eventBits &&& kept, .ret eventBits)) ∨
      ∃ blocked : EgroupCall,
        blocked.SameWait (.enter bits clearOnExit waitAll timeout start) ∧
        lspEgroupWaitLocked eventBits bits clearOnExit waitAll timeout start
          now clock = (eventBits, .wait blocked) ∧
        (egroupBlocksUntested timeout start now clock ∨
          egroupHolds eventBits bits waitAll = false) := by
  let call : EgroupCall := .enter bits clearOnExit waitAll timeout start
  obtain ⟨kept, left⟩ := call.exit_clears eventBits
  by_cases forever : timeout = lspTimeoutMax
  · rcases call.loop_cases eventBits now clock with
      exits | ⟨blocked, same, blocks, absent⟩
    · exact .inl ⟨kept, exits.trans left⟩
    · exact .inr ⟨blocked, same, blocks, .inr (absent forever)⟩
  · by_cases positive : timeout > 0
    · have entered := @EgroupCall.loop_finite call forever positive positive
        eventBits now clock
      rcases EgroupCall.block_cases _ eventBits _ clock with
        ⟨_, result⟩ | ⟨accepted, _⟩
      · exact .inl ⟨kept, (entered.trans result).trans left⟩
      · have untested : egroupBlocksUntested timeout start now clock :=
          ⟨forever, positive, accepted⟩
        obtain ⟨blocked, same, blocks⟩ := lspEgroupWaitLocked_untested
          untested eventBits bits clearOnExit waitAll
        exact .inr ⟨blocked, same, blocks, .inl untested⟩
    · have expired : ¬(call.timeout > 0 ∧ call.remainingTimeout > 0) := by
        intro both
        exact positive both.1
      exact .inl ⟨kept,
        (EgroupCall.loop_over forever expired eventBits now clock).trans left⟩

theorem lspEgroupWaitResumed_forever {call : EgroupCall}
    (forever : call.timeout = lspTimeoutMax) (eventBits : UInt32)
    (now clock : Option Timespec) :
    lspEgroupWaitResumed eventBits call .ok now clock =
      call.loop eventBits now clock := by
  rw [lspEgroupWaitResumed, if_pos forever]
  exact if_neg (fun failed => failed rfl)

theorem lspEgroupWaitResumed_cases (eventBits : UInt32) (call : EgroupCall)
    (result : WaitResult) (now clock : Option Timespec) :
    (∃ kept, lspEgroupWaitResumed eventBits call result now clock =
        (eventBits &&& kept, .ret eventBits)) ∨
      ∃ blocked : EgroupCall, blocked.SameWait call ∧
        lspEgroupWaitResumed eventBits call result now clock =
          (eventBits, .wait blocked) ∧
        egroupHolds eventBits call.bits call.waitAll = false := by
  obtain ⟨kept, left⟩ := call.exit_clears eventBits
  rw [lspEgroupWaitResumed]
  by_cases forever : call.timeout = lspTimeoutMax
  · rw [if_pos forever]
    split
    · exact .inl ⟨kept, left⟩
    · rcases call.loop_cases eventBits now clock with
        exits | ⟨blocked, same, blocks, absent⟩
      · exact .inl ⟨kept, exits.trans left⟩
      · exact .inr ⟨blocked, same, blocks, absent forever⟩
  · rw [if_neg forever]
    split
    · exact .inl ⟨kept, left⟩
    · split
      · exact .inl ⟨kept, left⟩
      · rename_i absent
        rcases call.loop_cases eventBits now clock with
          exits | ⟨blocked, same, blocks, _⟩
        · exact .inl ⟨kept, exits.trans left⟩
        · exact .inr ⟨blocked, same, blocks, Bool.eq_false_iff.mpr absent⟩

end Sections

end Liblsp
