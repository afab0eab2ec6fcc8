import Liblsp.Egroup
import Liblsp.Base.WrappingClock

/-!
# What is left of a finite event wait

The finite loops of `lsp_egroup_wait` compare a reading of `lsp_gettime_ms`
with the reading they expect at the deadline.  `remainingTimeouts` is what
they compute from the readings alone.  For a millisecond clock it counts down
to zero unless the clock wraps around between a reading and the deadline.
-/

namespace Liblsp

open Base

/-- The values of `remaining_timeout` that a finite loop computes from its
readings of the clock, for as long as no wait ends it. -/
def remainingTimeouts (maxTime remaining : UInt32) :
    List UInt32 → List UInt32
  | [] => []
  | now :: later =>
      if remaining > 0 then
        egroupRemaining maxTime now ::
          remainingTimeouts maxTime (egroupRemaining maxTime now) later
      else []

section Values

variable {maxTime remaining : UInt32}

@[simp] theorem remainingTimeouts_nil :
    remainingTimeouts maxTime remaining [] = [] := rfl

@[simp] theorem remainingTimeouts_zero (readings : List UInt32) :
    remainingTimeouts maxTime 0 readings = [] := by
  cases readings with
  | nil => rfl
  | cons now later => simp [remainingTimeouts]

theorem remainingTimeouts_cons (left : remaining > 0) (now : UInt32)
    (later : List UInt32) :
    remainingTimeouts maxTime remaining (now :: later) =
      egroupRemaining maxTime now ::
        remainingTimeouts maxTime (egroupRemaining maxTime now) later :=
  if_pos left

end Values

/-! ## The sections of a wait compute these values -/

/-- A section of a wait: the event bits it finds, the result of the block
before it and what it reads from the clocks. -/
structure EgroupSection where
  eventBits : UInt32
  result : WaitResult
  now : Option Timespec
  clock : Option Timespec

/-- The blocks of a wait after `call` is blocked. -/
def laterBlocks (call : EgroupCall) : List EgroupSection → List EgroupCall
  | [] => []
  | next :: later =>
      match (lspEgroupWaitResumed next.eventBits call next.result next.now
          next.clock).2 with
      | .ret _ => []
      | .wait blocked => blocked :: laterBlocks blocked later

/-- The blocks of a wait from its lock on. -/
def egroupBlocks (bits : UInt32) (clearOnExit waitAll : Bool)
    (timeout : UInt32) (start : Option Timespec) :
    List EgroupSection → List EgroupCall
  | [] => []
  | first :: later =>
      match (lspEgroupWaitLocked first.eventBits bits clearOnExit waitAll
          timeout start first.now first.clock).2 with
      | .ret _ => []
      | .wait blocked => blocked :: laterBlocks blocked later

/-- What a block after a reading of the clock uses of it. -/
structure EgroupCall.BlockedAt (blocked call : EgroupCall)
    (now clock : Option Timespec) : Prop where
  timeout : blocked.timeout = call.timeout
  maxTime : blocked.maxTime = call.maxTime
  remaining : blocked.remainingTimeout =
    egroupRemaining call.maxTime (lspGettimeMs now)
  deadline : blocked.deadline =
    egroupWaitInternal blocked.remainingTimeout clock

section Sections

variable {call blocked : EgroupCall} {eventBits : UInt32}
  {now clock : Option Timespec}

theorem EgroupCall.exit_ne_wait :
    (call.exit eventBits).2 ≠ .wait blocked := by
  intro waits
  cases waits

theorem EgroupCall.loop_wait (finite : call.timeout ≠ lspTimeoutMax)
    (waits : (call.loop eventBits now clock).2 = .wait blocked) :
    call.remainingTimeout > 0 ∧ blocked.BlockedAt call now clock := by
  by_cases left : call.timeout > 0 ∧ call.remainingTimeout > 0
  · rw [loop_finite finite left.1 left.2] at waits
    rcases block_cases _ eventBits _ clock with
      ⟨_, result⟩ | ⟨_, result⟩
    · rw [result] at waits
      exact absurd waits exit_ne_wait
    · rw [result] at waits
      cases waits
      exact ⟨left.2, ⟨rfl, rfl, rfl, rfl⟩⟩
  · rw [loop_over finite left] at waits
    exact absurd waits exit_ne_wait

theorem lspEgroupWaitResumed_wait {result : WaitResult}
    (finite : call.timeout ≠ lspTimeoutMax)
    (waits : (lspEgroupWaitResumed eventBits call result now clock).2 =
      .wait blocked) :
    call.remainingTimeout > 0 ∧ blocked.BlockedAt call now clock := by
  rw [lspEgroupWaitResumed, if_neg finite] at waits
  split at waits
  · exact absurd waits EgroupCall.exit_ne_wait
  · split at waits
    · exact absurd waits EgroupCall.exit_ne_wait
    · exact EgroupCall.loop_wait finite waits

end Sections

theorem remaining_prefix {call blocked : EgroupCall}
    {now clock : Option Timespec} (left : call.remainingTimeout > 0)
    (read : blocked.BlockedAt call now clock) {later : List EgroupCall}
    {readings : List UInt32}
    (rest : later.map EgroupCall.remainingTimeout <+:
      remainingTimeouts blocked.maxTime blocked.remainingTimeout readings) :
    (blocked :: later).map EgroupCall.remainingTimeout <+:
      remainingTimeouts call.maxTime call.remainingTimeout
        (lspGettimeMs now :: readings) := by
  rw [read.maxTime, read.remaining] at rest
  rw [List.map_cons, remainingTimeouts_cons left, read.remaining]
  exact List.prefix_cons_inj _ |>.mpr rest

theorem laterBlocks_remaining {call : EgroupCall}
    (finite : call.timeout ≠ lspTimeoutMax) (sections : List EgroupSection) :
    (laterBlocks call sections).map EgroupCall.remainingTimeout <+:
      remainingTimeouts call.maxTime call.remainingTimeout
        (sections.map fun part => lspGettimeMs part.now) := by
  induction sections generalizing call with
  | nil => exact List.nil_prefix
  | cons next later ih =>
      rw [laterBlocks]
      split
      · exact List.nil_prefix
      · rename_i blocked waits
        obtain ⟨left, read⟩ := lspEgroupWaitResumed_wait finite waits
        have finite' : blocked.timeout ≠ lspTimeoutMax := by
          rw [read.timeout]
          exact finite
        exact remaining_prefix left read (ih finite')

/-- The timeouts that a finite wait blocks with are what its loop computes. -/
theorem egroupBlocks_remaining {timeout : UInt32}
    (finite : timeout ≠ lspTimeoutMax) (bits : UInt32)
    (clearOnExit waitAll : Bool) (start : Option Timespec)
    (sections : List EgroupSection) :
    (egroupBlocks bits clearOnExit waitAll timeout start sections).map
        EgroupCall.remainingTimeout <+:
      remainingTimeouts (lspGettimeMs start + timeout) timeout
        (sections.map fun part => lspGettimeMs part.now) := by
  cases sections with
  | nil => exact List.nil_prefix
  | cons first later =>
      rw [egroupBlocks]
      split
      · exact List.nil_prefix
      · rename_i blocked waits
        have entered : (EgroupCall.enter bits clearOnExit waitAll timeout
            start).timeout ≠ lspTimeoutMax := finite
        obtain ⟨left, read⟩ := EgroupCall.loop_wait entered waits
        have finite' : blocked.timeout ≠ lspTimeoutMax := by
          rw [read.timeout]
          exact finite
        exact remaining_prefix left read (laterBlocks_remaining finite' later)

/-! ## Waits on a millisecond clock -/

/-- What a millisecond clock modulo `2 ^ 32` shows some time after it showed
`start`. -/
def msReading (start : UInt32) (elapsed : Nat) : UInt32 :=
  start + UInt32.ofNat elapsed

/-- What a wait computes on a millisecond clock, when it reads the clock after
these times. -/
def waitTimeouts (start timeout : UInt32) (elapsed : List Nat) :
    List UInt32 :=
  remainingTimeouts (start + timeout) timeout (elapsed.map (msReading start))

/-- What is left of the timeout is counted down to zero. -/
structure CountsDown (timeout : UInt32) (elapsed : List Nat)
    (values : List UInt32) : Prop where
  exact : ∀ value passed, (value, passed) ∈ values.zip elapsed →
    value.toNat = timeout.toNat - passed
  never_grows : (timeout :: values).Pairwise (· ≥ ·)
  not_short : ∀ passed, (0, passed) ∈ values.zip elapsed →
    timeout.toNat ≤ passed
  never_forever : lspTimeoutMax ∉ values

/-- No wrap of the clock lies between the deadline and a reading, up to the
first reading after the timeout. -/
def ReadingsInTurn (start timeout : UInt32) : List Nat → Prop
  | [] => True
  | passed :: later =>
      SameLap 4294967296 start.toNat timeout.toNat passed ∧
        (passed < timeout.toNat → ReadingsInTurn start timeout later)

section Countdown

variable {start timeout : UInt32}

theorem msReading_toNat (start : UInt32) (elapsed : Nat) :
    (msReading start elapsed).toNat =
      clockReading 4294967296 start.toNat elapsed := by
  rw [msReading, clockReading, UInt32.toNat_add, UInt32.toNat_ofNat']
  omega

theorem egroupRemaining_toNat (maxTime now : UInt32) :
    (egroupRemaining maxTime now).toNat = maxTime.toNat - now.toNat := by
  rw [egroupRemaining]
  split
  · rename_i later
    exact UInt32.toNat_sub_of_le _ _ (UInt32.le_of_lt later)
  · rename_i earlier
    have ordered : maxTime.toNat ≤ now.toNat :=
      UInt32.le_iff_toNat_le.mp (UInt32.not_lt.mp earlier)
    exact (Nat.sub_eq_zero_of_le ordered).symm

theorem egroupRemaining_exact_iff {passed : Nat} (short : passed < 4294967296) :
    (egroupRemaining (start + timeout) (msReading start passed)).toNat =
        timeout.toNat - passed ↔
      SameLap 4294967296 start.toNat timeout.toNat passed := by
  have deadline : (start + timeout).toNat =
      clockReading 4294967296 start.toNat timeout.toNat :=
    UInt32.toNat_add start timeout
  rw [egroupRemaining_toNat, msReading_toNat, deadline]
  exact clockReading_sub_eq_iff start.toNat_lt timeout.toNat_lt short

theorem exact_eq_zero_iff {value : UInt32} {passed : Nat}
    (exact : value.toNat = timeout.toNat - passed) :
    value = 0 ↔ ¬passed < timeout.toNat := by
  rw [← UInt32.toNat_inj, exact, UInt32.toNat_zero]
  omega

/-- The loop computes what is left exactly as long as no wrap lies between a
reading and the deadline. -/
theorem remainingTimeouts_exact_iff {remaining : UInt32} {elapsed : List Nat}
    (short : ∀ passed ∈ elapsed, passed < 4294967296) :
    (∀ value passed, (value, passed) ∈
        (remainingTimeouts (start + timeout) remaining
          (elapsed.map (msReading start))).zip elapsed →
        value.toNat = timeout.toNat - passed) ↔
      remaining = 0 ∨ ReadingsInTurn start timeout elapsed := by
  induction elapsed generalizing remaining with
  | nil => simp [ReadingsInTurn]
  | cons first later ih =>
      have short' := List.forall_mem_cons.mp short
      by_cases finished : remaining = 0
      · simp [finished]
      · have left : remaining > 0 := UInt32.pos_iff_ne_zero.mpr finished
        let value := egroupRemaining (start + timeout) (msReading start first)
        have first_iff := @egroupRemaining_exact_iff start timeout first
          short'.1
        have rest_iff := @ih value short'.2
        rw [List.map_cons, remainingTimeouts_cons left, List.zip_cons_cons,
          or_iff_right finished, ReadingsInTurn]
        constructor
        · intro exact
          have now : value.toNat = timeout.toNat - first :=
            exact value first List.mem_cons_self
          refine ⟨first_iff.mp now, ?_⟩
          intro unfinished
          have rest := rest_iff.mp fun value' passed member =>
            exact value' passed (List.mem_cons_of_mem _ member)
          rcases rest with zero | rest
          · exact absurd unfinished ((exact_eq_zero_iff now).mp zero)
          · exact rest
        · rintro ⟨lap, rest⟩ value' passed member
          have now : value.toNat = timeout.toNat - first := first_iff.mpr lap
          rcases List.mem_cons.mp member with same | member
          · cases same
            exact now
          · refine rest_iff.mpr ?_ value' passed member
            by_cases unfinished : first < timeout.toNat
            · exact .inr (rest unfinished)
            · exact .inl ((exact_eq_zero_iff now).mpr unfinished)

/-- Readings in turn give values that do not grow. -/
theorem remainingTimeouts_never_grow {remaining : UInt32}
    {elapsed : List Nat} (inTurn : ReadingsInTurn start timeout elapsed)
    (ordered : elapsed.Pairwise (· ≤ ·))
    (short : ∀ passed ∈ elapsed, passed < 4294967296)
    (enough : ∀ passed ∈ elapsed, timeout.toNat - passed ≤ remaining.toNat) :
    (remaining :: remainingTimeouts (start + timeout) remaining
      (elapsed.map (msReading start))).Pairwise (· ≥ ·) := by
  induction elapsed generalizing remaining with
  | nil => exact List.pairwise_singleton _ _
  | cons first later ih =>
      obtain ⟨lap, rest⟩ := inTurn
      have short' := List.forall_mem_cons.mp short
      have enough' := List.forall_mem_cons.mp enough
      have ordered' := List.pairwise_cons.mp ordered
      let value := egroupRemaining (start + timeout) (msReading start first)
      have now : value.toNat = timeout.toNat - first :=
        (egroupRemaining_exact_iff short'.1).mpr lap
      have below : value ≤ remaining := by
        rw [UInt32.le_iff_toNat_le, now]
        exact enough'.1
      rw [List.map_cons, remainingTimeouts]
      split
      · have tail : (value :: remainingTimeouts (start + timeout) value
            (later.map (msReading start))).Pairwise (· ≥ ·) := by
          by_cases unfinished : first < timeout.toNat
          · apply ih (rest unfinished) ordered'.2 short'.2
            intro passed member
            have after := ordered'.1 passed member
            omega
          · rw [(exact_eq_zero_iff now).mpr unfinished,
              remainingTimeouts_zero]
            exact List.pairwise_singleton _ _
        refine List.pairwise_cons.mpr ⟨?_, tail⟩
        intro value' member
        rcases List.mem_cons.mp member with same | member
        · rw [same]
          exact below
        · exact UInt32.le_trans ((List.pairwise_cons.mp tail).1 value' member)
            below
      · exact List.pairwise_singleton _ _

/-- A wait counts down exactly when it uses only readings in turn with its
deadline. -/
theorem waitTimeouts_countDown_iff (finite : timeout ≠ lspTimeoutMax)
    {elapsed : List Nat} (ordered : elapsed.Pairwise (· ≤ ·))
    (short : ∀ passed ∈ elapsed, passed < 4294967296) :
    CountsDown timeout elapsed (waitTimeouts start timeout elapsed) ↔
      timeout = 0 ∨ ReadingsInTurn start timeout elapsed := by
  constructor
  · intro counts
    exact (remainingTimeouts_exact_iff short).mp counts.exact
  · intro condition
    have exact := (remainingTimeouts_exact_iff short).mpr condition
    have grows : (timeout :: waitTimeouts start timeout elapsed).Pairwise
        (· ≥ ·) := by
      rcases condition with zero | inTurn
      · rw [zero, waitTimeouts, remainingTimeouts_zero]
        exact List.pairwise_singleton _ _
      · exact remainingTimeouts_never_grow inTurn ordered short
          fun passed _ => Nat.sub_le _ _
    refine ⟨exact, grows, ?_, ?_⟩
    · intro passed member
      have zero := exact 0 passed member
      rw [UInt32.toNat_zero] at zero
      omega
    · intro forever
      have below := (List.pairwise_cons.mp grows).1 _ forever
      have above : timeout ≤ lspTimeoutMax := by
        rw [UInt32.le_iff_toNat_le]
        exact Nat.le_of_lt_succ timeout.toNat_lt
      exact finite (UInt32.le_antisymm above below)

end Countdown

/-- Readings before and after a timeout of half a second. -/
theorem waitTimeouts_half_second :
    CountsDown 500 [0, 200, 501] (waitTimeouts 1000 500 [0, 200, 501]) :=
  (waitTimeouts_countDown_iff (by decide) (by decide) (by decide)).mpr
    (.inr ⟨by decide, fun _ => ⟨by decide, fun _ => ⟨by decide, fun _ =>
      trivial⟩⟩⟩)

/-- With the deadline behind the wrap nothing is left from the start. -/
theorem waitTimeouts_cut_short :
    waitTimeouts 4294967295 500 [0, 200] = [0] ∧
      ¬CountsDown 500 [0, 200] (waitTimeouts 4294967295 500 [0, 200]) := by
  have values : waitTimeouts 4294967295 500 [0, 200] = [0] := by decide
  refine ⟨values, ?_⟩
  intro counts
  rw [values] at counts
  have enough := counts.not_short 0 (by decide)
  exact absurd enough (by decide)

end Liblsp
