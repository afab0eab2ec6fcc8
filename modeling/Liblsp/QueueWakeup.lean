import Liblsp.QueueFifo

/-!
# Wakeups of the queue

Every thread that sleeps without a signal sleeps for a reason: the queue and
the signals on their way account for it.  The reason is lost once `length`
is negative, because the test for a full queue then compares it as `size_t`.
-/

namespace Liblsp

open Base

namespace QueueThreads

variable {Tid : Type}

/-- Whoever sleeps unsignalled has nothing to do yet, and both sides never
sleep with no signal left. -/
structure NoLostWakeup (s : QueueThreads Tid) : Prop where
  producers : s.condFull.sleeping ≠ [] →
    (s.queue.queueSize : Int) ≤
      s.queue.length + s.condFull.signalled.length
  consumers : s.condEmpty.sleeping ≠ [] →
    s.queue.length ≤ s.condEmpty.signalled.length
  progress : ¬(s.condFull.sleeping ≠ [] ∧ s.condEmpty.sleeping ≠ [] ∧
    s.condFull.signalled = [] ∧ s.condEmpty.signalled = [])

/-- A push that blocks finds a length that is not negative, and no resumed
thread moves the length out of the range of `int`. -/
def LengthInRange (s : QueueThreads Tid) : QueueAction Tid → Prop
  | .push _ _ timeout clock _ =>
      0 ≤ s.queue.length ∨ timeout = 0 ∨
        deadlineRefused (queueWaitInternal timeout clock) = true
  | .pushResumes _ .ok _ => s.queue.length < intMax
  | .popResumes _ .ok _ => intMin < s.queue.length
  | _ => True

instance (s : QueueThreads Tid) (action : QueueAction Tid) :
    Decidable (LengthInRange s action) :=
  match action with
  | .push .. => inferInstanceAs (Decidable (_ ∨ _ ∨ _))
  | .pushResumes _ .ok _ => inferInstanceAs (Decidable (_ < _))
  | .popResumes _ .ok _ => inferInstanceAs (Decidable (_ < _))
  | .pushResumes _ .etimedout _ | .pushResumes _ .einval _
  | .popResumes _ .etimedout _ | .popResumes _ .einval _
  | .lockFails _ | .pop .. => inferInstanceAs (Decidable True)

/-- The counts behind the wakeups. -/
structure WakeupInvariant (s : QueueThreads Tid) : Prop where
  sizePos : 0 < s.queue.queueSize
  sizeSmall : (s.queue.queueSize : Int) ≤ intMax
  lengthLow : intMin ≤ s.queue.length
  lengthHigh : s.queue.length ≤ intMax
  producers : s.condFull.sleeping.length = 0 ∨
    (s.queue.queueSize : Int) ≤
      s.queue.length + s.condFull.signalled.length
  consumers : s.condEmpty.sleeping.length = 0 ∨
    s.queue.length ≤ s.condEmpty.signalled.length

theorem WakeupInvariant.noLostWakeup {s : QueueThreads Tid}
    (invariant : WakeupInvariant s) : NoLostWakeup s := by
  have producers : s.condFull.sleeping ≠ [] →
      (s.queue.queueSize : Int) ≤
        s.queue.length + s.condFull.signalled.length := by
    intro sleeping
    apply invariant.producers.resolve_left
    intro none
    exact sleeping (List.length_eq_zero_iff.mp none)
  have consumers : s.condEmpty.sleeping ≠ [] →
      s.queue.length ≤ s.condEmpty.signalled.length := by
    intro sleeping
    apply invariant.consumers.resolve_left
    intro none
    exact sleeping (List.length_eq_zero_iff.mp none)
  refine ⟨producers, consumers, ?_⟩
  intro ⟨producer, consumer, noneFull, noneEmpty⟩
  have full := producers producer
  have empty := consumers consumer
  have positive := invariant.sizePos
  rw [noneFull] at full
  rw [noneEmpty] at empty
  simp only [List.length_nil] at full empty
  omega

theorem wakeupInvariant_initial {length : Int} {itemsize : Nat}
    {hdl : LspQueueHandle}
    (created : lspQueueCreate length itemsize true true = some hdl)
    (positive : 1 ≤ length) (small : length ≤ intMax) :
    WakeupInvariant (initial hdl : QueueThreads Tid) := by
  simp only [lspQueueCreate, Bool.and_self, if_true,
    Option.some.injEq] at created
  subst hdl
  have size : toSize length = length.toNat :=
    toSize_of_range (by omega) small
  constructor
  · change 0 < toSize length
    omega
  · change (toSize length : Int) ≤ intMax
    omega
  · exact intMin_neg.le
  · change (0 : Int) ≤ intMax
    omega
  · exact .inl rfl
  · exact .inl rfl

namespace WakeupInvariant

variable {s s' : QueueThreads Tid}

theorem room (invariant : WakeupInvariant s)
    (room : s.queue.isFull = false) :
    0 ≤ s.queue.length ∧ s.queue.length < s.queue.queueSize := by
  have small := invariant.sizeSmall
  simp only [LspQueueHandle.isFull, decide_eq_false_iff_not] at room
  have nonnegative : 0 ≤ s.queue.length := by
    by_contra negative
    have above := toSize_of_negative invariant.lengthLow (by omega)
    omega
  rw [toSize_of_range nonnegative invariant.lengthHigh] at room
  omega

theorem noRoom (invariant : WakeupInvariant s)
    (full : s.queue.isFull = true) (nonnegative : 0 ≤ s.queue.length) :
    (s.queue.queueSize : Int) ≤ s.queue.length := by
  simp only [LspQueueHandle.isFull, decide_eq_true_eq] at full
  rw [toSize_of_range nonnegative invariant.lengthHigh] at full
  omega

theorem keeps (invariant : WakeupInvariant s)
    (length : s'.queue.length = s.queue.length)
    (size : s'.queue.queueSize = s.queue.queueSize)
    (sleepFull : s'.condFull.sleeping.length ≤ s.condFull.sleeping.length)
    (sentFull : s'.condFull.signalled.length = s.condFull.signalled.length)
    (sleepEmpty :
      s'.condEmpty.sleeping.length ≤ s.condEmpty.sleeping.length)
    (sentEmpty :
      s'.condEmpty.signalled.length = s.condEmpty.signalled.length) :
    WakeupInvariant s' := by
  obtain ⟨sizePos, sizeSmall, low, high, producers, consumers⟩ := invariant
  constructor <;> omega

theorem blocksPush (invariant : WakeupInvariant s)
    (length : s'.queue.length = s.queue.length)
    (size : s'.queue.queueSize = s.queue.queueSize)
    (condEmpty : s'.condEmpty = s.condEmpty)
    (full : (s.queue.queueSize : Int) ≤ s.queue.length) :
    WakeupInvariant s' := by
  obtain ⟨sizePos, sizeSmall, low, high, producers, consumers⟩ := invariant
  refine ⟨by omega, by omega, by omega, by omega, ?_, ?_⟩
  · right
    rw [length, size]
    omega
  · rw [condEmpty, length]
    exact consumers

theorem blocksPop (invariant : WakeupInvariant s)
    (length : s'.queue.length = s.queue.length)
    (size : s'.queue.queueSize = s.queue.queueSize)
    (condFull : s'.condFull = s.condFull)
    (empty : s.queue.length ≤ 0) :
    WakeupInvariant s' := by
  obtain ⟨sizePos, sizeSmall, low, high, producers, consumers⟩ := invariant
  refine ⟨by omega, by omega, by omega, by omega, ?_, ?_⟩
  · rw [condFull, length, size]
    exact producers
  · right
    rw [length]
    omega

variable [DecidableEq Tid]

/-- A stored item takes one signal of a producer at most, and is announced
to a consumer. -/
theorem stores (invariant : WakeupInvariant s) {pick : Tid}
    (length : s'.queue.length = toInt (s.queue.length + 1))
    (size : s'.queue.queueSize = s.queue.queueSize)
    (inRange : s.queue.length < intMax)
    (sleepFull : s'.condFull.sleeping.length ≤ s.condFull.sleeping.length)
    (sentFull :
      s.condFull.signalled.length ≤ s'.condFull.signalled.length + 1)
    (signalled : s.condEmpty.signal pick = some s'.condEmpty) :
    WakeupInvariant s' := by
  obtain ⟨sizePos, sizeSmall, low, high, producers, consumers⟩ := invariant
  rw [toInt_of_range (by omega) (by omega)] at length
  refine ⟨by omega, by omega, by omega, by omega, ?_, ?_⟩
  · omega
  · rcases CondVar.signal_counts signalled with ⟨none, same⟩ | counts
    · left
      rw [same]
      exact none
    · omega

/-- A removed item takes one signal of a consumer at most, and the free entry
is announced to a producer. -/
theorem takes (invariant : WakeupInvariant s) {pick : Tid}
    (length : s'.queue.length = toInt (s.queue.length - 1))
    (size : s'.queue.queueSize = s.queue.queueSize)
    (inRange : intMin < s.queue.length)
    (sleepEmpty :
      s'.condEmpty.sleeping.length ≤ s.condEmpty.sleeping.length)
    (sentEmpty :
      s.condEmpty.signalled.length ≤ s'.condEmpty.signalled.length + 1)
    (signalled : s.condFull.signal pick = some s'.condFull) :
    WakeupInvariant s' := by
  obtain ⟨sizePos, sizeSmall, low, high, producers, consumers⟩ := invariant
  rw [toInt_of_range (by omega) (by omega)] at length
  refine ⟨by omega, by omega, by omega, by omega, ?_, ?_⟩
  · rcases CondVar.signal_counts signalled with ⟨none, same⟩ | counts
    · left
      rw [same]
      exact none
    · omega
  · omega

theorem step {action : QueueAction Tid} {outcome : Option Int}
    (invariant : WakeupInvariant s) (inRange : LengthInRange s action)
    (stepped : Step s action s' outcome) : WakeupInvariant s' := by
  cases stepped with
  | unchanged => exact invariant.keeps rfl rfl le_rfl rfl le_rfl rfl
  | pushRefused => exact invariant.keeps rfl rfl le_rfl rfl le_rfl rfl
  | popRefused => exact invariant.keeps rfl rfl le_rfl rfl le_rfl rfl
  | pushBlocks full waits accepted =>
      have nonnegative : 0 ≤ s.queue.length := by
        rcases inRange with nonnegative | zero | refused
        · exact nonnegative
        · rw [zero] at waits
          exact absurd waits (by decide)
        · rw [accepted] at refused
          exact absurd refused (by decide)
      have noRoom := invariant.noRoom full nonnegative
      exact invariant.blocksPush rfl rfl rfl noRoom
  | pushStores free signalled =>
      have bounds := invariant.room free
      have small := invariant.sizeSmall
      exact invariant.stores rfl rfl (by omega) le_rfl (Nat.le_succ _)
        signalled
  | pushExpires expired =>
      have counts := CondVar.expire_counts expired
      exact invariant.keeps rfl rfl (by simp only; omega) counts.2
        le_rfl rfl
  | pushResumes resumed signalled =>
      have counts := CondVar.resume_counts resumed
      exact invariant.stores rfl rfl inRange (by simp only; omega)
        (by simp only; omega) signalled
  | popBlocks empty =>
      have noItem : s.queue.length ≤ 0 := by
        simpa [LspQueueHandle.isEmpty] using empty
      exact invariant.blocksPop rfl rfl rfl noItem
  | popTakes filled signalled =>
      have item : 0 < s.queue.length := by
        simpa [LspQueueHandle.isEmpty] using filled
      have inRange : intMin < s.queue.length := intMin_neg.trans item
      exact invariant.takes rfl rfl inRange le_rfl (Nat.le_succ _)
        signalled
  | popExpires expired =>
      have counts := CondVar.expire_counts expired
      exact invariant.keeps rfl rfl le_rfl rfl (by simp only; omega)
        counts.2
  | popResumes resumed signalled =>
      have counts := CondVar.resume_counts resumed
      exact invariant.takes rfl rfl inRange (by simp only; omega)
        (by simp only; omega) signalled

end WakeupInvariant

variable [DecidableEq Tid]

/-- Under any interleaving in which no push blocks at a negative length, no
wakeup is lost. -/
theorem noLostWakeup_of_run {length : Int} {itemsize : Nat}
    {hdl : LspQueueHandle}
    (created : lspQueueCreate length itemsize true true = some hdl)
    (positive : 1 ≤ length) (small : length ≤ intMax)
    {actions : List (QueueAction Tid)} {s : QueueThreads Tid}
    (run : Run QueueThreads.step LengthInRange (initial hdl) actions s) :
    NoLostWakeup s := by
  apply WakeupInvariant.noLostWakeup
  apply run.invariant
  · exact wakeupInvariant_initial created positive small
  · intro state action next invariant inRange stepped
    obtain ⟨outcome, cases⟩ := step_cases stepped
    exact invariant.step inRange cases

section Examples

/-- The item a consumer was signalled for is taken by another one, and a
blocked producer puts the next item in its place. -/
def takenAndReplaced : List (QueueAction Nat) :=
  [.pop 0 lspTimeoutMax none 0,
    .push 1 (fun _ => 7) 0 none 0,
    .push 2 (fun _ => 8) lspTimeoutMax none 0,
    .pop 3 0 none 2,
    .pushResumes 2 .ok 0]

theorem noLostWakeup_of_takenAndReplaced :
    ∃ s, Run step LengthInRange (initial oneEntryQueue) takenAndReplaced s ∧
      s.queue.length = 1 ∧ NoLostWakeup s := by
  have created : lspQueueCreate 1 1 true true = some oneEntryQueue := rfl
  have executed :
      (execute step LengthInRange (initial oneEntryQueue)
        takenAndReplaced).map (fun s => s.queue.length) = some 1 := by
    decide
  obtain ⟨s, run, length⟩ := exists_run_of_execute executed
  refine ⟨s, run, length, ?_⟩
  exact noLostWakeup_of_run created (by decide) (by decide) run

/-- A consumer is signalled for an item that another consumer takes first.
After that both sides block on the queue without items. -/
def stolenItem : List (QueueAction Nat) :=
  [.pop 0 lspTimeoutMax none 0,
    .push 1 (fun _ => 7) 0 none 0,
    .pop 2 0 none 0,
    .popResumes 0 .ok 0,
    .push 3 (fun _ => 8) lspTimeoutMax none 0,
    .pop 4 lspTimeoutMax none 0]

/-- The queue is stuck with one free entry and nobody left to resume. -/
theorem stolenItem_loses_wakeup :
    lspQueueCreate 1 1 true true = some oneEntryQueue ∧
      ∃ s, Run step Anywhere (initial oneEntryQueue) stolenItem s ∧
        s.queue.length = -1 ∧ s.condFull = ⟨[3], []⟩ ∧
        s.condEmpty = ⟨[4], []⟩ ∧ ¬NoLostWakeup s := by
  have executed :
      (execute step Anywhere (initial oneEntryQueue) stolenItem).map
        (fun s => (s.queue.length, s.condFull.sleeping,
          s.condFull.signalled, s.condEmpty.sleeping,
          s.condEmpty.signalled)) = some (-1, [3], [], [4], []) := by
    decide
  obtain ⟨s, run, view⟩ := exists_run_of_execute executed
  simp only [Prod.mk.injEq] at view
  obtain ⟨length, sleepFull, sentFull, sleepEmpty, sentEmpty⟩ := view
  refine ⟨rfl, s, run, length, ?_, ?_, ?_⟩
  · rw [← sleepFull, ← sentFull]
  · rw [← sleepEmpty, ← sentEmpty]
  · intro invariant
    apply invariant.progress
    simp [sleepFull, sentFull, sleepEmpty, sentEmpty]

end Examples

end QueueThreads

end Liblsp
