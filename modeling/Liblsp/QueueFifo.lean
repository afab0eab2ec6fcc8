import Liblsp.QueueThreads

/-!
# The queue as a bounded FIFO

Neither function repeats its test after `queue_wait_internal`.  As long as
every thread that resumes with success finds a free entry, respectively an
item, the queue is a bounded FIFO under any interleaving.
-/

namespace Liblsp

open Base

namespace QueueThreads

variable {Tid : Type}

/-- The block of a queue and its items does not wrap around `size_t`. -/
def BlockFits (length : Int) (itemsize : Nat) : Prop :=
  alignedSizeofQueueHandle + toSize length * itemsize < 18446744073709551616

theorem lspQueueCreateBlocksize_of_fits {length : Int} {itemsize : Nat}
    (fits : BlockFits length itemsize) :
    lspQueueCreateBlocksize length itemsize =
      alignedSizeofQueueHandle + toSize length * itemsize := by
  have items : wrapSize (toSize length * itemsize) =
      toSize length * itemsize :=
    wrapSize_of_lt (lt_of_le_of_lt (Nat.le_add_left _ _) fits)
  rw [lspQueueCreateBlocksize, items, wrapSize_of_lt fits]

/-- What the thread waited for is still there when it resumes. -/
def WakesInTime (s : QueueThreads Tid) : QueueAction Tid → Prop
  | .pushResumes _ .ok _ => s.queue.length < s.queue.queueSize
  | .popResumes _ .ok _ => 0 < s.queue.length
  | _ => True

instance (s : QueueThreads Tid) (action : QueueAction Tid) :
    Decidable (WakesInTime s action) :=
  match action with
  | .pushResumes _ .ok _ => inferInstanceAs (Decidable (_ < _))
  | .popResumes _ .ok _ => inferInstanceAs (Decidable (_ < _))
  | .pushResumes _ .etimedout _ | .pushResumes _ .einval _
  | .popResumes _ .etimedout _ | .popResumes _ .einval _
  | .lockFails _ | .push .. | .pop .. => inferInstanceAs (Decidable True)

/-- Popped items and stored items together are the pushed ones. -/
structure BoundedFifo (s : QueueThreads Tid) : Prop where
  lengthLow : 0 ≤ s.queue.length
  lengthHigh : s.queue.length ≤ s.queue.queueSize
  order : s.popped ++ s.queue.contents = s.pushed

structure FifoInvariant (s : QueueThreads Tid) : Prop where
  normal : s.queue.Normal
  order : s.popped ++ s.queue.contents = s.pushed

namespace FifoInvariant

variable {s s' : QueueThreads Tid} {hdl : LspQueueHandle}

theorem boundedFifo (invariant : FifoInvariant s) : BoundedFifo s :=
  ⟨invariant.normal.lengthLow, invariant.normal.lengthHigh,
    invariant.order⟩

theorem keeps (invariant : FifoInvariant s)
    (same : s'.queue.SameItems s.queue)
    (pushed : s'.pushed = s.pushed) (popped : s'.popped = s.popped) :
    FifoInvariant s' := by
  constructor
  · exact same.normal invariant.normal
  · rw [pushed, popped, same.contents]
    exact invariant.order

theorem stores (invariant : FifoInvariant s) {item : Nat → UInt8}
    (queue : s'.queue = hdl.store item)
    (same : hdl.SameItems s.queue)
    (room : s.queue.length < s.queue.queueSize)
    (pushed : s'.pushed = s.pushed ++ [hdl.block item])
    (popped : s'.popped = s.popped) : FifoInvariant s' := by
  have normal := same.normal invariant.normal
  have spare : hdl.length < hdl.queueSize := by
    rw [same.1, same.2.2.2.1]
    exact room
  constructor
  · rw [queue]
    exact normal.store item spare
  · rw [queue, pushed, popped, normal.contents_store item spare,
      same.contents, ← List.append_assoc, invariant.order]

theorem takes (invariant : FifoInvariant s)
    (queue : s'.queue = hdl.take)
    (same : hdl.SameItems s.queue) (present : 0 < s.queue.length)
    (pushed : s'.pushed = s.pushed)
    (popped : s'.popped = s.popped ++ [hdl.entry hdl.head]) :
    FifoInvariant s' := by
  have normal := same.normal invariant.normal
  have filled : 0 < hdl.length := by
    rw [same.1]
    exact present
  constructor
  · rw [queue]
    exact normal.take filled
  · have contents := normal.contents_take filled
    rw [same.contents] at contents
    rw [queue, pushed, popped, List.append_assoc, List.singleton_append,
      ← contents]
    exact invariant.order

end FifoInvariant

theorem room_of_not_isFull {hdl : LspQueueHandle} (normal : hdl.Normal)
    (room : hdl.isFull = false) : hdl.length < hdl.queueSize := by
  have low := normal.lengthLow
  have high := normal.lengthHigh
  have small := normal.sizeSmall
  simp only [LspQueueHandle.isFull, decide_eq_false_iff_not] at room
  rw [toSize_of_range low (by omega)] at room
  omega

theorem normal_of_created {length : Int} {itemsize : Nat}
    {hdl : LspQueueHandle}
    (created : lspQueueCreate length itemsize true true = some hdl)
    (positive : 1 ≤ length) (small : length ≤ intMax)
    (fits : BlockFits length itemsize) : hdl.Normal := by
  simp only [lspQueueCreate, Bool.and_self, if_true,
    Option.some.injEq] at created
  subst hdl
  have size : toSize length = length.toNat :=
    toSize_of_range (by omega) small
  have total := fits
  simp only [BlockFits, alignedSizeofQueueHandle] at total
  refine ⟨?_, ?_⟩
  · constructor
    · change 0 < toSize length
      omega
    · change (toSize length : Int) ≤ intMax
      omega
    · change toSize length * itemsize < 18446744073709551616
      omega
    · exact Int.le_refl 0
    · change (0 : Int) < toSize length
      omega
    · exact Int.le_refl 0
    · change (0 : Int) = ↑((0 + 0) % toSize length)
      simp
  · change (0 : Int) ≤ toSize length
    omega

theorem fifoInvariant_initial {length : Int} {itemsize : Nat}
    {hdl : LspQueueHandle}
    (created : lspQueueCreate length itemsize true true = some hdl)
    (positive : 1 ≤ length) (small : length ≤ intMax)
    (fits : BlockFits length itemsize) :
    FifoInvariant (initial hdl : QueueThreads Tid) := by
  refine ⟨normal_of_created created positive small fits, ?_⟩
  simp only [lspQueueCreate, Bool.and_self, if_true,
    Option.some.injEq] at created
  subst hdl
  rfl

variable [DecidableEq Tid]

/-- A step in time keeps the queue a bounded FIFO. -/
theorem FifoInvariant.step {s s' : QueueThreads Tid}
    {action : QueueAction Tid} {outcome : Option Int}
    (invariant : FifoInvariant s) (inTime : WakesInTime s action)
    (stepped : Step s action s' outcome) : FifoInvariant s' := by
  cases stepped with
  | unchanged => exact invariant.keeps (.refl _) rfl rfl
  | pushRefused => exact invariant.keeps (.refl _) rfl rfl
  | pushBlocks => exact invariant.keeps (.refl _) rfl rfl
  | pushExpires => exact invariant.keeps (.refl _) rfl rfl
  | popRefused => exact invariant.keeps (.refl _) rfl rfl
  | popBlocks => exact invariant.keeps (.refl _) rfl rfl
  | popExpires => exact invariant.keeps (.refl _) rfl rfl
  | pushStores room =>
      have spare := room_of_not_isFull invariant.normal room
      exact invariant.stores rfl (.refl _) spare rfl rfl
  | pushResumes =>
      exact invariant.stores rfl ⟨rfl, rfl, rfl, rfl, rfl, rfl⟩ inTime
        rfl rfl
  | popTakes some =>
      have present : 0 < s.queue.length := by
        simpa [LspQueueHandle.isEmpty] using some
      exact invariant.takes rfl (.refl _) present rfl rfl
  | popResumes =>
      exact invariant.takes rfl ⟨rfl, rfl, rfl, rfl, rfl, rfl⟩ inTime
        rfl rfl

theorem Step.sameItems {s s' : QueueThreads Tid}
    {action : QueueAction Tid} {outcome : Option Int}
    (stepped : Step s action s' outcome)
    (failed : outcome ≠ some lspErrNone) :
    s'.queue.SameItems s.queue := by
  cases stepped with
  | pushStores => exact absurd rfl failed
  | pushResumes => exact absurd rfl failed
  | popTakes => exact absurd rfl failed
  | popResumes => exact absurd rfl failed
  | _ => exact .refl _

/-- Under any interleaving in which threads wake in time, a queue of at least
one entry stays within its bounds and delivers the pushed items in order, and
a call that does not succeed changes no item. -/
theorem boundedFifo_of_run {length : Int} {itemsize : Nat}
    {hdl : LspQueueHandle}
    (created : lspQueueCreate length itemsize true true = some hdl)
    (positive : 1 ≤ length) (small : length ≤ intMax)
    (fits : BlockFits length itemsize)
    {actions : List (QueueAction Tid)} {s : QueueThreads Tid}
    (run : Run step WakesInTime (initial hdl) actions s) :
    BoundedFifo s ∧
      ∀ action s' outcome, s.exec action = some (s', outcome) →
        outcome ≠ some lspErrNone → s'.queue.SameItems s.queue := by
  constructor
  · apply FifoInvariant.boundedFifo
    apply run.invariant
    · exact fifoInvariant_initial created positive small fits
    · intro state action next invariant inTime stepped
      obtain ⟨outcome, cases⟩ := step_cases stepped
      exact invariant.step inTime cases
  · intro action s' outcome executed failed
    exact (step_of_exec executed).sameItems failed

section Examples

/-- A queue for a single item of one byte. -/
def oneEntryQueue : LspQueueHandle :=
  { length := 0
    head := 0
    tail := 0
    waitingFull := 0
    waitingEmpty := 0
    queueSize := 1
    itemsize := 1
    data := fun _ => 0 }

/-- A blocked producer resumes right after the pop that signalled it. -/
def handover : List (QueueAction Nat) :=
  [.push 0 (fun _ => 7) 0 none 0,
    .push 1 (fun _ => 8) lspTimeoutMax none 0,
    .pop 2 0 none 1,
    .pushResumes 1 .ok 0]

theorem boundedFifo_of_handover :
    ∃ s, Run step WakesInTime (initial oneEntryQueue) handover s ∧
      s.pushed = [[7], [8]] ∧ BoundedFifo s := by
  have created : lspQueueCreate 1 1 true true = some oneEntryQueue := rfl
  have executed :
      (execute step WakesInTime (initial oneEntryQueue) handover).map
        QueueThreads.pushed = some [[7], [8]] := by
    decide
  obtain ⟨s, run, pushed⟩ := exists_run_of_execute executed
  refine ⟨s, run, pushed, ?_⟩
  have fits : BlockFits 1 1 := by
    simp only [BlockFits, alignedSizeofQueueHandle]
    decide
  exact (boundedFifo_of_run created (by decide) (by decide) fits run).1

/-- Between the signal and the resumption another producer takes the free
entry. -/
def stolenEntry : List (QueueAction Nat) :=
  [.push 0 (fun _ => 7) 0 none 0,
    .push 1 (fun _ => 8) lspTimeoutMax none 0,
    .pop 2 0 none 1,
    .push 3 (fun _ => 9) 0 none 0,
    .pushResumes 1 .ok 0]

/-- The resumed producer overwrites an item of a full queue. -/
theorem stolenEntry_overfills :
    lspQueueCreate 1 1 true true = some oneEntryQueue ∧
      ∃ s, Run step Anywhere (initial oneEntryQueue) stolenEntry s ∧
        s.queue.length = 2 ∧ ¬BoundedFifo s := by
  have executed :
      (execute step Anywhere (initial oneEntryQueue) stolenEntry).map
        (fun s => (s.queue.length, s.queue.queueSize)) = some (2, 1) := by
    decide
  obtain ⟨s, run, view⟩ := exists_run_of_execute executed
  simp only [Prod.mk.injEq] at view
  refine ⟨rfl, s, run, view.1, ?_⟩
  intro fifo
  have high := fifo.lengthHigh
  rw [view.1, view.2] at high
  omega

end Examples

end QueueThreads

end Liblsp
