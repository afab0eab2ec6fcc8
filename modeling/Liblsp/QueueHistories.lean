import Liblsp.Base.Histories
import Liblsp.QueueClear
import Liblsp.QueueRefinement

/-!
# What the users of a queue see

Many threads push and pop, with and without timeouts, and one of them clears
the queue now and then.  The calls that succeed, or find the queue full or
empty, take effect in the section in which they return; in that order they
get the answers of a list of blocks.  All other calls leave no trace.
-/

namespace Liblsp

open Base

namespace LspQueueHandle

variable {hdl next : LspQueueHandle} {capacity itemsize : Nat}
  {blocks : List (List UInt8)}

/-- The queue holds the given blocks, whoever waits for it. -/
structure Contains (capacity itemsize : Nat) (hdl : LspQueueHandle)
    (blocks : List (List UInt8)) : Prop where
  normal : hdl.Normal
  contents : hdl.contents = blocks
  queueSize : hdl.queueSize = capacity
  itemsize : hdl.itemsize = itemsize

namespace Contains

theorem same (contains : hdl.Contains capacity itemsize blocks)
    (same : next.SameItems hdl) : next.Contains capacity itemsize blocks where
  normal := same.normal contains.normal
  contents := same.contents.trans contains.contents
  queueSize := same.2.2.2.1.trans contains.queueSize
  itemsize := same.2.2.2.2.1.trans contains.itemsize

theorem length_eq (contains : hdl.Contains capacity itemsize blocks) :
    hdl.length = blocks.length := by
  have low := contains.normal.lengthLow
  have count := hdl.length_contents
  rw [contains.contents] at count
  omega

theorem isFull_iff (contains : hdl.Contains capacity itemsize blocks) :
    hdl.isFull = true ↔ ¬blocks.length < capacity := by
  rw [contains.normal.isFull_iff, contains.contents, contains.queueSize,
    not_lt]

theorem isEmpty_iff (contains : hdl.Contains capacity itemsize blocks) :
    hdl.isEmpty = true ↔ blocks = [] := by
  rw [contains.normal.isEmpty_iff, contains.contents]

theorem store (contains : hdl.Contains capacity itemsize blocks)
    (room : blocks.length < capacity) (item : Nat → UInt8) :
    (hdl.store item).Contains capacity itemsize
      (blocks ++ [(List.range itemsize).map item]) := by
  have spare : hdl.length < hdl.queueSize := by
    rw [contains.length_eq, contains.queueSize]
    exact_mod_cast room
  refine ⟨contains.normal.store item spare, ?_, contains.queueSize,
    contains.itemsize⟩
  rw [contains.normal.contents_store item spare, contains.contents, block,
    contains.itemsize]

theorem take {first : List UInt8} {rest : List (List UInt8)}
    (contains : hdl.Contains capacity itemsize (first :: rest)) :
    hdl.entry hdl.head = first ∧
      hdl.take.Contains capacity itemsize rest := by
  have present : 0 < hdl.length := by
    rw [contains.length_eq, List.length_cons]
    omega
  have taken := contains.normal.contents_take present
  rw [contains.contents, List.cons.injEq] at taken
  exact ⟨taken.1.symm, contains.normal.take present, taken.2.symm,
    contains.queueSize, contains.itemsize⟩

theorem clear (contains : hdl.Contains capacity itemsize blocks) :
    (lspQueueClearLocked hdl).Contains capacity itemsize [] := by
  refine ⟨contains.normal.clear, ?_, contains.queueSize, contains.itemsize⟩
  rw [← List.length_eq_zero_iff, length_contents]
  rfl

end Contains

theorem contains_of_created {length : Int}
    (created : lspQueueCreate length itemsize true true = some hdl)
    (positive : 1 ≤ length) (small : length ≤ intMax)
    (fits : QueueThreads.BlockFits length itemsize) :
    hdl.Contains length.toNat itemsize [] := by
  have normal := QueueThreads.normal_of_created created positive small fits
  simp only [lspQueueCreate, Bool.and_self, if_true,
    Option.some.injEq] at created
  subst hdl
  exact ⟨normal, rfl, toSize_of_range (by omega) small, rfl⟩

end LspQueueHandle

namespace QueueOp

/-- The block that a successful pop copies out. -/
def copied (hdl : LspQueueHandle) (rc : Int) : QueueOp → Option (List UInt8)
  | .pop => if rc = lspErrNone then some (hdl.entry hdl.head) else none
  | .push _ | .clear => none

/-- What a call does whose section starts with this queue and ends with this
return value, if it returns. -/
def effect (hdl : LspQueueHandle) (op : QueueOp) (outcome : Option Int) :
    Option (QueueOp × QueueAnswer) :=
  outcome.bind fun rc =>
    if rc = lspErrNone ∨ rc = lspErrQueueFull ∨ rc = lspErrQueueEmpty then
      some (op, .ret rc, op.copied hdl rc)
    else none

end QueueOp

/-- What the caller gets from a section, if it returns. -/
def SectionEnd.outcome : SectionEnd → Option Int
  | .wait _ => none
  | .ret rc => some rc

section Sections

open QueueOp LspQueueHandle

variable {hdl next : LspQueueHandle} {capacity itemsize : Nat}
  {blocks : List (List UInt8)}

/-- The section has the effect that the operation has on the blocks. -/
abbrev ServedByList (capacity itemsize : Nat) (hdl next : LspQueueHandle)
    (blocks : List (List UInt8)) (op : QueueOp) (outcome : Option Int) :
    Prop :=
  ServedBy (reference capacity itemsize) (next.Contains capacity itemsize)
    blocks (effect hdl op outcome)

theorem served_quiet (contains : hdl.Contains capacity itemsize blocks)
    {op : QueueOp} {outcome : Option Int}
    (unanswered : effect hdl op outcome = none)
    (same : next.SameItems hdl) :
    ServedByList capacity itemsize hdl next blocks op outcome := by
  rw [ServedByList, unanswered]
  exact .quiet (contains.same same)

theorem served_store (contains : hdl.Contains capacity itemsize blocks)
    (same : next.SameItems hdl) (room : blocks.length < capacity)
    (item : Nat → UInt8) :
    ServedByList capacity itemsize hdl (next.store item) blocks (.push item)
      (some lspErrNone) := by
  have answer : (reference capacity itemsize blocks (.push item)) =
      (blocks ++ [(List.range itemsize).map item], .ret lspErrNone, none) :=
    if_pos room
  have effect : effect hdl (.push item) (some lspErrNone) =
      some (.push item,
        (reference capacity itemsize blocks (.push item)).2) := by
    rw [answer]
    rfl
  rw [ServedByList, effect]
  apply ServedBy.answers
  rw [answer]
  exact (contains.same same).store room item

theorem served_take (contains : hdl.Contains capacity itemsize blocks)
    (same : next.SameItems hdl) (present : blocks ≠ []) :
    ServedByList capacity itemsize hdl next.take blocks .pop
      (some lspErrNone) := by
  cases blocks with
  | nil => exact absurd rfl present
  | cons first rest =>
      have read := contains.take.1
      have effect : effect hdl .pop (some lspErrNone) =
          some (.pop, (reference capacity itemsize (first :: rest) .pop).2) := by
        rw [← read]
        rfl
      rw [ServedByList, effect]
      exact .answers (contains.same same).take.2

theorem served_full (contains : hdl.Contains capacity itemsize blocks)
    (full : ¬blocks.length < capacity) (item : Nat → UInt8) :
    ServedByList capacity itemsize hdl hdl blocks (.push item)
      (some lspErrQueueFull) := by
  have answer : (reference capacity itemsize blocks (.push item)) =
      (blocks, .ret lspErrQueueFull, none) := if_neg full
  have effect : effect hdl (.push item) (some lspErrQueueFull) =
      some (.push item,
        (reference capacity itemsize blocks (.push item)).2) := by
    rw [answer]
    rfl
  rw [ServedByList, effect]
  apply ServedBy.answers
  rw [answer]
  exact contains

theorem served_empty (contains : hdl.Contains capacity itemsize [])  :
    ServedByList capacity itemsize hdl hdl [] .pop
      (some lspErrQueueEmpty) := by
  have effect : effect hdl .pop (some lspErrQueueEmpty) =
      some (.pop, (reference capacity itemsize [] .pop).2) := rfl
  rw [ServedByList, effect]
  exact .answers contains

theorem served_pushLocked (contains : hdl.Contains capacity itemsize blocks)
    {item : Nat → UInt8} {timeout : UInt32} {clock : Option Timespec}
    {ended : SectionEnd}
    (locked : lspQueuePushLocked hdl item timeout clock = (next, ended)) :
    ServedByList capacity itemsize hdl next blocks (.push item)
      ended.outcome := by
  have full := contains.isFull_iff
  rcases lspQueuePushLocked_cases hdl item timeout clock with
    result | result | ⟨_, _, _, result⟩ | ⟨room, result⟩
  · obtain ⟨rfl, rfl⟩ := Prod.mk.injEq .. ▸ result.symm.trans locked
    apply served_full contains
    rw [← full, ← Bool.not_eq_false]
    intro room
    rw [lspQueuePushLocked, room] at result
    have wrong : SectionEnd.ret lspErrNone = .ret lspErrQueueFull :=
      congrArg Prod.snd result
    exact absurd wrong (by decide)
  · obtain ⟨rfl, rfl⟩ := Prod.mk.injEq .. ▸ result.symm.trans locked
    exact served_quiet contains rfl ⟨rfl, rfl, rfl, rfl, rfl, rfl⟩
  · obtain ⟨rfl, rfl⟩ := Prod.mk.injEq .. ▸ result.symm.trans locked
    exact served_quiet contains rfl ⟨rfl, rfl, rfl, rfl, rfl, rfl⟩
  · obtain ⟨rfl, rfl⟩ := Prod.mk.injEq .. ▸ result.symm.trans locked
    refine served_store contains (.refl _) ?_ item
    by_contra closed
    rw [full.mpr closed] at room
    cases room

theorem served_pushResumed (contains : hdl.Contains capacity itemsize blocks)
    {item : Nat → UInt8} {result : WaitResult} {rc : Int}
    (resumed : lspQueuePushResumed hdl item result = (next, rc))
    (inTime : result = .ok → blocks.length < capacity) :
    ServedByList capacity itemsize hdl next blocks (.push item)
      (some rc) := by
  cases result with
  | ok =>
      obtain ⟨rfl, rfl⟩ := Prod.mk.injEq .. ▸ resumed
      refine served_store contains ?_ (inTime rfl) item
      exact ⟨rfl, rfl, rfl, rfl, rfl, rfl⟩
  | etimedout =>
      obtain ⟨rfl, rfl⟩ := Prod.mk.injEq .. ▸ resumed
      exact served_quiet contains rfl ⟨rfl, rfl, rfl, rfl, rfl, rfl⟩
  | einval =>
      obtain ⟨rfl, rfl⟩ := Prod.mk.injEq .. ▸ resumed
      exact served_quiet contains rfl ⟨rfl, rfl, rfl, rfl, rfl, rfl⟩

theorem served_popLocked (contains : hdl.Contains capacity itemsize blocks)
    {timeout : UInt32} {clock : Option Timespec} {ended : SectionEnd}
    (locked : lspQueuePopLocked hdl timeout clock = (next, ended)) :
    ServedByList capacity itemsize hdl next blocks .pop ended.outcome := by
  have empty := contains.isEmpty_iff
  rcases lspQueuePopLocked_cases hdl timeout clock with
    result | result | ⟨_, _, _, result⟩ | ⟨filled, result⟩
  · obtain ⟨rfl, rfl⟩ := Prod.mk.injEq .. ▸ result.symm.trans locked
    have none : blocks = [] := by
      rw [← empty, ← Bool.not_eq_false]
      intro filled
      rw [lspQueuePopLocked, filled] at result
      have wrong : SectionEnd.ret lspErrNone = .ret lspErrQueueEmpty :=
        congrArg Prod.snd result
      exact absurd wrong (by decide)
    subst none
    exact served_empty contains
  · obtain ⟨rfl, rfl⟩ := Prod.mk.injEq .. ▸ result.symm.trans locked
    exact served_quiet contains rfl ⟨rfl, rfl, rfl, rfl, rfl, rfl⟩
  · obtain ⟨rfl, rfl⟩ := Prod.mk.injEq .. ▸ result.symm.trans locked
    exact served_quiet contains rfl ⟨rfl, rfl, rfl, rfl, rfl, rfl⟩
  · obtain ⟨rfl, rfl⟩ := Prod.mk.injEq .. ▸ result.symm.trans locked
    apply served_take contains (.refl _)
    intro none
    rw [empty.mpr none] at filled
    cases filled

theorem served_popResumed (contains : hdl.Contains capacity itemsize blocks)
    {result : WaitResult} {rc : Int}
    (resumed : lspQueuePopResumed hdl result = (next, rc))
    (inTime : result = .ok → blocks ≠ []) :
    ServedByList capacity itemsize hdl next blocks .pop (some rc) := by
  cases result with
  | ok =>
      obtain ⟨rfl, rfl⟩ := Prod.mk.injEq .. ▸ resumed
      refine served_take contains ?_ (inTime rfl)
      exact ⟨rfl, rfl, rfl, rfl, rfl, rfl⟩
  | etimedout =>
      obtain ⟨rfl, rfl⟩ := Prod.mk.injEq .. ▸ resumed
      exact served_quiet contains rfl ⟨rfl, rfl, rfl, rfl, rfl, rfl⟩
  | einval =>
      obtain ⟨rfl, rfl⟩ := Prod.mk.injEq .. ▸ resumed
      exact served_quiet contains rfl ⟨rfl, rfl, rfl, rfl, rfl, rfl⟩

end Sections

namespace QueueThreads

variable {Tid : Type}

/-- The call that an action is part of. -/
def operation (s : QueueThreads Tid) : QueueAction Tid → Option QueueOp
  | .push _ item _ _ _ => some (.push item)
  | .pushResumes thread _ _ =>
      match s.call thread with
      | .pushing item _ => some (.push item)
      | _ => none
  | .pop .. | .popResumes .. => some .pop
  | .lockFails _ => none

/-- The call that takes effect in a section, with its answer. -/
def served (s : QueueThreads Tid) (action : QueueAction Tid)
    (outcome : Option Int) : Option (QueueOp × QueueAnswer) :=
  (s.operation action).bind fun op => op.effect s.queue outcome

variable [DecidableEq Tid]

section Inversion

variable {s s' : QueueThreads Tid} {thread pick : Tid}
  {outcome : Option Int}

private theorem finishPush_queue {item : Nat → UInt8} {hdl : LspQueueHandle}
    {rc : Int}
    (finished : s.finishPush thread pick item hdl rc = some (s', outcome)) :
    s'.queue = hdl ∧ outcome = some rc := by
  simp only [finishPush] at finished
  split at finished
  · obtain ⟨_, _, same⟩ := Option.map_eq_some_iff.mp finished
    cases same
    exact ⟨rfl, rfl⟩
  · cases finished
    exact ⟨rfl, rfl⟩

private theorem finishPop_queue {hdl : LspQueueHandle} {rc : Int}
    (finished : s.finishPop thread pick hdl rc = some (s', outcome)) :
    s'.queue = hdl ∧ outcome = some rc := by
  simp only [finishPop] at finished
  split at finished
  · obtain ⟨_, _, same⟩ := Option.map_eq_some_iff.mp finished
    cases same
    exact ⟨rfl, rfl⟩
  · cases finished
    exact ⟨rfl, rfl⟩

theorem exec_push_section {item : Nat → UInt8} {timeout : UInt32}
    {clock : Option Timespec}
    (executed : s.exec (.push thread item timeout clock pick) =
      some (s', outcome)) :
    ∃ ended, lspQueuePushLocked s.queue item timeout clock =
        (s'.queue, ended) ∧ outcome = ended.outcome := by
  simp only [exec] at executed
  split at executed
  · generalize locked : lspQueuePushLocked s.queue item timeout clock = result
      at executed
    obtain ⟨hdl, ended⟩ := result
    cases ended with
    | wait deadline =>
        cases executed
        exact ⟨_, rfl, rfl⟩
    | ret rc =>
        obtain ⟨rfl, rfl⟩ := finishPush_queue executed
        exact ⟨_, rfl, rfl⟩
  · cases executed

theorem exec_pop_section {timeout : UInt32} {clock : Option Timespec}
    (executed : s.exec (.pop thread timeout clock pick) =
      some (s', outcome)) :
    ∃ ended, lspQueuePopLocked s.queue timeout clock = (s'.queue, ended) ∧
      outcome = ended.outcome := by
  simp only [exec] at executed
  split at executed
  · generalize locked : lspQueuePopLocked s.queue timeout clock = result
      at executed
    obtain ⟨hdl, ended⟩ := result
    cases ended with
    | wait deadline =>
        cases executed
        exact ⟨_, rfl, rfl⟩
    | ret rc =>
        obtain ⟨rfl, rfl⟩ := finishPop_queue executed
        exact ⟨_, rfl, rfl⟩
  · cases executed

theorem exec_pushResumes_section {result : WaitResult}
    (executed : s.exec (.pushResumes thread result pick) =
      some (s', outcome)) :
    ∃ item deadline rc, s.call thread = .pushing item deadline ∧
      lspQueuePushResumed s.queue item result = (s'.queue, rc) ∧
      outcome = some rc := by
  simp only [exec] at executed
  split at executed
  · rename_i item deadline pushing
    obtain ⟨_, _, finished⟩ := Option.bind_eq_some_iff.mp executed
    obtain ⟨queue, returned⟩ := finishPush_queue finished
    exact ⟨item, deadline, _, pushing, Prod.ext queue.symm rfl, returned⟩
  · cases executed

theorem exec_popResumes_section {result : WaitResult}
    (executed : s.exec (.popResumes thread result pick) =
      some (s', outcome)) :
    ∃ rc, lspQueuePopResumed s.queue result = (s'.queue, rc) ∧
      outcome = some rc := by
  simp only [exec] at executed
  split at executed
  · obtain ⟨_, _, finished⟩ := Option.bind_eq_some_iff.mp executed
    obtain ⟨queue, returned⟩ := finishPop_queue finished
    exact ⟨_, Prod.ext queue.symm rfl, returned⟩
  · cases executed

/-- Every section in time is served by the list of blocks. -/
theorem served_of_exec {capacity itemsize : Nat} {blocks : List (List UInt8)}
    {action : QueueAction Tid}
    (contains : s.queue.Contains capacity itemsize blocks)
    (inTime : WakesInTime s action)
    (executed : s.exec action = some (s', outcome)) :
    ServedBy (QueueOp.reference capacity itemsize)
      (s'.queue.Contains capacity itemsize) blocks
      (s.served action outcome) := by
  cases action with
  | lockFails thread =>
      have stepped := step_of_exec executed
      cases stepped with
      | unchanged => exact .quiet contains
  | push thread item timeout clock pick =>
      obtain ⟨ended, locked, rfl⟩ := exec_push_section executed
      exact served_pushLocked contains locked
  | pop thread timeout clock pick =>
      obtain ⟨ended, locked, rfl⟩ := exec_pop_section executed
      exact served_popLocked contains locked
  | pushResumes thread result pick =>
      obtain ⟨item, deadline, rc, pushing, resumed, rfl⟩ :=
        exec_pushResumes_section executed
      have operation : s.operation (.pushResumes thread result pick) =
          some (.push item) := by
        simp only [operation, pushing]
      rw [served, operation]
      apply served_pushResumed contains resumed
      rintro rfl
      have room : s.queue.length < s.queue.queueSize := inTime
      rw [contains.length_eq, contains.queueSize] at room
      exact_mod_cast room
  | popResumes thread result pick =>
      obtain ⟨rc, resumed, rfl⟩ := exec_popResumes_section executed
      apply served_popResumed contains resumed
      rintro rfl
      have present : 0 < s.queue.length := inTime
      rw [contains.length_eq] at present
      intro none
      rw [none] at present
      exact absurd present (by decide)

end Inversion

end QueueThreads

namespace QueueKeeper

open QueueOp (reference)

variable {Tid : Type}

/-- The call that takes effect in a step of the threads or of the keeper. -/
def served (s : QueueKeeper Tid) (action : KeeperAction Tid)
    (outcome : Option Int) : Option (QueueOp × QueueAnswer) :=
  match action with
  | .thread action => s.threads.served action outcome
  | .clearReset => some (.clear, .ret lspErrNone, none)
  | .clearGuard | .destroyGuard | .destroyFree => none

/-- What a thread waited for is still there when it resumes. -/
def WakesInTime (s : QueueKeeper Tid) : KeeperAction Tid → Prop
  | .thread action => QueueThreads.WakesInTime s.threads action
  | _ => True

instance (s : QueueKeeper Tid) (action : KeeperAction Tid) :
    Decidable (WakesInTime s action) :=
  match action with
  | .thread action =>
      inferInstanceAs (Decidable (QueueThreads.WakesInTime _ action))
  | .clearGuard | .clearReset | .destroyGuard | .destroyFree =>
      inferInstanceAs (Decidable True)

variable [DecidableEq Tid]

/-- The calls of a run, in the order in which they take effect, are answered
like calls on a list of blocks, and the queue holds what they leave. -/
structure Linearizable (capacity itemsize : Nat) (start : QueueKeeper Tid)
    (actions : List (KeeperAction Tid)) (s : QueueKeeper Tid) : Prop where
  legal : Legal (reference capacity itemsize) []
    (history exec served start actions)
  contents : s.threads.queue.contents =
    replay (reference capacity itemsize) []
      (history exec served start actions)

theorem serves (capacity itemsize : Nat) :
    Serves
      (fun (s : QueueKeeper Tid) blocks =>
        s.threads.queue.Contains capacity itemsize blocks)
      WakesInTime exec served (reference capacity itemsize) := by
  intro s blocks action s' outcome contains inTime executed
  cases action with
  | thread action =>
      simp only [exec, Option.ite_none_left_eq_some] at executed
      obtain ⟨⟨threads, rc⟩, moved, result⟩ :=
        Option.map_eq_some_iff.mp executed.2
      cases result
      exact QueueThreads.served_of_exec contains inTime moved
  | clearGuard =>
      obtain ⟨_, ⟨_, rfl, _⟩ | ⟨_, rfl, _⟩⟩ := passGuard_cases executed
      · exact .quiet contains
      · exact .quiet contains
  | destroyGuard =>
      obtain ⟨_, ⟨_, rfl, _⟩ | ⟨_, rfl, _⟩⟩ := passGuard_cases executed
      · exact .quiet contains
      · exact .quiet contains
  | clearReset =>
      simp only [exec, Option.ite_none_right_eq_some] at executed
      cases executed.2
      exact @ServedBy.answers _ _ _ (reference capacity itemsize) _ blocks
        .clear contains.clear
  | destroyFree =>
      obtain ⟨_, rfl⟩ := exec_destroyFree executed
      exact .quiet contains

/-- In any interleaving of pushes, pops and clears in which threads wake in
time, the calls that answer do so like one after the other on a list of
blocks. -/
theorem linearizable_of_run {length : Int} {itemsize : Nat}
    {hdl : LspQueueHandle}
    (created : lspQueueCreate length itemsize true true = some hdl)
    (positive : 1 ≤ length) (small : length ≤ intMax)
    (fits : QueueThreads.BlockFits length itemsize)
    {actions : List (KeeperAction Tid)} {s : QueueKeeper Tid}
    (run : Run step WakesInTime (initial hdl) actions s) :
    Linearizable length.toNat itemsize (initial hdl) actions s := by
  have start := LspQueueHandle.contains_of_created created positive small fits
  obtain ⟨legal, contains⟩ :=
    (serves length.toNat itemsize).run start run
  exact ⟨legal, contains.contents⟩

section Examples

open QueueThreads (oneEntryQueue)

/-- The producer that was blocked gets through only in front of the clear. -/
theorem linearizable_of_clearTwice :
    ∃ s, Run step WakesInTime (initial oneEntryQueue) clearTwice s ∧
      (history exec served (initial oneEntryQueue) clearTwice).map Prod.snd =
        [(.ret lspErrNone, none), (.ret lspErrNone, some [7]),
          (.ret lspErrNone, none), (.ret lspErrNone, none)] ∧
      Linearizable 1 1 (initial oneEntryQueue) clearTwice s := by
  have created : lspQueueCreate 1 1 true true = some oneEntryQueue := rfl
  have fits : QueueThreads.BlockFits 1 1 := by
    simp only [QueueThreads.BlockFits, alignedSizeofQueueHandle]
    decide
  have executed :
      (execute step WakesInTime (initial oneEntryQueue) clearTwice).map
        (fun _ => ()) = some () := by
    decide
  obtain ⟨s, run, _⟩ := exists_run_of_execute executed
  exact ⟨s, run, by decide,
    linearizable_of_run created (by decide) (by decide) fits run⟩

end Examples

end QueueKeeper

end Liblsp
