import Liblsp.QueueFifo

/-!
# Clearing and destroying a queue in use

`lsp_queue_clear` and `lsp_queue_destroy` read the counters of blocked
threads before they lock anything.  A thread that blocks between this guard
and the effect is not seen.
-/

namespace Liblsp

open Base

namespace QueueThreads

variable {Tid : Type}

/-- Nobody is in `queue_wait_internal`, signalled or not. -/
def Unblocked (s : QueueThreads Tid) : Prop :=
  s.condFull.waiters = 0 ∧ s.condEmpty.waiters = 0

/-- The two counters say how many threads are blocked. -/
structure WaitersCounted (s : QueueThreads Tid) : Prop where
  full : s.queue.waitingFull = s.condFull.waiters
  empty : s.queue.waitingEmpty = s.condEmpty.waiters
  fullSmall : (s.condFull.waiters : Int) ≤ intMax
  emptySmall : (s.condEmpty.waiters : Int) ≤ intMax

theorem WaitersCounted.inUse {s : QueueThreads Tid}
    (counted : WaitersCounted s) :
    lspQueueInUse s.queue = false ↔ s.Unblocked := by
  have full := counted.full
  have empty := counted.empty
  simp only [lspQueueInUse, Unblocked, Bool.or_eq_false_iff,
    decide_eq_false_iff_not]
  omega

/-- The step would block a thread in `queue_wait_internal`. -/
def Blocks (hdl : LspQueueHandle) : QueueAction Tid → Prop
  | .push _ _ timeout clock _ =>
      hdl.isFull = true ∧ timeout > 0 ∧
        deadlineRefused (queueWaitInternal timeout clock) = false
  | .pop _ timeout clock _ =>
      hdl.isEmpty = true ∧ timeout > 0 ∧
        deadlineRefused (queueWaitInternal timeout clock) = false
  | _ => False

instance (hdl : LspQueueHandle) (action : QueueAction Tid) :
    Decidable (Blocks hdl action) :=
  match action with
  | .push .. | .pop .. => inferInstanceAs (Decidable (_ ∧ _ ∧ _))
  | .lockFails _ | .pushResumes .. | .popResumes .. =>
      inferInstanceAs (Decidable False)

variable [DecidableEq Tid] {s s' : QueueThreads Tid}
  {action : QueueAction Tid} {outcome : Option Int}

theorem Step.unblocked (stepped : Step s action s' outcome)
    (passes : ¬Blocks s.queue action) (unblocked : s.Unblocked) :
    s'.Unblocked := by
  obtain ⟨noneFull, noneEmpty⟩ := unblocked
  cases stepped with
  | unchanged => exact ⟨noneFull, noneEmpty⟩
  | pushRefused => exact ⟨noneFull, noneEmpty⟩
  | popRefused => exact ⟨noneFull, noneEmpty⟩
  | pushBlocks full waits accepted =>
      exact absurd ⟨full, waits, accepted⟩ passes
  | popBlocks empty waits accepted =>
      exact absurd ⟨empty, waits, accepted⟩ passes
  | pushStores _ signalled =>
      exact ⟨noneFull, (CondVar.waiters_signal signalled).trans noneEmpty⟩
  | popTakes _ signalled =>
      exact ⟨(CondVar.waiters_signal signalled).trans noneFull, noneEmpty⟩
  | pushExpires expired =>
      have counts := CondVar.waiters_expire expired
      omega
  | popExpires expired =>
      have counts := CondVar.waiters_expire expired
      omega
  | pushResumes resumed _ =>
      have counts := CondVar.waiters_resume resumed
      omega
  | popResumes resumed _ =>
      have counts := CondVar.waiters_resume resumed
      omega

private theorem counter_enters {counter : Int} {before after : Nat}
    (counted : counter = before) (room : counter < intMax)
    (more : after = before + 1) :
    toInt (counter + 1) = after ∧ (after : Int) ≤ intMax := by
  have low := intMin_neg
  rw [toInt_of_range (by omega) (by omega)]
  omega

private theorem counter_leaves {counter : Int} {before after : Nat}
    (counted : counter = before) (small : (before : Int) ≤ intMax)
    (fewer : after + 1 = before) :
    toInt (counter - 1) = after ∧ (after : Int) ≤ intMax := by
  have low := intMin_neg
  rw [toInt_of_range (by omega) (by omega)]
  omega

private theorem counter_refuses {counter : Int} {waiters : Nat}
    (counted : counter = waiters) (small : (waiters : Int) ≤ intMax) :
    toInt (toInt (counter + 1) - 1) = waiters := by
  have low := intMin_neg
  rw [toInt_add_one_sub_one (by omega) (by omega)]
  exact counted

/-- The counters stay right as long as they do not overflow. -/
theorem WaitersCounted.step (counted : WaitersCounted s)
    (stepped : Step s action s' outcome)
    (room : Blocks s.queue action →
      s.queue.waitingFull < intMax ∧ s.queue.waitingEmpty < intMax) :
    WaitersCounted s' := by
  obtain ⟨full, empty, fullSmall, emptySmall⟩ := counted
  cases stepped with
  | unchanged => exact ⟨full, empty, fullSmall, emptySmall⟩
  | pushRefused =>
      exact ⟨counter_refuses full fullSmall, empty, fullSmall, emptySmall⟩
  | popRefused =>
      exact ⟨full, counter_refuses empty emptySmall, fullSmall, emptySmall⟩
  | pushBlocks isFull waits accepted =>
      have space := room ⟨isFull, waits, accepted⟩
      obtain ⟨full', fullSmall'⟩ :=
        counter_enters full space.1 (CondVar.waiters_wait s.condFull _)
      exact ⟨full', empty, fullSmall', emptySmall⟩
  | popBlocks isEmpty waits accepted =>
      have space := room ⟨isEmpty, waits, accepted⟩
      obtain ⟨empty', emptySmall'⟩ :=
        counter_enters empty space.2 (CondVar.waiters_wait s.condEmpty _)
      exact ⟨full, empty', fullSmall, emptySmall'⟩
  | pushStores _ signalled =>
      have count := CondVar.waiters_signal signalled
      rw [← count] at empty emptySmall
      exact ⟨full, empty, fullSmall, emptySmall⟩
  | popTakes _ signalled =>
      have count := CondVar.waiters_signal signalled
      rw [← count] at full fullSmall
      exact ⟨full, empty, fullSmall, emptySmall⟩
  | pushExpires expired =>
      obtain ⟨full', fullSmall'⟩ :=
        counter_leaves full fullSmall (CondVar.waiters_expire expired)
      exact ⟨full', empty, fullSmall', emptySmall⟩
  | popExpires expired =>
      obtain ⟨empty', emptySmall'⟩ :=
        counter_leaves empty emptySmall (CondVar.waiters_expire expired)
      exact ⟨full, empty', fullSmall, emptySmall'⟩
  | pushResumes resumed signalled =>
      have count := CondVar.waiters_signal signalled
      rw [← count] at empty emptySmall
      obtain ⟨full', fullSmall'⟩ :=
        counter_leaves full fullSmall (CondVar.waiters_resume resumed)
      exact ⟨full', empty, fullSmall', emptySmall⟩
  | popResumes resumed signalled =>
      have count := CondVar.waiters_signal signalled
      rw [← count] at full fullSmall
      obtain ⟨empty', emptySmall'⟩ :=
        counter_leaves empty emptySmall (CondVar.waiters_resume resumed)
      exact ⟨full, empty', fullSmall, emptySmall'⟩

end QueueThreads

/-- Where the thread is that clears or destroys the queue. -/
inductive KeeperCall where
  | outside
  | clearing
  | destroying
  | destroyed
  deriving DecidableEq

structure QueueKeeper (Tid : Type) where
  threads : QueueThreads Tid
  keeper : KeeperCall

inductive KeeperAction (Tid : Type) where
  | thread (action : QueueAction Tid)
  | clearGuard
  | clearReset
  | destroyGuard
  | destroyFree

namespace QueueKeeper

variable {Tid : Type}

def initial (hdl : LspQueueHandle) : QueueKeeper Tid :=
  { threads := .initial hdl
    keeper := .outside }

/-- The guard returns at once, or the call goes on to `next`. -/
def passGuard (s : QueueKeeper Tid) (next : KeeperCall) :
    Option (QueueKeeper Tid × Option Int) :=
  if s.keeper = .outside then
    if lspQueueInUse s.threads.queue then some (s, some lspErrResourceInUse)
    else some ({ s with keeper := next }, none)
  else none

/-- `lsp_queue_clear` and `lsp_queue_destroy` next to the other threads.
`lsp_queue_destroy` has no return value once it has freed the queue, and
nobody can use the queue any more. -/
def exec [DecidableEq Tid] (s : QueueKeeper Tid) :
    KeeperAction Tid → Option (QueueKeeper Tid × Option Int)
  | .thread action =>
      if s.keeper = .destroyed then none
      else (s.threads.exec action).map fun (threads, rc) =>
        ({ s with threads := threads }, rc)
  | .clearGuard => s.passGuard .clearing
  | .clearReset =>
      if s.keeper = .clearing then
        some ({ s with
          threads := { s.threads with
            queue := lspQueueClearLocked s.threads.queue }
          keeper := .outside }, some lspErrNone)
      else none
  | .destroyGuard => s.passGuard .destroying
  | .destroyFree =>
      if s.keeper = .destroying then
        some ({ s with keeper := .destroyed }, none)
      else none

def step [DecidableEq Tid] (s : QueueKeeper Tid)
    (action : KeeperAction Tid) : Option (QueueKeeper Tid) :=
  (s.exec action).map Prod.fst

/-- No thread blocks while the keeper is between its guard and its effect,
nor with a counter that is at its limit. -/
def BlocksOutsideGuard (s : QueueKeeper Tid) : KeeperAction Tid → Prop
  | .thread action =>
      QueueThreads.Blocks s.threads.queue action →
        s.keeper = .outside ∧ s.threads.queue.waitingFull < intMax ∧
          s.threads.queue.waitingEmpty < intMax
  | _ => True

instance (s : QueueKeeper Tid) (action : KeeperAction Tid) :
    Decidable (BlocksOutsideGuard s action) :=
  match action with
  | .thread _ => inferInstanceAs (Decidable (_ → _ ∧ _ ∧ _))
  | .clearGuard | .clearReset | .destroyGuard | .destroyFree =>
      inferInstanceAs (Decidable True)

structure KeeperInvariant (s : QueueKeeper Tid) : Prop where
  counted : s.threads.WaitersCounted
  quiet : s.keeper ≠ .outside → s.threads.Unblocked

theorem keeperInvariant_initial {length : Int} {itemsize : Nat}
    {hdl : LspQueueHandle}
    (created : lspQueueCreate length itemsize true true = some hdl) :
    KeeperInvariant (initial hdl : QueueKeeper Tid) := by
  simp only [lspQueueCreate, Bool.and_self, if_true,
    Option.some.injEq] at created
  subst hdl
  refine ⟨⟨rfl, rfl, ?_, ?_⟩, ?_⟩
  · change (0 : Int) ≤ intMax
    decide
  · change (0 : Int) ≤ intMax
    decide
  · intro inside
    exact absurd rfl inside

/-- The guard is for a keeper that is outside; it refuses a queue in use. -/
theorem passGuard_cases {s s' : QueueKeeper Tid} {next : KeeperCall}
    {outcome : Option Int}
    (passed : s.passGuard next = some (s', outcome)) :
    s.keeper = .outside ∧
      ((lspQueueInUse s.threads.queue = true ∧ s' = s ∧
          outcome = some lspErrResourceInUse) ∨
        (lspQueueInUse s.threads.queue = false ∧
          s' = { s with keeper := next } ∧ outcome = none)) := by
  simp only [passGuard] at passed
  split at passed
  · rename_i outside
    split at passed
    · rename_i used
      cases passed
      exact ⟨outside, .inl ⟨used, rfl, rfl⟩⟩
    · rename_i unused
      cases passed
      exact ⟨outside, .inr ⟨by simpa using unused, rfl, rfl⟩⟩
  · cases passed

theorem KeeperInvariant.ofGuard {s s' : QueueKeeper Tid}
    {next : KeeperCall} {outcome : Option Int}
    (invariant : KeeperInvariant s)
    (passed : s.passGuard next = some (s', outcome)) :
    KeeperInvariant s' := by
  obtain ⟨_, ⟨_, same, _⟩ | ⟨unused, moved, _⟩⟩ := passGuard_cases passed
  · rw [same]
    exact invariant
  · rw [moved]
    refine ⟨invariant.counted, ?_⟩
    intro _
    exact invariant.counted.inUse.mp unused

variable [DecidableEq Tid]

theorem exec_destroyFree {s s' : QueueKeeper Tid} {outcome : Option Int}
    (executed : s.exec .destroyFree = some (s', outcome)) :
    s.keeper = .destroying ∧ s' = { s with keeper := .destroyed } := by
  simp only [exec] at executed
  split at executed
  · rename_i destroying
    cases executed
    exact ⟨destroying, rfl⟩
  · cases executed

/-- The keeper never touches a queue under a blocked thread. -/
structure KeepsOut (s : QueueKeeper Tid) : Prop where
  effect : ∀ action s' outcome, action = .clearReset ∨ action = .destroyFree →
    s.exec action = some (s', outcome) → s.threads.Unblocked
  refused : ∀ action, action = .clearGuard ∨ action = .destroyGuard →
    s.keeper = .outside → ¬s.threads.Unblocked →
      s.exec action = some (s, some lspErrResourceInUse)
  cleared : ∀ s' outcome, s.exec .clearReset = some (s', outcome) →
    s'.threads.queue.length = 0 ∧ s'.threads.condFull.sleeping = []

namespace KeeperInvariant

variable {s s' : QueueKeeper Tid}

theorem keepsOut (invariant : KeeperInvariant s) : KeepsOut s := by
  have effect : ∀ action s' outcome,
      action = .clearReset ∨ action = .destroyFree →
      s.exec action = some (s', outcome) → s.threads.Unblocked := by
    intro action s' outcome taken executed
    apply invariant.quiet
    intro outside
    rcases taken with reset | free
    · subst action
      simp [exec, outside] at executed
    · subst action
      simp [exec, outside] at executed
  constructor
  · exact effect
  · intro action guard outside blocked
    have inUse : lspQueueInUse s.threads.queue = true := by
      rw [← Bool.not_eq_false]
      intro unused
      exact blocked (invariant.counted.inUse.mp unused)
    rcases guard with clear | destroy
    · subst action
      simp [exec, passGuard, outside, inUse]
    · subst action
      simp [exec, passGuard, outside, inUse]
  · intro s' outcome executed
    have unblocked := effect _ _ _ (.inl rfl) executed
    simp only [exec] at executed
    split at executed
    · simp only [Option.some.injEq, Prod.mk.injEq] at executed
      obtain ⟨state, _⟩ := executed
      subst s'
      refine ⟨rfl, ?_⟩
      have none := unblocked.1
      simp only [CondVar.waiters, Nat.add_eq_zero_iff] at none
      exact List.length_eq_zero_iff.mp none.1
    · simp at executed

/-- A step that blocks outside the guard only keeps the keeper away from
blocked threads. -/
theorem step {action : KeeperAction Tid} {outcome : Option Int}
    (invariant : KeeperInvariant s) (outside : BlocksOutsideGuard s action)
    (executed : s.exec action = some (s', outcome)) :
    KeeperInvariant s' := by
  cases action with
  | thread action =>
      simp only [exec] at executed
      split at executed
      · simp at executed
      · obtain ⟨⟨threads, rc⟩, moved, result⟩ :=
          Option.map_eq_some_iff.mp executed
        simp only [Prod.mk.injEq] at result
        rw [← result.1]
        have stepped := QueueThreads.step_of_exec moved
        constructor
        · apply invariant.counted.step stepped
          intro blocks
          exact (outside blocks).2
        · intro inside
          apply stepped.unblocked
          · intro blocks
            exact inside (outside blocks).1
          · exact invariant.quiet inside
  | clearGuard => exact invariant.ofGuard executed
  | destroyGuard => exact invariant.ofGuard executed
  | clearReset =>
      simp only [exec] at executed
      split at executed
      · simp only [Option.some.injEq, Prod.mk.injEq] at executed
        rw [← executed.1]
        obtain ⟨full, empty, fullSmall, emptySmall⟩ := invariant.counted
        refine ⟨⟨full, empty, fullSmall, emptySmall⟩, ?_⟩
        intro inside
        exact absurd rfl inside
      · simp at executed
  | destroyFree =>
      obtain ⟨destroying, freed⟩ := exec_destroyFree executed
      rw [freed]
      refine ⟨invariant.counted, ?_⟩
      intro _
      apply invariant.quiet
      rw [destroying]
      exact nofun

end KeeperInvariant

/-- Under any interleaving in which no thread blocks behind the guard, a
queue is cleared and destroyed only while nobody is blocked on it. -/
theorem keepsOut_of_run {length : Int} {itemsize : Nat}
    {hdl : LspQueueHandle}
    (created : lspQueueCreate length itemsize true true = some hdl)
    {actions : List (KeeperAction Tid)} {s : QueueKeeper Tid}
    (run : Run step BlocksOutsideGuard (initial hdl) actions s) :
    KeepsOut s := by
  apply KeeperInvariant.keepsOut
  apply run.invariant
  · exact keeperInvariant_initial created
  · intro state action next invariant outside stepped
    obtain ⟨⟨_, outcome⟩, executed, same⟩ :=
      Option.map_eq_some_iff.mp stepped
    simp only at same
    subst next
    exact invariant.step outside executed

section Examples

open QueueThreads (oneEntryQueue)

/-- The keeper comes while a producer is blocked, and again when it is not. -/
def clearTwice : List (KeeperAction Nat) :=
  [.thread (.push 0 (fun _ => 7) 0 none 0),
    .thread (.push 1 (fun _ => 8) lspTimeoutMax none 0),
    .clearGuard,
    .thread (.pop 2 0 none 1),
    .thread (.pushResumes 1 .ok 0),
    .clearGuard,
    .clearReset]

theorem keepsOut_of_clearTwice :
    ∃ s, Run step BlocksOutsideGuard (initial oneEntryQueue) clearTwice s ∧
      s.threads.queue.length = 0 ∧ KeepsOut s := by
  have created : lspQueueCreate 1 1 true true = some oneEntryQueue := rfl
  have executed :
      (execute step BlocksOutsideGuard (initial oneEntryQueue)
        clearTwice).map (fun s => s.threads.queue.length) = some 0 := by
    decide
  obtain ⟨s, run, length⟩ := exists_run_of_execute executed
  exact ⟨s, run, length, keepsOut_of_run created run⟩

/-- A producer blocks between the guard and the lock. -/
def blockedBehindGuard : List (KeeperAction Nat) :=
  [.thread (.push 0 (fun _ => 7) 0 none 0),
    .clearGuard,
    .thread (.push 1 (fun _ => 8) lspTimeoutMax none 0)]

/-- The queue is cleared under the producer, which stays blocked without a
signal on an empty queue. -/
theorem blockedBehindGuard_cleared :
    lspQueueCreate 1 1 true true = some oneEntryQueue ∧
      ∃ s, Run step Anywhere (initial oneEntryQueue) blockedBehindGuard s ∧
        (s.exec .clearReset).map (fun after =>
          (after.1.threads.queue.length, after.1.threads.condFull.sleeping,
            after.2)) = some (0, [1], some lspErrNone) ∧ ¬KeepsOut s := by
  have executed :
      (execute step Anywhere (initial oneEntryQueue)
        blockedBehindGuard).map (fun s => (s.exec .clearReset).map
          (fun after => (after.1.threads.queue.length,
            after.1.threads.condFull.sleeping, after.2))) =
        some (some (0, [1], some lspErrNone)) := by
    decide
  obtain ⟨s, run, after⟩ := exists_run_of_execute executed
  refine ⟨rfl, s, run, after, ?_⟩
  intro out
  obtain ⟨⟨cleared, outcome⟩, taken, view⟩ :=
    Option.map_eq_some_iff.mp after
  have none := (out.cleared cleared outcome taken).2
  simp [none] at view

end Examples

end QueueKeeper

end Liblsp
