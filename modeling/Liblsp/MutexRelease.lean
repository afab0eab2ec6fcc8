import Liblsp.Base.Holders
import Liblsp.EgroupAccesses
import Liblsp.QueueAccesses

/-!
# The mutex is always given back

Every way through `lsp_queue_push`, `lsp_queue_pop`, `lsp_egroup_wait` and
`lsp_egroup_set` that takes the mutex gives it back or blocks after a bounded
number of statements.  The bound for a queue is that of the copy, and nothing
that the other threads do makes a holder wait.
-/

namespace Liblsp

open Base

namespace QueueAccesses

variable {Tid : Type} [DecidableEq Tid]

/-- How many statements are left until the mutex is free. -/
def rank (shared : QueueShared Tid) : QueuePlace → Nat
  | .testing _ | .uncounting _ .ok => shared.queue.itemsize + 7
  | .copying _ byte => shared.queue.itemsize - byte + 6
  | .advancing _ => 5
  | .counting _ | .wrapping _ => 4
  | .waiting _ | .resizing _ => 3
  | .uncounting .. | .signalling _ => 2
  | .unlocking .. => 1
  | .outside | .locking _ | .blocked .. => 0

/-- What a statement makes of what the threads share. -/
inductive Effect (thread : Tid) (shared : QueueShared Tid) :
    QueuePlace → QueueShared Tid → QueuePlace → Prop where
  | changes {place place' : QueuePlace}
      (change : LspQueueHandle → LspQueueHandle) :
      (change shared.queue).itemsize = shared.queue.itemsize →
      (∀ request deadline, place' ≠ .blocked request deadline) →
      Effect thread shared place (shared.change change) place'
  | blocks {request : QueueRequest} {deadline : Option Timespec} :
      Effect thread shared (.waiting request) (shared.block thread request)
        (.blocked request deadline)
  | wakes {request : QueueRequest} {deadline : Option Timespec}
      {result : WaitResult} {woken : QueueShared Tid} :
      shared.wake thread deadline result request = some woken →
      Effect thread shared (.blocked request deadline) woken
        (.uncounting request result)
  | signals {request : QueueRequest} {pick : Tid}
      {signalled : QueueShared Tid} :
      shared.signal pick request = some signalled →
      Effect thread shared (.signalling request) signalled
        (.unlocking request lspErrNone)

theorem effect_of_run {thread : Tid} {shared shared' : QueueShared Tid}
    {place place' : QueuePlace} {choice : QueueChoice Tid}
    {outcome : Option (QueueReturn Tid)}
    (runs : run thread shared place choice =
      some (shared', place', outcome)) :
    Effect thread shared place shared' place' := by
  have nothing : ∀ {place place' : QueuePlace},
      (∀ request deadline, place' ≠ .blocked request deadline) →
      Effect thread shared place shared place' := fun elsewhere =>
    .changes id rfl elsewhere
  cases choice with
  | call request =>
      cases place with
      | outside =>
          cases runs
          exact nothing (by simp)
      | _ => cases runs
  | lock succeeds =>
      cases place with
      | locking request =>
          cases succeeds <;> cases runs <;> exact nothing (by simp)
      | _ => cases runs
  | wake result =>
      cases place with
      | blocked request deadline =>
          obtain ⟨woken, wakes, same⟩ := Option.map_eq_some_iff.mp runs
          cases same
          exact .wakes wakes
      | _ => cases runs
  | go clock pick =>
      cases place with
      | outside | locking | blocked => cases runs
      | testing request =>
          simp only [run] at runs
          split at runs
          · split at runs <;> cases runs <;> exact nothing (by simp)
          · cases runs
            exact nothing (by simp)
      | waiting request =>
          simp only [run] at runs
          split at runs <;> cases runs
          · exact nothing (by simp)
          · exact .blocks
      | uncounting request result =>
          cases result <;> cases runs <;>
            exact .changes _ (by simp) (by simp)
      | copying request byte =>
          simp only [run] at runs
          split at runs <;> cases runs
          · exact .changes _ (by simp) (by simp)
          · exact nothing (by simp)
      | signalling request =>
          obtain ⟨signalled, signals, same⟩ := Option.map_eq_some_iff.mp runs
          cases same
          exact .signals signals
      | unlocking request rc =>
          cases runs
          exact nothing (by simp)
      | counting | advancing | wrapping | resizing =>
          cases runs
          exact .changes _ (by simp) (by simp)

theorem Effect.itemsize {thread : Tid} {shared shared' : QueueShared Tid}
    {place place' : QueuePlace}
    (effect : Effect thread shared place shared' place') :
    shared'.queue.itemsize = shared.queue.itemsize := by
  cases effect with
  | changes change same _ => exact same
  | @blocks request => cases request <;> rfl
  | @wakes request _ _ _ wakes =>
      cases request <;>
        (obtain ⟨_, _, rfl⟩ := Option.map_eq_some_iff.mp wakes; rfl)
  | @signals request _ _ signals =>
      cases request <;>
        (obtain ⟨_, _, rfl⟩ := Option.map_eq_some_iff.mp signals; rfl)

/-- Some waiter can be picked for every signal. -/
theorem exists_signal (shared : QueueShared Tid) (request : QueueRequest)
    (thread : Tid) :
    ∃ pick, (shared.signal pick request).isSome = true := by
  have exists_pick : ∀ cond : CondVar Tid,
      ∃ pick, (cond.signal pick).isSome = true := by
    rintro ⟨sleeping, signalled⟩
    cases sleeping with
    | nil => exact ⟨thread, rfl⟩
    | cons first rest => exact ⟨first, by simp [CondVar.signal]⟩
  cases request with
  | push item timeout =>
      obtain ⟨pick, signals⟩ := exists_pick shared.condEmpty
      exact ⟨pick, by simpa [QueueShared.signal] using signals⟩
  | pop data timeout =>
      obtain ⟨pick, signals⟩ := exists_pick shared.condFull
      exact ⟨pick, by simpa [QueueShared.signal] using signals⟩

theorem run_isSome (thread : Tid) (shared : QueueShared Tid)
    {place : QueuePlace} (held : place.holds = true)
    (clock : Option Timespec) :
    ∃ pick, (run thread shared place (.go clock pick)).isSome = true := by
  cases place with
  | outside | locking request | blocked request deadline => cases held
  | testing request =>
      refine ⟨thread, ?_⟩
      simp only [run]
      split
      · split <;> rfl
      · rfl
  | waiting request =>
      refine ⟨thread, ?_⟩
      simp only [run]
      split <;> rfl
  | uncounting request result =>
      refine ⟨thread, ?_⟩
      cases result <;> rfl
  | copying request byte =>
      refine ⟨thread, ?_⟩
      simp only [run]
      split <;> rfl
  | signalling request =>
      obtain ⟨pick, signals⟩ := exists_signal shared request thread
      exact ⟨pick, by simpa [run] using signals⟩
  | counting request | advancing request | wrapping request
  | resizing request | unlocking request rc => exact ⟨thread, rfl⟩

theorem nears : (@statements Tid _).Nears rank := by
  intro thread shared place choice shared' place' outcome held runs
  have size := (effect_of_run runs).itemsize
  cases choice with
  | call | lock | wake => cases place <;> cases held <;> cases runs
  | go clock pick =>
      cases place with
      | outside | locking | blocked => cases held
      | testing request =>
          simp only [statements, run] at runs
          split at runs
          · split at runs <;> cases runs <;> simp only [rank] <;> omega
          · cases runs
            simp only [rank]
            omega
      | waiting request =>
          simp only [statements, run] at runs
          split at runs <;> cases runs <;> simp only [rank] <;> omega
      | uncounting request result =>
          cases result <;> cases runs <;> simp only [rank] <;> omega
      | copying request byte =>
          simp only [statements, run] at runs
          split at runs <;> cases runs <;> simp only [rank] <;> omega
      | signalling request =>
          obtain ⟨_, _, same⟩ := Option.map_eq_some_iff.mp runs
          cases same
          simp only [rank]
          omega
      | counting | advancing | wrapping | resizing | unlocking =>
          cases runs
          simp only [rank]
          omega

omit [DecidableEq Tid] in
theorem rank_le (shared : QueueShared Tid) (place : QueuePlace) :
    rank shared place ≤ shared.queue.itemsize + 7 := by
  cases place with
  | uncounting request result => cases result <;> simp only [rank] <;> omega
  | _ =>
      simp only [rank]
      omega

section Examples

open QueueThreads (oneEntryQueue)

end Examples

end QueueAccesses

namespace EgroupAccesses

variable {Tid : Type} [DecidableEq Tid]

/-- How many statements are left until the mutex is free. -/
def rank (_ : EgroupShared Tid) : EgroupPlace → Nat
  | .choosing _ => 8
  | .woken _ .einval => 4
  | .woken .. => 8
  | .timed _ => 7
  | .forever _ | .reckoning _ => 6
  | .waiting .. => 5
  | .reading _ => 3
  | .clearing .. => 2
  | .unlocking _ => 1
  | .setting _ => 3
  | .broadcasting => 2
  | .setUnlocking => 1
  | .outside | .starting _ | .locking .. | .blocked _ | .setLocking _ => 0

theorem run_isSome (thread : Tid) (shared : EgroupShared Tid)
    {place : EgroupPlace} (held : place.holds = true)
    (clock : Option Timespec) :
    (run thread shared place (.go clock)).isSome = true := by
  cases place with
  | outside | starting request | locking request start | blocked call
  | setLocking bits => cases held
  | choosing call =>
      simp only [run]
      split
      · rfl
      · split <;> rfl
  | forever call | timed call | waiting call timeout =>
      simp only [run]
      split <;> rfl
  | woken call result =>
      simp only [run]
      split
      · split <;> rfl
      · split
        · rfl
        · split <;> rfl
  | reckoning call | reading call | clearing call ebits | unlocking ebits
  | setting bits | broadcasting | setUnlocking => rfl

theorem nears : (@statements Tid _).Nears rank := by
  intro thread shared place choice shared' place' outcome held runs
  obtain ⟨clock, rfl⟩ := go_of_run held runs
  cases place with
  | outside | starting | locking | blocked | setLocking => cases held
  | choosing call =>
      simp only [statements, run] at runs
      split at runs
      · cases runs
        simp [rank]
      · split at runs <;> cases runs <;> simp [rank]
  | forever call | timed call | waiting call timeout =>
      simp only [statements, run] at runs
      split at runs <;> cases runs <;> simp [rank]
  | woken call result =>
      -- A wait that was refused ends both loops.
      cases result with
      | ok =>
          simp only [statements, run, ne_eq, not_true_eq_false, false_and,
            if_false] at runs
          split at runs
          · cases runs
            simp [rank]
          · split at runs <;> cases runs <;> simp [rank]
      | etimedout =>
          simp only [statements, run, ne_eq, reduceCtorEq,
            not_false_eq_true, if_true, not_true_eq_false, and_false,
            if_false] at runs
          split at runs
          · cases runs
            simp [rank]
          · split at runs <;> cases runs <;> simp [rank]
      | einval =>
          simp only [statements, run, ne_eq, reduceCtorEq,
            not_false_eq_true, if_true, and_self] at runs
          split at runs <;> cases runs <;> simp [rank]
  | reckoning | reading | clearing | unlocking | setting | broadcasting
  | setUnlocking =>
      cases runs
      simp [rank]

omit [DecidableEq Tid] in
theorem rank_le (shared : EgroupShared Tid) (place : EgroupPlace) :
    rank shared place ≤ 8 := by
  cases place with
  | woken call result => cases result <;> simp [rank]
  | _ => simp [rank]

/-- Whoever holds the mutex of an event group has a next statement and gives
the mutex back within eight of its statements, whatever the other threads do
meanwhile. -/
theorem handsBack_of_run {accesses : List (Tid × EgroupChoice)}
    {s : Interleaving Tid (EgroupShared Tid) EgroupPlace}
    (run : Run step Anywhere initial accesses s) {holder : Tid}
    (holds : s.owner = some holder) :
    (∀ clock, (step s (holder, .go clock)).isSome = true) ∧
      ∀ later s', Run step (fun s _ => s.owner = some holder) s later s' →
        later.countP (fun access => access.1 = holder) ≤ 8 := by
  have owned := owned_of_run run
  have held := (owned holder).mp holds
  constructor
  · intro clock
    have executes :=
      statements.exec_isSome held (run_isSome holder s.shared held clock)
    simpa [step] using executes
  · intro later s' continued
    have bound := nears.rank_run disciplined owned continued
    have limit := rank_le s.shared (s.place holder)
    omega

section Examples

/-- A thread with a timeout has the mutex, another one is about to set a
bit. -/
def waitsWithTimeout : List (Nat × EgroupChoice) :=
  [(0, .wait ⟨3, true, true, 20⟩), (0, .go (some ⟨5, 0⟩)), (1, .set 1),
    (0, .lock), (0, .go none)]

/-- The waiter gives the mutex back, be it by blocking. -/
theorem handsBack_of_waitsWithTimeout :
    ∃ s, Run step Anywhere initial waitsWithTimeout s ∧
      s.owner = some 0 ∧
      (∀ clock, (step s (0, .go clock)).isSome = true) ∧
      ∀ later s', Run step (fun s _ => s.owner = some 0) s later s' →
        later.countP (fun access => access.1 = 0) ≤ 8 := by
  have executed :
      (execute step Anywhere initial waitsWithTimeout).map
        (fun s => s.owner) = some (some 0) := by
    decide
  obtain ⟨s, run, holds⟩ := exists_run_of_execute executed
  exact ⟨s, run, holds, handsBack_of_run run holds⟩

end Examples

end EgroupAccesses

end Liblsp
