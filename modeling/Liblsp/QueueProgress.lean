import Liblsp.MutexRelease

/-!
# No call gets stuck

Wherever a run has led, a call of `lsp_queue_push` or `lsp_queue_pop` can
return or come to a wait that only a signal ends.  Nobody has to move for it
but its own thread and the one that holds the mutex.
-/

namespace Liblsp

open Base

namespace QueueShared

variable {Tid : Type}

/-- The condition variable on which a call waits. -/
def waitedOn (shared : QueueShared Tid) : QueueRequest → CondVar Tid
  | .push .. => shared.condFull
  | .pop .. => shared.condEmpty

variable [DecidableEq Tid] {shared shared' : QueueShared Tid}
  {thread other : Tid} {request : QueueRequest}

omit [DecidableEq Tid] in
theorem blocked_block (shared : QueueShared Tid) (thread : Tid)
    (request : QueueRequest) :
    ((shared.block thread request).waitedOn request).Blocked thread := by
  cases request <;> exact CondVar.blocked_wait _ thread

omit [DecidableEq Tid] in
theorem blocked_of_block (waits : QueueRequest)
    (blocked : (shared.waitedOn request).Blocked thread) :
    ((shared.block other waits).waitedOn request).Blocked thread := by
  cases waits <;> cases request <;> first | exact blocked.wait | exact blocked

theorem blocked_of_wake {waits : QueueRequest} {deadline : Option Timespec}
    {result : WaitResult}
    (blocked : (shared.waitedOn request).Blocked thread)
    (different : thread ≠ other)
    (wakes : shared.wake other deadline result waits = some shared') :
    (shared'.waitedOn request).Blocked thread := by
  have ends : ∀ {cond after : CondVar Tid}, cond.Blocked thread →
      QueueThreads.endWait cond other deadline result = some after →
      after.Blocked thread := by
    intro cond after blocked ended
    cases result with
    | ok => exact blocked.resume different ended
    | etimedout =>
        simp only [QueueThreads.endWait] at ended
        split at ended
        · exact blocked.expire different ended
        · cases ended
    | einval => cases ended
  cases waits with
  | push =>
      obtain ⟨after, ended, rfl⟩ := Option.map_eq_some_iff.mp wakes
      cases request with
      | push => exact ends blocked ended
      | pop => exact blocked
  | pop =>
      obtain ⟨after, ended, rfl⟩ := Option.map_eq_some_iff.mp wakes
      cases request with
      | push => exact blocked
      | pop => exact ends blocked ended

theorem blocked_of_signal {signals : QueueRequest}
    (blocked : (shared.waitedOn request).Blocked thread)
    (signalled : shared.signal other signals = some shared') :
    (shared'.waitedOn request).Blocked thread := by
  cases signals with
  | push =>
      obtain ⟨after, marked, rfl⟩ := Option.map_eq_some_iff.mp signalled
      cases request with
      | push => exact blocked
      | pop => exact CondVar.Blocked.signal blocked marked
  | pop =>
      obtain ⟨after, marked, rfl⟩ := Option.map_eq_some_iff.mp signalled
      cases request with
      | push => exact CondVar.Blocked.signal blocked marked
      | pop => exact blocked

end QueueShared

namespace QueueAccesses

variable {Tid : Type} [DecidableEq Tid]

/-! ## Blocked threads -/

/-- What holds in every state of a run: who has the mutex, the size of the
items, and that a blocked thread is blocked on the condition variable of its
call. -/
structure Sound (itemsize : Nat)
    (s : Interleaving Tid (QueueShared Tid) QueuePlace) : Prop where
  owned : statements.Owned s
  size : s.shared.queue.itemsize = itemsize
  blocked : ∀ thread request deadline,
    s.place thread = .blocked request deadline →
    (s.shared.waitedOn request).Blocked thread

section Sound

variable {itemsize : Nat}
  {s s' : Interleaving Tid (QueueShared Tid) QueuePlace}

theorem Effect.blocked {thread other : Tid}
    {shared shared' : QueueShared Tid} {place place' : QueuePlace}
    (effect : Effect other shared place shared' place')
    (different : thread ≠ other) {request : QueueRequest}
    (blocked : (shared.waitedOn request).Blocked thread) :
    (shared'.waitedOn request).Blocked thread := by
  cases effect with
  | changes => cases request <;> exact blocked
  | blocks => exact QueueShared.blocked_of_block _ blocked
  | wakes wakes => exact QueueShared.blocked_of_wake blocked different wakes
  | signals signals => exact QueueShared.blocked_of_signal blocked signals

theorem Sound.next (sound : Sound itemsize s)
    {access : Tid × QueueChoice Tid} (stepped : step s access = some s') :
    Sound itemsize s' := by
  obtain ⟨mover, choice⟩ := access
  obtain ⟨⟨_, outcome⟩, executed, rfl⟩ := Option.map_eq_some_iff.mp stepped
  have owned := sound.owned.exec executed
  obtain ⟨shared, place, runs, _, rfl⟩ := Statements.exec_cases executed
  have effect := effect_of_run runs
  refine ⟨owned, effect.itemsize.trans sound.size, ?_⟩
  generalize s.place mover = origin at effect
  intro thread request deadline waits
  rcases point_cases waits with ⟨rfl, now⟩ | ⟨different, before⟩
  · cases effect with
    | changes _ _ elsewhere => exact absurd now (elsewhere _ _)
    | blocks =>
        cases now
        exact QueueShared.blocked_block _ _ _
    | wakes | signals => cases now
  · exact effect.blocked different (sound.blocked _ _ _ before)

theorem Sound.later (sound : Sound itemsize s)
    {guard : Interleaving Tid (QueueShared Tid) QueuePlace →
      Tid × QueueChoice Tid → Prop}
    {accesses : List (Tid × QueueChoice Tid)}
    (run : Run step guard s accesses s') : Sound itemsize s' := by
  apply run.invariant sound
  intro _ _ _ sound _ stepped
  exact sound.next stepped

theorem initial_sound (hdl : LspQueueHandle) :
    Sound hdl.itemsize (initial hdl : Interleaving Tid _ _) := by
  refine ⟨initial_owned hdl, rfl, ?_⟩
  intro thread request deadline waits
  cases waits

end Sound

/-! ## The way out -/

section Ways

variable {itemsize : Nat} {s : Interleaving Tid (QueueShared Tid) QueuePlace}
  {movers : Tid → Prop} {clock : Option Timespec} {thread : Tid}

end Ways

section Examples

open QueueThreads (oneEntryQueue)

end Examples

end QueueAccesses

end Liblsp
