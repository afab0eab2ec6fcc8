import Liblsp.QueueAccesses

/-!
# Sections of pushes and pops are atomic

Whatever the threads do statement by statement, they get what they would get
if every section that holds the mutex were one step.  So all that is proved
about `QueueThreads` holds of the statements, too.
-/

namespace Liblsp

open Base


def QueueAction.thread {Tid : Type} : QueueAction Tid → Tid
  | .lockFails thread | .push thread .. | .pushResumes thread ..
  | .pop thread .. | .popResumes thread .. => thread

namespace QueuePlace

/-- Where a thread without the mutex is in `QueueThreads`. -/
def call : QueuePlace → Option QueueCall
  | .outside | .locking _ => some .outside
  | .blocked (.push item _) deadline => some (.pushing item deadline)
  | .blocked (.pop ..) deadline => some (.popping deadline)
  | _ => none

end QueuePlace

namespace QueueThreads

variable {Tid : Type}

def shared (s : QueueThreads Tid) : QueueShared Tid :=
  { queue := s.queue, condFull := s.condFull, condEmpty := s.condEmpty }

/-- What the caller gets when a section returns. -/
def returned (s : QueueThreads Tid) (action : QueueAction Tid)
    (outcome : Option Int) : Option (QueueReturn Tid) :=
  outcome.map fun rc =>
    ((action.thread, s.operation action), rc,
      (s.operation action).bind fun op => op.copied s.queue rc)

/-- Nobody holds the mutex, and the threads are where the places say. -/
structure Agrees (shared : QueueShared Tid) (places : Tid → QueuePlace)
    (s : QueueThreads Tid) : Prop where
  shared : s.shared = shared
  calls : ∀ thread, (places thread).call = some (s.call thread)

variable [DecidableEq Tid]

theorem calls_update {s : QueueThreads Tid} {places : Tid → QueuePlace}
    (calls : ∀ thread, (places thread).call = some (s.call thread))
    {mover : Tid} {place : QueuePlace} {call : QueueCall}
    (arrives : place.call = some call) (thread : Tid) :
    (Function.update places mover place thread).call =
      some (Function.update s.call mover call thread) := by
  by_cases same : thread = mover
  · subst thread
    rw [Function.update_self, Function.update_self]
    exact arrives
  · rw [Function.update_of_ne same, Function.update_of_ne same]
    exact calls thread

theorem calls_outside {s : QueueThreads Tid} {places : Tid → QueuePlace}
    (calls : ∀ thread, (places thread).call = some (s.call thread))
    {mover : Tid} {place : QueuePlace} (outside : s.call mover = .outside)
    (arrives : place.call = some .outside) (thread : Tid) :
    (Function.update places mover place thread).call =
      some (s.call thread) := by
  have moved := @calls_update _ _ s places calls mover place _ arrives thread
  rw [← outside, Function.update_eq_self] at moved
  exact moved

/-- Some steps of the sections lead to this state and return this. -/
def Follows (strict : Prop) (s : QueueThreads Tid)
    (shared : QueueShared Tid) (places : Tid → QueuePlace)
    (outcome : Option (QueueReturn Tid)) : Prop :=
  ∃ actions s',
    Run (fun s action => (s.exec action).map Prod.fst)
        (fun s action => strict → WakesInTime s action) s actions s' ∧
      history exec returned s actions = outcome.toList ∧
      s'.Agrees shared places

section Sections

variable {strict : Prop} {s s' : QueueThreads Tid}
  {places : Tid → QueuePlace} {place : QueuePlace}
  {thread pick : Tid} {request : QueueRequest} {rc : Int}

theorem follows_of_exec (action : QueueAction Tid) {outcome : Option Int}
    {shared : QueueShared Tid} {result : Option (QueueReturn Tid)}
    (inTime : strict → WakesInTime s action)
    (executed : s.exec action = some (s', outcome))
    (same : s.returned action outcome = result)
    (agrees : s'.Agrees shared places) :
    s.Follows strict shared places result := by
  have step : Run (fun s action => (s.exec action).map Prod.fst)
      (fun s action => strict → WakesInTime s action) s [action] s' ∧
      history exec returned s [action] =
        (s.returned action outcome).toList :=
    run_of_exec inTime executed
  exact ⟨[action], s', step.1, step.2.trans (congrArg _ same), agrees⟩

/-- A section that ends in `queue_wait_internal`. -/
theorem follows_blocks {clock : Option Timespec}
    (calls : ∀ thread, (places thread).call = some (s.call thread))
    (outside : s.call thread = .outside)
    (waits : request.mustWait s.queue = true) (timed : request.timeout > 0)
    (accepted : deadlineRefused
      (queueWaitInternal request.timeout clock) = false) :
    s.Follows strict
      ((s.shared.change request.countUp).block thread request)
      (Function.update places thread (.blocked request
        (queueWaitInternal request.timeout clock))) none := by
  cases request with
  | push item timeout =>
      have locked : lspQueuePushLocked s.queue item timeout clock =
          ({ s.queue with waitingFull := toInt (s.queue.waitingFull + 1) },
            .wait (queueWaitInternal timeout clock)) := by
        have full : s.queue.isFull = true := waits
        have positive : timeout > 0 := timed
        have fine : deadlineRefused (queueWaitInternal timeout clock) =
          false := accepted
        simp [lspQueuePushLocked, full, positive, fine]
      have executed : s.exec (.push thread item timeout clock thread) =
          some ({ s with
            queue :=
              { s.queue with waitingFull := toInt (s.queue.waitingFull + 1) }
            condFull := s.condFull.wait thread
            call := Function.update s.call thread
              (.pushing item (queueWaitInternal timeout clock)) }, none) := by
        simp only [exec, outside, locked]
      exact follows_of_exec (.push thread item timeout clock thread)
        (fun _ => trivial) executed rfl ⟨rfl, calls_update calls rfl⟩
  | pop data timeout =>
      have locked : lspQueuePopLocked s.queue timeout clock =
          ({ s.queue with waitingEmpty := toInt (s.queue.waitingEmpty + 1) },
            .wait (queueWaitInternal timeout clock)) := by
        have empty : s.queue.isEmpty = true := waits
        have positive : timeout > 0 := timed
        have fine : deadlineRefused (queueWaitInternal timeout clock) =
          false := accepted
        simp [lspQueuePopLocked, empty, positive, fine]
      have executed : s.exec (.pop thread timeout clock thread) =
          some ({ s with
            queue :=
              { s.queue with
                waitingEmpty := toInt (s.queue.waitingEmpty + 1) }
            condEmpty := s.condEmpty.wait thread
            call := Function.update s.call thread
              (.popping (queueWaitInternal timeout clock)) }, none) := by
        simp only [exec, outside, locked]
      exact follows_of_exec (.pop thread timeout clock thread)
        (fun _ => trivial) executed rfl ⟨rfl, calls_update calls rfl⟩

section Returns

variable {item : Nat → UInt8} {timeout : UInt32} {clock : Option Timespec}
  {deadline : Option Timespec} {result : WaitResult} {hdl : LspQueueHandle}
  {shared : QueueShared Tid} {condFull condEmpty : CondVar Tid}

/-- What is left of a thread that has returned. -/
structure Returned (s s' : QueueThreads Tid) (thread : Tid)
    (shared : QueueShared Tid) : Prop where
  shared : s'.shared = shared
  call : s'.call = Function.update s.call thread .outside

theorem Returned.agrees (left : Returned s s' thread shared)
    (calls : ∀ thread, (places thread).call = some (s.call thread)) :
    s'.Agrees shared (Function.update places thread .outside) := by
  refine ⟨left.shared, ?_⟩
  rw [left.call]
  exact calls_update calls rfl

theorem follows_push (pick : Tid)
    (calls : ∀ thread, (places thread).call = some (s.call thread))
    (outside : s.call thread = .outside)
    (locked : lspQueuePushLocked s.queue item timeout clock = (hdl, .ret rc))
    (finished : s.finishPush thread pick item hdl rc = some (s', some rc))
    (left : Returned s s' thread shared) :
    s.Follows strict shared (Function.update places thread .outside)
      (some ((thread, some (.push item)), rc, none)) := by
  have executed : s.exec (.push thread item timeout clock pick) =
      some (s', some rc) := by
    simp only [exec, outside, locked, finished]
  exact follows_of_exec (.push thread item timeout clock pick)
    (fun _ => trivial) executed rfl (left.agrees calls)

theorem follows_pushResumes (pick : Tid)
    (calls : ∀ thread, (places thread).call = some (s.call thread))
    (inTime : strict → s.WakesInTime (.pushResumes thread result pick))
    (blocked : s.call thread = .pushing item deadline)
    (woken : endWait s.condFull thread deadline result = some condFull)
    (resumed : lspQueuePushResumed s.queue item result = (hdl, rc))
    (finished : ({ s with condFull := condFull } :
      QueueThreads Tid).finishPush thread pick item hdl rc =
        some (s', some rc))
    (left : Returned s s' thread shared) :
    s.Follows strict shared (Function.update places thread .outside)
      (some ((thread, some (.push item)), rc, none)) := by
  have executed : s.exec (.pushResumes thread result pick) =
      some (s', some rc) := by
    simp only [exec, blocked, woken, Option.bind_some, resumed, finished]
  refine follows_of_exec (.pushResumes thread result pick) inTime executed ?_
    (left.agrees calls)
  simp only [returned, operation, blocked]
  rfl

theorem follows_pop (pick : Tid)
    (calls : ∀ thread, (places thread).call = some (s.call thread))
    (outside : s.call thread = .outside)
    (locked : lspQueuePopLocked s.queue timeout clock = (hdl, .ret rc))
    (finished : s.finishPop thread pick hdl rc = some (s', some rc))
    (left : Returned s s' thread shared) :
    s.Follows strict shared (Function.update places thread .outside)
      (some ((thread, some .pop), rc, QueueOp.pop.copied s.queue rc)) := by
  have executed : s.exec (.pop thread timeout clock pick) =
      some (s', some rc) := by
    simp only [exec, outside, locked, finished]
  exact follows_of_exec (.pop thread timeout clock pick)
    (fun _ => trivial) executed rfl (left.agrees calls)

theorem follows_popResumes (pick : Tid)
    (calls : ∀ thread, (places thread).call = some (s.call thread))
    (inTime : strict → s.WakesInTime (.popResumes thread result pick))
    (blocked : s.call thread = .popping deadline)
    (woken : endWait s.condEmpty thread deadline result = some condEmpty)
    (resumed : lspQueuePopResumed s.queue result = (hdl, rc))
    (finished : ({ s with condEmpty := condEmpty } :
      QueueThreads Tid).finishPop thread pick hdl rc = some (s', some rc))
    (left : Returned s s' thread shared) :
    s.Follows strict shared (Function.update places thread .outside)
      (some ((thread, some .pop), rc, QueueOp.pop.copied s.queue rc)) := by
  have executed : s.exec (.popResumes thread result pick) =
      some (s', some rc) := by
    simp only [exec, blocked, woken, Option.bind_some, resumed, finished]
  exact follows_of_exec (.popResumes thread result pick) inTime executed rfl
    (left.agrees calls)

theorem finishPush_failed (failed : rc ≠ lspErrNone) :
    s.finishPush thread pick item hdl rc =
      some ({ s with
        queue := hdl
        call := Function.update s.call thread .outside }, some rc) := by
  simp only [finishPush, if_neg failed]

theorem finishPop_failed (failed : rc ≠ lspErrNone) :
    s.finishPop thread pick hdl rc =
      some ({ s with
        queue := hdl
        call := Function.update s.call thread .outside }, some rc) := by
  simp only [finishPop, if_neg failed]

theorem finishPush_stored
    (signals : s.condEmpty.signal pick = some condEmpty) :
    s.finishPush thread pick item hdl lspErrNone =
      some ({ s with
        queue := hdl
        condEmpty := condEmpty
        call := Function.update s.call thread .outside
        pushed := s.pushed ++ [s.queue.block item] }, some lspErrNone) := by
  simp only [finishPush, if_true, signals, Option.map_some]

theorem finishPop_taken (signals : s.condFull.signal pick = some condFull) :
    s.finishPop thread pick hdl lspErrNone =
      some ({ s with
        queue := hdl
        condFull := condFull
        call := Function.update s.call thread .outside
        popped := s.popped ++ [s.queue.entry s.queue.head] },
        some lspErrNone) := by
  simp only [finishPop, if_true, signals, Option.map_some]

end Returns

end Sections

section Endings

open QueueAccesses (Failed Granted)

variable {strict : Prop} {s : QueueThreads Tid} {places : Tid → QueuePlace}
  {thread pick : Tid} {before : QueuePlace} {request copied : QueueRequest}
  {rc : Int} {shared signalled : QueueShared Tid} {hdl : LspQueueHandle}

/-- A section without a copy returns what the section function returns. -/
theorem follows_failed
    (failed : Failed thread s.shared before request rc shared)
    (calls : ∀ thread, (places thread).call = some (s.call thread))
    (origin : before.call = some (s.call thread)) :
    s.Follows strict shared (Function.update places thread .outside)
      (some ((thread, some request.op), rc,
        request.copied shared.queue.itemsize rc)) := by
  cases failed with
  | refused waits untimed =>
      have outside : s.call thread = .outside := (Option.some.inj origin).symm
      cases request with
      | push item timeout =>
          have full : s.queue.isFull = true := waits
          have locked : lspQueuePushLocked s.queue item timeout none =
              (s.queue, .ret lspErrQueueFull) := by
            have instant : ¬timeout > 0 := untimed
            simp [lspQueuePushLocked, full, instant]
          have failed : lspErrQueueFull ≠ lspErrNone := by decide
          exact follows_push thread calls outside locked
            (finishPush_failed failed) ⟨rfl, rfl⟩
      | pop data timeout =>
          have empty : s.queue.isEmpty = true := waits
          have locked : lspQueuePopLocked s.queue timeout none =
              (s.queue, .ret lspErrQueueEmpty) := by
            have instant : ¬timeout > 0 := untimed
            simp [lspQueuePopLocked, empty, instant]
          have failed : lspErrQueueEmpty ≠ lspErrNone := by decide
          exact follows_pop thread calls outside locked
            (finishPop_failed failed) ⟨rfl, rfl⟩
  | @invalid _ clock waits timed refused =>
      have outside : s.call thread = .outside := (Option.some.inj origin).symm
      have failed : lspErrInvalid ≠ lspErrNone := by decide
      cases request with
      | push item timeout =>
          have full : s.queue.isFull = true := waits
          have locked : lspQueuePushLocked s.queue item timeout clock =
              ({ s.queue with
                waitingFull := toInt (toInt (s.queue.waitingFull + 1) - 1) },
                .ret lspErrInvalid) := by
            have positive : timeout > 0 := timed
            have rejected : deadlineRefused
              (queueWaitInternal timeout clock) = true := refused
            simp [lspQueuePushLocked, full, positive, rejected,
              lspQueuePushResumed]
          exact follows_push thread calls outside locked
            (finishPush_failed failed) ⟨rfl, rfl⟩
      | pop data timeout =>
          have empty : s.queue.isEmpty = true := waits
          have locked : lspQueuePopLocked s.queue timeout clock =
              ({ s.queue with
                waitingEmpty := toInt (toInt (s.queue.waitingEmpty + 1) - 1) },
                .ret lspErrInvalid) := by
            have positive : timeout > 0 := timed
            have rejected : deadlineRefused
              (queueWaitInternal timeout clock) = true := refused
            simp [lspQueuePopLocked, empty, positive, rejected,
              lspQueuePopResumed]
          exact follows_pop thread calls outside locked
            (finishPop_failed failed) ⟨rfl, rfl⟩
  | expired woken =>
      have failed : lspErrTimeout ≠ lspErrNone := by decide
      cases request with
      | push item timeout =>
          have blocked := (Option.some.inj origin).symm
          obtain ⟨condFull, ended, rfl⟩ := Option.map_eq_some_iff.mp woken
          have inTime : strict →
            s.WakesInTime (.pushResumes thread .etimedout thread) :=
            fun _ => trivial
          exact follows_pushResumes thread calls inTime blocked ended rfl
            (finishPush_failed failed) ⟨rfl, rfl⟩
      | pop data timeout =>
          have blocked := (Option.some.inj origin).symm
          obtain ⟨condEmpty, ended, rfl⟩ := Option.map_eq_some_iff.mp woken
          have inTime : strict →
            s.WakesInTime (.popResumes thread .etimedout thread) :=
            fun _ => trivial
          exact follows_popResumes thread calls inTime blocked ended rfl
            (finishPop_failed failed) ⟨rfl, rfl⟩

/-- A section with a copy stores or takes one item. -/
theorem follows_granted
    (granted : Granted strict thread s.shared before request shared)
    (bytes : request.allCopied shared.queue = (hdl, copied))
    (signals : (shared.change fun _ => copied.settle hdl).signal pick copied =
      some signalled)
    (calls : ∀ thread, (places thread).call = some (s.call thread))
    (origin : before.call = some (s.call thread)) :
    s.Follows strict signalled (Function.update places thread .outside)
      (some ((thread, some copied.op), lspErrNone,
        copied.copied signalled.queue.itemsize lspErrNone)) := by
  obtain rfl : (request.allCopied shared.queue).1 = hdl :=
    congrArg Prod.fst bytes
  obtain rfl : (request.allCopied shared.queue).2 = copied :=
    congrArg Prod.snd bytes
  cases granted with
  | atOnce ready =>
      have outside : s.call thread = .outside := (Option.some.inj origin).symm
      cases request with
      | push item timeout =>
          rw [QueueRequest.settle_push] at signals
          obtain ⟨condEmpty, signal, rfl⟩ := Option.map_eq_some_iff.mp signals
          have room : s.queue.isFull = false := ready
          have locked : lspQueuePushLocked s.queue item timeout none =
              (s.queue.store item, .ret lspErrNone) := by
            simp [lspQueuePushLocked, room]
          exact follows_push pick calls outside locked
            (finishPush_stored signal) ⟨rfl, rfl⟩
      | pop data timeout =>
          rw [QueueRequest.settle_pop] at signals
          obtain ⟨condFull, signal, rfl⟩ := Option.map_eq_some_iff.mp signals
          have filled : s.queue.isEmpty = false := ready
          have locked : lspQueuePopLocked s.queue timeout none =
              (s.queue.take, .ret lspErrNone) := by
            simp [lspQueuePopLocked, filled]
          have follows : s.Follows strict _ _ _ :=
            follows_pop pick calls outside locked (finishPop_taken signal)
              ⟨rfl, rfl⟩
          have answer := QueueRequest.copied_pop s.queue data timeout
          have entry : QueueOp.pop.copied s.queue lspErrNone =
            some (s.queue.entry s.queue.head) := rfl
          rw [entry] at follows
          exact answer ▸ follows
  | woken inTime woken =>
      cases request with
      | push item timeout =>
          have blocked := (Option.some.inj origin).symm
          obtain ⟨condFull, ended, rfl⟩ := Option.map_eq_some_iff.mp woken
          rw [QueueRequest.settle_push] at signals
          obtain ⟨condEmpty, signal, rfl⟩ := Option.map_eq_some_iff.mp signals
          have punctual : strict →
            s.WakesInTime (.pushResumes thread .ok pick) := inTime
          exact follows_pushResumes pick calls punctual blocked ended rfl
            (finishPush_stored signal) ⟨rfl, rfl⟩
      | pop data timeout =>
          have blocked := (Option.some.inj origin).symm
          obtain ⟨condEmpty, ended, rfl⟩ := Option.map_eq_some_iff.mp woken
          rw [QueueRequest.settle_pop] at signals
          obtain ⟨condFull, signal, rfl⟩ := Option.map_eq_some_iff.mp signals
          have punctual : strict →
            s.WakesInTime (.popResumes thread .ok pick) := inTime
          have follows : s.Follows strict _ _ _ :=
            follows_popResumes pick calls punctual blocked ended rfl
              (finishPop_taken signal) ⟨rfl, rfl⟩
          have answer := QueueRequest.copied_pop
            { s.queue with
              waitingEmpty := toInt (s.queue.waitingEmpty - 1) } data timeout
          have entry : QueueOp.pop.copied s.queue lspErrNone =
            some (s.queue.entry s.queue.head) := rfl
          rw [entry] at follows
          exact answer ▸ follows

end Endings

/-- A thread that runs alone takes one section, or none. -/
theorem matchesSections (strict : Prop) :
    (@QueueAccesses.statements Tid _).MatchesSections
      (QueueAccesses.Admitted strict)
      (fun shared places s => s.Agrees shared places)
      (fun s action => strict → WakesInTime s action) exec returned := by
  intro thread start places s shared place outcome agrees unheld whole
  obtain ⟨rfl, calls⟩ := agrees
  have origin := calls thread
  have outside := unheld thread
  generalize places thread = before at whole origin outside
  cases whole with
  | outside _ _ runs still =>
      cases QueueAccesses.outside_of_run outside runs with
      | calls =>
          have idle := (Option.some.inj origin).symm
          exact ⟨[], s, .nil, rfl, rfl, calls_outside calls idle rfl⟩
      | lockFails =>
          have idle := (Option.some.inj origin).symm
          have executed : s.exec (.lockFails thread) =
              some (s, some lspErrMutex) := by
            simp only [exec, idle]
          exact follows_of_exec (.lockFails thread) (fun _ => trivial)
            executed rfl ⟨rfl, calls_outside calls idle rfl⟩
      | locks => cases still
      | wakes => cases still
  | unlocks holding _ runs still =>
      have stage := QueueAccesses.stage_of_holding holding
      cases QueueAccesses.unlocks_of_run holding.holds runs still with
      | blocks accepted =>
          cases stage with
          | waiting here waits timed =>
              subst here
              exact follows_blocks calls (Option.some.inj origin).symm waits
                timed accepted
      | returns =>
          cases stage with
          | succeeding granted bytes signals =>
              exact follows_granted granted bytes signals calls origin
          | failing failed => exact follows_failed failed calls origin

end QueueThreads

namespace QueueAccesses

variable {Tid : Type} [DecidableEq Tid]

/-- What the calls return in a run, in the order in which they do. -/
def returns (hdl : LspQueueHandle) (accesses : List (Tid × QueueChoice Tid)) :
    List (QueueReturn Tid) :=
  history statements.exec (fun _ _ outcome => outcome) (initial hdl) accesses

/-- The statements do what some sections do one after the other. -/
structure Atomic (limit : QueueThreads Tid → QueueAction Tid → Prop)
    (hdl : LspQueueHandle) (accesses : List (Tid × QueueChoice Tid))
    (s : Interleaving Tid (QueueShared Tid) QueuePlace)
    (actions : List (QueueAction Tid)) (model : QueueThreads Tid) :
    Prop where
  run : Run QueueThreads.step limit (.initial hdl) actions model
  returns : history QueueThreads.exec QueueThreads.returned (.initial hdl)
    actions = returns hdl accesses
  owner : ∀ thread,
    s.owner = some thread ↔ (s.place thread).holds = true
  unlocked : s.owner = none → model.Agrees s.shared s.place

section Runs

variable {hdl : LspQueueHandle} {accesses : List (Tid × QueueChoice Tid)}
  {s : Interleaving Tid (QueueShared Tid) QueuePlace}

private theorem atomic_of_admitted (strict : Prop)
    (run : Run step (Statements.Allows (Admitted strict)) (initial hdl)
      accesses s) :
    ∃ actions model,
      Atomic (fun model action => strict → model.WakesInTime action) hdl
        accesses s actions model := by
  have matched := Statements.matches_of_sections (disciplined strict)
    (@QueueThreads.matchesSections Tid _ strict)
  have start : (QueueThreads.initial hdl : QueueThreads Tid).Agrees
      (initial hdl).shared (initial hdl).place := ⟨rfl, fun _ => rfl⟩
  obtain ⟨actions, model, reached, same, lags⟩ :=
    matched.run (.unlocked (fun _ => rfl) start) run
  exact ⟨actions, model, reached, same, owned_of_run run, lags.free⟩

theorem Atomic.under {limit limit' : QueueThreads Tid → QueueAction Tid → Prop}
    {actions : List (QueueAction Tid)} {model : QueueThreads Tid}
    (atomic : Atomic limit hdl accesses s actions model)
    (weaker : ∀ model action, limit model action → limit' model action) :
    Atomic limit' hdl accesses s actions model where
  run := atomic.run.mono weaker
  returns := atomic.returns
  owner := atomic.owner
  unlocked := atomic.unlocked

/-- Every run of the statements of any number of pushes and pops does what
some run of whole sections does. -/
theorem sections_of_run (run : Run step Anywhere (initial hdl) accesses s) :
    ∃ actions model, Atomic Anywhere hdl accesses s actions model := by
  have admitted : Run step (Statements.Allows (Admitted False))
      (initial hdl) accesses s :=
    run.mono fun _ _ _ never => never.elim
  obtain ⟨actions, model, atomic⟩ := atomic_of_admitted False admitted
  exact ⟨actions, model, atomic.under fun _ _ _ => trivial⟩

/-- The calls that do what they are for, with what they return. -/
def effective (result : QueueReturn Tid) : Option (QueueOp × QueueAnswer) :=
  result.1.2.bind fun op =>
    if result.2.1 = lspErrNone ∨ result.2.1 = lspErrQueueFull ∨
        result.2.1 = lspErrQueueEmpty then
      some (op, .ret result.2.1, result.2.2)
    else none

omit [DecidableEq Tid] in
theorem served_of_returned (model : QueueThreads Tid)
    (action : QueueAction Tid) (outcome : Option Int) :
    model.served action outcome =
      (model.returned action outcome).bind effective := by
  cases called : model.operation action with
  | none => cases outcome <;> simp [QueueThreads.served,
      QueueThreads.returned, effective, called]
  | some op => cases outcome <;> simp [QueueThreads.served,
      QueueThreads.returned, QueueOp.effect, effective, called]

/-- The calls that take effect return, in this order, what they would return
one after the other on a list of blocks, which is what the queue holds while
nobody works on it. -/
structure Serial (capacity itemsize : Nat) (hdl : LspQueueHandle)
    (accesses : List (Tid × QueueChoice Tid))
    (s : Interleaving Tid (QueueShared Tid) QueuePlace) : Prop where
  legal : Legal (QueueOp.reference capacity itemsize) []
    ((returns hdl accesses).filterMap effective)
  contents : s.owner = none →
    s.shared.queue.contents =
      replay (QueueOp.reference capacity itemsize) []
        ((returns hdl accesses).filterMap effective)

/-- Pushes and pops that copy byte after byte are linearizable as long as
the threads wake in time. -/
theorem serial_of_run {length : Int} {itemsize : Nat}
    (created : lspQueueCreate length itemsize true true = some hdl)
    (positive : 1 ≤ length) (small : length ≤ intMax)
    (fits : QueueThreads.BlockFits length itemsize)
    (run : Run step (Statements.Allows fun _ => InTime) (initial hdl)
      accesses s) :
    Serial length.toNat itemsize hdl accesses s := by
  have admitted : Run step (Statements.Allows (Admitted True))
      (initial hdl) accesses s :=
    run.mono fun _ _ inTime _ => inTime
  obtain ⟨actions, model, atomic⟩ := atomic_of_admitted True admitted
  have inTime : Run QueueThreads.step QueueThreads.WakesInTime
      (.initial hdl) actions model :=
    atomic.run.mono fun _ _ always => always trivial
  have serves : Serves
      (fun (model : QueueThreads Tid) blocks =>
        model.queue.Contains length.toNat itemsize blocks)
      QueueThreads.WakesInTime QueueThreads.exec QueueThreads.served
      (QueueOp.reference length.toNat itemsize) :=
    fun _ _ _ _ _ contains punctual executed =>
      QueueThreads.served_of_exec contains punctual executed
  have start := LspQueueHandle.contains_of_created created positive small fits
  obtain ⟨legal, contains⟩ := serves.run start inTime
  have same : history QueueThreads.exec QueueThreads.served (.initial hdl)
        actions =
      (returns hdl accesses).filterMap effective :=
    (history_filterMap effective served_of_returned _ _).trans
      (congrArg _ atomic.returns)
  rw [same] at legal contains
  refine ⟨legal, ?_⟩
  intro free
  have agrees := (atomic.unlocked free).shared
  rw [← contains.contents, ← agrees]
  rfl

end Runs

section Examples

open QueueThreads (oneEntryQueue)

/-- One thread runs some statements that leave nothing to the schedule. -/
def goes (thread : Nat) (count : Nat) : List (Nat × QueueChoice Nat) :=
  List.replicate count (thread, .go none thread)

/-- A pop waits, a push stores an item for it, and a third thread does not
get the mutex in the middle of the copy. -/
def storesForWaiter : List (Nat × QueueChoice Nat) :=
  [(0, .call (.pop (fun _ => 0) lspTimeoutMax)), (0, .lock true)] ++
    goes 0 3 ++
    [(1, .call (.push (fun _ => 7) 0)), (1, .lock true)] ++ goes 1 2 ++
    [(2, .call (.push (fun _ => 9) 5)), (2, .lock false)] ++ goes 1 4 ++
    [(1, .go none 0)] ++ goes 1 1 ++ [(0, .wake .ok)] ++ goes 0 8

/-- The copy of the push is one step of the sections, as is the failure of
the third thread. -/
theorem sections_of_storesForWaiter :
    ∃ s, Run step Anywhere (initial oneEntryQueue) storesForWaiter s ∧
      (returns oneEntryQueue storesForWaiter).map Prod.snd =
        [(lspErrMutex, none), (lspErrNone, none), (lspErrNone, some [7])] ∧
      ∃ actions model,
        Atomic Anywhere oneEntryQueue storesForWaiter s actions model := by
  have executed :
      (execute step Anywhere (initial oneEntryQueue) storesForWaiter).map
        (fun _ => ()) = some () := by
    decide +kernel
  obtain ⟨s, run, _⟩ := exists_run_of_execute executed
  exact ⟨s, run, by decide +kernel, sections_of_run run⟩

/-- The pop that waited gets the item of the push. -/
theorem serial_of_storesForWaiter :
    ∃ s, Run step (Statements.Allows fun _ => InTime)
        (initial oneEntryQueue) storesForWaiter s ∧
      ((returns oneEntryQueue storesForWaiter).filterMap effective).map
          Prod.snd =
        [(.ret lspErrNone, none), (.ret lspErrNone, some [7])] ∧
      Serial 1 1 oneEntryQueue storesForWaiter s := by
  have created : lspQueueCreate 1 1 true true = some oneEntryQueue := rfl
  have fits : QueueThreads.BlockFits 1 1 := by
    simp only [QueueThreads.BlockFits, alignedSizeofQueueHandle]
    decide
  have executed :
      (execute step (Statements.Allows fun _ => InTime)
        (initial oneEntryQueue) storesForWaiter).map (fun _ => ()) =
        some () := by
    decide +kernel
  obtain ⟨s, run, _⟩ := exists_run_of_execute executed
  exact ⟨s, run, by decide +kernel,
    serial_of_run created (by decide) (by decide) fits run⟩

end Examples

end QueueAccesses

end Liblsp
