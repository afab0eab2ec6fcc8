import Liblsp.EgroupAccesses

/-!
# Sections of waits and sets are atomic

Whatever the threads do statement by statement, they get what they would get
if every section that holds the mutex were one step.  So all that is proved
about `EgroupThreads` holds of the statements, too.
-/

namespace Liblsp

open Base

/-- Where a thread without the mutex is in `EgroupThreads`. -/
def EgroupPlace.call : EgroupPlace → Option (Option EgroupCall)
  | .outside | .starting _ | .locking .. | .setLocking _ => some none
  | .blocked call => some (some call)
  | _ => none

def EgroupAction.thread {Tid : Type} : EgroupAction Tid → Tid
  | .wait thread .. | .waitLockFails thread _ | .resume thread ..
  | .set thread _ | .setLockFails thread => thread

namespace EgroupThreads

open EgroupAccesses (rest Stage)
open QueueThreads (endWait)

variable {Tid : Type}

def shared (s : EgroupThreads Tid) : EgroupShared Tid :=
  { eventBits := s.eventBits, cond := s.cond }

/-- Which wait returns in a section, and with what. -/
def returned (_ : EgroupThreads Tid) (action : EgroupAction Tid)
    (outcome : Option UInt32) : Option (Tid × UInt32) :=
  outcome.map fun ebits => (action.thread, ebits)

/-- Nobody holds the mutex, and the threads are where the places say. -/
structure Agrees (shared : EgroupShared Tid) (places : Tid → EgroupPlace)
    (s : EgroupThreads Tid) : Prop where
  shared : s.shared = shared
  calls : ∀ thread, (places thread).call = some (s.call thread)
  timed : ∀ thread, (places thread).Timed

variable [DecidableEq Tid]

theorem agrees_update {s s' : EgroupThreads Tid}
    {shared : EgroupShared Tid} {places : Tid → EgroupPlace}
    {mover : Tid} {place : EgroupPlace} {call : Option EgroupCall}
    (agrees : s.Agrees s.shared places) (same : s'.shared = shared)
    (moved : s'.call = Function.update s.call mover call)
    (arrives : place.call = some call) (timed : place.Timed) :
    s'.Agrees shared (Function.update places mover place) := by
  refine ⟨same, ?_, ?_⟩
  · intro thread
    rw [moved]
    by_cases here : thread = mover
    · subst thread
      rw [Function.update_self, Function.update_self]
      exact arrives
    · rw [Function.update_of_ne here, Function.update_of_ne here]
      exact agrees.calls thread
  · intro thread
    by_cases here : thread = mover
    · subst thread
      rw [Function.update_self]
      exact timed
    · rw [Function.update_of_ne here]
      exact agrees.timed thread

theorem agrees_outside {s : EgroupThreads Tid} {places : Tid → EgroupPlace}
    {mover : Tid} {place : EgroupPlace}
    (agrees : s.Agrees s.shared places) (outside : s.call mover = none)
    (arrives : place.call = some none) (timed : place.Timed) :
    s.Agrees s.shared (Function.update places mover place) := by
  refine agrees_update agrees rfl ?_ arrives timed
  rw [← outside, Function.update_eq_self]

/-- Some steps of the sections lead to this state and return this. -/
def Follows (s : EgroupThreads Tid) (shared : EgroupShared Tid)
    (places : Tid → EgroupPlace) (outcome : Option (Tid × UInt32)) : Prop :=
  ∃ actions s',
    Run (fun s action => (s.exec action).map Prod.fst) Anywhere s actions
        s' ∧
      history exec returned s actions = outcome.toList ∧
      s'.Agrees shared places

section Sections

variable {s s' : EgroupThreads Tid} {places : Tid → EgroupPlace}
  {thread : Tid} {shared : EgroupShared Tid} {before place : EgroupPlace}

theorem follows_of_exec (action : EgroupAction Tid)
    {outcome : Option UInt32} {result : Option (Tid × UInt32)}
    (executed : s.exec action = some (s', outcome))
    (same : s.returned action outcome = result)
    (agrees : s'.Agrees shared places) :
    s.Follows shared places result := by
  have step : Run (fun s action => (s.exec action).map Prod.fst) Anywhere s
        [action] s' ∧
      history exec returned s [action] =
        (s.returned action outcome).toList :=
    run_of_exec trivial executed
  exact ⟨[action], s', step.1, step.2.trans (congrArg _ same), agrees⟩

/-- The rest of a wait is the rest of one section function. -/
theorem exec_of_stage {clock : Option Timespec} {ended : UInt32 × EgroupEnd}
    (stage : Stage thread s.shared before shared place)
    (origin : before.call = some (s.call thread))
    (ends : rest shared.eventBits none clock place = some ended) :
    ∃ action, action.thread = thread ∧
      s.exec action =
        some (({ s with cond := shared.cond } :
          EgroupThreads Tid).endSection thread ended) := by
  cases stage with
  | @locked request start _ _ here same rests _ =>
      subst here
      obtain ⟨now, later, equal⟩ := rests
      have outside : s.call thread = none := (Option.some.inj origin).symm
      have ran : lspEgroupWaitLocked s.eventBits request.bits
          request.clearOnExit request.waitAll request.timeout start
          (now none) (later clock) = ended :=
        Option.some.inj ((equal none clock).trans ends)
      refine ⟨.wait thread request.bits request.clearOnExit request.waitAll
        request.timeout start (now none) (later clock), rfl, ?_⟩
      rw [exec_wait.mpr ⟨outside, rfl⟩, ran, same]
      rfl
  | @resumed call result _ _ here woken rests _ =>
      subst here
      obtain ⟨now, later, equal⟩ := rests
      have blocked : s.call thread = some call :=
        (Option.some.inj origin).symm
      have ran : lspEgroupWaitResumed s.eventBits call result
          (now none) (later clock) = ended :=
        Option.some.inj ((equal none clock).trans ends)
      refine ⟨.resume thread result (now none) (later clock), rfl, ?_⟩
      rw [exec_resume.mpr ⟨call, shared.cond, blocked, woken, rfl⟩,
        ran]
  | setting | broadcasting | setUnlocking => cases ends

/-- A thread that runs alone takes one section, or none. -/
theorem matchesSections :
    (@EgroupAccesses.statements Tid _).MatchesSections
      (fun _ _ _ _ => True) (fun shared places s => s.Agrees shared places)
      Anywhere exec returned := by
  intro thread start places s shared place outcome agrees unheld whole
  obtain rfl := agrees.shared
  have origin := agrees.calls thread
  have timed := agrees.timed thread
  have outside := unheld thread
  generalize places thread = before at whole origin timed outside
  cases whole with
  | outside _ _ runs still =>
      have kept := EgroupAccesses.timed_next runs timed
      cases EgroupAccesses.outside_of_run outside runs with
      | waits | starts | sets =>
          have idle := (Option.some.inj origin).symm
          exact ⟨[], s, .nil, rfl, agrees_outside agrees idle rfl kept⟩
      | @lockFails _ _ ebits =>
          have idle := (Option.some.inj origin).symm
          have executed : s.exec (.waitLockFails thread ebits) =
              some (s, some ebits) := exec_waitLockFails.mpr ⟨idle, rfl⟩
          exact follows_of_exec _ executed rfl
            (agrees_outside agrees idle rfl kept)
      | setFails =>
          have idle := (Option.some.inj origin).symm
          have executed : s.exec (.setLockFails thread) = some (s, none) :=
            exec_setLockFails.mpr ⟨idle, rfl⟩
          exact follows_of_exec _ executed rfl
            (agrees_outside agrees idle rfl kept)
      | locks | wakes | setLocks => cases still
  | @unlocks _ middle _ _ _ _ holding _ runs still =>
      have stage := EgroupAccesses.stage_of_holding timed holding
      cases EgroupAccesses.unlocks_of_run holding.holds runs still with
      | @blocks call timeout clock accepted =>
          have ends : rest middle.eventBits none clock
              (.waiting call timeout) =
                some (middle.eventBits, .wait { call with
                  deadline := egroupWaitInternal timeout clock }) := by
            simp only [rest, EgroupCall.block, accepted, Bool.false_eq_true,
              if_false]
          obtain ⟨action, _, executed⟩ := exec_of_stage stage origin ends
          exact follows_of_exec action executed rfl
            (agrees_update agrees rfl rfl rfl
              (EgroupAccesses.timed_next runs stage.timed))
      | @returns ebits =>
          have ends : rest shared.eventBits none none (.unlocking ebits) =
              some (shared.eventBits, .ret ebits) := rfl
          obtain ⟨action, rfl, executed⟩ := exec_of_stage stage origin ends
          exact follows_of_exec action executed rfl
            (agrees_update agrees rfl rfl rfl trivial)
      | setReturns =>
          cases stage with
          | @setUnlocking bits here =>
              subst here
              have idle := (Option.some.inj origin).symm
              have executed : s.exec (.set thread bits) =
                  some ({ s with
                    eventBits := lspEgroupSetLocked s.eventBits bits
                    cond := s.cond.broadcast }, none) :=
                exec_set.mpr ⟨idle, rfl⟩
              exact follows_of_exec (.set thread bits) executed rfl
                (agrees_update agrees rfl
                  (by rw [← idle, Function.update_eq_self]) rfl trivial)
          | locked _ _ rests _ => cases rests.isSome fun _ _ => rfl
          | resumed _ _ rests _ => cases rests.isSome fun _ _ => rfl

end Sections

end EgroupThreads

namespace EgroupAccesses

variable {Tid : Type} [DecidableEq Tid]

/-- What the waits return in a run, in the order in which they do. -/
def returns (accesses : List (Tid × EgroupChoice)) : List (Tid × UInt32) :=
  history statements.exec (fun _ _ outcome => outcome) initial accesses

/-- The statements do what some sections do one after the other. -/
structure Serializes (accesses : List (Tid × EgroupChoice))
    (s : Interleaving Tid (EgroupShared Tid) EgroupPlace)
    (actions : List (EgroupAction Tid)) (model : EgroupThreads Tid) :
    Prop where
  run : Run EgroupThreads.step Anywhere .initial actions model
  returns : history EgroupThreads.exec EgroupThreads.returned .initial
    actions = returns accesses
  owner : ∀ thread,
    s.owner = some thread ↔ (s.place thread).holds = true
  unlocked : s.owner = none → model.Agrees s.shared s.place

/-- Every run of the statements of any number of waits and sets does what
some run of whole sections does. -/
theorem serializes_of_run {accesses : List (Tid × EgroupChoice)}
    {s : Interleaving Tid (EgroupShared Tid) EgroupPlace}
    (run : Run step Anywhere initial accesses s) :
    ∃ actions model, Serializes accesses s actions model := by
  have matched := Statements.matches_of_sections disciplined
    (@EgroupThreads.matchesSections Tid _)
  have start : (EgroupThreads.initial : EgroupThreads Tid).Agrees
      initial.shared initial.place :=
    ⟨rfl, fun _ => rfl, fun _ => trivial⟩
  obtain ⟨actions, model, reached, same, lags⟩ :=
    matched.run (.unlocked (fun _ => rfl) start) run
  exact ⟨actions, model, reached, same, owned_of_run run, lags.free⟩

section Examples

/-- A thread waits without a timeout, two others set one of its bits each. -/
def setsForWaiter : List (Nat × EgroupChoice) :=
  [(0, .wait ⟨3, true, true, lspTimeoutMax⟩), (0, .go none), (0, .lock),
    (1, .set 1), (0, .go none), (0, .go none), (0, .go none), (2, .set 2),
    (1, .lock), (1, .go none), (1, .go none), (1, .go none), (2, .lock),
    (2, .go none), (2, .go none), (2, .go none), (0, .wake .ok),
    (0, .go none), (0, .go none), (0, .go none), (0, .go none),
    (0, .go none)]

/-- The waiter returns when both bits are set. -/
theorem serializes_of_setsForWaiter :
    ∃ s, Run step Anywhere initial setsForWaiter s ∧
      returns setsForWaiter = [(0, 3)] ∧
      ∃ actions model, Serializes setsForWaiter s actions model := by
  have executed :
      (execute step Anywhere initial setsForWaiter).map (fun _ => ()) =
        some () := by
    decide +kernel
  obtain ⟨s, run, _⟩ := exists_run_of_execute executed
  exact ⟨s, run, by decide +kernel, serializes_of_run run⟩

end Examples

end EgroupAccesses

end Liblsp
