import Liblsp.Base.Sections
import Liblsp.EgroupThreads

/-!
# Waits and sets statement by statement

In `EgroupThreads` a section that holds the mutex is one step.  Here every
statement is a step of its own, in the loops as the source has them.  The
threads cannot tell the difference.
-/

namespace Liblsp

open Base

/-- A call of `lsp_egroup_wait`. -/
structure EgroupRequest where
  bits : UInt32
  clearOnExit : Bool
  waitAll : Bool
  timeout : UInt32

/-- The local variables once the clock has been read. -/
def EgroupRequest.enter (request : EgroupRequest)
    (start : Option Timespec) : EgroupCall :=
  .enter request.bits request.clearOnExit request.waitAll request.timeout
    start

/-- What the threads on an event group share. -/
structure EgroupShared (Tid : Type) where
  eventBits : UInt32
  cond : CondVar Tid

/-- The next statement of a thread in `lsp_egroup_wait`: the clock, the lock,
the choice of the loop, the head of a loop without a timeout or with one, the
clock in the loop, the wait, blocked in it, what follows the wait, the exit
in three statements.  Then those of `lsp_egroup_set`. -/
inductive EgroupPlace where
  | outside
  | starting (request : EgroupRequest)
  | locking (request : EgroupRequest) (start : Option Timespec)
  | choosing (call : EgroupCall)
  | forever (call : EgroupCall)
  | timed (call : EgroupCall)
  | reckoning (call : EgroupCall)
  | waiting (call : EgroupCall) (timeout : UInt32)
  | blocked (call : EgroupCall)
  | woken (call : EgroupCall) (result : WaitResult)
  | reading (call : EgroupCall)
  | clearing (call : EgroupCall) (ebits : UInt32)
  | unlocking (ebits : UInt32)
  | setLocking (bits : UInt32)
  | setting (bits : UInt32)
  | broadcasting
  | setUnlocking

/-- Where a thread holds the mutex. -/
def EgroupPlace.holds : EgroupPlace → Bool
  | .outside | .starting _ | .locking .. | .blocked _ | .setLocking _ => false
  | _ => true

/-- Only a call with a timeout gets to a loop. -/
def EgroupPlace.Timed : EgroupPlace → Prop
  | .forever call | .timed call | .reckoning call | .waiting call _
  | .blocked call | .woken call _ => call.timeout > 0
  | _ => True

/-- What the schedule and the system decide about a statement.  A wait whose
lock fails returns the uninitialised `ebits`. -/
inductive EgroupChoice where
  | wait (request : EgroupRequest)
  | set (bits : UInt32)
  | lock
  | lockFails (ebits : UInt32)
  | wake (result : WaitResult)
  | go (clock : Option Timespec)

namespace EgroupAccesses

open QueueThreads (endWait)

variable {Tid : Type} [DecidableEq Tid]

/-- The statements of `lsp_egroup_wait` and `lsp_egroup_set`. -/
def run (thread : Tid) (shared : EgroupShared Tid) :
    EgroupPlace → EgroupChoice →
      Option (EgroupShared Tid × EgroupPlace × Option (Tid × UInt32))
  | .outside, .wait request => some (shared, .starting request, none)
  | .starting request, .go clock =>
      some (shared, .locking request clock, none)
  | .locking request start, .lock =>
      some (shared, .choosing (request.enter start), none)
  | .locking _ _, .lockFails ebits =>
      some (shared, .outside, some (thread, ebits))
  | .choosing call, .go _ =>
      if call.timeout = lspTimeoutMax then some (shared, .forever call, none)
      else if call.timeout > 0 then some (shared, .timed call, none)
      else some (shared, .reading call, none)
  | .forever call, .go _ =>
      if egroupHolds shared.eventBits call.bits call.waitAll then
        some (shared, .reading call, none)
      else some (shared, .waiting call call.timeout, none)
  | .timed call, .go _ =>
      if call.remainingTimeout > 0 then some (shared, .reckoning call, none)
      else some (shared, .reading call, none)
  | .reckoning call, .go now =>
      let call :=
        { call with
          remainingTimeout := egroupRemaining call.maxTime (lspGettimeMs now) }
      some (shared, .waiting call call.remainingTimeout, none)
  | .waiting call timeout, .go clock =>
      let deadline := egroupWaitInternal timeout clock
      if deadlineRefused deadline then
        some (shared, .woken call .einval, none)
      else
        some ({ shared with cond := shared.cond.wait thread },
          .blocked { call with deadline := deadline }, none)
  | .blocked call, .wake result =>
      (endWait shared.cond thread call.deadline result).map fun cond =>
        ({ shared with cond := cond }, .woken call result, none)
  | .woken call result, .go _ =>
      if call.timeout = lspTimeoutMax then
        if result ≠ .ok then some (shared, .reading call, none)
        else some (shared, .forever call, none)
      else if result ≠ .ok ∧ result ≠ .etimedout then
        some (shared, .reading call, none)
      else if egroupHolds shared.eventBits call.bits call.waitAll then
        some (shared, .reading call, none)
      else some (shared, .timed call, none)
  | .reading call, .go _ =>
      some (shared, .clearing call shared.eventBits, none)
  | .clearing call ebits, .go _ =>
      some ({ shared with
        eventBits :=
          if call.clearOnExit then 0
          else shared.eventBits &&& ~~~call.bits }, .unlocking ebits, none)
  | .unlocking ebits, .go _ => some (shared, .outside, some (thread, ebits))
  | .outside, .set bits => some (shared, .setLocking bits, none)
  | .setLocking bits, .lock => some (shared, .setting bits, none)
  | .setLocking _, .lockFails _ => some (shared, .outside, none)
  | .setting bits, .go _ =>
      some ({ shared with eventBits := shared.eventBits ||| bits },
        .broadcasting, none)
  | .broadcasting, .go _ =>
      some ({ shared with cond := shared.cond.broadcast }, .setUnlocking,
        none)
  | .setUnlocking, .go _ => some (shared, .outside, none)
  | _, _ => none

def statements :
    Statements Tid (EgroupShared Tid) EgroupPlace EgroupChoice
      (Option (Tid × UInt32)) where
  holds := EgroupPlace.holds
  run := run

def step (s : Interleaving Tid (EgroupShared Tid) EgroupPlace)
    (access : Tid × EgroupChoice) :
    Option (Interleaving Tid (EgroupShared Tid) EgroupPlace) :=
  (statements.exec s access).map Prod.fst

/-- A new event group that no thread uses yet. -/
def initial : Interleaving Tid (EgroupShared Tid) EgroupPlace where
  shared := { eventBits := 0, cond := .empty }
  owner := none
  place := fun _ => .outside

theorem owned_of_run
    {guard : Interleaving Tid (EgroupShared Tid) EgroupPlace →
      Tid × EgroupChoice → Prop}
    {accesses : List (Tid × EgroupChoice)}
    {s : Interleaving Tid (EgroupShared Tid) EgroupPlace}
    (run : Run step guard initial accesses s) : statements.Owned s := by
  refine Statements.Owned.run ?_ run
  intro thread
  exact iff_of_false (Option.some_ne_none thread).symm Bool.false_ne_true

/-! ## One thread by itself -/

/-- The end of the section at hand, given the readings of the clock that are
still to come. -/
def rest (eventBits : UInt32) (now clock : Option Timespec) :
    EgroupPlace → Option (UInt32 × EgroupEnd)
  | .choosing call => some (call.loop eventBits now clock)
  | .forever call =>
      if egroupHolds eventBits call.bits call.waitAll then
        some (call.exit eventBits)
      else some (call.block eventBits call.timeout clock)
  | .timed call =>
      if call.remainingTimeout > 0 then
        let call :=
          { call with
            remainingTimeout :=
              egroupRemaining call.maxTime (lspGettimeMs now) }
        some (call.block eventBits call.remainingTimeout clock)
      else some (call.exit eventBits)
  | .reckoning call =>
      let call :=
        { call with
          remainingTimeout := egroupRemaining call.maxTime (lspGettimeMs now) }
      some (call.block eventBits call.remainingTimeout clock)
  | .waiting call timeout => some (call.block eventBits timeout clock)
  | .woken call result =>
      some (lspEgroupWaitResumed eventBits call result now clock)
  | .reading call => some (call.exit eventBits)
  | .clearing call ebits =>
      some (if call.clearOnExit then 0 else eventBits &&& ~~~call.bits,
        .ret ebits)
  | .unlocking ebits => some (eventBits, .ret ebits)
  | _ => none

theorem timed_next {thread : Tid} {shared shared' : EgroupShared Tid}
    {place place' : EgroupPlace} {choice : EgroupChoice}
    {outcome : Option (Tid × UInt32)}
    (runs : run thread shared place choice = some (shared', place', outcome))
    (timed : place.Timed) : place'.Timed := by
  unfold run at runs
  split at runs
  case h_5 call _ =>
    split at runs
    · rename_i endless
      cases runs
      change call.timeout > 0
      rw [endless]
      decide
    · split at runs
      · rename_i positive
        cases runs
        exact positive
      · cases runs
        exact trivial
  case h_6 | h_7 =>
    split at runs <;> cases runs <;> first | exact timed | trivial
  case h_9 =>
    simp only at runs
    split at runs <;> cases runs <;> exact timed
  case h_10 =>
    obtain ⟨_, _, same⟩ := Option.map_eq_some_iff.mp runs
    cases same
    exact timed
  case h_11 =>
    split at runs
    · split at runs <;> cases runs <;> first | exact timed | trivial
    · split at runs
      · cases runs
        trivial
      · split at runs <;> cases runs <;> first | exact timed | trivial
  all_goals cases runs <;> exact timed

/-- The rest of a section is the same before and behind a statement, but
for the readings of the clock that the statement makes. -/
def SameRest (eventBits eventBits' : UInt32) (place place' : EgroupPlace) :
    Prop :=
  ∃ now later : Option Timespec → Option Timespec, ∀ first second,
    rest eventBits (now first) (later second) place =
      rest eventBits' first second place'

theorem SameRest.of_eq {eventBits eventBits' : UInt32}
    {place place' : EgroupPlace}
    (same : ∀ now clock,
      rest eventBits now clock place = rest eventBits' now clock place') :
    SameRest eventBits eventBits' place place' :=
  ⟨id, id, same⟩

theorem rest_next {thread : Tid} {shared shared' : EgroupShared Tid}
    {place place' : EgroupPlace} {clock : Option Timespec}
    {outcome : Option (Tid × UInt32)}
    (runs : run thread shared place (.go clock) =
      some (shared', place', outcome))
    (waits : (rest shared.eventBits none none place).isSome = true)
    (timed : place.Timed) (held : place'.holds = true) :
    shared'.cond = shared.cond ∧
      SameRest shared.eventBits shared'.eventBits place place' := by
  cases place with
  | choosing call =>
      simp only [run] at runs
      split at runs
      · rename_i endless
        cases runs
        refine ⟨rfl, .of_eq fun now clock => ?_⟩
        simp only [rest, EgroupCall.loop, if_pos endless]
        split <;> rfl
      · rename_i finite
        split at runs
        · rename_i positive
          cases runs
          refine ⟨rfl, .of_eq fun now clock => ?_⟩
          simp only [rest, EgroupCall.loop, if_neg finite, if_pos positive]
          split <;> rfl
        · rename_i zero
          cases runs
          refine ⟨rfl, .of_eq fun now clock => ?_⟩
          simp only [rest, EgroupCall.loop, if_neg finite, if_neg zero]
  | forever call =>
      simp only [run] at runs
      split at runs
      · rename_i holds
        cases runs
        refine ⟨rfl, .of_eq fun now clock => ?_⟩
        simp only [rest, if_pos holds]
      · rename_i absent
        cases runs
        refine ⟨rfl, .of_eq fun now clock => ?_⟩
        simp only [rest, if_neg absent]
  | timed call =>
      simp only [run] at runs
      split at runs
      · rename_i left
        cases runs
        refine ⟨rfl, .of_eq fun now clock => ?_⟩
        simp only [rest, if_pos left]
      · rename_i spent
        cases runs
        refine ⟨rfl, .of_eq fun now clock => ?_⟩
        simp only [rest, if_neg spent]
  | reckoning call =>
      cases runs
      exact ⟨rfl, fun _ => clock, id, fun _ _ => rfl⟩
  | waiting call timeout =>
      simp only [run] at runs
      split at runs
      · rename_i refused
        cases runs
        refine ⟨rfl, id, fun _ => clock, fun now _ => ?_⟩
        simp only [rest, EgroupCall.block, if_pos refused,
          lspEgroupWaitResumed]
        split <;> rfl
      · cases runs
        cases held
  | woken call result =>
      simp only [run] at runs
      split at runs
      · rename_i endless
        split at runs
        · rename_i failed
          cases runs
          refine ⟨rfl, .of_eq fun now clock => ?_⟩
          simp only [rest, lspEgroupWaitResumed, if_pos endless,
            if_pos failed]
        · rename_i signalled
          cases runs
          refine ⟨rfl, .of_eq fun now clock => ?_⟩
          simp only [rest, lspEgroupWaitResumed, if_pos endless,
            if_neg signalled, EgroupCall.loop]
          split <;> rfl
      · rename_i finite
        split at runs
        · rename_i failed
          cases runs
          refine ⟨rfl, .of_eq fun now clock => ?_⟩
          simp only [rest, lspEgroupWaitResumed, if_neg finite,
            if_pos failed]
        · rename_i spent
          split at runs
          · rename_i holds
            cases runs
            refine ⟨rfl, .of_eq fun now clock => ?_⟩
            simp only [rest, lspEgroupWaitResumed, if_neg finite,
              if_neg spent, if_pos holds]
          · rename_i absent
            cases runs
            refine ⟨rfl, .of_eq fun now clock => ?_⟩
            simp only [rest, lspEgroupWaitResumed, if_neg finite,
              if_neg spent, if_neg absent, EgroupCall.loop]
            have positive : call.timeout > 0 := timed
            simp only [if_pos positive]
            split <;> rfl
  | reading call =>
      cases runs
      exact ⟨rfl, .of_eq fun _ _ => rfl⟩
  | clearing call ebits =>
      cases runs
      exact ⟨rfl, .of_eq fun _ _ => rfl⟩
  | unlocking ebits =>
      cases runs
      cases held
  | outside | starting request | locking request start | blocked call
  | setLocking bits | setting bits | broadcasting | setUnlocking =>
      cases waits

theorem SameRest.refl (eventBits : UInt32) (place : EgroupPlace) :
    SameRest eventBits eventBits place place :=
  .of_eq fun _ _ => rfl

theorem SameRest.trans {first second third : UInt32}
    {before between behind : EgroupPlace}
    (left : SameRest first second before between)
    (right : SameRest second third between behind) :
    SameRest first third before behind := by
  obtain ⟨now, later, same⟩ := left
  obtain ⟨now', later', same'⟩ := right
  exact ⟨now ∘ now', later ∘ later', fun reading clock =>
    (same (now' reading) (later' clock)).trans (same' reading clock)⟩

/-- What a thread that holds the mutex has done since it took it. -/
inductive Stage (thread : Tid) (start : EgroupShared Tid)
    (before : EgroupPlace) : EgroupShared Tid → EgroupPlace → Prop where
  | locked {request : EgroupRequest} {clock : Option Timespec}
      {shared : EgroupShared Tid} {place : EgroupPlace} :
      before = .locking request clock →
      shared.cond = start.cond →
      SameRest start.eventBits shared.eventBits
        (.choosing (request.enter clock)) place →
      place.Timed →
      Stage thread start before shared place
  | resumed {call : EgroupCall} {result : WaitResult}
      {shared : EgroupShared Tid} {place : EgroupPlace} :
      before = .blocked call →
      endWait start.cond thread call.deadline result = some shared.cond →
      SameRest start.eventBits shared.eventBits (.woken call result) place →
      place.Timed →
      Stage thread start before shared place
  | setting {bits : UInt32} :
      before = .setLocking bits →
      Stage thread start before start (.setting bits)
  | broadcasting {bits : UInt32} :
      before = .setLocking bits →
      Stage thread start before
        { start with eventBits := start.eventBits ||| bits } .broadcasting
  | setUnlocking {bits : UInt32} :
      before = .setLocking bits →
      Stage thread start before
        { eventBits := start.eventBits ||| bits
          cond := start.cond.broadcast } .setUnlocking

theorem Stage.timed {thread : Tid} {start shared : EgroupShared Tid}
    {before place : EgroupPlace}
    (stage : Stage thread start before shared place) : place.Timed := by
  cases stage with
  | locked _ _ _ timed => exact timed
  | resumed _ _ _ timed => exact timed
  | setting | broadcasting | setUnlocking => exact trivial

theorem SameRest.isSome {eventBits eventBits' : UInt32}
    {place place' : EgroupPlace}
    (same : SameRest eventBits eventBits' place place')
    (waits : ∀ now clock, (rest eventBits now clock place).isSome = true) :
    (rest eventBits' none none place').isSome = true := by
  obtain ⟨now, later, equal⟩ := same
  rw [← equal]
  exact waits _ _

theorem go_of_run {thread : Tid} {shared shared' : EgroupShared Tid}
    {place place' : EgroupPlace} {choice : EgroupChoice}
    {outcome : Option (Tid × UInt32)} (inside : place.holds = true)
    (runs : run thread shared place choice =
      some (shared', place', outcome)) : ∃ clock, choice = .go clock := by
  cases choice with
  | go clock => exact ⟨clock, rfl⟩
  | _ => cases place <;> cases inside <;> cases runs

theorem Stage.next {thread : Tid} {start shared shared' : EgroupShared Tid}
    {before place place' : EgroupPlace} {choice : EgroupChoice}
    {outcome : Option (Tid × UInt32)}
    (stage : Stage thread start before shared place)
    (inside : place.holds = true)
    (runs : run thread shared place choice = some (shared', place', outcome))
    (held : place'.holds = true) :
    Stage thread start before shared' place' := by
  obtain ⟨clock, rfl⟩ := go_of_run inside runs
  cases stage with
  | locked origin same rests timed =>
      obtain ⟨kept, further⟩ := rest_next runs
        (rests.isSome fun _ _ => rfl) timed held
      exact .locked origin (kept.trans same) (rests.trans further)
        (timed_next runs timed)
  | resumed origin woken rests timed =>
      obtain ⟨kept, further⟩ := rest_next runs
        (rests.isSome fun _ _ => rfl) timed held
      exact .resumed origin (kept.symm ▸ woken) (rests.trans further)
        (timed_next runs timed)
  | setting origin =>
      cases runs
      exact .broadcasting origin
  | broadcasting origin =>
      cases runs
      exact .setUnlocking origin
  | setUnlocking origin =>
      cases runs
      cases held

/-- A statement of a thread without the mutex. -/
inductive Outside (thread : Tid) (shared : EgroupShared Tid) :
    EgroupPlace → EgroupChoice → EgroupShared Tid → EgroupPlace →
      Option (Tid × UInt32) → Prop where
  | waits {request : EgroupRequest} :
      Outside thread shared .outside (.wait request) shared
        (.starting request) none
  | starts {request : EgroupRequest} {clock : Option Timespec} :
      Outside thread shared (.starting request) (.go clock) shared
        (.locking request clock) none
  | lockFails {request : EgroupRequest} {clock : Option Timespec}
      {ebits : UInt32} :
      Outside thread shared (.locking request clock) (.lockFails ebits)
        shared .outside (some (thread, ebits))
  | locks {request : EgroupRequest} {clock : Option Timespec} :
      Outside thread shared (.locking request clock) .lock shared
        (.choosing (request.enter clock)) none
  | wakes {call : EgroupCall} {result : WaitResult} {cond : CondVar Tid} :
      endWait shared.cond thread call.deadline result = some cond →
      Outside thread shared (.blocked call) (.wake result)
        { shared with cond := cond } (.woken call result) none
  | sets {bits : UInt32} :
      Outside thread shared .outside (.set bits) shared (.setLocking bits)
        none
  | setLocks {bits : UInt32} :
      Outside thread shared (.setLocking bits) .lock shared (.setting bits)
        none
  | setFails {bits ebits : UInt32} :
      Outside thread shared (.setLocking bits) (.lockFails ebits) shared
        .outside none

theorem outside_of_run {thread : Tid} {shared shared' : EgroupShared Tid}
    {place place' : EgroupPlace} {choice : EgroupChoice}
    {outcome : Option (Tid × UInt32)} (unheld : place.holds = false)
    (runs : run thread shared place choice =
      some (shared', place', outcome)) :
    Outside thread shared place choice shared' place' outcome := by
  cases place with
  | outside =>
      cases choice <;> cases runs
      · exact .waits
      · exact .sets
  | starting request =>
      cases choice <;> cases runs
      exact .starts
  | locking request clock =>
      cases choice <;> cases runs
      · exact .locks
      · exact .lockFails
  | blocked call =>
      cases choice with
      | wake result =>
          obtain ⟨cond, ended, same⟩ := Option.map_eq_some_iff.mp runs
          cases same
          exact .wakes ended
      | _ => cases runs
  | setLocking bits =>
      cases choice <;> cases runs
      · exact .setLocks
      · exact .setFails
  | _ => cases unheld

/-- A statement that gives the mutex back. -/
inductive Unlocks (thread : Tid) (shared : EgroupShared Tid) :
    EgroupPlace → EgroupShared Tid → EgroupPlace → Option (Tid × UInt32) →
      Prop where
  | blocks {call : EgroupCall} {timeout : UInt32} {clock : Option Timespec} :
      deadlineRefused (egroupWaitInternal timeout clock) = false →
      Unlocks thread shared (.waiting call timeout)
        { shared with cond := shared.cond.wait thread }
        (.blocked { call with deadline := egroupWaitInternal timeout clock })
        none
  | returns {ebits : UInt32} :
      Unlocks thread shared (.unlocking ebits) shared .outside
        (some (thread, ebits))
  | setReturns : Unlocks thread shared .setUnlocking shared .outside none

theorem unlocks_of_run {thread : Tid} {shared shared' : EgroupShared Tid}
    {place place' : EgroupPlace} {choice : EgroupChoice}
    {outcome : Option (Tid × UInt32)} (held : place.holds = true)
    (runs : run thread shared place choice = some (shared', place', outcome))
    (unheld : place'.holds = false) :
    Unlocks thread shared place shared' place' outcome := by
  unfold run at runs
  split at runs
  case h_9 =>
    simp only at runs
    split at runs
    · cases runs
      cases unheld
    · rename_i accepted
      cases runs
      exact .blocks (by simpa using accepted)
  case h_5 =>
    split at runs
    · cases runs
      cases unheld
    · split at runs <;> cases runs <;> cases unheld
  case h_6 | h_7 => split at runs <;> cases runs <;> cases unheld
  case h_10 => cases held
  case h_11 =>
    split at runs
    · split at runs <;> cases runs <;> cases unheld
    · split at runs
      · cases runs
        cases unheld
      · split at runs <;> cases runs <;> cases unheld
  case h_14 =>
    cases runs
    exact .returns
  case h_20 =>
    cases runs
    exact .setReturns
  all_goals cases runs <;> first | (cases held; done) | cases unheld

theorem silent_of_run {thread : Tid} {shared shared' : EgroupShared Tid}
    {place place' : EgroupPlace} {choice : EgroupChoice}
    {outcome : Option (Tid × UInt32)}
    (runs : run thread shared place choice = some (shared', place', outcome))
    (held : place'.holds = true) : outcome = none := by
  unfold run at runs
  split at runs
  case h_4 | h_14 =>
    cases runs
    cases held
  case h_5 =>
    split at runs
    · cases runs
      rfl
    · split at runs <;> cases runs <;> rfl
  case h_11 =>
    split at runs
    · split at runs <;> cases runs <;> rfl
    · split at runs
      · cases runs
        rfl
      · split at runs <;> cases runs <;> rfl
  case h_6 | h_7 => split at runs <;> cases runs <;> rfl
  case h_9 =>
    simp only at runs
    split at runs <;> cases runs <;> rfl
  case h_10 =>
    obtain ⟨_, _, same⟩ := Option.map_eq_some_iff.mp runs
    cases same
    rfl
  all_goals cases runs <;> rfl

theorem disciplined :
    (@statements Tid _).Disciplined fun _ _ _ _ => True where
  outside := by
    intro thread shared place choice shared' place' outcome unheld runs still
    cases outside_of_run unheld runs with
    | waits | starts | lockFails | sets | setFails =>
        exact ⟨rfl, fun _ => rfl⟩
    | locks | wakes | setLocks => cases still
  unguarded := fun _ _ _ _ _ _ _ _ _ _ _ _ => trivial
  quiet := fun _ _ _ _ _ _ _ runs held => silent_of_run runs held

/-- What a thread does between the lock and the unlock is one of the
stages. -/
theorem stage_of_holding {thread : Tid} {start shared : EgroupShared Tid}
    {before place : EgroupPlace} (timed : before.Timed)
    (holding : statements.Holding (fun _ _ _ _ => True) thread start before
      shared place) :
    Stage thread start before shared place := by
  induction holding with
  | locks unheld _ runs held =>
      have next := timed_next runs timed
      cases outside_of_run unheld runs with
      | locks => exact .locked rfl rfl (.refl _ _) next
      | wakes ended => exact .resumed rfl ended (.refl _ _) next
      | setLocks => exact .setting rfl
      | waits | starts | sets | setFails => cases held
  | goesOn holding _ runs held induction =>
      exact induction.next holding.holds runs held

end EgroupAccesses

end Liblsp
