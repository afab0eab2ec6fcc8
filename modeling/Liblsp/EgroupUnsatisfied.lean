import Liblsp.EgroupMasks

/-!
# What an unsatisfied wait takes away

Every exit of `lsp_egroup_wait` under the mutex returns the event bits and
clears some or all of them, whether its condition holds or not; a wait whose
lock fails returns the uninitialised `ebits`.  So an unsatisfied wait consumes
nothing only where there is nothing to consume.
-/

namespace Liblsp

open Base

variable {Tid : Type}

namespace EgroupCall

/-- The loop is left with its condition false: no time is left, or the
deadline of the next block is refused. -/
def GivesUp (call : EgroupCall) (now clock : Option Timespec) : Prop :=
  call.timeout ≠ lspTimeoutMax ∧
    (¬(call.timeout > 0 ∧ call.remainingTimeout > 0) ∨
      deadlineRefused (egroupWaitInternal
        (egroupRemaining call.maxTime (lspGettimeMs now)) clock) = true)

/-- The loop is left for what `egroup_wait_internal` returned. -/
def FailsOn (call : EgroupCall) (result : WaitResult) : Prop :=
  result ≠ .ok ∧ (call.timeout = lspTimeoutMax ∨ result ≠ .etimedout)

instance (call : EgroupCall) (now clock : Option Timespec) :
    Decidable (call.GivesUp now clock) :=
  inferInstanceAs (Decidable (_ ∧ _))

instance (call : EgroupCall) (result : WaitResult) :
    Decidable (call.FailsOn result) :=
  inferInstanceAs (Decidable (_ ∧ _))

end EgroupCall

/-- The actions of the threads, and a condition variable that fails while a
thread is blocked on it. -/
inductive EgroupEvent (Tid : Type) where
  | action (action : EgroupAction Tid)
  | condFails (thread : Tid)

namespace EgroupThreads

/-- The call that an event starts or continues. -/
def eventCall (s : EgroupThreads Tid) :
    EgroupEvent Tid → Option EgroupCall
  | .action action => s.callOf action
  | .condFails thread => s.call thread

/-- An unsatisfied wait finds no event bit where it gives up, and a wait whose
lock fails finds a zero in its `ebits`. -/
def NothingToConsume (s : EgroupThreads Tid) : EgroupEvent Tid → Prop
  | .action (.wait _ bits clearOnExit waitAll timeout start now clock) =>
      egroupHolds s.eventBits bits waitAll = false →
        (EgroupCall.enter bits clearOnExit waitAll timeout start).GivesUp now
          clock → s.eventBits = 0
  | .action (.resume thread result now clock) =>
      ∀ call, s.call thread = some call →
        egroupHolds s.eventBits call.bits call.waitAll = false →
          call.FailsOn result ∨ call.GivesUp now clock → s.eventBits = 0
  | .action (.waitLockFails _ ebits) => ebits = 0
  | .action (.set ..) => True
  | .action (.setLockFails _) => True
  | .condFails thread =>
      ∀ call, s.call thread = some call →
        egroupHolds s.eventBits call.bits call.waitAll = false →
          s.eventBits = 0

variable [DecidableEq Tid]

/-- An event, and what a wait returns there. -/
def execEvent (s : EgroupThreads Tid) :
    EgroupEvent Tid → Option (EgroupThreads Tid × Option UInt32)
  | .action action => s.exec action
  | .condFails thread =>
      match s.call thread with
      | none => none
      | some call =>
          (s.cond.expire thread).map fun cond =>
            ({ s with cond := cond } : EgroupThreads Tid).endSection thread
              (lspEgroupWaitResumed s.eventBits call .einval none none)

def stepEvent (s : EgroupThreads Tid) (event : EgroupEvent Tid) :
    Option (EgroupThreads Tid) :=
  (s.execEvent event).map Prod.fst

/-- A wait that returns here with its condition false, or whose lock fails,
returns `0` and changes no event bit. -/
def ConsumesNothing (s : EgroupThreads Tid) (event : EgroupEvent Tid) :
    Prop :=
  ∀ s' ebits, s.execEvent event = some (s', some ebits) →
    (∀ call, s.eventCall event = some call →
      egroupHolds s.eventBits call.bits call.waitAll = false) →
    ebits = 0 ∧ s'.eventBits = s.eventBits

end EgroupThreads

/-! ## Where a section leaves the call -/

/-- The section ends the call. -/
def EgroupEnd.Returns (ended : EgroupEnd) : Prop :=
  ∃ ebits, ended = .ret ebits

section Sections

variable {eventBits : UInt32} {call : EgroupCall}
  {now clock : Option Timespec}

theorem EgroupCall.exit_returns : (call.exit eventBits).2.Returns :=
  ⟨eventBits, rfl⟩

theorem EgroupEnd.not_returns {blocked : EgroupCall} :
    ¬(EgroupEnd.wait blocked).Returns := by
  rintro ⟨ebits, same⟩
  cases same

/-- An unsatisfied loop ends the call exactly where it gives up. -/
theorem EgroupCall.loop_returns_iff
    (absent : egroupHolds eventBits call.bits call.waitAll = false) :
    (call.loop eventBits now clock).2.Returns ↔ call.GivesUp now clock := by
  by_cases forever : call.timeout = lspTimeoutMax
  · rw [loop_forever forever, absent]
    constructor
    · intro returns
      exact absurd returns EgroupEnd.not_returns
    · intro givesUp
      exact absurd forever givesUp.1
  · by_cases finite : call.timeout > 0 ∧ call.remainingTimeout > 0
    · rw [loop_finite forever finite.1 finite.2]
      rcases block_cases _ eventBits _ clock with
        ⟨refused, exits⟩ | ⟨accepted, blocks⟩
      · rw [exits]
        exact iff_of_true exit_returns ⟨forever, .inr refused⟩
      · rw [blocks]
        refine iff_of_false EgroupEnd.not_returns ?_
        rintro ⟨_, expired | refused⟩
        · exact expired finite
        · cases accepted.symm.trans refused
    · rw [loop_over forever finite]
      exact iff_of_true exit_returns ⟨forever, .inl finite⟩

theorem lspEgroupWaitResumed_returns_iff {result : WaitResult}
    (absent : egroupHolds eventBits call.bits call.waitAll = false) :
    (lspEgroupWaitResumed eventBits call result now clock).2.Returns ↔
      call.FailsOn result ∨ call.GivesUp now clock := by
  have looped := @EgroupCall.loop_returns_iff eventBits call now clock absent
  by_cases fails : call.FailsOn result
  · refine iff_of_true ?_ (.inl fails)
    obtain ⟨failed, how⟩ := fails
    by_cases forever : call.timeout = lspTimeoutMax
    · rw [lspEgroupWaitResumed, if_pos forever, if_pos failed]
      exact EgroupCall.exit_returns
    · have other := how.resolve_left forever
      rw [lspEgroupWaitResumed, if_neg forever, if_pos ⟨failed, other⟩]
      exact EgroupCall.exit_returns
  · rw [or_iff_right fails, ← looped]
    by_cases forever : call.timeout = lspTimeoutMax
    · have ok : ¬result ≠ .ok := fun failed => fails ⟨failed, .inl forever⟩
      rw [lspEgroupWaitResumed, if_pos forever, if_neg ok]
    · have known : ¬(result ≠ .ok ∧ result ≠ .etimedout) :=
        fun failed => fails ⟨failed.1, .inr failed.2⟩
      rw [lspEgroupWaitResumed, if_neg forever, if_neg known, absent]
      rfl

theorem lspEgroupWaitLocked_section (bits : UInt32)
    (clearOnExit waitAll : Bool) (timeout : UInt32)
    (start : Option Timespec) :
    let ended := lspEgroupWaitLocked eventBits bits clearOnExit waitAll timeout
      start now clock
    (∃ kept, ended = (eventBits &&& kept, .ret eventBits)) ∨
      ∃ blocked, ended = (eventBits, .wait blocked) := by
  rcases lspEgroupWaitLocked_cases eventBits bits clearOnExit waitAll timeout
    start now clock with exits | ⟨blocked, _, blocks, _⟩
  · exact .inl exits
  · exact .inr ⟨blocked, blocks⟩

theorem lspEgroupWaitResumed_section (result : WaitResult) :
    let ended := lspEgroupWaitResumed eventBits call result now clock
    (∃ kept, ended = (eventBits &&& kept, .ret eventBits)) ∨
      ∃ blocked, ended = (eventBits, .wait blocked) := by
  rcases lspEgroupWaitResumed_cases eventBits call result now clock with
    exits | ⟨blocked, _, blocks, _⟩
  · exact .inl exits
  · exact .inr ⟨blocked, blocks⟩

end Sections

namespace EgroupThreads

variable [DecidableEq Tid] {s : EgroupThreads Tid}

theorem endSection_consumes_iff {thread : Tid} {ended : UInt32 × EgroupEnd}
    (isSection : (∃ kept, ended = (s.eventBits &&& kept, .ret s.eventBits)) ∨
      ∃ blocked, ended = (s.eventBits, .wait blocked)) :
    (∀ s' ebits, s.endSection thread ended = (s', some ebits) →
        ebits = 0 ∧ s'.eventBits = s.eventBits) ↔
      (ended.2.Returns → s.eventBits = 0) := by
  rcases isSection with ⟨kept, exits⟩ | ⟨blocked, blocks⟩
  · subst exits
    constructor
    · intro consumes _
      exact (consumes _ _ rfl).1
    · intro none s' ebits same
      have zero := none ⟨_, rfl⟩
      cases same
      exact ⟨zero, by simp [zero]⟩
  · subst blocks
    constructor
    · intro _ returns
      exact absurd returns EgroupEnd.not_returns
    · intro _ s' ebits same
      cases same

section Events

variable {thread : Tid} {ended : EgroupThreads Tid × Option UInt32}

theorem execEvent_condFails :
    s.execEvent (.condFails thread) = some ended ↔
      ∃ call cond, s.call thread = some call ∧
        s.cond.expire thread = some cond ∧
        ({ s with cond := cond } : EgroupThreads Tid).endSection thread
          (lspEgroupWaitResumed s.eventBits call .einval none none) =
            ended := by
  cases place : s.call thread with
  | none => simp [execEvent, place]
  | some call => simp [execEvent, place, Option.map_eq_some_iff]

theorem consumesNothing_iff_of_section {event : EgroupEvent Tid}
    {call : EgroupCall} {cond : CondVar Tid} {part : UInt32 × EgroupEnd}
    (executed : s.execEvent event =
      some (({ s with cond := cond } : EgroupThreads Tid).endSection thread
        part))
    (continued : s.eventCall event = some call)
    (isSection : (∃ kept, part = (s.eventBits &&& kept, .ret s.eventBits)) ∨
      ∃ blocked, part = (s.eventBits, .wait blocked)) :
    s.ConsumesNothing event ↔
      (egroupHolds s.eventBits call.bits call.waitAll = false →
        part.2.Returns → s.eventBits = 0) := by
  have consumes_iff := @endSection_consumes_iff Tid _
    { s with cond := cond } thread part isSection
  constructor
  · intro consumes absent
    apply consumes_iff.mp
    intro s' ebits same
    refine consumes s' ebits (by rw [executed, same]) ?_
    intro call' continued'
    cases continued.symm.trans continued'
    exact absent
  · intro none s' ebits returned unsatisfied
    have absent := unsatisfied call continued
    rw [executed] at returned
    exact consumes_iff.mpr (none absent) s' ebits
      (Option.some.inj returned)

private theorem consumesNothing_iff_of_wait {bits : UInt32}
    {clearOnExit waitAll : Bool} {timeout : UInt32}
    {start now clock : Option Timespec}
    (happens : s.execEvent (.action
      (.wait thread bits clearOnExit waitAll timeout start now clock)) =
        some ended) :
    s.ConsumesNothing (.action
        (.wait thread bits clearOnExit waitAll timeout start now clock)) ↔
      s.NothingToConsume (.action
        (.wait thread bits clearOnExit waitAll timeout start now clock)) := by
  obtain ⟨_, same⟩ := exec_wait.mp happens
  have returns_iff := @EgroupCall.loop_returns_iff s.eventBits
    (.enter bits clearOnExit waitAll timeout start) now clock
  rw [← same] at happens
  rw [@consumesNothing_iff_of_section _ _ _ thread _ _ s.cond _ happens rfl
    (lspEgroupWaitLocked_section bits clearOnExit waitAll timeout start)]
  constructor
  · intro none absent givesUp
    exact none absent ((returns_iff absent).mpr givesUp)
  · intro none absent returns
    exact none absent ((returns_iff absent).mp returns)

private theorem consumesNothing_iff_of_resume {result : WaitResult}
    {now clock : Option Timespec}
    (happens : s.execEvent (.action (.resume thread result now clock)) =
      some ended) :
    s.ConsumesNothing (.action (.resume thread result now clock)) ↔
      s.NothingToConsume (.action (.resume thread result now clock)) := by
  obtain ⟨call, cond, place, waited, same⟩ := exec_resume.mp happens
  have returns_iff := @lspEgroupWaitResumed_returns_iff s.eventBits call now
    clock result
  rw [← same] at happens
  rw [consumesNothing_iff_of_section happens place
    (lspEgroupWaitResumed_section result)]
  constructor
  · intro none call' place' absent leaves
    cases place.symm.trans place'
    exact none absent ((returns_iff absent).mpr leaves)
  · intro none absent returns
    exact none call place absent ((returns_iff absent).mp returns)

private theorem consumesNothing_iff_of_condFails
    (happens : s.execEvent (.condFails thread) = some ended) :
    s.ConsumesNothing (.condFails thread) ↔
      s.NothingToConsume (.condFails thread) := by
  obtain ⟨call, cond, place, expired, same⟩ := execEvent_condFails.mp happens
  have returns_iff := @lspEgroupWaitResumed_returns_iff s.eventBits call none
    none .einval
  have fails : call.FailsOn .einval := ⟨by simp, .inr (by simp)⟩
  rw [← same] at happens
  rw [consumesNothing_iff_of_section happens place
    (lspEgroupWaitResumed_section .einval)]
  constructor
  · intro none call' place' absent
    cases place.symm.trans place'
    exact none absent ((returns_iff absent).mpr (.inl fails))
  · intro none absent _
    exact none call place absent

private theorem consumesNothing_iff_of_waitLockFails {ebits : UInt32}
    (happens : s.execEvent (.action (.waitLockFails thread ebits)) =
      some ended) :
    s.ConsumesNothing (.action (.waitLockFails thread ebits)) ↔
      s.NothingToConsume (.action (.waitLockFails thread ebits)) := by
  obtain ⟨outside, _⟩ := exec_waitLockFails.mp happens
  constructor
  · intro consumes
    have returned : s.execEvent (.action (.waitLockFails thread ebits)) =
        some (s, some ebits) := exec_waitLockFails.mpr ⟨outside, rfl⟩
    refine (consumes s ebits returned ?_).1
    intro call continued
    cases continued
  · intro zero s' ebits' returned _
    cases (exec_waitLockFails.mp returned).2
    exact ⟨zero, rfl⟩

/-- An event that happens consumes nothing for an unsatisfied wait exactly if
there is nothing to consume. -/
theorem consumesNothing_iff {event : EgroupEvent Tid}
    (happens : s.execEvent event = some ended) :
    s.ConsumesNothing event ↔ s.NothingToConsume event := by
  cases event with
  | condFails thread => exact consumesNothing_iff_of_condFails happens
  | action action =>
      cases action with
      | wait => exact consumesNothing_iff_of_wait happens
      | resume => exact consumesNothing_iff_of_resume happens
      | waitLockFails => exact consumesNothing_iff_of_waitLockFails happens
      | set thread bits =>
          refine iff_of_true ?_ trivial
          intro s' ebits returned
          cases (exec_set.mp returned).2
      | setLockFails thread =>
          refine iff_of_true ?_ trivial
          intro s' ebits returned
          cases (exec_setLockFails.mp returned).2

end Events

/-- The runs in which every unsatisfied wait returns `0` and leaves the event
bits alone are those in which none of them finds anything. -/
theorem consumesNothing_iff_of_run {start : EgroupThreads Tid}
    {events : List (EgroupEvent Tid)} :
    Run stepEvent ConsumesNothing start events s ↔
      Run stepEvent NothingToConsume start events s := by
  apply Run.guard_iff
  intro state event next stepped
  obtain ⟨ended, happens, _⟩ := Option.map_eq_some_iff.mp stepped
  exact consumesNothing_iff happens

section Examples

/-- Bit 2 is set, then bit 1 is polled for. -/
def pollForOther : List (EgroupEvent Nat) :=
  [.action (.set 1 2)]

/-- The poll returns the other bit and clears it. -/
theorem pollForOther_consumes :
    ∃ s, Run stepEvent Anywhere initial pollForOther s ∧
      s.eventBits = 2 ∧
      (s.execEvent (.action (.wait 0 1 true false 0 none none none))).map
        (fun ended => (ended.1.eventBits, ended.2)) = some (0, some 2) ∧
      ¬s.ConsumesNothing
        (.action (.wait 0 1 true false 0 none none none)) := by
  have executed : (execute stepEvent Anywhere initial pollForOther).map
      (fun s => (s.eventBits, (s.execEvent
        (.action (.wait 0 1 true false 0 none none none))).map
          (fun ended => (ended.1.eventBits, ended.2)))) =
      some (2, some (0, some 2)) := by
    decide
  obtain ⟨s, run, view⟩ := exists_run_of_execute executed
  simp only [Prod.mk.injEq] at view
  obtain ⟨eventBits, returned⟩ := view
  refine ⟨s, run, eventBits, returned, ?_⟩
  intro consumes
  obtain ⟨⟨s', result⟩, happens, same⟩ := Option.map_eq_some_iff.mp returned
  obtain ⟨_, returns⟩ := Prod.mk.inj same
  simp only at returns
  subst returns
  have absent : egroupHolds s.eventBits 1 false = false := by
    rw [eventBits]
    decide
  have zero := (consumes s' 2 happens (by
    intro call continued
    cases continued
    exact absent)).1
  cases zero

end Examples

end EgroupThreads

end Liblsp
