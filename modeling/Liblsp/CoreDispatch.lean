import Liblsp.CoreQueue

/-!
# What the core task gets

As long as the event queue is not destroyed the task takes the events that
were sent, in their order.  The queue survives a successful start only if the
task is already blocked on it when `lsp_core_start` comes to destroy it.
-/

namespace Liblsp

open Base

namespace LspCore

variable {Tid : Type}

/-- The events that the task took for its `switch`, without the
placeholders. -/
def dispatched (s : LspCore Tid) : List LspCoreEvent :=
  (s.switched.filter fun taken => taken.2 = lspErrNone).map Prod.fst

/-- A start that returned success had success; no destroyed queue was used;
what the task took is a prefix of what was sent, and everything else that it
took is `LSP_EV_NO_EVENT`; and a failed start leaves no queue behind. -/
structure Dispatches (noEvent : UInt32) (s : LspCore Tid) : Prop where
  result : ∀ rc, s.start = .returned rc →
    (rc = lspErrNone ↔ s.queueMade = true ∧ s.threadMade = true)
  unharmed : s.usedDestroyed = false
  order : s.dispatched <+: s.sent
  placeholders : ∀ taken ∈ s.switched, taken.2 ≠ lspErrNone →
    taken.1.ev = noEvent
  released : ∀ rc, s.start = .returned rc →
    ¬(s.queueMade = true ∧ s.threadMade = true) →
      ∀ keeper, s.evqueue = some keeper → keeper.keeper = .destroyed

/-- A queue that cannot be created meets a value other than `LSP_ERR_NONE` in
the variable for the result, and `lsp_queue_destroy` finds the task, if there
is one, blocked in `lsp_queue_pop`. -/
def StartsSafely (junk : Int) (s : LspCore Tid) : CoreAction Tid → Prop
  | .createQueue allocated initialised =>
      (allocated = true ∧ initialised = true) ∨ junk ≠ lspErrNone
  | .destroyGuard =>
      s.threadMade = true → ∀ keeper ∈ s.evqueue,
        TaskBlocked keeper.threads
  | _ => True

instance [DecidableEq Tid] (junk : Int) (s : LspCore Tid)
    (action : CoreAction Tid) :
    Decidable (StartsSafely junk s action) :=
  match action with
  | .createQueue .. => inferInstanceAs (Decidable (_ ∨ _))
  | .destroyGuard =>
      inferInstanceAs (Decidable (_ → ∀ keeper ∈ s.evqueue, _))
  | .createThread _ | .destroyFree | .sendLockFails _ | .send ..
  | .taskLockFails | .taskPops .. | .taskResumes .. =>
      inferInstanceAs (Decidable True)

/-! ## The points of the start -/

/-- What exists at each point of `lsp_core_start` that a safe start gets
to. -/
def Stage (start : CoreStart) (keeper : Option KeeperCall)
    (queueMade threadMade : Bool) : Prop :=
  match start with
  | .called => keeper = none ∧ queueMade = false ∧ threadMade = false
  | .queueCreated =>
      keeper = some .outside ∧ queueMade = true ∧ threadMade = false
  | .threadTried rc =>
      rc = lspThreadCreate threadMade ∧ queueMade = true ∧
        (keeper = some .outside ∨
          keeper = some .destroying ∧ threadMade = false)
  | .returned rc =>
      (rc ≠ lspErrNone ∧ keeper = none ∧ queueMade = false ∧
        threadMade = false) ∨
      (rc = lspThreadCreate threadMade ∧ queueMade = true ∧
        keeper = some (if threadMade then .outside else .destroyed))

/-- The queue has carried what was sent and what was taken. -/
structure Carries (sent taken : List LspCoreEvent)
    (threads : QueueThreads (CoreThread Tid)) : Prop where
  queue : EventQueue threads
  pushed : threads.pushed.map .ofBytes = sent
  popped : threads.popped.map .ofBytes = taken

/-- The invariant of a core that was started safely. -/
structure Sound (noEvent : UInt32) (s : LspCore Tid) : Prop where
  stage : Stage s.start (s.evqueue.map QueueKeeper.keeper) s.queueMade
    s.threadMade
  unused : s.evqueue = none → s.sent = [] ∧ s.switched = []
  carries : ∀ keeper, s.evqueue = some keeper →
    Carries s.sent s.dispatched keeper.threads
  alone : s.threadMade = false → ∀ keeper, s.evqueue = some keeper →
    ¬TaskBlocked keeper.threads
  unharmed : s.usedDestroyed = false
  placeholders : ∀ taken ∈ s.switched, taken.2 ≠ lspErrNone →
    taken.1.ev = noEvent

theorem lspThreadCreate_eq_none_iff {created : Bool} :
    lspThreadCreate created = lspErrNone ↔ created = true := by
  cases created with
  | false => exact iff_of_false (by decide) (by decide)
  | true => exact iff_of_true rfl rfl

variable {noEvent : UInt32} {junk : Int} {s s' : LspCore Tid}

theorem Carries.order {sent taken : List LspCoreEvent}
    {threads : QueueThreads (CoreThread Tid)}
    (carries : Carries sent taken threads) : taken <+: sent := by
  rw [← carries.popped, ← carries.pushed, ← carries.queue.fifo.order,
    List.map_append]
  exact List.prefix_append _ _

namespace Sound

theorem initial (event : LspCoreEvent) :
    Sound noEvent (.initial event : LspCore Tid) := by
  refine ⟨⟨rfl, rfl, rfl⟩, fun _ => ⟨rfl, rfl⟩, ?_, ?_, rfl, ?_⟩
  · intro keeper found
    cases found
  · intro _ keeper found
    cases found
  · intro taken member
    cases member

theorem dispatches (sound : Sound noEvent s) : Dispatches noEvent s := by
  have stage := sound.stage
  refine ⟨?_, sound.unharmed, ?_, sound.placeholders, ?_⟩
  · intro rc returned
    rw [returned] at stage
    rcases stage with ⟨failed, _, unmade, _⟩ | ⟨rfl, made, _⟩
    · rw [unmade]
      exact iff_of_false failed (fun both => nomatch both.1)
    · rw [made, lspThreadCreate_eq_none_iff]
      exact (and_iff_right rfl).symm
  · cases found : s.evqueue with
    | none =>
        have nothing := (sound.unused found).2
        rw [dispatched, nothing]
        exact List.nil_prefix
    | some keeper => exact (sound.carries keeper found).order
  · intro rc returned failed keeper found
    rw [returned, found] at stage
    rcases stage with ⟨_, absent, _⟩ | ⟨_, made, place⟩
    · cases absent
    · have unmade : s.threadMade ≠ true := fun thread => failed ⟨made, thread⟩
      rw [if_neg unmade] at place
      exact Option.some.inj place

/-- While the task runs nobody gets past the guard of
`lsp_queue_destroy`. -/
theorem live (sound : Sound noEvent s) (made : s.threadMade = true) :
    ∃ keeper, s.evqueue = some keeper ∧ keeper.keeper = .outside := by
  have stage := sound.stage
  rw [made] at stage
  apply Option.map_eq_some_iff.mp
  cases start : s.start with
  | called =>
      rw [start] at stage
      exact absurd stage.2.2 (by decide)
  | queueCreated =>
      rw [start] at stage
      exact absurd stage.2.2 (by decide)
  | threadTried rc =>
      rw [start] at stage
      rcases stage with ⟨_, _, outside | ⟨_, unmade⟩⟩
      · exact outside
      · exact absurd unmade (by decide)
  | returned rc =>
      rw [start] at stage
      rcases stage with ⟨_, _, _, unmade⟩ | ⟨_, _, place⟩
      · exact absurd unmade (by decide)
      · exact place

theorem running (sound : Sound noEvent s)
    (returned : s.start = .returned lspErrNone) : s.threadMade = true :=
  ((sound.dispatches.result _ returned).mp rfl).2

theorem carried (sound : Sound noEvent s)
    {keeper : QueueKeeper (CoreThread Tid)}
    {threads : QueueThreads (CoreThread Tid)}
    (found : s.evqueue = some keeper) (made : s.threadMade = true)
    (same : s'.start = s.start ∧ s'.queueMade = s.queueMade ∧
      s'.threadMade = s.threadMade ∧ s'.usedDestroyed = s.usedDestroyed)
    (evqueue : s'.evqueue = some { keeper with threads := threads })
    (carries : Carries s'.sent s'.dispatched threads)
    (placeholders : ∀ taken ∈ s'.switched, taken.2 ≠ lspErrNone →
      taken.1.ev = noEvent) : Sound noEvent s' := by
  obtain ⟨start, queueMade, threadMade, unharmed⟩ := same
  refine ⟨?_, ?_, ?_, ?_, unharmed.trans sound.unharmed, placeholders⟩
  · have stage := sound.stage
    rw [found] at stage
    rw [start, evqueue, queueMade, threadMade]
    exact stage
  · intro absent
    rw [evqueue] at absent
    cases absent
  · intro keeper' found'
    rw [evqueue] at found'
    cases found'
    exact carries
  · intro unmade
    rw [threadMade, made] at unmade
    cases unmade

end Sound

/-! ## Sending and taking events -/

theorem coreTaskEvent_success (event : LspCoreEvent) :
    coreTaskEvent noEvent event lspErrNone = event := by
  rw [coreTaskEvent, if_neg (by decide), if_neg (by decide)]

theorem coreTaskEvent_failure {rc : Int} (event : LspCoreEvent)
    (failed : rc ≠ lspErrNone) :
    (coreTaskEvent noEvent event rc).ev = noEvent := by
  rw [coreTaskEvent, if_pos failed]
  split
  · rfl
  · rfl

theorem dispatched_popReturns_success (popped : List UInt8)
    (s : LspCore Tid) :
    (popReturns noEvent popped s (some lspErrNone)).dispatched =
      s.dispatched ++ [.ofBytes popped] := by
  simp [popReturns, dispatched, coreTaskEvent_success]

theorem dispatched_popReturns_failure {rc : Int} (failed : rc ≠ lspErrNone)
    (popped : List UInt8) (s : LspCore Tid) :
    (popReturns noEvent popped s (some rc)).dispatched = s.dispatched := by
  simp [popReturns, dispatched, failed]

section Sections

variable [DecidableEq Tid] {keeper : QueueKeeper (CoreThread Tid)}
  {threads : QueueThreads (CoreThread Tid)} {outcome : Option Int}
  {action : QueueAction (CoreThread Tid)}
  {finish : List UInt8 → LspCore Tid → Option Int → LspCore Tid}

theorem access_live (found : s.evqueue = some keeper)
    (outside : keeper.keeper = .outside)
    (accessed : s.access action finish = some s') :
    ∃ threads outcome,
      keeper.threads.exec action = some (threads, outcome) ∧
      s' = finish (keeper.threads.queue.entry keeper.threads.queue.head)
        { s with evqueue := some { keeper with threads := threads } }
        outcome := by
  rw [access, found, Option.bind_some, Option.map_eq_some_iff] at accessed
  obtain ⟨⟨threads, outcome⟩, executed, result⟩ := accessed
  have alive : keeper.keeper ≠ .destroyed := by
    rw [outside]
    exact nofun
  simp only [if_neg alive] at result
  exact ⟨threads, outcome, executed, result.symm⟩

theorem Sound.lockFails (sound : Sound noEvent s) {thread : Tid}
    (made : s.threadMade = true)
    (accessed : s.access (.lockFails (.sender thread)) (fun _ s _ => s) =
      some s') : Sound noEvent s' := by
  obtain ⟨keeper, found, outside⟩ := sound.live made
  obtain ⟨threads, outcome, executed, rfl⟩ :=
    access_live found outside accessed
  have same := QueueThreads.exec_lockFails executed
  subst same
  exact sound.carried found made ⟨rfl, rfl, rfl, rfl⟩ rfl
    (sound.carries keeper found) sound.placeholders

theorem Sound.send (sound : Sound noEvent s) {thread : Tid}
    {event : LspCoreEvent} {padding : Nat → UInt8}
    {clock : Option Timespec} {pick : CoreThread Tid}
    (made : s.threadMade = true)
    (accessed : s.access
      (.push (.sender thread) (event.bytes padding) 0 clock pick)
      (fun _ => sendReturns event) = some s') : Sound noEvent s' := by
  obtain ⟨keeper, found, outside⟩ := sound.live made
  obtain ⟨threads, outcome, executed, rfl⟩ :=
    access_live found outside accessed
  have carries := sound.carries keeper found
  obtain ⟨queue, popped, ⟨success, pushed⟩ | ⟨failed, pushed⟩⟩ :=
    carries.queue.push executed
  · rw [sendReturns, if_pos success]
    refine sound.carried found made ⟨rfl, rfl, rfl, rfl⟩ rfl
      ⟨queue, ?_, ?_⟩ sound.placeholders
    · rw [pushed, List.map_append, carries.pushed, List.map_singleton,
        LspCoreEvent.ofBytes_bytes]
    · rw [popped]
      exact carries.popped
  · rw [sendReturns, if_neg failed]
    refine sound.carried found made ⟨rfl, rfl, rfl, rfl⟩ rfl
      ⟨queue, ?_, ?_⟩ sound.placeholders
    · rw [pushed]
      exact carries.pushed
    · rw [popped]
      exact carries.popped

theorem Sound.taken (sound : Sound noEvent s) (made : s.threadMade = true)
    (found : s.evqueue = some keeper)
    (stepped : keeper.threads.Step action threads outcome)
    (nothing : QueueThreads.PushesNothing action)
    (queue : EventQueue threads) :
    Sound noEvent (popReturns noEvent
      (keeper.threads.queue.entry keeper.threads.queue.head)
      { s with evqueue := some { keeper with threads := threads } }
      outcome) := by
  have carries := sound.carries keeper found
  obtain ⟨pushed, popped⟩ := stepped.takes nothing
  have sent : threads.pushed.map .ofBytes = s.sent := by
    rw [pushed]
    exact carries.pushed
  cases outcome with
  | none =>
      have nothing : threads.popped = keeper.threads.popped := by
        rcases popped with ⟨success, _⟩ | ⟨_, popped⟩
        · cases success
        · exact popped
      refine sound.carried found made ⟨rfl, rfl, rfl, rfl⟩ rfl
        ⟨queue, sent, ?_⟩ sound.placeholders
      rw [nothing]
      exact carries.popped
  | some rc =>
      refine sound.carried found made ⟨rfl, rfl, rfl, rfl⟩ rfl
        ⟨queue, sent, ?_⟩ ?_
      · rcases popped with ⟨success, popped⟩ | ⟨failed, popped⟩
        · cases success
          rw [popped, List.map_append, carries.popped]
          exact (dispatched_popReturns_success _ _).symm
        · have unchanged : rc ≠ lspErrNone := fun same => failed (same ▸ rfl)
          rw [popped, carries.popped]
          exact (dispatched_popReturns_failure unchanged _ _).symm
      · intro taken member failed
        rcases List.mem_append.mp member with earlier | latest
        · exact sound.placeholders taken earlier failed
        · rw [List.mem_singleton] at latest
          subst latest
          exact coreTaskEvent_failure _ failed

theorem Sound.taskSection (sound : Sound noEvent s)
    (made : s.threadMade = true)
    (nothing : QueueThreads.PushesNothing action)
    (keeps : ∀ keeper threads outcome, s.evqueue = some keeper →
      EventQueue keeper.threads →
      keeper.threads.exec action = some (threads, outcome) →
      EventQueue threads)
    (accessed : s.access action (popReturns noEvent) = some s') :
    Sound noEvent s' := by
  obtain ⟨keeper, found, outside⟩ := sound.live made
  obtain ⟨threads, outcome, executed, rfl⟩ :=
    access_live found outside accessed
  have queue := (sound.carries keeper found).queue
  exact sound.taken made found (QueueThreads.step_of_exec executed) nothing
    (keeps keeper threads outcome found queue executed)

end Sections

/-! ## The steps of the start -/

theorem Sound.createQueue (sound : Sound noEvent s)
    {allocated initialised : Bool}
    (called : s.start = .called)
    (safe : (allocated = true ∧ initialised = true) ∨ junk ≠ lspErrNone) :
    Sound noEvent (s.startQueue junk allocated initialised) := by
  have stage := sound.stage
  rw [called] at stage
  obtain ⟨absent, unmade, threadless⟩ := stage
  have none := Option.map_eq_none_iff.mp absent
  obtain ⟨sent, switched⟩ := sound.unused none
  rw [startQueue]
  cases created : lspQueueCreate lspDefaultCoreEvqueueLen sizeofCoreEvent
      allocated initialised with
  | none =>
      have failed : junk ≠ lspErrNone := by
        rcases safe with ⟨rfl, rfl⟩ | failed
        · cases created
        · exact failed
      exact ⟨.inl ⟨failed, absent, unmade, threadless⟩, sound.unused,
        sound.carries, sound.alone, sound.unharmed, sound.placeholders⟩
  | some hdl =>
      refine ⟨⟨rfl, rfl, threadless⟩, nofun, ?_, ?_, sound.unharmed,
        sound.placeholders⟩
      · intro keeper found
        cases found
        refine ⟨.initial created, ?_, ?_⟩
        · exact sent.symm
        · rw [dispatched, switched]
          rfl
      · intro _ keeper found
        cases found
        exact fun blocked => by cases blocked <;> contradiction

theorem Sound.createThread (sound : Sound noEvent s) {created : Bool}
    (reached : s.start = .queueCreated) :
    Sound noEvent { s with
      start := .threadTried (lspThreadCreate created)
      threadMade := created } := by
  have stage := sound.stage
  rw [reached] at stage
  obtain ⟨outside, made, unmade⟩ := stage
  exact ⟨⟨rfl, made, .inl outside⟩, sound.unused, sound.carries,
    fun _ => sound.alone unmade, sound.unharmed, sound.placeholders⟩

section Destroy

variable [DecidableEq Tid]

theorem step_destroyGuard
    (stepped : step noEvent junk s .destroyGuard = some s') :
    ∃ rc keeper after outcome, s.start = .threadTried rc ∧
      s.evqueue = some keeper ∧
      keeper.passGuard .destroying = some (after, outcome) ∧
      s' = { s with
        evqueue := some after
        start := if outcome = none then .threadTried rc
          else .returned rc } := by
  simp only [step] at stepped
  split at stepped
  · rename_i rc tried
    obtain ⟨keeper, found, rest⟩ := Option.bind_eq_some_iff.mp stepped
    obtain ⟨⟨after, outcome⟩, passed, moved⟩ :=
      Option.map_eq_some_iff.mp rest
    exact ⟨rc, keeper, after, outcome, tried, found, passed, moved.symm⟩
  · cases stepped

/-- The guard of `lsp_queue_destroy` lets the start return if the task runs,
and lets it go on if not. -/
theorem Sound.destroyGuard (sound : Sound noEvent s)
    (safe : StartsSafely junk s .destroyGuard)
    (stepped : step noEvent junk s .destroyGuard = some s') :
    Sound noEvent s' := by
  obtain ⟨rc, keeper, after, outcome, tried, found, passed, rfl⟩ :=
    step_destroyGuard stepped
  have stage := sound.stage
  rw [tried, found] at stage
  obtain ⟨result, made, _⟩ := stage
  have carries := sound.carries keeper found
  obtain ⟨outside, ⟨used, rfl, rfl⟩ | ⟨unused, rfl, rfl⟩⟩ :=
    QueueKeeper.passGuard_cases passed
  · have blocked := carries.queue.inUse.mp used
    have running : s.threadMade = true := by
      rw [← Bool.not_eq_false]
      intro unmade
      exact sound.alone unmade _ found blocked
    have same : some after = s.evqueue := found.symm
    refine ⟨.inr ⟨result, made, ?_⟩, nofun, ?_, ?_, sound.unharmed,
      sound.placeholders⟩
    · simp only [running, if_true]
      exact congrArg some outside
    · rw [same]
      exact sound.carries
    · rw [same]
      exact sound.alone
  · have free : ¬TaskBlocked keeper.threads := by
      intro blocked
      rw [carries.queue.inUse.mpr blocked] at unused
      cases unused
    have unmade : s.threadMade = false := by
      rw [← Bool.not_eq_true]
      intro running
      exact free (safe running keeper found)
    refine ⟨⟨result, made, .inr ⟨rfl, unmade⟩⟩, nofun, ?_, ?_,
      sound.unharmed, sound.placeholders⟩
    · intro keeper' found'
      cases found'
      exact carries
    · intro _ keeper' found'
      cases found'
      exact free

theorem Sound.destroyFree (sound : Sound noEvent s)
    (stepped : step noEvent junk s .destroyFree = some s') :
    Sound noEvent s' := by
  simp only [step] at stepped
  split at stepped
  · rename_i rc tried
    obtain ⟨keeper, found, rest⟩ := Option.bind_eq_some_iff.mp stepped
    obtain ⟨⟨after, outcome⟩, freed, rfl⟩ := Option.map_eq_some_iff.mp rest
    have stage := sound.stage
    rw [tried, found] at stage
    obtain ⟨result, made, place⟩ := stage
    obtain ⟨destroying, gone⟩ := QueueKeeper.exec_destroyFree freed
    have unmade : s.threadMade = false := by
      rcases place with outside | ⟨_, unmade⟩
      · rw [Option.map_some, destroying] at outside
        cases outside
      · exact unmade
    refine ⟨.inr ⟨result, made, ?_⟩, nofun, ?_, ?_, sound.unharmed,
      sound.placeholders⟩
    · simp [unmade, gone]
    · intro keeper' found'
      cases found'
      rw [gone]
      exact sound.carries keeper found
    · intro _ keeper' found'
      cases found'
      rw [gone]
      exact sound.alone unmade keeper found
  · cases stepped

theorem Sound.step {action : CoreAction Tid} (sound : Sound noEvent s)
    (safe : StartsSafely junk s action)
    (stepped : step noEvent junk s action = some s') : Sound noEvent s' := by
  cases action with
  | createQueue allocated initialised =>
      obtain ⟨called, moved⟩ := Option.ite_none_right_eq_some.mp stepped
      cases moved
      exact sound.createQueue called safe
  | createThread created =>
      obtain ⟨reached, moved⟩ := Option.ite_none_right_eq_some.mp stepped
      cases moved
      exact sound.createThread reached
  | destroyGuard => exact sound.destroyGuard safe stepped
  | destroyFree => exact sound.destroyFree stepped
  | sendLockFails thread =>
      obtain ⟨returned, accessed⟩ :=
        Option.ite_none_right_eq_some.mp stepped
      exact sound.lockFails (sound.running returned) accessed
  | send thread event padding clock pick =>
      obtain ⟨returned, accessed⟩ :=
        Option.ite_none_right_eq_some.mp stepped
      exact sound.send (sound.running returned) accessed
  | taskLockFails =>
      obtain ⟨made, accessed⟩ := Option.ite_none_right_eq_some.mp stepped
      refine sound.taskSection made ?_ ?_ accessed
      · exact trivial
      · intro keeper threads outcome _ queue executed
        rw [QueueThreads.exec_lockFails executed]
        exact queue
  | taskPops clock pick =>
      obtain ⟨made, accessed⟩ := Option.ite_none_right_eq_some.mp stepped
      refine sound.taskSection made ?_ ?_ accessed
      · exact trivial
      · intro keeper threads outcome _ queue executed
        exact queue.pop executed
  | taskResumes result pick =>
      obtain ⟨⟨made, woken⟩, accessed⟩ :=
        Option.ite_none_right_eq_some.mp stepped
      refine sound.taskSection made ?_ ?_ accessed
      · exact trivial
      · intro keeper threads outcome found queue executed
        refine queue.popResumes ?_ executed
        intro success
        have marked := woken success
        simpa [taskSignalled, found] using marked

theorem Sound.run {actions : List (CoreAction Tid)} (sound : Sound noEvent s)
    (run : Run (LspCore.step noEvent junk) (StartsSafely junk) s actions s') :
    Sound noEvent s' := by
  apply run.invariant sound
  intro state action next sound safe stepped
  exact sound.step safe stepped

end Destroy

/-! ## When a start is safe -/

/-- Without a queue and with `LSP_ERR_NONE` in its variable the start returns
success. -/
theorem createQueue_harms {allocated initialised : Bool}
    (unmade : s.queueMade = false)
    (risky : ¬StartsSafely junk s (.createQueue allocated initialised)) :
    ¬Dispatches noEvent (s.startQueue junk allocated initialised) := by
  simp only [StartsSafely, not_or, not_not] at risky
  obtain ⟨failed, rfl⟩ := risky
  have absent : lspQueueCreate lspDefaultCoreEvqueueLen sizeofCoreEvent
      allocated initialised = none := by
    rw [lspQueueCreate, if_neg]
    simpa using failed
  rw [startQueue, absent]
  intro dispatches
  have both := (dispatches.result _ rfl).mp rfl
  exact absurd (unmade.symm.trans both.1) (by decide)

section Harm

variable [DecidableEq Tid]

/-- The queue is destroyed before the task gets to its next pop. -/
theorem Sound.destroyGuard_harms (sound : Sound noEvent s)
    (risky : ¬StartsSafely junk s .destroyGuard)
    (stepped : LspCore.step noEvent junk s .destroyGuard = some s') :
    ∃ more later,
      Run (LspCore.step noEvent junk) (StartsSafely junk) s' more later ∧
        later.usedDestroyed = true := by
  simp only [StartsSafely, not_forall] at risky
  obtain ⟨running, keeper, member, free⟩ := risky
  have found : s.evqueue = some keeper := member
  have queue := (sound.carries keeper found).queue
  have unused : lspQueueInUse keeper.threads.queue = false := by
    rw [← Bool.not_eq_true, queue.inUse]
    exact free
  obtain ⟨rc, keeper', after, outcome, tried, same, passed, rfl⟩ :=
    step_destroyGuard stepped
  cases found.symm.trans same
  obtain ⟨_, ⟨used, _⟩ | ⟨_, rfl, rfl⟩⟩ :=
    QueueKeeper.passGuard_cases passed
  · rw [unused] at used
    cases used
  · obtain ⟨⟨threads, outcome⟩, pops⟩ :=
      queue.can_pop free coreTaskSleep none .task
    let returned : LspCore Tid := { s with
      evqueue := some { keeper with keeper := .destroyed }
      start := .returned rc }
    have freed : Run (LspCore.step noEvent junk) (StartsSafely junk)
        { s with
          evqueue := some { keeper with keeper := .destroying }
          start := .threadTried rc }
        ([] ++ [.destroyFree]) returned :=
      .snoc .nil trivial rfl
    have pop : LspCore.step noEvent junk returned (.taskPops none .task) =
        some { returned with usedDestroyed := true } := by
      simp [LspCore.step, returned, running, access, pops]
    rw [if_pos rfl]
    refine ⟨[] ++ [.destroyFree] ++ [.taskPops none .task],
      { returned with usedDestroyed := true }, .snoc freed ?_ pop, rfl⟩
    exact trivial

/-- A step of the start is safe exactly if nothing can go wrong after it. -/
theorem Sound.safe_iff {action : CoreAction Tid} (sound : Sound noEvent s)
    (stepped : LspCore.step noEvent junk s action = some s') :
    (∀ more later,
      Run (LspCore.step noEvent junk) (StartsSafely junk) s' more later →
        Dispatches noEvent later) ↔ StartsSafely junk s action := by
  constructor
  · intro dispatches
    by_contra risky
    cases action with
    | createQueue allocated initialised =>
        obtain ⟨called, moved⟩ := Option.ite_none_right_eq_some.mp stepped
        cases moved
        have stage := sound.stage
        rw [called] at stage
        exact createQueue_harms stage.2.1 risky (dispatches [] _ .nil)
    | destroyGuard =>
        obtain ⟨more, later, run, used⟩ :=
          sound.destroyGuard_harms risky stepped
        have unharmed := (dispatches more later run).unharmed
        rw [used] at unharmed
        cases unharmed
    | _ => exact risky trivial
  · intro safe more later run
    exact ((sound.step safe stepped).run run).dispatches

/-- In every run of a safe start with its senders and its task, success is
reported exactly if the queue and the thread exist, the destroyed queue is
not used, and the events are taken in the order in which they were sent; and
no step but a safe one leaves all that to hold from then on. -/
theorem dispatches_iff {event : LspCoreEvent}
    {actions : List (CoreAction Tid)}
    (run : Run (LspCore.step noEvent junk) (StartsSafely junk)
      (initial event) actions s) :
    Dispatches noEvent s ∧
      ∀ action s', LspCore.step noEvent junk s action = some s' →
        ((∀ more later,
          Run (LspCore.step noEvent junk) (StartsSafely junk) s' more later →
            Dispatches noEvent later) ↔ StartsSafely junk s action) := by
  have sound : Sound noEvent s := (Sound.initial event).run run
  refine ⟨sound.dispatches, ?_⟩
  intro action s' stepped
  exact sound.safe_iff stepped

section Examples

/-- The task blocks before the start gets to the end, and later it is woken
for an event. -/
def quickTask : List (CoreAction Nat) :=
  [.createQueue true true,
    .createThread true,
    .taskPops (some ⟨0, 0⟩) .task,
    .destroyGuard,
    .send 0 ⟨1, 7⟩ (fun _ => 0) none .task,
    .taskResumes .ok .task]

theorem dispatches_of_quickTask :
    ∃ s, Run (LspCore.step 0 0) (StartsSafely 0) (initial ⟨0, 0⟩)
        quickTask s ∧
      s.dispatched = [⟨1, 7⟩] ∧ Dispatches 0 s := by
  have executed :
      (execute (LspCore.step 0 0) (StartsSafely 0) (initial ⟨0, 0⟩)
        quickTask).map dispatched = some [⟨1, 7⟩] := by
    decide
  obtain ⟨s, run, taken⟩ := exists_run_of_execute executed
  exact ⟨s, run, taken, (dispatches_iff run).1⟩

/-- The start gets to its end before the task gets to its first pop. -/
def quickStart : List (CoreAction Nat) :=
  [.createQueue true true,
    .createThread true,
    .destroyGuard,
    .destroyFree,
    .taskPops (some ⟨0, 0⟩) .task]

/-- After a start that returned success the task uses the destroyed queue;
and without a queue a start can return success. -/
theorem quickStart_destroys :
    (∃ s, Run (LspCore.step 0 0) Anywhere (initial ⟨0, 0⟩) quickStart s ∧
      s.start = .returned lspErrNone ∧ s.usedDestroyed = true ∧
      ¬Dispatches 0 s) ∧
    ∃ s : LspCore Nat, Run (LspCore.step 0 0) Anywhere (initial ⟨0, 0⟩)
        [.createQueue false false] s ∧
      s.start = .returned lspErrNone ∧ s.evqueue.isNone = true ∧
      ¬Dispatches 0 s := by
  constructor
  · have executed :
        (execute (LspCore.step 0 0) Anywhere (initial ⟨0, 0⟩)
          quickStart).map (fun s => (s.start, s.usedDestroyed)) =
          some (.returned lspErrNone, true) := by
      decide
    obtain ⟨s, run, view⟩ := exists_run_of_execute executed
    simp only [Prod.mk.injEq] at view
    refine ⟨s, run, view.1, view.2, ?_⟩
    intro dispatches
    have unharmed := dispatches.unharmed
    rw [view.2] at unharmed
    cases unharmed
  · have executed :
        (execute (LspCore.step 0 0) Anywhere
          (initial ⟨0, 0⟩ : LspCore Nat)
          [.createQueue false false]).map
            (fun s => (s.start, s.evqueue.isNone, s.queueMade)) =
          some (.returned lspErrNone, true, false) := by
      decide
    obtain ⟨s, run, view⟩ := exists_run_of_execute executed
    simp only [Prod.mk.injEq] at view
    obtain ⟨returned, absent, unmade⟩ := view
    refine ⟨s, run, returned, absent, ?_⟩
    intro dispatches
    have both := (dispatches.result _ returned).mp rfl
    rw [unmade] at both
    cases both.1

end Examples

end Harm

end LspCore

end Liblsp
