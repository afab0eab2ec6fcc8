import Liblsp.Base.Flags
import Liblsp.EgroupUnsatisfied

/-!
# The bits of an event group as flags

Whoever sets a bit raises a flag, and every wait that ends with the mutex held
looks at all flags and takes those of its own bits, or all of them with
`clearOnExit`.  So no event is delivered to two waits, and a bit that nobody
has taken stays set, whatever the order of the threads, the timeouts and the
failures of the condition variable.
-/

namespace Liblsp

open Base

def hasBit (bits : UInt32) (bit : Nat) : Bool := bits.toBitVec.getLsbD bit

section Bits

variable (left right : UInt32) (bit : Nat)

@[simp] theorem hasBit_zero : hasBit 0 bit = false := by
  simp [hasBit]

@[simp] theorem hasBit_or :
    hasBit (left ||| right) bit = (hasBit left bit || hasBit right bit) := by
  simp [hasBit]

@[simp] theorem hasBit_and_not :
    hasBit (left &&& ~~~right) bit =
      (hasBit left bit && !hasBit right bit) := by
  simp only [hasBit, UInt32.toBitVec_and, UInt32.toBitVec_not,
    BitVec.getLsbD_and, BitVec.getLsbD_not]
  by_cases inside : bit < 32
  · simp [inside]
  · have outside : left.toBitVec.getLsbD bit = false :=
      BitVec.getLsbD_of_ge _ _ (by omega)
    simp [outside]

end Bits

/-- The exit of the call takes the event of the bit. -/
def EgroupCall.takes (call : EgroupCall) (bit : Nat) : Bool :=
  call.clearOnExit || hasBit call.bits bit

theorem EgroupCall.exit_hasBit (call : EgroupCall) (eventBits : UInt32)
    (bit : Nat) :
    hasBit (call.exit eventBits).1 bit =
      (hasBit eventBits bit && !call.takes bit) := by
  cases clear : call.clearOnExit with
  | true => simp [exit, takes, clear]
  | false => simp [exit, takes, clear]

/-- What a wait that returns `ebits` does to the flag of a bit. -/
def EgroupCall.flagCall (call : EgroupCall) (bit : Nat) (ebits : UInt32) :
    FlagCall :=
  (if call.takes bit then .take else .look, some (hasBit ebits bit))

theorem lspEgroupWaitResumed_exits (eventBits : UInt32) (call : EgroupCall)
    (result : WaitResult) (now clock : Option Timespec) :
    lspEgroupWaitResumed eventBits call result now clock =
        call.exit eventBits ∨
      ∃ blocked, lspEgroupWaitResumed eventBits call result now clock =
        (eventBits, .wait blocked) := by
  have loops : call.loop eventBits now clock = call.exit eventBits ∨
      ∃ blocked, call.loop eventBits now clock =
        (eventBits, .wait blocked) := by
    rcases call.loop_cases eventBits now clock with
      exits | ⟨blocked, _, blocks, _⟩
    · exact .inl exits
    · exact .inr ⟨blocked, blocks⟩
  rw [lspEgroupWaitResumed]
  split
  · split
    · exact .inl rfl
    · exact loops
  · split
    · exact .inl rfl
    · split
      · exact .inl rfl
      · exact loops

namespace EgroupThreads

variable {Tid : Type}

/-- What a step does to one bit, if anything. -/
def servedBit (bit : Nat) (s : EgroupThreads Tid) (event : EgroupEvent Tid)
    (outcome : Option UInt32) : Option FlagCall :=
  match event with
  | .action (.set _ bits) =>
      if hasBit bits bit then some (.raise, none) else none
  | event =>
      (s.eventCall event).bind fun call =>
        outcome.map (call.flagCall bit)

/-- The flag of a bit. -/
def BitIs (bit : Nat) (s : EgroupThreads Tid) (up : Bool) : Prop :=
  hasBit s.eventBits bit = up

variable [DecidableEq Tid] {s s' : EgroupThreads Tid} {bit : Nat}
  {outcome : Option UInt32}

theorem servedBit_section {thread : Tid} {cond : CondVar Tid}
    {call : EgroupCall} {part : UInt32 × EgroupEnd}
    (exits : part = call.exit s.eventBits ∨
      ∃ blocked, part = (s.eventBits, .wait blocked))
    (ended : ({ s with cond := cond } : EgroupThreads Tid).endSection thread
      part = (s', outcome)) :
    ServedBy flag (BitIs bit s') (hasBit s.eventBits bit)
      (outcome.map (call.flagCall bit)) := by
  rcases exits with rfl | ⟨blocked, rfl⟩
  · cases ended
    have after := call.exit_hasBit s.eventBits bit
    cases takes : call.takes bit with
    | true =>
        rw [takes, Bool.not_true, Bool.and_false] at after
        rw [Option.map_some, EgroupCall.flagCall, takes]
        exact @ServedBy.answers _ _ _ flag _ (hasBit s.eventBits bit) .take
          after
    | false =>
        rw [takes, Bool.not_false, Bool.and_true] at after
        rw [Option.map_some, EgroupCall.flagCall, takes]
        exact @ServedBy.answers _ _ _ flag _ (hasBit s.eventBits bit) .look
          after
  · cases ended
    exact .quiet rfl

theorem servedBit_of_execEvent {event : EgroupEvent Tid}
    (executed : s.execEvent event = some (s', outcome)) :
    ServedBy flag (BitIs bit s') (hasBit s.eventBits bit)
      (s.servedBit bit event outcome) := by
  cases event with
  | condFails thread =>
      obtain ⟨call, cond, place, _, ended⟩ := execEvent_condFails.mp executed
      have continued : s.eventCall (.condFails thread) = some call := place
      rw [servedBit, continued]
      · exact servedBit_section (lspEgroupWaitResumed_exits ..) ended
      · nofun
  | action action =>
      cases action with
      | wait thread bits clearOnExit waitAll timeout start now clock =>
          obtain ⟨_, ended⟩ := exec_wait.mp executed
          refine @servedBit_section _ _ s _ _ _ thread s.cond _ _ ?_ ended
          rcases (EgroupCall.enter bits clearOnExit waitAll timeout
            start).loop_cases s.eventBits now clock with
            exits | ⟨blocked, _, blocks, _⟩
          · exact .inl exits
          · exact .inr ⟨blocked, blocks⟩
      | resume thread result now clock =>
          obtain ⟨call, cond, place, _, ended⟩ := exec_resume.mp executed
          have continued :
              s.eventCall (.action (.resume thread result now clock)) =
                some call := place
          rw [servedBit, continued]
          · exact servedBit_section (lspEgroupWaitResumed_exits ..) ended
          · nofun
      | waitLockFails thread ebits =>
          obtain ⟨_, same⟩ := exec_waitLockFails.mp executed
          cases same
          exact .quiet rfl
      | set thread bits =>
          obtain ⟨_, same⟩ := exec_set.mp executed
          cases same
          rw [servedBit]
          have after : hasBit (lspEgroupSetLocked s.eventBits bits) bit =
              (hasBit s.eventBits bit || hasBit bits bit) :=
            hasBit_or _ _ _
          cases sets : hasBit bits bit with
          | true =>
              rw [sets, Bool.or_true] at after
              exact @ServedBy.answers _ _ _ flag _ _ .raise after
          | false =>
              rw [sets, Bool.or_false] at after
              exact .quiet after
      | setLockFails thread =>
          obtain ⟨_, same⟩ := exec_setLockFails.mp executed
          cases same
          exact .quiet rfl

/-- A bit as a flag: what is done to it in a run, and what the waits see of
it. -/
structure DeliversOnce (bit : Nat) (calls : List FlagCall)
    (s : EgroupThreads Tid) : Prop where
  legal : Legal flag false calls
  pending : replay flag false calls = hasBit s.eventBits bit
  counted : taken calls + (hasBit s.eventBits bit).toNat ≤ raised calls
  between : ∀ before middle after answer,
    calls = before ++ (.take, answer) :: middle ++
      (.take, some true) :: after → (.raise, none) ∈ middle

/-- In every run each bit is a flag: a wait sees it exactly if it is pending,
it is taken no more often than it was set, and what nobody took is still
there. -/
theorem deliversOnce_of_run (bit : Nat) {events : List (EgroupEvent Tid)}
    {s : EgroupThreads Tid}
    (run : Run stepEvent Anywhere initial events s) :
    DeliversOnce bit (history execEvent (servedBit bit) initial events) s := by
  have serves : Serves (BitIs bit) Anywhere
      (execEvent : EgroupThreads Tid → _) (servedBit bit) flag := by
    intro state up event next outcome isUp _ executed
    cases isUp
    exact servedBit_of_execEvent executed
  have start : BitIs bit (initial : EgroupThreads Tid) false :=
    hasBit_zero bit
  obtain ⟨legal, pending⟩ := serves.run start run
  have fewer := taken_le_raised legal
  rw [← pending] at fewer
  refine ⟨legal, pending.symm, fewer, ?_⟩
  intro before middle after answer split
  rw [split] at legal
  exact raised_between legal

section Examples

/-- A thread waits for two bits, a second one takes the first of them away,
and the condition variable fails under the first thread. -/
def twoTakers : List (EgroupEvent Nat) :=
  [.action (.wait 0 3 false true lspTimeoutMax none none none),
    .action (.set 1 1),
    .action (.wait 2 1 false false lspTimeoutMax none none none),
    .action (.resume 0 .ok none none),
    .condFails 0,
    .action (.set 1 3)]

theorem deliversOnce_of_twoTakers :
    ∃ s, Run stepEvent Anywhere initial twoTakers s ∧
      history execEvent (servedBit 0) initial twoTakers =
        [(.raise, none), (.take, some true), (.take, some false),
          (.raise, none)] ∧
      DeliversOnce 0 (history execEvent (servedBit 0) initial twoTakers)
        s := by
  have executed :
      (execute stepEvent Anywhere initial twoTakers).map (fun _ => ()) =
        some () := by
    decide
  obtain ⟨s, run, _⟩ := exists_run_of_execute executed
  exact ⟨s, run, by decide, deliversOnce_of_run 0 run⟩

end Examples

end EgroupThreads

end Liblsp
