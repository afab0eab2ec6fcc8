import Liblsp.Base.Refinement
import Liblsp.Base.Threads

/-!
# Sections under one lock

Threads take turns statement by statement, but what they share is touched
under one lock only.  Then nobody can tell a whole section, from the taking
of the lock to its release, from one step at the moment of the release.
-/

namespace Base

/-- What a thread does with its next statement, and the places at which it
holds the lock. -/
structure Statements (Tid σ Place Choice ο : Type*) where
  holds : Place → Bool
  run : Tid → σ → Place → Choice → Option (σ × Place × ο)

/-- What the threads share, who holds the lock, and where everybody is. -/
structure Interleaving (Tid σ Place : Type*) where
  shared : σ
  owner : Option Tid
  place : Tid → Place

variable {Tid σ Place Choice ι ρ τ β π : Type*} {ο : Type*}

namespace Statements

/-- Some threads run some statements only. -/
def Allows (allowed : Tid → σ → Place → Choice → Prop)
    (s : Interleaving Tid σ Place) (action : Tid × Choice) : Prop :=
  allowed action.1 s.shared (s.place action.1) action.2

instance (allowed : Tid → σ → Place → Choice → Prop)
    [∀ thread shared place choice,
      Decidable (allowed thread shared place choice)]
    (s : Interleaving Tid σ Place) (action : Tid × Choice) :
    Decidable (Allows allowed s action) :=
  inferInstanceAs (Decidable (allowed _ _ _ _))

variable (program : Statements Tid σ Place Choice (Option (ι × ρ)))
  (allowed : Tid → σ → Place → Choice → Prop)

/-- Without the lock a thread neither sees nor changes what is shared, and
no call takes effect before the release. -/
structure Disciplined : Prop where
  outside : ∀ thread shared place choice shared' place' outcome,
    program.holds place = false →
      program.run thread shared place choice =
        some (shared', place', outcome) →
      program.holds place' = false →
      shared' = shared ∧ ∀ other,
        program.run thread other place choice = some (other, place', outcome)
  unguarded : ∀ thread shared place choice shared' place' outcome,
    program.holds place = false →
      program.run thread shared place choice =
        some (shared', place', outcome) →
      program.holds place' = false → allowed thread shared place choice →
      ∀ other, allowed thread other place choice
  quiet : ∀ thread shared place choice shared' place' outcome,
    program.run thread shared place choice =
        some (shared', place', outcome) →
      program.holds place' = true → outcome = none

/-- A thread took the lock at `before`, with the shared state `start`, and
has come to another place by itself. -/
inductive Holding (thread : Tid) (start : σ) (before : Place) :
    σ → Place → Prop where
  | locks {choice : Choice} {shared : σ} {place : Place} :
      program.holds before = false →
      allowed thread start before choice →
      program.run thread start before choice = some (shared, place, none) →
      program.holds place = true →
      Holding thread start before shared place
  | goesOn {choice : Choice} {shared shared' : σ} {place place' : Place} :
      Holding thread start before shared place →
      allowed thread shared place choice →
      program.run thread shared place choice =
        some (shared', place', none) →
      program.holds place' = true →
      Holding thread start before shared' place'

/-- A thread runs alone from a place without the lock to the next such
place. -/
inductive Section (thread : Tid) (start : σ) (before : Place) :
    σ → Place → Option (ι × ρ) → Prop where
  | outside {choice : Choice} {shared : σ} {place : Place}
      {outcome : Option (ι × ρ)} :
      program.holds before = false →
      allowed thread start before choice →
      program.run thread start before choice =
        some (shared, place, outcome) →
      program.holds place = false →
      Section thread start before shared place outcome
  | unlocks {choice : Choice} {shared shared' : σ} {place place' : Place}
      {outcome : Option (ι × ρ)} :
      Holding program allowed thread start before shared place →
      allowed thread shared place choice →
      program.run thread shared place choice =
        some (shared', place', outcome) →
      program.holds place' = false →
      Section thread start before shared' place' outcome

section Holding

variable {program allowed}

theorem Holding.holds {thread : Tid} {start shared : σ}
    {before place : Place}
    (holding : Holding program allowed thread start before shared place) :
    program.holds place = true := by
  cases holding with
  | locks _ _ _ held => exact held
  | goesOn _ _ _ held => exact held

theorem Holding.before {thread : Tid} {start shared : σ}
    {before place : Place}
    (holding : Holding program allowed thread start before shared place) :
    program.holds before = false := by
  induction holding with
  | locks unheld _ _ _ => exact unheld
  | goesOn _ _ _ _ induction => exact induction

end Holding

variable [DecidableEq Tid]

/-- A statement that takes the lock waits until it is free. -/
def exec (program : Statements Tid σ Place Choice ο)
    (s : Interleaving Tid σ Place) (action : Tid × Choice) :
    Option (Interleaving Tid σ Place × ο) :=
  (program.run action.1 s.shared (s.place action.1) action.2).bind
    fun ended =>
      if program.holds ended.2.1 = true ∧
          program.holds (s.place action.1) = false ∧ s.owner ≠ none then none
      else
        some
          ({ shared := ended.1
             owner :=
               if program.holds ended.2.1 then some action.1
               else if program.holds (s.place action.1) then none
               else s.owner
             place := Function.update s.place action.1 ended.2.1 },
            ended.2.2)

/-- The coarse system has not seen the section that is under way. -/
inductive Lags (free : σ → (Tid → Place) → τ → Prop) (model : τ) :
    Interleaving Tid σ Place → Prop where
  | unlocked {shared : σ} {places : Tid → Place} :
      (∀ thread, program.holds (places thread) = false) →
      free shared places model →
      Lags free model ⟨shared, none, places⟩
  | locked (start : σ) (thread : Tid) (before : Place) {shared : σ}
      {places : Tid → Place} :
      (∀ other, other ≠ thread → program.holds (places other) = false) →
      Holding program allowed thread start before shared (places thread) →
      free start (Function.update places thread before) model →
      Lags free model ⟨shared, some thread, places⟩

variable {program allowed}

/-- Every section of a thread that runs alone is a run of the coarse
system. -/
def MatchesSections (program : Statements Tid σ Place Choice (Option (ι × ρ)))
    (allowed : Tid → σ → Place → Choice → Prop)
    (free : σ → (Tid → Place) → τ → Prop) (limit : τ → β → Prop)
    (coarse : τ → β → Option (τ × π)) (noted : τ → β → π → Option (ι × ρ)) :
    Prop :=
  ∀ thread start places model shared place outcome,
    free start places model →
    (∀ other, program.holds (places other) = false) →
    Section program allowed thread start (places thread) shared place
      outcome →
    ∃ actions model',
      Run (fun model action => (coarse model action).map Prod.fst) limit
          model actions model' ∧
        history coarse noted model actions = outcome.toList ∧
        free shared (Function.update places thread place) model'

theorem exec_cases {s s' : Interleaving Tid σ Place} {thread : Tid}
    {choice : Choice} {outcome : Option (ι × ρ)}
    (executed : program.exec s (thread, choice) = some (s', outcome)) :
    ∃ shared place,
      program.run thread s.shared (s.place thread) choice =
          some (shared, place, outcome) ∧
        (program.holds place = true →
          program.holds (s.place thread) = false → s.owner = none) ∧
        s' = ⟨shared,
          if program.holds place then some thread
          else if program.holds (s.place thread) then none else s.owner,
          Function.update s.place thread place⟩ := by
  obtain ⟨⟨shared, place, ended⟩, runs, moved⟩ :=
    Option.bind_eq_some_iff.mp executed
  split at moved
  · cases moved
  · rename_i free
    simp only [Option.some.injEq, Prod.mk.injEq] at moved
    obtain ⟨same, rfl⟩ := moved
    refine ⟨shared, place, runs, ?_, same.symm⟩
    intro held unheld
    by_contra taken
    exact free ⟨held, unheld, taken⟩

/-- The thread that is said to hold the lock is the one at a place with the
lock. -/
def Owned (program : Statements Tid σ Place Choice (Option (ι × ρ)))
    (s : Interleaving Tid σ Place) : Prop :=
  ∀ thread, s.owner = some thread ↔ program.holds (s.place thread) = true

theorem Owned.exec {s s' : Interleaving Tid σ Place}
    {action : Tid × Choice} {outcome : Option (ι × ρ)}
    (owned : Owned program s)
    (executed : program.exec s action = some (s', outcome)) :
    Owned program s' := by
  obtain ⟨mover, choice⟩ := action
  obtain ⟨shared, place, _, available, rfl⟩ := exec_cases executed
  have alone : ∀ thread, thread ≠ mover →
      program.holds (s.place mover) = true →
      program.holds (s.place thread) = false := by
    intro thread different held
    rw [Bool.eq_false_iff]
    intro other
    have same := ((owned thread).mpr other).symm.trans
      ((owned mover).mpr held)
    exact different (Option.some.inj same)
  intro thread
  by_cases same : thread = mover
  · subst thread
    simp only [Function.update_self]
    cases held : program.holds place with
    | true => simp
    | false =>
        cases before : program.holds (s.place mover) with
        | true => simp
        | false => simp [owned mover, before]
  · simp only [Function.update_of_ne same]
    cases held : program.holds place with
    | true =>
        have idle : program.holds (s.place thread) = false := by
          cases before : program.holds (s.place mover) with
          | true => exact alone thread same before
          | false =>
              rw [Bool.eq_false_iff]
              intro other
              have taken := (owned thread).mpr other
              rw [available held before] at taken
              cases taken
        simp [idle, Ne.symm same]
    | false =>
        cases before : program.holds (s.place mover) with
        | true => simp [alone thread same before]
        | false => simp [owned thread]

theorem Owned.run {s s' : Interleaving Tid σ Place}
    {guard : Interleaving Tid σ Place → Tid × Choice → Prop}
    {actions : List (Tid × Choice)} (owned : Owned program s)
    (run : Run (fun s action => (program.exec s action).map Prod.fst) guard s
      actions s') : Owned program s' := by
  apply run.invariant owned
  intro s action s' owned _ stepped
  obtain ⟨⟨_, outcome⟩, executed, rfl⟩ := Option.map_eq_some_iff.mp stepped
  exact owned.exec executed

theorem unheld_update {places : Tid → Place} {thread other : Tid}
    {place : Place}
    (elsewhere : other ≠ thread → program.holds (places other) = false)
    (unheld : program.holds place = false) :
    program.holds (Function.update places thread place other) = false := by
  by_cases same : other = thread
  · rw [same, Function.update_self]
    exact unheld
  · rw [Function.update_of_ne same]
    exact elsewhere same

theorem Lags.free {free : σ → (Tid → Place) → τ → Prop} {model : τ}
    {s : Interleaving Tid σ Place}
    (lags : Lags program allowed free model s) (available : s.owner = none) :
    free s.shared s.place model := by
  cases lags with
  | unlocked _ related => exact related
  | locked => cases available

section Reduction

variable {free : σ → (Tid → Place) → τ → Prop} {limit : τ → β → Prop}
  {coarse : τ → β → Option (τ × π)} {noted : τ → β → π → Option (ι × ρ)}
  {model : τ} {mover : Tid} {start shared shared' : σ}
  {places : Tid → Place} {before place : Place} {choice : Choice}
  {outcome : Option (ι × ρ)}

theorem Lags.locks
    (unheld : ∀ other, program.holds (places other) = false)
    (related : free start places model)
    (may : allowed mover start (places mover) choice)
    (runs : program.run mover start (places mover) choice =
      some (shared, place, none))
    (held : program.holds place = true) :
    Lags program allowed free model
      ⟨shared, some mover, Function.update places mover place⟩ := by
  refine .locked start mover (places mover) ?_ ?_ ?_
  · intro other different
    rw [Function.update_of_ne different]
    exact unheld other
  · rw [Function.update_self]
    exact .locks (unheld mover) may runs held
  · rw [Function.update_idem, Function.update_eq_self]
    exact related

theorem Lags.goesOn
    (unheld : ∀ other, other ≠ mover → program.holds (places other) = false)
    (holding : Holding program allowed mover start before shared
      (places mover))
    (related : free start (Function.update places mover before) model)
    (may : allowed mover shared (places mover) choice)
    (runs : program.run mover shared (places mover) choice =
      some (shared', place, none))
    (held : program.holds place = true) :
    Lags program allowed free model
      ⟨shared', some mover, Function.update places mover place⟩ := by
  refine .locked start mover before ?_ ?_ ?_
  · intro other different
    rw [Function.update_of_ne different]
    exact unheld other different
  · rw [Function.update_self]
    exact .goesOn holding may runs held
  · rw [Function.update_idem]
    exact related

/-- The coarse system catches up at the end of a section. -/
theorem catches_up
    (sections : MatchesSections program allowed free limit coarse noted)
    (unheld : ∀ other, program.holds (places other) = false)
    (related : free start places model)
    (whole : Section program allowed mover start (places mover) shared place
      outcome)
    (held : program.holds place = false) :
    ∃ actions model',
      Run (fun model action => (coarse model action).map Prod.fst) limit
          model actions model' ∧
        history coarse noted model actions = outcome.toList ∧
        Lags program allowed free model'
          ⟨shared, none, Function.update places mover place⟩ := by
  obtain ⟨actions, model', run, same, kept⟩ :=
    sections mover start places model shared place outcome related unheld
      whole
  exact ⟨actions, model', run, same,
    .unlocked (fun other => unheld_update (fun _ => unheld other) held) kept⟩

theorem passes_by
    (sections : MatchesSections program allowed free limit coarse noted)
    {owner : Tid} (own : mover ≠ owner)
    (unheld : ∀ other, other ≠ owner → program.holds (places other) = false)
    (holding : Holding program allowed owner start before shared
      (places owner))
    (related : free start (Function.update places owner before) model)
    (whole : Section program allowed mover start (places mover) start place
      outcome)
    (held : program.holds place = false) :
    ∃ actions model',
      Run (fun model action => (coarse model action).map Prod.fst) limit
          model actions model' ∧
        history coarse noted model actions = outcome.toList ∧
        Lags program allowed free model'
          ⟨shared, some owner, Function.update places mover place⟩ := by
  rw [← Function.update_of_ne own before places] at whole
  obtain ⟨actions, model', run, same, kept⟩ :=
    sections mover start _ model start place outcome related
      (fun other => unheld_update (unheld other) holding.before) whole
  refine ⟨actions, model', run, same, .locked start owner before ?_ ?_ ?_⟩
  · intro other different
    exact unheld_update (fun _ => unheld other different) held
  · rw [Function.update_of_ne (Ne.symm own)]
    exact holding
  · rw [Function.update_comm own]
    exact kept

/-- Statements that take turns do what whole sections do. -/
theorem matches_of_sections (disciplined : Disciplined program allowed)
    (sections : MatchesSections program allowed free limit coarse noted) :
    Matches (fun s model => Lags program allowed free model s)
      (Allows allowed) program.exec (fun _ _ outcome => outcome) limit coarse
      noted := by
  rintro s model ⟨mover, choice⟩ s' outcome lags may executed
  obtain ⟨shared, place, runs, available, rfl⟩ := exec_cases executed
  cases lags with
  | unlocked unheld related =>
      cases held : program.holds place with
      | false =>
          simp only [unheld mover, Bool.false_eq_true, if_false]
          exact catches_up sections unheld related
            (.outside (unheld mover) may runs held) held
      | true =>
          have silent := disciplined.quiet _ _ _ _ _ _ _ runs held
          subst outcome
          simp only [if_true]
          exact ⟨[], model, .nil, rfl,
            .locks unheld related may runs held⟩
  | @locked start owner before now places unheld holding related =>
      by_cases own : mover = owner
      · subst mover
        cases held : program.holds place with
        | true =>
            have silent := disciplined.quiet _ _ _ _ _ _ _ runs held
            subst outcome
            simp only [if_true]
            exact ⟨[], model, .nil, rfl,
              .goesOn unheld holding related may runs held⟩
        | false =>
            have whole : Section program allowed owner start
                (Function.update places owner before owner) shared place
                outcome := by
              rw [Function.update_self]
              exact .unlocks holding may runs held
            have caught := catches_up sections
              (fun other => unheld_update (unheld other) holding.before)
              related whole held
            simp only [holding.holds, Bool.false_eq_true, if_false, if_true]
            rw [Function.update_idem] at caught
            exact caught
      · have away := unheld mover own
        have held : program.holds place = false := by
          rw [Bool.eq_false_iff]
          intro held
          cases available held away
        obtain ⟨rfl, anywhere⟩ :=
          disciplined.outside _ _ _ _ _ _ _ away runs held
        simp only [held, away, Bool.false_eq_true, if_false]
        exact passes_by sections own unheld holding related
          (.outside away
            (disciplined.unguarded _ _ _ _ _ _ _ away runs held may start)
            (anywhere start) held)
          held

end Reduction

end Statements

end Base
