import Liblsp.Base.Run
import Liblsp.Iflist
import Liblsp.ListAccesses
import Mathlib.Logic.Function.Basic

/-!
# Looking up interfaces while others are registered

Nothing locks the list of interfaces.  One load or one store is a step, and
every thread sees the stores in the order of the source.  As long as a single
thread registers interfaces, each look-up answers as if it were made at once
at some instant of its call; two threads that register lose an interface.
-/

namespace Liblsp

open Base

/-- What a thread looks for. -/
inductive IflistRequest where
  | byaddr (addr : UInt16)
  | byname (name : Nat → UInt8)

/-- The access that a thread makes next, with what it has read so far. -/
inductive IflistPlace where
  | outside
  | loop (request : IflistRequest) (place : LoopPlace IflistNode)
  | readNext (iface : Nat)
  | linking (iface : Nat) (next : IflistNode) (store : LinkStore)

namespace IflistPlace

/-- The look-up that a thread is in. -/
def request : IflistPlace → Option IflistRequest
  | .loop request _ => some request
  | .outside | .readNext _ | .linking .. => none

/-- The thread registers an interface. -/
def adding : IflistPlace → Bool
  | .readNext _ | .linking .. => true
  | .outside | .loop .. => false

end IflistPlace

namespace Iflist

/-- The test of the loop. -/
def stops (s : Iflist) (request : IflistRequest) (iface : IflistNode) :
    Bool :=
  match request with
  | .byaddr addr => addr = (s.iface iface).devAddr
  | .byname name => strncasecmp name (s.iface iface).ifname sizeofIfname = 0

/-- One store of `lsp_list_add(&iface->list, &iflist)`. -/
def storeLink (s : Iflist) (iface : Nat) (next : IflistNode)
    (store : LinkStore) : Iflist :=
  { s with links := lspListAddStore s.links (.list iface) .iflist next store }

/-- The interface is one that the request is about. -/
def Meets (s : Iflist) (request : IflistRequest) (iface : Nat) : Prop :=
  match request with
  | .byaddr addr => (s.iface (.list iface)).devAddr = addr
  | .byname name =>
      EqualUpToCase sizeofIfname (s.iface (.list iface)).ifname name

/-- The cells of the interfaces, the last one registered first. -/
def cells (registered : List Nat) : List IflistNode :=
  registered.reverse.map .list

theorem cells_ne_nil {registered : List Nat} (occupied : registered ≠ []) :
    cells registered ≠ [] := by
  simpa [cells] using occupied

@[simp] theorem cells_append_singleton (registered : List Nat)
    (iface : Nat) :
    cells (registered ++ [iface]) = .list iface :: cells registered := by
  simp [cells]

theorem not_mem_cells {registered : List Nat} {iface : Nat}
    (fresh : iface ∉ registered) :
    IflistNode.list iface ∉ .iflist :: cells registered := by
  simp [cells, fresh]

theorem stops_list (s : Iflist) (request : IflistRequest) (iface : Nat) :
    s.stops request (.list iface) = true ↔ s.Meets request iface := by
  cases request with
  | byaddr addr =>
      rw [stops, decide_eq_true_iff]
      exact eq_comm
  | byname name =>
      rw [stops, decide_eq_true_iff, strncasecmp_eq_zero_iff]
      exact eq_comm

end Iflist

/-- What a call returns. -/
inductive IflistResult where
  | added (rc : Int)
  | found (iface : Option IflistNode)
  deriving DecidableEq

/-- The list and the threads.  The interfaces are recorded in the order in
which they were registered. -/
structure IflistReaders (Tid : Type) where
  list : Iflist
  place : Tid → IflistPlace
  registered : List Nat

inductive IflistAccess (Tid : Type) where
  | look (thread : Tid) (request : IflistRequest)
  | add (thread : Tid) (iface : Nat)
  | go (thread : Tid)

namespace IflistReaders

open Iflist (cells)

variable {Tid : Type}

/-- A search of the whole list ends with `found`. -/
def Finds (request : IflistRequest) (found : Option IflistNode)
    (s : IflistReaders Tid) : Prop :=
  found = (visible (cells s.registered)).find? (s.list.stops request)

theorem Finds.lastWith {request : IflistRequest}
    {found : Option IflistNode} {s : IflistReaders Tid}
    (finds : Finds request found s) (several : 2 ≤ s.registered.length) :
    ∃ iface, found = iface.map .list ∧
      LastWith (s.list.Meets request) s.registered iface := by
  have whole : visible (cells s.registered) = cells s.registered := by
    apply visible_of_length_ne_one
    simp only [cells, List.length_map, List.length_reverse]
    omega
  rw [Finds, whole, cells, List.find?_map] at finds
  exact ⟨_, finds, lastWith_find_reverse (s.list.stops_list request) _⟩

variable [DecidableEq Tid]

def moveTo (s : IflistReaders Tid) (thread : Tid) (place : IflistPlace) :
    IflistReaders Tid :=
  { s with place := Function.update s.place thread place }

/-- The next access of a thread. -/
def access (s : IflistReaders Tid) (thread : Tid) :
    Option (IflistReaders Tid × Option IflistResult) :=
  match s.place thread with
  | .outside => none
  | .loop request place =>
      match place.result with
      | none =>
          some (s.moveTo thread (.loop request
            (place.step s.list.links .iflist (s.list.stops request))), none)
      | some ptr => some (s.moveTo thread .outside, some (.found ptr))
  | .readNext iface =>
      some (s.moveTo thread
        (.linking iface (s.list.links.next .iflist) .nextPrev), none)
  | .linking iface next store =>
      let list := s.list.storeLink iface next store
      match store.later with
      | some later =>
          some (({ s with list := list } : IflistReaders Tid).moveTo thread
            (.linking iface next later), none)
      | none =>
          some (({ s with
              list := list
              registered := s.registered ++ [iface] } :
            IflistReaders Tid).moveTo thread .outside,
            some (.added lspErrNone))

def exec (s : IflistReaders Tid) :
    IflistAccess Tid → Option (IflistReaders Tid × Option IflistResult)
  | .look thread request =>
      match s.place thread with
      | .outside => some (s.moveTo thread (.loop request .start), none)
      | _ => none
  | .add thread iface =>
      match s.place thread with
      | .outside => some (s.moveTo thread (.readNext iface), none)
      | _ => none
  | .go thread => s.access thread

def step (s : IflistReaders Tid) (access : IflistAccess Tid) :
    Option (IflistReaders Tid) :=
  (s.exec access).map Prod.fst

/-- One thread registers interfaces, each of them once. -/
def OneRegistrar (registrar : Tid) (s : IflistReaders Tid) :
    IflistAccess Tid → Prop
  | .add thread iface => thread = registrar ∧ iface ∉ s.registered
  | .look .. | .go _ => True

instance (registrar : Tid) (s : IflistReaders Tid)
    (access : IflistAccess Tid) :
    Decidable (OneRegistrar registrar s access) :=
  match access with
  | .add .. => inferInstanceAs (Decidable (_ ∧ _))
  | .look .. | .go _ => inferInstanceAs (Decidable True)

/-- Everything a step can be. -/
inductive Goes (s : IflistReaders Tid) :
    IflistAccess Tid → IflistReaders Tid → Option IflistResult →
      Prop where
  | looks {thread : Tid} {request : IflistRequest} :
      s.place thread = .outside →
      Goes s (.look thread request)
        (s.moveTo thread (.loop request .start)) none
  | adds {thread : Tid} {iface : Nat} :
      s.place thread = .outside →
      Goes s (.add thread iface) (s.moveTo thread (.readNext iface)) none
  | walks {thread : Tid} {request : IflistRequest}
      {place : LoopPlace IflistNode} :
      s.place thread = .loop request place →
      Goes s (.go thread)
        (s.moveTo thread (.loop request
          (place.step s.list.links .iflist (s.list.stops request)))) none
  | answers {thread : Tid} {request : IflistRequest}
      {ptr : Option IflistNode} :
      s.place thread = .loop request (.ended ptr) →
      Goes s (.go thread) (s.moveTo thread .outside) (some (.found ptr))
  | readsNext {thread : Tid} {iface : Nat} :
      s.place thread = .readNext iface →
      Goes s (.go thread)
        (s.moveTo thread
          (.linking iface (s.list.links.next .iflist) .nextPrev)) none
  | stores {thread : Tid} {iface : Nat} {next : IflistNode}
      {store later : LinkStore} :
      s.place thread = .linking iface next store →
      store.later = some later →
      Goes s (.go thread)
        (({ s with list := s.list.storeLink iface next store } :
          IflistReaders Tid).moveTo thread (.linking iface next later)) none
  | registers {thread : Tid} {iface : Nat} {next : IflistNode} :
      s.place thread = .linking iface next .prevNext →
      Goes s (.go thread)
        (({ s with
            list := s.list.storeLink iface next .prevNext
            registered := s.registered ++ [iface] } :
          IflistReaders Tid).moveTo thread .outside)
        (some (.added lspErrNone))

theorem goes_of_exec {s s' : IflistReaders Tid} {access : IflistAccess Tid}
    {outcome : Option IflistResult}
    (executed : s.exec access = some (s', outcome)) :
    Goes s access s' outcome := by
  cases access with
  | look thread request =>
      simp only [exec] at executed
      split at executed
      · rename_i outside
        cases executed
        exact .looks outside
      · cases executed
  | add thread iface =>
      simp only [exec] at executed
      split at executed
      · rename_i outside
        cases executed
        exact .adds outside
      · cases executed
  | go thread =>
      simp only [exec, IflistReaders.access] at executed
      cases place : s.place thread with
      | outside =>
          rw [place] at executed
          cases executed
      | readNext iface =>
          rw [place] at executed
          cases executed
          exact .readsNext place
      | linking iface next store =>
          rw [place] at executed
          cases store with
          | prevNext =>
              cases executed
              exact .registers place
          | _ =>
              cases executed
              exact .stores place rfl
      | loop request within =>
          rw [place] at executed
          cases within with
          | ended ptr =>
              cases executed
              exact .answers place
          | _ =>
              cases executed
              exact .walks place

theorem step_cases {s s' : IflistReaders Tid} {access : IflistAccess Tid}
    (stepped : s.step access = some s') :
    ∃ outcome, Goes s access s' outcome := by
  obtain ⟨⟨_, outcome⟩, executed, same⟩ := Option.map_eq_some_iff.mp stepped
  have equality : _ = s' := same
  subst equality
  exact ⟨outcome, goes_of_exec executed⟩

/-! ## How far a registration has come -/

/-- The cells while a thread is at some place of a registration. -/
def Unfinished (links : Links IflistNode) (registered : List Nat) :
    IflistPlace → Prop
  | .readNext iface =>
      iface ∉ registered ∧ links.IsRing .iflist (cells registered)
  | .linking iface next store =>
      iface ∉ registered ∧ ∃ base : Links IflistNode,
        base.IsRing .iflist (cells registered) ∧
        next = base.next .iflist ∧
        links = base.insertUpTo (.list iface) .iflist next store.made
  | .outside | .loop .. => links.IsRing .iflist (cells registered)

/-- The list can be read: nobody but the registrar writes it. -/
structure Readable (registrar : Tid) (s : IflistReaders Tid) : Prop where
  occupied : s.registered ≠ []
  unfinished : Unfinished s.list.links s.registered (s.place registrar)
  others : ∀ thread, thread ≠ registrar → (s.place thread).adding = false

section Reading

variable {links : Links IflistNode} {registered : List Nat}
  {place : IflistPlace}

theorem unfinished_iff_of_idle (idle : place.adding = false) :
    Unfinished links registered place ↔
      links.IsRing .iflist (cells registered) := by
  cases place with
  | outside => exact Iff.rfl
  | loop => exact Iff.rfl
  | readNext => cases idle
  | linking => cases idle

theorem Unfinished.forward (unfinished : Unfinished links registered place)
    (occupied : registered ≠ []) :
    Forward links .iflist (cells registered) := by
  cases place with
  | outside => exact .of_isRing unfinished
  | loop => exact .of_isRing unfinished
  | readNext iface => exact .of_isRing unfinished.2
  | linking iface next store =>
      obtain ⟨fresh, base, ring, rfl, rfl⟩ := unfinished
      exact (Forward.of_isRing ring).insertUpTo
        (Iflist.cells_ne_nil occupied) (Iflist.not_mem_cells fresh)
        store.made_le

variable {registrar thread : Tid} {s s' : IflistReaders Tid}

theorem Readable.writer (readable : Readable registrar s)
    (adding : (s.place thread).adding = true) : thread = registrar := by
  by_contra other
  rw [readable.others thread other] at adding
  cases adding

theorem Readable.moves (readable : Readable registrar s)
    (before : (s.place thread).adding = false)
    (after : place.adding = false) :
    Readable registrar (s.moveTo thread place) := by
  refine ⟨readable.occupied, ?_, ?_⟩
  · change Unfinished s.list.links s.registered
      (Function.update s.place thread place registrar)
    by_cases same : registrar = thread
    · subst same
      rw [Function.update_self, unfinished_iff_of_idle after,
        ← unfinished_iff_of_idle before]
      exact readable.unfinished
    · rw [Function.update_of_ne same]
      exact readable.unfinished
  · intro other different
    change (Function.update s.place thread place other).adding = false
    by_cases same : other = thread
    · rw [same, Function.update_self]
      exact after
    · rw [Function.update_of_ne same]
      exact readable.others other different

theorem Readable.writes (readable : Readable registrar s)
    {list : Iflist} {registered : List Nat} (occupied : registered ≠ [])
    (unfinished : Unfinished list.links registered place) :
    Readable registrar
      (({ s with list := list, registered := registered } :
        IflistReaders Tid).moveTo registrar place) := by
  refine ⟨occupied, ?_, ?_⟩
  · change Unfinished list.links registered
      (Function.update s.place registrar place registrar)
    rw [Function.update_self]
    exact unfinished
  · intro other different
    change (Function.update s.place registrar place other).adding = false
    rw [Function.update_of_ne different]
    exact readable.others other different

theorem insertUpTo_storeLink {list : Iflist} {base : Links IflistNode}
    {iface : Nat} {next : IflistNode} {store : LinkStore}
    (started : list.links =
      base.insertUpTo (.list iface) .iflist next store.made) :
    (list.storeLink iface next store).links =
      base.insertUpTo (.list iface) .iflist next (store.made + 1) := by
  rw [← lspListAddStore_insertUpTo, ← started]
  rfl

theorem Readable.step {access : IflistAccess Tid}
    {outcome : Option IflistResult} (readable : Readable registrar s)
    (alone : OneRegistrar registrar s access)
    (goes : Goes s access s' outcome) : Readable registrar s' := by
  have unfinished := readable.unfinished
  have occupied := readable.occupied
  cases goes with
  | looks outside =>
      exact readable.moves (by rw [outside]; rfl) rfl
  | adds outside =>
      obtain ⟨rfl, fresh⟩ := alone
      rw [outside] at unfinished
      exact readable.writes occupied ⟨fresh, unfinished⟩
  | walks place => exact readable.moves (by rw [place]; rfl) rfl
  | answers place => exact readable.moves (by rw [place]; rfl) rfl
  | @readsNext thread iface place =>
      obtain rfl := readable.writer (by rw [place]; rfl)
      rw [place] at unfinished
      obtain ⟨fresh, ring⟩ := unfinished
      exact readable.writes occupied ⟨fresh, _, ring, rfl, rfl⟩
  | @stores thread iface next store later place order =>
      obtain rfl := readable.writer (by rw [place]; rfl)
      rw [place] at unfinished
      obtain ⟨fresh, base, ring, first, started⟩ := unfinished
      apply readable.writes occupied
      refine ⟨fresh, base, ring, first, ?_⟩
      rw [insertUpTo_storeLink started, LinkStore.made_later order]
  | @registers thread iface next place =>
      obtain rfl := readable.writer (by rw [place]; rfl)
      rw [place] at unfinished
      obtain ⟨fresh, base, ring, rfl, started⟩ := unfinished
      have added := lspListAdd_ring ring (Iflist.not_mem_cells fresh)
      rw [← insertUpTo_all] at added
      apply readable.writes (by simp)
      change (s.list.storeLink iface (base.next .iflist) .prevNext).links.IsRing
        .iflist (cells (s.registered ++ [iface]))
      rw [insertUpTo_storeLink started, Iflist.cells_append_singleton]
      exact added

end Reading

/-! ## What a look-up returns -/

/-- At some instant since the call of a thread this was so. -/
def During (registrar : Tid) (start : IflistReaders Tid)
    (accesses : List (IflistAccess Tid)) (thread : Tid)
    (request : IflistRequest) (held : IflistReaders Tid → Prop) : Prop :=
  ∃ before after s, accesses = before ++ after ∧
    Run step (OneRegistrar registrar) start before s ∧
    (s.place thread).request = some request ∧
    (∀ other, IflistAccess.look thread other ∉ after) ∧ held s

section Searching

variable {registrar thread : Tid} {start s s' : IflistReaders Tid}
  {accesses : List (IflistAccess Tid)} {request : IflistRequest}

theorem During.later {held : IflistReaders Tid → Prop}
    (during : During registrar start accesses thread request held)
    {access : IflistAccess Tid}
    (inside : ∀ other, access ≠ .look thread other) :
    During registrar start (accesses ++ [access]) thread request held := by
  obtain ⟨before, after, s, split, run, called, same, now⟩ := during
  refine ⟨before, after ++ [access], s, ?_, run, called, ?_, now⟩
  · rw [split, List.append_assoc]
  · intro other member
    rcases List.mem_append.mp member with old | new
    · exact same other old
    · exact inside other (List.mem_singleton.mp new).symm

/-- Every loop is going to end at an interface that was right at some instant
of its call. -/
def Decided (registrar : Tid) (start : IflistReaders Tid)
    (accesses : List (IflistAccess Tid)) (s : IflistReaders Tid)
    (thread : Tid) (place : IflistPlace) : Prop :=
  ∀ request within, place = .loop request within →
    within.Decided .iflist (cells s.registered) (s.list.stops request)
      fun found => During registrar start accesses thread request
        (Finds request found)

theorem Decided.later (decided : Decided registrar start accesses s thread
      (s.place thread))
    {access : IflistAccess Tid}
    (inside : ∀ other, access ≠ .look thread other) :
    Decided registrar start (accesses ++ [access]) s thread
      (s.place thread) := by
  intro request within inLoop
  apply (decided request within inLoop).of_seen
  intro found during
  exact during.later inside

theorem Decided.moves {access : IflistAccess Tid} {place : IflistPlace}
    (decided : ∀ other, Decided registrar start accesses s other
      (s.place other))
    (inside : ∀ other request, access = .look other request →
      other = thread)
    (mine : Decided registrar start (accesses ++ [access]) s thread place)
    (other : Tid) :
    Decided registrar start (accesses ++ [access]) s other
      (Function.update s.place thread place other) := by
  by_cases same : other = thread
  · rw [same, Function.update_self]
    exact mine
  · rw [Function.update_of_ne same]
    apply (decided other).later
    intro request called
    exact same (inside other request called)

/-- A loop goes on at an instant at which the list can be read. -/
theorem Decided.walks {place : LoopPlace IflistNode}
    (decided : Decided registrar start accesses s thread (s.place thread))
    (run : Run step (OneRegistrar registrar) start accesses s)
    (readable : Readable registrar s)
    (called : s.place thread = .loop request place) :
    Decided registrar start (accesses ++ [.go thread]) s thread
      (.loop request (place.step s.list.links .iflist
        (s.list.stops request))) := by
  intro again within inLoop
  cases inLoop
  have forward := readable.unfinished.forward readable.occupied
  apply ((decided.later (by simp)) request place called).step forward
  refine ⟨accesses, [.go thread], s, rfl, run, ?_, by simp, rfl⟩
  rw [called]
  rfl

/-- What has been decided in a run stays right. -/
theorem decided_of_run
    (ring : start.list.links.IsRing .iflist (cells start.registered))
    (occupied : start.registered ≠ [])
    (outside : ∀ thread, start.place thread = .outside)
    (run : Run step (OneRegistrar registrar) start accesses s) :
    Readable registrar s ∧
      ∀ thread, Decided registrar start accesses s thread
        (s.place thread) := by
  apply run.history
  · refine ⟨⟨occupied, ?_, ?_⟩, ?_⟩
    · rw [outside]
      exact ring
    · intro thread _
      rw [outside]
      rfl
    · intro thread request within inLoop
      rw [outside] at inLoop
      cases inLoop
  · intro accesses s access s' before property alone stepped
    obtain ⟨readable, decided⟩ := property
    obtain ⟨outcome, goes⟩ := step_cases stepped
    refine ⟨readable.step alone goes, ?_⟩
    have nowhere : ∀ {thread : Tid} {place : IflistPlace},
        place.request = none →
        Decided registrar start (accesses ++ [access]) s thread place := by
      intro thread place none request within inLoop
      rw [inLoop] at none
      cases none
    cases goes with
    | @looks thread request _ =>
        refine Decided.moves decided (by simp) ?_
        intro again within inLoop
        cases inLoop
        exact .inl .start
    | adds =>
        exact Decided.moves decided (by simp) (nowhere rfl)
    | @walks thread request place called =>
        exact Decided.moves decided (by simp)
          ((decided thread).walks before readable called)
    | answers => exact Decided.moves decided (by simp) (nowhere rfl)
    | readsNext => exact Decided.moves decided (by simp) (nowhere rfl)
    | stores => exact Decided.moves decided (by simp) (nowhere rfl)
    | @registers thread iface next =>
        intro other request within inLoop
        have moved : Decided registrar start (accesses ++ [.go thread]) s
            other (Function.update s.place thread .outside other) :=
          Decided.moves decided (by simp) (nowhere rfl) other
        have known := moved request within inLoop
        change LoopPlace.Decided .iflist
          (cells (s.registered ++ [iface])) (s.list.stops request) _ within
        rw [Iflist.cells_append_singleton]
        exact known.grows (Iflist.cells_ne_nil readable.occupied) [_]
          (fun _ _ => rfl)

theorem registered_of_run
    (run : Run step (OneRegistrar registrar) start accesses s) :
    start.registered <+: s.registered := by
  induction run with
  | nil => exact List.prefix_refl _
  | snoc _ _ stepped known =>
      obtain ⟨outcome, goes⟩ := step_cases stepped
      cases goes with
      | registers => exact known.trans (List.prefix_append _ _)
      | _ => exact known

theorem Goes.found {ptr : Option IflistNode}
    (goes : Goes s (.go thread) s' (some (.found ptr))) :
    ∃ request, s.place thread = .loop request (.ended ptr) := by
  cases goes with
  | answers place => exact ⟨_, place⟩

/-- While one thread registers interfaces, a look-up returns the one that was
registered last among those it is about, as of some instant of its call. -/
theorem lookUp_registered
    (ring : start.list.links.IsRing .iflist (cells start.registered))
    (several : 2 ≤ start.registered.length)
    (outside : ∀ thread, start.place thread = .outside)
    (run : Run step (OneRegistrar registrar) start accesses s)
    {ptr : Option IflistNode}
    (returned : s.exec (.go thread) = some (s', some (.found ptr))) :
    ∃ request, s.place thread = .loop request (.ended ptr) ∧
      During registrar start accesses thread request fun s =>
        ∃ iface, ptr = iface.map .list ∧
          LastWith (s.list.Meets request) s.registered iface := by
  have occupied : start.registered ≠ [] := by
    intro none
    rw [none] at several
    exact absurd several (by decide)
  obtain ⟨request, place⟩ := (goes_of_exec returned).found
  obtain ⟨_, decided⟩ := decided_of_run ring occupied outside run
  obtain ⟨before, after, middle, split, early, called, same, finds⟩ :=
    (decided thread request _ place).ended
  have known := (registered_of_run early).length_le
  exact ⟨request, place, before, after, middle, split, early, called, same,
    finds.lastWith (by omega)⟩

section Examples

/-- Interfaces with the addresses 5 and 6. -/
def twoInterfaces : IflistReaders Nat where
  list := (Iflist.empty ⟨id, id⟩ Iflist.numberedInterface).addAll [5, 6]
  place := fun _ => .outside
  registered := [5, 6]

theorem twoInterfaces_ring :
    twoInterfaces.list.links.IsRing .iflist
      (cells twoInterfaces.registered) :=
  ⟨by decide, by decide⟩

/-- A look-up that begins before the last store of a registration. -/
def looksDuringRegistration : List (IflistAccess Nat) :=
  [.add 0 7, .go 0, .go 0, .go 0, .go 0, .look 1 (.byaddr 7), .go 1, .go 1,
    .go 0, .go 1, .go 1]

/-- It finds the new interface. -/
theorem lookUp_registered_looksDuringRegistration :
    ∃ s, Run step (OneRegistrar 0) twoInterfaces looksDuringRegistration s ∧
      ∃ request, s.place 1 = .loop request (.ended (some (.list 7))) ∧
        During 0 twoInterfaces looksDuringRegistration 1 request fun s =>
          ∃ iface, some (.list 7) = iface.map IflistNode.list ∧
            LastWith (s.list.Meets request) s.registered iface := by
  have executed :
      (execute step (OneRegistrar 0) twoInterfaces
          looksDuringRegistration).map
        (fun s => (s.exec (.go 1)).map Prod.snd) =
          some (some (some (.found (some (.list 7))))) := by
    decide
  obtain ⟨s, run, view⟩ := exists_run_of_execute executed
  obtain ⟨⟨s', outcome⟩, returned, same⟩ := Option.map_eq_some_iff.mp view
  have result : outcome = some (.found (some (.list 7))) := same
  subst result
  exact ⟨s, run, lookUp_registered twoInterfaces_ring (by decide)
    (fun _ => rfl) run returned⟩

/-- Two threads register an interface at the same time. -/
def registersTwice : List (IflistAccess Nat) :=
  [.add 0 7, .add 1 8, .go 0, .go 1] ++ List.replicate 4 (.go 0) ++
    List.replicate 4 (.go 1)

/-- Both succeed, and one of the interfaces cannot be found. -/
theorem registersTwice_loses :
    ∃ s, Run step Anywhere twoInterfaces registersTwice s ∧
      s.registered = [5, 6, 7, 8] ∧
      s.list.lspIflistIfaceByaddr 7 5 = some none := by
  have executed :
      (execute step Anywhere twoInterfaces registersTwice).map
        (fun s => (s.registered, s.list.lspIflistIfaceByaddr 7 5)) =
          some ([5, 6, 7, 8], some none) := by
    decide
  obtain ⟨s, run, view⟩ := exists_run_of_execute executed
  exact ⟨s, run, congrArg Prod.fst view, congrArg Prod.snd view⟩

end Examples

end Searching

end IflistReaders

end Liblsp
