import Infractl.Store.Forest
import Infractl.Store.Interleaving

/-!
# The parent forest under concurrent calls

The checks of a call and its write are separate statements.  Whatever the
interleaving, the forest survives as long as the check of a call would still
pass at the moment the call writes.  Two calls that both pass their checks
before either writes may break it.
-/

namespace Infractl.Store

open Infractl.Lib
open Infractl.Lib.Run
open Relation

variable {Spec Status ι : Type}

namespace Process

/-- A `Create`, `Update` or `Delete` about to start, not setting `deleted_at`. -/
def Starts (kind : Kind Spec Status) (process : Process Spec Status) : Prop :=
  (∃ object, object.live = true ∧
      (process = startCreate kind object ∨ process = startUpdate kind object)) ∨
    ∃ key, process = .readForDelete key

/--
The check a call made before its write passes on the table it is about to
write to.  A write that is going to match no row needs no check.
-/
def CheckHolds (table : Table Spec Status) : Process Spec Status → Prop
  | .insert object =>
      table.find object.key = none →
        GenericStore.validateParent table object = none
  | .writeGuarded object clientVersion =>
      (selectLive table object.key).any (fun row =>
          decide (row.resource.resourceVersion = clientVersion)) = true →
        GenericStore.validateParent table object = none
  | .writeDeletedAt key =>
      liveExists table key = true →
        hasChildren table key.org key.name = false
  | _ => True

/-- A call of the store whose object, if it carries one, is live. -/
structure StoresLive (process : Process Spec Status) : Prop where
  storeCall : process.storeCall = true
  live : ∀ object, process.carried = some object → object.live = true

theorem StoresLive.follows {process next : Process Spec Status}
    (stores : process.StoresLive)
    (follows : Follows process next) :
    next.StoresLive where
  storeCall := follows.storeCall stores.storeCall
  live := by
    intro object carries
    rcases follows.carried object carries with
      ⟨row, rfl⟩ | ⟨earlier, generation, carriesEarlier, rfl⟩
    · cases stores.storeCall
    · exact stores.live earlier carriesEarlier

theorem storesLive_returned (error : Option StoreError) :
    (returned error : Process Spec Status).StoresLive where
  storeCall := rfl
  live := by
    intro object carries
    cases carries

theorem Starts.storesLive {kind : Kind Spec Status}
    {process : Process Spec Status}
    (starts : process.Starts kind) :
    process.StoresLive := by
  rcases starts with ⟨object, live, rfl | rfl⟩ | ⟨key, rfl⟩
  · have inserting : (insert object).StoresLive := by
      refine ⟨rfl, ?_⟩
      rintro other ⟨⟩
      exact live
    exact inserting.follows (follows_validate kind object rfl (Or.inl rfl))
  · have updating : (readExisting object).StoresLive := by
      refine ⟨rfl, ?_⟩
      rintro other ⟨⟩
      exact live
    exact updating.follows (follows_validate kind object rfl (Or.inl rfl))
  · refine ⟨rfl, ?_⟩
    intro object carries
    cases carries

/-- One statement of a call keeps the forest when its check still holds. -/
theorem Does.forest
    {now : Time} {table after : Table Spec Status}
    {process next : Process Spec Status} {effect : Option (Effect Spec Status)}
    (does : Does now table process after next effect)
    (stores : process.StoresLive)
    (check : process.CheckHolds table)
    (forest : Forest table) :
    Forest after := by
  cases does with
  | pass follows => exact forest
  | refuse key follows => exact forest
  | read selected => exact forest
  | @insert object inserted done =>
      have absent := ((KeyedTable.insert?_eq_some_iff _ _ _).mp done).1
      have allowed := parentAllowed_of_validateParent (check absent)
      exact forest.store (replaces_of_insertRow done) (stores.live object rfl)
        allowed
  | accept claims found live current bumped replaces writes =>
      rcases writes with ⟨object, rfl, rfl, rfl⟩ | ⟨fields, rfl⟩
      · have selected := (selectLive_eq_some_iff _ _ _).mpr ⟨found, live⟩
        have allowed := parentAllowed_of_validateParent
          (check (by simp [selected, current]))
        exact forest.store replaces (stores.live object rfl) allowed
      · cases stores.storeCall
  | @write _ written key assign row error writes found live replaces =>
      cases process with
      | writeDeletionTimestamp address =>
          cases writes
          exact forest.keep found live replaces live rfl
      | writeDeletedAt address =>
          cases writes
          have stored := (liveExists_iff table key).mpr ⟨row, found, live⟩
          exact forest.remove replaces rfl (check stored)
      | writeStatus tableName address status => cases stores.storeCall
      | writeDelivery address status => cases stores.storeCall
      | _ => cases writes

theorem Does.storesLive
    {now : Time} {table after : Table Spec Status}
    {process next : Process Spec Status} {effect : Option (Effect Spec Status)}
    (does : Does now table process after next effect)
    (stores : process.StoresLive) :
    next.StoresLive := by
  cases does with
  | pass follows => exact stores.follows follows
  | refuse key follows => exact stores.follows follows
  | read selected => cases stores.storeCall
  | insert done => exact storesLive_returned _
  | accept => exact storesLive_returned _
  | write => exact storesLive_returned _

end Process

/-- The statement a step executes, if any, comes with a check that holds. -/
def ChecksHold (world : World ι Spec Status) (label : Label ι Spec Status)
    (_ : World ι Spec Status) : Prop :=
  ∀ client now, label = .execute client now →
    (world.processes client).CheckHolds world.table

section Runs

variable [DecidableEq ι]

theorem World.Moves.storesLive
    {world next : World ι Spec Status} {label : Label ι Spec Status}
    (moves : world.Moves label next)
    (stores : ∀ client, (world.processes client).StoresLive) :
    ∀ client, (next.processes client).StoresLive := by
  intro other
  cases moves with
  | @silent _ client process stays follows =>
      change (Function.update world.processes client process other).StoresLive
      rw [Function.update_apply]
      split
      · exact (stores client).follows follows
      · exact stores other
  | @execute client now table process moved effect running does =>
      change (Function.update world.processes client moved other).StoresLive
      rw [Function.update_apply]
      split
      · exact does.storesLive (running ▸ stores client)
      · exact stores other

/--
In every interleaving of `Create`, `Update` and `Delete` calls in which each
write finds its check still passing, the live rows stay a forest.
-/
theorem concurrent_calls_forest
    (kind : Kind Spec Status) (start world : World ι Spec Status)
    (starts : ∀ client, (start.processes client).Starts kind)
    (forest : Forest start.table)
    (labels : List (Label ι Spec Status))
    (checks : AllSteps (World.step kind) ChecksHold start labels)
    (reached : run (World.step kind) start labels = some world) :
    Forest world.table := by
  have initial : start.KeepsKeys ∧
      (∀ client, (start.processes client).StoresLive) ∧ Forest start.table := by
    refine ⟨?_, fun client => (starts client).storesLive, forest⟩
    intro client
    have storeCall := (starts client).storesLive.storeCall
    cases process : start.processes client with
    | writeFields key version fields =>
        rw [process] at storeCall
        cases storeCall
    | _ => rfl
  refine (AllSteps.run_invariant
    (fun state : World ι Spec Status => state.KeepsKeys ∧
      (∀ client, (state.processes client).StoresLive) ∧ Forest state.table)
    ?_ initial checks reached).2.2
  rintro state label next ⟨keeps, stores, stateForest⟩ stepped check
  have moves := World.step_moves kind keeps stepped
  refine ⟨moves.keepsKeys keeps, moves.storesLive stores, ?_⟩
  cases moves with
  | silent stays follows => exact stateForest
  | execute running does =>
      subst running
      exact does.forest (stores _) (check _ _ rfl) stateForest

end Runs

/-! ## Two updates that close a cycle -/

/-- A row at its first version under the given parent. -/
def nestedRow (name : String) (parent : Option String) : Object Unit Unit where
  resource :=
    { name := name
      parent := parent
      resourceVersion := 1 }
  spec := ()
  status := ()

/-- Two roots, and a call in flight that nests each under the other. -/
def crossing : World (Fin 2) Unit Unit where
  table := ⟨[nestedRow "a" none, nestedRow "b" none], by decide⟩
  processes := fun client =>
    if client = 0 then .startUpdate ⟨none⟩ (nestedRow "a" (some "b"))
    else .startUpdate ⟨none⟩ (nestedRow "b" (some "a"))
  log := []

theorem crossing_starts (client : Fin 2) :
    (crossing.processes client).Starts ⟨none⟩ := by
  apply Or.inl
  unfold crossing
  dsimp only
  split
  · exact ⟨nestedRow "a" (some "b"), rfl, Or.inr rfl⟩
  · exact ⟨nestedRow "b" (some "a"), rfl, Or.inr rfl⟩

theorem crossing_forest : Forest crossing.table := by
  have unparented :
      ∀ org child parent, ¬ ParentEdge crossing.table org child parent := by
    intro org child parent edge
    rcases (parentEdge_iff _ _ _ _).mp edge with ⟨row, found, _, parentEq⟩
    have member := KeyedTable.find_mem found
    simp only [crossing, List.mem_cons, List.not_mem_nil, or_false] at member
    rcases member with rfl | rfl
    · cases parentEq
    · cases parentEq
  constructor
  · intro org element cycle
    rcases TransGen.head'_iff.mp cycle with ⟨_, edge, _⟩
    exact unparented _ _ _ edge
  · intro org child parent edge
    exact absurd edge (unparented _ _ _)

/-- One after the other, the second of the two updates is refused. -/
theorem crossing_in_turn :
    ∃ world,
      run (World.step ⟨none⟩) crossing
          [.execute 0 1, .execute 0 2, .execute 0 3, .execute 1 4,
            .execute 1 5] = some world ∧
        world.processes 0 = .returned none ∧
        world.processes 1 = .returned (some .circularParent) ∧
        Forest world.table := by
  refine ⟨_, rfl, rfl, rfl, ?_⟩
  refine concurrent_calls_forest ⟨none⟩ crossing _ crossing_starts
    crossing_forest
    [.execute 0 1, .execute 0 2, .execute 0 3, .execute 1 4, .execute 1 5]
    ?_ rfl
  have reads :
      ∀ (world next : World (Fin 2) Unit Unit) (client : Fin 2) (now : Time),
        (world.processes client).CheckHolds world.table →
          ChecksHold world (.execute client now) next := by
    rintro world next client now holds _ _ ⟨⟩
    exact holds
  refine .cons rfl (reads _ _ 0 1 trivial) ?_
  refine .cons rfl (reads _ _ 0 2 trivial) ?_
  refine .cons rfl (reads _ _ 0 3 (fun _ => rfl)) ?_
  refine .cons rfl (reads _ _ 1 4 trivial) ?_
  exact .cons rfl (reads _ _ 1 5 trivial) trivial

/-- Both updates pass their checks before either writes, and both succeed. -/
theorem crossing_interleaved :
    (∀ client, (crossing.processes client).Starts ⟨none⟩) ∧
      Forest crossing.table ∧
      ∃ world,
        run (World.step ⟨none⟩) crossing
            [.execute 0 1, .execute 0 2, .execute 1 3, .execute 1 4,
              .execute 0 5, .execute 1 6] = some world ∧
          (∀ client, world.processes client = .returned none) ∧
          ParentEdge world.table 0 "a" "b" ∧
          ParentEdge world.table 0 "b" "a" ∧
          ¬ Forest world.table := by
  refine ⟨crossing_starts, crossing_forest, _, rfl, ?_, ?_, ?_, ?_⟩
  · exact Fin.forall_fin_two.mpr ⟨rfl, rfl⟩
  · exact ⟨rfl, by decide⟩
  · exact ⟨rfl, by decide⟩
  · intro forest
    refine forest.acyclic 0 "a" (.tail (.single (b := "b") ?_) ?_)
    · exact ⟨rfl, by decide⟩
    · exact ⟨rfl, by decide⟩

end Infractl.Store
