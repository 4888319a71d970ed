import Infractl.Store.GenericStore

/-!
# Names that are taken

`Create` fails on a taken primary key, and the key does not look at
`deleted_at`.  `Get` reads live rows only.  The two disagree about a name
exactly when a soft-deleted row is stored under it.

No call of the store removes or revives such a row, so that a name is lost with
the first call that leaves one behind: along a run the two agree about a name
exactly when no call of the run has done so.
-/

namespace Infractl.Store

open Infractl.Lib
open Infractl.Lib.Run

variable {Spec Status : Type}

/-- A soft-deleted row is stored under the key. -/
def Tombstone (table : Table Spec Status) (key : Key) : Prop :=
  ∃ row, table.find key = some row ∧ row.live = false

namespace GenericStore

/-- A `Create` without a parent and a `Get` say the same about a name. -/
def ExistenceAgrees (table : Table Spec Status) (key : Key) : Prop :=
  ∀ now object, object.key = key → object.resource.parent = none →
    ((create now table object).error = some .alreadyExists ↔
      ∃ row, get table key.org key.name = .ok row)

section Calls

variable {table : Table Spec Status}

theorem create_error_of_orphan (now : Time) {object : Object Spec Status}
    (orphan : object.resource.parent = none) :
    (create now table object).error = some .alreadyExists ↔
      ∃ row, table.find object.key = some row := by
  have accepted : validateParent table object = none := by
    rw [validateParent, orphan]
  have taken := KeyedTable.insert?_eq_none_iff table (object.prepareInsert now)
  rw [Object.key_prepareInsert] at taken
  rw [← taken, create, accepted]
  change _ ↔ insertRow now table object = none
  cases inserted : insertRow now table object <;> simp

theorem get_eq_ok_iff (key : Key) (row : Object Spec Status) :
    get table key.org key.name = .ok row ↔
      table.find key = some row ∧ row.live = true := by
  rw [← selectLive_eq_some_iff]
  change get table key.org key.name = .ok row ↔
    selectLive table ⟨key.org, key.name⟩ = some row
  unfold get
  cases selectLive table ⟨key.org, key.name⟩ <;> simp

/-- At a state: the two agree unless a soft-deleted row holds the name. -/
theorem existenceAgrees_iff (key : Key) :
    ExistenceAgrees table key ↔ ¬ Tombstone table key := by
  constructor
  · rintro agrees ⟨row, found, dead⟩
    -- The row itself, without its parent, is an object to create.
    let object : Object Spec Status :=
      { row with resource := { row.resource with parent := none } }
    have rowKey : row.key = key := KeyedTable.key_of_find found
    have sameKey : object.key = key := rowKey
    have orphan : object.resource.parent = none := rfl
    have taken := (create_error_of_orphan 0 orphan).mpr
      ⟨row, sameKey ▸ found⟩
    rcases (agrees 0 object sameKey orphan).mp taken with ⟨other, got⟩
    rcases (get_eq_ok_iff key other).mp got with ⟨otherFound, live⟩
    cases found.symm.trans otherFound
    cases dead.symm.trans live
  · rintro unburied now object rfl orphan
    rw [create_error_of_orphan now orphan]
    constructor
    · rintro ⟨row, found⟩
      refine ⟨row, (get_eq_ok_iff object.key row).mpr ⟨found, ?_⟩⟩
      by_contra dead
      exact unburied ⟨row, found, by simpa using dead⟩
    · rintro ⟨row, got⟩
      exact ⟨row, ((get_eq_ok_iff object.key row).mp got).1⟩

/-! ## Soft-deleted rows stay -/

variable {result : Table Spec Status} {row : Object Spec Status} {key : Key}

theorem mem_insertRow {now : Time} {object row : Object Spec Status}
    (inserted : insertRow now table object = some result)
    (member : row ∈ table.rows) :
    row ∈ result.rows := by
  rw [insertRow, KeyedTable.insert?_eq_some_iff] at inserted
  rw [inserted.2]
  exact List.mem_append_left _ member

/-- A statement that rewrites live rows keeps the others. -/
theorem dead_mem_of_rewritten
    {chosen : Object Spec Status → Bool}
    {rewrite : Object Spec Status → Object Spec Status}
    (rewritten : result.rows =
      table.rows.map (fun other => if chosen other then rewrite other else other))
    (onlyLive : ∀ other, chosen other = true → other.live = true)
    (dead : row.live = false) (member : row ∈ table.rows) :
    row ∈ result.rows := by
  rw [rewritten]
  refine List.mem_map.mpr ⟨row, member, if_neg ?_⟩
  intro isChosen
  cases dead.symm.trans (onlyLive row isChosen)

theorem dead_mem_updateLive
    {guard : Object Spec Status → Bool}
    {assign : Object Spec Status → Object Spec Status}
    {keepsKey : ∀ other, (assign other).key = other.key}
    (updated : updateLive table key guard assign keepsKey = some result)
    (dead : row.live = false) (member : row ∈ table.rows) :
    row ∈ result.rows := by
  apply dead_mem_of_rewritten (updateLive_rows updated) _ dead member
  intro other chosen
  simp only [Bool.and_eq_true] at chosen
  exact chosen.2.1

/-- No call of the store writes to a soft-deleted row. -/
theorem dead_mem_execute (kind : Kind Spec Status) (now : Time)
    (call : Call Spec Status) (dead : row.live = false) (member : row ∈ table.rows) :
    row ∈ (execute kind table now call).rows := by
  cases call with
  | create object =>
      rcases create_table now table object with same | ⟨_, inserted⟩
      · rwa [execute, same]
      · exact mem_insertRow inserted member
  | update object =>
      cases accepted : acceptsUpdate table object with
      | false => rwa [execute, (update_refused kind now accepted).1]
      | true =>
          rcases update_accepted kind now accepted with ⟨_, _, updated, _⟩
          exact dead_mem_updateLive updated dead member
  | partialUpdate key version fields =>
      rcases partialUpdate_table now table key version fields with same | updated
      · rwa [execute, same]
      · apply dead_mem_of_rewritten (updateFields_rows updated) _ dead member
        intro other chosen
        simp only [isVersionOf, Bool.and_eq_true] at chosen
        exact chosen.2.1
  | delete key =>
      rcases delete_table now table key with same | marked | ⟨_, _, _, _, deleted⟩
      · rwa [execute, same]
      · exact dead_mem_updateLive marked dead member
      · exact dead_mem_updateLive deleted dead member

theorem tombstone_execute (kind : Kind Spec Status) (now : Time)
    (call : Call Spec Status) (buried : Tombstone table key) :
    Tombstone (execute kind table now call) key := by
  rcases buried with ⟨row, found, dead⟩
  refine ⟨row, ?_, dead⟩
  rw [← KeyedTable.key_of_find found]
  exact KeyedTable.find_key
    (dead_mem_execute kind now call dead (KeyedTable.find_mem found))

theorem tombstone_step {kind : Kind Spec Status} {next : Table Spec Status}
    {label : Time × Call Spec Status} (buried : Tombstone table key)
    (stepped : callStep kind table label = some next) :
    Tombstone next key := by
  cases stepped
  exact tombstone_execute kind label.1 label.2 buried

end Calls

/--
At every state reached by calls of the store, `Create` without a parent and
`Get` agree about a name exactly when no call so far has left a soft-deleted
row under it.
-/
theorem existence_consistent_iff
    (kind : Kind Spec Status) (labels : List (Time × Call Spec Status))
    (final : Table Spec Status) (key : Key)
    (reached : run (callStep kind) KeyedTable.empty labels = some final) :
    ExistenceAgrees final key ↔
      AllSteps (callStep kind) (fun _ _ next => ¬ Tombstone next key)
        KeyedTable.empty labels := by
  rw [existenceAgrees_iff]
  have initial : ¬ Tombstone (KeyedTable.empty : Table Spec Status) key := by
    rintro ⟨row, found, _⟩
    cases found
  rcases allSteps_or_spoiled (fun _ _ next => ¬ Tombstone next key)
      (fun state => ¬ Tombstone state key) (fun state => Tombstone state key)
      (fun _ _ _ _ _ _ unburied => unburied)
      (fun _ _ _ _ _ _ buried => not_not.mp buried)
      (fun _ _ _ buried stepped _ => tombstone_step buried stepped)
      initial (allSteps_true _ labels) reached with
    ⟨steps, unburied⟩ | ⟨steps, buried⟩
  · exact iff_of_true unburied steps
  · exact iff_of_false (not_not.mpr buried) steps

/-- A machine without a parent. -/
def plainMachine (name : String) : Object Unit Unit :=
  ⟨{ orgID := 1, name := name }, (), ()⟩

def untracked : Kind Unit Unit :=
  ⟨none⟩

theorem created_machine_exists :
    ∃ final,
      run (callStep untracked) KeyedTable.empty
          [(1, .create (plainMachine "a")), (2, .create (plainMachine "b")),
            (3, .delete ⟨1, "b"⟩)] = some final ∧
        ExistenceAgrees final ⟨1, "a"⟩ := by
  refine ⟨_, rfl, ?_⟩
  refine (existence_consistent_iff untracked
    [(1, .create (plainMachine "a")), (2, .create (plainMachine "b")),
      (3, .delete ⟨1, "b"⟩)] _ ⟨1, "a"⟩ rfl).mpr ?_
  have absent {table : Table Unit Unit}
      (live : (table.find ⟨1, "a"⟩).all Object.live = true) :
      ¬ Tombstone table ⟨1, "a"⟩ := by
    rintro ⟨row, found, dead⟩
    rw [found, Option.all_some, dead] at live
    cases live
  refine .cons rfl (absent rfl) ?_
  refine .cons rfl (absent rfl) ?_
  exact .cons rfl (absent rfl) trivial

/-- After its deletion a machine is not found, and cannot be created again. -/
theorem deleted_machine_not_recreated :
    ∃ deleted,
      run (callStep untracked) KeyedTable.empty
          [(1, .create (plainMachine "a"))] = some deleted ∧
        (delete 2 deleted ⟨1, "a"⟩).2 = none ∧
        get (delete 2 deleted ⟨1, "a"⟩).1 1 "a" = .error .notFound ∧
        (create 3 (delete 2 deleted ⟨1, "a"⟩).1 (plainMachine "a")).error =
          some .alreadyExists :=
  ⟨_, rfl, rfl, rfl, rfl⟩

end GenericStore

end Infractl.Store
