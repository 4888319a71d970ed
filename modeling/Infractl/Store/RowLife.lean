import Infractl.Lib.Trail
import Infractl.Store.Concurrency

/-!
# The life of a row

Calls of all kinds interleave statement by statement: guarded updates, deletes
in their three statements, status updates and deliveries, some of which fail.
Whatever they do, a stored row changes by one write after the other, each
replacing what the one before it left.  The version counts the guarded ones
among them, and a write that leaves the row deleted is the last: a deleted row
stays in the table as it is, and keeps its name.
-/

namespace Infractl.Store

open Infractl.Lib
open Infractl.Lib.Run

variable {Spec Status ι : Type}

/-- The write of a row under a key, as what it replaced and what it left. -/
def Effect.writeOn (key : Key) :
    Effect Spec Status → Option (Object Spec Status × Object Spec Status)
  | .accepted before after =>
      if before.key = key then some (before, after) else none
  | .wrote before after =>
      if before.key = key then some (before, after) else none
  | _ => none

/-- The writes of a row in a log. -/
def writesOn (key : Key) (log : List (ι × Effect Spec Status)) :
    List (Object Spec Status × Object Spec Status) :=
  log.filterMap (fun entry => entry.2.writeOn key)

@[simp]
theorem writesOn_append (key : Key)
    (front back : List (ι × Effect Spec Status)) :
    writesOn key (front ++ back) = writesOn key front ++ writesOn key back :=
  List.filterMap_append

/-- The writes that no version guards leave the version as it is. -/
theorem Process.version_of_unguarded {now : Time} {process : Process Spec Status}
    {key : Key} {assign : Object Spec Status → Object Spec Status}
    (writes : process.unguarded now = some (key, assign))
    (row : Object Spec Status) :
    (assign row).resource.resourceVersion = row.resource.resourceVersion := by
  cases process with
  | writeDeletionTimestamp => cases writes; rfl
  | writeDeletedAt => cases writes; rfl
  | writeStatus => cases writes; rfl
  | writeDelivery => cases writes; rfl
  | _ => cases writes

/--
What a step does to the row under a key, given the entries it adds to the log:
nothing, or one write of a live row, which moves the version if it is guarded.
-/
inductive Touches (key : Key) (before after : Table Spec Status)
    (entries : List (ι × Effect Spec Status)) : Prop where
  | kept
      (silent : writesOn key entries = [])
      (uncounted : acceptedOn key entries = 0)
      (same : ∀ row, before.find key = some row → after.find key = some row)
  | wrote {row new : Object Spec Status}
      (found : before.find key = some row)
      (live : row.live = true)
      (stored : after.find key = some new)
      (written : writesOn key entries = [(row, new)])
      (version : new.resource.resourceVersion =
        row.resource.resourceVersion + Int64.ofNat (acceptedOn key entries))

theorem touches_of_replaces {key written : Key}
    {before after : Table Spec Status} {row new : Object Spec Status}
    {effect : Effect Spec Status} (client : ι)
    (found : before.find written = some row)
    (live : row.live = true)
    (replaces : Replaces before after written new)
    (writes : ∀ key, effect.writeOn key =
      if row.key = key then some (row, new) else none)
    (unrelated : row.key ≠ key → effect.acceptsOn key = false)
    (version : row.key = key → new.resource.resourceVersion =
      row.resource.resourceVersion +
        Int64.ofNat (acceptedOn key [(client, effect)])) :
    Touches key before after [(client, effect)] := by
  have rowKey : row.key = written := KeyedTable.key_of_find found
  by_cases same : written = key
  · subst same
    refine .wrote found live replaces.find_self ?_ (version rowKey)
    rw [writesOn, List.filterMap_cons_some (b := (row, new))]
    · rfl
    · rw [writes, if_pos rowKey]
  · have different : row.key ≠ key := fun equal => same (rowKey.symm.trans equal)
    refine .kept ?_ ?_ ?_
    · rw [writesOn, List.filterMap_cons_none]
      · rfl
      · rw [writes, if_neg different]
    · simp [acceptedOn, unrelated different]
    · intro other otherFound
      rw [replaces.find_other (Ne.symm same), otherFound]

theorem Process.Does.touches {now : Time} {table after : Table Spec Status}
    {process next : Process Spec Status} {effect : Option (Effect Spec Status)}
    (does : Process.Does now table process after next effect)
    (client : ι) (key : Key) :
    Touches key table after (effect.toList.map (client, ·)) := by
  cases does with
  | pass => exact .kept rfl rfl (fun _ found => found)
  | refuse => exact .kept rfl rfl (fun _ found => found)
  | read => exact .kept rfl rfl (fun _ found => found)
  | insert done =>
      refine .kept rfl rfl ?_
      intro row found
      have absent := ((KeyedTable.insert?_eq_some_iff _ _ _).mp done).1
      rw [(replaces_of_insertRow done).find_other, found]
      rintro rfl
      rw [Object.key_prepareInsert, found] at absent
      cases absent
  | @accept _ updated written version row new claims found live current bumped
      replaces writes =>
      refine touches_of_replaces client found live replaces (fun _ => rfl) ?_ ?_
      · exact fun different => decide_eq_false different
      · intro same
        rw [acceptedOn_accepted, if_pos same, bumped, current]
        rfl
  | @write _ written address assign row error writes found live replaces =>
      refine touches_of_replaces client found live replaces (fun _ => rfl)
        (fun _ => rfl) ?_
      intro _
      rw [Process.version_of_unguarded writes]
      exact (Int64.add_zero _).symm

variable [DecidableEq ι]

theorem World.Moves.touches {world next : World ι Spec Status}
    {label : Label ι Spec Status}
    (moves : world.Moves label next) (key : Key) :
    ∃ entries, next.log = world.log ++ entries ∧
      Touches key world.table next.table entries := by
  cases moves with
  | silent =>
      exact ⟨[], (List.append_nil _).symm, .kept rfl rfl (fun _ found => found)⟩
  | @execute client now table process moved effect running does =>
      exact ⟨_, rfl, does.touches client key⟩

/-! ## Whole runs -/

/-- The row stored now, and how it came from the one stored first. -/
structure RowLife (key : Key) (row : Object Spec Status)
    (world : World ι Spec Status) (last : Object Spec Status) : Prop where
  stored : world.table.find key = some last
  trail : Trail row (writesOn key world.log) last
  version : last.resource.resourceVersion =
    row.resource.resourceVersion + Int64.ofNat (acceptedOn key world.log)
  live : ∀ write ∈ writesOn key world.log, write.1.live = true

omit [DecidableEq ι] in
theorem RowLife.touch {key : Key} {row last : Object Spec Status}
    {world next : World ι Spec Status}
    (life : RowLife key row world last)
    {entries : List (ι × Effect Spec Status)}
    (logged : next.log = world.log ++ entries)
    (touches : Touches key world.table next.table entries) :
    ∃ current, RowLife key row next current := by
  cases touches with
  | kept silent uncounted same =>
      refine ⟨last, same last life.stored, ?_, ?_, ?_⟩
      · rw [logged, writesOn_append, silent, List.append_nil]
        exact life.trail
      · rw [logged, acceptedOn_append, uncounted]
        exact life.version
      · rw [logged, writesOn_append, silent, List.append_nil]
        exact life.live
  | @wrote old new found live stored written version =>
      cases life.stored.symm.trans found
      refine ⟨new, stored, ?_, ?_, ?_⟩
      · rw [logged, writesOn_append, written]
        exact life.trail.concat new
      · rw [logged, acceptedOn_append, version, life.version, Int64.ofNat_add,
          Int64.add_assoc]
      · rw [logged, writesOn_append, written]
        intro write member
        rcases List.mem_append.mp member with earlier | latest
        · exact life.live write earlier
        · cases List.mem_singleton.mp latest
          exact live

/--
In every interleaving of calls on a table, a stored row goes through one write
after the other, its version counts the guarded ones, and a write that leaves
it deleted is the last.
-/
theorem rows_change_until_deleted
    (kind : Kind Spec Status) (start world : World ι Spec Status)
    (labels : List (Label ι Spec Status))
    (empty : start.log = [])
    (keepsKeys : start.KeepsKeys)
    (key : Key) (row : Object Spec Status)
    (stored : start.table.find key = some row)
    (reached : run (World.step kind) start labels = some world) :
    ∃ last, RowLife key row world last ∧
      ∀ front before after back,
        writesOn key world.log = front ++ (before, after) :: back →
        after.live = false → back = [] ∧ last = after := by
  have initial : start.KeepsKeys ∧ ∃ last, RowLife key row start last := by
    refine ⟨keepsKeys, row, stored, ?_, ?_, ?_⟩
    · rw [empty]
      exact Trail.refl row
    · rw [empty]
      exact (Int64.add_zero _).symm
    · rw [empty]
      intro write member
      cases member
  have extend : ∀ (state : World ι Spec Status) label next,
      (state.KeepsKeys ∧ ∃ last, RowLife key row state last) →
      state.step kind label = some next →
      next.KeepsKeys ∧ ∃ last, RowLife key row next last := by
    rintro state label next ⟨keeps, last, life⟩ stepped
    have moves := World.step_moves kind keeps stepped
    rcases moves.touches key with ⟨entries, logged, touches⟩
    exact ⟨moves.keepsKeys keeps, life.touch logged touches⟩
  rcases (run_invariant _ extend initial reached).2 with ⟨last, life⟩
  refine ⟨last, life, ?_⟩
  intro front before after back split dead
  have trail := life.trail
  have live := life.live
  rw [split] at trail live
  refine trail.final (fun object => object.live = true) live ?_
  rw [dead]
  exact Bool.false_ne_true

/-- A row at its first version, without finalizers. -/
def unfinalized : Object Unit Unit :=
  ⟨{ name := "a", resourceVersion := 1 }, (), ()⟩

/-- A row that is read, deleted and given a status at the same time. -/
def deletedMeanwhile : World (Fin 3) Unit Unit where
  table := ⟨[unfinalized], List.nodup_singleton _⟩
  processes
    | 0 => .readForDelete ⟨0, "a"⟩
    | 1 => .writeStatus "machines" ⟨0, "a"⟩ ()
    | 2 => .get ⟨0, "a"⟩
  log := []

/-- An accepted update, a status and a deletion. -/
theorem deletedMeanwhile_life :
    ∃ world,
      run (World.step ⟨none⟩) deletedMeanwhile
          [.execute 2 1, .execute 0 2, .update 2 unfinalized, .execute 2 3,
            .execute 0 4, .execute 1 5, .execute 0 6] = some world ∧
        (writesOn ⟨0, "a"⟩ world.log).length = 3 ∧
        ∃ last, RowLife ⟨0, "a"⟩ unfinalized world last ∧
          ∀ front before after back,
            writesOn ⟨0, "a"⟩ world.log = front ++ (before, after) :: back →
            after.live = false → back = [] ∧ last = after := by
  refine ⟨_, rfl, rfl, ?_⟩
  refine rows_change_until_deleted ⟨none⟩ deletedMeanwhile _
    [.execute 2 1, .execute 0 2, .update 2 unfinalized, .execute 2 3,
      .execute 0 4, .execute 1 5, .execute 0 6] rfl ?_ ⟨0, "a"⟩ unfinalized rfl rfl
  intro client
  match client with
  | 0 => rfl
  | 1 => rfl
  | 2 => rfl

end Infractl.Store
