import Infractl.Store.Concurrency

/-!
# Lost updates

Two results about whole runs.  Clients that read a row and then update it lose
no update: the version takes consecutive values, one per accepted write, and
an accepted write replaces the very row its client read.

With the other writers of a row in the run, the same protection holds exactly
as long as none of their writes changes a live row, since these writes leave
the version as it is.
-/

namespace Infractl.Store

open Infractl.Lib
open Infractl.Lib.Run

variable {Spec Status ι : Type}

/-! ## Clients that read and update -/

/--
No update of a row is lost, counting from its first version: the stored
version, the versions each accepted write moves between, and the read each
accepted write is based on.
-/
structure NoLostUpdate (key : Key) (version : Int64)
    (world : World ι Spec Status) : Prop where
  stored : ∃ row, world.table.find key = some row ∧
    row.resource.resourceVersion.toInt =
      version.toInt + acceptedOn key world.log
  consecutive : Each (fun before entry => ∀ client old new,
    entry = (client, .accepted old new) → old.key = key →
      new.key = key ∧
        old.resource.resourceVersion.toInt =
          version.toInt + acceptedOn key before ∧
        new.resource.resourceVersion.toInt =
          old.resource.resourceVersion.toInt + 1) world.log
  undisturbed : Each (fun before entry => ∀ client old new,
    entry = (client, .accepted old new) → old.key = key →
      ∃ earlier later, before = earlier ++ (client, .read old) :: later ∧
        acceptedOn key later = 0) world.log
  readsOnce : ReadsOnce world.log

theorem noLostUpdate_of_counts
    {world : World ι Spec Status} {key : Key} {row : Object Spec Status}
    (tracked : world.Tracked)
    (undisturbed : Undisturbed key world.log)
    (counts : world.Counts key row)
    (bounded :
      row.resource.resourceVersion.toInt + acceptedOn key world.log < 2 ^ 63) :
    NoLostUpdate key row.resource.resourceVersion world where
  stored := by
    rcases counts.stored with ⟨current, found, since⟩
    exact ⟨current, found, by rw [since.1, toInt_version bounded]⟩
  consecutive := by
    intro before entry after split client old new entryEq oldKey
    rcases undisturbed before entry after split client old new entryEq oldKey with
      ⟨newKey, bumped, _⟩
    have numbered :=
      counts.numbered before entry after split client old new entryEq oldKey
    have total : acceptedOn key before + 1 ≤ acceptedOn key world.log := by
      rw [split, entryEq, ← List.singleton_append, acceptedOn_append,
        acceptedOn_append, acceptedOn_accepted, if_pos oldKey]
      omega
    have oldVersion :
        (row.resource.resourceVersion +
          Int64.ofNat (acceptedOn key before)).toInt =
          row.resource.resourceVersion.toInt + acceptedOn key before :=
      toInt_version (by omega)
    have newVersion :
        (row.resource.resourceVersion +
          Int64.ofNat (acceptedOn key before + 1)).toInt =
          row.resource.resourceVersion.toInt +
            (acceptedOn key before + 1 : Nat) :=
      toInt_version (by omega)
    refine ⟨newKey, by rw [numbered, oldVersion], ?_⟩
    rw [bumped, numbered, version_add_succ, newVersion, oldVersion]
    omega
  undisturbed := by
    intro before entry after split client old new entryEq oldKey
    exact (undisturbed before entry after split client old new entryEq oldKey).2.2
  readsOnce := tracked.readsOnce

theorem Process.unguarded_of_optimistic
    {process : Process Spec Status}
    (optimistic : process.optimistic = true) (now : Time) :
    process.unguarded now = none := by
  cases process with
  | writeDeletionTimestamp key => cases optimistic
  | writeDeletedAt key => cases optimistic
  | writeStatus tableName key status => cases optimistic
  | writeDelivery key status => cases optimistic
  | _ => rfl

theorem Process.Does.optimistic
    {now : Time} {table after : Table Spec Status}
    {process next : Process Spec Status} {effect : Option (Effect Spec Status)}
    (does : Process.Does now table process after next effect)
    (optimistic : process.optimistic = true) :
    next.optimistic = true := by
  cases does with
  | pass follows => exact follows.optimistic optimistic
  | refuse key follows => exact follows.optimistic optimistic
  | read selected => rfl
  | insert done => rfl
  | accept => rfl
  | write => rfl

section Runs

variable [DecidableEq ι]

theorem World.Moves.optimistic
    {world next : World ι Spec Status} {label : Label ι Spec Status}
    (moves : world.Moves label next)
    (optimistic : ∀ client, (world.processes client).optimistic = true) :
    ∀ client, (next.processes client).optimistic = true := by
  intro other
  cases moves with
  | @silent _ client process stays follows =>
      change (Function.update world.processes client process other).optimistic =
        true
      rw [Function.update_apply]
      split
      · exact follows.optimistic (optimistic client)
      · exact optimistic other
  | @execute client now table process moved effect running does =>
      change (Function.update world.processes client moved other).optimistic =
        true
      rw [Function.update_apply]
      split
      · exact does.optimistic (running ▸ optimistic client)
      · exact optimistic other

theorem allSteps_idle_of_optimistic
    (kind : Kind Spec Status) {start : World ι Spec Status}
    (keepsKeys : start.KeepsKeys)
    (optimistic : ∀ client, (start.processes client).optimistic = true)
    (labels : List (Label ι Spec Status)) :
    AllSteps (World.step kind) UnguardedIdle start labels := by
  apply allSteps_of_invariant
    (fun state : World ι Spec Status =>
      state.KeepsKeys ∧ ∀ client, (state.processes client).optimistic = true)
    _ _ ⟨keepsKeys, optimistic⟩
  · rintro state label next ⟨keeps, allOptimistic⟩ stepped
    have moves := World.step_moves kind keeps stepped
    exact ⟨moves.keepsKeys keeps, moves.optimistic allOptimistic⟩
  · rintro state label next ⟨_, allOptimistic⟩ _ client now _ key assign writes
    rw [Process.unguarded_of_optimistic (allOptimistic client)] at writes
    cases writes

/--
In every interleaving of clients that each read a row and then update it, at
the granularity of single statements, no update of a live row is lost.
-/
theorem read_update_noLostUpdate
    (kind : Kind Spec Status) (start world : World ι Spec Status)
    (empty : start.log = [])
    (clients : ∀ client, ∃ key, start.processes client = .get key)
    (key : Key) (row : Object Spec Status)
    (stored : selectLive start.table key = some row)
    (labels : List (Label ι Spec Status))
    (reached : run (World.step kind) start labels = some world)
    (bounded :
      acceptedOn key world.log < 2 ^ 63 - row.resource.resourceVersion.toInt) :
    NoLostUpdate key row.resource.resourceVersion world := by
  have fresh : start.Fresh := by
    refine ⟨empty, ?_⟩
    intro client
    rcases clients client with ⟨readKey, reading⟩
    rw [reading]
    rfl
  have optimistic : ∀ client, (start.processes client).optimistic = true := by
    intro client
    rcases clients client with ⟨readKey, reading⟩
    rw [reading]
    rfl
  have idle :=
    allSteps_idle_of_optimistic kind fresh.keepsKeys optimistic labels
  rcases tracked_run kind fresh idle reached with
    ⟨tracked, undisturbed, counts⟩
  have found := ((selectLive_eq_some_iff _ _ _).mp stored).1
  have lower := row.resource.resourceVersion.le_toInt
  exact noLostUpdate_of_counts tracked (undisturbed key (by omega))
    (counts key row found) (by omega)

/-- A row at its first version, with one finalizer. -/
def firstVersion : Object Unit Unit where
  resource :=
    { name := "a"
      finalizers := some ["cleanup"]
      resourceVersion := 1 }
  spec := ()
  status := ()

/-- One row, and calls in flight on it. -/
def oneRow (processes : Fin 2 → Process Unit Unit) : World (Fin 2) Unit Unit where
  table := ⟨[firstVersion], List.nodup_singleton _⟩
  processes := processes
  log := []

/-- Both clients read version one; one update is accepted, the other refused. -/
theorem read_update_two_clients :
    ∃ world,
      run (World.step ⟨none⟩) (oneRow (fun _ => .get ⟨0, "a"⟩))
          [.execute 0 1, .execute 1 2, .update 0 firstVersion,
            .partialUpdate 1 {}, .execute 0 3, .execute 1 4] = some world ∧
        acceptedOn ⟨0, "a"⟩ world.log = 1 ∧
        NoLostUpdate ⟨0, "a"⟩ 1 world :=
  ⟨_, rfl, rfl,
    read_update_noLostUpdate ⟨none⟩ (oneRow (fun _ => .get ⟨0, "a"⟩)) _ rfl
      (fun _ => ⟨_, rfl⟩) ⟨0, "a"⟩ firstVersion rfl
      [.execute 0 1, .execute 1 2, .update 0 firstVersion,
        .partialUpdate 1 {}, .execute 0 3, .execute 1 4] rfl (by decide)⟩

end Runs

/-! ## All writers of a row -/

/-- A step that changes a stored row moves the version of the row by one. -/
def Versioned (world : World ι Spec Status) (_ : Label ι Spec Status)
    (next : World ι Spec Status) : Prop :=
  ∀ key old new, world.table.find key = some old →
    next.table.find key = some new → new ≠ old →
      new.resource.resourceVersion = old.resource.resourceVersion + 1

/--
An `Update` about to write, whose row is no longer the one its client read,
returns a conflict and leaves the table as it is.
-/
def World.RefusesStale (kind : Kind Spec Status)
    (world : World ι Spec Status) : Prop :=
  ∀ client object clientVersion row,
    world.processes client = .writeGuarded object clientVersion →
    (client, .read row) ∈ world.log →
    world.table.find object.key ≠ some row →
    ∀ now, (Process.writeGuarded object clientVersion).exec kind now world.table =
      some (world.table, .returned (some .conflict),
        some (.refused object.key))

/-- An unguarded write that finds a live row stores its new columns there. -/
theorem Process.exec_unguarded
    (kind : Kind Spec Status) {now : Time} {table : Table Spec Status}
    {process : Process Spec Status} {key : Key}
    {assign : Object Spec Status → Object Spec Status}
    {row : Object Spec Status}
    (writes : process.unguarded now = some (key, assign))
    (selected : selectLive table key = some row)
    {result : Table Spec Status × Process Spec Status ×
      Option (Effect Spec Status)}
    (done : process.exec kind now table = some result) :
    result.1.find key = some (assign row) ∧
      (assign row).resource.resourceVersion = row.resource.resourceVersion := by
  rcases (selectLive_eq_some_iff table key row).mp selected with ⟨found, live⟩
  have stores :
      ∀ (assigned : Object Spec Status → Object Spec Status)
        (keepsKey : ∀ row, (assigned row).key = row.key)
        (missing finished : Option StoreError),
        (Process.finishWrite table key
          (updateLive table key (fun _ => true) assigned keepsKey)
          missing finished).1.find key = some (assigned row) := by
    intro assigned keepsKey missing finished
    unfold Process.finishWrite
    split
    · next unmatched =>
        have impossible := updateLive_eq_none_iff.mp unmatched row found live
        cases impossible
    · next written updated =>
        rcases updateLive_spec updated with ⟨old, stored, _, _, replaces⟩
        cases found.symm.trans stored
        exact replaces.find_self
  cases process with
  | writeDeletionTimestamp address =>
      cases writes
      cases done
      exact ⟨stores (Object.markDeletion now) (fun _ => rfl) _ _, rfl⟩
  | writeDeletedAt address =>
      cases writes
      cases done
      exact ⟨stores (Object.softDelete now) (fun _ => rfl) _ _, rfl⟩
  | writeStatus tableName address status =>
      cases writes
      cases done
      exact ⟨stores (Object.setStatus now status) (fun _ => rfl) _ _, rfl⟩
  | writeDelivery address status =>
      cases writes
      cases done
      exact ⟨stores (Object.setStatus now status) (fun _ => rfl) _ _, rfl⟩
  | _ => cases writes

theorem ReadsOnce.unique
    {before after : List (ι × Effect Spec Status)} {client : ι}
    {row other : Object Spec Status}
    (once : ReadsOnce (before ++ (client, .read row) :: after))
    (member : (client, .read other) ∈ before ++ (client, .read row) :: after) :
    other = row := by
  rcases List.mem_append.mp member with early | late
  · exact absurd rfl
      (once before _ after rfl client row rfl (client, .read other) early)
  · rcases List.mem_cons.mp late with same | later
    · cases same
      rfl
    · rcases List.append_of_mem later with ⟨front, back, rfl⟩
      have split :
          before ++ (client, .read row) :: (front ++ (client, .read other) :: back) =
            (before ++ (client, .read row) :: front) ++
              (client, .read other) :: back := by
        simp
      exact absurd rfl
        (once _ _ back split client other rfl (client, .read row) (by simp))

theorem World.Tracked.refusesStale
    (kind : Kind Spec Status) {world : World ι Spec Status}
    (tracked : world.Tracked)
    (bounded : ∀ key, acceptedOn key world.log < 2 ^ 64) :
    world.RefusesStale kind := by
  intro client object clientVersion row running member changed now
  have claims :
      (world.processes client).claim = some (object.key, clientVersion) := by
    rw [running]
    rfl
  rcases tracked.copies client _ _ claims with
    ⟨before, copy, after, stored, split, _, copyVersion, found, since⟩
  have sameRow : row = copy := by
    have once := tracked.readsOnce
    rw [split] at once member
    exact once.unique member
  subst sameRow
  have written : acceptedOn object.key after ≠ 0 := by
    intro none
    exact changed (since.2 none ▸ found)
  have fewer : acceptedOn object.key after < 2 ^ 64 := by
    have total := bounded object.key
    rw [split, acceptedOn_append, acceptedOn_cons_read] at total
    omega
  have moved : stored.resource.resourceVersion ≠ clientVersion := by
    intro same
    apply written
    apply eq_zero_of_version_eq fewer
    exact since.1.symm.trans (same.trans copyVersion.symm)
  have unmatched :
      updateGuarded now world.table
        (GenericStore.stamp now clientVersion object) clientVersion = none := by
    apply updateLive_eq_none_iff.mpr
    intro current currentFound _
    cases found.symm.trans currentFound
    exact decide_eq_false moved
  simp only [Process.exec, unmatched]

section Runs

variable [DecidableEq ι]

/-- A step is versioned exactly when it is no unguarded change of a live row. -/
theorem versioned_iff
    (kind : Kind Spec Status) {world next : World ι Spec Status}
    {label : Label ι Spec Status}
    (keepsKeys : world.KeepsKeys)
    (stepped : world.step kind label = some next) :
    Versioned world label next ↔ UnguardedIdle world label next := by
  constructor
  · rintro versioned client now rfl key assign writes row selected
    rcases Option.map_eq_some_iff.mp stepped with ⟨result, done, rfl⟩
    rcases Process.exec_unguarded kind writes selected done with
      ⟨stored, sameVersion⟩
    have found := ((selectLive_eq_some_iff _ _ _).mp selected).1
    by_cases same : assign row = row
    · exact same
    · have bumped := versioned key row (assign row) found stored same
      exact absurd (sameVersion.symm.trans bumped) (version_ne_succ _)
  · intro idle key old new found stored different
    rcases (World.step_moves kind keepsKeys stepped).progress idle with
      ⟨entries, _, progress⟩
    rcases progress key with ⟨_, kept⟩ | ⟨_, before, after, foundOld, foundNew, bumped⟩
    · cases (kept old found).symm.trans stored
      exact absurd rfl different
    · cases found.symm.trans foundOld
      cases stored.symm.trans foundNew
      exact bumped

/--
In every interleaving of the writers of a table, every change of a stored row
moves its version and every stale `Update` is refused, exactly when no
unguarded write of the run changes a live row.
-/
theorem all_writers_guarded_iff
    (kind : Kind Spec Status) (start world : World ι Spec Status)
    (fresh : start.Fresh)
    (labels : List (Label ι Spec Status))
    (reached : run (World.step kind) start labels = some world)
    (bounded : ∀ key, acceptedOn key world.log < 2 ^ 64) :
    (AllSteps (World.step kind) Versioned start labels ∧
        world.RefusesStale kind) ↔
      AllSteps (World.step kind) UnguardedIdle start labels := by
  have versionedIff :
      AllSteps (World.step kind) Versioned start labels ↔
        AllSteps (World.step kind) UnguardedIdle start labels := by
    apply allSteps_congr World.KeepsKeys _ _ fresh.keepsKeys
    · intro state label next keeps stepped _
      exact (World.step_moves kind keeps stepped).keepsKeys keeps
    · intro state label next keeps stepped
      exact versioned_iff kind keeps stepped
  rw [versionedIff]
  constructor
  · exact fun both => both.1
  · intro idle
    exact ⟨idle, (tracked_run kind fresh idle reached).1.refusesStale kind bounded⟩

end Runs

/-- Both clients read version one and update from it, and one of them writes. -/
def readThenUpdate (slow fast : Fin 2) : List (Label (Fin 2) Unit Unit) :=
  [.execute slow 1, .execute fast 2, .update slow firstVersion,
    .update fast firstVersion, .execute fast 3]

/-- The `Update` of client one is accepted, and that of client zero then refused. -/
theorem stale_update_refused :
    ∃ world,
      run (World.step ⟨none⟩) (oneRow (fun _ => .get ⟨0, "a"⟩))
          (readThenUpdate 0 1) = some world ∧
        acceptedOn ⟨0, "a"⟩ world.log = 1 ∧
        (AllSteps (World.step ⟨none⟩) Versioned
            (oneRow (fun _ => .get ⟨0, "a"⟩)) (readThenUpdate 0 1) ∧
          world.RefusesStale ⟨none⟩) ∧
        (world.step ⟨none⟩ (.execute 0 4)).map
            (fun next => (next.table, next.processes 0)) =
          some (world.table, .returned (some .conflict)) := by
  refine ⟨_, rfl, rfl, (all_writers_guarded_iff ⟨none⟩ _ _
    ⟨rfl, fun _ => rfl⟩ _ rfl
    (fun _ => Nat.lt_of_le_of_lt List.countP_le_length (by decide))).mpr ?_, rfl⟩
  refine .cons rfl ?_ (.cons rfl ?_ (.cons rfl ?_ (.cons rfl ?_
    (.cons rfl ?_ trivial))))
  all_goals
    intro client now same key assign writes
    cases same
  all_goals cases writes

/--
The mark a `Delete` sets between the read and the write of an `Update` is
overwritten: the version did not move, so that the `Update` is accepted.
-/
theorem deletion_mark_reverted :
    ∃ stale world,
      run (World.step ⟨none⟩)
          (oneRow (fun client => if client = 0 then .get ⟨0, "a"⟩
            else .readForDelete ⟨0, "a"⟩))
          [.execute 0 1, .execute 1 2, .execute 1 3, .execute 1 4,
            .update 0 firstVersion] = some stale ∧
        World.step ⟨none⟩ stale (.execute 0 5) = some world ∧
        ¬ AllSteps (World.step ⟨none⟩) Versioned
          (oneRow (fun client => if client = 0 then .get ⟨0, "a"⟩
            else .readForDelete ⟨0, "a"⟩))
          [.execute 0 1, .execute 1 2, .execute 1 3, .execute 1 4] ∧
        ¬ stale.RefusesStale ⟨none⟩ ∧
        (selectLive stale.table ⟨0, "a"⟩).map
          (fun row => row.resource.deletionTimestamp) = some (some 4) ∧
        (selectLive world.table ⟨0, "a"⟩).map
          (fun row => row.resource.deletionTimestamp) = some none := by
  refine ⟨_, _, rfl, rfl, ?_, ?_, rfl, rfl⟩
  · intro versioned
    have marked := ((((versioned _ rfl).2 _ rfl).2 _ rfl).2 _ rfl).1
    have bumped := marked ⟨0, "a"⟩ _ _ rfl rfl (by decide)
    exact absurd bumped (by decide)
  · intro refuses
    have conflict := refuses 0 _ _ _ rfl (List.mem_cons_self ..) (by decide) 5
    cases conflict

end Infractl.Store
