import Infractl.Lib.History
import Infractl.Store.Interleaving

/-!
# Optimistic concurrency

Between two accepted guarded writes of a row its version does not move, and
each of them moves it by one.  The version therefore counts the accepted
writes, and a client whose version still matches at its write has had no
accepted write on its row since its read.

This needs that the writes without a guard leave the row alone.  The clients
that only read, update and partially update issue none, so that for them no
update is ever lost.  Deletions, status updates and deliveries do issue such
writes: a run in which one of them changes a live row changes that row behind
its version, and an update based on an older copy then reverts the change.
-/

namespace Infractl.Store

open Infractl.Lib
open Infractl.Lib.Run

variable {Spec Status ι : Type}

/-! ## Counting accepted writes -/

/-- A guarded write on the key. -/
def Effect.acceptsOn (key : Key) : Effect Spec Status → Bool
  | .accepted before _ => decide (before.key = key)
  | _ => false

/-- The number of accepted guarded writes of a row in a log. -/
def acceptedOn (key : Key) (log : List (ι × Effect Spec Status)) : Nat :=
  log.countP (fun entry => entry.2.acceptsOn key)

@[simp]
theorem acceptedOn_append (key : Key)
    (front back : List (ι × Effect Spec Status)) :
    acceptedOn key (front ++ back) =
      acceptedOn key front + acceptedOn key back :=
  List.countP_append

@[simp]
theorem acceptedOn_cons_read (key : Key) (client : ι)
    (row : Object Spec Status) (rest : List (ι × Effect Spec Status)) :
    acceptedOn key ((client, .read row) :: rest) = acceptedOn key rest :=
  List.countP_cons_of_neg (by simp [Effect.acceptsOn])

@[simp]
theorem acceptedOn_accepted (key : Key) (client : ι)
    (old new : Object Spec Status) :
    acceptedOn key [(client, .accepted old new)] =
      if old.key = key then 1 else 0 := by
  simp [acceptedOn, Effect.acceptsOn]

/-! ## Progress of a row -/

/--
What a step does to the row under a key, given the entries it adds to the log:
nothing, or one accepted write that moves the version by one.
-/
def Progress (key : Key) (before after : Table Spec Status)
    (entries : List (ι × Effect Spec Status)) : Prop :=
  (acceptedOn key entries = 0 ∧
      ∀ row, before.find key = some row → after.find key = some row) ∨
    (acceptedOn key entries = 1 ∧
      ∃ old new, before.find key = some old ∧ after.find key = some new ∧
        new.resource.resourceVersion = old.resource.resourceVersion + 1)

theorem Progress.of_unchanged (key : Key) (table : Table Spec Status)
    {entries : List (ι × Effect Spec Status)}
    (none : acceptedOn key entries = 0) :
    Progress key table table entries :=
  Or.inl ⟨none, fun _ found => found⟩

/-! ## The row since a read -/

/-- `stored` is what `row` has become after the entries of a log. -/
def Since (key : Key) (row stored : Object Spec Status)
    (entries : List (ι × Effect Spec Status)) : Prop :=
  stored.resource.resourceVersion =
      row.resource.resourceVersion + Int64.ofNat (acceptedOn key entries) ∧
    (acceptedOn key entries = 0 → stored = row)

theorem Since.nil (key : Key) (row : Object Spec Status) :
    Since key row row ([] : List (ι × Effect Spec Status)) :=
  ⟨(Int64.add_zero _).symm, fun _ => rfl⟩

theorem Since.progress
    {key : Key} {row old : Object Spec Status}
    {before after : Table Spec Status}
    {entries more : List (ι × Effect Spec Status)}
    (since : Since key row old entries)
    (stored : before.find key = some old)
    (progress : Progress key before after more) :
    ∃ new, after.find key = some new ∧ Since key row new (entries ++ more) := by
  rcases progress with ⟨none, kept⟩ | ⟨one, replaced, new, found, written, bumped⟩
  · refine ⟨old, kept old stored, ?_⟩
    simpa only [Since, acceptedOn_append, none, Nat.add_zero] using since
  · cases stored.symm.trans found
    refine ⟨new, written, ?_, ?_⟩
    · rw [bumped, since.1, version_add_succ, acceptedOn_append, one]
    · intro noWrite
      rw [acceptedOn_append, one] at noWrite
      omega

/--
The log shows the read that gave a client its copy, and what has become of the
row since.
-/
def World.HoldsCopy (world : World ι Spec Status) (client : ι) (key : Key)
    (version : Int64) : Prop :=
  ∃ before row after stored,
    world.log = before ++ (client, .read row) :: after ∧
      row.key = key ∧ row.resource.resourceVersion = version ∧
      world.table.find key = some stored ∧ Since key row stored after

theorem World.HoldsCopy.progress
    {world next : World ι Spec Status} {client : ι} {key : Key}
    {version : Int64} {entries : List (ι × Effect Spec Status)}
    (copy : world.HoldsCopy client key version)
    (logEq : next.log = world.log ++ entries)
    (progress : Progress key world.table next.table entries) :
    next.HoldsCopy client key version := by
  rcases copy with
    ⟨before, row, after, old, split, rowKey, rowVersion, stored, since⟩
  rcases since.progress stored progress with ⟨new, found, sinceNew⟩
  refine
    ⟨before, row, after ++ entries, new, ?_, rowKey, rowVersion, found, sinceNew⟩
  rw [logEq, split, List.append_assoc, List.cons_append]

/-! ## Reading a statement's effect -/

namespace Process.Does

variable {now : Time} {table after : Table Spec Status}
variable {process next : Process Spec Status}

theorem get_of_read {row : Object Spec Status}
    (does : Does now table process after next (some (.read row))) :
    ∃ key, process = .get key := by
  cases does with
  | read selected => exact ⟨_, rfl⟩

theorem of_accepted {old new : Object Spec Status}
    (does : Does now table process after next (some (.accepted old new))) :
    process.claim = some (old.key, old.resource.resourceVersion) ∧
      table.find old.key = some old ∧
      new.key = old.key ∧
      new.resource.resourceVersion = old.resource.resourceVersion + 1 := by
  cases does with
  | accept claims found live current bumped replaces writes =>
      have oldKey := KeyedTable.key_of_find found
      have newKey := KeyedTable.key_of_find replaces.find_self
      subst oldKey
      subst current
      exact ⟨claims, found, newKey, bumped⟩

theorem started {effect : Option (Effect Spec Status)}
    (does : Does now table process after next effect) (key : Key) :
    next ≠ .get key := by
  cases does with
  | pass follows => exact follows.started key
  | refuse refusedKey follows => exact follows.started key
  | read selected => exact fun equal => by cases equal
  | insert done => exact fun equal => by cases equal
  | accept => exact fun equal => by cases equal
  | write => exact fun equal => by cases equal

/-- A copy is either the one already held or the row just read. -/
theorem claim_cases {effect : Option (Effect Spec Status)}
    (does : Does now table process after next effect)
    {key : Key} {version : Int64}
    (claims : next.claim = some (key, version)) :
    process.claim = some (key, version) ∨
      ∃ row, effect = some (.read row) ∧ after.find key = some row ∧
        row.resource.resourceVersion = version := by
  have ofFollows : Process.Follows process next →
      process.claim = some (key, version) := by
    intro follows
    rcases follows.claim with unclaimed | same
    · cases unclaimed.symm.trans claims
    · exact same.symm.trans claims
  cases does with
  | pass follows => exact Or.inl (ofFollows follows)
  | refuse refusedKey follows => exact Or.inl (ofFollows follows)
  | @read readKey row selected =>
      have found := ((selectLive_eq_some_iff _ _ _).mp selected).1
      cases claims
      refine Or.inr ⟨row, rfl, ?_, rfl⟩
      rw [KeyedTable.key_of_find found, found]
  | insert done => cases claims
  | accept => cases claims
  | write => cases claims

end Process.Does

/-! ## The invariant -/

/-- Each client reads at most once. -/
def ReadsOnce (log : List (ι × Effect Spec Status)) : Prop :=
  Each (fun before entry => ∀ client row, entry = (client, .read row) →
    ∀ earlier ∈ before, earlier.1 ≠ client) log

/-- What the log and the processes of a world say about each other. -/
structure World.Tracked (world : World ι Spec Status) : Prop where
  keepsKeys : world.KeepsKeys
  unread : ∀ client key, world.processes client = .get key →
    ∀ entry ∈ world.log, entry.1 ≠ client
  copies : ∀ client key version,
    (world.processes client).claim = some (key, version) →
      world.HoldsCopy client key version
  readsOnce : ReadsOnce world.log

/-- The start of a run: nothing logged, and no client holds a copy. -/
structure World.Fresh (world : World ι Spec Status) : Prop where
  log : world.log = []
  unclaimed : ∀ client, (world.processes client).claim = none

theorem World.Fresh.keepsKeys {world : World ι Spec Status}
    (fresh : world.Fresh) : world.KeepsKeys := by
  intro client
  have unclaimed := fresh.unclaimed client
  cases process : world.processes client with
  | writeFields key version fields =>
      rw [process] at unclaimed
      cases unclaimed
  | _ => rfl

theorem World.Fresh.tracked {world : World ι Spec Status}
    (fresh : world.Fresh) : world.Tracked where
  keepsKeys := fresh.keepsKeys
  unread := by
    intro client key _ entry member
    rw [fresh.log] at member
    cases member
  copies := by
    intro client key version claims
    cases (fresh.unclaimed client).symm.trans claims
  readsOnce := by
    rw [fresh.log]
    exact Each.nil

/-! ## Steps -/

/-- A write that no version guards finds a live row only as it leaves it. -/
def UnguardedIdle (world : World ι Spec Status) (label : Label ι Spec Status)
    (_ : World ι Spec Status) : Prop :=
  ∀ client now, label = .execute client now →
    ∀ key assign, (world.processes client).unguarded now = some (key, assign) →
      ∀ row, selectLive world.table key = some row → assign row = row

variable [DecidableEq ι]

variable {world next : World ι Spec Status} {label : Label ι Spec Status}

theorem World.Moves.progress
    (moves : world.Moves label next) (idle : UnguardedIdle world label next) :
    ∃ entries, next.log = world.log ++ entries ∧
      ∀ key, Progress key world.table next.table entries := by
  cases moves with
  | silent stays follows =>
      exact ⟨[], (List.append_nil _).symm,
        fun key => .of_unchanged key world.table rfl⟩
  | execute running does =>
      refine ⟨_, rfl, ?_⟩
      intro key
      cases does with
      | pass follows => exact .of_unchanged key world.table rfl
      | refuse refusedKey follows => exact .of_unchanged key world.table rfl
      | read selected => exact .of_unchanged key world.table rfl
      | insert done =>
          refine Or.inl ⟨rfl, ?_⟩
          intro row found
          have absent := ((KeyedTable.insert?_eq_some_iff _ _ _).mp done).1
          rw [(replaces_of_insertRow done).find_other, found]
          rintro rfl
          rw [Object.key_prepareInsert, found] at absent
          cases absent
      | @accept _ updated written version row new claims found live current bumped
          replaces writes =>
          have rowKey := KeyedTable.key_of_find found
          simp only [Option.toList_some, List.map_cons, List.map_nil, Progress,
            acceptedOn_accepted]
          by_cases same : written = key
          · subst same
            refine Or.inr ⟨if_pos rowKey, row, new, found, replaces.find_self, ?_⟩
            rw [bumped, current]
          · refine Or.inl ⟨if_neg (fun equal => same (rowKey.symm.trans equal)), ?_⟩
            intro other otherFound
            rw [replaces.find_other (Ne.symm same), otherFound]
      | @write _ written address assign row error writes found live replaces =>
          have selected := (selectLive_eq_some_iff _ _ _).mpr ⟨found, live⟩
          have same := idle _ _ rfl address assign (running ▸ writes) row selected
          refine Or.inl ⟨rfl, ?_⟩
          intro other otherFound
          rw [same] at replaces
          rw [replaces key]
          split
          · next equal =>
              subst equal
              exact found.symm.trans otherFound
          · exact otherFound

theorem World.Moves.unread
    (moves : world.Moves label next)
    (unread : ∀ client key, world.processes client = .get key →
      ∀ entry ∈ world.log, entry.1 ≠ client) :
    ∀ client key, next.processes client = .get key →
      ∀ entry ∈ next.log, entry.1 ≠ client := by
  intro other key reading entry member
  cases moves with
  | @silent _ client process stays follows =>
      change Function.update world.processes client process other = _ at reading
      rw [Function.update_apply] at reading
      split at reading
      · exact absurd reading (follows.started key)
      · exact unread other key reading entry member
  | @execute client now table process moved effect running does =>
      change Function.update world.processes client moved other = _ at reading
      rw [Function.update_apply] at reading
      split at reading
      · exact absurd reading (does.started key)
      · next different =>
          rcases List.mem_append.mp member with old | added
          · exact unread other key reading entry old
          · rcases List.mem_map.mp added with ⟨_, _, rfl⟩
            exact Ne.symm different

theorem World.Moves.copies
    (moves : world.Moves label next) (idle : UnguardedIdle world label next)
    (copies : ∀ client key version,
      (world.processes client).claim = some (key, version) →
        world.HoldsCopy client key version) :
    ∀ client key version,
      (next.processes client).claim = some (key, version) →
        next.HoldsCopy client key version := by
  intro other key version claims
  rcases moves.progress idle with ⟨entries, logEq, progress⟩
  have kept :
      (world.processes other).claim = some (key, version) →
        next.HoldsCopy other key version :=
    fun old => (copies other key version old).progress logEq (progress key)
  cases moves with
  | @silent _ client process stays follows =>
      change (Function.update world.processes client process other).claim = _
        at claims
      rw [Function.update_apply] at claims
      split at claims
      · next same =>
          subst same
          rcases follows.claim with unclaimed | inherited
          · cases unclaimed.symm.trans claims
          · exact kept (inherited.symm.trans claims)
      · exact kept claims
  | @execute client now table process moved effect running does =>
      change (Function.update world.processes client moved other).claim = _
        at claims
      rw [Function.update_apply] at claims
      split at claims
      · next same =>
          subst same
          rcases does.claim_cases claims with old | ⟨row, rfl, found, rowVersion⟩
          · exact kept (running ▸ old)
          · exact ⟨world.log, row, [], row, rfl, KeyedTable.key_of_find found,
              rowVersion, found, Since.nil key row⟩
      · exact kept claims

theorem World.Moves.readsOnce
    (moves : world.Moves label next) (tracked : world.Tracked) :
    ReadsOnce next.log := by
  cases moves with
  | silent stays follows => exact tracked.readsOnce
  | @execute client now table process moved effect running does =>
      cases effect with
      | none =>
          change ReadsOnce (world.log ++ [])
          rw [List.append_nil]
          exact tracked.readsOnce
      | some effect =>
          apply Each.concat tracked.readsOnce
          rintro reader row equal
          cases equal
          rcases does.get_of_read with ⟨key, reading⟩
          exact tracked.unread client key (running.trans reading)

theorem World.Moves.tracked
    (moves : world.Moves label next) (idle : UnguardedIdle world label next)
    (tracked : world.Tracked) :
    next.Tracked where
  keepsKeys := moves.keepsKeys tracked.keepsKeys
  unread := moves.unread tracked.unread
  copies := moves.copies idle tracked.copies
  readsOnce := moves.readsOnce tracked

/-! ## Runs -/

/--
Every accepted write of a row moves its version by one, and replaces exactly
the row its client had read, with no accepted write of the row in between.
-/
def Undisturbed (key : Key) (log : List (ι × Effect Spec Status)) : Prop :=
  Each (fun before entry => ∀ client old new,
    entry = (client, .accepted old new) → old.key = key →
      new.key = key ∧
        new.resource.resourceVersion = old.resource.resourceVersion + 1 ∧
        ∃ earlier later, before = earlier ++ (client, .read old) :: later ∧
          acceptedOn key later = 0) log

theorem World.Moves.undisturbed
    {key : Key} (moves : world.Moves label next) (tracked : world.Tracked)
    (bounded : acceptedOn key world.log < 2 ^ 64)
    (undisturbed : Undisturbed key world.log) :
    Undisturbed key next.log := by
  cases moves with
  | silent stays follows => exact undisturbed
  | @execute client now table process moved effect running does =>
      cases effect with
      | none =>
          change Undisturbed key (world.log ++ [])
          rw [List.append_nil]
          exact undisturbed
      | some effect =>
          apply Each.concat undisturbed
          rintro writer old new equal rfl
          cases equal
          rcases does.of_accepted with ⟨claims, found, newKey, bumped⟩
          refine ⟨newKey, bumped, ?_⟩
          rcases tracked.copies client _ _ (running ▸ claims) with
            ⟨earlier, row, later, stored, split, _, rowVersion, storedFound,
              since⟩
          cases found.symm.trans storedFound
          have fewer : acceptedOn old.key later < 2 ^ 64 := by
            rw [split, acceptedOn_append, acceptedOn_cons_read] at bounded
            omega
          have none := eq_zero_of_version_eq fewer
            (since.1.symm.trans rowVersion.symm)
          have same := since.2 none
          subst same
          exact ⟨earlier, later, split, none⟩

/--
The version of a row counts its accepted writes from the row it started as,
now and before each of them.
-/
structure World.Counts (world : World ι Spec Status) (key : Key)
    (row : Object Spec Status) : Prop where
  stored : ∃ current, world.table.find key = some current ∧
    Since key row current world.log
  numbered : Each (fun before entry => ∀ client old new,
    entry = (client, .accepted old new) → old.key = key →
      old.resource.resourceVersion =
        row.resource.resourceVersion + Int64.ofNat (acceptedOn key before))
    world.log

theorem World.Moves.counts
    {key : Key} {row : Object Spec Status} (moves : world.Moves label next)
    (idle : UnguardedIdle world label next) (counts : world.Counts key row) :
    next.Counts key row := by
  rcases counts.stored with ⟨current, found, since⟩
  constructor
  · rcases moves.progress idle with ⟨entries, logEq, progress⟩
    rcases since.progress found (progress key) with ⟨new, newFound, sinceNew⟩
    exact ⟨new, newFound, logEq ▸ sinceNew⟩
  · cases moves with
    | silent stays follows => exact counts.numbered
    | @execute client now table process moved effect running does =>
        cases effect with
        | none => simpa using counts.numbered
        | some effect =>
            apply Each.concat counts.numbered
            rintro writer old new equal rfl
            cases equal
            cases found.symm.trans does.of_accepted.2.1
            exact since.1

/-- What holds of every run whose unguarded writes change nothing. -/
theorem tracked_run
    (kind : Kind Spec Status) {start world : World ι Spec Status}
    {labels : List (Label ι Spec Status)}
    (fresh : start.Fresh)
    (idle : AllSteps (World.step kind) UnguardedIdle start labels)
    (reached : run (World.step kind) start labels = some world) :
    world.Tracked ∧
      (∀ key, acceptedOn key world.log < 2 ^ 64 → Undisturbed key world.log) ∧
      ∀ key row, start.table.find key = some row → world.Counts key row := by
  refine AllSteps.run_invariant
    (fun state : World ι Spec Status =>
      state.Tracked ∧
        (∀ key, acceptedOn key state.log < 2 ^ 64 → Undisturbed key state.log) ∧
        ∀ key row, start.table.find key = some row → state.Counts key row)
    ?_ ?_ idle reached
  · rintro state label next ⟨tracked, undisturbed, counts⟩ stepped idleStep
    have moves := World.step_moves kind tracked.keepsKeys stepped
    refine ⟨moves.tracked idleStep tracked, ?_, ?_⟩
    · intro key bounded
      rcases moves.progress idleStep with ⟨entries, logEq, _⟩
      have boundedBefore : acceptedOn key state.log < 2 ^ 64 := by
        rw [logEq, acceptedOn_append] at bounded
        omega
      exact moves.undisturbed tracked boundedBefore
        (undisturbed key boundedBefore)
    · intro key row found
      exact moves.counts idleStep (counts key row found)
  · refine ⟨fresh.tracked, ?_, ?_⟩
    · intro key _
      rw [Undisturbed, fresh.log]
      exact Each.nil
    · intro key row found
      refine ⟨⟨row, found, ?_⟩, ?_⟩
      · rw [fresh.log]
        exact Since.nil key row
      · rw [fresh.log]
        exact Each.nil

end Infractl.Store
