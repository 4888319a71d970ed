import Infractl.Lib.Unwinding
import Infractl.Store.OwnRows

/-!
# Tenants do not interfere

Any number of calls are in flight, for any number of tenants, and interleave
between statements.  A call keeps to the tenant of the rows it addresses.  The
calls of one tenant return, read and write the same when all the others are
left out of the run, however they were interleaved with them, and the tenant
then lists the same pages.
-/

namespace Infractl.Store

open Infractl.Lib
open Infractl.Lib.Run
open Infractl.Lib.Unwinding

variable {Spec Status : Type}

/-! ## The tenant of a call -/

/-- The rest of the call addresses rows of one tenant. -/
def Process.Within (org : UUID) : Process Spec Status → Prop
  | .countParent tenant _ _ next => tenant = org ∧ next.object.key.org = org
  | .readParent tenant _ _ next => tenant = org ∧ next.object.key.org = org
  | .insert object => object.key.org = org
  | .readExisting object => object.key.org = org
  | .writeGuarded object _ => object.key.org = org
  | .get key => key.org = org
  | .holding row => row.key.org = org
  | .writeFields key _ fields =>
      key.org = org ∧ (fields.renamed key).org = org
  | .countExisting key => key.org = org
  | .readForDelete key => key.org = org
  | .countChildren key _ => key.org = org
  | .writeDeletionTimestamp key => key.org = org
  | .writeDeletedAt key => key.org = org
  | .writeStatus _ key _ => key.org = org
  | .writeDelivery key _ => key.org = org
  | .returned _ => True

namespace Process

section Validation

variable (kind : Kind Spec Status) {org : UUID}
variable {next : Continuation Spec Status} (own : next.object.key.org = org)

include own

theorem within_enter : (next.enter kind).Within org := by
  cases next with
  | create object => exact own
  | update object =>
      unfold Continuation.enter
      cases kind.specBytes with
      | none => exact own
      | some specBytes => exact own

theorem within_walkTo (visited : List String) (current : String) :
    (walkTo kind org visited current next).Within org :=
  walkTo_cases (motive := Within org) kind org visited current
    (within_enter kind own) trivial ⟨rfl, own⟩

theorem within_validate {object : Object Spec Status}
    (ofTenant : object.key.org = org) :
    (validate kind object next).Within org :=
  validate_cases (motive := Within org) kind object (within_enter kind own)
    trivial (fun _ => ⟨ofTenant, own⟩)

end Validation

theorem within_fail {org : UUID} {process next : Process Spec Status}
    (failed : process.fail = some next) :
    next.Within org := by
  cases process with
  | holding row => cases failed
  | returned error => cases failed
  | _ =>
      cases failed
      trivial

/-! ## One statement -/

/-- What a statement leaves behind: a table, the rest of the call, an effect. -/
abbrev Result (Spec Status : Type) :=
  Table Spec Status × Process Spec Status × Option (Effect Spec Status)

/-- The results of a statement on two tables, as the tenant sees them. -/
def SameResult (org : UUID) (left right : Result Spec Status) : Prop :=
  AgreeOn org left.1 right.1 ∧ left.2 = right.2

/-- A statement for one tenant goes on for it and leaves the others alone. -/
def Keeps (org : UUID) (table : Table Spec Status) (result : Result Spec Status) :
    Prop :=
  result.2.1.Within org ∧ ∀ other, org ≠ other → AgreeOn other result.1 table

theorem keeps_of_same {org : UUID} {table : Table Spec Status}
    {next : Process Spec Status} (effect : Option (Effect Spec Status))
    (within : next.Within org) :
    Keeps org table (table, next, effect) :=
  ⟨within, fun other _ => AgreeOn.refl other table⟩

section OneStatement

variable {org : UUID} {table : Table Spec Status} {key : Key}

theorem keeps_of_replaces {written : Table Spec Status} {row : Object Spec Status}
    {next : Process Spec Status} (effect : Option (Effect Spec Status))
    (own : key.org = org) (within : next.Within org)
    (replaces : Replaces table written key row) :
    Keeps org table (written, next, effect) := by
  refine ⟨within, ?_⟩
  intro other different
  apply replaces.agreeOn
  rw [own]
  exact different

theorem keeps_finishWrite (own : key.org = org)
    {assign : Object Spec Status → Object Spec Status}
    (keepsKey : ∀ row, (assign row).key = row.key)
    (missing found : Option StoreError) :
    Keeps org table (finishWrite table key
      (updateLive table key (fun _ => true) assign keepsKey) missing found) := by
  unfold finishWrite
  split
  · exact keeps_of_same _ trivial
  · next written updated =>
      rcases updateLive_spec updated with ⟨row, _, _, _, replaces⟩
      exact keeps_of_replaces _ own trivial replaces

theorem exec_keeps (kind : Kind Spec Status) (now : Time)
    {process : Process Spec Status} (within : process.Within org)
    {result : Result Spec Status}
    (done : process.exec kind now table = some result) :
    Keeps org table result := by
  cases process with
  | countParent tenant name parent next =>
      rcases within with ⟨rfl, own⟩
      simp only [exec] at done
      split at done
      · cases done
        exact keeps_of_same _ (within_walkTo kind own _ _)
      · cases done
        exact keeps_of_same _ trivial
  | readParent tenant visited current next =>
      rcases within with ⟨rfl, own⟩
      simp only [exec] at done
      split at done
      · cases done
        exact keeps_of_same _ (within_enter kind own)
      · cases done
        exact keeps_of_same _ (within_walkTo kind own _ _)
  | insert object =>
      simp only [exec] at done
      split at done
      · cases done
        exact keeps_of_same _ trivial
      · next inserted stored =>
          cases done
          exact keeps_of_replaces _ within trivial (replaces_of_insertRow stored)
  | readExisting object =>
      simp only [exec] at done
      split at done
      · next existing specBytes _ _ =>
          cases done
          refine keeps_of_same _ ?_
          rcases GenericStore.bumpGeneration_eq specBytes existing object with
            ⟨generation, bumped⟩
          rw [bumped]
          exact within
      · cases done
        exact keeps_of_same _ within
      · cases done
        exact keeps_of_same _ trivial
  | writeGuarded object clientVersion =>
      simp only [exec] at done
      split at done
      · cases done
        exact keeps_of_same _ trivial
      · next updated written =>
          cases done
          rcases updateLive_spec written with ⟨row, _, _, _, replaces⟩
          exact keeps_of_replaces _ within trivial replaces
  | get key =>
      simp only [exec] at done
      split at done
      · cases done
        exact keeps_of_same _ trivial
      · next row selected =>
          cases done
          refine keeps_of_same _ ?_
          have found := ((selectLive_eq_some_iff table key row).mp selected).1
          rw [Within, KeyedTable.key_of_find found]
          exact within
  | holding row => cases done
  | writeFields key version fields =>
      simp only [exec] at done
      split at done
      · cases done
        exact keeps_of_same _ trivial
      · cases done
        exact keeps_of_same _ within.1
      · next updated written =>
          cases done
          refine ⟨trivial, ?_⟩
          intro other different
          rcases updateFields_reads written with ⟨row, selected, versionEq⟩
          rcases (selectLive_eq_some_iff table key row).mp selected with ⟨found, live⟩
          apply (updateFields_rewrites written found live versionEq).agreeOn
          · rw [within.1]
            exact different
          · rw [FieldMap.key_assign, KeyedTable.key_of_find found, within.2]
            exact different
  | countExisting key =>
      simp only [exec] at done
      split at done
      · cases done
        exact keeps_of_same _ trivial
      · cases done
        exact keeps_of_same _ trivial
  | readForDelete key =>
      simp only [exec] at done
      split at done
      · cases done
        exact keeps_of_same _ trivial
      · cases done
        exact keeps_of_same _ within
  | countChildren key existing =>
      simp only [exec] at done
      split at done
      · cases done
        exact keeps_of_same _ trivial
      · split at done
        · cases done
          exact keeps_of_same _ within
        · cases done
          exact keeps_of_same _ within
  | writeDeletionTimestamp key =>
      cases done
      exact keeps_finishWrite within _ _ _
  | writeDeletedAt key =>
      cases done
      exact keeps_finishWrite within _ _ _
  | writeStatus tableName key status =>
      cases done
      exact keeps_finishWrite within _ _ _
  | writeDelivery key status =>
      cases done
      exact keeps_finishWrite within _ _ _
  | returned error => cases done

end OneStatement

/-! ## The same statement on two tables -/

section TwoTables

variable {org : UUID} {left right : Table Spec Status}
variable (agree : AgreeOn org left right)

include agree

theorem replaced_eq
    (effect : Object Spec Status → Object Spec Status → Effect Spec Status)
    {written other : Table Spec Status} (after : AgreeOn org written other)
    {key newKey : Key} (own : key.org = org) (ownNew : newKey.org = org) :
    replaced effect left written key newKey =
      replaced effect right other key newKey := by
  simp only [replaced, agree.find_eq own, after.find_eq ownNew]

theorem sameResult_finishWrite {key : Key} (own : key.org = org)
    {assign : Object Spec Status → Object Spec Status}
    (keepsKey : ∀ row, (assign row).key = row.key)
    (missing found : Option StoreError) :
    SameResult org
      (finishWrite left key
        (updateLive left key (fun _ => true) assign keepsKey) missing found)
      (finishWrite right key
        (updateLive right key (fun _ => true) assign keepsKey) missing found) := by
  have related := agree.updateLive_rel own (fun _ => true) assign keepsKey
  revert related
  generalize updateLive left key (fun _ => true) assign keepsKey = first
  generalize updateLive right key (fun _ => true) assign keepsKey = second
  rintro (after | _)
  · exact ⟨after, by simp only [finishWrite, replaced_eq agree _ after own own]⟩
  · exact ⟨agree, rfl⟩

/-- A read decides how the call goes on, and it reads the same. -/
theorem sameResult_of_same {next : Process Spec Status}
    {effect : Option (Effect Spec Status)} :
    Option.Rel (SameResult org) (some (left, next, effect))
      (some (right, next, effect)) :=
  .some ⟨agree, rfl⟩

theorem exec_sameResult (kind : Kind Spec Status) (now : Time)
    {process : Process Spec Status} (within : process.Within org) :
    Option.Rel (SameResult org) (process.exec kind now left)
      (process.exec kind now right) := by
  cases process with
  | countParent tenant name parent next =>
      rcases within with ⟨rfl, own⟩
      have sameRow := agree.liveExists_eq (rfl : (⟨tenant, parent⟩ : Key).org = tenant)
      simp only [exec, sameRow]
      split
      · exact sameResult_of_same agree
      · exact sameResult_of_same agree
  | readParent tenant visited current next =>
      rcases within with ⟨rfl, own⟩
      simp only [exec, agree.selectParent_eq]
      split
      · exact sameResult_of_same agree
      · exact sameResult_of_same agree
  | insert object =>
      have related := agree.insertRow_rel within now
      simp only [exec]
      revert related
      generalize insertRow now left object = first
      generalize insertRow now right object = second
      rintro (after | _)
      · exact .some ⟨after, rfl⟩
      · exact sameResult_of_same agree
  | readExisting object =>
      simp only [exec, agree.selectLive_eq within]
      split
      · exact sameResult_of_same agree
      · exact sameResult_of_same agree
      · exact sameResult_of_same agree
  | writeGuarded object clientVersion =>
      have related : Option.Rel (AgreeOn org)
          (updateGuarded now left
            (GenericStore.stamp now clientVersion object) clientVersion)
          (updateGuarded now right
            (GenericStore.stamp now clientVersion object) clientVersion) :=
        agree.updateLive_rel within _ _ _
      simp only [exec]
      revert related
      generalize updateGuarded now left _ clientVersion = first
      generalize updateGuarded now right _ clientVersion = second
      rintro (after | _)
      · exact .some ⟨after, by simp only [replaced_eq agree _ after within within]⟩
      · exact sameResult_of_same agree
  | get key =>
      simp only [exec, agree.selectLive_eq within]
      split
      · exact sameResult_of_same agree
      · exact sameResult_of_same agree
  | holding row => exact .none
  | writeFields key version fields =>
      have related := agree.updateFields_rel within.1 within.2 now version
      simp only [exec]
      revert related
      generalize updateFields now left key version fields = first
      generalize updateFields now right key version fields = second
      rintro ((after | _) | _)
      · exact .some ⟨after, by
          simp only [replaced_eq agree _ after within.1 within.2]⟩
      · exact sameResult_of_same agree
      · exact sameResult_of_same agree
  | countExisting key =>
      simp only [exec, agree.liveExists_eq within]
      split
      · exact sameResult_of_same agree
      · exact sameResult_of_same agree
  | readForDelete key =>
      simp only [exec, agree.selectLive_eq within]
      split
      · exact sameResult_of_same agree
      · exact sameResult_of_same agree
  | countChildren key existing =>
      rcases key with ⟨tenant, name⟩
      cases within
      simp only [exec, agree.hasChildren_eq]
      split
      · exact sameResult_of_same agree
      · split
        · exact sameResult_of_same agree
        · exact sameResult_of_same agree
  | writeDeletionTimestamp key =>
      exact .some (sameResult_finishWrite agree within _ _ _)
  | writeDeletedAt key =>
      exact .some (sameResult_finishWrite agree within _ _ _)
  | writeStatus tableName key status =>
      exact .some (sameResult_finishWrite agree within _ _ _)
  | writeDelivery key status =>
      exact .some (sameResult_finishWrite agree within _ _ _)
  | returned error => exact .none

end TwoTables

end Process

/-! ## Runs -/

section Runs

variable {ι : Type}

/-- Who takes the step. -/
def Label.client : Label ι Spec Status → ι
  | .execute client _ => client
  | .fail client => client
  | .update client _ => client
  | .partialUpdate client _ => client

/-- How a call goes on when its client or a failure decides, and not a statement. -/
def Label.turn (kind : Kind Spec Status) :
    Label ι Spec Status → Process Spec Status → Option (Process Spec Status)
  | .execute _ _, _ => none
  | .fail _, process => process.fail
  | .update _ object, .holding row =>
      if object.key = row.key ∧
          object.resource.resourceVersion = row.resource.resourceVersion then
        some (Process.startUpdate kind object)
      else
        none
  | .partialUpdate _ fields, .holding row =>
      if fields.renamed row.key = row.key then
        some (.writeFields row.key row.resource.resourceVersion fields)
      else
        none
  | _, _ => none

theorem Label.within_turn {kind : Kind Spec Status} {label : Label ι Spec Status}
    {org : UUID} {process next : Process Spec Status}
    (within : process.Within org) (turned : label.turn kind process = some next) :
    next.Within org := by
  cases label with
  | execute client now => cases turned
  | fail client => exact Process.within_fail turned
  | update client object =>
      cases process with
      | holding row =>
          simp only [Label.turn] at turned
          split at turned
          · next same =>
              cases turned
              have own : (Continuation.update object).object.key.org = org := by
                rw [Continuation.object, same.1]
                exact within
              exact Process.within_validate kind own own
          · cases turned
      | _ => cases turned
  | partialUpdate client fields =>
      cases process with
      | holding row =>
          simp only [Label.turn] at turned
          split at turned
          · next same =>
              cases turned
              refine ⟨within, ?_⟩
              rw [same]
              exact within
          · cases turned
      | _ => cases turned

variable [DecidableEq ι]

/-- A step runs a statement, or takes a turn that the table has no part in. -/
theorem World.step_eq (kind : Kind Spec Status) (label : Label ι Spec Status) :
    (∃ now, label = .execute label.client now) ∨
      ∀ world : World ι Spec Status, world.step kind label =
        (label.turn kind (world.processes label.client)).map
          (world.setProcess label.client) := by
  cases label with
  | execute client now => exact Or.inl ⟨now, rfl⟩
  | fail client => exact Or.inr (fun _ => rfl)
  | update client object =>
      refine Or.inr ?_
      intro world
      simp only [World.step, Label.client]
      cases world.processes client with
      | holding row =>
          simp only [Label.turn]
          split
          · rfl
          · rfl
      | _ => rfl
  | partialUpdate client fields =>
      refine Or.inr ?_
      intro world
      simp only [World.step, Label.client]
      cases world.processes client with
      | holding row =>
          simp only [Label.turn]
          split
          · rfl
          · rfl
      | _ => rfl

/--
A world of many tenants beside one that holds the same rows of `org`, in which
the calls of `org` are where they are and have seen and done the same.
-/
structure World.LooksLike (tenant : ι → UUID) (org : UUID)
    (whole alone : World ι Spec Status) : Prop where
  within : ∀ client, (whole.processes client).Within (tenant client)
  rows : AgreeOn org whole.table alone.table
  calls : ∀ client, tenant client = org →
    whole.processes client = alone.processes client
  log : whole.log.filter (fun entry => tenant entry.1 = org) =
    alone.log.filter (fun entry => tenant entry.1 = org)

section Steps

variable {tenant : ι → UUID} {org : UUID} {whole alone : World ι Spec Status}

theorem within_update {client : ι} {next : Process Spec Status}
    (within : ∀ client, (whole.processes client).Within (tenant client))
    (after : next.Within (tenant client)) (other : ι) :
    (Function.update whole.processes client next other).Within (tenant other) := by
  rw [Function.update_apply]
  split
  · next same =>
      subst same
      exact after
  · exact within other

theorem calls_update {client : ι} {next : Process Spec Status}
    (calls : ∀ client, tenant client = org →
      whole.processes client = alone.processes client)
    (other : ι) (own : tenant other = org) :
    Function.update whole.processes client next other =
      Function.update alone.processes client next other := by
  rw [Function.update_apply, Function.update_apply, calls other own]

/-- A step of another tenant cannot be seen. -/
theorem World.LooksLike.unseen (kind : Kind Spec Status)
    (related : whole.LooksLike tenant org alone) {label : Label ι Spec Status}
    (foreign : tenant label.client ≠ org) {next : World ι Spec Status}
    (stepped : whole.step kind label = some next) :
    next.LooksLike tenant org alone := by
  have elsewhere (process : Process Spec Status) (other : ι)
      (own : tenant other = org) :
      Function.update whole.processes label.client process other =
        alone.processes other := by
    rw [Function.update_of_ne]
    · exact related.calls other own
    · rintro rfl
      exact foreign own
  rcases World.step_eq kind label with ⟨now, isExecute⟩ | isTurn
  · generalize label.client = client at isExecute foreign elsewhere
    subst isExecute
    rcases Option.map_eq_some_iff.mp stepped with ⟨result, done, rfl⟩
    rcases Process.exec_keeps kind now (related.within client) done with
      ⟨within, others⟩
    refine ⟨within_update related.within within,
      (others org foreign).trans related.rows, elsewhere _, ?_⟩
    have unlogged : (result.2.2.toList.map (client, ·)).filter
        (fun entry => tenant entry.1 = org) = [] := by
      rw [List.filter_eq_nil_iff]
      rintro entry member
      rcases List.mem_map.mp member with ⟨effect, _, rfl⟩
      simpa using foreign
    rw [List.filter_append, unlogged, List.append_nil, related.log]
  · rw [isTurn] at stepped
    rcases Option.map_eq_some_iff.mp stepped with ⟨process, turned, rfl⟩
    exact ⟨within_update related.within
      (Label.within_turn (related.within _) turned),
      related.rows, elsewhere process, related.log⟩

/-- A step of the tenant is followed by the same step alone. -/
theorem World.LooksLike.followed (kind : Kind Spec Status)
    (related : whole.LooksLike tenant org alone) {label : Label ι Spec Status}
    (own : tenant label.client = org) {next : World ι Spec Status}
    (stepped : whole.step kind label = some next) :
    ∃ nextAlone, alone.step kind label = some nextAlone ∧
      next.LooksLike tenant org nextAlone := by
  have sameCall := related.calls label.client own
  rcases World.step_eq kind label with ⟨now, isExecute⟩ | isTurn
  · generalize label.client = client at isExecute own sameCall
    subst isExecute
    rcases Option.map_eq_some_iff.mp stepped with ⟨result, done, rfl⟩
    have within := related.within client
    rw [own] at within
    have answers := Process.exec_sameResult related.rows kind now within
    rw [done, sameCall] at answers
    cases executed : (alone.processes client).exec kind now alone.table with
    | none =>
        rw [executed] at answers
        cases answers
    | some resultAlone =>
        rw [executed] at answers
        rcases answers with ⟨rows, same⟩
        refine ⟨_, Option.map_eq_some_iff.mpr ⟨resultAlone, executed, rfl⟩, ?_⟩
        have keeps := Process.exec_keeps kind now (related.within client) done
        refine ⟨within_update related.within keeps.1, rows, ?_, ?_⟩
        · rw [same]
          exact calls_update related.calls
        · rw [List.filter_append, List.filter_append, related.log, same]
  · rw [isTurn] at stepped
    rcases Option.map_eq_some_iff.mp stepped with ⟨process, turned, rfl⟩
    have turnedAlone := turned
    rw [sameCall] at turnedAlone
    refine ⟨alone.setProcess label.client process, ?_, ?_⟩
    · rw [isTurn, turnedAlone]
      rfl
    · exact ⟨within_update related.within
        (Label.within_turn (related.within _) turned),
        related.rows, calls_update related.calls, related.log⟩

end Steps

theorem World.unwinds (kind : Kind Spec Status) (tenant : ι → UUID) (org : UUID) :
    Unwinds (World.step kind)
      (fun label : Label ι Spec Status => tenant label.client = org)
      (World.LooksLike tenant org) where
  unseen foreign related stepped :=
    related.unseen kind (of_decide_eq_false foreign) stepped
  followed own related stepped :=
    related.followed kind (of_decide_eq_true own) stepped

/--
In every interleaving of the statements of any number of calls, each for rows
of one tenant, leaving out all the calls of other tenants changes nothing for a
tenant: its calls return the same and read and write the same rows, and its
lists are the same at the end.
-/
theorem tenants_do_not_interfere (kind : Kind Spec Status) (tenant : ι → UUID)
    (org : UUID) {start finish : World ι Spec Status}
    {labels : List (Label ι Spec Status)}
    (within : ∀ client, (start.processes client).Within (tenant client))
    (reached : run (World.step kind) start labels = some finish) :
    ∃ alone,
      run (World.step kind) start
          (labels.filter (fun label => tenant label.client = org)) = some alone ∧
        (∀ client, tenant client = org →
          finish.processes client = alone.processes client) ∧
        finish.log.filter (fun entry => tenant entry.1 = org) =
          alone.log.filter (fun entry => tenant entry.1 = org) ∧
        AgreeOn org finish.table alone.table ∧
        ∀ (database : Database Spec Status) (options : ListOptions),
          options.sort = "" →
            list database finish.table org options =
              list database alone.table org options := by
  have same : start.LooksLike tenant org start :=
    ⟨within, AgreeOn.refl org start.table, fun _ _ => rfl, rfl⟩
  rcases (World.unwinds kind tenant org).run same reached with
    ⟨alone, reachedAlone, related⟩
  refine ⟨alone, reachedAlone, related.calls, related.log, related.rows, ?_⟩
  intro database options unsorted
  apply list_eq_of_ownRowsOnly _ related.rows
  rw [unsorted]
  exact ownRowsOnly_defaultOrder database org

end Runs

/-! ## Two tenants that delete at the same time -/

/-- A client of tenant one and a client of tenant two, each about to delete. -/
def deletingWorld : World Bool Unit Unit where
  table := sharedMachines
  processes first :=
    if first then .readForDelete ⟨1, "a"⟩ else .readForDelete ⟨2, "c"⟩
  log := []

def deletingLabels : List (Label Bool Unit Unit) :=
  [.execute true 5, .execute false 6, .execute false 7, .execute true 8,
    .execute false 9, .execute true 10]

/-- Tenant one deletes its machine as if tenant two were not there. -/
theorem deletions_apart :
    ∃ finish alone,
      run (World.step ⟨none⟩) deletingWorld deletingLabels = some finish ∧
        run (World.step ⟨none⟩) deletingWorld
          [.execute true 5, .execute true 8, .execute true 10] = some alone ∧
        finish.processes true = alone.processes true ∧
        AgreeOn 1 finish.table alone.table := by
  have runs : (run (World.step ⟨none⟩) deletingWorld deletingLabels).isSome = true := by
    decide
  have within (first : Bool) : (deletingWorld.processes first).Within
      (if first then 1 else 2) := by
    cases first
    · exact rfl
    · exact rfl
  rcases Option.isSome_iff_exists.mp runs with ⟨finish, reached⟩
  rcases tenants_do_not_interfere ⟨none⟩ (fun first => if first then 1 else 2) 1
    within reached with ⟨alone, reachedAlone, calls, _, rows, _⟩
  exact ⟨finish, alone, reached, reachedAlone, calls true rfl, rows⟩

end Infractl.Store
