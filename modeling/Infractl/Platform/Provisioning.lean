import Infractl.Lib.Mirror
import Infractl.Platform.Organization

/-!
# Whether the identity provider has the organizations that exist

For one name, a service is a record with an asynchronous mirror: the row of the
organization, its image in the identity provider, and the reactions fired but
not run.  `Service.Moves` states what a step can do, `Service.Moves.turn` what
that is for a name, and `Mirror.agrees_iff_orderly` what follows for a run.

A row that was soft-deleted keeps its key, so that a name is created and
deleted at most once.  Nothing orders the two reactions, and a provisioning
that runs after the deprovisioning is never undone.
-/

namespace Infractl.Platform

open Infractl.Lib
open Infractl.Lib.Run
open Infractl.Store

/-! ## The record of a name -/

/-- What a row is to the mirror. -/
def recordOf (row : Organization) : Mirror.Record :=
  if row.live then .live else .deleted

/-- What is stored under a key. -/
def recordAt (table : Organizations) (key : Key) : Mirror.Record :=
  match table.find key with
  | none => .absent
  | some row => recordOf row

theorem recordOf_ne_absent (row : Organization) : recordOf row ≠ .absent := by
  unfold recordOf
  split
  · decide
  · decide

section Records

variable {table result : Organizations} {key : Key}

@[simp]
theorem recordAt_eq_live_iff :
    recordAt table key = .live ↔ liveExists table key = true := by
  rw [liveExists_iff, recordAt]
  cases table.find key with
  | none => simp
  | some row => simp [recordOf]

theorem recordAt_of_find {row : Organization}
    (found : table.find key = some row) :
    recordAt table key = recordOf row := by
  rw [recordAt, found]

theorem recordAt_of_replaces {row : Organization}
    (replaces : Replaces table result key row) (wanted : Key) :
    recordAt result wanted =
      if wanted = key then recordOf row else recordAt table wanted := by
  rw [recordAt, replaces wanted]
  by_cases same : wanted = key
  · rw [if_pos same, if_pos same]
  · rw [if_neg same, if_neg same, recordAt]

/-- A statement that leaves `deleted_at` alone keeps every record. -/
theorem recordAt_updateLive {guard : Organization → Bool}
    {assign : Organization → Organization}
    {keepsKey : ∀ row, (assign row).key = row.key}
    (keepsLive : ∀ row, (assign row).live = row.live)
    (updated : updateLive table key guard assign keepsKey = some result)
    (wanted : Key) :
    recordAt result wanted = recordAt table wanted := by
  rcases updateLive_spec updated with ⟨row, found, _, _, replaces⟩
  have sameRecord : recordOf (assign row) = recordOf row := by
    rw [recordOf, keepsLive, recordOf]
  rw [recordAt_of_replaces replaces, sameRecord, ← recordAt_of_find found]
  split
  · next same => rw [same]
  · rfl

@[simp]
theorem recordAt_updateStatus (org : Organization)
    (status : OrganizationStatus) (wanted : Key) :
    recordAt (updateStatus table org status) wanted = recordAt table wanted := by
  unfold updateStatus
  cases updated : updateLive table org.key (fun _ => true)
      (fun row => { row with status := status }) (fun _ => rfl) with
  | none => rfl
  | some written =>
      refine recordAt_updateLive ?_ updated wanted
      intro row
      rfl

end Records

/-! ## The calls of a request -/

/-- A `Create` of an organization that has not succeeded. -/
inductive Creating (org : Organization) : Call → Prop where
  | checking (tenant : UUID) (name parent : String) :
      Creating org (.countParent tenant name parent (.create org))
  | walking (tenant : UUID) (visited : List String) (current : String) :
      Creating org (.readParent tenant visited current (.create org))
  | inserting : Creating org (.insert org)
  | refused (error : StoreError) : Creating org (.returned (some error))

/-- A `Delete` under a key that has not succeeded. -/
inductive Deleting (key : Key) : Call → Prop where
  | reading : Deleting key (.readForDelete key)
  | counting (existing : Organization) :
      Deleting key (.countChildren key existing)
  | marking : Deleting key (.writeDeletionTimestamp key)
  | burying : Deleting key (.writeDeletedAt key)
  | refused (error : StoreError) : Deleting key (.returned (some error))

section Calls

variable {kind : Kind OrganizationSpec OrganizationStatus}
variable {now : Time} {table : Organizations} {org : Organization} {key : Key}
variable {process : Call}

theorem creating_walkTo (tenant : UUID) (visited : List String)
    (current : String) :
    Creating org (Process.walkTo kind tenant visited current (.create org)) := by
  refine Process.walkTo_cases (motive := Creating org) kind tenant visited
    current ?_ ?_ ?_
  · exact .inserting
  · exact .refused .circularParent
  · exact .walking tenant _ current

variable (kind org) in
theorem creating_start : Creating org (Process.startCreate kind org) := by
  refine Process.validate_cases (motive := Creating org) kind org ?_ ?_ ?_
  · exact .inserting
  · exact .refused .circularParent
  · intro parent
    exact .checking _ _ parent

theorem creating_fail {next : Call} (creating : Creating org process)
    (failed : process.fail = some next) :
    Creating org next := by
  cases creating with
  | refused error => cases failed
  | _ =>
      cases failed
      exact .refused _

theorem deleting_fail {next : Call} (deleting : Deleting key process)
    (failed : process.fail = some next) :
    Deleting key next := by
  cases deleting with
  | refused error => cases failed
  | _ =>
      cases failed
      exact .refused _

/-- A statement of `Create`: a read or a refusal, or the insert. -/
theorem creating_exec
    {result : Organizations × Call ×
      Option (Effect OrganizationSpec OrganizationStatus)}
    (creating : Creating org process)
    (done : process.exec kind now table = some result) :
    (result.1 = table ∧ Creating (hooked now org process) result.2.1) ∨
      (insertRow now table org = some result.1 ∧
        hooked now org process = org.prepareInsert now ∧
        result.2.1 = .returned none) := by
  cases creating with
  | checking tenant name parent =>
      simp only [Process.exec] at done
      split at done
      · cases done
        exact Or.inl ⟨rfl, creating_walkTo tenant [name] parent⟩
      · cases done
        exact Or.inl ⟨rfl, .refused _⟩
  | walking tenant visited current =>
      simp only [Process.exec] at done
      split at done
      · cases done
        exact Or.inl ⟨rfl, .inserting⟩
      · cases done
        exact Or.inl ⟨rfl, creating_walkTo tenant visited _⟩
  | inserting =>
      simp only [Process.exec] at done
      split at done
      · cases done
        exact Or.inl ⟨rfl, .refused _⟩
      · next inserted =>
          cases done
          exact Or.inr ⟨inserted, rfl, rfl⟩
  | refused error => cases done

/-- A statement of `Delete`: one that keeps every record, or the soft delete. -/
theorem deleting_exec
    {result : Organizations × Call ×
      Option (Effect OrganizationSpec OrganizationStatus)}
    (deleting : Deleting key process)
    (done : process.exec kind now table = some result) :
    ((∀ wanted, recordAt result.1 wanted = recordAt table wanted) ∧
        Deleting key result.2.1) ∨
      (softDelete now table key = some result.1 ∧
        result.2.1 = .returned none) := by
  cases deleting with
  | reading =>
      simp only [Process.exec] at done
      split at done
      · cases done
        exact Or.inl ⟨fun _ => rfl, .refused _⟩
      · cases done
        exact Or.inl ⟨fun _ => rfl, .counting _⟩
  | counting existing =>
      simp only [Process.exec] at done
      split at done
      · cases done
        exact Or.inl ⟨fun _ => rfl, .refused _⟩
      · split at done
        · cases done
          exact Or.inl ⟨fun _ => rfl, .marking⟩
        · cases done
          exact Or.inl ⟨fun _ => rfl, .burying⟩
  | marking =>
      simp only [Process.exec, Process.finishWrite, Option.some.injEq] at done
      subst done
      split
      · exact Or.inl ⟨fun _ => rfl, .refused _⟩
      · next marked =>
          refine Or.inl ⟨recordAt_updateLive ?_ marked, .refused _⟩
          intro row
          rfl
  | burying =>
      simp only [Process.exec, Process.finishWrite, Option.some.injEq] at done
      subst done
      split
      · exact Or.inl ⟨fun _ => rfl, .refused _⟩
      · next buried => exact Or.inr ⟨buried, rfl⟩
  | refused error => cases done

end Calls

/-! ## The service as a record with a mirror -/

/-- The reaction for a name that a goroutine has yet to run. -/
def Activity.reaction (name : String) : Activity → Option Mirror.Reaction
  | .provisioning org => if org.resource.name = name then some .add else none
  | .deprovisioning other => if other = name then some .remove else none
  | _ => none

/-- A goroutine that runs a reaction to a name. -/
def Activity.reacting (name : String) : Activity → Bool
  | .provisioning org => org.resource.name = name
  | .updatingStatus org _ => org.resource.name = name
  | .deprovisioning other => other = name
  | _ => false

/-- A goroutine whose request goes through the store as the handler set it up. -/
def Activity.Sane : Activity → Prop
  | .creating process org =>
      org.key = keyOf org.resource.name ∧ Creating org process
  | .deleting process name => Deleting (keyOf name) process
  | _ => True

/-- Nothing is pending for any name. -/
def Activity.Silent (activity : Activity) : Prop :=
  ∀ name, activity.reaction name = none

theorem createOrganization_unsettled {org : Organization} {process : Call}
    (owned : org.key = keyOf org.resource.name)
    (creating : Creating org process) :
    (createOrganization org process).1.Silent ∧
      (createOrganization org process).1.Sane := by
  cases creating with
  | checking tenant name parent =>
      exact ⟨fun _ => rfl, owned, .checking tenant name parent⟩
  | walking tenant visited current =>
      exact ⟨fun _ => rfl, owned, .walking tenant visited current⟩
  | inserting => exact ⟨fun _ => rfl, owned, .inserting⟩
  | refused error => exact ⟨fun _ => rfl, trivial⟩

theorem deleteOrganization_unsettled {name : String} {process : Call}
    (deleting : Deleting (keyOf name) process) :
    (deleteOrganization name process).1.Silent ∧
      (deleteOrganization name process).1.Sane := by
  cases deleting with
  | reading => exact ⟨fun _ => rfl, .reading⟩
  | counting existing => exact ⟨fun _ => rfl, .counting existing⟩
  | marking => exact ⟨fun _ => rfl, .marking⟩
  | burying => exact ⟨fun _ => rfl, .burying⟩
  | refused error => exact ⟨fun _ => rfl, trivial⟩

namespace Service

variable {ι : Type}

/-- The organization of a name, its image and the reactions still to run. -/
def view (service : Service ι) (name : String) : Mirror.View ι where
  record := recordAt service.table (keyOf name)
  mirrored := (service.identities name).isSome
  pending := fun client => (service.activities client).reaction name

/-- No reaction to a name is running or still to run. -/
def Settled (service : Service ι) (name : String) : Prop :=
  ∀ client, (service.activities client).reacting name = false

/-- The identity provider has the organizations that a live row names. -/
def Agrees (service : Service ι) (name : String) : Prop :=
  (service.identities name).isSome = true ↔
    liveExists service.table (keyOf name) = true

theorem agrees_view_iff (service : Service ι) (name : String) :
    (service.view name).Agrees ↔ service.Agrees name := by
  rw [Agrees, ← recordAt_eq_live_iff]
  rfl

theorem quiet_of_settled {service : Service ι} {name : String}
    (settled : service.Settled name) : (service.view name).Quiet := by
  intro client
  have done := settled client
  show (service.activities client).reaction name = none
  cases activity : service.activities client with
  | provisioning org =>
      rw [activity] at done
      exact if_neg (of_decide_eq_false done)
  | deprovisioning other =>
      rw [activity] at done
      exact if_neg (of_decide_eq_false done)
  | _ => rfl

/-! ## What a step can do -/

variable [DecidableEq ι]

/-- A step of a service whose calls of the identity provider succeed. -/
inductive Moves (before : Service ι) : Service ι → Prop where
  | silent (client : ι) {table : Organizations}
      {outcome : Activity × Option Response}
      (kept : ∀ key, recordAt table key = recordAt before.table key)
      (was : (before.activities client).Silent)
      (silent : outcome.1.Silent)
      (sane : outcome.1.Sane) :
      Moves before ({ before with table := table }.become client outcome)
  | created (client : ι) {table : Organizations} {org : Organization}
      {response : Option Response}
      (owned : org.key = keyOf org.resource.name)
      (fresh : before.table.find org.key = none)
      (replaces : Replaces before.table table org.key org)
      (was : (before.activities client).Silent) :
      Moves before
        ({ before with table := table }.become client
          (.provisioning org, response))
  | deleted (client : ι) {table : Organizations} {name : String}
      {row gone : Organization} {response : Option Response}
      (found : before.table.find (keyOf name) = some row)
      (live : row.live = true)
      (replaces : Replaces before.table table (keyOf name) gone)
      (dead : gone.live = false)
      (was : (before.activities client).Silent) :
      Moves before
        ({ before with table := table }.become client
          (.deprovisioning name, response))
  | provisioned (client : ι) {org : Organization}
      (status : OrganizationStatus)
      (was : before.activities client = .provisioning org) :
      Moves before
        ({ before with
            identities :=
              Function.update before.identities org.resource.name
                (some (displayName org)) }.become client
          (.updatingStatus org status, none))
  | deprovisioned (client : ι) {name : String}
      (was : before.activities client = .deprovisioning name) :
      Moves before
        ({ before with
            identities := Function.update before.identities name none }.become
          client (.idle, none))

variable {outcome : Activity × Option Response} {before after : Service ι}
variable {client : ι}

theorem moves_of_exec {kind : Kind OrganizationSpec OrganizationStatus} {now : Time}
    {before : Service ι} {result : Organizations × Activity × Option Response}
    (sane : (before.activities client).Sane)
    (done : (before.activities client).exec kind now before.table = some result) :
    Moves before ({ before with table := result.1 }.become client result.2) := by
  cases activity : before.activities client with
  | creating process org =>
      rw [activity] at sane done
      rcases Option.map_eq_some_iff.mp done with ⟨executed, statement, rfl⟩
      have was : (before.activities client).Silent := by
        rw [activity]
        exact fun _ => rfl
      rcases creating_exec sane.2 statement with
        ⟨same, creating⟩ | ⟨inserted, filled, returned⟩
      · -- Only the insert changes the organization behind the pointer.
        have owned : (hooked now org process).key =
            keyOf (hooked now org process).resource.name := by
          cases sane.2 with
          | _ => exact sane.1
        have unsettled := createOrganization_unsettled owned creating
        exact .silent client (fun _ => by rw [same]) was unsettled.1 unsettled.2
      · dsimp only
        rw [returned, filled]
        have fresh := ((KeyedTable.insert?_eq_some_iff _ _ _).mp inserted).1
        exact .created client sane.1 fresh (replaces_of_insertRow inserted) was
  | deleting process name =>
      rw [activity] at sane done
      rcases Option.map_eq_some_iff.mp done with ⟨executed, statement, rfl⟩
      have was : (before.activities client).Silent := by
        rw [activity]
        exact fun _ => rfl
      rcases deleting_exec sane statement with
        ⟨kept, deleting⟩ | ⟨buried, returned⟩
      · have unsettled := deleteOrganization_unsettled deleting
        exact .silent client kept was unsettled.1 unsettled.2
      · rcases updateLive_spec buried with ⟨row, found, live, _, replaces⟩
        dsimp only
        rw [returned]
        exact .deleted client found live replaces rfl was
  | updatingStatus org status =>
      rw [activity] at done
      cases done
      refine .silent client (recordAt_updateStatus org status) ?_
        (fun _ => rfl) trivial
      rw [activity]
      exact fun _ => rfl
  | _ =>
      rw [activity] at done
      cases done

theorem silent_of_fail {activity : Activity} (sane : activity.Sane)
    (failed : activity.fail = some outcome) :
    activity.Silent ∧ outcome.1.Silent ∧ outcome.1.Sane := by
  cases activity with
  | creating process org =>
      rcases Option.map_eq_some_iff.mp failed with ⟨next, lost, rfl⟩
      exact ⟨fun _ => rfl,
        createOrganization_unsettled sane.1 (creating_fail sane.2 lost)⟩
  | deleting process name =>
      rcases Option.map_eq_some_iff.mp failed with ⟨next, lost, rfl⟩
      exact ⟨fun _ => rfl,
        deleteOrganization_unsettled (deleting_fail sane lost)⟩
  | updatingStatus org status =>
      cases failed
      exact ⟨fun _ => rfl, fun _ => rfl, trivial⟩
  | _ => cases failed

theorem moves_of_step {kind : Kind OrganizationSpec OrganizationStatus}
    {label : Label ι} (sane : ∀ client, (before.activities client).Sane)
    (succeeds : label.succeeds = true)
    (stepped : before.step kind label = some after) :
    Moves before after := by
  cases label with
  | create client body =>
      simp only [step] at stepped
      split at stepped
      · next idle =>
          have was : (before.activities client).Silent := by
            rw [idle]
            exact fun _ => rfl
          split at stepped
          · cases stepped
            exact .silent client (fun _ => rfl) was (fun _ => rfl) trivial
          · next decoded _ =>
              cases stepped
              have unsettled := createOrganization_unsettled rfl
                (creating_start kind (pendingOrganization decoded))
              exact .silent client (fun _ => rfl) was unsettled.1 unsettled.2
      · cases stepped
  | delete client name =>
      simp only [step] at stepped
      split at stepped
      · next idle =>
          cases stepped
          refine .silent client (fun _ => rfl) ?_ (fun _ => rfl) .reading
          rw [idle]
          exact fun _ => rfl
      · cases stepped
  | execute client now =>
      rcases Option.map_eq_some_iff.mp stepped with ⟨result, done, rfl⟩
      exact moves_of_exec (sane client) done
  | fail client =>
      rcases Option.map_eq_some_iff.mp stepped with ⟨outcome, failed, rfl⟩
      rcases silent_of_fail (sane client) failed with ⟨was, silent, saneNext⟩
      exact .silent client (fun _ => rfl) was silent saneNext
  | provision client outcome =>
      cases outcome with
      | error reason => cases succeeds
      | ok externalID =>
          simp only [step] at stepped
          split at stepped
          · next org fired =>
              cases stepped
              exact .provisioned client _ fired
          · cases stepped
  | deprovision client outcome =>
      cases outcome with
      | error reason => cases succeeds
      | ok _ =>
          simp only [step] at stepped
          split at stepped
          · next name fired =>
              cases stepped
              exact .deprovisioned client fired
          · cases stepped

theorem Moves.sane (moves : Moves before after)
    (sane : ∀ client, (before.activities client).Sane) :
    ∀ client, (after.activities client).Sane := by
  have kept : ∀ (client : ι) (activity : Activity), activity.Sane →
      ∀ other, (Function.update before.activities client activity other).Sane := by
    intro client activity saneNext other
    by_cases same : other = client
    · subst same
      rwa [Function.update_self]
    · rw [Function.update_of_ne same]
      exact sane other
  cases moves with
  | silent client _ _ _ saneNext => exact kept client _ saneNext
  | created client => exact kept client _ trivial
  | deleted client => exact kept client _ trivial
  | provisioned client status => exact kept client _ trivial
  | deprovisioned client => exact kept client _ trivial

/-! ## One step seen from a name -/

@[simp]
theorem view_become (service : Service ι) (client : ι)
    (outcome : Activity × Option Response) (name : String) :
    (service.become client outcome).view name =
      { service.view name with
        pending :=
          Function.update (service.view name).pending client
            (outcome.1.reaction name) } := by
  have pending :
      (fun other =>
        (Function.update service.activities client outcome.1 other).reaction
          name) =
        Function.update
          (fun other => (service.activities other).reaction name) client
          (outcome.1.reaction name) :=
    Function.comp_update (Activity.reaction name) service.activities client
      outcome.1
  simp only [view, become, pending]

/-- A step that does nothing to a name. -/
theorem turn_rest {before middle : Service ι} {name : String}
    (activities : middle.activities = before.activities)
    (record :
      recordAt middle.table (keyOf name) = recordAt before.table (keyOf name))
    (image : middle.identities name = before.identities name)
    (reaction :
      outcome.1.reaction name = (before.activities client).reaction name) :
    Mirror.Turn (before.view name) ((middle.become client outcome).view name) := by
  have unchanged : (middle.become client outcome).view name =
      before.view name := by
    rw [view_become, reaction]
    simp only [view, activities, record, image]
    exact congrArg (Mirror.View.mk _ _) (Function.update_eq_self client _)
  rw [unchanged]
  exact .rest

theorem keyOf_ne {name other : String} (different : other ≠ name) :
    keyOf name ≠ keyOf other := by
  intro same
  exact different (congrArg Key.name same).symm

/-- A row stored under another name, for which the reaction is still to run. -/
theorem turn_of_stored_elsewhere {before : Service ι} {table : Organizations}
    {target name : String} {row : Organization} (different : target ≠ name)
    (replaces : Replaces before.table table (keyOf target) row)
    (was : (before.activities client).Silent)
    (reaction : outcome.1.reaction name = none) :
    Mirror.Turn (before.view name)
      (({ before with table := table }.become client outcome).view name) := by
  have stored := recordAt_of_replaces replaces (keyOf name)
  rw [if_neg (keyOf_ne different)] at stored
  exact turn_rest rfl stored rfl (reaction.trans (was name).symm)

/-- A call to the identity provider about another name. -/
theorem turn_of_call_elsewhere {before : Service ι} {target name : String}
    (identity : Option String) (different : target ≠ name)
    (was : (before.activities client).reaction name = none)
    (reaction : outcome.1.reaction name = none) :
    Mirror.Turn (before.view name)
      (({ before with
          identities := Function.update before.identities target identity }.become
        client outcome).view name) :=
  turn_rest rfl rfl (Function.update_of_ne (Ne.symm different) _ _)
    (reaction.trans was.symm)

theorem Moves.turn (moves : Moves before after) (name : String) :
    Mirror.Turn (before.view name) (after.view name) := by
  cases moves with
  | silent client kept was silent sane =>
      exact turn_rest rfl (kept (keyOf name)) rfl
        ((silent name).trans (was name).symm)
  | @created client table org response owned fresh replaces was =>
      rw [owned] at fresh replaces
      by_cases named : org.resource.name = name
      · subst named
        have stored := recordAt_of_replaces replaces (keyOf org.resource.name)
        have absent : (before.view org.resource.name).record = .absent := by
          simp only [view, recordAt, fresh]
        have turn := Mirror.Turn.create client absent (recordOf_ne_absent org)
          (was org.resource.name)
        rw [if_pos rfl] at stored
        rw [view_become]
        simp only [Activity.reaction, if_true]
        rw [← stored] at turn
        exact turn
      · exact turn_of_stored_elsewhere named replaces was (if_neg named)
  | @deleted client table target row gone response found live replaces dead was =>
      by_cases named : target = name
      · subst named
        have stored := recordAt_of_replaces replaces (keyOf target)
        have present : (before.view target).record = .live := by
          simp only [view, recordAt, found, recordOf, live, if_true]
        have turn := Mirror.Turn.delete client present (was target)
        rw [if_pos rfl, recordOf, dead] at stored
        rw [view_become]
        simp only [Activity.reaction, if_true, view, stored]
        exact turn
      · exact turn_of_stored_elsewhere named replaces was (if_neg named)
  | @provisioned client org status was =>
      by_cases named : org.resource.name = name
      · subst named
        have fired : (before.view org.resource.name).pending client =
            some .add := by
          simp only [view, was, Activity.reaction, if_true]
        have turn := Mirror.Turn.add client fired
        rw [view_become]
        simp only [view, Function.update_self]
        exact turn
      · refine turn_of_call_elsewhere _ named ?_ rfl
        rw [was]
        exact if_neg named
  | @deprovisioned client target was =>
      by_cases named : target = name
      · subst named
        have fired : (before.view target).pending client = some .remove := by
          simp only [view, was, Activity.reaction, if_true]
        have turn := Mirror.Turn.remove client fired
        rw [view_become]
        simp only [view, Function.update_self]
        exact turn
      · refine turn_of_call_elsewhere _ named ?_ rfl
        rw [was]
        exact if_neg named

/--
For a name, a step deprovisions only when no provisioning is still to run, and
fires a provisioning only for a live row.
-/
def InOrder (name : String) (before : Service ι) (_ : Label ι)
    (after : Service ι) : Prop :=
  Mirror.Orderly (before.view name) (after.view name)

/--
Whatever organizations are created and deleted, and in whatever order the
statements of the requests and the calls of their reactions run: once the
reactions to a name have finished, the identity provider agrees with the table
about it exactly when they ran in order and no row was created deleted.
-/
theorem identity_provider_agrees_iff
    (kind : Kind OrganizationSpec OrganizationStatus)
    (start finish : Service ι) (labels : List (Label ι)) (name : String)
    (idle : ∀ client, start.activities client = .idle)
    (agreed : start.Agrees name)
    (succeed : ∀ label ∈ labels, label.succeeds = true)
    (reached : run (step kind) start labels = some finish)
    (settled : finish.Settled name) :
    finish.Agrees name ↔
      AllSteps (step kind) (InOrder name) start labels := by
  have saneStart : ∀ client, (start.activities client).Sane := by
    intro client
    rw [idle client]
    trivial
  have turns : AllSteps (step kind)
      (fun before _ after => Mirror.Turn (before.view name) (after.view name))
      start labels := by
    refine AllSteps.mono
      (fun service => ∀ client, (service.activities client).Sane) ?_ ?_
      saneStart (allSteps_of_forall_mem succeed start)
    · intro before label after sane stepped succeeds
      exact (moves_of_step sane succeeds stepped).sane sane
    · intro before label after sane stepped succeeds
      exact (moves_of_step sane succeeds stepped).turn name
  have quietStart : (start.view name).Quiet := by
    intro client
    show (start.activities client).reaction name = none
    rw [idle client]
    rfl
  rw [← agrees_view_iff]
  exact Mirror.agrees_iff_orderly (fun service => service.view name) turns
    quietStart ((agrees_view_iff start name).mpr agreed) reached
    (quiet_of_settled settled)

/-- No organization, nothing in the identity provider, and two clients. -/
def unused : Service Bool :=
  ⟨KeyedTable.empty, fun _ => none, fun _ => .idle, []⟩

/-- A request that creates the organization `acme`, up to its response. -/
def createAcme : List (Label Bool) :=
  [.create false (.members [.name "acme"]), .execute false 1]

/-- A request that deletes it, up to its response. -/
def deleteAcme : List (Label Bool) :=
  [.delete true "acme", .execute true 2, .execute true 3, .execute true 4]

/-- The reaction to the first request runs before the second request. -/
def deletedAfterProvisioning : List (Label Bool) :=
  createAcme ++ [.provision false (.ok "realm"), .execute false 5] ++
    deleteAcme ++ [.deprovision true (.ok ())]

theorem deleted_after_provisioning_agrees :
    ∃ finish,
      run (step ⟨none⟩) unused deletedAfterProvisioning = some finish ∧
        finish.Agrees "acme" ∧
        AllSteps (step ⟨none⟩) (InOrder "acme") unused
          deletedAfterProvisioning := by
  refine ⟨_, rfl, iff_of_false (by decide) (by decide), ?_⟩
  refine (identity_provider_agrees_iff ⟨none⟩ unused _ deletedAfterProvisioning
    "acme" (fun _ => rfl) (iff_of_false (by decide) (by decide)) (by decide) rfl
    ?_).mp (iff_of_false (by decide) (by decide))
  intro client
  cases client <;> rfl

/-- The reaction to the first request runs after the reaction to the second. -/
def deletedBeforeProvisioning : List (Label Bool) :=
  createAcme ++ deleteAcme ++
    [.deprovision true (.ok ()), .provision false (.ok "realm"),
      .execute false 5]

/--
A slow provisioning is overtaken by the deletion of its organization: all
calls succeed and all reactions finish, and the identity provider keeps an
organization that has no live row.
-/
theorem overtaken_provisioning_leaks :
    unused.Agrees "acme" ∧
      (∀ label ∈ deletedBeforeProvisioning, label.succeeds = true) ∧
      ∃ finish,
        run (step ⟨none⟩) unused deletedBeforeProvisioning = some finish ∧
          (∀ client, finish.activities client = .idle) ∧
          finish.identities "acme" = some "acme" ∧
          liveExists finish.table (keyOf "acme") = false ∧
          ¬ finish.Agrees "acme" := by
  refine ⟨iff_of_false (by decide) (by decide), by decide, _, rfl, ?_, rfl, rfl, ?_⟩
  · intro client
    cases client <;> rfl
  · intro agrees
    exact absurd (agrees.mp rfl) (by decide)

end Service

end Infractl.Platform
