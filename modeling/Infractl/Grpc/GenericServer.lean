import Infractl.Api.Isolation
import Infractl.Auth.Middleware
import Infractl.Proto.Adapter
import Infractl.Store.ListIsolation
import Infractl.Store.References

/-!
# The generic gRPC handler

`GenericServiceHandler` offers the store of one kind of resource over gRPC.
The tenant of a call is in its context, put there by an interceptor.  `Get`,
`List` and `Delete` take it from there.  The three methods that write resources
treat it differently.  `Create` fills it in where the message
has none, through a type assertion that holds of no resource that embeds the
base record, and otherwise keeps what the message says.  `Update` does not look
at it, and `PartialUpdate` takes the tenant from its caller.

A reply may be a panic: a nil resource is dereferenced, the assertion fails, or
a nil map is assigned to.
-/

namespace Infractl.Grpc

open Infractl.Api
open Infractl.Auth
open Infractl.Lib
open Infractl.Proto
open Infractl.Store

variable {Spec Status Message : Type}

/-! ## The handler -/

/--
The parts of a handler.  A kind may have a method `SetCreator`.  An adapter may
fail, and may answer with a nil resource.
-/
structure GenericServiceHandler (Spec Status Message : Type) where
  kind : Kind Spec Status
  setCreator : Option (String → Object Spec Status → Object Spec Status) := none
  fromProto : Message → Except String (Option (Object Spec Status))
  toProto : Object Spec Status → Message
  attribution : Option (Context → Except String String) := none

/-- The errors of the service. -/
inductive ServiceError where
  | adapter (reason : String)
  | context (reason : String)
  | notFound
  | alreadyExists
  | conflict
  | store (error : StoreError)
  | listing (error : ListError)
deriving DecidableEq

/-- `mapStoreError`. -/
def mapStoreError : StoreError → ServiceError
  | .notFound => .notFound
  | .alreadyExists => .alreadyExists
  | .conflict => .conflict
  | error => .store error

/-- How a call ends. -/
inductive Replied (Message : Type) where
  | message (content : Message)
  | failed (error : ServiceError)
  | panicked

/-- `SubjectAttributionLogic`. -/
def subjectAttribution (context : Context) : Except String String :=
  (subjectFromContext context).map Subject.user

namespace GenericServiceHandler

/-- The creator the attribution logic comes to, if there is one. -/
def identity (handler : GenericServiceHandler Spec Status Message)
    (context : Context) : Option String :=
  handler.attribution.bind (fun determine => (determine context).toOption)

/-- The resource as `Create` hands it to the store. -/
def attributed (handler : GenericServiceHandler Spec Status Message)
    (context : Context) (object : Object Spec Status) : Object Spec Status :=
  match handler.identity context, handler.setCreator with
  | some creator, some set => set creator object
  | _, _ => object

/-- How `Create` and `Update` end, from the outcome of the store. -/
def storeReply (handler : GenericServiceHandler Spec Status Message)
    (outcome : Outcome Spec Status) : Table Spec Status × Replied Message :=
  (outcome.table,
    match outcome.error with
    | some error => .failed (mapStoreError error)
    | none => .message (handler.toProto outcome.object))

/-- `Create`. -/
def create (handler : GenericServiceHandler Spec Status Message)
    (now : Time) (table : Table Spec Status) (context : Context)
    (message : Message) : Table Spec Status × Replied Message :=
  match handler.fromProto message with
  | .error reason => (table, .failed (.adapter reason))
  | .ok decoded =>
      match orgIDFromContext context.orgID with
      | .error reason => (table, .failed (.context reason))
      | .ok _ =>
          match decoded with
          | none => (table, .panicked)
          | some object =>
              if object.resource.orgID = 0 then
                (table, .panicked)
              else
                handler.storeReply
                  (GenericStore.create now table
                    (handler.attributed context object))

/-- `Update`. -/
def update (handler : GenericServiceHandler Spec Status Message)
    (now : Time) (table : Table Spec Status) (message : Message) :
    Table Spec Status × Replied Message :=
  match handler.fromProto message with
  | .error reason => (table, .failed (.adapter reason))
  | .ok none => (table, .panicked)
  | .ok (some object) =>
      handler.storeReply (GenericStore.update handler.kind now table object)

/-- `PartialUpdate`, whose map may be nil. -/
def partialUpdate (handler : GenericServiceHandler Spec Status Message)
    (now : Time) (table : Table Spec Status) (orgID : UUID) (name : String)
    (version : Int64) (fields : Option (FieldMap Spec Status)) :
    Table Spec Status × Replied Message :=
  match fields with
  | none => (table, .panicked)
  | some assigned =>
      let outcome :=
        GenericStore.partialUpdate now table ⟨orgID, name⟩ version assigned
      match outcome.2 with
      | some error => (outcome.1, .failed (mapStoreError error))
      | none =>
          match GenericStore.get outcome.1 orgID name with
          | .error error => (outcome.1, .failed (mapStoreError error))
          | .ok row => (outcome.1, .message (handler.toProto row))

/-- `Get`. -/
def get (handler : GenericServiceHandler Spec Status Message)
    (table : Table Spec Status) (context : Context) (name : String) :
    Replied Message :=
  match orgIDFromContext context.orgID with
  | .error reason => .failed (.context reason)
  | .ok orgID =>
      match GenericStore.get table orgID name with
      | .error error => .failed (mapStoreError error)
      | .ok row => .message (handler.toProto row)

/-- `List`, with the adapter's `ToProtoList`. -/
def list (toProtoList : Listed Spec Status → Message)
    (database : Database Spec Status) (table : Table Spec Status)
    (context : Context) (options : ListOptions) : Replied Message :=
  match orgIDFromContext context.orgID with
  | .error reason => .failed (.context reason)
  | .ok orgID =>
      match Store.list database table orgID options with
      | .error error => .failed (.listing error)
      | .ok listed => .message (toProtoList listed)

/-- `Delete`, for which pending finalizers are no error. -/
def delete (now : Time) (table : Table Spec Status) (context : Context)
    (name : String) : Table Spec Status × Option ServiceError :=
  match orgIDFromContext context.orgID with
  | .error reason => (table, some (.context reason))
  | .ok orgID =>
      let outcome := GenericStore.delete now table ⟨orgID, name⟩
      (outcome.1, match outcome.2 with
        | none | some .finalizersPending => none
        | some error => some (mapStoreError error))

/-! ## Isolation -/

variable {context : Context} {org : UUID}
variable (handler : GenericServiceHandler Spec Status Message) (now : Time)
variable (table : Table Spec Status)

/--
`Get`, and `List` in an order that stays with the tenant, answer from the rows
of the tenant in the context, and `Delete` changes the row of the name there.
-/
theorem scoped_by_context
    (toProtoList : Listed Spec Status → Message) (database : Database Spec Status)
    (resolved : context.orgID = some org) {left right : Table Spec Status}
    (agree : AgreeOn org left right) (now : Time) (name : String)
    {options : ListOptions} (own : OwnRowsOnly database org (orderBy options.sort)) :
    handler.get left context name = handler.get right context name ∧
      list toProtoList database left context options =
        list toProtoList database right context options ∧
      OnlyTouches ⟨org, name⟩ left (delete now left context name).1 := by
  simp only [get, list, delete, orgIDFromContext, resolved]
  refine ⟨?_, ?_, delete_onlyTouches now left ⟨org, name⟩⟩
  · rw [GenericStore.get, GenericStore.get, selectLive, selectLive, agree name]
  · rw [list_eq_of_ownRowsOnly own agree]

/-- The reply is no panic, and other tenants are left as they were. -/
structure Safe (org : UUID) (before : Table Spec Status)
    (result : Table Spec Status × Replied Message) : Prop where
  total : result.2 ≠ .panicked
  isolated : OnlyTouchesOrg org before result.1

/--
A creation that succeeds adds one row, which belongs to the tenant and to the
attributed creator.
-/
def StoresOwned (org : UUID) (identity : Option String)
    (before : Table Spec Status)
    (result : Table Spec Status × Replied Message) : Prop :=
  ∀ content, result.2 = .message content →
    ∃ row : Object Spec Status,
      before.find row.key = none ∧ Replaces before result.1 row.key row ∧
        row.resource.orgID = org ∧
        ∀ creator, identity = some creator → row.resource.creator = creator

/--
The messages `Create` handles well: the adapter refuses them, or reads a
resource with a tenant, which the store refuses or which, once attributed,
belongs to the tenant of the context and to the creator.
-/
def CreatesOwned (handler : GenericServiceHandler Spec Status Message)
    (table : Table Spec Status) (context : Context) (org : UUID)
    (message : Message) : Prop :=
  ∀ decoded, handler.fromProto message = .ok decoded →
    ∃ object, decoded = some object ∧ object.resource.orgID ≠ 0 ∧
      (GenericStore.validateParent table (handler.attributed context object) =
          none →
        table.find (handler.attributed context object).key = none →
        (handler.attributed context object).resource.orgID = org ∧
          ∀ creator, handler.identity context = some creator →
            (handler.attributed context object).resource.creator = creator)

/-- The messages `Update` handles well. -/
def UpdatesOwned (handler : GenericServiceHandler Spec Status Message)
    (table : Table Spec Status) (org : UUID) (message : Message) : Prop :=
  ∀ decoded, handler.fromProto message = .ok decoded →
    ∃ object, decoded = some object ∧
      (GenericStore.acceptsUpdate table object = true →
        object.resource.orgID = org)

/-- The arguments `PartialUpdate` handles well. -/
def AssignsOwned (table : Table Spec Status) (org orgID : UUID)
    (name : String) (version : Int64)
    (fields : Option (FieldMap Spec Status)) : Prop :=
  ∃ assigned, fields = some assigned ∧
    (acceptsFields table ⟨orgID, name⟩ version assigned = true →
      orgID = org ∧ assigned.orgID.getD orgID = org)

/-- What the store's `Create` does when it does not refuse. -/
theorem store_create_accepted {table : Table Spec Status}
    {object : Object Spec Status}
    (accepted : GenericStore.validateParent table object = none)
    (absent : table.find object.key = none) :
    (GenericStore.create now table object).error = none ∧
      Replaces table (GenericStore.create now table object).table object.key
        (object.prepareInsert now) := by
  rcases inserted : insertRow now table object with _ | result
  · rcases (KeyedTable.insert?_eq_none_iff _ _).mp inserted with ⟨row, found⟩
    rw [Object.key_prepareInsert, absent] at found
    cases found
  · simp only [GenericStore.create, accepted, inserted]
    exact ⟨trivial, replaces_of_insertRow inserted⟩

theorem store_create_error_eq_none_iff (object : Object Spec Status) :
    (GenericStore.create now table object).error = none ↔
      GenericStore.validateParent table object = none ∧
        table.find object.key = none := by
  constructor
  · intro succeeded
    unfold GenericStore.create at succeeded
    split at succeeded
    · cases succeeded
    · next accepted =>
        split at succeeded
        · cases succeeded
        · next inserted done =>
            exact ⟨accepted, ((KeyedTable.insert?_eq_some_iff _ _ _).mp done).1⟩
  · rintro ⟨accepted, absent⟩
    exact (store_create_accepted now accepted absent).1

/-- A reply that is no panic is safe when the table is isolated. -/
theorem safe_iff_of_total {table : Table Spec Status}
    {result : Table Spec Status × Replied Message} (total : result.2 ≠ .panicked) :
    Safe org table result ↔ OnlyTouchesOrg org table result.1 :=
  ⟨fun safe => safe.isolated, fun isolated => ⟨total, isolated⟩⟩

theorem safe_failed (org : UUID) (table : Table Spec Status)
    (error : ServiceError) :
    Safe org table
      ((table, .failed error) : Table Spec Status × Replied Message) := by
  refine ⟨?_, fun _ _ => rfl⟩
  intro impossible
  cases impossible

theorem not_safe_panicked (org : UUID) (table : Table Spec Status) :
    ¬ Safe org table
      ((table, .panicked) : Table Spec Status × Replied Message) :=
  fun safe => safe.total rfl

theorem storeReply_total (outcome : Outcome Spec Status) :
    (handler.storeReply outcome).2 ≠ .panicked := by
  unfold storeReply
  split
  · intro impossible
    cases impossible
  · intro impossible
    cases impossible

theorem storeReply_message_iff (outcome : Outcome Spec Status) :
    (∃ content, (handler.storeReply outcome).2 = .message content) ↔
      outcome.error = none := by
  unfold storeReply
  cases outcome.error with
  | none => simp
  | some error => simp

theorem create_some
    {message : Message} {object : Object Spec Status}
    (resolved : context.orgID = some org)
    (decoded : handler.fromProto message = .ok (some object))
    (named : object.resource.orgID ≠ 0) :
    handler.create now table context message =
      handler.storeReply
        (GenericStore.create now table (handler.attributed context object)) := by
  simp only [create, decoded, orgIDFromContext, resolved, if_neg named]

/-- A row that is added to a table is the row that was inserted. -/
theorem added_eq {before after : Table Spec Status} {key : Key}
    {inserted added : Object Spec Status}
    (replaces : Replaces before after key inserted)
    (absent : before.find added.key = none)
    (found : after.find added.key = some added) :
    added = inserted := by
  rw [replaces added.key] at found
  split at found
  · exact (Option.some.inj found).symm
  · cases absent.symm.trans found

theorem storeReply_safe_iff
    (org : UUID) (identity : Option String) (object : Object Spec Status) :
    (Safe org table
        (handler.storeReply (GenericStore.create now table object)) ∧
      StoresOwned org identity table
        (handler.storeReply (GenericStore.create now table object))) ↔
      (GenericStore.validateParent table object = none →
        table.find object.key = none →
        object.resource.orgID = org ∧
          ∀ creator, identity = some creator →
            object.resource.creator = creator) := by
  constructor
  · rintro ⟨safe, owned⟩ accepted absent
    have sameOrg := (store_create_onlyTouchesOrg_iff now table object org).mp
      safe.isolated accepted absent
    refine ⟨sameOrg, ?_⟩
    rcases store_create_accepted now accepted absent with ⟨succeeded, replaces⟩
    rcases (storeReply_message_iff handler _).mpr succeeded with
      ⟨content, replied⟩
    rcases owned content replied with ⟨row, rowAbsent, stored, _, creators⟩
    have rowEq := added_eq replaces rowAbsent stored.find_self
    subst rowEq
    exact creators
  · intro owned
    have isolated :=
      (store_create_onlyTouchesOrg_iff now table object org).mpr
        (fun accepted absent => (owned accepted absent).1)
    refine ⟨⟨storeReply_total handler _, isolated⟩, ?_⟩
    intro content replied
    have succeeded := (storeReply_message_iff handler _).mp ⟨content, replied⟩
    rcases (store_create_error_eq_none_iff now table object).mp succeeded with
      ⟨accepted, absent⟩
    rcases owned accepted absent with ⟨sameOrg, creators⟩
    exact ⟨object.prepareInsert now, absent,
      (store_create_accepted now accepted absent).2, sameOrg, creators⟩

theorem create_safe_iff (resolved : context.orgID = some org) (message : Message) :
    (Safe org table (handler.create now table context message) ∧
      StoresOwned org (handler.identity context) table
        (handler.create now table context message)) ↔
      handler.CreatesOwned table context org message := by
  unfold CreatesOwned
  rcases decoding : handler.fromProto message with reason | decoded
  · have reply : handler.create now table context message =
        (table, .failed (.adapter reason)) := by
      simp only [create, decoding]
    rw [reply]
    refine iff_of_true ⟨safe_failed org table _, ?_⟩ ?_
    · intro content impossible
      cases impossible
    · intro decoded impossible
      cases impossible
  · simp only [Except.ok.injEq, forall_eq']
    cases decoded with
    | none =>
        have reply : handler.create now table context message =
            (table, .panicked) := by
          simp only [create, decoding, orgIDFromContext, resolved]
        rw [reply]
        refine iff_of_false (fun safe => not_safe_panicked org table safe.1) ?_
        rintro ⟨object, impossible, _⟩
        cases impossible
    | some object =>
        simp only [Option.some.injEq, exists_eq_left']
        by_cases named : object.resource.orgID = 0
        · have reply : handler.create now table context message =
              (table, .panicked) := by
            simp only [create, decoding, orgIDFromContext, resolved, if_pos named]
          rw [reply]
          exact iff_of_false (fun safe => not_safe_panicked org table safe.1)
            (fun owned => owned.1 named)
        · rw [create_some handler now table resolved decoding named,
            storeReply_safe_iff]
          exact (and_iff_right named).symm

theorem update_safe_iff (org : UUID) (message : Message) :
    Safe org table (handler.update now table message) ↔
      handler.UpdatesOwned table org message := by
  unfold UpdatesOwned
  rcases decoding : handler.fromProto message with reason | decoded
  · have reply : handler.update now table message =
        (table, .failed (.adapter reason)) := by
      simp only [update, decoding]
    rw [reply]
    refine iff_of_true (safe_failed org table _) ?_
    intro decoded impossible
    cases impossible
  · simp only [Except.ok.injEq, forall_eq']
    cases decoded with
    | none =>
        have reply : handler.update now table message = (table, .panicked) := by
          simp only [update, decoding]
        rw [reply]
        refine iff_of_false (not_safe_panicked org table) ?_
        rintro ⟨object, impossible, _⟩
        cases impossible
    | some object =>
        have reply : handler.update now table message =
            handler.storeReply
              (GenericStore.update handler.kind now table object) := by
          simp only [update, decoding]
        simp only [Option.some.injEq, exists_eq_left']
        rw [reply]
        exact (safe_iff_of_total (storeReply_total handler _)).trans
          (update_onlyTouchesOrg_iff handler.kind now table object org)

/-- A partial update leaves other tenants alone when it stays with one. -/
theorem partialUpdate_onlyTouchesOrg_iff
    (key : Key) (version : Int64) (fields : FieldMap Spec Status) (org : UUID) :
    OnlyTouchesOrg org table
        (GenericStore.partialUpdate now table key version fields).1 ↔
      (acceptsFields table key version fields = true →
        key.org = org ∧ (fields.renamed key).org = org) := by
  cases accepted : acceptsFields table key version fields with
  | false =>
      rw [GenericStore.partialUpdate_refused now accepted]
      exact iff_of_true (fun _ _ => rfl) (fun impossible => by cases impossible)
  | true =>
      simp only [true_implies]
      rcases GenericStore.partialUpdate_accepted now accepted with
        ⟨done, row, found, live, versionEq, free⟩
      have rewrites := updateFields_rewrites done found live versionEq
      have newKey :
          (fields.assign now (version + 1) row).key = fields.renamed key := by
        rw [FieldMap.key_assign, KeyedTable.key_of_find found]
      constructor
      · intro untouched
        have sameOrg : key.org = org := by
          by_contra different
          have unchanged := untouched key different
          rw [rewrites key, found] at unchanged
          split at unchanged
          · have bumped : version + 1 = row.resource.resourceVersion :=
              congrArg (fun stored => stored.resource.resourceVersion)
                (Option.some.inj unchanged)
            exact version_ne_succ version (versionEq.symm.trans bumped.symm)
          · rw [if_pos rfl] at unchanged
            cases unchanged
        refine ⟨sameOrg, ?_⟩
        by_contra different
        have moved : fields.renamed key ≠ key := by
          intro same
          rw [same] at different
          exact different sameOrg
        have unchanged := untouched (fields.renamed key) different
        rw [rewrites (fields.renamed key), newKey, if_pos rfl,
          free.resolve_left moved] at unchanged
        cases unchanged
      · rintro ⟨sameOrg, sameNewOrg⟩ other different
        rw [rewrites other, newKey, if_neg, if_neg]
        · rintro rfl
          exact different sameOrg
        · rintro rfl
          exact different sameNewOrg

theorem partialUpdate_safe_iff
    (org orgID : UUID) (name : String) (version : Int64)
    (fields : Option (FieldMap Spec Status)) :
    Safe org table (handler.partialUpdate now table orgID name version fields) ↔
      AssignsOwned table org orgID name version fields := by
  unfold AssignsOwned
  cases fields with
  | none =>
      refine iff_of_false (not_safe_panicked org table) ?_
      rintro ⟨assigned, impossible, _⟩
      cases impossible
  | some assigned =>
      have tableEq :
          (handler.partialUpdate now table orgID name version
            (some assigned)).1 =
            (GenericStore.partialUpdate now table ⟨orgID, name⟩ version
              assigned).1 := by
        simp only [partialUpdate]
        split
        · rfl
        · split
          · rfl
          · rfl
      have total :
          (handler.partialUpdate now table orgID name version
            (some assigned)).2 ≠ .panicked := by
        simp only [partialUpdate]
        split
        · intro impossible
          cases impossible
        · split
          · intro impossible
            cases impossible
          · intro impossible
            cases impossible
      simp only [Option.some.injEq, exists_eq_left']
      rw [safe_iff_of_total total, tableEq]
      exact partialUpdate_onlyTouchesOrg_iff now table ⟨orgID, name⟩ version
        assigned org

end GenericServiceHandler

/--
With the tenant of a call in its context, each writing method is total and
isolated, and `Create` stores what it should, exactly on the inputs described
by `CreatesOwned`, `UpdatesOwned` and `AssignsOwned`.
-/
theorem handler_isolated_iff
    (handler : GenericServiceHandler Spec Status Message)
    (now : Time) (table : Table Spec Status) (subject : Option Subject)
    (org : UUID) :
    (∀ message,
      (GenericServiceHandler.Safe org table
          (handler.create now table ⟨subject, some org⟩ message) ∧
        GenericServiceHandler.StoresOwned org
          (handler.identity ⟨subject, some org⟩) table
          (handler.create now table ⟨subject, some org⟩ message)) ↔
        handler.CreatesOwned table ⟨subject, some org⟩ org message) ∧
    (∀ message,
      GenericServiceHandler.Safe org table (handler.update now table message) ↔
        handler.UpdatesOwned table org message) ∧
    ∀ orgID name version fields,
      GenericServiceHandler.Safe org table
          (handler.partialUpdate now table orgID name version fields) ↔
        GenericServiceHandler.AssignsOwned table org orgID name version
          fields := by
  refine ⟨?_, ?_, ?_⟩
  · intro message
    exact handler.create_safe_iff now table rfl message
  · intro message
    exact handler.update_safe_iff now table org message
  · intro orgID name version fields
    exact handler.partialUpdate_safe_iff now table org orgID name version fields

/-- A kind without a method of its own, carried by its metadata. -/
def metadataHandler : GenericServiceHandler Unit Unit Metadata where
  kind := ⟨none⟩
  fromProto metadata :=
    .ok (some ⟨metadataFromProto canonicalText metadata, (), ()⟩)
  toProto object := metadataToProto canonicalText object.resource
  attribution := some subjectAttribution

/-- A caller of tenant 1. -/
def callerContext : Context where
  subject := some ⟨"caller", newTenantSet [canonicalFormat 1]⟩
  orgID := some 1

/--
For a caller of tenant 1, a message without a tenant panics, a message that
names tenant 2 stores a row there, without the creator, and updates that row.
-/
theorem message_tenant_decides :
    (metadataHandler.create 5 KeyedTable.empty callerContext
        { name := "a" }).2 = .panicked ∧
      ∃ created updated : Table Unit Unit,
        (metadataHandler.create 5 KeyedTable.empty callerContext
            { orgID := "00000000-0000-0000-0000-000000000002", name := "a" }).1 =
          created ∧
        (created.find ⟨2, "a"⟩).map (fun row => row.resource.creator) =
          some "" ∧
        metadataHandler.identity callerContext = some "caller" ∧
        (metadataHandler.update 6 created
            { orgID := "00000000-0000-0000-0000-000000000002", name := "a",
              resourceVersion := 1, creator := "other" }).1 = updated ∧
        (updated.find ⟨2, "a"⟩).map (fun row => row.resource.creator) =
          some "other" :=
  ⟨rfl, _, _, rfl, rfl, rfl, rfl, rfl⟩

end Infractl.Grpc
