import Infractl.Events.Notification

/-!
# Publishing when a statement fails

`Publish` runs two statements, each on its own: the insert of the row and the
call of `pg_notify`.  A statement may be refused, or it may be carried out
while its answer is lost, and `pg_notify` refuses a text of 8000 bytes or more.
There is no transaction about the two, so that a row whose notification fails
stays, and with it every later attempt to publish the event is refused.
-/

namespace Infractl.Events

open Infractl.Auth (UUIDText)
open Infractl.Lib
open Infractl.Store (Time)

/-! ## The statements -/

/-- What may go wrong with a statement. -/
inductive Fault where
  /-- The statement is not carried out. -/
  | refused (reason : String)
  /-- The statement is carried out, and the answer is lost. -/
  | unanswered (reason : String)
deriving DecidableEq

/-- What goes wrong in a call of `Publish`. -/
structure PublishFaults where
  insert : Option Fault := none
  marshal : Option String := none
  notify : Option Fault := none
deriving DecidableEq

/-- The errors of `Publish`. -/
inductive PublishError where
  | failed (reason : String)
  | duplicateKey
  | payloadTooLong
deriving DecidableEq

/-- The number of bytes of a text in UTF-8. -/
def byteLength : List Char → Nat
  | [] => 0
  | character :: text => character.utf8Size + byteLength text

/-- A text that `pg_notify` takes. -/
def Notifiable (sent : List Char) : Prop :=
  byteLength sent < 8000

instance (sent : List Char) : Decidable (Notifiable sent) :=
  inferInstanceAs (Decidable (byteLength sent < 8000))

/-- Insert a row. -/
def createRecord (fault : Option Fault) (table : EventTable)
    (record : EventRecord) : EventTable × Option PublishError :=
  match fault with
  | some (.refused reason) => (table, some (.failed reason))
  | some (.unanswered reason) =>
      ((table.insert? record).getD table, some (.failed reason))
  | none =>
      match table.insert? record with
      | none => (table, some .duplicateKey)
      | some inserted => (inserted, none)

/-- A row that is inserted, whether or not the answer is received. -/
theorem createRecord_of_insert? {fault : Option Fault} {table inserted : EventTable}
    {record : EventRecord} (carriedOut : ∀ reason, fault ≠ some (.refused reason))
    (insertion : table.insert? record = some inserted) :
    (createRecord fault table record).1 = inserted := by
  cases fault with
  | none => simp only [createRecord, insertion]
  | some fault =>
      cases fault with
      | refused reason => exact absurd rfl (carriedOut reason)
      | unanswered reason => simp only [createRecord, insertion, Option.getD_some]

/-- A row whose key is taken is not inserted. -/
theorem createRecord_of_taken {table : EventTable} {record : EventRecord}
    (fault : Option Fault) (taken : table.insert? record = none) :
    (createRecord fault table record).1 = table := by
  cases fault with
  | none => simp only [createRecord, taken]
  | some fault =>
      cases fault with
      | refused reason => rfl
      | unanswered reason => simp only [createRecord, taken, Option.getD_none]

@[simp]
theorem createRecord_error_eq_none_iff {fault : Option Fault} {table : EventTable}
    {record : EventRecord} :
    (createRecord fault table record).2 = none ↔
      fault = none ∧ table.find record.id = none := by
  cases fault with
  | some fault => cases fault <;> simp [createRecord]
  | none =>
      have taken := table.insert?_eq_none_iff record
      cases insertion : table.insert? record with
      | none =>
          rcases taken.mp insertion with ⟨stored, found⟩
          simp [createRecord, insertion, found]
      | some inserted =>
          have absent := ((table.insert?_eq_some_iff inserted record).mp insertion).1
          simp [createRecord, insertion, absent]

/-- Call `pg_notify`; the result has the texts that are sent. -/
def pgNotify (fault : Option Fault) (sent : List Char) :
    List (List Char) × Option PublishError :=
  let accepted := if Notifiable sent then [sent] else []
  match fault with
  | some (.refused reason) => ([], some (.failed reason))
  | some (.unanswered reason) => (accepted, some (.failed reason))
  | none => (accepted, if Notifiable sent then none else some .payloadTooLong)

@[simp]
theorem pgNotify_error_eq_none_iff {fault : Option Fault} {sent : List Char} :
    (pgNotify fault sent).2 = none ↔ fault = none ∧ Notifiable sent := by
  cases fault with
  | some fault => cases fault <;> simp [pgNotify]
  | none => simp [pgNotify]

/-- The table after a call of `Publish`, the texts sent and the error. -/
structure Published where
  table : EventTable
  sent : List (List Char)
  error : Option PublishError

/-- The text of the notification of an event. -/
def Event.payloadText (text : UUIDText) (event : Event) : List Char :=
  (event.notification text).marshal

/-- A call of `Publish`: the event, what it may fill in, and what goes wrong. -/
structure PublishCall where
  event : Event
  freshID : String
  now : Time
  faults : PublishFaults := {}

namespace PublishCall

/-- The event that is published. -/
def completed (call : PublishCall) : Event :=
  call.event.complete call.freshID call.now

/-- `Publish`. -/
def run (text : UUIDText) (table : EventTable) (call : PublishCall) : Published :=
  match createRecord call.faults.insert table call.completed.record with
  | (created, some error) => ⟨created, [], some error⟩
  | (created, none) =>
      match call.faults.marshal with
      | some reason => ⟨created, [], some (.failed reason)⟩
      | none =>
          let notified := pgNotify call.faults.notify (call.completed.payloadText text)
          ⟨created, notified.1, notified.2⟩

/-- The table after any calls of `Publish`. -/
def runAll (text : UUIDText) (table : EventTable) (calls : List PublishCall) :
    EventTable :=
  calls.foldl (fun table call => (call.run text table).table) table

/-- The insert of the call takes effect. -/
def Inserts (call : PublishCall) (table : EventTable) : Prop :=
  (∀ reason, call.faults.insert ≠ some (.refused reason)) ∧
    table.find call.completed.id = none

variable {text : UUIDText} {table : EventTable} {call : PublishCall}

/-! ## What a call leaves behind -/

theorem table_run :
    (call.run text table).table =
      (createRecord call.faults.insert table call.completed.record).1 := by
  unfold run
  split
  · next created error same => rw [same]
  · next created same =>
      rw [same]
      split <;> rfl

theorem error_run_eq_none_iff :
    (call.run text table).error = none ↔
      (createRecord call.faults.insert table call.completed.record).2 = none ∧
        call.faults.marshal = none ∧
        (pgNotify call.faults.notify (call.completed.payloadText text)).2 = none := by
  unfold run
  split
  · next created error same => simp [same]
  · next created same =>
      rw [same]
      cases call.faults.marshal <;> simp

/-- The calls that succeed. -/
theorem error_eq_none_iff :
    (call.run text table).error = none ↔
      table.find call.completed.id = none ∧ call.faults = {} ∧
        Notifiable (call.completed.payloadText text) := by
  have faultless : call.faults = {} ↔ call.faults.insert = none ∧
      call.faults.marshal = none ∧ call.faults.notify = none := by
    cases call.faults
    simp
  rw [error_run_eq_none_iff, createRecord_error_eq_none_iff,
    pgNotify_error_eq_none_iff, faultless]
  constructor
  · rintro ⟨⟨inserted, free⟩, marshalled, notified, short⟩
    exact ⟨free, ⟨inserted, marshalled, notified⟩, short⟩
  · rintro ⟨free, ⟨inserted, marshalled, notified⟩, short⟩
    exact ⟨⟨inserted, free⟩, marshalled, notified, short⟩

/-- The row of a call that inserts it is in the table. -/
theorem find_of_inserts (text : UUIDText) (inserts : call.Inserts table) :
    (call.run text table).table.find call.completed.id =
      some call.completed.record := by
  cases insertion : table.insert? call.completed.record with
  | none =>
      rcases (table.insert?_eq_none_iff _).mp insertion with ⟨stored, taken⟩
      have absent : table.find call.completed.record.id = none := inserts.2
      rw [absent] at taken
      cases taken
  | some inserted =>
      rw [table_run, createRecord_of_insert? inserts.1 insertion,
        KeyedTable.find_insert? insertion]
      exact if_pos rfl

/-- A call that does not insert its row leaves the table as it was. -/
theorem table_of_not_inserts (kept : ¬ call.Inserts table) :
    (call.run text table).table = table := by
  rw [table_run]
  by_cases carriedOut : ∀ reason, call.faults.insert ≠ some (.refused reason)
  · have taken : table.find call.completed.id ≠ none :=
      fun absent => kept ⟨carriedOut, absent⟩
    refine createRecord_of_taken call.faults.insert ?_
    exact (table.insert?_eq_none_iff _).mpr (Option.ne_none_iff_exists'.mp taken)
  · push Not at carriedOut
    rcases carriedOut with ⟨reason, refused⟩
    rw [refused]
    rfl

theorem table_run_eq_iff :
    (call.run text table).table = table ↔ ¬ call.Inserts table := by
  refine ⟨?_, table_of_not_inserts⟩
  intro same inserts
  have found := find_of_inserts text inserts
  rw [same, inserts.2] at found
  cases found

/-! ## Trying again -/

/-- No call takes a row out of the table. -/
theorem find_run {id : String} {row : EventRecord}
    (stored : table.find id = some row) :
    (call.run text table).table.find id = some row := by
  by_cases inserts : call.Inserts table
  · cases insertion : table.insert? call.completed.record with
    | none => rw [table_run, createRecord_of_taken _ insertion, stored]
    | some inserted =>
        rw [table_run, createRecord_of_insert? inserts.1 insertion]
        exact KeyedTable.find_of_insert? insertion stored
  · rw [table_of_not_inserts inserts, stored]

theorem find_runAll (text : UUIDText) {id : String} {row : EventRecord}
    (stored : table.find id = some row) (calls : List PublishCall) :
    (runAll text table calls).find id = some row := by
  induction calls generalizing table with
  | nil => exact stored
  | cons call calls ih => exact ih (find_run stored)

/-- Without faults the row is inserted before the text is sent. -/
theorem run_of_insert? {inserted : EventTable} (faultless : call.faults = {})
    (insertion : table.insert? call.completed.record = some inserted) :
    call.run text table =
      ⟨inserted, (pgNotify none (call.completed.payloadText text)).1,
        (pgNotify none (call.completed.payloadText text)).2⟩ := by
  simp only [run, faultless, createRecord, insertion]

/-- Without faults a call with a short text does what `publish` says. -/
theorem run_eq_publish (faultless : call.faults = {})
    (short : Notifiable (call.completed.payloadText text)) :
    call.run text table =
      match publish text table call.event call.freshID call.now with
      | none => ⟨table, [], some .duplicateKey⟩
      | some (inserted, _, sent) => ⟨inserted, [sent], none⟩ := by
  cases insertion : table.insert? call.completed.record with
  | none =>
      have nothing : publish text table call.event call.freshID call.now = none :=
        Option.map_eq_none_iff.mpr insertion
      rw [nothing]
      simp only [run, faultless, createRecord, insertion]
  | some inserted =>
      have done : publish text table call.event call.freshID call.now =
          some (inserted, call.completed.record, call.completed.payloadText text) :=
        Option.map_eq_some_iff.mpr ⟨inserted, insertion, rfl⟩
      rw [done, run_of_insert? faultless insertion]
      simp only [pgNotify, if_pos short]

end PublishCall

/--
A call of `Publish` that fails leaves no row of the event behind if and only if
its insert has no effect, or nothing goes wrong behind it.  When the insert has
an effect, every later call with the same event fails, whatever is published
in between.  Otherwise the event can be published as if there had been no call.
-/
theorem publish_allOrNothing_iff (text : UUIDText) (table : EventTable)
    (call : PublishCall) :
    (((call.run text table).error ≠ none → (call.run text table).table = table) ↔
      (call.Inserts table →
        call.faults = {} ∧ Notifiable (call.completed.payloadText text))) ∧
    (call.Inserts table → call.event.id ≠ "" → ∀ calls, ∀ retry : PublishCall,
      retry.event = call.event →
      (retry.run text
        (PublishCall.runAll text (call.run text table).table calls)).error ≠ none) ∧
    (¬ call.Inserts table → ∀ retry : PublishCall,
      ((retry.run text (call.run text table).table).error = none ↔
        table.find retry.completed.id = none ∧ retry.faults = {} ∧
          Notifiable (retry.completed.payloadText text))) := by
  refine ⟨?_, ?_, ?_⟩
  · rw [PublishCall.table_run_eq_iff, Ne, PublishCall.error_eq_none_iff]
    constructor
    · intro clean inserts
      by_contra spoiled
      exact clean (fun succeeded => spoiled succeeded.2) inserts
    · intro succeeds failed inserts
      exact failed ⟨inserts.2, succeeds inserts⟩
  · intro inserts named calls retry sameEvent succeeded
    have sameID : retry.completed.id = call.completed.id := by
      simp only [PublishCall.completed, Event.complete, sameEvent, if_neg named]
    have stored :=
      PublishCall.find_runAll text (PublishCall.find_of_inserts text inserts) calls
    have free := (PublishCall.error_eq_none_iff.mp succeeded).1
    rw [sameID, stored] at free
    cases free
  · intro kept retry
    rw [PublishCall.table_of_not_inserts kept, PublishCall.error_eq_none_iff]

theorem length_le_byteLength (text : List Char) :
    text.length ≤ byteLength text := by
  induction text with
  | nil => exact le_rfl
  | cons character text ih =>
      have one := Char.utf8Size_pos character
      rw [List.length_cons, byteLength]
      omega

theorem length_name_le_length_marshal (payload : NotifyPayload) :
    payload.name.toList.length ≤ payload.marshal.length := by
  have member : NotifyPayload.Field.name ∈ NotifyPayload.fields := by decide
  exact Json.length_le_length_printObject (List.mem_map_of_mem
    (f := fun field => (field.key, (payload.get field).toList)) member)

/-- A long name makes a long text. -/
theorem not_notifiable_of_name (text : UUIDText) {event : Event}
    (long : 8000 ≤ event.name.toList.length) :
    ¬ Notifiable (event.payloadText text) := by
  have printed := length_name_le_length_marshal (event.notification text)
  have bytes := length_le_byteLength (event.payloadText text)
  have sameName : (event.notification text).name = event.name := rfl
  rw [sameName] at printed
  exact not_lt.mpr (long.trans (printed.trans bytes))

/-- An event with a name of 8000 characters. -/
def longNamed : PublishCall where
  event := { id := "e", name := String.ofList (List.replicate 8000 'a') }
  freshID := ""
  now := 5

theorem longNamed_not_notifiable (text : UUIDText) :
    ¬ Notifiable (longNamed.completed.payloadText text) := by
  refine not_notifiable_of_name text ?_
  have name : longNamed.completed.name = String.ofList (List.replicate 8000 'a') := rfl
  rw [name, String.toList_ofList, List.length_replicate]

theorem longNamed_inserts : longNamed.Inserts KeyedTable.empty := by
  refine ⟨?_, rfl⟩
  intro reason refused
  cases refused

/--
The event is stored and its publication fails; after that it fails as well
with a name of one character.
-/
theorem long_name_is_half_published :
    (longNamed.run Auth.canonicalText KeyedTable.empty).error ≠ none ∧
      (longNamed.run Auth.canonicalText KeyedTable.empty).table.find "e" =
        some longNamed.completed.record ∧
      (PublishCall.run Auth.canonicalText
        (longNamed.run Auth.canonicalText KeyedTable.empty).table
        { event := { id := "e", name := "a" }, freshID := "", now := 6 }).error ≠
        none := by
  have stored : (longNamed.run Auth.canonicalText KeyedTable.empty).table.find "e" =
      some longNamed.completed.record :=
    PublishCall.find_of_inserts Auth.canonicalText longNamed_inserts
  refine ⟨?_, stored, ?_⟩
  · intro succeeded
    exact longNamed_not_notifiable _ (PublishCall.error_eq_none_iff.mp succeeded).2.2
  · intro succeeded
    have free : (longNamed.run Auth.canonicalText KeyedTable.empty).table.find "e" =
        none :=
      (PublishCall.error_eq_none_iff.mp succeeded).1
    rw [stored] at free
    cases free

end Infractl.Events
