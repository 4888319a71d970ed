import Infractl.Lib.Json
import Infractl.Lib.LastWriter
import Infractl.Store.Statements
import Infractl.Workflow.Tracking

/-!
# Status updates of one polling round

`MakeStatusCallback` writes the outcome of a finished run into the status
column of the resource that triggered it, through the updater registered for
the type of the resource.  `pollOnce` does so for every finished run, in the
order in which the map of tracked runs happens to be iterated.

Two runs of one resource may finish in the same round.  Nothing compares the
times of their submission, so the one polled last decides the status.
`statuses_order_independent_iff` says when the order does not matter.
-/

namespace Infractl.Workflow

open Infractl.Lib
open Infractl.Lib.Run
open Infractl.Store (Key Time Object Table Replaces liveExists liveExists_iff)

variable {Spec Status ι V : Type}

/-! ## The status of a finished run -/

/-- The fields that a status callback sets. -/
structure StatusFields where
  phase : String
  message : String
deriving DecidableEq

/-- The fields written for a run. -/
def Run.statusFields (run : Run V) : StatusFields :=
  if run.status = .failed then ⟨"Failed", run.error⟩ else ⟨"Ready", ""⟩

/-- `json.Marshal` of the map of the fields, whose keys it sorts. -/
def StatusFields.marshal (fields : StatusFields) : List Char :=
  ['{', '"', 'm', 'e', 's', 's', 'a', 'g', 'e', '"', ':'] ++
    (Json.printString fields.message.toList ++
      ([',', '"', 'p', 'h', 'a', 's', 'e', '"', ':'] ++
        (Json.printString fields.phase.toList ++ ['}'])))

def unitsOf (text : String) : List Nat :=
  text.toList.map Char.toNat

theorem unitsOf_injective {text other : String}
    (same : unitsOf text = unitsOf other) :
    text = other := by
  have injective : Function.Injective Char.toNat :=
    fun left right equal => Char.toNat_inj.mp equal
  exact String.toList_injective (injective.list_map same)

theorem parse_marshal (fields : StatusFields) :
    Json.parse fields.marshal =
      some (.object
        [(unitsOf "message", .string (unitsOf fields.message)),
          (unitsOf "phase", .string (unitsOf fields.phase))]) := by
  rw [Json.parse, Option.bind_eq_some_iff]
  refine ⟨⟨.ended _, []⟩, ?_, rfl⟩
  refine (run_append_eq_some_iff Json.step).mpr ⟨_, rfl, ?_⟩
  refine (run_append_eq_some_iff Json.step).mpr
    ⟨_, Json.run_printString _ _, ?_⟩
  refine (run_append_eq_some_iff Json.step).mpr ⟨_, rfl, ?_⟩
  refine (run_append_eq_some_iff Json.step).mpr
    ⟨_, Json.run_printString _ _, ?_⟩
  rfl

/--
A column of JSON documents.  A text is stored or refused, and a string member
of a stored object can be read back; of several members with one key the last
counts.
-/
structure JsonColumn (Status : Type) where
  store : List Char → Option Status
  member : Status → List Nat → Option (List Nat)
  member_store : ∀ text status members key units,
    store text = some status →
    Json.parse text = some (.object members) →
    members.reverse.lookup key = some (.string units) →
    member status key = some units

/-- What is stored for a status determines its fields. -/
theorem JsonColumn.store_injective (column : JsonColumn Status)
    {fields other : StatusFields} {status : Status}
    (stored : column.store fields.marshal = some status)
    (otherStored : column.store other.marshal = some status) :
    fields = other := by
  have phase := column.member_store _ _ _ (unitsOf "phase") _ stored
    (parse_marshal fields) rfl
  have otherPhase := column.member_store _ _ _ (unitsOf "phase") _ otherStored
    (parse_marshal other) rfl
  have message := column.member_store _ _ _ (unitsOf "message") _ stored
    (parse_marshal fields) rfl
  have otherMessage := column.member_store _ _ _ (unitsOf "message") _
    otherStored (parse_marshal other) rfl
  rw [phase] at otherPhase
  rw [message] at otherMessage
  have samePhase := unitsOf_injective (Option.some.inj otherPhase)
  have sameMessage := unitsOf_injective (Option.some.inj otherMessage)
  cases fields
  cases other
  cases samePhase
  cases sameMessage
  rfl

/-! ## The status callback -/

/-- The tables of the database, by name. -/
abbrev Tables (Spec Status : Type) :=
  String → Option (Table Spec Status)

/-- Why a status was not updated. -/
inductive UpdateError where
  | noStore (resourceType : String)
  | updating (table : String)
  | notFound
deriving DecidableEq

/--
The message of an update error, up to that of the error it wraps, where
`quote` is the `%q` verb.
-/
def UpdateError.message (quote : String → String) : UpdateError → String
  | .noStore resourceType =>
      "no store registered for resource type " ++ quote resourceType
  | .updating table => "updating status in " ++ table ++ ": "
  | .notFound => "resource not found"

/-- `StatusUpdater.UpdateStatus` on a table. -/
def updateStatus (column : JsonColumn Status) (now : Time)
    (tables : Tables Spec Status) (table : String) (key : Key)
    (fields : StatusFields) : Except UpdateError (Tables Spec Status) :=
  match tables table, column.store fields.marshal with
  | some rows, some status =>
      match Store.writeStatus now rows key status with
      | some updated => .ok (Function.update tables table (some updated))
      | none => .error .notFound
  | _, _ => .error (.updating table)

/-- The tables after a callback returned; an error is only logged. -/
def afterCallback (tables : Tables Spec Status) :
    Except UpdateError (Tables Spec Status) → Tables Spec Status
  | .ok updated => updated
  | .error _ => tables

/-- The key of the resource that triggered a run. -/
def TrackedRun.key (entry : TrackedRun) : Key :=
  ⟨entry.orgID, entry.name⟩

section Round

variable (stores : String → Option String) (column : JsonColumn Status)

/-- The callback `MakeStatusCallback` makes for a registry. -/
def makeStatusCallback (now : Time) (entry : TrackedRun) (run : Run V)
    (tables : Tables Spec Status) : Except UpdateError (Tables Spec Status) :=
  match stores entry.resourceType with
  | none => .error (.noStore entry.resourceType)
  | some table =>
      updateStatus column now tables table entry.key run.statusFields

/-- The database and the tracked runs. -/
structure Round (Spec Status : Type) where
  tables : Tables Spec Status
  tracked : Tracked

variable (answers : String → Answer V) (clock : TrackedRun → Time)

/-- What `pollOnce` does for one run of its copy. -/
def pollEntry (round : Round Spec Status) (entry : TrackedRun) :
    Round Spec Status :=
  match answers entry.runID with
  | .error _ => round
  | .ok run =>
      if run.status.terminal then
        { tables :=
            afterCallback round.tables
              (makeStatusCallback stores column (clock entry) entry run
                round.tables)
          tracked := round.tracked.erase entry.runID }
      else
        round

/-- `pollOnce` over a copy of the tracked runs. -/
def pollOnce (order : List TrackedRun) (round : Round Spec Status) :
    Round Spec Status :=
  order.foldl (pollEntry stores column answers clock) round

end Round

/-! ## The stored statuses -/

/-- A row of a table: the name of the table and the key of the row. -/
abbrev Cell := String × Key

/-- The statuses stored in the rows of all tables. -/
def storedStatus (tables : Tables Spec Status) (cell : Cell) : Option Status :=
  ((tables cell.1).bind fun rows => rows.find cell.2).map Object.status

def isLive (tables : Tables Spec Status) (cell : Cell) : Bool :=
  (tables cell.1).any fun rows => liveExists rows cell.2

section WriteStatus

variable {now : Time} {rows updated : Table Spec Status} {key : Key}
variable {status : Status}

theorem writeStatus_spec
    (written : Store.writeStatus now rows key status = some updated) :
    ∃ row, rows.find key = some row ∧ row.live = true ∧
      Replaces rows updated key (row.setStatus now status) := by
  rcases Store.updateLive_spec written with ⟨row, found, live, _, replaces⟩
  exact ⟨row, found, live, replaces⟩

theorem writeStatus_eq_none
    (refused : Store.writeStatus now rows key status = none) :
    liveExists rows key = false := by
  rw [Bool.eq_false_iff, ne_eq, liveExists_iff]
  rintro ⟨row, found, live⟩
  have dead := Store.updateLive_eq_none_iff.mp refused row found live
  cases dead

theorem liveExists_writeStatus
    (written : Store.writeStatus now rows key status = some updated)
    (wanted : Key) :
    liveExists updated wanted = liveExists rows wanted := by
  rcases writeStatus_spec written with ⟨row, found, live, replaces⟩
  by_cases same : wanted = key
  · subst same
    have before : liveExists rows wanted = true :=
      (liveExists_iff rows wanted).mpr ⟨row, found, live⟩
    have after : liveExists updated wanted = true :=
      (liveExists_iff updated wanted).mpr ⟨_, replaces.find_self, live⟩
    rw [before, after]
  · rw [liveExists, liveExists, Store.selectLive, Store.selectLive,
      replaces.find_other same]

end WriteStatus

/-- What is written for a polled run, if the row of its resource is live. -/
def pollWrite (stores : String → Option String) (column : JsonColumn Status)
    (answers : String → Answer V) (entry : TrackedRun) :
    Option (Cell × Option Status) :=
  match answers entry.runID with
  | .error _ => none
  | .ok run =>
      if run.status.terminal then
        (stores entry.resourceType).bind fun table =>
          (column.store run.statusFields.marshal).map fun status =>
            ((table, entry.key), some status)
      else
        none

/-- A status write keeps every row live or deleted, and sets one status. -/
theorem updateStatus_ok {column : JsonColumn Status} {now : Time}
    {tables updated : Tables Spec Status} {table : String} {key : Key}
    {fields : StatusFields}
    (done : updateStatus column now tables table key fields = .ok updated) :
    ∃ status, column.store fields.marshal = some status ∧
      isLive tables (table, key) = true ∧
      isLive updated = isLive tables ∧
      storedStatus updated =
        Function.update (storedStatus tables) (table, key) (some status) := by
  unfold updateStatus at done
  split at done
  · next rows status stored accepted =>
      split at done
      · next written result =>
          cases done
          rcases writeStatus_spec result with ⟨row, found, live, replaces⟩
          refine ⟨status, accepted, ?_, ?_, ?_⟩
          · simp [isLive, stored, liveExists_iff, found, live]
          · funext cell
            by_cases same : cell.1 = table
            · simp [isLive, same, stored, liveExists_writeStatus result]
            · simp [isLive, same]
          · funext cell
            rcases cell with ⟨name, wanted⟩
            by_cases same : name = table
            · subst same
              by_cases sameKey : wanted = key
              · subst sameKey
                simp [storedStatus, replaces.find_self, Object.setStatus]
              · simp [storedStatus, stored, replaces.find_other sameKey, sameKey]
            · simp [storedStatus, same]
      · cases done
  · cases done

theorem updateStatus_error {column : JsonColumn Status} {now : Time}
    {tables : Tables Spec Status} {table : String} {key : Key}
    {fields : StatusFields} {error : UpdateError}
    (failed : updateStatus column now tables table key fields = .error error)
    (live : isLive tables (table, key) = true) :
    column.store fields.marshal = none := by
  unfold updateStatus at failed
  split at failed
  · next rows status stored accepted =>
      split at failed
      · cases failed
      · next refused =>
          simp [isLive, stored, writeStatus_eq_none refused] at live
  · next missing =>
      cases accepted : column.store fields.marshal with
      | none => rfl
      | some status =>
          cases stored : tables table with
          | none => simp [isLive, stored] at live
          | some rows => exact absurd accepted (missing rows status stored)

section Rounds

variable (stores : String → Option String) (column : JsonColumn Status)
variable (answers : String → Answer V) (clock : TrackedRun → Time)

theorem pollEntry_stores (round : Round Spec Status) (entry : TrackedRun) :
    isLive (pollEntry stores column answers clock round entry).tables =
        isLive round.tables ∧
      storedStatus (pollEntry stores column answers clock round entry).tables =
        LastWriter.store (isLive round.tables) (pollWrite stores column answers)
          (storedStatus round.tables) entry := by
  unfold pollEntry LastWriter.store pollWrite
  cases answers entry.runID with
  | error _ => exact ⟨rfl, rfl⟩
  | ok run =>
      cases terminal : run.status.terminal with
      | false => simp [terminal]
      | true =>
          simp only [terminal, if_true]
          cases registered : stores entry.resourceType with
          | none => simp [makeStatusCallback, registered, afterCallback]
          | some table =>
              simp only [makeStatusCallback, registered]
              cases result : updateStatus column (clock entry) round.tables table
                entry.key run.statusFields with
              | ok updated =>
                  rcases updateStatus_ok result with
                    ⟨status, accepted, live, keepsLive, written⟩
                  simp [afterCallback, accepted, live, keepsLive, written]
              | error error =>
                  cases live : isLive round.tables (table, entry.key) with
                  | true => simp [afterCallback, updateStatus_error result live]
                  | false =>
                      cases column.store run.statusFields.marshal <;>
                        simp [afterCallback, live]

theorem pollOnce_stores (order : List TrackedRun)
    (round : Round Spec Status) :
    storedStatus (pollOnce stores column answers clock order round).tables =
      LastWriter.storeAll (isLive round.tables)
        (pollWrite stores column answers) (storedStatus round.tables) order := by
  induction order generalizing round with
  | nil => rfl
  | cons entry rest ih =>
      rcases pollEntry_stores stores column answers clock round entry with
        ⟨sameLive, written⟩
      have later := ih (pollEntry stores column answers clock round entry)
      rw [sameLive, written] at later
      exact later

end Rounds

/-! ## When the order does not matter -/

section Order

variable (stores : String → Option String) (column : JsonColumn Status)
variable (answers : String → Answer V)

/--
A tracked run has finished, and the database takes the status that is to be
written for it into a row.
-/
def Reports (entry : TrackedRun) (cell : Cell) (run : Run V) : Prop :=
  answers entry.runID = .ok run ∧ run.status.terminal = true ∧
    stores entry.resourceType = some cell.1 ∧ entry.key = cell.2 ∧
    (column.store run.statusFields.marshal).isSome

/--
Finished runs reported into one live row have the same outcome: all completed,
or all failed with the same error.
-/
def SameOutcome (round : Round Spec Status) : Prop :=
  ∀ entry ∈ round.tracked.rows, ∀ other ∈ round.tracked.rows,
    ∀ cell run otherRun,
      Reports stores column answers entry cell run →
      Reports stores column answers other cell otherRun →
      isLive round.tables cell = true →
      run.statusFields = otherRun.statusFields

theorem pollWrite_eq_some_iff (entry : TrackedRun) (cell : Cell)
    (written : Option Status) :
    pollWrite stores column answers entry = some (cell, written) ↔
      ∃ run, Reports stores column answers entry cell run ∧
        column.store run.statusFields.marshal = written := by
  unfold pollWrite Reports
  constructor
  · intro writes
    cases answered : answers entry.runID with
    | error _ => simp [answered] at writes
    | ok run =>
        simp only [answered, Option.ite_none_right_eq_some,
          Option.bind_eq_some_iff, Option.map_eq_some_iff] at writes
        rcases writes with
          ⟨terminal, table, registered, status, accepted, equal⟩
        cases equal
        exact ⟨run, ⟨rfl, terminal, registered, rfl, by simp [accepted]⟩,
          accepted⟩
  · rintro ⟨run, ⟨answered, terminal, registered, key, accepts⟩, rfl⟩
    rcases Option.isSome_iff_exists.mp accepts with ⟨status, accepted⟩
    simp [answered, terminal, registered, key, accepted]

/--
The statuses stored after a polling round are the same for every order of the
tracked runs, whenever the writes happen, exactly when finished runs reported
into one live row have the same outcome.
-/
theorem statuses_order_independent_iff (round : Round Spec Status) :
    (∀ (first second : List TrackedRun) (clock otherClock : TrackedRun → Time),
      first.Perm round.tracked.rows → second.Perm round.tracked.rows →
      storedStatus (pollOnce stores column answers clock first round).tables =
        storedStatus
          (pollOnce stores column answers otherClock second round).tables) ↔
    SameOutcome stores column answers round := by
  have writers := LastWriter.storeAll_perm_iff (isLive round.tables)
    (pollWrite stores column answers) (storedStatus round.tables)
    round.tracked.rows
  simp only [pollOnce_stores]
  constructor
  · intro same entry member other otherMember cell run otherRun reports
      otherReports live
    have agree := writers.mp fun first second firstPerm secondPerm =>
      same first second (fun _ => 0) (fun _ => 0) firstPerm secondPerm
    have stored := agree entry member other otherMember cell _ _
      ((pollWrite_eq_some_iff ..).mpr ⟨run, reports, rfl⟩)
      ((pollWrite_eq_some_iff ..).mpr ⟨otherRun, otherReports, rfl⟩) live
    rcases Option.isSome_iff_exists.mp reports.2.2.2.2 with ⟨status, accepted⟩
    exact column.store_injective accepted (stored.symm.trans accepted)
  · intro outcome first second clock otherClock firstPerm secondPerm
    apply writers.mpr _ first second firstPerm secondPerm
    intro entry member other otherMember cell written otherWritten writes
      otherWrites live
    rcases (pollWrite_eq_some_iff ..).mp writes with ⟨run, reports, rfl⟩
    rcases (pollWrite_eq_some_iff ..).mp otherWrites with
      ⟨otherRun, otherReports, rfl⟩
    rw [outcome entry member other otherMember cell run otherRun reports
      otherReports live]

end Order

/-- A column that keeps the text of a document. -/
def textColumn : JsonColumn (List Char) where
  store text := (Json.parse text).map fun _ => text
  member text key :=
    match Json.parse text with
    | some (.object members) =>
        match members.reverse.lookup key with
        | some (.string units) => some units
        | _ => none
    | _ => none
  member_store := by
    intro text status members key units stored parsed found
    rcases Option.map_eq_some_iff.mp stored with ⟨_, _, rfl⟩
    simp only [parsed, found]

def createRun : TrackedRun :=
  ⟨"create-run", "vm", 1, "a", "create", 5⟩

def deleteRun : TrackedRun :=
  ⟨"delete-run", "vm", 1, "a", "delete", 9⟩

/-- A machine whose creation has completed and whose deletion has failed. -/
def machineRound : Round Unit (List Char) where
  tables name :=
    if name = "vms" then
      some ⟨[⟨{ orgID := 1, name := "a" }, (), []⟩], by decide⟩
    else
      none
  tracked := ⟨[createRun, deleteRun], by decide⟩

def machineAnswers (id : String) : Answer Nat :=
  if id = "create-run" then .ok ⟨id, .completed, none, ""⟩
  else .ok ⟨id, .failed, none, "busy"⟩

/-- The machine is failed or ready depending on the run polled last. -/
theorem last_polled_run_decides :
    let poll := fun order =>
      storedStatus
        (pollOnce (fun _ => some "vms") textColumn machineAnswers (fun _ => 12)
          order machineRound).tables ("vms", ⟨1, "a"⟩)
    [createRun, deleteRun].Perm machineRound.tracked.rows ∧
      [deleteRun, createRun].Perm machineRound.tracked.rows ∧
      poll [createRun, deleteRun] =
        some "\x7b\"message\":\"busy\",\"phase\":\"Failed\"\x7d".toList ∧
      poll [deleteRun, createRun] =
        some "\x7b\"message\":\"\",\"phase\":\"Ready\"\x7d".toList := by
  refine ⟨.refl _, .swap _ _ _, ?_, ?_⟩
  · rfl
  · rfl

/-! ## The round as a run of the polling loop -/

section Machine

variable [DecidableEq ι]
variable (stores : String → Option String) (column : JsonColumn Status)
variable (answers : String → Answer V) (clock : TrackedRun → Time)
variable (quote : String → String)

/-- The error a callback returns to the polling loop. -/
def callbackError :
    Except UpdateError (Tables Spec Status) → Option String
  | .ok _ => none
  | .error error => some (error.message quote)

/-- The steps of the polling loop for one run of its copy. -/
def entryLabels (round : Round Spec Status) (entry : TrackedRun) :
    List (Label ι V) :=
  match answers entry.runID with
  | .error error => [.poll (.error error)]
  | .ok run =>
      if run.status.terminal then
        [.poll (.ok run),
          .callback (callbackError quote
            (makeStatusCallback stores column (clock entry) entry run
              round.tables)),
          .delete]
      else
        [.poll (.ok run)]

/-- The steps of the polling loop for the runs of its copy. -/
def roundLabels : List TrackedRun → Round Spec Status → List (Label ι V)
  | [], _ => []
  | entry :: rest, round =>
      entryLabels stores column answers clock quote round entry ++
        roundLabels rest (pollEntry stores column answers clock round entry)

theorem run_entryLabels (world : World ι V) (round : Round Spec Status)
    (entry : TrackedRun) (rest : List TrackedRun)
    (polling : world.poller = .polling entry rest)
    (sameRuns : world.tracked = round.tracked) :
    ∃ log,
      run World.step world
          (entryLabels stores column answers clock quote round entry) =
        some
          { world with
            tracked := (pollEntry stores column answers clock round entry).tracked
            poller := Poller.next rest
            log := log } := by
  unfold entryLabels pollEntry
  cases answers entry.runID with
  | error error =>
      refine ⟨world.log, ?_⟩
      simp [run, World.step, polling, World.polled, World.pollEvents, ← sameRuns]
  | ok found =>
      cases terminal : found.status.terminal with
      | false =>
          refine ⟨world.log ++ [.polled entry found], ?_⟩
          simp [run, World.step, polling, World.polled, World.pollEvents,
            terminal, ← sameRuns]
      | true =>
          refine ⟨world.log ++ [.polled entry found,
            .called entry found (callbackError quote
              (makeStatusCallback stores column (clock entry) entry found
                round.tables))], ?_⟩
          simp [run, World.step, polling, World.polled, World.pollEvents,
            terminal, ← sameRuns]

/-- A polling round is what the polling loop does without interference. -/
theorem run_roundLabels (order : List TrackedRun) (world : World ι V)
    (round : Round Spec Status)
    (copied : world.poller = Poller.next order)
    (sameRuns : world.tracked = round.tracked) :
    ∃ log,
      run World.step world
          (roundLabels stores column answers clock quote order round) =
        some
          { world with
            tracked := (pollOnce stores column answers clock order round).tracked
            poller := .idle
            log := log } := by
  induction order generalizing world round with
  | nil =>
      refine ⟨world.log, ?_⟩
      rw [Poller.next] at copied
      simp [roundLabels, pollOnce, ← sameRuns, ← copied]
  | cons entry rest ih =>
      rcases run_entryLabels stores column answers clock quote world round entry
        rest copied sameRuns with ⟨log, polled⟩
      rcases ih
        { world with
          tracked := (pollEntry stores column answers clock round entry).tracked
          poller := Poller.next rest
          log := log }
        (pollEntry stores column answers clock round entry) rfl rfl with
        ⟨finalLog, finished⟩
      exact ⟨finalLog,
        (run_append_eq_some_iff World.step).mpr ⟨_, polled, finished⟩⟩

end Machine

end Infractl.Workflow
