import Infractl.Workflow.Tracking

/-!
# Reported runs

Every tracked, polled or reported entry belongs to the call of `Dispatch` that
recorded it.  When the executor gives no two runs that are tracked the same
identifier, a recorded run stays tracked until its callback has been invoked,
and the callback is invoked at most once.
-/

namespace Infractl.Workflow

open Infractl.Lib
open Infractl.Lib.Run
open Infractl.Store (UUID Time)

variable {ι V : Type}

/-! ## What a call has recorded -/

/-- The main run of a call, once its `Submit` has returned. -/
def Stage.mainRun : Stage V → Option (Run V)
  | .record run => some run
  | .post _ _ mainRun => mainRun
  | .returned (.ok mainRun) => mainRun
  | _ => none

@[simp]
theorem Stage.mainRun_toPost (mainRun : Option (Run V)) (rest : List Handler) :
    (Stage.toPost mainRun rest).mainRun = mainRun := by
  cases rest <;> rfl

@[simp]
theorem Stage.mainRun_toMain (handlers : List Handler) :
    (Stage.toMain handlers : Stage V).mainRun = none := by
  unfold Stage.toMain
  split
  · exact Stage.mainRun_toPost ..
  · rfl

@[simp]
theorem Stage.mainRun_toPre (handlers rest : List Handler) :
    (Stage.toPre handlers rest : Stage V).mainRun = none := by
  cases rest with
  | nil => exact Stage.mainRun_toMain handlers
  | cons handler rest => rfl

theorem Stage.toPost_ne_record (mainRun : Option (Run V)) (rest : List Handler)
    (run : Run V) :
    Stage.toPost mainRun rest ≠ .record run := by
  cases rest <;> simp [Stage.toPost]

theorem Stage.ne_record_of_mainRun_eq_none {stage : Stage V}
    (none : stage.mainRun = none) (run : Run V) :
    stage ≠ .record run := by
  rintro rfl
  cases none

namespace Call

variable {call next : Call V} {answer : Answer V} {run : Run V}

/-- The main run of the call was not finished, and is or will be recorded. -/
structure Tracks (call : Call V) (run : Run V) : Prop where
  main : call.stage.mainRun = some run
  unfinished : run.status.terminal = false
  options : call.request.opts ≠ []

/-- The main run of the call was not finished, and has been recorded. -/
structure Recorded (call : Call V) (run : Run V) : Prop where
  main : call.stage.mainRun = some run
  unfinished : run.status.terminal = false
  options : call.request.opts ≠ []
  past : ∀ other, call.stage ≠ .record other

theorem Recorded.tracks (recorded : call.Recorded run) : call.Tracks run :=
  ⟨recorded.main, recorded.unfinished, recorded.options⟩

/-- The entry is the one that the call has recorded. -/
structure Owns (call : Call V) (entry : TrackedRun) : Prop where
  recorded : ∃ run, call.Recorded run ∧ run.id = entry.runID
  resourceType : entry.resourceType = call.request.resourceType
  event : entry.event = call.request.event
  options : call.request.opts.head? = some ⟨entry.orgID, entry.name⟩

/--
What an answer of `Submit` does about the main run: nothing, or it reports one
that needs no recording, or one that is to be recorded next.
-/
inductive Reports (call : Call V) (answer : Answer V) (next : Call V) : Prop where
  | nothing
      (main : next.stage.mainRun = call.stage.mainRun)
      (before : ∀ run, call.stage ≠ .record run)
      (after : ∀ run, next.stage ≠ .record run)
  | settled {run : Run V} {handler : Handler}
      (isOk : answer = .ok run)
      (atMain : call.stage = .main handler)
      (main : next.stage.mainRun = some run)
      (after : ∀ other, next.stage ≠ .record other)
      (untracked : ¬ (run.status.terminal = false ∧ call.request.opts ≠ []))
  | unfinished {run : Run V} {handler : Handler}
      (isOk : answer = .ok run)
      (atMain : call.stage = .main handler)
      (stage : next.stage = .record run)
      (running : run.status.terminal = false)
      (options : call.request.opts ≠ [])

@[simp]
theorem mainRun_afterPre (call : Call V) (handler : Handler)
    (rest : List Handler) (answer : Answer V) :
    (call.afterPre handler rest answer).mainRun = none := by
  cases answer with
  | error cause => rfl
  | ok run =>
      simp only [afterPre]
      split
      · rfl
      · exact Stage.mainRun_toPre ..

theorem submit_request (submitted : call.submit answer = some next) :
    next.request = call.request := by
  rw [submit] at submitted
  split at submitted <;> cases submitted <;> rfl

theorem submit_reports (submitted : call.submit answer = some next) :
    call.Reports answer next := by
  rw [submit] at submitted
  split at submitted
  · next handler rest stage =>
      cases submitted
      have none := mainRun_afterPre call handler rest answer
      refine .nothing ?_ ?_ (Stage.ne_record_of_mainRun_eq_none none)
      · rw [stage]
        exact none
      · simp [stage]
  · next handler stage =>
      cases submitted
      have none : call.stage.mainRun = none := by
        rw [stage]
        rfl
      cases answer with
      | error cause =>
          exact .nothing none.symm (Stage.ne_record_of_mainRun_eq_none none)
            (Stage.ne_record_of_mainRun_eq_none rfl)
      | ok run =>
          by_cases tracked : run.status.terminal = false ∧ call.request.opts ≠ []
          · exact .unfinished rfl stage (if_pos tracked) tracked.1 tracked.2
          · have goesOn : (call.answered handler call.request.input (.ok run)
                (call.afterMain handler (.ok run))).stage =
                Stage.toPost (some run) (call.handlers.filter Handler.isPost) :=
              if_neg tracked
            refine .settled rfl stage ?_ ?_ tracked
            · rw [goesOn]
              exact Stage.mainRun_toPost ..
            · rw [goesOn]
              exact Stage.toPost_ne_record _ _
  · cases submitted
  · next handler rest mainRun stage =>
      cases submitted
      refine .nothing ?_ ?_ (Stage.toPost_ne_record mainRun rest)
      · rw [stage]
        exact Stage.mainRun_toPost mainRun rest
      · simp [stage]
  · cases submitted

/-- A main run is new with the answer that reports it. -/
theorem Reports.mainRun (reports : call.Reports answer next)
    (main : next.stage.mainRun = some run) :
    call.stage.mainRun = some run ∨
      answer = .ok run ∧ ∃ handler, call.stage = .main handler := by
  cases reports with
  | nothing same => exact Or.inl (same.symm.trans main)
  | settled isOk atMain other =>
      cases other.symm.trans main
      exact Or.inr ⟨isOk, _, atMain⟩
  | unfinished isOk atMain stage =>
      rw [stage] at main
      cases main
      exact Or.inr ⟨isOk, _, atMain⟩

theorem Reports.tracks (reports : call.Reports answer next)
    (request : next.request = call.request) (tracks : next.Tracks run) :
    call.Tracks run ∨
      answer = .ok run ∧ ∃ handler, call.stage = .main handler := by
  rcases reports.mainRun tracks.main with old | new
  · exact Or.inl ⟨old, tracks.unfinished, request ▸ tracks.options⟩
  · exact Or.inr new

/-- No answer of `Submit` records a run, or undoes a record. -/
theorem Reports.recorded_iff (reports : call.Reports answer next)
    (request : next.request = call.request) :
    next.Recorded run ↔ call.Recorded run := by
  cases reports with
  | nothing same before after =>
      constructor
      · intro recorded
        exact ⟨same.symm.trans recorded.main, recorded.unfinished,
          request ▸ recorded.options, before⟩
      · intro recorded
        exact ⟨same.trans recorded.main, recorded.unfinished,
          request ▸ recorded.options, after⟩
  | settled _ atMain main _ untracked =>
      refine iff_of_false ?_ ?_
      · intro recorded
        cases main.symm.trans recorded.main
        exact untracked ⟨recorded.unfinished, request ▸ recorded.options⟩
      · intro recorded
        cases (congrArg Stage.mainRun atMain).symm.trans recorded.main
  | unfinished _ atMain stage =>
      refine iff_of_false ?_ ?_
      · intro recorded
        exact recorded.past _ stage
      · intro recorded
        cases (congrArg Stage.mainRun atMain).symm.trans recorded.main

theorem owns_of_submit (submitted : call.submit answer = some next)
    {entry : TrackedRun} (owns : call.Owns entry) :
    next.Owns entry := by
  have request := submit_request submitted
  rcases owns.recorded with ⟨run, recorded, sameID⟩
  have kept := ((submit_reports submitted).recorded_iff request).mpr recorded
  exact
    ⟨⟨run, kept, sameID⟩, request ▸ owns.resourceType, request ▸ owns.event,
      request ▸ owns.options⟩

/-- Recording the main run. -/
theorem recorded_recorded_iff {main : Run V}
    (unfinished : main.status.terminal = false)
    (options : call.request.opts ≠ []) :
    (call.recorded main).Recorded run ↔ run = main := by
  constructor
  · intro recorded
    have stored := recorded.main
    simp only [Call.recorded, Stage.mainRun_toPost] at stored
    exact (Option.some.inj stored).symm
  · rintro rfl
    exact ⟨Stage.mainRun_toPost .., unfinished, options,
      Stage.toPost_ne_record _ _⟩

end Call

/-! ## The invariant -/

/-- A run that is to be tracked has an identifier that no such run has. -/
def DistinctIDs (world : World ι V) (label : Label ι V) (_ : World ι V) : Prop :=
  ∀ client run handler, label = .submit client (.ok run) →
    (world.calls client).stage = .main handler →
    run.status.terminal = false → (world.calls client).request.opts ≠ [] →
    ∀ other otherRun, (world.calls other).Tracks otherRun → otherRun.id ≠ run.id

/-- The polling loop works on entries that are tracked, each once. -/
structure Poller.Sound (poller : Poller V) (tracked : Tracked)
    (log : List (Event V)) : Prop where
  waiting : ∀ entry ∈ poller.waiting, tracked.find entry.runID = some entry
  distinct :
    ((poller.removing.toList ++ poller.waiting).map TrackedRun.runID).Nodup
  removing : ∀ entry, poller.removing = some entry →
    tracked.find entry.runID = some entry ∧ callbacksOf entry.runID log = 1
  uncalled : ∀ entry, tracked.find entry.runID = some entry →
    poller.removing ≠ some entry → callbacksOf entry.runID log = 0
  terminal : ∀ entry run rest, poller = .calling entry run rest →
    run.status.terminal = true

/-- Whose the runs are, and what is known about their callbacks. -/
structure World.Valid (world : World ι V) : Prop where
  awaiting : ∀ client run, (world.calls client).stage = .record run →
    run.status.terminal = false ∧ (world.calls client).request.opts ≠ []
  distinct : ∀ client other run otherRun,
    (world.calls client).Tracks run → (world.calls other).Tracks otherRun →
    run.id = otherRun.id → client = other
  tracked : ∀ entry, world.tracked.find entry.runID = some entry →
    ∃ client, (world.calls client).Owns entry
  recorded : ∀ client run, (world.calls client).Recorded run →
    (world.tracked.find run.id).isSome = true ∨
      callbacksOf run.id world.log = 1
  polled : ∀ entry run, .polled entry run ∈ world.log →
    ∃ client, (world.calls client).Owns entry
  called : ∀ entry run error, .called entry run error ∈ world.log →
    run.status.terminal = true ∧ ∃ client, (world.calls client).Owns entry
  poller : world.poller.Sound world.tracked world.log

/-! ## The log -/

section Log

variable {log : List (Event V)} {answer : Answer V} {entry polled : TrackedRun}
variable {run : Run V} {error : Option String}

theorem called_mem_of_polled
    (member : .called entry run error ∈ log ++ World.pollEvents polled answer) :
    .called entry run error ∈ log := by
  apply (List.mem_append.mp member).resolve_right
  rintro new
  rcases World.mem_pollEvents_iff.mp new with ⟨_, _, ⟨⟩⟩

end Log

@[simp]
theorem callbacksOf_append (id : String) (log more : List (Event V)) :
    callbacksOf id (log ++ more) = callbacksOf id log + callbacksOf id more :=
  List.countP_append

@[simp]
theorem callbacksOf_pollEvents (id : String) (entry : TrackedRun)
    (answer : Answer V) :
    callbacksOf id (World.pollEvents entry answer) = 0 := by
  cases answer <;> rfl

theorem callbacksOf_called (id : String) (entry : TrackedRun) (run : Run V)
    (error : Option String) :
    callbacksOf id [.called entry run error] =
      if entry.runID = id then 1 else 0 := by
  by_cases same : entry.runID = id <;> simp [callbacksOf, Event.isCalled, same]

theorem exists_called {id : String} {log : List (Event V)}
    (called : callbacksOf id log ≠ 0) :
    ∃ entry run error, .called entry run error ∈ log ∧ entry.runID = id := by
  rcases List.countP_pos_iff.mp (Nat.pos_of_ne_zero called) with
    ⟨event, member, isCalled⟩
  cases event with
  | called entry run error =>
      exact ⟨entry, run, error, member, of_decide_eq_true isCalled⟩
  | polled entry run => cases isCalled

/-- Events other than a callback are of no concern to the polling loop. -/
theorem Poller.Sound.of_log {poller : Poller V} {tracked : Tracked}
    {log after : List (Event V)}
    (sound : poller.Sound tracked log)
    (same : ∀ id, callbacksOf id after = callbacksOf id log) :
    poller.Sound tracked after where
  waiting := sound.waiting
  distinct := sound.distinct
  removing entry removing := by
    rw [same]
    exact sound.removing entry removing
  uncalled entry found kept := by
    rw [same]
    exact sound.uncalled entry found kept
  terminal := sound.terminal

/-- An entry that was not tracked and never called may be tracked meanwhile. -/
theorem Poller.Sound.put {poller : Poller V} {tracked : Tracked}
    {log : List (Event V)} {added : TrackedRun}
    (sound : poller.Sound tracked log)
    (untracked : tracked.find added.runID = none)
    (unreported : callbacksOf added.runID log = 0) :
    poller.Sound (tracked.put added) log := by
  have found : ∀ id, (tracked.put added).find id =
      if id = added.runID then some added else tracked.find id :=
    KeyedTable.find_put tracked added
  have kept : ∀ entry, tracked.find entry.runID = some entry →
      (tracked.put added).find entry.runID = some entry := by
    intro entry stored
    rw [found, if_neg]
    · exact stored
    · intro sameID
      rw [sameID, untracked] at stored
      cases stored
  constructor
  case waiting =>
    intro entry member
    exact kept entry (sound.waiting entry member)
  case distinct => exact sound.distinct
  case removing =>
    intro entry removing
    rcases sound.removing entry removing with ⟨stored, once⟩
    exact ⟨kept entry stored, once⟩
  case uncalled =>
    intro entry stored notRemoving
    rw [found] at stored
    split at stored
    · next sameID =>
        rw [sameID]
        exact unreported
    · exact sound.uncalled entry stored notRemoving
  case terminal => exact sound.terminal

/-- Going on with entries that are tracked and not yet called. -/
theorem Poller.Sound.next {tracked : Tracked} {log : List (Event V)}
    {rest : List TrackedRun}
    (waiting : ∀ entry ∈ rest, tracked.find entry.runID = some entry)
    (distinct : (rest.map TrackedRun.runID).Nodup)
    (uncalled : ∀ entry : TrackedRun, tracked.find entry.runID = some entry →
      callbacksOf entry.runID log = 0) :
    (Poller.next rest).Sound tracked log where
  waiting := by
    rw [Poller.next_waiting]
    exact waiting
  distinct := by
    rw [Poller.next_waiting, Poller.next_removing]
    exact distinct
  removing entry removing := by
    rw [Poller.next_removing] at removing
    cases removing
  uncalled entry stored _ := uncalled entry stored
  terminal entry run others calling :=
    absurd calling (Poller.next_ne_calling rest entry run others)

namespace World

variable {world next : World ι V} {label : Label ι V}

/-- An entry has one owner. -/
theorem Valid.owner_eq (valid : world.Valid) {client other : ι} {run : Run V}
    {entry : TrackedRun}
    (tracks : (world.calls client).Tracks run)
    (owns : (world.calls other).Owns entry)
    (sameID : entry.runID = run.id) :
    other = client ∧ (world.calls client).Recorded run := by
  rcases owns.recorded with ⟨otherRun, recorded, otherID⟩
  have same := valid.distinct other client otherRun run recorded.tracks tracks
    (otherID.trans sameID)
  subst same
  cases recorded.main.symm.trans tracks.main
  exact ⟨rfl, recorded⟩

/-- A run that is about to be recorded is neither tracked nor reported. -/
theorem Valid.fresh_of_awaiting (valid : world.Valid) {client : ι} {run : Run V}
    (stage : (world.calls client).stage = .record run) :
    world.tracked.find run.id = none ∧ callbacksOf run.id world.log = 0 := by
  have tracks : (world.calls client).Tracks run := by
    rcases valid.awaiting client run stage with ⟨unfinished, options⟩
    refine ⟨?_, unfinished, options⟩
    rw [stage]
    rfl
  have unowned : ∀ other entry, (world.calls other).Owns entry →
      entry.runID ≠ run.id := by
    intro other entry owns sameID
    exact (valid.owner_eq tracks owns sameID).2.past run stage
  constructor
  · by_contra found
    rcases Option.ne_none_iff_exists'.mp found with ⟨entry, found⟩
    have sameID : entry.runID = run.id := KeyedTable.key_of_find found
    rw [← sameID] at found
    rcases valid.tracked entry found with ⟨other, owns⟩
    exact unowned other entry owns sameID
  · by_contra called
    rcases exists_called called with ⟨entry, reported, error, member, sameID⟩
    rcases (valid.called entry reported error member).2 with ⟨other, owns⟩
    exact unowned other entry owns sameID

variable [DecidableEq ι]

section Submits

variable {client : ι} {answer : Answer V} {call : Call V} {run : Run V}

theorem owns_update_of_submit
    (submits : (world.calls client).submit answer = some call)
    {entry : TrackedRun} :
    ∀ other, (world.calls other).Owns entry →
      (Function.update world.calls client call other).Owns entry := by
  refine (Function.forall_update_iff world.calls (fun other updated =>
    (world.calls other).Owns entry → updated.Owns entry)).mpr ⟨?_, ?_⟩
  · exact Call.owns_of_submit submits
  · exact fun _ _ owns => owns

/-- A run to be tracked that is new is the one that was reported. -/
theorem tracks_update_of_submit
    (submits : (world.calls client).submit answer = some call) :
    ∀ other, (Function.update world.calls client call other).Tracks run →
      (world.calls other).Tracks run ∨
        other = client ∧ answer = .ok run ∧
          ∃ handler, (world.calls client).stage = .main handler := by
  refine (Function.forall_update_iff world.calls (fun other updated =>
    updated.Tracks run → (world.calls other).Tracks run ∨
      other = client ∧ answer = .ok run ∧
        ∃ handler, (world.calls client).stage = .main handler)).mpr ⟨?_, ?_⟩
  · intro tracks
    exact ((Call.submit_reports submits).tracks (Call.submit_request submits)
      tracks).imp_right (fun reported => ⟨rfl, reported⟩)
  · exact fun _ _ tracks => Or.inl tracks

theorem recorded_update_of_submit
    (submits : (world.calls client).submit answer = some call) :
    ∀ other, (Function.update world.calls client call other).Recorded run ↔
      (world.calls other).Recorded run := by
  refine (Function.forall_update_iff world.calls (fun other updated =>
    updated.Recorded run ↔ (world.calls other).Recorded run)).mpr ⟨?_, ?_⟩
  · exact (Call.submit_reports submits).recorded_iff
      (Call.submit_request submits)
  · exact fun _ _ => Iff.rfl

end Submits

/-- `Submit` of one call returns; a run to be tracked has a new identifier. -/
theorem Valid.submit (valid : world.Valid) {client : ι} {answer : Answer V}
    {call : Call V}
    (submits : (world.calls client).submit answer = some call)
    (distinctIDs : DistinctIDs world (.submit client answer) next) :
    Valid { world with calls := Function.update world.calls client call } := by
  have fresh {run : Run V} {handler : Handler} (isOk : answer = .ok run)
      (atMain : (world.calls client).stage = .main handler)
      (tracks : (Function.update world.calls client call client).Tracks run) :
      ∀ other otherRun, (world.calls other).Tracks otherRun →
        otherRun.id ≠ run.id := by
    rw [Function.update_self] at tracks
    exact distinctIDs client run handler (congrArg _ isOk) atMain
      tracks.unfinished (Call.submit_request submits ▸ tracks.options)
  constructor
  case awaiting =>
    refine (Function.forall_update_iff world.calls (fun _ updated =>
      ∀ run, updated.stage = .record run →
        run.status.terminal = false ∧ updated.request.opts ≠ [])).mpr ⟨?_, ?_⟩
    · intro run stage
      rw [Call.submit_request submits]
      cases Call.submit_reports submits with
      | nothing _ _ after => exact absurd stage (after run)
      | settled _ _ _ after => exact absurd stage (after run)
      | unfinished _ _ awaits running options =>
          cases awaits.symm.trans stage
          exact ⟨running, options⟩
    · exact fun other _ => valid.awaiting other
  case distinct =>
    intro other another run anotherRun tracks anotherTracks sameID
    rcases tracks_update_of_submit submits other tracks with
        old | ⟨rfl, isOk, handler, atMain⟩ <;>
      rcases tracks_update_of_submit submits another anotherTracks with
        anotherOld | ⟨rfl, anotherOk, handler, atMain⟩
    · exact valid.distinct other another run anotherRun old anotherOld sameID
    · exact absurd sameID (fresh anotherOk atMain anotherTracks other run old)
    · exact absurd sameID.symm
        (fresh isOk atMain tracks another anotherRun anotherOld)
    · rfl
  case tracked =>
    intro entry found
    rcases valid.tracked entry found with ⟨owner, owns⟩
    exact ⟨owner, owns_update_of_submit submits owner owns⟩
  case recorded =>
    intro other run recorded
    exact valid.recorded other run
      ((recorded_update_of_submit submits other).mp recorded)
  case polled =>
    intro entry run member
    rcases valid.polled entry run member with ⟨owner, owns⟩
    exact ⟨owner, owns_update_of_submit submits owner owns⟩
  case called =>
    intro entry run error member
    rcases valid.called entry run error member with ⟨terminal, owner, owns⟩
    exact ⟨terminal, owner, owns_update_of_submit submits owner owns⟩
  case poller => exact valid.poller

section Records

variable {client : ι} {run : Run V}

omit [DecidableEq ι] in
theorem not_recorded_of_awaiting (stage : (world.calls client).stage = .record run)
    (other : Run V) : ¬ (world.calls client).Recorded other :=
  fun recorded => recorded.past run stage

theorem tracks_update_recorded
    (stage : (world.calls client).stage = .record run) {otherRun : Run V} :
    ∀ other,
      (Function.update world.calls client
        ((world.calls client).recorded run) other).Tracks otherRun →
      (world.calls other).Tracks otherRun := by
  refine (Function.forall_update_iff world.calls (fun other updated =>
    updated.Tracks otherRun → (world.calls other).Tracks otherRun)).mpr ⟨?_, ?_⟩
  · intro tracks
    refine ⟨?_, tracks.unfinished, tracks.options⟩
    rw [stage]
    exact (Stage.mainRun_toPost ..).symm.trans tracks.main
  · exact fun _ _ tracks => tracks

/-- A call that awaits its record owns no entry yet. -/
theorem owns_update_recorded
    (stage : (world.calls client).stage = .record run) {entry : TrackedRun} :
    ∀ other, (world.calls other).Owns entry →
      (Function.update world.calls client
        ((world.calls client).recorded run) other).Owns entry := by
  refine (Function.forall_update_iff world.calls (fun other updated =>
    (world.calls other).Owns entry → updated.Owns entry)).mpr ⟨?_, ?_⟩
  · intro owns
    rcases owns.recorded with ⟨earlier, recorded, _⟩
    exact absurd recorded (not_recorded_of_awaiting stage earlier)
  · exact fun _ _ owns => owns

/-- The one run that becomes recorded. -/
theorem Valid.recorded_update_recorded (valid : world.Valid)
    (stage : (world.calls client).stage = .record run) {otherRun : Run V} :
    ∀ other,
      (Function.update world.calls client
        ((world.calls client).recorded run) other).Recorded otherRun ↔
      (other = client ∧ otherRun = run) ∨
        (world.calls other).Recorded otherRun := by
  rcases valid.awaiting client run stage with ⟨unfinished, someOptions⟩
  refine (Function.forall_update_iff world.calls (fun other updated =>
    updated.Recorded otherRun ↔ (other = client ∧ otherRun = run) ∨
      (world.calls other).Recorded otherRun)).mpr ⟨?_, ?_⟩
  · rw [Call.recorded_recorded_iff unfinished someOptions,
      or_iff_left (not_recorded_of_awaiting stage otherRun), and_iff_right rfl]
  · intro other different
    rw [or_iff_right (fun both => different both.1)]

end Records

/-- A call records its main run. -/
theorem Valid.record (valid : world.Valid) {client : ι} {run : Run V}
    {opts : DispatchOpts} {others : List DispatchOpts} (now : Time)
    (stage : (world.calls client).stage = .record run)
    (options : (world.calls client).request.opts = opts :: others) :
    Valid { world with
      calls := Function.update world.calls client
        ((world.calls client).recorded run)
      tracked := world.tracked.put
        ((world.calls client).request.track opts run now) } := by
  have fresh := valid.fresh_of_awaiting stage
  have found : ∀ id, (world.tracked.put
      ((world.calls client).request.track opts run now)).find id =
        if id = run.id then
          some ((world.calls client).request.track opts run now)
        else world.tracked.find id :=
    KeyedTable.find_put world.tracked _
  constructor
  case awaiting =>
    refine (Function.forall_update_iff world.calls (fun _ updated =>
      ∀ run, updated.stage = .record run →
        run.status.terminal = false ∧ updated.request.opts ≠ [])).mpr ⟨?_, ?_⟩
    · intro otherRun otherStage
      exact absurd otherStage (Stage.toPost_ne_record _ _ _)
    · exact fun other _ => valid.awaiting other
  case distinct =>
    intro other another otherRun anotherRun tracks anotherTracks
    exact valid.distinct other another otherRun anotherRun
      (tracks_update_recorded stage other tracks)
      (tracks_update_recorded stage another anotherTracks)
  case tracked =>
    intro entry stored
    rw [found] at stored
    split at stored
    · cases stored
      have nowRecorded :=
        (valid.recorded_update_recorded stage client).mpr (Or.inl ⟨rfl, rfl⟩)
      refine ⟨client, ⟨run, nowRecorded, rfl⟩, ?_, ?_, ?_⟩ <;>
        simp [Call.recorded, Request.track, options]
    · rcases valid.tracked entry stored with ⟨owner, owns⟩
      exact ⟨owner, owns_update_recorded stage owner owns⟩
  case recorded =>
    intro other otherRun recorded
    rw [found]
    split
    · exact Or.inl rfl
    · next different =>
        rcases (valid.recorded_update_recorded stage other).mp recorded with
          ⟨_, rfl⟩ | old
        · exact absurd rfl different
        · exact valid.recorded other otherRun old
  case polled =>
    intro entry otherRun member
    rcases valid.polled entry otherRun member with ⟨owner, owns⟩
    exact ⟨owner, owns_update_recorded stage owner owns⟩
  case called =>
    intro entry otherRun error member
    rcases valid.called entry otherRun error member with ⟨terminal, owner, owns⟩
    exact ⟨terminal, owner, owns_update_recorded stage owner owns⟩
  case poller => exact valid.poller.put fresh.1 fresh.2

/-! The steps of the polling loop leave the calls alone. -/

omit [DecidableEq ι] in
theorem Valid.copy (valid : world.Valid) {order : List TrackedRun}
    (idle : world.poller = .idle)
    (permutes : order.Perm world.tracked.rows) :
    Valid { world with poller := Poller.next order } := by
  have sound := valid.poller
  rw [idle] at sound
  refine { valid with poller := .next ?_ ?_ ?_ }
  · intro entry member
    exact KeyedTable.find_key (permutes.mem_iff.mp member)
  · exact ((permutes.map TrackedRun.runID).nodup_iff).mpr world.tracked.distinct
  · intro entry stored
    exact sound.uncalled entry stored (by simp [Poller.removing])

omit [DecidableEq ι] in
theorem Valid.poll (valid : world.Valid) {entry : TrackedRun}
    {rest : List TrackedRun} (answer : Answer V)
    (polling : world.poller = .polling entry rest) :
    Valid { world with
      poller := World.polled entry rest answer
      log := world.log ++ pollEvents entry answer } := by
  have sound := valid.poller
  rw [polling] at sound
  have stored := sound.waiting entry (List.mem_cons_self ..)
  have counts : ∀ id, callbacksOf id (world.log ++ pollEvents entry answer) =
      callbacksOf id world.log := by
    intro id
    rw [callbacksOf_append, callbacksOf_pollEvents, Nat.add_zero]
  have skipped : (Poller.next rest).Sound world.tracked world.log := by
    refine .next ?_ (List.nodup_cons.mp sound.distinct).2 ?_
    · intro other member
      exact sound.waiting other (List.mem_cons_of_mem entry member)
    · intro other found
      exact sound.uncalled other found (by simp [Poller.removing])
  have after : (World.polled entry rest answer).Sound world.tracked
      world.log := by
    cases answer with
    | error cause => exact skipped
    | ok run =>
        simp only [World.polled]
        split
        · next terminal =>
            refine ⟨sound.waiting, sound.distinct, sound.removing,
              sound.uncalled, ?_⟩
            rintro other otherRun others equal
            cases equal
            exact terminal
        · exact skipped
  refine { valid with
    recorded := ?_, polled := ?_, called := ?_, poller := after.of_log counts }
  · intro client run recorded
    rw [counts]
    exact valid.recorded client run recorded
  · intro other run member
    rcases List.mem_append.mp member with old | new
    · exact valid.polled other run old
    · rcases mem_pollEvents_iff.mp new with ⟨answered, _, equal⟩
      cases equal
      exact valid.tracked entry stored
  · intro other run error member
    exact valid.called other run error (called_mem_of_polled member)

omit [DecidableEq ι] in
theorem Valid.callback (valid : world.Valid) {entry : TrackedRun} {run : Run V}
    {rest : List TrackedRun} (error : Option String)
    (calling : world.poller = .calling entry run rest) :
    Valid { world with
      poller := .deleting entry rest
      log := world.log ++ [.called entry run error] } := by
  have sound := valid.poller
  rw [calling] at sound
  have stored := sound.waiting entry (List.mem_cons_self ..)
  have before := sound.uncalled entry stored (by simp [Poller.removing])
  have counts : ∀ id,
      callbacksOf id (world.log ++ [.called entry run error]) =
        callbacksOf id world.log + if entry.runID = id then 1 else 0 := by
    intro id
    rw [callbacksOf_append, callbacksOf_called]
  refine { valid with
    recorded := ?_, polled := ?_, called := ?_, poller := ?_ }
  · intro client other recorded
    by_cases sameID : entry.runID = other.id
    · rw [sameID] at stored
      exact Or.inl (Option.isSome_of_eq_some stored)
    · rw [counts, if_neg sameID]
      exact valid.recorded client other recorded
  · intro other otherRun member
    rcases List.mem_append.mp member with old | new
    · exact valid.polled other otherRun old
    · cases List.mem_singleton.mp new
  · intro other otherRun otherError member
    rcases List.mem_append.mp member with old | new
    · exact valid.called other otherRun otherError old
    · cases List.mem_singleton.mp new
      exact ⟨sound.terminal entry run rest rfl, valid.tracked entry stored⟩
  · constructor
    case waiting =>
      intro other member
      exact sound.waiting other (List.mem_cons_of_mem entry member)
    case distinct => exact sound.distinct
    case removing =>
      intro other removing
      cases removing
      rw [counts, if_pos rfl, before]
      exact ⟨stored, rfl⟩
    case uncalled =>
      intro other found notRemoving
      have different : entry.runID ≠ other.runID := by
        intro sameID
        rw [sameID, found] at stored
        exact notRemoving stored.symm
      rw [counts, if_neg different]
      exact sound.uncalled other found (by simp [Poller.removing])
    case terminal =>
      intro other otherRun others impossible
      cases impossible

omit [DecidableEq ι] in
theorem Valid.delete (valid : world.Valid) {entry : TrackedRun}
    {rest : List TrackedRun}
    (deleting : world.poller = .deleting entry rest) :
    Valid { world with
      tracked := world.tracked.erase entry.runID
      poller := Poller.next rest } := by
  have sound := valid.poller
  rw [deleting] at sound
  rcases sound.removing entry rfl with ⟨stored, once⟩
  have found : ∀ id, (world.tracked.erase entry.runID).find id =
      if id = entry.runID then none else world.tracked.find id :=
    KeyedTable.find_erase world.tracked _
  have old : ∀ other : TrackedRun,
      (world.tracked.erase entry.runID).find other.runID = some other →
      other.runID ≠ entry.runID ∧
        world.tracked.find other.runID = some other := by
    intro other kept
    rw [found] at kept
    split at kept
    · cases kept
    · next different => exact ⟨different, kept⟩
  refine { valid with
    tracked := ?_, recorded := ?_,
    poller := .next ?_ (List.nodup_cons.mp sound.distinct).2 ?_ }
  · intro other kept
    exact valid.tracked other (old other kept).2
  · intro client run recorded
    by_cases sameID : run.id = entry.runID
    · rw [sameID]
      exact Or.inr once
    · rw [found, if_neg sameID]
      exact valid.recorded client run recorded
  · intro other member
    have different : other.runID ≠ entry.runID := by
      intro sameID
      have fresh := (List.nodup_cons.mp sound.distinct).1
      exact fresh (sameID ▸ List.mem_map_of_mem member)
    rw [found, if_neg different]
    exact sound.waiting other member
  · intro other kept
    rcases old other kept with ⟨different, stored⟩
    refine sound.uncalled other stored ?_
    rintro removing
    cases removing
    exact different rfl

theorem Moves.valid (moves : world.Moves label next) (valid : world.Valid)
    (distinctIDs : DistinctIDs world label next) :
    next.Valid := by
  cases moves with
  | submitted submits => exact valid.submit submits distinctIDs
  | recorded stage options => exact valid.record _ stage options
  | copied idle permutes => exact valid.copy idle permutes
  | polled polling => exact valid.poll _ polling
  | called calling => exact valid.callback _ calling
  | deleted deleting => exact valid.delete deleting

/-- Before the first `Submit`: nothing is tracked and the loop is idle. -/
structure Initial (world : World ι V) : Prop where
  calls : ∀ client, ∃ request handlers,
    world.calls client = Call.start request handlers
  tracked : world.tracked = KeyedTable.empty
  poller : world.poller = .idle
  log : world.log = []

omit [DecidableEq ι] in
theorem Initial.mainRun (initial : world.Initial) (client : ι) :
    (world.calls client).stage.mainRun = none := by
  rcases initial.calls client with ⟨request, handlers, start⟩
  rw [start, Call.start]
  split
  · rfl
  · exact Stage.mainRun_toPre ..

omit [DecidableEq ι] in
theorem Initial.valid (initial : world.Initial) : world.Valid := by
  have mainRun := initial.mainRun
  constructor
  case awaiting =>
    intro client run stage
    exact absurd stage (Stage.ne_record_of_mainRun_eq_none (mainRun client) run)
  case distinct =>
    intro client other run otherRun tracks
    cases (mainRun client).symm.trans tracks.main
  case tracked =>
    intro entry found
    rw [initial.tracked] at found
    cases found
  case recorded =>
    intro client run recorded
    cases (mainRun client).symm.trans recorded.main
  case polled =>
    intro entry run member
    rw [initial.log] at member
    cases member
  case called =>
    intro entry run error member
    rw [initial.log] at member
    cases member
  case poller =>
    rw [initial.tracked, initial.poller, initial.log]
    change (Poller.next []).Sound KeyedTable.empty []
    refine .next ?_ List.nodup_nil ?_
    · intro entry member
      cases member
    · intro entry _
      rfl

theorem run_valid {start final : World ι V} {labels : List (Label ι V)}
    (initial : start.Initial)
    (distinctIDs : AllSteps step DistinctIDs start labels)
    (reached : run step start labels = some final) :
    final.Valid :=
  AllSteps.run_invariant Valid
    (fun _ _ _ valid stepped distinct =>
      (step_moves stepped).valid valid distinct)
    initial.valid distinctIDs reached

omit [DecidableEq ι] in
/-- A recorded run is reported at most once. -/
theorem Valid.callbacksOf_le (valid : world.Valid) (id : String) :
    callbacksOf id world.log ≤ 1 := by
  by_contra many
  have called : callbacksOf id world.log ≠ 0 := by omega
  rcases exists_called called with ⟨entry, run, error, member, rfl⟩
  rcases (valid.called entry run error member).2 with ⟨client, owns⟩
  rcases owns.recorded with ⟨main, recorded, sameID⟩
  rcases valid.recorded client main recorded with tracked | once
  · rw [sameID] at tracked
    rcases Option.isSome_iff_exists.mp tracked with ⟨stored, found⟩
    have key : stored.runID = entry.runID := KeyedTable.key_of_find found
    rw [← key] at found called many
    by_cases removing : world.poller.removing = some stored
    · have once := (valid.poller.removing stored removing).2
      omega
    · exact called (valid.poller.uncalled stored found removing)
  · rw [sameID] at once
    omega

end World

variable [DecidableEq ι]

/--
However the calls of `Dispatch` and the polling loop interleave and whatever
`Poll` answers, an unfinished main run that its call has recorded is tracked or
was reported once, no run is reported twice, and the callback is only invoked
with a finished run and with the resource of the call that submitted it.
-/
theorem tracked_runs_reported_once
    {start final : World ι V} (labels : List (Label ι V))
    (initial : start.Initial)
    (distinctIDs : AllSteps World.step DistinctIDs start labels)
    (reached : run World.step start labels = some final) :
    (∀ client run,
      (final.calls client).stage.mainRun = some run →
      run.status.terminal = false →
      (final.calls client).request.opts ≠ [] →
      (final.calls client).stage ≠ .record run →
      (final.tracked.find run.id).isSome = true ∨
        callbacksOf run.id final.log = 1) ∧
    (∀ id, callbacksOf id final.log ≤ 1) ∧
    ∀ entry run error, .called entry run error ∈ final.log →
      run.status.terminal = true ∧
        ∃ client main,
          (final.calls client).stage.mainRun = some main ∧
            main.id = entry.runID ∧
            entry.resourceType = (final.calls client).request.resourceType ∧
            entry.event = (final.calls client).request.event ∧
            (final.calls client).request.opts.head? =
              some ⟨entry.orgID, entry.name⟩ := by
  have valid := World.run_valid initial distinctIDs reached
  refine ⟨?_, valid.callbacksOf_le, ?_⟩
  · intro client run main unfinished options past
    apply valid.recorded client run
    refine ⟨main, unfinished, options, ?_⟩
    intro other stage
    rw [stage] at main past
    cases main
    exact past rfl
  · intro entry run error member
    rcases valid.called entry run error member with ⟨terminal, client, owns⟩
    rcases owns.recorded with ⟨main, recorded, sameID⟩
    exact ⟨terminal, client, main, recorded.main, sameID, owns.resourceType,
      owns.event, owns.options⟩

/-- Calls that each provision a machine; those after the first find no handler. -/
def provisioning : World Nat Nat where
  calls client :=
    Call.start ⟨"vm", "create", none, [⟨1, "a"⟩]⟩
      (if client = 0 then [provision] else [])
  tracked := KeyedTable.empty
  poller := .idle
  log := []

theorem provisioning_initial : provisioning.Initial :=
  ⟨fun _ => ⟨_, _, rfl⟩, rfl, rfl, rfl⟩

def provisioned : TrackedRun :=
  ⟨"run", "vm", 1, "a", "create", 5⟩

/-- A run that is pending at first, cannot be polled once, and then completes. -/
def pollTwice : List (Label Nat Nat) :=
  [.submit 0 (.ok ⟨"run", .pending, none, ""⟩), .record 0 5,
    .snapshot [provisioned], .poll (.error "unreachable"),
    .snapshot [provisioned], .poll (.ok ⟨"run", .completed, none, ""⟩),
    .callback none, .delete, .snapshot []]

theorem pollTwice_distinctIDs :
    AllSteps World.step DistinctIDs provisioning pollTwice := by
  have other {world next : World Nat Nat} {label : Label Nat Nat}
      (notSubmit : ∀ client answer, label ≠ .submit client answer) :
      DistinctIDs world label next :=
    fun client run _ isSubmit => absurd isSubmit (notSubmit client (.ok run))
  refine .cons rfl ?_ ?_
  · intro client run handler _ _ _ _ other otherRun tracks
    cases (provisioning_initial.mainRun other).symm.trans tracks.main
  refine .cons rfl (other (by simp)) ?_
  refine .cons rfl (other (by simp)) ?_
  refine .cons rfl (other (by simp)) ?_
  refine .cons rfl (other (by simp)) ?_
  refine .cons rfl (other (by simp)) ?_
  refine .cons rfl (other (by simp)) ?_
  refine .cons rfl (other (by simp)) ?_
  exact .cons rfl (other (by simp)) trivial

theorem polled_run_reported_once :
    ∃ final,
      run World.step provisioning pollTwice = some final ∧
        final.tracked.find "run" = none ∧
        callbacksOf "run" final.log = 1 := by
  refine ⟨_, rfl, rfl, ?_⟩
  have reported := (tracked_runs_reported_once pollTwice provisioning_initial
    pollTwice_distinctIDs rfl).1 0 ⟨"run", .pending, none, ""⟩ rfl rfl
    (List.cons_ne_nil _ _) (by rintro ⟨⟩)
  exact reported.resolve_left (by decide)

end Infractl.Workflow
