import Infractl.Lib.History
import Infractl.Lib.Run
import Infractl.Store.Model

/-!
# Workflow dispatch

A dispatch table maps a resource type and an event to handlers of three phases.
`Dispatch` submits the handlers of an event to an executor: those of the pre
phase, the first of the main phase, and those of the post phase.

The executor answers each `Submit` with an error or with a run and its status.
Dispatch never polls.  It goes on past a pre-phase run that is still pending,
and submits the post phase whatever the status of the main run, so that the
phases follow each other only when the executor finishes its runs within
`Submit`.
-/

namespace Infractl.Workflow

open Infractl.Lib
open Infractl.Lib.Run
open Infractl.Store (UUID)

/-! ## Handlers -/

/-- `Phase`. -/
inductive Phase where
  | pre
  | main
  | post
  | other (text : String)
deriving DecidableEq

/-- `phaseOrder`. -/
def phaseOrder : Phase → Nat
  | .pre => 0
  | .main => 1
  | .post => 2
  | .other _ => 3

/-- An action registered for an event of a resource type. -/
structure Handler where
  resourceType : String
  event : String
  phase : Phase
  priority : Int
  ref : String
deriving DecidableEq

namespace Handler

def isPre (handler : Handler) : Bool :=
  handler.phase = .pre

def isMain (handler : Handler) : Bool :=
  handler.phase = .main

def isPost (handler : Handler) : Bool :=
  handler.phase = .post

/-- The comparison with which handlers are sorted. -/
def less (left right : Handler) : Bool :=
  if phaseOrder left.phase ≠ phaseOrder right.phase then
    phaseOrder left.phase < phaseOrder right.phase
  else
    left.priority < right.priority

end Handler

/-- The registered handlers under each key, in the order of registration. -/
structure DispatchTable where
  actions : String → List Handler

/-- `dispatchKey`. -/
def dispatchKey (resourceType event : String) : String :=
  resourceType ++ "." ++ event

namespace DispatchTable

/-- `NewDispatchTable`. -/
def new : DispatchTable :=
  ⟨fun _ => []⟩

/-- `Register`. -/
def register (table : DispatchTable) (handler : Handler) : DispatchTable :=
  let key := dispatchKey handler.resourceType handler.event
  ⟨Function.update table.actions key (table.actions key ++ [handler])⟩

/--
What `Lookup` may return.  The sort is not stable, so that handlers of equal
phase and priority may come in any order.
-/
structure Lookup (table : DispatchTable) (resourceType event : String)
    (handlers : List Handler) : Prop where
  permutes : handlers.Perm (table.actions (dispatchKey resourceType event))
  sorted : handlers.Pairwise (fun left right => right.less left = false)

end DispatchTable

/-! ## Runs -/

/-- `RunStatus`. -/
inductive RunStatus where
  | pending
  | running
  | completed
  | failed
  | other (text : String)
deriving DecidableEq

/-- The run is over. -/
def RunStatus.terminal : RunStatus → Bool
  | .completed => true
  | .failed => true
  | _ => false

/-- A map of named values; `none` is the nil map. -/
abbrev Values (V : Type) :=
  Option (String → Option V)

/-- A workflow execution as its executor reports it. -/
structure Run (V : Type) where
  id : String
  status : RunStatus
  outputs : Values V
  error : String

/-- What `Submit` or `Poll` returns. -/
abbrev Answer (V : Type) :=
  Except String (Run V)

variable {V : Type}

def Answer.completed : Answer V → Bool
  | .ok run => run.status = .completed
  | .error _ => false

def Answer.terminal : Answer V → Bool
  | .ok run => run.status.terminal
  | .error _ => false

/-- `mergeInputs`. -/
def mergeInputs (base : Values V) (overlay : String → Option V) : Values V :=
  some (fun key => (overlay key).orElse (fun _ => base.bind (fun map => map key)))

/-! ## A call of Dispatch -/

/-- The resource a run is tracked for. -/
structure DispatchOpts where
  orgID : UUID
  name : String
deriving DecidableEq

/-- The arguments of `Dispatch`. -/
structure Request (V : Type) where
  resourceType : String
  event : String
  input : Values V
  opts : List DispatchOpts

/-- The input of a post-phase handler: the outputs of the main run are merged in. -/
def Request.postInput (request : Request V) (mainRun : Option (Run V)) :
    Values V :=
  match mainRun.bind Run.outputs with
  | none => request.input
  | some outputs => mergeInputs request.input outputs

/-- The errors of `Dispatch`. -/
inductive DispatchError where
  | preSubmit (ref cause : String)
  | preRejected (ref reason : String)
  | mainSubmit (ref cause : String)
deriving DecidableEq

def DispatchError.message (quote : String → String) : DispatchError → String
  | .preSubmit ref cause =>
      "pre-phase handler " ++ quote ref ++ " failed to submit: " ++ cause
  | .preRejected ref reason =>
      "pre-phase handler " ++ quote ref ++ " rejected: " ++ reason
  | .mainSubmit ref cause =>
      "main-phase handler " ++ quote ref ++ " failed to submit: " ++ cause

/-- Where a call is: about to submit a handler, to record a run, or returned. -/
inductive Stage (V : Type) where
  | pre (handler : Handler) (rest : List Handler)
  | main (handler : Handler)
  | record (run : Run V)
  | post (handler : Handler) (rest : List Handler) (mainRun : Option (Run V))
  | returned (result : Except DispatchError (Option (Run V)))

namespace Stage

/-- The post phase with the handlers left. -/
def toPost (mainRun : Option (Run V)) : List Handler → Stage V
  | [] => .returned (.ok mainRun)
  | handler :: rest => .post handler rest mainRun

/-- The main phase: only the first of its handlers is submitted. -/
def toMain (handlers : List Handler) : Stage V :=
  match handlers.find? Handler.isMain with
  | none => toPost none (handlers.filter Handler.isPost)
  | some handler => .main handler

/-- The pre phase with the handlers left. -/
def toPre (handlers : List Handler) : List Handler → Stage V
  | [] => toMain handlers
  | handler :: rest => .pre handler rest

end Stage

/-- A `Submit` that has returned. -/
structure Submission (V : Type) where
  handler : Handler
  input : Values V
  answer : Answer V

/-- A call of `Dispatch`, with the handlers it looked up. -/
structure Call (V : Type) where
  request : Request V
  handlers : List Handler
  stage : Stage V
  submissions : List (Submission V)

/-- `Submit` returns an answer, or the lock is taken and the run recorded. -/
inductive Action (V : Type) where
  | submit (answer : Answer V)
  | record

def Action.answer? : Action V → Option (Answer V)
  | .submit answer => some answer
  | .record => none

namespace Call

/-- A call of `Dispatch` begins. -/
def start (request : Request V) (handlers : List Handler) : Call V where
  request := request
  handlers := handlers
  stage :=
    if handlers = [] then .returned (.ok none)
    else Stage.toPre handlers (handlers.filter Handler.isPre)
  submissions := []

/-- The call after `Submit` of a handler returned. -/
def answered (call : Call V) (handler : Handler) (input : Values V)
    (answer : Answer V) (stage : Stage V) : Call V :=
  { call with
    stage := stage
    submissions := call.submissions ++ [⟨handler, input, answer⟩] }

/-- Where a call goes after a pre-phase handler: an error or a failed run aborts. -/
def afterPre (call : Call V) (handler : Handler) (rest : List Handler) :
    Answer V → Stage V
  | .error cause => .returned (.error (.preSubmit handler.ref cause))
  | .ok run =>
      if run.status = .failed then
        .returned (.error (.preRejected handler.ref run.error))
      else
        Stage.toPre call.handlers rest

/-- Where a call goes after its main handler: unfinished runs are recorded. -/
def afterMain (call : Call V) (handler : Handler) : Answer V → Stage V
  | .error cause => .returned (.error (.mainSubmit handler.ref cause))
  | .ok run =>
      if run.status.terminal = false ∧ call.request.opts ≠ [] then
        .record run
      else
        Stage.toPost (some run) (call.handlers.filter Handler.isPost)

/-- `Submit` returns. -/
def submit (call : Call V) (answer : Answer V) : Option (Call V) :=
  match call.stage with
  | .pre handler rest =>
      some (call.answered handler call.request.input answer
        (call.afterPre handler rest answer))
  | .main handler =>
      some (call.answered handler call.request.input answer
        (call.afterMain handler answer))
  | .record _ => none
  | .post handler rest mainRun =>
      some (call.answered handler (call.request.postInput mainRun) answer
        (Stage.toPost mainRun rest))
  | .returned _ => none

/-- The main run has been recorded. -/
def recorded (call : Call V) (run : Run V) : Call V :=
  { call with
    stage := Stage.toPost (some run) (call.handlers.filter Handler.isPost) }

/-- One step of the call. -/
def step (call : Call V) : Action V → Option (Call V)
  | .submit answer => call.submit answer
  | .record =>
      match call.stage with
      | .record run => some (call.recorded run)
      | _ => none

end Call

/-! ## Which handlers are submitted -/

/-- The handlers that a call submits unless it aborts, in their order. -/
def plan (handlers : List Handler) : List Handler :=
  handlers.filter Handler.isPre ++ (handlers.find? Handler.isMain).toList ++
    handlers.filter Handler.isPost

/-- The handlers that a stage still has to submit; none after an abort. -/
def Stage.Awaits (handlers : List Handler) : Stage V → List Handler → Prop
  | .pre handler rest, waiting =>
      waiting = handler :: rest ++ (handlers.find? Handler.isMain).toList ++
        handlers.filter Handler.isPost
  | .main handler, waiting =>
      waiting = handler :: handlers.filter Handler.isPost
  | .record _, waiting => waiting = handlers.filter Handler.isPost
  | .post handler rest _, waiting => waiting = handler :: rest
  | .returned _, _ => True

theorem Stage.toPost_awaits (handlers : List Handler)
    (mainRun : Option (Run V)) (rest : List Handler) :
    (Stage.toPost mainRun rest).Awaits handlers rest := by
  cases rest with
  | nil => trivial
  | cons handler rest => rfl

theorem Stage.toMain_awaits (handlers : List Handler) :
    (Stage.toMain handlers : Stage V).Awaits handlers
      ((handlers.find? Handler.isMain).toList ++
        handlers.filter Handler.isPost) := by
  unfold Stage.toMain
  split
  · next absent =>
      rw [absent]
      exact Stage.toPost_awaits ..
  · next handler found =>
      rw [found]
      rfl

theorem Stage.toPre_awaits (handlers rest : List Handler) :
    (Stage.toPre handlers rest : Stage V).Awaits handlers
      (rest ++ (handlers.find? Handler.isMain).toList ++
        handlers.filter Handler.isPost) := by
  cases rest with
  | nil => exact Stage.toMain_awaits handlers
  | cons handler rest => rfl

namespace Call

/-- What was submitted and what is awaited make up the plan. -/
def Follows (call : Call V) : Prop :=
  ∃ waiting,
    call.submissions.map Submission.handler ++ waiting = plan call.handlers ∧
      call.stage.Awaits call.handlers waiting

theorem start_follows (request : Request V) (handlers : List Handler) :
    (start request handlers).Follows := by
  refine ⟨plan handlers, rfl, ?_⟩
  simp only [start]
  split
  · trivial
  · exact Stage.toPre_awaits handlers _

/-- The handler submitted was the next of the plan. -/
theorem Follows.answered {call : Call V} {handler : Handler}
    {rest : List Handler} (input : Values V) (answer : Answer V)
    {stage : Stage V}
    (planned : call.submissions.map Submission.handler ++ handler :: rest =
      plan call.handlers)
    (awaits : stage.Awaits call.handlers rest) :
    (call.answered handler input answer stage).Follows := by
  refine ⟨rest, Eq.trans ?_ planned, awaits⟩
  simp [Call.answered]

theorem submit_follows {call next : Call V} {answer : Answer V}
    (follows : call.Follows)
    (submitted : call.submit answer = some next) :
    next.Follows := by
  rcases follows with ⟨waiting, planned, awaits⟩
  rw [submit] at submitted
  split at submitted
  · next handler rest stage =>
      cases submitted
      rw [stage] at awaits
      cases awaits
      refine Follows.answered _ answer planned ?_
      cases answer with
      | error cause => trivial
      | ok run =>
          simp only [afterPre]
          split
          · trivial
          · exact Stage.toPre_awaits call.handlers rest
  · next handler stage =>
      cases submitted
      rw [stage] at awaits
      cases awaits
      refine Follows.answered _ answer planned ?_
      cases answer with
      | error cause => trivial
      | ok run =>
          simp only [afterMain]
          split
          · rfl
          · exact Stage.toPost_awaits ..
  · cases submitted
  · next handler rest mainRun stage =>
      cases submitted
      rw [stage] at awaits
      cases awaits
      exact Follows.answered _ answer planned (Stage.toPost_awaits ..)
  · cases submitted

theorem step_follows {call next : Call V} {action : Action V}
    (follows : call.Follows)
    (stepped : call.step action = some next) :
    next.Follows := by
  cases action with
  | submit answer => exact submit_follows follows stepped
  | record =>
      rcases follows with ⟨waiting, planned, awaits⟩
      simp only [step] at stepped
      split at stepped
      · next run stage =>
          cases stepped
          rw [stage] at awaits
          cases awaits
          exact ⟨_, planned, Stage.toPost_awaits ..⟩
      · cases stepped

/-- The handlers stay, and each answer adds a submission. -/
theorem step_submissions {call next : Call V} {action : Action V}
    (stepped : call.step action = some next) :
    next.handlers = call.handlers ∧
      next.submissions.map Submission.answer =
        call.submissions.map Submission.answer ++ action.answer?.toList := by
  cases action with
  | submit answer =>
      simp only [step, submit] at stepped
      split at stepped <;> cases stepped <;>
        exact ⟨rfl, by simp [answered, Action.answer?]⟩
  | record =>
      simp only [step] at stepped
      split at stepped
      · cases stepped
        exact ⟨rfl, by simp [recorded, Action.answer?]⟩
      · cases stepped

/-- Along a run, the answers are those of the executor, in their order. -/
theorem run_follows {request : Request V} {handlers : List Handler}
    {actions : List (Action V)} {call : Call V}
    (reached : run step (start request handlers) actions = some call) :
    call.handlers = handlers ∧
      call.submissions.map Submission.answer =
        actions.filterMap Action.answer? ∧
      call.Follows := by
  refine run_induction step
    (motive := fun actions call => call.handlers = handlers ∧
      call.submissions.map Submission.answer =
        actions.filterMap Action.answer? ∧ call.Follows)
    ⟨rfl, rfl, start_follows request handlers⟩ ?_ reached
  rintro actions action call next _ ⟨sameHandlers, answers, follows⟩ stepped
  rcases step_submissions stepped with ⟨kept, added⟩
  refine ⟨kept.trans sameHandlers, ?_, step_follows follows stepped⟩
  rw [added, answers, List.filterMap_append]
  cases action <;> rfl

end Call

/-! ## Phase order -/

/-- What has to have been answered before a handler is submitted. -/
structure Admissible (registered : List Handler) (before : List (Submission V))
    (entry : Submission V) : Prop where
  main : entry.handler.isMain = true →
    ((before.filter (fun earlier => earlier.handler.isPre)).map
        Submission.handler).Perm (registered.filter Handler.isPre) ∧
      ∀ earlier ∈ before, earlier.handler.isPre = true →
        earlier.answer.completed = true
  post : entry.handler.isPost = true → registered.any Handler.isMain = true →
    ∃ earlier ∈ before, earlier.handler.isMain = true ∧
      earlier.answer.terminal = true

/-- Every submission came after what its phase has to wait for. -/
def InPhaseOrder (registered : List Handler)
    (submissions : List (Submission V)) : Prop :=
  Each (Admissible registered) submissions

/--
The executor settles in time: when a main handler is registered, it answers
every pre-phase `Submit` with a completed run, unless one of them aborts the
call, and the main `Submit` with a finished one, unless nothing follows.
-/
def SettlesInTime (registered : List Handler) (answers : List (Answer V)) :
    Prop :=
  registered.any Handler.isMain = true →
    ((registered.filter Handler.isPre).length < answers.length →
      ∀ answer ∈ answers.take (registered.filter Handler.isPre).length,
        answer.completed = true) ∧
    ∀ answer later,
      answers.drop (registered.filter Handler.isPre).length = answer :: later →
      later ≠ [] → answer.terminal = true

/-! The order in which the handlers are looked up does not matter. -/

theorem any_isMain_of_perm {handlers registered : List Handler}
    (permutes : handlers.Perm registered) :
    handlers.any Handler.isMain = registered.any Handler.isMain := by
  rw [Bool.eq_iff_iff, List.any_eq_true, List.any_eq_true]
  simp only [permutes.mem_iff]

variable {submissions : List (Submission V)} {handlers : List Handler}
variable {entry : Submission V}

theorem Admissible.of_perm {handlers registered : List Handler}
    {before : List (Submission V)} (permutes : handlers.Perm registered)
    (admissible : Admissible handlers before entry) :
    Admissible registered before entry := by
  constructor
  · intro isMain
    rcases admissible.main isMain with ⟨all, completed⟩
    exact ⟨all.trans (permutes.filter Handler.isPre), completed⟩
  · intro isPost anyMain
    exact admissible.post isPost ((any_isMain_of_perm permutes).trans anyMain)

theorem inPhaseOrder_of_perm {handlers registered : List Handler}
    (permutes : handlers.Perm registered) :
    InPhaseOrder handlers submissions ↔ InPhaseOrder registered submissions := by
  constructor
  · intro each before entry after split
    exact (each before entry after split).of_perm permutes
  · intro each before entry after split
    exact (each before entry after split).of_perm permutes.symm

theorem settlesInTime_of_perm {handlers registered : List Handler}
    {answers : List (Answer V)}
    (permutes : handlers.Perm registered) :
    SettlesInTime handlers answers ↔ SettlesInTime registered answers := by
  rw [SettlesInTime, SettlesInTime, any_isMain_of_perm permutes,
    (permutes.filter Handler.isPre).length_eq]

/-! Each phase in turn. -/

/-- Submissions of the pre phase wait for nothing. -/
theorem admissible_of_isPre (handlers : List Handler) (before : List (Submission V))
    (isPre : entry.handler.isPre = true) :
    Admissible handlers before entry := by
  have phase : entry.handler.phase = .pre := of_decide_eq_true isPre
  constructor
  · intro isMain
    cases phase.symm.trans (of_decide_eq_true isMain)
  · intro isPost
    cases phase.symm.trans (of_decide_eq_true isPost)

theorem inPhaseOrder_iff_of_no_main
    (absent : handlers.find? Handler.isMain = none)
    (planned : ∀ entry ∈ submissions, entry.handler ∈ plan handlers) :
    InPhaseOrder handlers submissions ↔
      SettlesInTime handlers (submissions.map Submission.answer) := by
  have noMain : handlers.any Handler.isMain = false := by
    simpa using absent
  refine iff_of_true (Each.of_forall_mem ?_) ?_
  · intro before entry member
    constructor
    · intro isMain
      have listed : entry.handler ∈ handlers := by
        have member := planned entry member
        simp only [plan, absent, Option.toList_none, List.append_nil,
          List.mem_append, List.mem_filter] at member
        exact member.elim And.left And.left
      exact absurd isMain (List.find?_eq_none.mp absent entry.handler listed)
    · intro _ anyMain
      cases noMain.symm.trans anyMain
  · intro anyMain
    cases noMain.symm.trans anyMain

/-- The handlers submitted from one phase of the plan are of that phase. -/
theorem phase_of_planned {handlers waiting : List Handler} {phase : Handler → Bool}
    (planned : handlers.filter phase =
      submissions.map Submission.handler ++ waiting)
    (member : entry ∈ submissions) :
    phase entry.handler = true := by
  have listed : entry.handler ∈ handlers.filter phase := by
    rw [planned]
    exact List.mem_append_left _ (List.mem_map_of_mem member)
  exact (List.mem_filter.mp listed).2

/-- While the pre phase is being submitted, nothing has to have settled yet. -/
theorem inPhaseOrder_iff_of_pre
    {waiting : List Handler}
    (planned : handlers.filter Handler.isPre =
      submissions.map Submission.handler ++ waiting) :
    InPhaseOrder handlers submissions ↔
      SettlesInTime handlers (submissions.map Submission.answer) := by
  refine iff_of_true (Each.of_forall_mem ?_) ?_
  · intro before entry member
    exact admissible_of_isPre handlers before (phase_of_planned planned member)
  · intro _
    have short : (submissions.map Submission.answer).length ≤
        (handlers.filter Handler.isPre).length := by
      simp [planned]
    refine ⟨fun more => absurd more (Nat.not_lt.mpr short), ?_⟩
    intro answer later dropped
    rw [List.drop_eq_nil_of_le short] at dropped
    cases dropped

/-- The main handler waits for every handler of the pre phase to complete. -/
theorem admissible_main_iff
    {pres : List (Submission V)}
    (all : pres.map Submission.handler = handlers.filter Handler.isPre)
    (preOnly : ∀ earlier ∈ pres, earlier.handler.isPre = true)
    (isMain : entry.handler.isMain = true) :
    Admissible handlers pres entry ↔
      ∀ earlier ∈ pres, earlier.answer.completed = true := by
  constructor
  · intro admissible earlier member
    exact (admissible.main isMain).2 earlier member (preOnly earlier member)
  · intro completed
    refine ⟨fun _ => ⟨?_, fun earlier member _ => completed earlier member⟩, ?_⟩
    · rw [List.filter_eq_self.mpr preOnly, all]
    · intro isPost
      cases (of_decide_eq_true isMain).symm.trans (of_decide_eq_true isPost)

/-- The handlers of the post phase wait for the main run to finish. -/
theorem admissible_posts_iff
    {pres posts : List (Submission V)}
    (found : handlers.find? Handler.isMain = some entry.handler)
    (preOnly : ∀ earlier ∈ pres, earlier.handler.isPre = true)
    (postOnly : ∀ later ∈ posts, later.handler.isPost = true) :
    Each (fun before => Admissible handlers (pres ++ entry :: before)) posts ↔
      (posts ≠ [] → entry.answer.terminal = true) := by
  have isMain : entry.handler.isMain = true := List.find?_some found
  have anyMain : handlers.any Handler.isMain = true :=
    List.any_eq_true.mpr
      ⟨entry.handler, List.mem_of_find?_eq_some found, isMain⟩
  constructor
  · intro each
    cases posts with
    | nil => exact fun nonempty => absurd rfl nonempty
    | cons first rest =>
        intro _
        have admissible := each [] first rest rfl
        rcases admissible.post (postOnly first (List.mem_cons_self ..)) anyMain
          with ⟨earlier, member, earlierMain, terminal⟩
        rcases List.mem_append.mp member with before | last
        · have phase := of_decide_eq_true (preOnly earlier before)
          cases phase.symm.trans (of_decide_eq_true earlierMain)
        · rw [List.mem_singleton.mp last] at terminal
          exact terminal
  · intro terminal
    apply Each.of_forall_mem
    intro before later member
    have phase := of_decide_eq_true (postOnly later member)
    constructor
    · intro isMain
      cases (of_decide_eq_true isMain).symm.trans phase
    · intro _ _
      exact ⟨entry, by simp, isMain, terminal (List.ne_nil_of_mem member)⟩

theorem inPhaseOrder_iff_of_main
    {pres posts : List (Submission V)}
    (all : pres.map Submission.handler = handlers.filter Handler.isPre)
    (found : handlers.find? Handler.isMain = some entry.handler)
    (postOnly : ∀ later ∈ posts, later.handler.isPost = true) :
    InPhaseOrder handlers (pres ++ entry :: posts) ↔
      SettlesInTime handlers
        ((pres ++ entry :: posts).map Submission.answer) := by
  have preOnly : ∀ earlier ∈ pres, earlier.handler.isPre = true := by
    intro earlier member
    exact phase_of_planned (all.symm.trans (List.append_nil _).symm) member
  have presAdmissible : Each (Admissible handlers) pres :=
    Each.of_forall_mem (fun before earlier member =>
      admissible_of_isPre handlers before (preOnly earlier member))
  have isMain : entry.handler.isMain = true := List.find?_some found
  have anyMain : handlers.any Handler.isMain = true :=
    List.any_eq_true.mpr
      ⟨entry.handler, List.mem_of_find?_eq_some found, isMain⟩
  rw [InPhaseOrder, Each.append_iff, Each.cons_iff, List.append_nil,
    admissible_main_iff all preOnly isMain,
    admissible_posts_iff found preOnly postOnly, and_iff_right presAdmissible,
    SettlesInTime, anyMain, ← all, List.map_append, List.map_cons]
  have count : (pres.map Submission.handler).length =
      (pres.map Submission.answer).length := by
    simp
  rw [count, List.take_left, List.drop_left]
  constructor
  · rintro ⟨completed, terminal⟩ _
    refine ⟨fun _ answer member => ?_, ?_⟩
    · rcases List.mem_map.mp member with ⟨earlier, earlierMember, rfl⟩
      exact completed earlier earlierMember
    · rintro answer later equal nonempty
      cases equal
      apply terminal
      rintro rfl
      exact nonempty rfl
  · intro settles
    rcases settles rfl with ⟨completed, terminal⟩
    refine ⟨fun earlier member => ?_, fun nonempty => ?_⟩
    · exact completed (by simp) earlier.answer (List.mem_map_of_mem member)
    · refine terminal entry.answer _ rfl ?_
      simpa using nonempty

/-- What follows the plan is in phase order exactly when it settles in time. -/
theorem inPhaseOrder_iff
    {waiting : List Handler}
    (planned : submissions.map Submission.handler ++ waiting = plan handlers) :
    InPhaseOrder handlers submissions ↔
      SettlesInTime handlers (submissions.map Submission.answer) := by
  cases found : handlers.find? Handler.isMain with
  | none =>
      apply inPhaseOrder_iff_of_no_main found
      intro entry member
      rw [← planned]
      exact List.mem_append_left _ (List.mem_map_of_mem member)
  | some main =>
      rw [plan, found, List.append_assoc] at planned
      rcases List.append_eq_append_iff.mp planned with
        ⟨unsubmitted, pres, _⟩ | ⟨submitted, split, later⟩
      · exact inPhaseOrder_iff_of_pre pres
      · cases submitted with
        | nil =>
            have pres : handlers.filter Handler.isPre =
                submissions.map Submission.handler ++ [] := by
              simpa using split.symm
            exact inPhaseOrder_iff_of_pre pres
        | cons handler rest =>
            rcases List.cons.inj later with ⟨rfl, postHandlers⟩
            rcases List.map_eq_append_iff.mp split with
              ⟨pres, others, rfl, preHandlers, otherHandlers⟩
            rcases List.map_eq_cons_iff.mp otherHandlers with
              ⟨entry, posts, rfl, rfl, rfl⟩
            apply inPhaseOrder_iff_of_main preHandlers found
            intro later member
            exact phase_of_planned postHandlers member

/--
For every table, every event and every executor, what a call of `Dispatch` has
submitted so far is in phase order exactly when the executor settled in time.
-/
theorem dispatch_phase_order_iff
    (table : DispatchTable) (request : Request V) {handlers : List Handler}
    (actions : List (Action V)) {call : Call V}
    (lookedUp : table.Lookup request.resourceType request.event handlers)
    (reached : run Call.step (Call.start request handlers) actions = some call) :
    InPhaseOrder
        (table.actions (dispatchKey request.resourceType request.event))
        call.submissions ↔
      SettlesInTime
        (table.actions (dispatchKey request.resourceType request.event))
        (actions.filterMap Action.answer?) := by
  rcases Call.run_follows reached with ⟨rfl, answers, waiting, planned, _⟩
  rw [← answers, ← inPhaseOrder_of_perm lookedUp.permutes,
    ← settlesInTime_of_perm lookedUp.permutes]
  exact inPhaseOrder_iff planned

/-! A virtual machine is checked, provisioned and announced. -/

def check : Handler :=
  ⟨"vm", "create", .pre, 0, "check"⟩

def provision : Handler :=
  ⟨"vm", "create", .main, 0, "provision"⟩

def notify : Handler :=
  ⟨"vm", "create", .post, 0, "notify"⟩

def machineTable : DispatchTable :=
  ((DispatchTable.new.register notify).register provision).register check

def createMachine : Request Nat :=
  ⟨"vm", "create", none, []⟩

def answering (id : String) (status : RunStatus) : Action Nat :=
  .submit (.ok ⟨id, status, none, ""⟩)

theorem machineTable_lookup :
    machineTable.Lookup "vm" "create" [check, provision, notify] :=
  ⟨by decide, by decide⟩

/-- An executor that finishes its runs at once keeps the phases apart. -/
theorem synchronous_phase_order :
    ∃ call,
      run Call.step (Call.start createMachine [check, provision, notify])
          [answering "a" .completed, answering "b" .completed,
            answering "c" .completed] = some call ∧
        call.submissions.map Submission.handler = [check, provision, notify] ∧
        InPhaseOrder (machineTable.actions (dispatchKey "vm" "create"))
          call.submissions := by
  refine ⟨_, rfl, rfl, ?_⟩
  refine (dispatch_phase_order_iff machineTable createMachine
    [answering "a" .completed, answering "b" .completed,
      answering "c" .completed] machineTable_lookup rfl).mpr ?_
  intro _
  refine ⟨fun _ answer member => ?_, ?_⟩
  · cases List.mem_singleton.mp member
    rfl
  · rintro answer later equal _
    cases equal
    rfl

/--
An executor that only accepts its runs: the machine is provisioned while its
check is pending, and announced before it is provisioned.
-/
theorem asynchronous_phases_overlap :
    machineTable.Lookup "vm" "create" [check, provision, notify] ∧
      ∃ call,
        run Call.step (Call.start createMachine [check, provision, notify])
            [answering "a" .pending, answering "b" .pending,
              answering "c" .pending] = some call ∧
          call.submissions.map Submission.handler =
            [check, provision, notify] ∧
          ¬ InPhaseOrder (machineTable.actions (dispatchKey "vm" "create"))
            call.submissions := by
  refine ⟨machineTable_lookup, _, rfl, rfl, ?_⟩
  intro ordered
  have main := (ordered [_] _ [_] rfl).main rfl
  cases main.2 _ (List.mem_singleton_self _) rfl

end Infractl.Workflow
