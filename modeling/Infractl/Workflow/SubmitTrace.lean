import Infractl.Lib.Heap
import Infractl.Workflow.Dispatch

/-!
# What a dispatch submits

`Dispatch` goes through the handlers of an event three times, once for each
phase, and each loop treats a failure in its own way: the pre phase stops the
call, the main phase stops it when `Submit` fails, and the post phase goes on.

Here the loops are written down as they stand, against an executor that may
answer each `Submit` as it likes.  `SubmitTrace` says what the sequence of
submissions and the result may be, and every call of `dispatch` has such a
trace.  The loops are the step machine of a call, run to its end.

The input of the post phase is a new map.  That the map of the caller is left
alone is shown of the loops of `mergeInputs`, which write into a cell of their
own.
-/

namespace Infractl.Workflow

open Infractl.Lib
open Infractl.Lib.Run

variable {V : Type}

/-! ## Merging in place -/

/-- `merged[k] = v`. -/
def setEntry (map : String → Option V) (entry : String × V) :
    String → Option V :=
  Function.update map entry.1 (some entry.2)

/-- The loop of `mergeInputs` over one map, in the order of its iteration. -/
def copyEntries (merged : Nat) (entries : List (String × V))
    (memory : Heap (String → Option V)) : Heap (String → Option V) :=
  entries.foldl
    (fun memory entry =>
      memory.modify merged (fun map => setEntry map entry))
    memory

/--
`mergeInputs` on the maps in memory: a new map is made, and the entries of the
two maps are written into it.
-/
def mergeInputsIn (memory : Heap (String → Option V))
    (base overlay : List (String × V)) : Heap (String → Option V) × Nat :=
  let made := memory.alloc (fun _ => none)
  (copyEntries made.2 overlay (copyEntries made.2 base made.1), made.2)

/-- The value under a name; a nil map has none. -/
def Values.lookup (values : Values V) (name : String) : Option V :=
  values.bind (fun map => map name)

/-- An iteration over a map meets every entry; one over a nil map, none. -/
def Iterates (entries : List (String × V)) (values : Values V) : Prop :=
  ∀ name value, (name, value) ∈ entries ↔ values.lookup name = some value

/-- Entries of a map, written in any order, leave its value under their names. -/
theorem foldl_setEntry_apply {values : Values V}
    {entries : List (String × V)}
    (listed : ∀ entry ∈ entries, values.lookup entry.1 = some entry.2)
    (map : String → Option V) (name : String) :
    entries.foldl setEntry map name =
      if name ∈ entries.map Prod.fst then values.lookup name else map name := by
  induction entries generalizing map with
  | nil => rfl
  | cons entry rest ih =>
      rw [List.forall_mem_cons] at listed
      rw [List.foldl_cons, ih listed.2, List.map_cons, setEntry]
      by_cases same : name = entry.1
      · subst same
        simp [listed.1]
      · rw [Function.update_of_ne same]
        simp only [List.mem_cons, same, false_or]

/-- Writing all entries of a map puts it over what was there. -/
theorem foldl_setEntry_iterates {entries : List (String × V)}
    {values : Values V} (iterates : Iterates entries values)
    (map : String → Option V) (name : String) :
    entries.foldl setEntry map name =
      (values.lookup name).or (map name) := by
  rw [foldl_setEntry_apply
    (fun entry member => (iterates entry.1 entry.2).mp member)]
  cases found : values.lookup name with
  | none =>
      rw [Option.none_or, ite_eq_right_iff]
      intro met
      rcases List.mem_map.mp met with ⟨entry, member, rfl⟩
      cases found.symm.trans ((iterates entry.1 entry.2).mp member)
  | some value =>
      have met : name ∈ entries.map Prod.fst :=
        List.mem_map.mpr ⟨(name, value), (iterates name value).mpr found, rfl⟩
      rw [if_pos met, Option.some_or]

theorem mergeInputsIn_eq (memory : Heap (String → Option V))
    (base overlay : List (String × V)) :
    mergeInputsIn memory base overlay =
      ((memory.alloc (fun _ => none)).1.modify
          (memory.alloc (fun _ => none)).2
          (fun map => (base ++ overlay).foldl setEntry map),
        (memory.alloc (fun _ => none)).2) := by
  simp only [mergeInputsIn, copyEntries]
  rw [← List.foldl_append, Heap.foldl_modify]

/--
The loops of `mergeInputs` change no map that was there before, and the new map
is the overlay put over the base.
-/
theorem mergeInputsIn_spec (memory : Heap (String → Option V))
    {input : Values V} {outputs : String → Option V}
    {base overlay : List (String × V)}
    (iteratesBase : Iterates base input)
    (iteratesOverlay : Iterates overlay (some outputs)) :
    memory.Keeps (mergeInputsIn memory base overlay).1 ∧
      (mergeInputsIn memory base overlay).1.read
          (mergeInputsIn memory base overlay).2 =
        mergeInputs input outputs := by
  rw [mergeInputsIn_eq]
  refine ⟨memory.keeps_alloc_modify _ _, ?_⟩
  rw [Heap.read_alloc_modify, mergeInputs, Option.some.injEq]
  funext name
  rw [List.foldl_append, foldl_setEntry_iterates iteratesOverlay,
    foldl_setEntry_iterates iteratesBase, Option.or_none]
  simp only [Values.lookup, Option.bind_some]
  cases outputs name <;> rfl

/-! ## The three loops -/

/-- An executor, whose answer may depend on all it has answered before. -/
abbrev Executor (V : Type) :=
  List (Submission V) → Handler → Values V → Answer V

/-- Why a pre-phase answer stops the call. -/
def preError (handler : Handler) : Answer V → Option DispatchError
  | .error cause => some (.preSubmit handler.ref cause)
  | .ok run =>
      if run.status = .failed then
        some (.preRejected handler.ref run.error)
      else
        none

section Loops

variable (executor : Executor V) (request : Request V)

/-- The loop of the pre phase; `log` are the submissions made so far. -/
def preLoop : List Handler → List (Submission V) →
    List (Submission V) × Option DispatchError
  | [], log => (log, none)
  | handler :: rest, log =>
      if handler.phase ≠ .pre then
        preLoop rest log
      else
        let answer := executor log handler request.input
        let logged := log ++ [⟨handler, request.input, answer⟩]
        match preError handler answer with
        | some error => (logged, some error)
        | none => preLoop rest logged

/-- The loop of the main phase, left after the first handler. -/
def mainLoop : List Handler → List (Submission V) →
    List (Submission V) × Except DispatchError (Option (Run V))
  | [], log => (log, .ok none)
  | handler :: rest, log =>
      if handler.phase ≠ .main then
        mainLoop rest log
      else
        let answer := executor log handler request.input
        let logged := log ++ [⟨handler, request.input, answer⟩]
        match answer with
        | .error cause => (logged, .error (.mainSubmit handler.ref cause))
        | .ok run => (logged, .ok (some run))

/-- The loop of the post phase, which looks at no answer. -/
def postLoop (mainRun : Option (Run V)) :
    List Handler → List (Submission V) → List (Submission V)
  | [], log => log
  | handler :: rest, log =>
      if handler.phase ≠ .post then
        postLoop mainRun rest log
      else
        let postInput := request.postInput mainRun
        let answer := executor log handler postInput
        postLoop mainRun rest (log ++ [⟨handler, postInput, answer⟩])

/-- `Dispatch`, for the handlers `Lookup` gave: its submissions and result. -/
def dispatch (handlers : List Handler) :
    List (Submission V) × Except DispatchError (Option (Run V)) :=
  if handlers.length = 0 then
    ([], .ok none)
  else
    match preLoop executor request handlers [] with
    | (log, some error) => (log, .error error)
    | (log, none) =>
        match mainLoop executor request handlers log with
        | (logged, .error error) => (logged, .error error)
        | (logged, .ok mainRun) =>
            (postLoop executor request mainRun handlers logged, .ok mainRun)

section Equations

variable {handler : Handler} (rest : List Handler) (log : List (Submission V))

theorem preLoop_of_isPre (selected : handler.isPre = true) :
    preLoop executor request (handler :: rest) log =
      match preError handler (executor log handler request.input) with
      | some error =>
          (log ++ [⟨handler, request.input,
            executor log handler request.input⟩], some error)
      | none =>
          preLoop executor request rest (log ++ [⟨handler, request.input,
            executor log handler request.input⟩]) := by
  rw [preLoop, if_neg (not_not.mpr (of_decide_eq_true selected))]

theorem preLoop_of_not_isPre (skipped : ¬ handler.isPre = true) :
    preLoop executor request (handler :: rest) log =
      preLoop executor request rest log := by
  rw [preLoop, if_pos (fun isPre => skipped (decide_eq_true isPre))]

theorem postLoop_of_isPost (mainRun : Option (Run V))
    (selected : handler.isPost = true) :
    postLoop executor request mainRun (handler :: rest) log =
      postLoop executor request mainRun rest
        (log ++ [⟨handler, request.postInput mainRun,
          executor log handler (request.postInput mainRun)⟩]) := by
  rw [postLoop, if_neg (not_not.mpr (of_decide_eq_true selected))]

theorem postLoop_of_not_isPost (mainRun : Option (Run V))
    (skipped : ¬ handler.isPost = true) :
    postLoop executor request mainRun (handler :: rest) log =
      postLoop executor request mainRun rest log := by
  rw [postLoop, if_pos (fun isPost => skipped (decide_eq_true isPost))]

end Equations

end Loops

/-! ## The trace -/

/-- Handlers submitted in order with one input, each let through. -/
structure LetThrough (input : Values V) (handlers : List Handler)
    (submissions : List (Submission V)) : Prop where
  order : submissions.map Submission.handler = handlers
  input : ∀ entry ∈ submissions, entry.input = input
  passed : ∀ entry ∈ submissions, preError entry.handler entry.answer = none

/-- The second map put over the first. -/
def Overlaid (base overlay result : Values V) : Prop :=
  ∀ name, result.lookup name = (overlay.lookup name).or (base.lookup name)

/-- What a call may submit, and what it then returns. -/
inductive SubmitTrace (request : Request V) (handlers : List Handler) :
    List (Submission V) → Except DispatchError (Option (Run V)) → Prop where
  /-- A pre-phase handler fails to submit, or its run has failed. -/
  | aborted {before after : List Handler} {handler : Handler}
      {through : List (Submission V)} {answer : Answer V}
      {error : DispatchError}
      (pres : handlers.filter Handler.isPre = before ++ handler :: after)
      (passed : LetThrough request.input before through)
      (stopped : preError handler answer = some error) :
      SubmitTrace request handlers
        (through ++ [⟨handler, request.input, answer⟩]) (.error error)
  /-- The first main handler fails to submit. -/
  | refused {handler : Handler} {through : List (Submission V)} {cause : String}
      (passed : LetThrough request.input (handlers.filter Handler.isPre) through)
      (first : handlers.find? Handler.isMain = some handler) :
      SubmitTrace request handlers
        (through ++ [⟨handler, request.input, .error cause⟩])
        (.error (.mainSubmit handler.ref cause))
  /-- All of the post phase is submitted after the first main handler. -/
  | finished {handler : Handler} {run : Run V}
      {through posts : List (Submission V)}
      (passed : LetThrough request.input (handlers.filter Handler.isPre) through)
      (first : handlers.find? Handler.isMain = some handler)
      (order : posts.map Submission.handler = handlers.filter Handler.isPost)
      (input : ∀ entry ∈ posts,
        Overlaid request.input run.outputs entry.input) :
      SubmitTrace request handlers
        (through ++ ⟨handler, request.input, .ok run⟩ :: posts)
        (.ok (some run))
  /-- There is no main handler; all of the post phase is submitted. -/
  | withoutMain {through posts : List (Submission V)}
      (passed : LetThrough request.input (handlers.filter Handler.isPre) through)
      (absent : handlers.find? Handler.isMain = none)
      (order : posts.map Submission.handler = handlers.filter Handler.isPost)
      (input : ∀ entry ∈ posts, entry.input = request.input) :
      SubmitTrace request handlers (through ++ posts) (.ok none)

/-- The answers in a log are those of the executor. -/
def AnsweredBy (executor : Executor V) (log : List (Submission V)) : Prop :=
  Each (fun before entry =>
    entry.answer = executor before entry.handler entry.input) log

theorem LetThrough.nil (input : Values V) : LetThrough input [] [] :=
  ⟨rfl, (fun _ member => by cases member), fun _ member => by cases member⟩

theorem LetThrough.concat {input : Values V} {handlers : List Handler}
    {through : List (Submission V)} (passed : LetThrough input handlers through)
    {handler : Handler} {answer : Answer V}
    (letThrough : preError handler answer = none) :
    LetThrough input (handlers ++ [handler])
      (through ++ [⟨handler, input, answer⟩]) where
  order := by rw [List.map_append, passed.order]; rfl
  input := by
    rw [List.forall_mem_append]
    exact ⟨passed.input, List.forall_mem_singleton.mpr rfl⟩
  passed := by
    rw [List.forall_mem_append]
    exact ⟨passed.passed, List.forall_mem_singleton.mpr letThrough⟩

/-- The input of the post phase is the outputs put over the input. -/
theorem overlaid_postInput (request : Request V) (run : Run V) :
    Overlaid request.input run.outputs (request.postInput (some run)) := by
  intro name
  unfold Request.postInput
  cases outputs : run.outputs with
  | none => simp [outputs, Values.lookup]
  | some map =>
      simp only [Option.bind_some, outputs, mergeInputs, Values.lookup]
      cases map name <;> rfl

section Traces

variable {executor : Executor V} (request : Request V)

/-- The pre phase lets all of its handlers through, or stops at one. -/
theorem preLoop_trace (handlers before : List Handler)
    {log : List (Submission V)}
    (passed : LetThrough request.input before log)
    (answered : AnsweredBy executor log) :
    AnsweredBy executor (preLoop executor request handlers log).1 ∧
    match preLoop executor request handlers log with
    | (final, none) =>
        LetThrough request.input (before ++ handlers.filter Handler.isPre) final
    | (final, some error) =>
        ∃ met handler after through answer,
          before ++ handlers.filter Handler.isPre = met ++ handler :: after ∧
            LetThrough request.input met through ∧
            preError handler answer = some error ∧
            final = through ++ [⟨handler, request.input, answer⟩] := by
  induction handlers generalizing before log with
  | nil =>
      rw [preLoop, List.filter_nil, List.append_nil]
      exact ⟨answered, passed⟩
  | cons handler rest ih =>
      by_cases selected : handler.isPre = true
      · rw [preLoop_of_isPre executor request rest log selected,
          List.filter_cons_of_pos selected]
        have logged : AnsweredBy executor (log ++ [⟨handler, request.input,
            executor log handler request.input⟩]) :=
          answered.concat rfl
        cases verdict : preError handler
            (executor log handler request.input) with
        | some error =>
            exact ⟨logged, before, handler, rest.filter Handler.isPre, log, _,
              rfl, passed, verdict, rfl⟩
        | none =>
            have step := ih (before ++ [handler]) (passed.concat verdict) logged
            rw [List.append_assoc, List.singleton_append] at step
            exact step
      · rw [preLoop_of_not_isPre executor request rest log selected,
          List.filter_cons_of_neg selected]
        exact ih before passed answered

/-- The main phase submits its first handler only. -/
theorem mainLoop_trace (handlers : List Handler) {log : List (Submission V)}
    (answered : AnsweredBy executor log) :
    AnsweredBy executor (mainLoop executor request handlers log).1 ∧
    match handlers.find? Handler.isMain with
    | none => mainLoop executor request handlers log = (log, .ok none)
    | some handler =>
        (∃ cause, mainLoop executor request handlers log =
          (log ++ [⟨handler, request.input, .error cause⟩],
            .error (.mainSubmit handler.ref cause))) ∨
        ∃ run, mainLoop executor request handlers log =
          (log ++ [⟨handler, request.input, .ok run⟩], .ok (some run)) := by
  induction handlers with
  | nil => exact ⟨answered, rfl⟩
  | cons handler rest ih =>
      rw [mainLoop]
      by_cases isMain : handler.phase = .main
      · have selected : handler.isMain = true := decide_eq_true isMain
        rw [if_neg (not_not.mpr isMain), List.find?_cons_of_pos selected]
        dsimp only
        have logged : AnsweredBy executor (log ++ [⟨handler, request.input,
            executor log handler request.input⟩]) :=
          answered.concat rfl
        cases answer : executor log handler request.input with
        | error cause =>
            rw [answer] at logged
            exact ⟨logged, Or.inl ⟨cause, rfl⟩⟩
        | ok run =>
            rw [answer] at logged
            exact ⟨logged, Or.inr ⟨run, rfl⟩⟩
      · have skipped : ¬ handler.isMain = true := by simpa [Handler.isMain]
        rw [if_pos isMain, List.find?_cons_of_neg skipped]
        exact ih

/-- The post phase submits all of its handlers. -/
theorem postLoop_trace (mainRun : Option (Run V)) (handlers : List Handler)
    {log : List (Submission V)} (answered : AnsweredBy executor log) :
    AnsweredBy executor (postLoop executor request mainRun handlers log) ∧
    ∃ posts,
      postLoop executor request mainRun handlers log = log ++ posts ∧
        posts.map Submission.handler = handlers.filter Handler.isPost ∧
        ∀ entry ∈ posts, entry.input = request.postInput mainRun := by
  induction handlers generalizing log with
  | nil => exact ⟨answered, [], by simp [postLoop]⟩
  | cons handler rest ih =>
      by_cases selected : handler.isPost = true
      · rw [postLoop_of_isPost executor request rest log mainRun selected,
          List.filter_cons_of_pos selected]
        have logged : AnsweredBy executor (log ++ [⟨handler,
            request.postInput mainRun,
            executor log handler (request.postInput mainRun)⟩]) :=
          answered.concat rfl
        rcases ih logged with ⟨final, posts, submitted, order, input⟩
        refine ⟨final, ⟨handler, request.postInput mainRun,
          executor log handler (request.postInput mainRun)⟩ :: posts, ?_,
          congrArg (handler :: ·) order, ?_⟩
        · rw [submitted, List.append_assoc, List.singleton_append]
        · rw [List.forall_mem_cons]
          exact ⟨rfl, input⟩
      · rw [postLoop_of_not_isPost executor request rest log mainRun selected,
          List.filter_cons_of_neg selected]
        exact ih answered

/-- After a pre phase that was let through, the other two phases follow. -/
theorem submits_after_pre {handlers : List Handler}
    {log : List (Submission V)}
    (pres : LetThrough request.input (handlers.filter Handler.isPre) log)
    (preAnswered : AnsweredBy executor log) :
    ∀ {result : List (Submission V) × Except DispatchError (Option (Run V))},
      (match mainLoop executor request handlers log with
        | (logged, .error error) => (logged, .error error)
        | (logged, .ok mainRun) =>
            (postLoop executor request mainRun handlers logged, .ok mainRun)) =
        result →
      SubmitTrace request handlers result.1 result.2 ∧
        AnsweredBy executor result.1 := by
  rintro result rfl
  rcases mainLoop_trace request handlers preAnswered with ⟨mainAnswered, main⟩
  cases first : handlers.find? Handler.isMain with
  | none =>
      rw [first] at main
      rw [main]
      rcases postLoop_trace request none handlers preAnswered with
        ⟨answered, posts, submitted, order, input⟩
      dsimp only
      rw [submitted] at answered ⊢
      exact ⟨.withoutMain pres first order input, answered⟩
  | some handler =>
      rw [first] at main
      rcases main with ⟨cause, refused⟩ | ⟨run, accepted⟩
      · rw [refused] at mainAnswered ⊢
        exact ⟨.refused pres first, mainAnswered⟩
      · rw [accepted] at mainAnswered ⊢
        rcases postLoop_trace request (some run) handlers mainAnswered with
          ⟨answered, posts, submitted, order, input⟩
        rw [List.append_assoc, List.singleton_append] at submitted
        dsimp only
        rw [submitted] at answered ⊢
        refine ⟨.finished pres first order ?_, answered⟩
        intro entry member
        rw [input entry member]
        exact overlaid_postInput request run

end Traces

/--
Every call of `Dispatch` has a submit trace, whatever the handlers, the input
and the answers of the executor.  Merging the outputs of the main run into the
input changes no map in memory.
-/
theorem dispatch_submits (executor : Executor V) (request : Request V)
    (handlers : List Handler) :
    SubmitTrace request handlers (dispatch executor request handlers).1
        (dispatch executor request handlers).2 ∧
      AnsweredBy executor (dispatch executor request handlers).1 ∧
      ∀ (memory : Heap (String → Option V)) (outputs : String → Option V)
        (base overlay : List (String × V)),
        Iterates base request.input → Iterates overlay (some outputs) →
        memory.Keeps (mergeInputsIn memory base overlay).1 ∧
          (mergeInputsIn memory base overlay).1.read
              (mergeInputsIn memory base overlay).2 =
            mergeInputs request.input outputs := by
  rw [← and_assoc]
  refine ⟨?_, fun memory _ _ _ iteratesBase iteratesOverlay =>
    mergeInputsIn_spec memory iteratesBase iteratesOverlay⟩
  unfold dispatch
  split
  · next empty =>
      cases List.length_eq_zero_iff.mp empty
      have trace : SubmitTrace request [] ([] ++ []) (.ok none) :=
        .withoutMain (.nil request.input) rfl rfl
          (fun _ member => by cases member)
      exact ⟨trace, Each.nil⟩
  · have start : AnsweredBy executor [] := Each.nil
    rcases preLoop_trace request handlers [] (LetThrough.nil request.input) start with
      ⟨preAnswered, pres⟩
    rw [List.nil_append] at pres
    split
    · next log error stopped =>
        rw [stopped] at preAnswered pres
        rcases pres with
          ⟨before, handler, after, through, answer, split, passed, failed, rfl⟩
        exact ⟨.aborted split passed failed, preAnswered⟩
    · next log completed =>
        rw [completed] at preAnswered pres
        exact submits_after_pre request pres preAnswered rfl

/-! ## The loops and the step machine -/

section Machine

variable (executor : Executor V) (request : Request V)

/-- A call that has made some submissions. -/
def callAt (handlers : List Handler) (log : List (Submission V))
    (stage : Stage V) : Call V :=
  ⟨request, handlers, stage, log⟩

/-- The stage after a pre-phase answer is told by its error. -/
theorem afterPre_eq (call : Call V) (handler : Handler) (rest : List Handler)
    (answer : Answer V) :
    call.afterPre handler rest answer =
      match preError handler answer with
      | some error => .returned (.error error)
      | none => Stage.toPre call.handlers rest := by
  cases answer with
  | error cause => rfl
  | ok run =>
      simp only [Call.afterPre, preError]
      split <;> rfl

theorem preLoop_reaches (handlers rest : List Handler)
    (log : List (Submission V)) :
    Reaches Call.step
      (callAt request handlers log
        (Stage.toPre handlers (rest.filter Handler.isPre)))
      (match preLoop executor request rest log with
        | (final, some error) =>
            callAt request handlers final (.returned (.error error))
        | (final, none) =>
            callAt request handlers final (Stage.toMain handlers)) := by
  induction rest generalizing log with
  | nil => exact Reaches.refl _
  | cons handler rest ih =>
      by_cases selected : handler.isPre = true
      · rw [preLoop_of_isPre executor request rest log selected,
          List.filter_cons_of_pos selected]
        refine Reaches.head
          (.submit (executor log handler request.input)) rfl ?_
        rw [afterPre_eq]
        cases preError handler (executor log handler request.input) with
        | some error => exact Reaches.refl _
        | none => exact ih _
      · rw [preLoop_of_not_isPre executor request rest log selected,
          List.filter_cons_of_neg selected]
        exact ih log

theorem mainLoop_reaches (handlers : List Handler)
    {log : List (Submission V)} (answered : AnsweredBy executor log) :
    Reaches Call.step (callAt request handlers log (Stage.toMain handlers))
      (match mainLoop executor request handlers log with
        | (final, .error error) =>
            callAt request handlers final (.returned (.error error))
        | (final, .ok mainRun) =>
            callAt request handlers final
              (Stage.toPost mainRun (handlers.filter Handler.isPost))) := by
  rcases mainLoop_trace request handlers answered with ⟨_, main⟩
  unfold Stage.toMain
  cases first : handlers.find? Handler.isMain with
  | none =>
      rw [first] at main
      rw [main]
      exact Reaches.refl _
  | some handler =>
      rw [first] at main
      rcases main with ⟨cause, refused⟩ | ⟨run, accepted⟩
      · rw [refused]
        exact Reaches.head (.submit (.error cause)) rfl (Reaches.refl _)
      · rw [accepted]
        refine Reaches.head (.submit (.ok run)) rfl ?_
        simp only [Call.afterMain]
        split
        · exact Reaches.head .record rfl (Reaches.refl _)
        · exact Reaches.refl _

theorem postLoop_reaches (mainRun : Option (Run V))
    (handlers rest : List Handler) (log : List (Submission V)) :
    Reaches Call.step
      (callAt request handlers log
        (Stage.toPost mainRun (rest.filter Handler.isPost)))
      (callAt request handlers (postLoop executor request mainRun rest log)
        (.returned (.ok mainRun))) := by
  induction rest generalizing log with
  | nil => exact Reaches.refl _
  | cons handler rest ih =>
      by_cases selected : handler.isPost = true
      · rw [postLoop_of_isPost executor request rest log mainRun selected,
          List.filter_cons_of_pos selected]
        exact Reaches.head (.submit
          (executor log handler (request.postInput mainRun))) rfl (ih _)
      · rw [postLoop_of_not_isPost executor request rest log mainRun selected,
          List.filter_cons_of_neg selected]
        exact ih log

/--
The loops are the step machine run to its end: for every executor some run of
the machine makes the same submissions and returns the same result.
-/
theorem dispatch_reaches (handlers : List Handler) :
    Reaches Call.step (Call.start request handlers)
      (callAt request handlers (dispatch executor request handlers).1
        (.returned (dispatch executor request handlers).2)) := by
  unfold dispatch
  split
  · next empty =>
      cases List.length_eq_zero_iff.mp empty
      exact Reaches.refl _
  · next nonempty =>
      have started : Call.start request handlers =
          callAt request handlers []
            (Stage.toPre handlers (handlers.filter Handler.isPre)) := by
        have different : handlers ≠ [] := by
          rintro rfl
          exact nonempty rfl
        simp only [Call.start, callAt, if_neg different]
      have pre := preLoop_reaches executor request handlers handlers []
      have silent : AnsweredBy executor [] := Each.nil
      have answered := (preLoop_trace request handlers []
        (LetThrough.nil request.input) silent).1
      rw [← started] at pre
      split
      · next log error stopped =>
          rw [stopped] at pre
          exact pre
      · next log completed =>
          rw [completed] at pre answered
          have main := mainLoop_reaches executor request handlers answered
          split
          · next logged error refused =>
              rw [refused] at main
              exact pre.trans main
          · next logged mainRun accepted =>
              rw [accepted] at main
              exact (pre.trans main).trans
                (postLoop_reaches executor request mainRun handlers handlers _)

end Machine

end Infractl.Workflow
