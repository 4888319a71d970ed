import Infractl.Lib.KeyedTable
import Infractl.Workflow.Dispatch

/-!
# Tracked runs

A call of `Dispatch` records its main run when the run is not finished, and a
polling loop looks at the recorded runs: it copies them under the lock, polls
each, and when one has finished it invokes the status callback and then removes
the run under the lock.

Any number of calls run concurrently with one polling loop.  Each takes the
lock for a single step; between the steps of one, the others move.
-/

namespace Infractl.Workflow

open Infractl.Lib
open Infractl.Lib.Run
open Infractl.Store (UUID Time)

variable {ι V : Type}

/-! ## The tracked runs and the polling loop -/

/-- A run and the resource that triggered it. -/
structure TrackedRun where
  runID : String
  resourceType : String
  orgID : UUID
  name : String
  event : String
  submittedAt : Time
deriving DecidableEq

/-- The map of tracked runs, under their identifiers. -/
abbrev Tracked := KeyedTable TrackedRun.runID

/-- The entry recorded for a run; only the first of the options counts. -/
def Request.track (request : Request V) (opts : DispatchOpts) (run : Run V)
    (now : Time) : TrackedRun where
  runID := run.id
  resourceType := request.resourceType
  orgID := opts.orgID
  name := opts.name
  event := request.event
  submittedAt := now

/-- Where `pollOnce` is: about to poll, to call back, or to remove a run. -/
inductive Poller (V : Type) where
  | idle
  | polling (entry : TrackedRun) (rest : List TrackedRun)
  | calling (entry : TrackedRun) (run : Run V) (rest : List TrackedRun)
  | deleting (entry : TrackedRun) (rest : List TrackedRun)

namespace Poller

/-- Go on with the entries left of the copy. -/
def next : List TrackedRun → Poller V
  | [] => .idle
  | entry :: rest => .polling entry rest

/-- The entries of the copy that no callback was invoked for yet. -/
def waiting : Poller V → List TrackedRun
  | .idle => []
  | .polling entry rest => entry :: rest
  | .calling entry _ rest => entry :: rest
  | .deleting _ rest => rest

/-- The entry whose callback has returned and that is still to be removed. -/
def removing : Poller V → Option TrackedRun
  | .deleting entry _ => some entry
  | _ => none

@[simp]
theorem next_waiting (rest : List TrackedRun) :
    (next rest : Poller V).waiting = rest := by
  cases rest <;> rfl

@[simp]
theorem next_removing (rest : List TrackedRun) :
    (next rest : Poller V).removing = none := by
  cases rest <;> rfl

theorem next_ne_calling (rest : List TrackedRun) (entry : TrackedRun)
    (run : Run V) (others : List TrackedRun) :
    next rest ≠ .calling entry run others := by
  cases rest <;> simp [next]

end Poller

/-- What happened: a run was polled, or the callback returned. -/
inductive Event (V : Type) where
  | polled (entry : TrackedRun) (run : Run V)
  | called (entry : TrackedRun) (run : Run V) (error : Option String)

def Event.isCalled (id : String) : Event V → Bool
  | .called entry _ _ => entry.runID = id
  | _ => false

/-- How often the callback was invoked for a run. -/
def callbacksOf (id : String) (log : List (Event V)) : Nat :=
  log.countP (Event.isCalled id)

/-- The calls, the tracked runs, the polling loop, and what happened. -/
structure World (ι V : Type) where
  calls : ι → Call V
  tracked : Tracked
  poller : Poller V
  log : List (Event V)

/-- Which call moves, or how the polling loop does. -/
inductive Label (ι V : Type) where
  | submit (client : ι) (answer : Answer V)
  | record (client : ι) (now : Time)
  | snapshot (order : List TrackedRun)
  | poll (answer : Answer V)
  | callback (error : Option String)
  | delete

namespace World

variable [DecidableEq ι]

/-- Where `Poll` of an entry leads: only a finished run is reported. -/
def polled (entry : TrackedRun) (rest : List TrackedRun) : Answer V → Poller V
  | .error _ => Poller.next rest
  | .ok run =>
      if run.status.terminal then .calling entry run rest else Poller.next rest

/-- What `Poll` of an entry adds to the log. -/
def pollEvents (entry : TrackedRun) : Answer V → List (Event V)
  | .error _ => []
  | .ok run => [.polled entry run]

@[simp]
theorem mem_pollEvents_iff {entry : TrackedRun} {answer : Answer V}
    {event : Event V} :
    event ∈ pollEvents entry answer ↔
      ∃ run, answer = .ok run ∧ event = .polled entry run := by
  cases answer with
  | error cause => simp [pollEvents]
  | ok run => simp [pollEvents]

/-- One step of a call or of the polling loop. -/
def step (world : World ι V) : Label ι V → Option (World ι V)
  | .submit client answer =>
      ((world.calls client).submit answer).map fun call =>
        { world with calls := Function.update world.calls client call }
  | .record client now =>
      match (world.calls client).stage, (world.calls client).request.opts with
      | .record run, opts :: _ =>
          some
            { world with
              calls := Function.update world.calls client
                ((world.calls client).recorded run)
              tracked := world.tracked.put
                ((world.calls client).request.track opts run now) }
      | _, _ => none
  | .snapshot order =>
      match world.poller with
      | .idle =>
          if order.Perm world.tracked.rows then
            some { world with poller := Poller.next order }
          else
            none
      | _ => none
  | .poll answer =>
      match world.poller with
      | .polling entry rest =>
          some
            { world with
              poller := polled entry rest answer
              log := world.log ++ pollEvents entry answer }
      | _ => none
  | .callback error =>
      match world.poller with
      | .calling entry run rest =>
          some
            { world with
              poller := .deleting entry rest
              log := world.log ++ [.called entry run error] }
      | _ => none
  | .delete =>
      match world.poller with
      | .deleting entry rest =>
          some
            { world with
              tracked := world.tracked.erase entry.runID
              poller := Poller.next rest }
      | _ => none

/-- The effect of a step, case by case. -/
inductive Moves (world : World ι V) : Label ι V → World ι V → Prop where
  | submitted {client : ι} {answer : Answer V} {call : Call V}
      (submits : (world.calls client).submit answer = some call) :
      Moves world (.submit client answer)
        { world with calls := Function.update world.calls client call }
  | recorded {client : ι} {now : Time} {run : Run V} {opts : DispatchOpts}
      {others : List DispatchOpts}
      (stage : (world.calls client).stage = .record run)
      (options : (world.calls client).request.opts = opts :: others) :
      Moves world (.record client now)
        { world with
          calls := Function.update world.calls client
            ((world.calls client).recorded run)
          tracked := world.tracked.put
            ((world.calls client).request.track opts run now) }
  | copied {order : List TrackedRun}
      (idle : world.poller = .idle)
      (permutes : order.Perm world.tracked.rows) :
      Moves world (.snapshot order) { world with poller := Poller.next order }
  | polled {answer : Answer V} {entry : TrackedRun} {rest : List TrackedRun}
      (polling : world.poller = .polling entry rest) :
      Moves world (.poll answer)
        { world with
          poller := polled entry rest answer
          log := world.log ++ pollEvents entry answer }
  | called {error : Option String} {entry : TrackedRun} {run : Run V}
      {rest : List TrackedRun}
      (calling : world.poller = .calling entry run rest) :
      Moves world (.callback error)
        { world with
          poller := .deleting entry rest
          log := world.log ++ [.called entry run error] }
  | deleted {entry : TrackedRun} {rest : List TrackedRun}
      (deleting : world.poller = .deleting entry rest) :
      Moves world .delete
        { world with
          tracked := world.tracked.erase entry.runID
          poller := Poller.next rest }

theorem step_moves {world next : World ι V} {label : Label ι V}
    (stepped : world.step label = some next) :
    world.Moves label next := by
  cases label with
  | submit client answer =>
      rcases Option.map_eq_some_iff.mp stepped with ⟨call, submits, rfl⟩
      exact .submitted submits
  | record client now =>
      simp only [step] at stepped
      split at stepped
      · next run opts others stage options =>
          cases stepped
          exact .recorded stage options
      · cases stepped
  | snapshot order =>
      simp only [step] at stepped
      split at stepped
      · next idle =>
          rcases Option.ite_none_right_eq_some.mp stepped with ⟨permutes, equal⟩
          cases equal
          exact .copied idle permutes
      · cases stepped
  | poll answer =>
      simp only [step] at stepped
      split at stepped
      · next entry rest polling =>
          cases stepped
          exact .polled polling
      · cases stepped
  | callback error =>
      simp only [step] at stepped
      split at stepped
      · next entry run rest calling =>
          cases stepped
          exact .called calling
      · cases stepped
  | delete =>
      simp only [step] at stepped
      split at stepped
      · next entry rest deleting =>
          cases stepped
          exact .deleted deleting
      · cases stepped

end World

end Infractl.Workflow
