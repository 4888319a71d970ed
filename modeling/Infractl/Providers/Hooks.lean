import Infractl.Lib.Buckets

/-!
# Synchronous hooks

A hook is registered for a feature and an event, under a key that glues the two
together with a colon.  `FireSync` calls the hooks of a key in the order of
their registration and stops at the first error, which it wraps.

A handler may do anything: calling it takes the world to another one and
returns an error or none.  The hooks called are those of the feature and event
exactly when the first error, if there is one, comes before every hook of
another feature and event that is registered under the same key; whatever the
handlers do, this is so exactly when no such hook is registered.
-/

namespace Infractl.Providers

open Infractl.Lib

variable {H Payload World : Type}

/-- A hook; `handler` is the function it runs. -/
structure SyncHook (H : Type) where
  feature : String
  event : String
  handler : H

/-- The feature and the event a hook is registered for. -/
def SyncHook.topic (hook : SyncHook H) : String × String :=
  (hook.feature, hook.event)

/-- `hookKey`. -/
def hookKey (feature event : String) : String :=
  feature ++ ":" ++ event

/-- The registered hooks under each key, in the order of registration. -/
structure HookRegistry (H : Type) where
  hooks : String → List (SyncHook H)

/-- `newHookRegistry`. -/
def newHookRegistry : HookRegistry H :=
  ⟨fun _ => []⟩

/-- `RegisterHook`. -/
def registerHook (registry : HookRegistry H) (hook : SyncHook H) :
    HookRegistry H :=
  let key := hookKey hook.feature hook.event
  ⟨Function.update registry.hooks key (registry.hooks key ++ [hook])⟩

/-- The registry after a sequence of `RegisterHook` calls. -/
def registerHooks (hooks : List (SyncHook H)) : HookRegistry H :=
  hooks.foldl registerHook newHookRegistry

/-- What the handlers do when they are called. -/
abbrev Behaviour (H Payload World : Type) :=
  H → Payload → World → World × Option String

/-- The error of a hook, wrapped. -/
structure HookError where
  feature : String
  event : String
  cause : String
deriving DecidableEq

/-- The text of the error. -/
def HookError.message (error : HookError) : String :=
  "hook " ++ error.feature ++ ":" ++ error.event ++ " failed: " ++ error.cause

/-- What `FireSync` leaves: each hook called, with its answer, and the result. -/
structure Fired (H World : Type) where
  world : World
  calls : List (SyncHook H × Option String)
  error : Option HookError

/-- The loop of `FireSync`. -/
def fireEach (behaviour : Behaviour H Payload World) (feature event : String)
    (payload : Payload) : List (SyncHook H) → World → Fired H World
  | [], world => ⟨world, [], none⟩
  | hook :: rest, world =>
      match behaviour hook.handler payload world with
      | (next, some cause) =>
          ⟨next, [(hook, some cause)], some ⟨feature, event, cause⟩⟩
      | (next, none) =>
          let fired := fireEach behaviour feature event payload rest next
          { fired with calls := (hook, none) :: fired.calls }

/-- `FireSync`; a nil runner calls nothing. -/
def fireSync (behaviour : Behaviour H Payload World)
    (runner : Option (HookRegistry H)) (feature event : String)
    (payload : Payload) (world : World) : Fired H World :=
  match runner with
  | none => ⟨world, [], none⟩
  | some registry =>
      fireEach behaviour feature event payload
        (registry.hooks (hookKey feature event)) world

/-! ## Stopping at the first error -/

/-- Calling the handlers one after the other gives these answers. -/
inductive Answered (behaviour : Behaviour H Payload World) (payload : Payload) :
    World → List (SyncHook H × Option String) → World → Prop where
  | nil (world : World) : Answered behaviour payload world [] world
  | cons {world next final : World} {hook : SyncHook H}
      {answer : Option String} {rest : List (SyncHook H × Option String)}
      (called : behaviour hook.handler payload world = (next, answer))
      (later : Answered behaviour payload next rest final) :
      Answered behaviour payload world ((hook, answer) :: rest) final

section InOrder

variable (behaviour : Behaviour H Payload World) (feature event : String)
variable (payload : Payload)

/-- The hooks are called in order, up to the first that returns an error. -/
structure RunsInOrder (world : World) (hooks : List (SyncHook H))
    (fired : Fired H World) : Prop where
  inOrder : fired.calls.map Prod.fst <+: hooks
  answered : Answered behaviour payload world fired.calls fired.world
  stops : ∀ error, fired.error = some error →
    ∃ before hook cause,
      fired.calls = before ++ [(hook, some cause)] ∧
        (∀ call ∈ before, call.2 = none) ∧ error = ⟨feature, event, cause⟩
  succeeds : fired.error = none ↔
    fired.calls.map Prod.fst = hooks ∧ ∀ call ∈ fired.calls, call.2 = none

theorem fireEach_runsInOrder (hooks : List (SyncHook H)) (world : World) :
    RunsInOrder behaviour feature event payload world hooks
      (fireEach behaviour feature event payload hooks world) := by
  induction hooks generalizing world with
  | nil =>
      exact ⟨List.nil_prefix, .nil world, by simp [fireEach],
        by simp [fireEach]⟩
  | cons hook rest ih =>
      rw [fireEach]
      split
      · next next cause called =>
          refine ⟨⟨rest, rfl⟩, .cons called (.nil next), ?_, by simp⟩
          rintro error ⟨⟩
          exact ⟨[], hook, cause, rfl, (fun _ member => by cases member), rfl⟩
      · next next called =>
          have later := ih next
          constructor
          · exact List.cons_prefix_cons.mpr ⟨rfl, later.inOrder⟩
          · exact .cons called later.answered
          · intro error failed
            rcases later.stops error failed with
              ⟨before, failing, cause, calls, silent, wrapped⟩
            refine ⟨(hook, none) :: before, failing, cause,
              congrArg ((hook, none) :: ·) calls, ?_, wrapped⟩
            exact List.forall_mem_cons.mpr ⟨rfl, silent⟩
          · rw [List.forall_mem_cons]
            simpa using later.succeeds

/-- The hooks called are those chosen if no other hook comes before the first error. -/
theorem fireEach_chosen_iff (chosen : SyncHook H → Bool) (hooks : List (SyncHook H))
    (world : World) :
    RunsInOrder behaviour feature event payload world (hooks.filter chosen)
        (fireEach behaviour feature event payload hooks world) ↔
      ∀ call ∈ (fireEach behaviour feature event payload hooks world).calls,
        chosen call.1 = true := by
  have runs := fireEach_runsInOrder behaviour feature event payload hooks world
  generalize fireEach behaviour feature event payload hooks world = fired at runs ⊢
  constructor
  · intro exact call member
    have listed := exact.inOrder.subset (List.mem_map_of_mem member)
    exact (List.mem_filter.mp listed).2
  · intro own
    have kept : (fired.calls.map Prod.fst).filter chosen = fired.calls.map Prod.fst :=
      List.filter_eq_self.mpr (List.forall_mem_map.mpr own)
    refine ⟨?_, runs.answered, runs.stops, ?_, ?_⟩
    · rw [← kept]
      exact runs.inOrder.filter chosen
    · intro succeeded
      rcases runs.succeeds.mp succeeded with ⟨all, silent⟩
      rw [← all, kept]
      exact ⟨rfl, silent⟩
    · rintro ⟨_, silent⟩
      by_contra failed
      rcases Option.ne_none_iff_exists'.mp failed with ⟨error, isError⟩
      rcases runs.stops error isError with ⟨before, hook, cause, calls, _, _⟩
      have answer := silent (hook, some cause) (calls ▸ List.mem_concat_self)
      cases answer

/-- Handlers that return no error are all called. -/
theorem calls_of_silent (hooks : List (SyncHook H)) (world : World) :
    (fireEach (fun _ _ world => (world, none)) feature event payload hooks
        world).calls.map Prod.fst = hooks := by
  have runs := fireEach_runsInOrder (fun (_ : H) _ (world : World) =>
    (world, none)) feature event payload hooks world
  refine (runs.succeeds.mp ?_).1
  induction hooks with
  | nil => rfl
  | cons hook rest ih => exact ih (fireEach_runsInOrder ..)

end InOrder

/-! ## Which hooks are called -/

theorem hooks_registerHooks (hooks : List (SyncHook H)) (key : String) :
    (registerHooks hooks).hooks key =
      hooks.filter (fun hook => hookKey hook.feature hook.event = key) := by
  have folded : (registerHooks hooks).hooks =
      hooks.foldl (Buckets.add (fun hook => hookKey hook.feature hook.event))
        newHookRegistry.hooks :=
    (List.foldl_hom HookRegistry.hooks (fun _ _ => rfl)).symm
  rw [folded, Buckets.foldl_add_apply]
  rfl

/-- The hooks that share a key are filtered by feature and event. -/
theorem filter_topic (registered : List (SyncHook H)) (feature event : String) :
    registered.filter (fun hook => hook.topic = (feature, event)) =
      (registered.filter fun hook =>
          hookKey hook.feature hook.event = hookKey feature event).filter
        (fun hook => hook.topic = (feature, event)) := by
  rw [List.filter_filter]
  apply List.filter_congr
  intro hook _
  by_cases same : hook.topic = (feature, event)
  · cases same
    simp
  · simp [same]

/--
After any sequence of `RegisterHook` calls, `FireSync` calls exactly the hooks
of the feature and event if and only if no hook of another feature and event is
called: none that is registered under the same key comes before the first error.
Whatever the handlers do, this is so if and only if there is no such hook.
-/
theorem fireSync_exact_iff (registered : List (SyncHook H))
    (feature event : String) (payload : Payload) (world : World) :
    (∀ behaviour : Behaviour H Payload World,
      RunsInOrder behaviour feature event payload world
          (registered.filter (fun hook => hook.topic = (feature, event)))
          (fireSync behaviour (some (registerHooks registered)) feature event
            payload world) ↔
        ∀ call ∈ (fireSync behaviour (some (registerHooks registered)) feature
          event payload world).calls, call.1.topic = (feature, event)) ∧
    ((∀ behaviour : Behaviour H Payload World,
      RunsInOrder behaviour feature event payload world
        (registered.filter (fun hook => hook.topic = (feature, event)))
        (fireSync behaviour (some (registerHooks registered)) feature event
          payload world)) ↔
      Buckets.Unmixed SyncHook.topic (fun topic => hookKey topic.1 topic.2)
        registered (feature, event)) := by
  simp only [fireSync, hooks_registerHooks]
  constructor
  · intro behaviour
    rw [filter_topic, fireEach_chosen_iff]
    simp only [decide_eq_true_eq]
  constructor
  · intro exact
    have silent := exact (fun _ _ world => (world, none))
    have called := silent.inOrder
    rw [calls_of_silent] at called
    exact Buckets.unmixed_of_subset called.subset
  · intro unmixed behaviour
    have same := unmixed.filter_eq
    rw [← same]
    exact fireEach_runsInOrder ..

/-- A hook that vetoes the deletion of a disk. -/
def diskHook : SyncHook String :=
  ⟨"storage:disk", "delete", "refuse"⟩

/-- Every handler returns its own text as an error. -/
def refusing : Behaviour String Unit Unit :=
  fun handler _ world => (world, some handler)

/-- The hook of another feature stops the operation. -/
theorem other_hook_vetoes :
    (fireSync refusing (some (registerHooks [diskHook])) "storage"
        "disk:delete" () ()).error =
      some ⟨"storage", "disk:delete", "refuse"⟩ ∧
    [diskHook].filter (fun hook => hook.topic = ("storage", "disk:delete")) =
      [] := by
  decide

end Infractl.Providers
