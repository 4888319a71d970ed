import Infractl.Lib.Run
import Infractl.Providers.Registry

/-!
# The life of a provider registry

`Register` adds a provider and maps its features, `ResolveDependencies` stores
an order of the providers, and `InitAll` calls `Init` along the stored order up
to the first error.

`InitAll` resolves the dependencies only when no order is stored.  A provider
that is registered after the last resolution is in no stored order, and
`InitAll` then succeeds without it.
-/

namespace Infractl.Providers

open Infractl.Lib
open Infractl.Lib.Run

/-! ## Calls that stop at the first error -/

section CallEach

universe u v

variable {α : Type u} {ε : Type v} (errors : α → Option ε)

/-- Call the elements in turn: the calls made, and the one that failed. -/
def callEach : List α → List α × Option (α × ε)
  | [] => ([], none)
  | element :: rest =>
      match errors element with
      | some error => ([element], some (element, error))
      | none => (element :: (callEach rest).1, (callEach rest).2)

theorem callEach_append (list : List α) :
    ∃ skipped, list = (callEach errors list).1 ++ skipped := by
  induction list with
  | nil => exact ⟨[], rfl⟩
  | cons element rest ih =>
      rw [callEach]
      split
      · exact ⟨rest, rfl⟩
      · rcases ih with ⟨skipped, equal⟩
        exact ⟨skipped, congrArg (element :: ·) equal⟩

theorem mem_of_mem_callEach {list : List α} {element : α}
    (called : element ∈ (callEach errors list).1) :
    element ∈ list := by
  rcases callEach_append errors list with ⟨skipped, equal⟩
  rw [equal]
  exact List.mem_append_left skipped called

theorem callEach_of_forall {list : List α}
    (succeed : ∀ element ∈ list, errors element = none) :
    callEach errors list = (list, none) := by
  induction list with
  | nil => rfl
  | cons element rest ih =>
      rw [List.forall_mem_cons] at succeed
      rw [callEach, succeed.1, ih succeed.2]

theorem callEach_of_no_failure {list : List α}
    (succeeded : (callEach errors list).2 = none) :
    (callEach errors list).1 = list := by
  induction list with
  | nil => rfl
  | cons element rest ih =>
      rw [callEach] at succeeded ⊢
      split at succeeded
      · cases succeeded
      · exact congrArg (element :: ·) (ih succeeded)

/-- The last element is reached when no other fails. -/
theorem last_mem_callEach_iff {front : List α} {last : α}
    (fresh : last ∉ front) :
    last ∈ (callEach errors (front ++ [last])).1 ↔
      ∀ element ∈ front, errors element = none := by
  induction front with
  | nil =>
      rw [List.nil_append, callEach]
      split <;> simp
  | cons element rest ih =>
      rw [List.mem_cons, not_or] at fresh
      rw [List.cons_append, callEach, List.forall_mem_cons, ← ih fresh.2]
      split
      · next error failed => simp [failed, fresh.1]
      · next succeeded => simp [succeeded, fresh.1]

end CallEach

/-! ## The calls -/

/-- Why `Register` refuses a provider. -/
inductive RegisterError where
  | duplicate (name : String)
  | featureTaken (feature existing name : String)
deriving DecidableEq

/-- The text of the error. -/
def RegisterError.message (quote : String → String) : RegisterError → String
  | .duplicate name => "provider " ++ quote name ++ " already registered"
  | .featureTaken feature existing name =>
      "feature " ++ quote feature ++ " already provided by " ++ quote existing ++
        ", cannot register " ++ quote name

/-- Why `InitAll` stops. -/
inductive InitError where
  | resolve (failure : ResolveError)
  | failed (name cause : String)
deriving DecidableEq

/-- The text of the error. -/
def InitError.message (quote : String → String) : InitError → String
  | .resolve failure => failure.message quote
  | .failed name cause =>
      "failed to initialize provider " ++ quote name ++ ": " ++ cause

/-- Map features to their provider up to the first that is taken. -/
def mapFeatures (name : String) :
    List String → (String → Option String) →
      (String → Option String) × Option RegisterError
  | [], features => (features, none)
  | feature :: rest, features =>
      match features feature with
      | some existing => (features, some (.featureTaken feature existing name))
      | none =>
          mapFeatures name rest (Function.update features feature (some name))

/-- A registry, its features, and the calls of `Init` made so far. -/
structure Lifecycle where
  registry : Registry
  features : String → Option String
  inits : List String

/-- What `InitAll` leaves: the registry, the providers called, and its error. -/
structure InitResult where
  registry : Registry
  calls : List String
  error : Option InitError

/--
`InitAll`, for an iteration order of the map and the errors that the providers
would return.
-/
def Registry.initAll (registry : Registry) (iteration : List String)
    (errors : String → Option String) : InitResult :=
  match
    if registry.order = [] then registry.resolveDependencies iteration
    else (registry, none)
  with
  | (resolved, some failure) => ⟨resolved, [], some (.resolve failure)⟩
  | (resolved, none) =>
      ⟨resolved, (callEach errors resolved.order).1,
        (callEach errors resolved.order).2.map
          (fun failure => .failed failure.1 failure.2)⟩

namespace Lifecycle

/-- `NewRegistry`. -/
def new : Lifecycle where
  registry := ⟨KeyedTable.empty, []⟩
  features _ := none
  inits := []

/--
`Register`.  The provider is stored before its features are mapped, and stays
when one of them is taken.
-/
def register (state : Lifecycle) (provider : Provider) (features : List String) :
    Lifecycle × Option RegisterError :=
  match state.registry.providers.insert? provider with
  | none => (state, some (.duplicate provider.name))
  | some providers =>
      let mapped := mapFeatures provider.name features state.features
      ({ state with
          registry := { state.registry with providers := providers }
          features := mapped.1 },
        mapped.2)

/-- The state after `ResolveDependencies`. -/
def resolveDependencies (state : Lifecycle) (iteration : List String) :
    Lifecycle :=
  { state with registry := (state.registry.resolveDependencies iteration).1 }

/-- The state after `InitAll`. -/
def initAll (state : Lifecycle) (iteration : List String)
    (errors : String → Option String) : Lifecycle :=
  let result := state.registry.initAll iteration errors
  { state with
    registry := result.registry
    inits := state.inits ++ result.calls }

/-- A call on the registry, with what the program does not decide. -/
inductive Call where
  | register (provider : Provider) (features : List String)
  | resolveDependencies (iteration : List String)
  | initAll (iteration : List String) (errors : String → Option String)

/-- A map is iterated in some order of its keys. -/
def step (state : Lifecycle) : Call → Option Lifecycle
  | .register provider features => some (state.register provider features).1
  | .resolveDependencies iteration =>
      if iteration.Perm state.registry.names then
        some (state.resolveDependencies iteration)
      else
        none
  | .initAll iteration errors =>
      if iteration.Perm state.registry.names then
        some (state.initAll iteration errors)
      else
        none

end Lifecycle

/-! ## The stored order -/

namespace Registry

variable {registry : Registry}

/-- What the stored order always is: distinct registered names, targets first. -/
structure Ordered (registry : Registry) : Prop where
  distinct : registry.order.Nodup
  registered : ∀ name ∈ registry.order, name ∈ registry.names
  ordered : TargetsFirst registry.DependsOn registry.order

theorem IsInitOrder.stored {order : List String}
    (isOrder : registry.IsInitOrder order) :
    Ordered { registry with order := order } :=
  ⟨isOrder.1, fun _ member => isOrder.2.1.mem_iff.mp member, isOrder.2.2⟩

/-- The dependencies of a provider do not change when another is added. -/
theorem dependsOn_of_insert? {provider : Provider}
    {providers : KeyedTable Provider.name}
    (inserted : registry.providers.insert? provider = some providers)
    {name dep : String} (known : name ∈ registry.names)
    (depends : DependsOn { registry with providers := providers } name dep) :
    registry.DependsOn name dep := by
  rcases (KeyedTable.insert?_eq_some_iff ..).mp inserted with ⟨absent, rows⟩
  rcases depends with ⟨stored, member, named, listed⟩
  change stored ∈ providers.rows at member
  rw [rows, List.mem_append, List.mem_singleton] at member
  rcases member with old | rfl
  · exact ⟨stored, old, named, listed⟩
  · rw [named, KeyedTable.find_eq_none_iff] at absent
    exact absurd known absent

theorem names_of_insert? {provider : Provider}
    {providers : KeyedTable Provider.name}
    (inserted : registry.providers.insert? provider = some providers) :
    names { registry with providers := providers } =
      registry.names ++ [provider.name] := by
  rcases (KeyedTable.insert?_eq_some_iff ..).mp inserted with ⟨_, rows⟩
  simp [names, rows]

/--
`InitAll` fails to resolve and calls no provider, or calls the providers of an
order that it found stored or has just stored.
-/
theorem initAll_cases {iteration : List String}
    (errors : String → Option String)
    (iterates : iteration.Perm registry.names) :
    (registry.order = [] ∧ ¬ registry.Resolvable ∧
      ∃ failure, registry.initAll iteration errors =
        ⟨registry, [], some (.resolve failure)⟩) ∨
    ∃ order,
      (registry.order = [] ∧ registry.IsInitOrder order ∧
          registry.resolveDependencies iteration =
            ({ registry with order := order }, none) ∨
        registry.order ≠ [] ∧ registry.order = order) ∧
      registry.initAll iteration errors =
        ⟨{ registry with order := order }, (callEach errors order).1,
          (callEach errors order).2.map
            (fun failure => .failed failure.1 failure.2)⟩ := by
  unfold initAll
  by_cases unset : registry.order = []
  · rw [if_pos unset]
    rcases registry.resolveDependencies_cases iterates with
      ⟨failure, failed, stuck⟩ | ⟨order, resolved, isOrder⟩
    · rw [failed]
      exact Or.inl ⟨unset, stuck, failure, rfl⟩
    · rw [resolved]
      exact Or.inr ⟨order, Or.inl ⟨unset, isOrder, rfl⟩, rfl⟩
  · rw [if_neg unset]
    exact Or.inr ⟨registry.order, Or.inr ⟨unset, rfl⟩, rfl⟩

end Registry

/-! ## What every sequence of calls keeps -/

namespace Lifecycle

variable {state next : Lifecycle}

/-- The providers called are in the stored order, each after its targets. -/
structure Valid (state : Lifecycle) : Prop where
  stored : state.registry.Ordered
  called : ∀ name ∈ state.inits, name ∈ state.registry.order
  inOrder : TargetsFirst state.registry.DependsOn state.inits

theorem new_valid : new.Valid where
  stored := ⟨List.nodup_nil, (fun _ member => by cases member), Each.nil⟩
  called _ member := by cases member
  inOrder := Each.nil

theorem Valid.register (valid : state.Valid) (provider : Provider)
    (features : List String) :
    (state.register provider features).1.Valid := by
  unfold Lifecycle.register
  split
  · exact valid
  · next providers inserted =>
      have same : ∀ name ∈ state.registry.order, ∀ dep,
          Registry.DependsOn { state.registry with providers := providers }
            name dep →
          state.registry.DependsOn name dep :=
        fun name member _ =>
          Registry.dependsOn_of_insert? inserted
            (valid.stored.registered name member)
      refine ⟨⟨valid.stored.distinct, ?_, valid.stored.ordered.of_edges same⟩,
        valid.called, ?_⟩
      · intro name member
        change name ∈ Registry.names
          { state.registry with providers := providers }
        rw [Registry.names_of_insert? inserted]
        exact List.mem_append_left _ (valid.stored.registered name member)
      · exact valid.inOrder.of_edges
          (fun name member => same name (valid.called name member))

/-- A new order holds every registered name, so it keeps those called. -/
theorem Valid.reorder (valid : state.Valid) {order : List String}
    (isOrder : state.registry.IsInitOrder order) :
    Valid { state with registry := { state.registry with order := order } } where
  stored := isOrder.stored
  called name member :=
    isOrder.2.1.mem_iff.mpr
      (valid.stored.registered name (valid.called name member))
  inOrder := valid.inOrder

theorem Valid.resolveDependencies (valid : state.Valid)
    {iteration : List String}
    (iterates : iteration.Perm state.registry.names) :
    (state.resolveDependencies iteration).Valid := by
  unfold Lifecycle.resolveDependencies
  rcases state.registry.resolveDependencies_cases iterates with
    ⟨failure, failed, _⟩ | ⟨order, resolved, isOrder⟩
  · rw [failed]
    exact valid
  · rw [resolved]
    exact valid.reorder isOrder

/-- Calling a part of the stored order, from its start. -/
theorem Valid.callInits (valid : state.Valid) (errors : String → Option String) :
    Valid { state with
      inits := state.inits ++ (callEach errors state.registry.order).1 } where
  stored := valid.stored
  called name member := by
    rcases List.mem_append.mp member with earlier | now
    · exact valid.called name earlier
    · exact mem_of_mem_callEach errors now
  inOrder := by
    rcases callEach_append errors state.registry.order with ⟨skipped, equal⟩
    have ordered := valid.stored.ordered
    rw [equal] at ordered
    exact valid.inOrder.append ordered.of_append

theorem Valid.initAll (valid : state.Valid) {iteration : List String}
    (errors : String → Option String)
    (iterates : iteration.Perm state.registry.names) :
    (state.initAll iteration errors).Valid := by
  unfold Lifecycle.initAll
  rcases state.registry.initAll_cases errors iterates with
    ⟨_, _, failure, failed⟩ | ⟨order, source, called⟩
  · rw [failed]
    simpa using valid
  · rw [called]
    rcases source with ⟨_, isOrder, _⟩ | ⟨_, rfl⟩
    · exact (valid.reorder isOrder).callInits errors
    · exact valid.callInits errors

theorem step_valid {call : Call} (valid : state.Valid)
    (stepped : state.step call = some next) :
    next.Valid := by
  cases call with
  | register provider features =>
      cases stepped
      exact valid.register provider features
  | resolveDependencies iteration =>
      rcases Option.ite_none_right_eq_some.mp stepped with ⟨iterates, equal⟩
      cases equal
      exact valid.resolveDependencies iterates
  | initAll iteration errors =>
      rcases Option.ite_none_right_eq_some.mp stepped with ⟨iterates, equal⟩
      cases equal
      exact valid.initAll errors iterates

theorem run_valid {calls : List Call}
    (reached : run step new calls = some state) :
    state.Valid :=
  run_invariant step (fun _ _ _ valid stepped => step_valid valid stepped)
    new_valid reached

/-! ## Coverage -/

/-- Every registered provider was called, each after its dependencies. -/
def Covered (state : Lifecycle) : Prop :=
  (∀ name ∈ state.registry.names, name ∈ state.inits) ∧
    TargetsFirst state.registry.DependsOn state.inits

/--
After any sequence of calls, an `InitAll` that returns no error has covered the
registry exactly when it found no order stored, or one that holds every
registered provider.
-/
theorem initAll_covers_iff
    {state : Lifecycle} (calls : List Call) (iteration : List String)
    (errors : String → Option String)
    (reached : run step new calls = some state)
    (iterates : iteration.Perm state.registry.names)
    (succeeded : (state.registry.initAll iteration errors).error = none) :
    (state.initAll iteration errors).Covered ↔
      state.registry.order = [] ∨
        ∀ name ∈ state.registry.names, name ∈ state.registry.order := by
  have valid := run_valid reached
  have after := valid.initAll errors iterates
  have inOrder := after.inOrder
  rw [Covered, and_iff_left inOrder]
  rcases state.registry.initAll_cases errors iterates with
    ⟨_, _, failure, failed⟩ | ⟨order, source, called⟩
  · rw [failed] at succeeded
    cases succeeded
  · rw [called] at succeeded
    have all := callEach_of_no_failure errors
      (Option.map_eq_none_iff.mp succeeded)
    simp only [Lifecycle.initAll, called, all]
    rcases source with ⟨unset, isOrder, _⟩ | ⟨set, rfl⟩
    · refine iff_of_true ?_ (Or.inl unset)
      intro name member
      exact List.mem_append_right _ (isOrder.2.1.mem_iff.mpr member)
    · rw [or_iff_right set]
      refine forall₂_congr fun name _ => ?_
      rw [List.mem_append, or_iff_right_of_imp (valid.called name)]

/-- A provider registered after its dependency is called after it. -/
theorem dependency_initialised_first :
    ∃ state,
      run step new
          [.register ⟨"db", []⟩ ["storage"], .register ⟨"api", ["db"]⟩ []] =
        some state ∧
      (state.initAll ["api", "db"] (fun _ => none)).inits = ["db", "api"] ∧
      (state.initAll ["api", "db"] (fun _ => none)).Covered := by
  refine ⟨_, rfl, rfl, ?_⟩
  exact (initAll_covers_iff
    [.register ⟨"db", []⟩ ["storage"], .register ⟨"api", ["db"]⟩ []]
    ["api", "db"] (fun _ => none) rfl (by decide) rfl).mpr (Or.inl rfl)

/--
A provider registered after a first `InitAll` is not called by the second,
which returns no error.
-/
theorem late_provider_not_initialised :
    ∃ state,
      run step new
          [.register ⟨"db", []⟩ [], .initAll ["db"] (fun _ => none),
            .register ⟨"api", ["db"]⟩ []] =
        some state ∧
      ["db", "api"].Perm state.registry.names ∧
      (state.registry.initAll ["db", "api"] (fun _ => none)).error = none ∧
      "api" ∉ (state.initAll ["db", "api"] (fun _ => none)).inits ∧
      ¬ (state.initAll ["db", "api"] (fun _ => none)).Covered := by
  refine ⟨_, rfl, by decide, rfl, by decide, ?_⟩
  rintro ⟨all, _⟩
  exact absurd (all "api" (by decide)) (by decide)

end Lifecycle

end Infractl.Providers
