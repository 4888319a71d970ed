import Infractl.Lib.DepthFirst
import Infractl.Lib.KeyedTable

/-!
# The provider registry

`ResolveDependencies` orders the registered providers so that each comes after
its dependencies.  It is a depth-first search over the dependency lists,
started from every registered name in the order in which the map happens to be
iterated.

The recursion ends on every registry, whatever the dependency lists.  It
succeeds exactly when all dependencies are registered and no provider depends
on itself through any chain.
-/

namespace Infractl.Providers

open Infractl.Lib
open Infractl.Lib.DepthFirst

/-- What the registry asks a provider for. -/
structure Provider where
  name : String
  dependencies : List String

/-- The registered providers, and the order of the last resolution. -/
structure Registry where
  providers : KeyedTable Provider.name
  order : List String

/-- Why a resolution fails. -/
abbrev ResolveError :=
  Failure String

/-- The message of an error; `quote` is the quoting verb of the formatter. -/
def ResolveError.message (quote : String → String) : ResolveError → String
  | .circular name =>
      "circular dependency detected involving " ++ quote name
  | .missing name =>
      "missing dependency: provider " ++ quote name ++ " not registered"
  | .dangling name dep =>
      "provider " ++ quote name ++ " depends on " ++ quote dep ++
        ", which is not registered"

namespace Registry

variable (registry : Registry)

def names : List String :=
  registry.providers.rows.map Provider.name

/-- The dependencies of a registered name. -/
def dependencies (name : String) : Option (List String) :=
  (registry.providers.find name).map Provider.dependencies

@[simp]
theorem dependencies_isSome_iff (name : String) :
    (registry.dependencies name).isSome = true ↔ name ∈ registry.names := by
  rw [dependencies, Option.isSome_map, ← Bool.not_eq_false,
    Option.isSome_eq_false_iff, Option.isNone_iff_eq_none,
    KeyedTable.find_eq_none_iff, not_not]
  rfl

/--
`ResolveDependencies` with the iteration order of the map and a bound on the
depth of the recursion.  The outer `none` means that the bound was reached.
-/
def resolve (fuel : Nat) (iteration : List String) :
    Option (Registry × Option ResolveError) :=
  (visitEach (visit registry.dependencies fuel) iteration Search.start).map
    (fun result =>
      match result with
      | .error failure => (registry, some failure)
      | .ok search => ({ registry with order := search.order }, none))

theorem visitEach_isSome_of_lt {fuel : Nat} (iteration : List String)
    (enough : registry.names.length < fuel) :
    (visitEach (visit registry.dependencies fuel) iteration
      Search.start).isSome = true := by
  apply visitEach_isSome
  · intro name before after visited
    exact (visit_extends visited).1
  · intro name _ before _
    apply visit_isSome
      (fun node known => (registry.dependencies_isSome_iff node).mp known)
    exact Nat.lt_of_le_of_lt List.countP_le_length enough

theorem resolve_isSome {fuel : Nat} (iteration : List String)
    (enough : registry.names.length < fuel) :
    (registry.resolve fuel iteration).isSome = true := by
  rw [resolve, Option.isSome_map]
  exact registry.visitEach_isSome_of_lt iteration enough

/-- `ResolveDependencies`, for an iteration order of the map. -/
def resolveDependencies (iteration : List String) :
    Registry × Option ResolveError :=
  (registry.resolve (registry.names.length + 1) iteration).get
    (registry.resolve_isSome iteration (Nat.lt_succ_self _))

theorem resolve_eq {fuel : Nat} (iteration : List String)
    (enough : registry.names.length < fuel) :
    registry.resolve fuel iteration =
      some (registry.resolveDependencies iteration) := by
  unfold resolveDependencies
  rw [Option.some_get]
  unfold resolve
  rcases Option.isSome_iff_exists.mp
    (registry.visitEach_isSome_of_lt iteration (Nat.lt_succ_self _)) with
    ⟨result, answered⟩
  rw [answered]
  congr 1
  exact visitEach_mono (fun _ _ _ visited => visit_mono enough visited) answered

/-- A provider and each of the names it depends on. -/
def DependsOn (name dep : String) : Prop :=
  ∃ provider ∈ registry.providers.rows, provider.name = name ∧
    dep ∈ provider.dependencies

theorem dependsOn_eq_edge :
    registry.DependsOn = Edge registry.dependencies := by
  funext name dep
  simp only [DependsOn, Edge, dependencies, Option.map_eq_some_iff,
    KeyedTable.find_eq_some_iff, eq_iff_iff]
  constructor
  · rintro ⟨provider, member, named, depends⟩
    exact ⟨provider.dependencies, ⟨provider, ⟨member, named⟩, rfl⟩, depends⟩
  · rintro ⟨list, ⟨provider, ⟨member, named⟩, rfl⟩, depends⟩
    exact ⟨provider, member, named, depends⟩

/-- Every dependency is registered and none leads back to its provider. -/
def Resolvable : Prop :=
  (∀ name dep, registry.DependsOn name dep → dep ∈ registry.names) ∧
    Acyclic registry.DependsOn

/-- A dependency order of exactly the registered names. -/
def IsInitOrder (order : List String) : Prop :=
  order.Nodup ∧ order.Perm registry.names ∧
    TargetsFirst registry.DependsOn order

theorem resolvable_of_isInitOrder {order : List String}
    (isOrder : registry.IsInitOrder order) :
    registry.Resolvable := by
  rcases isOrder with ⟨distinct, permutes, ordered⟩
  have covers :
      ∀ name dep, registry.DependsOn name dep → name ∈ order := by
    rintro name dep ⟨provider, member, named, _⟩
    rw [permutes.mem_iff]
    exact List.mem_map.mpr ⟨provider, member, named⟩
  refine ⟨?_, ordered.acyclic distinct covers⟩
  intro name dep depends
  rcases List.append_of_mem (covers name dep depends) with ⟨before, after, split⟩
  rw [← permutes.mem_iff, split]
  exact List.mem_append_left _ (ordered before name after split dep depends)

theorem isInitOrder_of_ok
    {fuel : Nat} {iteration : List String} {search : Search String}
    (iterates : iteration.Perm registry.names)
    (finished :
      visitEach (visit registry.dependencies fuel) iteration Search.start =
        some (.ok search)) :
    registry.IsInitOrder search.order := by
  have valid := visitEach_invariant (fun _ _ _ visited => visit_valid visited)
    finished (valid_start registry.dependencies)
  have visited := (visitEach_extends (fun _ _ _ step => visit_extends step)
    finished).2
  refine ⟨valid.distinct, ?_, ?_⟩
  · apply (List.perm_ext_iff_of_nodup valid.distinct
      registry.providers.distinct).mpr
    intro name
    constructor
    · intro member
      exact (registry.dependencies_isSome_iff name).mp (valid.known name member)
    · intro member
      exact (valid.done name).mp (visited name (iterates.mem_iff.mpr member))
  · rw [dependsOn_eq_edge]
    exact valid.ordered

theorem not_resolvable_of_error
    {fuel : Nat} {iteration : List String} {failure : ResolveError}
    (iterates : iteration.Perm registry.names)
    (failed :
      visitEach (visit registry.dependencies fuel) iteration Search.start =
        some (.error failure)) :
    ¬ registry.Resolvable := by
  rintro ⟨registered, acyclic⟩
  rcases visitEach_error (fun _ _ _ visited => (visit_extends visited).1)
    failed with ⟨name, member, before, extension, stopped⟩
  rw [dependsOn_eq_edge] at registered acyclic
  refine visit_error stopped ?_ ?_ ⟨?_, acyclic⟩
  · exact (registry.dependencies_isSome_iff name).mpr
      (iterates.mem_iff.mp member)
  · intro other marked
    rw [extension.inProgress] at marked
    cases marked
  · intro node target edge
    exact (registry.dependencies_isSome_iff target).mpr
      (registered node target edge)

/-- A resolution fails and changes nothing, or stores a dependency order. -/
theorem resolveDependencies_cases {iteration : List String}
    (iterates : iteration.Perm registry.names) :
    (∃ failure,
      registry.resolveDependencies iteration = (registry, some failure) ∧
        ¬ registry.Resolvable) ∨
    ∃ order,
      registry.resolveDependencies iteration =
          ({ registry with order := order }, none) ∧
        registry.IsInitOrder order := by
  have answered := registry.resolve_eq iteration (Nat.lt_succ_self _)
  rcases Option.map_eq_some_iff.mp answered with ⟨result, searched, equal⟩
  rw [← equal]
  cases result with
  | error failure =>
      exact Or.inl
        ⟨failure, rfl, registry.not_resolvable_of_error iterates searched⟩
  | ok search =>
      exact Or.inr
        ⟨search.order, rfl, registry.isInitOrder_of_ok iterates searched⟩

/--
`ResolveDependencies` ends on every registry and in every iteration order of
its map.  It succeeds exactly when the registry is resolvable; it then stores
an order of the registered names in which each comes after its dependencies,
and otherwise leaves the stored order as it was.
-/
theorem resolveDependencies_correct
    (iteration : List String)
    (iterates : iteration.Perm registry.names) :
    (∀ fuel, registry.names.length < fuel →
      registry.resolve fuel iteration =
        some (registry.resolveDependencies iteration)) ∧
    ((registry.resolveDependencies iteration).2 = none ↔ registry.Resolvable) ∧
    ((registry.resolveDependencies iteration).2 = none →
      registry.IsInitOrder (registry.resolveDependencies iteration).1.order) ∧
    ((registry.resolveDependencies iteration).2 ≠ none →
      (registry.resolveDependencies iteration).1.order = registry.order) := by
  have ends : ∀ fuel, registry.names.length < fuel →
      registry.resolve fuel iteration =
        some (registry.resolveDependencies iteration) :=
    fun fuel enough => registry.resolve_eq iteration enough
  refine ⟨ends, ?_⟩
  rcases registry.resolveDependencies_cases iterates with
    ⟨failure, failed, stuck⟩ | ⟨order, resolved, isOrder⟩
  · rw [failed]
    exact ⟨iff_of_false (by simp) stuck,
      (fun impossible => by cases impossible), fun _ => rfl⟩
  · rw [resolved]
    exact ⟨iff_of_true rfl (registry.resolvable_of_isInitOrder isOrder),
      fun _ => isOrder, fun failed => absurd rfl failed⟩

/-- Two providers share a dependency, which comes first. -/
theorem resolveDependencies_diamond :
    ∃ registry : Registry,
      registry.names = ["web", "api", "db", "cache"] ∧
        ["api", "web", "cache", "db"].Perm registry.names ∧
        (registry.resolveDependencies ["api", "web", "cache", "db"]).1.order =
          ["db", "api", "cache", "web"] ∧
        registry.IsInitOrder
          (registry.resolveDependencies
            ["api", "web", "cache", "db"]).1.order := by
  refine ⟨⟨⟨[⟨"web", ["api", "cache"]⟩, ⟨"api", ["db"]⟩, ⟨"db", []⟩,
    ⟨"cache", ["db"]⟩], by decide⟩, []⟩, rfl, by decide, rfl, ?_⟩
  exact (resolveDependencies_correct _ _ (by decide)).2.2.1 rfl

end Registry

end Infractl.Providers
