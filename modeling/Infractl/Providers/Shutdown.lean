import Infractl.Providers.Lifecycle

/-!
# Shutting a registry down

`ShutdownAll` calls `Shutdown` along the stored order backwards, up to the
first error.  It does not know which providers were initialised, and an error
keeps it from the providers that are left.  So it mirrors a preceding `InitAll`
exactly when every provider of the order is initialised and none but the last
to be called fails to shut down, or when nothing is called at all.
-/

namespace Infractl.Providers

open Infractl.Lib
open Infractl.Lib.DepthFirst
open Infractl.Lib.Run

/-- Why `ShutdownAll` stops. -/
structure ShutdownError where
  name : String
  cause : String
deriving DecidableEq

/-- The text of the error. -/
def ShutdownError.message (quote : String → String) (error : ShutdownError) :
    String :=
  "failed to shutdown provider " ++ quote error.name ++ ": " ++ error.cause

namespace Registry

/-- `ShutdownAll`: the providers called, in order, and the error returned. -/
def shutdownAll (registry : Registry) (errors : String → Option String) :
    List String × Option ShutdownError :=
  ((callEach errors registry.order.reverse).1,
    (callEach errors registry.order.reverse).2.map
      (fun failure => ⟨failure.1, failure.2⟩))

/--
`Shutdown` was called once on every provider whose `Init` returned no error, on
no other, and on each before the providers it depends on.
-/
structure Mirrors (registry : Registry) (initErrors : String → Option String)
    (inits stops : List String) : Prop where
  once : ∀ name, stops.count name =
    if name ∈ inits ∧ initErrors name = none then 1 else 0
  dependentsFirst :
    TargetsFirst (fun dep name => registry.DependsOn name dep ∧ name ∈ stops)
      stops

variable {registry : Registry}

theorem stops_dependentsFirst (errors : String → Option String)
    {order : List String}
    (distinct : order.Nodup)
    (ordered : TargetsFirst registry.DependsOn order) :
    TargetsFirst
      (fun dep name => registry.DependsOn name dep ∧
        name ∈ (callEach errors order.reverse).1)
      (callEach errors order.reverse).1 := by
  have backwards := ordered.reverse distinct
  rcases callEach_append errors order.reverse with ⟨skipped, equal⟩
  rw [equal] at backwards
  refine backwards.of_append.of_edges ?_
  rintro dep _ name ⟨depends, called⟩
  exact ⟨depends, List.mem_reverse.mp (mem_of_mem_callEach errors called)⟩

/-- Calls along an order of which no provider but the last fails. -/
theorem callEach_concat_of_forall (errors : String → Option String)
    {front : List String} {last : String}
    (succeed : ∀ name ∈ front, errors name = none) :
    (callEach errors (front ++ [last])).1 = front ++ [last] := by
  induction front with
  | nil =>
      rw [List.nil_append, callEach]
      split <;> rfl
  | cons name rest ih =>
      rw [List.forall_mem_cons] at succeed
      rw [List.cons_append, callEach, succeed.1]
      exact congrArg (name :: ·) (ih succeed.2)

theorem head_mem_callEach (errors : String → Option String) (name : String)
    (rest : List String) :
    name ∈ (callEach errors (name :: rest)).1 := by
  rw [callEach]
  split <;> simp

/-- The provider shut down first is the last of the order. -/
theorem inits_succeed_of_mirrors
    {initErrors shutdownErrors : String → Option String} {order : List String}
    (distinct : order.Nodup)
    (called : ∀ name ∈ (callEach shutdownErrors order.reverse).1,
      name ∈ (callEach initErrors order).1 ∧ initErrors name = none) :
    ∀ name ∈ order, initErrors name = none := by
  rcases List.eq_nil_or_concat order with rfl | ⟨front, last, rfl⟩
  · intro name member
    cases member
  · rw [List.concat_eq_append] at distinct called ⊢
    rw [List.reverse_append, List.reverse_singleton, List.singleton_append]
      at called
    rcases called last (head_mem_callEach ..) with ⟨reached, lastSucceeds⟩
    have fresh : last ∉ front := fun repeated =>
      (List.nodup_append.mp distinct).2.2 last repeated last
        (List.mem_singleton_self last) rfl
    have frontSucceeds := (last_mem_callEach_iff initErrors fresh).mp reached
    intro name member
    rcases List.mem_append.mp member with earlier | final
    · exact frontSucceeds name earlier
    · rw [List.mem_singleton.mp final]
      exact lastSucceeds

/--
Along one stored order, the calls mirror each other exactly when every `Init`
succeeds and no `Shutdown` fails but that of the first provider of the order.
-/
theorem mirrors_iff (initErrors shutdownErrors : String → Option String)
    {order : List String}
    (distinct : order.Nodup)
    (ordered : TargetsFirst registry.DependsOn order) :
    registry.Mirrors initErrors (callEach initErrors order).1
        (callEach shutdownErrors order.reverse).1 ↔
      (∀ name ∈ order, initErrors name = none) ∧
        ∀ name ∈ order.tail, shutdownErrors name = none := by
  constructor
  · intro mirrors
    have called : ∀ name, name ∈ (callEach shutdownErrors order.reverse).1 ↔
        name ∈ (callEach initErrors order).1 ∧ initErrors name = none := by
      intro name
      rw [← List.count_pos_iff, mirrors.once name]
      split
      · next initialised => exact iff_of_true Nat.one_pos initialised
      · next missing => exact iff_of_false (Nat.lt_irrefl 0) missing
    have succeed := inits_succeed_of_mirrors distinct
      (fun name stopped => (called name).mp stopped)
    refine ⟨succeed, ?_⟩
    cases order with
    | nil =>
        intro name member
        cases member
    | cons first rest =>
        rw [callEach_of_forall initErrors succeed, List.reverse_cons] at called
        have firstStopped := (called first).mpr
          ⟨List.mem_cons_self .., succeed first (List.mem_cons_self ..)⟩
        have fresh : first ∉ rest.reverse := by
          rw [List.mem_reverse]
          exact (List.nodup_cons.mp distinct).1
        intro name member
        exact (last_mem_callEach_iff shutdownErrors fresh).mp firstStopped name
          (List.mem_reverse.mpr member)
  · rintro ⟨succeed, stop⟩
    refine ⟨?_, stops_dependentsFirst shutdownErrors distinct ordered⟩
    intro name
    have all : (callEach shutdownErrors order.reverse).1 = order.reverse := by
      cases order with
      | nil => rfl
      | cons first rest =>
          rw [List.reverse_cons]
          apply callEach_concat_of_forall
          intro other member
          exact stop other (List.mem_reverse.mp member)
    rw [callEach_of_forall initErrors succeed, all,
      (List.nodup_reverse.mpr distinct).count]
    refine if_congr ?_ rfl rfl
    rw [List.mem_reverse]
    exact ⟨fun member => ⟨member, succeed name member⟩, And.left⟩

/-! ## In every iteration order of the map -/

/-- No other provider is without dependencies. -/
def OnlyLeaf (registry : Registry) (name : String) : Prop :=
  ∀ leaf, registry.dependencies leaf = some [] → leaf = name

/--
What the providers have to return for a shutdown to mirror the start: nothing
is ever started, or every `Init` succeeds and no `Shutdown` fails except that of
the provider which comes first in the order.
-/
def ShutsDown (registry : Registry)
    (initErrors shutdownErrors : String → Option String) : Prop :=
  if registry.order = [] then
    registry.Resolvable →
      (∀ name ∈ registry.names, initErrors name = none) ∧
        ∀ name ∈ registry.names,
          shutdownErrors name ≠ none → registry.OnlyLeaf name
  else
    (∀ name ∈ registry.order, initErrors name = none) ∧
      ∀ name ∈ registry.order.tail, shutdownErrors name = none

/-- The first provider of a dependency order depends on nothing. -/
theorem IsInitOrder.head_leaf {first : String} {rest : List String}
    (isOrder : registry.IsInitOrder (first :: rest)) :
    registry.dependencies first = some [] := by
  have known := (registry.dependencies_isSome_iff first).mpr
    (isOrder.2.1.mem_iff.mp (List.mem_cons_self ..))
  rcases Option.isSome_iff_exists.mp known with ⟨list, listed⟩
  have none : ∀ dep, dep ∉ list := by
    intro dep member
    have earlier := isOrder.2.2 [] first rest rfl dep (by
      rw [dependsOn_eq_edge]
      exact ⟨list, listed, member⟩)
    cases earlier
  rw [listed, List.eq_nil_iff_forall_not_mem.mpr none]

/-- A leaf that the map yields first comes first in the order. -/
theorem order_starts_with_leaf {leaf : String} {rest order : List String}
    (isLeaf : registry.dependencies leaf = some [])
    (resolved : registry.resolveDependencies (leaf :: rest) =
      ({ registry with order := order }, none)) :
    ∃ later, order = leaf :: later := by
  have answered := registry.resolve_eq (leaf :: rest) (Nat.lt_succ_self _)
  rw [resolved] at answered
  rcases Option.map_eq_some_iff.mp answered with ⟨result, searched, equal⟩
  cases result with
  | error failure => cases congrArg Prod.snd equal
  | ok search =>
      cases congrArg (Registry.order ∘ Prod.fst) equal
      exact visitEach_starts_with_leaf isLeaf searched

/-- A leaf can be first in the order, so no other provider's `Shutdown` may fail. -/
theorem onlyLeaf_of_mirrors
    {initErrors shutdownErrors : String → Option String}
    (unset : registry.order = [])
    (resolvable : registry.Resolvable)
    (mirrors : ∀ iteration, iteration.Perm registry.names →
      registry.Mirrors initErrors (registry.initAll iteration initErrors).calls
        ((registry.initAll iteration initErrors).registry.shutdownAll
          shutdownErrors).1)
    {name : String} (member : name ∈ registry.names)
    (fails : shutdownErrors name ≠ none) :
    registry.OnlyLeaf name := by
  intro leaf isLeaf
  have known : leaf ∈ registry.names :=
    (registry.dependencies_isSome_iff leaf).mp (by rw [isLeaf]; rfl)
  have iterates := (List.perm_cons_erase known).symm
  have mirrored := mirrors _ iterates
  rcases registry.initAll_cases initErrors iterates with
    ⟨_, stuck, _⟩ | ⟨order, ⟨_, isOrder, resolved⟩ | ⟨set, _⟩, called⟩
  · exact absurd resolvable stuck
  · rw [called] at mirrored
    have stops := ((mirrors_iff initErrors shutdownErrors isOrder.1
      isOrder.2.2).mp mirrored).2
    rcases order_starts_with_leaf isLeaf resolved with ⟨later, rfl⟩
    rcases List.mem_cons.mp (isOrder.2.1.mem_iff.mpr member) with same | behind
    · exact same.symm
    · exact absurd (stops name behind) fails
  · exact absurd unset set

/-- Without a stored order, whatever order the map yields. -/
theorem mirrors_iff_of_unset
    (initErrors shutdownErrors : String → Option String)
    (unset : registry.order = []) :
    (∀ iteration, iteration.Perm registry.names →
      registry.Mirrors initErrors (registry.initAll iteration initErrors).calls
        ((registry.initAll iteration initErrors).registry.shutdownAll
          shutdownErrors).1) ↔
    (registry.Resolvable →
      (∀ name ∈ registry.names, initErrors name = none) ∧
        ∀ name ∈ registry.names,
          shutdownErrors name ≠ none → registry.OnlyLeaf name) := by
  constructor
  · intro mirrors resolvable
    refine ⟨?_, fun name member fails =>
      onlyLeaf_of_mirrors unset resolvable mirrors member fails⟩
    have mirrored := mirrors registry.names (List.Perm.refl _)
    rcases registry.initAll_cases initErrors (List.Perm.refl _) with
      ⟨_, stuck, _⟩ | ⟨order, ⟨_, isOrder, _⟩ | ⟨set, _⟩, called⟩
    · exact absurd resolvable stuck
    · rw [called] at mirrored
      have succeed := ((mirrors_iff initErrors shutdownErrors isOrder.1
        isOrder.2.2).mp mirrored).1
      intro name member
      exact succeed name (isOrder.2.1.mem_iff.mpr member)
    · exact absurd unset set
  · intro cleanly iteration iterates
    rcases registry.initAll_cases initErrors iterates with
      ⟨_, _, failure, failed⟩ | ⟨order, ⟨_, isOrder, _⟩ | ⟨set, _⟩, called⟩
    · rw [failed]
      simp only [shutdownAll, unset]
      exact ⟨fun _ => by simp [callEach], Each.nil⟩
    · rw [called]
      rcases cleanly (registry.resolvable_of_isInitOrder isOrder) with
        ⟨succeed, onlyLeaf⟩
      apply (mirrors_iff initErrors shutdownErrors isOrder.1 isOrder.2.2).mpr
      refine ⟨fun name member =>
        succeed name (isOrder.2.1.mem_iff.mp member), ?_⟩
      cases order with
      | nil =>
          intro name member
          cases member
      | cons first rest =>
          intro name member
          by_contra fails
          have same := onlyLeaf name
            (isOrder.2.1.mem_iff.mp (List.mem_cons_of_mem first member)) fails
            first isOrder.head_leaf
          exact (List.nodup_cons.mp isOrder.1).1 (same ▸ member)
    · exact absurd unset set

end Registry

/--
After any sequence of calls, `ShutdownAll` after `InitAll` mirrors it in every
iteration order of the map exactly when the providers return what `ShutsDown`
says.
-/
theorem shutdownAll_mirrors_iff
    {state : Lifecycle} (calls : List Lifecycle.Call)
    (initErrors shutdownErrors : String → Option String)
    (reached : run Lifecycle.step Lifecycle.new calls = some state) :
    (∀ iteration, iteration.Perm state.registry.names →
      state.registry.Mirrors initErrors
        (state.registry.initAll iteration initErrors).calls
        ((state.registry.initAll iteration initErrors).registry.shutdownAll
          shutdownErrors).1) ↔
      state.registry.ShutsDown initErrors shutdownErrors := by
  have stored := (Lifecycle.run_valid reached).stored
  rw [Registry.ShutsDown]
  split
  · next unset =>
      exact Registry.mirrors_iff_of_unset initErrors shutdownErrors unset
  · next set =>
      rw [← Registry.mirrors_iff initErrors shutdownErrors stored.distinct
        stored.ordered]
      have same : ∀ iteration,
          state.registry.initAll iteration initErrors =
            ⟨state.registry, (callEach initErrors state.registry.order).1, _⟩ :=
        fun iteration => by
          rw [Registry.initAll, if_neg set]
      constructor
      · intro mirrors
        have mirrored := mirrors state.registry.names (List.Perm.refl _)
        rw [same] at mirrored
        exact mirrored
      · intro mirrored iteration _
        rw [same]
        exact mirrored

/-- A provider and the one it depends on. -/
def apiOnDatabase : List Lifecycle.Call :=
  [.register ⟨"db", []⟩ [], .register ⟨"api", ["db"]⟩ []]

/-- One provider returns an error. -/
def failing (name cause : String) : String → Option String :=
  fun other => if other = name then some cause else none

/-- The database fails to shut down, after everything else was shut down. -/
theorem failing_database_mirrored :
    ∃ state,
      run Lifecycle.step Lifecycle.new apiOnDatabase = some state ∧
      state.registry.Mirrors (fun _ => none)
        (state.registry.initAll ["api", "db"] (fun _ => none)).calls
        ((state.registry.initAll ["api", "db"]
          (fun _ => none)).registry.shutdownAll (failing "db" "busy")).1 := by
  refine ⟨_, rfl, ?_⟩
  refine (shutdownAll_mirrors_iff apiOnDatabase (fun _ => none)
    (failing "db" "busy") rfl).mpr ?_ ["api", "db"] (by decide)
  intro _
  refine ⟨fun _ _ => rfl, ?_⟩
  intro name _ fails leaf isLeaf
  have isDatabase : name = "db" := by
    by_contra other
    exact fails (if_neg other)
  have known := (Registry.dependencies_isSome_iff _ leaf).mp
    (Option.isSome_of_eq_some isLeaf)
  rcases List.mem_pair.mp known with rfl | rfl
  · exact isDatabase.symm
  · cases isLeaf

/--
`Init` of the second provider fails, and it is shut down nevertheless; when all
are initialised and `Shutdown` of the second fails, the first is left running.
-/
theorem shutdown_not_mirrored :
    ∃ state,
      run Lifecycle.step Lifecycle.new apiOnDatabase = some state ∧
      ["db", "api"].Perm state.registry.names ∧
      (state.registry.initAll ["db", "api"] (failing "api" "down")).calls =
        ["db", "api"] ∧
      ((state.registry.initAll ["db", "api"]
        (failing "api" "down")).registry.shutdownAll (fun _ => none)).1 =
        ["api", "db"] ∧
      ¬ state.registry.Mirrors (failing "api" "down") ["db", "api"]
        ["api", "db"] ∧
      (state.registry.initAll ["db", "api"] (fun _ => none)).calls =
        ["db", "api"] ∧
      ((state.registry.initAll ["db", "api"]
        (fun _ => none)).registry.shutdownAll (failing "api" "busy")).1 =
        ["api"] ∧
      ¬ state.registry.Mirrors (fun _ => none) ["db", "api"] ["api"] := by
  refine ⟨_, rfl, by decide, rfl, rfl, ?_, rfl, rfl, ?_⟩
  · intro mirrors
    exact absurd (mirrors.once "api") (by decide)
  · intro mirrors
    exact absurd (mirrors.once "db") (by decide)

end Infractl.Providers
