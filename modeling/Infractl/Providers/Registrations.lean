import Infractl.Providers.Lifecycle

/-!
# Registered providers and their features

`Register` stores a provider under its name and then maps its features, one
after the other.  A feature that is taken makes it return an error, but the
provider and the features before that one stay: a failed call leaves the
registry as it was exactly when it failed on the name.

What is stored is never overwritten.  A provider that was registered without an
error keeps all of its features through every later call, and a feature always
leads to a stored provider that lists it.
-/

namespace Infractl.Providers

open Infractl.Lib

/-- The answers of a provider that do not change: its name and its lists. -/
structure Methods (P : Type) where
  name : P → String
  features : P → List String
  dependencies : P → List String

variable {P : Type} {methods : Methods P}

/-- The two maps of the registry. -/
structure Registrations (methods : Methods P) where
  providers : KeyedTable methods.name
  features : String → Option String

namespace Registrations

/-- `NewRegistry`. -/
def new : Registrations methods where
  providers := KeyedTable.empty
  features _ := none

/-- `Register`. -/
def register (registry : Registrations methods) (provider : P) :
    Registrations methods × Option RegisterError :=
  match registry.providers.insert? provider with
  | none => (registry, some (.duplicate (methods.name provider)))
  | some providers =>
      let mapped := mapFeatures (methods.name provider)
        (methods.features provider) registry.features
      (⟨providers, mapped.1⟩, mapped.2)

/-- `Get`. -/
def get (registry : Registrations methods) (name : String) : Option P :=
  registry.providers.find name

/--
`FeatureProvider`: `none` when the feature is not mapped.  A mapped feature is
answered with what is stored under the name, which may be nothing.
-/
def featureProvider (registry : Registrations methods) (feature : String) :
    Option (Option P) :=
  (registry.features feature).map registry.providers.find

/-- The registry after a sequence of `Register` calls. -/
def registerAll (offered : List P) : Registrations methods :=
  offered.foldl (fun registry provider => (registry.register provider).1) new

/-! ## The registry of the lifecycle -/

/-- What resolution asks a provider for. -/
def toProvider (methods : Methods P) (provider : P) : Provider :=
  ⟨methods.name provider, methods.dependencies provider⟩

/-- The stored providers as resolution sees them. -/
def resolved (providers : KeyedTable methods.name) :
    KeyedTable Provider.name where
  rows := providers.rows.map (toProvider methods)
  distinct := by
    rw [List.map_map]
    exact providers.distinct

/-- The lifecycle of a registry with an order stored and some calls made. -/
def toLifecycle (registry : Registrations methods) (order inits : List String) :
    Lifecycle where
  registry := ⟨resolved registry.providers, order⟩
  features := registry.features
  inits := inits

@[simp]
theorem resolved_find (providers : KeyedTable methods.name) (name : String) :
    (resolved providers).find name =
      (providers.find name).map (toProvider methods) :=
  List.find?_map ..

@[simp]
theorem resolved_insert? (providers : KeyedTable methods.name) (provider : P) :
    (resolved providers).insert? (toProvider methods provider) =
      (providers.insert? provider).map resolved := by
  cases inserted : providers.insert? provider with
  | none =>
      rcases (KeyedTable.insert?_eq_none_iff ..).mp inserted with ⟨stored, found⟩
      refine (KeyedTable.insert?_eq_none_iff ..).mpr
        ⟨toProvider methods stored, ?_⟩
      exact (resolved_find ..).trans (congrArg (Option.map _) found)
  | some result =>
      rcases (KeyedTable.insert?_eq_some_iff ..).mp inserted with
        ⟨absent, rows⟩
      refine (KeyedTable.insert?_eq_some_iff ..).mpr ⟨?_, ?_⟩
      · exact (resolved_find ..).trans (congrArg (Option.map _) absent)
      · simp [resolved, rows]

/-- Both models register a provider in the same way. -/
theorem register_toLifecycle (registry : Registrations methods) (provider : P)
    (order inits : List String) :
    (registry.toLifecycle order inits).register (toProvider methods provider)
        (methods.features provider) =
      ((registry.register provider).1.toLifecycle order inits,
        (registry.register provider).2) := by
  have inserted := resolved_insert? registry.providers provider
  cases stored : registry.providers.insert? provider with
  | none =>
      rw [stored] at inserted
      simp only [Lifecycle.register, toLifecycle, inserted, register, stored]
      rfl
  | some providers =>
      rw [stored] at inserted
      simp only [Lifecycle.register, toLifecycle, inserted, register, stored]
      rfl

/-! ## The features of one call -/

end Registrations

section MapFeatures

variable {name : String} {list : List String}
variable {features : String → Option String}

/-- All features are mapped when they are distinct and none of them is taken. -/
theorem mapFeatures_succeeds_iff :
    (mapFeatures name list features).2 = none ↔
      list.Nodup ∧ ∀ feature ∈ list, features feature = none := by
  induction list generalizing features with
  | nil => simp [mapFeatures]
  | cons feature rest ih =>
      rw [mapFeatures, List.nodup_cons, List.forall_mem_cons]
      cases taken : features feature with
      | some existing => simp
      | none =>
          dsimp only
          rw [ih]
          constructor
          · rintro ⟨distinct, free⟩
            have fresh : feature ∉ rest := by
              intro again
              have mapped := free feature again
              rw [Function.update_self] at mapped
              cases mapped
            refine ⟨⟨fresh, distinct⟩, rfl, ?_⟩
            intro other member
            have different : other ≠ feature := by
              rintro rfl
              exact fresh member
            rw [← free other member, Function.update_of_ne different]
          · rintro ⟨⟨fresh, distinct⟩, _, free⟩
            refine ⟨distinct, ?_⟩
            intro other member
            have different : other ≠ feature := by
              rintro rfl
              exact fresh member
            rw [Function.update_of_ne different]
            exact free other member

/-- A mapped feature stays mapped to the same name. -/
theorem mapFeatures_keeps {feature owner : String}
    (mapped : features feature = some owner) :
    (mapFeatures name list features).1 feature = some owner := by
  induction list generalizing features with
  | nil => exact mapped
  | cons other rest ih =>
      rw [mapFeatures]
      cases taken : features other with
      | some existing => exact mapped
      | none =>
          apply ih
          have different : feature ≠ other := by
            rintro rfl
            cases taken.symm.trans mapped
          rw [Function.update_of_ne different]
          exact mapped

/-- A new mapping is one of the features of the call, to its name. -/
theorem mapFeatures_adds {feature owner : String}
    (mapped : (mapFeatures name list features).1 feature = some owner) :
    features feature = some owner ∨ owner = name ∧ feature ∈ list := by
  induction list generalizing features with
  | nil => exact Or.inl mapped
  | cons other rest ih =>
      rw [mapFeatures] at mapped
      cases taken : features other with
      | some existing =>
          rw [taken] at mapped
          exact Or.inl mapped
      | none =>
          rw [taken] at mapped
          rcases ih mapped with before | ⟨named, listed⟩
          · by_cases same : feature = other
            · rw [same, Function.update_self] at before
              cases before
              exact Or.inr ⟨rfl, same ▸ List.mem_cons_self⟩
            · rw [Function.update_of_ne same] at before
              exact Or.inl before
          · exact Or.inr ⟨named, List.mem_cons_of_mem other listed⟩

/-- A call that succeeds has mapped all of its features. -/
theorem mapFeatures_maps
    (succeeded : (mapFeatures name list features).2 = none) {feature : String}
    (listed : feature ∈ list) :
    (mapFeatures name list features).1 feature = some name := by
  induction list generalizing features with
  | nil => cases listed
  | cons other rest ih =>
      rw [mapFeatures] at succeeded ⊢
      cases taken : features other with
      | some existing =>
          rw [taken] at succeeded
          cases succeeded
      | none =>
          rw [taken] at succeeded
          rcases List.mem_cons.mp listed with rfl | later
          · exact mapFeatures_keeps (Function.update_self ..)
          · exact ih succeeded later

end MapFeatures

namespace Registrations

/-! ## Failed calls -/

section Register

variable {registry : Registrations methods} {provider : P}

theorem register_of_taken (taken : (registry.get (methods.name provider)).isSome) :
    registry.register provider =
      (registry, some (.duplicate (methods.name provider))) := by
  have refused : registry.providers.insert? provider = none :=
    (KeyedTable.insert?_eq_none_iff ..).mpr (Option.isSome_iff_exists.mp taken)
  rw [register, refused]

/-- Under a new name the provider is stored, whatever becomes of its features. -/
theorem register_of_new (absent : registry.get (methods.name provider) = none) :
    ∃ providers, registry.providers.insert? provider = some providers ∧
      registry.register provider =
        (⟨providers, (mapFeatures (methods.name provider)
            (methods.features provider) registry.features).1⟩,
          (mapFeatures (methods.name provider) (methods.features provider)
            registry.features).2) := by
  cases inserted : registry.providers.insert? provider with
  | none =>
      rcases (KeyedTable.insert?_eq_none_iff ..).mp inserted with ⟨stored, found⟩
      cases absent.symm.trans found
  | some providers => exact ⟨providers, rfl, by rw [register, inserted]⟩

theorem get_of_register (absent : registry.get (methods.name provider) = none) :
    (registry.register provider).1.get (methods.name provider) =
      some provider := by
  rcases register_of_new absent with ⟨providers, inserted, registered⟩
  rw [registered, get, KeyedTable.find_insert? inserted, if_pos rfl]

end Register

/--
A `Register` that fails leaves the registry as it was, unless its name is new
and one of its features is taken or listed twice.  In that case the rejected
provider stays.
-/
theorem register_atomic_iff (registry : Registrations methods) (provider : P) :
    ((registry.register provider).2 ≠ none →
      (registry.register provider).1 = registry) ↔
      (registry.get (methods.name provider)).isSome = true ∨
        (methods.features provider).Nodup ∧
          ∀ feature ∈ methods.features provider,
            registry.features feature = none := by
  cases stored : registry.get (methods.name provider) with
  | some existing =>
      have taken : (registry.get (methods.name provider)).isSome = true := by
        rw [stored, Option.isSome_some]
      refine iff_of_true (fun _ => ?_) (Or.inl rfl)
      rw [register_of_taken taken]
  | none =>
      rcases register_of_new stored with ⟨providers, _, registered⟩
      have succeeds : (registry.register provider).2 = none ↔
          (methods.features provider).Nodup ∧
            ∀ feature ∈ methods.features provider,
              registry.features feature = none := by
        rw [registered]
        exact mapFeatures_succeeds_iff
      rw [← succeeds]
      constructor
      · intro atomic
        by_contra failed
        have stays := get_of_register stored
        rw [atomic (fun succeeded => failed (Or.inr succeeded)), stored] at stays
        cases stays
      · rintro (impossible | succeeded) failed
        · cases impossible
        · exact absurd succeeded failed

/-- A provider with its methods. -/
structure Plugin where
  name : String
  features : List String
  dependencies : List String

def pluginMethods : Methods Plugin :=
  ⟨Plugin.name, Plugin.features, Plugin.dependencies⟩

/-- The feature `disk` is provided already when `backup` offers it too. -/
def conflicting : Registrations pluginMethods × Option RegisterError :=
  (registerAll [⟨"storage", ["disk"], []⟩]).register
    ⟨"backup", ["snapshot", "disk"], ["tape"]⟩

/--
The provider that was rejected is found by its name and by its first feature,
and its dependency makes the next resolution fail.
-/
theorem rejected_provider_stays :
    conflicting.2 = some (.featureTaken "disk" "storage" "backup") ∧
      conflicting.1.get "backup" =
        some ⟨"backup", ["snapshot", "disk"], ["tape"]⟩ ∧
      conflicting.1.featureProvider "snapshot" =
        some (some ⟨"backup", ["snapshot", "disk"], ["tape"]⟩) ∧
      ((conflicting.1.toLifecycle [] []).registry.resolveDependencies
        ["storage", "backup"]).2 = some (.dangling "backup" "tape") :=
  ⟨rfl, rfl, rfl, rfl⟩

/-! ## Owners -/

/-- Every mapped feature leads to a stored provider that lists it. -/
def Linked (registry : Registrations methods) : Prop :=
  ∀ feature name, registry.features feature = some name →
    ∃ provider, registry.providers.find name = some provider ∧
      feature ∈ methods.features provider

/-- Whatever the first registry stores or maps, the second does as well. -/
structure Extends (before after : Registrations methods) : Prop where
  stored : ∀ name provider, before.providers.find name = some provider →
    after.providers.find name = some provider
  mapped : ∀ feature name, before.features feature = some name →
    after.features feature = some name

section Step

variable (registry : Registrations methods) (provider : P)

/-- One call, failed or not, overwrites nothing. -/
theorem register_extends : registry.Extends (registry.register provider).1 := by
  cases stored : registry.get (methods.name provider) with
  | some existing =>
      rw [register_of_taken (by rw [stored]; rfl)]
      exact ⟨fun _ _ found => found, fun _ _ mapped => mapped⟩
  | none =>
      rcases register_of_new stored with ⟨providers, inserted, registered⟩
      rw [registered]
      exact ⟨fun _ _ found => KeyedTable.find_of_insert? inserted found,
        fun _ _ mapped => mapFeatures_keeps mapped⟩

theorem register_linked (linked : registry.Linked) :
    (registry.register provider).1.Linked := by
  cases stored : registry.get (methods.name provider) with
  | some existing =>
      rw [register_of_taken (by rw [stored]; rfl)]
      exact linked
  | none =>
      have extension := registry.register_extends provider
      rcases register_of_new stored with ⟨providers, inserted, registered⟩
      intro feature name mapped
      rw [registered] at mapped
      rcases mapFeatures_adds mapped with before | ⟨rfl, listed⟩
      · rcases linked feature name before with ⟨owner, found, lists⟩
        exact ⟨owner, extension.stored name owner found, lists⟩
      · exact ⟨provider, get_of_register stored, listed⟩

/-- A call that returns no error owns its features. -/
theorem register_owns (succeeded : (registry.register provider).2 = none) :
    (registry.register provider).1.providers.find (methods.name provider) =
        some provider ∧
      ∀ feature ∈ methods.features provider,
        (registry.register provider).1.features feature =
          some (methods.name provider) := by
  cases stored : registry.get (methods.name provider) with
  | some existing =>
      rw [register_of_taken (by rw [stored]; rfl)] at succeeded
      cases succeeded
  | none =>
      refine ⟨get_of_register stored, ?_⟩
      rcases register_of_new stored with ⟨providers, inserted, registered⟩
      rw [registered] at succeeded ⊢
      exact fun feature listed => mapFeatures_maps succeeded listed

end Step

theorem Extends.refl (registry : Registrations methods) :
    registry.Extends registry :=
  ⟨fun _ _ found => found, fun _ _ mapped => mapped⟩

theorem Extends.trans {first second third : Registrations methods}
    (earlier : first.Extends second) (later : second.Extends third) :
    first.Extends third where
  stored name provider found :=
    later.stored name provider (earlier.stored name provider found)
  mapped feature name mapped :=
    later.mapped feature name (earlier.mapped feature name mapped)

/-- The calls of a run overwrite nothing, and keep the two maps linked. -/
theorem foldl_register_keeps (offered : List P)
    (registry : Registrations methods) (linked : registry.Linked) :
    registry.Extends
        (offered.foldl (fun registry provider => (registry.register provider).1)
          registry) ∧
      (offered.foldl (fun registry provider => (registry.register provider).1)
        registry).Linked := by
  induction offered generalizing registry with
  | nil => exact ⟨Extends.refl registry, linked⟩
  | cons provider rest ih =>
      rcases ih _ (registry.register_linked provider linked) with
        ⟨extension, finallyLinked⟩
      exact ⟨(registry.register_extends provider).trans extension, finallyLinked⟩

theorem registerAll_linked (offered : List P) :
    (registerAll offered : Registrations methods).Linked := by
  refine (foldl_register_keeps offered new ?_).2
  intro feature name mapped
  cases mapped

/--
Once `Register` has returned nil for a provider, each of its features leads to
it after every later sequence of calls, failed ones included.  After any
sequence of calls, a feature that leads to anything leads to a stored provider
that lists it.
-/
theorem feature_owner_permanent (methods : Methods P) :
    (∀ (earlier later : List P) (provider : P),
      ((registerAll earlier : Registrations methods).register provider).2 =
        none →
      ∀ feature ∈ methods.features provider,
        (registerAll (earlier ++ provider :: later) :
            Registrations methods).featureProvider feature =
          some (some provider)) ∧
    ∀ (offered : List P) (feature : String) (answer : Option P),
      (registerAll offered : Registrations methods).featureProvider feature =
        some answer →
      ∃ provider, answer = some provider ∧
        (registerAll offered : Registrations methods).get
          (methods.name provider) = some provider ∧
        feature ∈ methods.features provider := by
  constructor
  · intro earlier later provider succeeded feature listed
    rcases register_owns _ provider succeeded with ⟨stored, owned⟩
    have linked : (registerAll earlier : Registrations methods).Linked :=
      registerAll_linked earlier
    have extension := (foldl_register_keeps later _
      (register_linked _ provider linked)).1
    have split : (registerAll (earlier ++ provider :: later) :
        Registrations methods) =
        later.foldl (fun registry provider => (registry.register provider).1)
          ((registerAll earlier : Registrations methods).register provider).1 := by
      rw [registerAll, List.foldl_append, List.foldl_cons]
      rfl
    rw [split, featureProvider, extension.mapped _ _ (owned feature listed),
      Option.map_some, extension.stored _ _ stored]
  · intro offered feature answer found
    rcases Option.map_eq_some_iff.mp found with ⟨name, mapped, rfl⟩
    rcases registerAll_linked offered feature name mapped with
      ⟨provider, stored, listed⟩
    refine ⟨provider, stored, ?_, listed⟩
    rw [get, KeyedTable.key_of_find stored]
    exact stored

end Registrations

end Infractl.Providers
