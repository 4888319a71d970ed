import Infractl.Auth.Middleware

/-!
# The resource an authorizer is asked about

The routes of a collection lie under `/api/v<digits>/<collection>`.  What
`AuthZ` passes on as the resource is meant to be the collection.  The loop that
looks for it skips every segment that looks like a part of the base path,
wherever it stands: a collection of at most three bytes that starts with a v is
skipped like a version, and the segments after it are searched in its place.  A
version of three digits or more is not skipped, and is itself the resource.
-/

namespace Infractl.Auth

/-! ## Paths built from segments -/

/-- A segment, which may be empty but has no slash in it. -/
abbrev Segment := { bytes : List UInt8 // slash ∉ bytes }

/-- Each segment after a slash. -/
def pathOf (segments : List (List UInt8)) : List UInt8 :=
  segments.flatMap (fun segment => slash :: segment)

theorem splitFrom_append {part : List UInt8} (whole : slash ∉ part)
    (segment rest : List UInt8) :
    splitFrom segment (part ++ rest) = splitFrom (segment ++ part) rest := by
  induction part generalizing segment with
  | nil => simp
  | cons byte part ih =>
      rw [List.mem_cons, not_or] at whole
      rw [List.cons_append, splitFrom, if_neg (Ne.symm whole.1), ih whole.2]
      simp

theorem splitFrom_pathOf {segments : List (List UInt8)}
    (whole : ∀ segment ∈ segments, slash ∉ segment) (segment : List UInt8) :
    splitFrom segment (pathOf segments) =
      segmentEnd segment ++ segments.filter (fun part => part ≠ []) := by
  induction segments generalizing segment with
  | nil => simp [pathOf, splitFrom]
  | cons first segments ih =>
      have firstWhole := whole first List.mem_cons_self
      have restWhole : ∀ part ∈ segments, slash ∉ part :=
        fun part member => whole part (List.mem_cons_of_mem first member)
      have unfolded :
          pathOf (first :: segments) = slash :: (first ++ pathOf segments) := rfl
      rw [unfolded, splitFrom, if_pos rfl, splitFrom_append firstWhole,
        List.nil_append, ih restWhole]
      by_cases empty : first = []
      · simp [segmentEnd, empty]
      · simp [segmentEnd, empty]

/-- `splitPath` gives back the segments that are not empty. -/
theorem splitPath_pathOf {segments : List (List UInt8)}
    (whole : ∀ segment ∈ segments, slash ∉ segment) :
    splitPath (pathOf segments) = segments.filter (fun part => part ≠ []) := by
  rw [splitPath, splitFrom_pathOf whole]
  rfl

/-! ## The routes of a collection -/

def isDigit (byte : UInt8) : Bool :=
  decide (48 ≤ byte) && decide (byte ≤ 57)

/-- A version number and the name of a collection. -/
structure Route where
  digits : List UInt8
  collection : List UInt8
  digitsNonempty : digits ≠ []
  digitsOnly : ∀ byte ∈ digits, isDigit byte = true
  collectionNonempty : collection ≠ []
  collectionWhole : slash ∉ collection
  collectionNotApi : collection ≠ apiSegment

namespace Route

/-- The version segment, such as `v1`. -/
def version (route : Route) : List UInt8 :=
  letterV :: route.digits

/-- The path of a route with the segments that follow the collection. -/
def path (route : Route) (rest : List Segment) : List UInt8 :=
  pathOf (apiSegment :: route.version :: route.collection ::
    rest.map Subtype.val)

/-- The segments after the collection that `splitPath` keeps. -/
def kept (rest : List Segment) : List (List UInt8) :=
  (rest.map Subtype.val).filter (fun segment => segment ≠ [])

variable (route : Route) (rest : List Segment)

theorem version_whole : slash ∉ route.version := by
  intro member
  rcases List.mem_cons.mp member with isV | inDigits
  · revert isV
    decide
  · have digit := route.digitsOnly slash inDigits
    revert digit
    decide

theorem splitPath_path :
    splitPath (route.path rest) =
      apiSegment :: route.version :: route.collection :: kept rest := by
  rw [path, splitPath_pathOf]
  · simp [kept, version, apiSegment, route.collectionNonempty]
  · intro segment member
    simp only [List.mem_cons, List.mem_map] at member
    rcases member with rfl | rfl | rfl | ⟨part, _, rfl⟩
    · decide
    · exact route.version_whole
    · exact route.collectionWhole
    · exact part.property

theorem isBaseSegment_version :
    isBaseSegment route.version = decide (route.digits.length ≤ 2) := by
  have notApi : letterV :: route.digits ≠ apiSegment := by
    intro same
    have first := List.head_eq_of_cons_eq same
    revert first
    decide
  simp only [isBaseSegment, version, notApi, decide_false, Bool.false_or,
    reduceCtorEq, List.head?_cons, decide_true, Bool.true_and, List.length_cons]
  exact decide_eq_decide.mpr Nat.succ_le_succ_iff

/-- A version of three digits or more is what `extractResource` returns. -/
theorem extractResource_of_long (long : 2 < route.digits.length) :
    extractResource (route.path rest) = route.version := by
  have kept : isBaseSegment route.version = false := by
    rw [isBaseSegment_version]
    simpa using long
  have api : isBaseSegment apiSegment = true := by decide
  simp [extractResource, splitPath_path, api, kept]

/-- A collection that does not look like a base segment is returned. -/
theorem extractResource_of_plain
    (short : route.digits.length ≤ 2)
    (plain : isBaseSegment route.collection = false) :
    extractResource (route.path rest) = route.collection := by
  have skipped : isBaseSegment route.version = true := by
    rw [isBaseSegment_version]
    simpa using short
  have api : isBaseSegment apiSegment = true := by decide
  simp [extractResource, splitPath_path, api, skipped, plain]

/-- A collection that is skipped leaves the choice to the segments after it. -/
theorem extractResource_of_skipped
    (short : route.digits.length ≤ 2)
    (skippedCollection : isBaseSegment route.collection = true) :
    extractResource (route.path rest) =
      match (kept rest).find? (fun segment => !isBaseSegment segment) with
      | some segment => segment
      | none => (kept rest).getLast?.getD route.collection := by
  have skipped : isBaseSegment route.version = true := by
    rw [isBaseSegment_version]
    simpa using short
  have api : isBaseSegment apiSegment = true := by decide
  simp only [extractResource, splitPath_path, List.find?_cons, api, skipped,
    skippedCollection, Bool.not_true]
  cases (kept rest).find? (fun segment => !isBaseSegment segment) with
  | some segment => rfl
  | none =>
      cases last : (kept rest).getLast? with
      | none => simp [List.getLast?_cons, last]
      | some segment => simp [List.getLast?_cons, last]

/-! ## When the collection is seen -/

/--
The paths on which the collection is the resource.  The version is short, and
the collection is not taken for a base segment, or all segments after it are,
and the last of them that is not empty, if there is one, repeats it; or the
version is long and spelled like the collection.
-/
def SeesCollection (route : Route) (rest : List Segment) : Prop :=
  (route.digits.length ≤ 2 ∧
    (isBaseSegment route.collection = false ∨
      ((∀ segment ∈ rest, isBaseSegment segment.val = true) ∧
        (kept rest).getLast?.getD route.collection = route.collection))) ∨
  (2 < route.digits.length ∧ route.version = route.collection)

theorem find_kept_eq_none_iff :
    (kept rest).find? (fun segment => !isBaseSegment segment) = none ↔
      ∀ segment ∈ rest, isBaseSegment segment.val = true := by
  simp only [List.find?_eq_none, kept, List.mem_filter, List.mem_map]
  constructor
  · intro skipped segment member
    by_cases empty : segment.val = []
    · rw [empty]
      decide
    · simpa using skipped segment.val ⟨⟨segment, member, rfl⟩, by simpa using empty⟩
  · rintro skipped part ⟨⟨segment, member, rfl⟩, _⟩
    simpa using skipped segment member

theorem extractResource_path_iff :
    extractResource (route.path rest) = route.collection ↔
      route.SeesCollection rest := by
  by_cases short : route.digits.length ≤ 2
  · have notLong : ¬ 2 < route.digits.length := Nat.not_lt.mpr short
    cases base : isBaseSegment route.collection with
    | false =>
        simp [SeesCollection, short, base,
          extractResource_of_plain route rest short base]
    | true =>
        rw [extractResource_of_skipped route rest short base]
        cases found : (kept rest).find? (fun segment => !isBaseSegment segment) with
        | some segment =>
            have notBase : isBaseSegment segment = false := by
              simpa using List.find?_some found
            have different : segment ≠ route.collection := by
              rintro rfl
              cases base.symm.trans notBase
            have notAll :
                ¬ ∀ part ∈ rest, isBaseSegment part.val = true := by
              rw [← find_kept_eq_none_iff, found]
              simp
            simp only [SeesCollection, notLong, base, notAll, different,
              Bool.true_eq_false, false_and, and_false, or_false]
        | none =>
            have all := (find_kept_eq_none_iff rest).mp found
            simp only [SeesCollection, short, base, notLong, false_and, or_false,
              true_and, Bool.true_eq_false, false_or]
            exact ⟨fun last => ⟨all, last⟩, fun seen => seen.2⟩
  · have long : 2 < route.digits.length := Nat.lt_of_not_le short
    simp [SeesCollection, short, long, extractResource_of_long route rest long]

/-- The resource of a route when nothing follows the collection. -/
theorem extractResource_bare (short : route.digits.length ≤ 2) :
    extractResource (route.path []) = route.collection :=
  (extractResource_path_iff route []).mpr (Or.inl ⟨short, Or.inr ⟨by simp, rfl⟩⟩)

/-- A client-chosen segment that is not taken for a base segment. -/
def chosenName : Segment :=
  ⟨[120], by decide⟩

theorem extractResource_chosen
    (short : route.digits.length ≤ 2)
    (skipped : isBaseSegment route.collection = true) :
    extractResource (route.path [chosenName]) = chosenName.val := by
  rw [extractResource_of_skipped route _ short skipped]
  rfl

/-- An authorizer that refuses exactly the resource it is made for. -/
def refuses (resource : List UInt8) : Authorizer :=
  fun _ _ asked _ => if asked = resource then some "refused" else none

end Route

/--
On the routes of a collection the resource is the collection exactly on the
paths described by `SeesCollection`, and no authorizer's answer depends on the
segments after the collection exactly when the version has three digits or more
or the collection is not taken for a base segment.
-/
theorem authorization_sees_collection_iff (route : Route) :
    (∀ rest, extractResource (route.path rest) = route.collection ↔
      route.SeesCollection rest) ∧
    ((∀ (authorize : Authorizer) (context : Context) (method : String)
        (first second : List Segment),
        authZ authorize
            { method := method, path := route.path first, context := context } =
          authZ authorize
            { method := method, path := route.path second, context := context }) ↔
      2 < route.digits.length ∨ isBaseSegment route.collection = false) := by
  refine ⟨route.extractResource_path_iff, ?_⟩
  constructor
  · intro independent
    by_contra exposed
    rw [not_or, Nat.not_lt, Bool.not_eq_false] at exposed
    rcases exposed with ⟨short, skipped⟩
    have different : route.collection ≠ Route.chosenName.val := by
      intro same
      rw [same] at skipped
      revert skipped
      decide
    have answers := independent (Route.refuses Route.chosenName.val)
      { subject := some ⟨"", {}⟩ } "GET" [] [Route.chosenName]
    simp [authZ, subjectFromContext, Route.refuses,
      route.extractResource_bare short,
      route.extractResource_chosen short skipped, different] at answers
  · intro condition authorize context method first second
    have sameResource :
        extractResource (route.path first) = extractResource (route.path second) := by
      by_cases long : 2 < route.digits.length
      · rw [route.extractResource_of_long first long,
          route.extractResource_of_long second long]
      · have short := Nat.not_lt.mp long
        have plain := condition.resolve_left long
        rw [route.extractResource_of_plain first short plain,
          route.extractResource_of_plain second short plain]
    simp only [authZ, sameResource]

/-- The collection `vms` under `/api/v1`. -/
def vmsRoute : Route where
  digits := [49]
  collection := [118, 109, 115]
  digitsNonempty := by decide
  digitsOnly := by
    intro byte member
    cases List.mem_singleton.mp member
    rfl
  collectionNonempty := by decide
  collectionWhole := by decide
  collectionNotApi := by decide

/-- On `/api/v1/vms/x` the resource is the name the client chose. -/
theorem vms_hidden_by_name :
    vmsRoute.path [Route.chosenName] =
        [47, 97, 112, 105, 47, 118, 49, 47, 118, 109, 115, 47, 120] ∧
      extractResource (vmsRoute.path [Route.chosenName]) = [120] ∧
      extractResource (vmsRoute.path []) = vmsRoute.collection :=
  ⟨rfl, rfl, rfl⟩

end Infractl.Auth
