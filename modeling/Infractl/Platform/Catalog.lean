import Infractl.Api.ListHandler
import Infractl.Store.PageWalk

/-!
# The catalog

A catalog item is published or not, which is a field of its specification and
so of one JSON column of its row.  `listCatalogItems` means to show published
items unless a client asks for all: it lists with the filter `published=true`
when the client sends no filter.

That filter names a column that the table does not have, so that the request is
refused.  A filter of the client takes its place, and the items it selects are
shown whether they are published or not.
-/

namespace Infractl.Platform

open Infractl.Api
open Infractl.Store

variable {Status : Type}

/-- What a catalog item offers, up to what no handler reads. -/
structure CatalogItemSpec where
  published : Bool := false
deriving DecidableEq

/-! ## The handler -/

/-- The parameters of a list request, each empty when it is absent. -/
structure CatalogQuery where
  limit : String := ""
  filter : String := ""
  continueToken : String := ""
  all : String := ""

/-- The filter a request lists with. -/
def CatalogQuery.listFilter (query : CatalogQuery) : String :=
  if query.all ≠ "true" ∧ query.filter = "" then "published=true"
  else query.filter

/-- The options of a request. -/
def CatalogQuery.options (query : CatalogQuery) : ListOptions :=
  let limit := atoiValue query.limit
  { limit := if limit ≤ 0 then 100 else limit
    continueToken := query.continueToken
    filter := query.listFilter }

/-- `listCatalogItems`. -/
def listCatalogItems (quote : List Char → String)
    (database : Database CatalogItemSpec Status)
    (table : Table CatalogItemSpec Status) (org : Option UUID)
    (query : CatalogQuery) : ListReply CatalogItemSpec Status :=
  match orgIDFromContext org with
  | .error reason => .error 500 reason
  | .ok orgID =>
      match Store.list database table orgID query.options with
      | .error error => .error 500 (error.message quote)
      | .ok listed => .json 200 listed

theorem CatalogQuery.pageSize_limit (query : CatalogQuery) :
    pageSize query.options.limit = query.options.limit := by
  have positive : ¬ query.options.limit ≤ 0 := by
    unfold CatalogQuery.options
    dsimp only
    split
    · decide
    · assumption
  exact if_neg positive

/-! ## What a request shows -/

section Listing

variable {database : Database CatalogItemSpec Status}
variable {table : Table CatalogItemSpec Status} {org : UUID} {query : CatalogQuery}

variable (database table org query) in
/-- The rows of the page that a condition and an offset give. -/
def pageRows (condition : Condition) (offset : Int64) :
    List (Object CatalogItemSpec Status) :=
  ((orderedRows database table org condition).drop offset.toNatClampNeg).take
    query.options.limit.toNatClampNeg

theorem list_of_accepts {condition : Condition} {offset : Int64}
    (accepted : Accepts database query.listFilter condition)
    (started : startOffset query.continueToken = .ok offset) :
    Store.list database table org query.options =
      pageOf (Int64.ofNat (matching database table org condition).length) offset
        (.ok (pageRows database table org query condition offset)) := by
  rw [list_accepted query.options accepted started,
    show orderBy query.options.sort = defaultOrder from if_pos rfl,
    database.answer_defaultOrder _ _ _ _ matching_names_nodup,
    query.pageSize_limit]
  rfl

theorem exists_list_of_accepts {condition : Condition} {offset : Int64}
    (accepted : Accepts database query.listFilter condition)
    (started : startOffset query.continueToken = .ok offset) :
    ∃ listed, Store.list database table org query.options = .ok listed ∧
      listed.items = pageRows database table org query condition offset := by
  rw [list_of_accepts accepted started, pageOf]
  exact ⟨_, rfl, rfl⟩

/-- A list that succeeds is a page of the rows that its filter selects. -/
theorem accepts_of_list {listed : Listed CatalogItemSpec Status}
    (succeeded : Store.list database table org query.options = .ok listed) :
    ∃ condition offset, Accepts database query.listFilter condition ∧
      startOffset query.continueToken = .ok offset ∧
      listed.items = pageRows database table org query condition offset := by
  have stages := succeeded
  simp only [Store.list] at stages
  split at stages
  · cases stages
  · next condition parsed =>
      split at stages
      · cases stages
      · next taken =>
          split at stages
          · cases stages
          · next offset started =>
              have accepted : Accepts database query.listFilter condition :=
                ⟨parsed, taken⟩
              rcases exists_list_of_accepts accepted started with
                ⟨page, lists, items⟩
              cases lists.symm.trans succeeded
              exact ⟨condition, offset, accepted, started, items⟩

/-- The items of the successful replies are the rows of the page. -/
theorem forall_items_iff (quote : List Char → String)
    (property : Object CatalogItemSpec Status → Prop) :
    (∀ listed, listCatalogItems quote database table (some org) query =
          .json 200 listed →
        ∀ item ∈ listed.items, property item) ↔
      ∀ condition offset, Accepts database query.listFilter condition →
        startOffset query.continueToken = .ok offset →
        ∀ row ∈ pageRows database table org query condition offset, property row := by
  simp only [listCatalogItems, orgIDFromContext]
  constructor
  · intro shown condition offset accepted started row member
    rcases exists_list_of_accepts accepted started with ⟨listed, lists, items⟩
    rw [lists] at shown
    rw [← items] at member
    exact shown listed rfl row member
  · intro rows listed replied item member
    cases succeeded : Store.list database table org query.options with
    | error error =>
        rw [succeeded] at replied
        cases replied
    | ok found =>
        rw [succeeded] at replied
        cases replied
        rcases accepts_of_list succeeded with
          ⟨condition, offset, accepted, started, items⟩
        rw [items] at member
        exact rows condition offset accepted started item member

end Listing

/--
The table has no column for the published state: a condition that names one is
refused.
-/
def LacksPublished (database : Database CatalogItemSpec Status) : Prop :=
  ∀ condition : Condition,
    (∃ group ∈ condition, ∃ term ∈ group, term.field = "published".toList) →
    ∃ reason, database.rejects condition = some reason

/-- The term of the default filter. -/
def publishedTerm : Term where
  field := "published".toList
  valid := by decide
  operator := .equal
  value := "true".toList

theorem parseFilter_published :
    parseFilter "published=true" = .ok [[publishedTerm]] :=
  rfl

theorem rejects_published {database : Database CatalogItemSpec Status}
    (lacks : LacksPublished database) :
    ∃ reason, database.rejects [[publishedTerm]] = some reason :=
  lacks _ ⟨_, List.mem_singleton_self _, _, List.mem_singleton_self _, rfl⟩

theorem CatalogQuery.listFilter_of_filter {query : CatalogQuery}
    (filtered : query.filter ≠ "") : query.listFilter = query.filter :=
  if_neg fun both => filtered both.2

/-- Of a client that does not ask for all, a request without a filter is refused. -/
theorem listCatalogItems_unfiltered (quote : List Char → String)
    {database : Database CatalogItemSpec Status} (lacks : LacksPublished database)
    (table : Table CatalogItemSpec Status) (org : UUID) {query : CatalogQuery}
    (notAll : query.all ≠ "true") (unfiltered : query.filter = "") :
    ∃ reason, listCatalogItems quote database table (some org) query =
      .error 500 ("counting resources: " ++ reason) := by
  rcases rejects_published lacks with ⟨reason, rejected⟩
  have byDefault : query.listFilter = "published=true" :=
    if_pos ⟨notAll, unfiltered⟩
  have parsed : parseFilter query.options.filter = .ok [[publishedTerm]] := by
    rw [← parseFilter_published, ← byDefault]
    rfl
  refine ⟨reason, ?_⟩
  simp only [listCatalogItems, orgIDFromContext, Store.list, parsed, rejected]
  rfl

/-- The request for the longest page there is. -/
def wholePage (filter : String) : CatalogQuery where
  limit := "9223372036854775807"
  filter := filter

theorem atoiValue_maxInt64 :
    atoiValue "9223372036854775807" = Int64.maxValue := by
  decide +kernel

@[simp]
theorem limit_wholePage (filter : String) :
    (wholePage filter).options.limit = Int64.maxValue := by
  simp only [CatalogQuery.options, wholePage, atoiValue_maxInt64]
  exact if_neg (by decide)

theorem all_wholePage {filter : String} : (wholePage filter).all ≠ "true" := by
  show "" ≠ "true"
  decide

/-- Every row that a filter selects is on the longest page. -/
theorem pageRows_wholePage {database : Database CatalogItemSpec Status}
    {table : Table CatalogItemSpec Status} (fits : table.rows.length < 2 ^ 63)
    (org : UUID) (filter : String) (condition : Condition) :
    pageRows database table org (wholePage filter) condition 0 =
      orderedRows database table org condition := by
  have count : (orderedRows database table org condition).length < 2 ^ 63 :=
    orderedRows_length_lt fits
  have largest : Int64.maxValue.toNatClampNeg = 2 ^ 63 - 1 := rfl
  rw [pageRows, limit_wholePage, largest]
  exact List.take_of_length_le (Nat.le_sub_one_of_lt count)

/-! ## Published items only -/

section Published

variable (quote : List Char → String)
variable (database : Database CatalogItemSpec Status)
variable (table : Table CatalogItemSpec Status) (org : UUID)

/-- The published live items of a tenant, in the order of their names. -/
def publishedItems : List (Object CatalogItemSpec Status) :=
  (orderedRows database table org []).filter (fun item => item.spec.published)

/--
What a client that does not ask for all is to see under one filter, whatever
limit and token it sends: published items only, and without a filter the first
page of them.
-/
structure ShowsPublished (filter : String) : Prop where
  onlyPublished :
    ∀ query : CatalogQuery, query.filter = filter → query.all ≠ "true" →
      ∀ listed, listCatalogItems quote database table (some org) query =
          .json 200 listed →
        ∀ item ∈ listed.items, item.spec.published = true
  firstPage :
    filter = "" →
      ∀ query : CatalogQuery, query.filter = "" → query.all ≠ "true" →
        query.continueToken = "" →
        ∃ listed, listCatalogItems quote database table (some org) query =
            .json 200 listed ∧
          listed.items =
            (publishedItems database table org).take
              query.options.limit.toNatClampNeg

end Published

/--
A request without a filter is refused.  The requests with a filter show what
they are to show if and only if the filter is not empty and every live item of
the tenant that it selects is published.
-/
theorem listCatalogItems_published_iff (quote : List Char → String)
    {database : Database CatalogItemSpec Status} (lacks : LacksPublished database)
    {table : Table CatalogItemSpec Status} (fits : table.rows.length < 2 ^ 63)
    (org : UUID) (filter : String) :
    (∀ query : CatalogQuery, query.filter = "" → query.all ≠ "true" →
      ∃ reason, listCatalogItems quote database table (some org) query =
        .error 500 ("counting resources: " ++ reason)) ∧
    (ShowsPublished quote database table org filter ↔
      filter ≠ "" ∧
        ∀ condition, Accepts database filter condition →
          ∀ row ∈ matching database table org condition,
            row.spec.published = true) := by
  have unfilteredRefused (query : CatalogQuery) (unfiltered : query.filter = "")
      (notAll : query.all ≠ "true") :=
    listCatalogItems_unfiltered quote lacks table org notAll unfiltered
  refine ⟨unfilteredRefused, ?_, ?_⟩
  · intro shows
    have filtered : filter ≠ "" := by
      intro unfiltered
      rcases shows.firstPage unfiltered {} rfl (by decide) rfl with ⟨listed, replied, _⟩
      rcases unfilteredRefused {} rfl (by decide) with ⟨reason, refused⟩
      cases refused.symm.trans replied
    refine ⟨filtered, ?_⟩
    intro condition accepted row member
    -- the row is on the longest page, which begins with the first row
    have shown := (forall_items_iff quote _).mp
      (shows.onlyPublished (wholePage filter) rfl all_wholePage)
    refine shown condition 0 ?_ rfl row ?_
    · rw [CatalogQuery.listFilter_of_filter filtered]
      exact accepted
    · rw [pageRows_wholePage fits]
      exact orderedRows_perm.mem_iff.mpr member
  · rintro ⟨filtered, published⟩
    refine ⟨?_, fun unfiltered => absurd unfiltered filtered⟩
    rintro query rfl _
    refine (forall_items_iff quote _).mpr ?_
    intro condition offset accepted _ row member
    rw [CatalogQuery.listFilter_of_filter filtered] at accepted
    have onPage := List.mem_of_mem_drop (List.mem_of_mem_take member)
    exact published condition accepted row (orderedRows_perm.mem_iff.mp onPage)

/-! ## An unpublished item -/

/-- A database that compares names and knows no other column. -/
def nameDatabase : Database CatalogItemSpec Unit where
  rejects condition :=
    if condition.flatten.all (fun term =>
        term.field = "name".toList && term.operator = .equal) then none
    else some "column does not exist"
  holds term row := term.value = row.name.toList
  answer _ limit offset _ rows :=
    .ok (((codePointOrder.sort rows).drop offset).take limit)
  collation := codePointOrder
  answer_defaultOrder _ _ _ _ _ := rfl

theorem nameDatabase_lacksPublished : LacksPublished nameDatabase := by
  rintro condition ⟨group, isGroup, term, member, published⟩
  refine ⟨"column does not exist", if_neg fun names => ?_⟩
  have named := List.all_eq_true.mp names term
    (List.mem_flatten.mpr ⟨group, isGroup, member⟩)
  have different : ¬ "published".toList = "name".toList := by decide
  rw [published, decide_eq_false different, Bool.false_and] at named
  cases named

def draftItem : Object CatalogItemSpec Unit :=
  ⟨{ orgID := 1, name := "a" }, { published := false }, ()⟩

def draftTable : Table CatalogItemSpec Unit :=
  ⟨[draftItem], List.nodup_singleton _⟩

theorem name_isValidFieldName : isValidFieldName "name".toList = true :=
  rfl

def nameIsA : Condition :=
  [[⟨"name".toList, name_isValidFieldName, .equal, "a".toList⟩]]

theorem matching_draft : matching nameDatabase draftTable 1 nameIsA = [draftItem] :=
  rfl

theorem list_draft :
    Store.list nameDatabase draftTable 1 (CatalogQuery.options { filter := "name=a" }) =
      .ok ⟨[draftItem], "", 1⟩ := by
  have accepted : Accepts nameDatabase
      (CatalogQuery.listFilter { filter := "name=a" }) nameIsA :=
    ⟨rfl, rfl⟩
  have rows : pageRows nameDatabase draftTable 1 { filter := "name=a" } nameIsA 0 =
      [draftItem] := by
    rw [pageRows, orderedRows, matching_draft, Collation.sort, List.mergeSort_singleton]
    rfl
  rw [list_of_accepts accepted rfl, rows]
  rfl

/-- A published item beside one that is not. -/
def catalogRows : List (Object CatalogItemSpec Unit) :=
  [⟨{ orgID := 1, name := "a" }, { published := true }, ()⟩,
    ⟨{ orgID := 1, name := "b" }, { published := false }, ()⟩]

theorem catalogRows_distinct : (catalogRows.map Object.key).Nodup := by
  decide

def catalogTable : Table CatalogItemSpec Unit :=
  ⟨catalogRows, catalogRows_distinct⟩

/--
Of a published and an unpublished item, the requests that ask for the first by
its name show published items only; requests without a filter are refused.
-/
theorem filter_on_published_name :
    ShowsPublished String.ofList nameDatabase catalogTable 1 "name=a" ∧
      (∃ item ∈ matching nameDatabase catalogTable 1 nameIsA,
        item.spec.published = true) ∧
      ∃ reason, listCatalogItems String.ofList nameDatabase catalogTable (some 1) {} =
        .error 500 ("counting resources: " ++ reason) := by
  have fits : catalogTable.rows.length < 2 ^ 63 := by decide
  have shown := listCatalogItems_published_iff String.ofList
    nameDatabase_lacksPublished fits 1 "name=a"
  refine ⟨shown.2.mpr ⟨by decide, ?_⟩, ⟨_, List.mem_singleton_self _, rfl⟩,
    shown.1 {} rfl (by decide)⟩
  rintro condition ⟨parsed, _⟩ row member
  cases parsed
  cases List.mem_singleton.mp member
  rfl

/-- A client that filters by name is shown an item that is not published. -/
theorem filter_shows_unpublished :
    listCatalogItems String.ofList nameDatabase draftTable (some 1) {} =
        .error 500 "counting resources: column does not exist" ∧
      listCatalogItems String.ofList nameDatabase draftTable (some 1)
          { filter := "name=a" } =
        .json 200 ⟨[draftItem], "", 1⟩ ∧
      draftItem.spec.published = false := by
  refine ⟨rfl, ?_, rfl⟩
  simp only [listCatalogItems, orgIDFromContext, list_draft]

end Infractl.Platform
