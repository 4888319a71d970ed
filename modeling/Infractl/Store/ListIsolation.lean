import Infractl.Store.Listing
import Mathlib.Data.List.Sort

/-!
# What a list reveals of other tenants

Two tables agree on a tenant when they hold the same rows of it.  A list of
that tenant should be the same from both.  The filter, the count, the page
bounds and the token keep to this whatever the client sends: the filter is
reduced to comparisons of one row's columns before it reaches the database.
The sort option is handed over as it is, and the database answers to the text.

A text that lists columns is ordered by comparing two rows at a time, and rows
that tie may come in any order.  So the list is the same if the text names the
name column among others, by which no two rows of a tenant tie.  For any other
text there is a database, ordering by columns as it should, whose answer shows
rows of another tenant.
-/

namespace Infractl.Store

open Infractl.Lib

variable {Spec Status : Type}

/-- The tables hold the same rows of a tenant. -/
def AgreeOn (org : UUID) (left right : Table Spec Status) : Prop :=
  ∀ name, left.find ⟨org, name⟩ = right.find ⟨org, name⟩

theorem AgreeOn.symm {org : UUID} {left right : Table Spec Status}
    (agree : AgreeOn org left right) :
    AgreeOn org right left :=
  fun name => (agree name).symm

theorem AgreeOn.mem {org : UUID} {left right : Table Spec Status}
    (agree : AgreeOn org left right) {row : Object Spec Status}
    (member : row ∈ left.rows) (own : row.resource.orgID = org) :
    row ∈ right.rows := by
  subst own
  have found : left.find ⟨_, row.resource.name⟩ = some row :=
    KeyedTable.find_key member
  rw [agree] at found
  exact KeyedTable.find_mem found

theorem AgreeOn.matching_perm {org : UUID} {left right : Table Spec Status}
    (agree : AgreeOn org left right) (database : Database Spec Status)
    (condition : Condition) :
    (matching database left org condition).Perm
      (matching database right org condition) := by
  apply (List.perm_ext_iff_of_nodup matching_nodup matching_nodup).mpr
  intro row
  simp only [mem_matching_iff]
  constructor
  · rintro ⟨member, live, own, selected⟩
    exact ⟨agree.mem member own, live, own, selected⟩
  · rintro ⟨member, live, own, selected⟩
    exact ⟨agree.symm.mem member own, live, own, selected⟩

/--
Under an order the database answers from the tenant's own rows: its answer is
the same from two tables that agree on the tenant.
-/
def OwnRowsOnly (database : Database Spec Status) (org : UUID)
    (order : String) : Prop :=
  ∀ left right, AgreeOn org left right →
    ∀ filter condition, Accepts database filter condition →
      ∀ limit offset : Int64, 0 < limit →
        database.answer order limit.toNatClampNeg offset.toNatClampNeg left
            (matching database left org condition) =
          database.answer order limit.toNatClampNeg offset.toNatClampNeg right
            (matching database right org condition)

/-! ## The default order -/

theorem ownRowsOnly_defaultOrder (database : Database Spec Status) (org : UUID) :
    OwnRowsOnly database org defaultOrder := by
  intro left right agree filter condition _ limit offset _
  rw [database.answer_defaultOrder _ _ _ _ matching_names_nodup,
    database.answer_defaultOrder _ _ _ _ matching_names_nodup,
    database.collation.sort_eq_of_perm matching_names_nodup
      (agree.matching_perm database condition)]

/-! ## Lists -/

theorem list_eq_of_ownRowsOnly {database : Database Spec Status} {org : UUID}
    {options : ListOptions}
    (own : OwnRowsOnly database org (orderBy options.sort))
    {left right : Table Spec Status} (agree : AgreeOn org left right) :
    list database left org options = list database right org options := by
  cases parsed : parseFilter options.filter with
  | error error => simp only [list, parsed]
  | ok condition =>
      cases refused : database.rejects condition with
      | some reason => simp only [list, parsed, refused]
      | none =>
          cases started : startOffset options.continueToken with
          | error error => simp only [list, parsed, refused, started]
          | ok offset =>
              rw [list_accepted options ⟨parsed, refused⟩ started,
                list_accepted options ⟨parsed, refused⟩ started,
                own left right agree options.filter condition ⟨parsed, refused⟩
                  (pageSize options.limit) offset (pageSize_pos _),
                (agree.matching_perm database condition).length_eq]

/-! ## Sort options that list columns -/

/-- A column to order by. -/
structure SortColumn where
  column : List Char
  descending : Bool
deriving DecidableEq

/-- The identifiers that SQL takes without quotes. -/
def isColumnName : List Char → Bool
  | [] => false
  | first :: rest =>
      (first.isAlpha || first = '_') &&
        rest.all (fun character => character.isAlphanum || character = '_')

/-- The words after a column name. -/
def readDirection : List (List Char) → Option Bool
  | [] => some false
  | [word] =>
      if word.map Char.toLower = "asc".toList then some false
      else if word.map Char.toLower = "desc".toList then some true
      else none
  | _ => none

/-- A column name, and a direction if one is given. -/
def readColumn (item : List Char) : Option SortColumn :=
  match (item.splitOn ' ').filter (fun word => !word.isEmpty) with
  | [] => none
  | column :: direction =>
      if isColumnName column then
        (readDirection direction).map (⟨column.map Char.toLower, ·⟩)
      else none

/-- The columns of a sort option that is a list of columns. -/
def sortColumns (sort : String) : Option (List SortColumn) :=
  (sort.toList.splitOn ',').mapM readColumn

def nameColumn : List Char := "name".toList

example : sortColumns "created_at DESC, name" =
    some [⟨"created_at".toList, true⟩, ⟨nameColumn, false⟩] := by
  decide

/-- A sort option that lists columns, the name column among them. -/
def SortsByName (sort : String) : Prop :=
  ∃ columns, sortColumns sort = some columns ∧
    ∃ term ∈ columns, term.column = nameColumn

section Columns

variable (notAfter : List Char → Object Spec Status → Object Spec Status → Bool)

/-- The first row may stand before the second, as far as one column goes. -/
def SortColumn.NotAfter (term : SortColumn) (left right : Object Spec Status) : Prop :=
  if term.descending then notAfter term.column right left = true
  else notAfter term.column left right = true

/-- The same for a list of columns, where a later one decides among ties. -/
def NotAfterBy : List SortColumn → Object Spec Status → Object Spec Status → Prop
  | [], _, _ => True
  | term :: rest, left, right =>
      term.NotAfter notAfter left right ∧
        (term.NotAfter notAfter right left → NotAfterBy rest left right)

end Columns

/--
A database that orders by columns: it refuses a list of columns whatever is
stored, or returns a page of the rows in an order by these columns, where each
column compares two rows.  Rows that tie may stand in any order, which may
depend on the table.
-/
structure ColumnSorting (database : Database Spec Status) where
  refuses : String → Option String
  notAfter : List Char → Object Spec Status → Object Spec Status → Bool
  notAfter_name :
    ∀ left right, notAfter nameColumn left right =
      database.collation.notAfter left.name right.name
  answer_columns :
    ∀ sort columns, sortColumns sort = some columns →
      ∀ limit offset table rows,
        match refuses sort with
        | some reason => database.answer sort limit offset table rows = .error reason
        | none =>
            ∃ ordered : List (Object Spec Status), ordered.Perm rows ∧
              ordered.Pairwise (NotAfterBy notAfter columns) ∧
              database.answer sort limit offset table rows =
                .ok ((ordered.drop offset).take limit)

section Sufficient

variable {database : Database Spec Status} (sorting : ColumnSorting database)
include sorting

/-- Rows that tie under a list with the name column have the same name. -/
theorem ColumnSorting.name_eq {columns : List SortColumn} {term : SortColumn}
    (member : term ∈ columns) (isName : term.column = nameColumn)
    {left right : Object Spec Status}
    (before : NotAfterBy sorting.notAfter columns left right)
    (after : NotAfterBy sorting.notAfter columns right left) :
    left.name = right.name := by
  induction columns with
  | nil => cases member
  | cons first rest ih =>
      rcases List.mem_cons.mp member with rfl | later
      · have forth := before.1
        have back := after.1
        simp only [SortColumn.NotAfter, isName, sorting.notAfter_name] at forth back
        split at forth
        · next descending =>
            rw [if_pos descending] at back
            exact database.collation.antisymm _ _ back forth
        · next ascending =>
            rw [if_neg ascending] at back
            exact database.collation.antisymm _ _ forth back
      · exact ih later (before.2 after.1) (after.2 before.1)

/-- Ordered by the name among other columns, the rows have one order only. -/
theorem ColumnSorting.ownRowsOnly {sort : String} (byName : SortsByName sort)
    (org : UUID) : OwnRowsOnly database org sort := by
  rcases byName with ⟨columns, read, term, member, isName⟩
  intro left right agree filter condition _ limit offset _
  have answerLeft := sorting.answer_columns sort columns read limit.toNatClampNeg
    offset.toNatClampNeg left (matching database left org condition)
  have answerRight := sorting.answer_columns sort columns read limit.toNatClampNeg
    offset.toNatClampNeg right (matching database right org condition)
  cases refused : sorting.refuses sort with
  | some reason =>
      simp only [refused] at answerLeft answerRight
      rw [answerLeft, answerRight]
  | none =>
      simp only [refused] at answerLeft answerRight
      rcases answerLeft with ⟨ordered, perm, sorted, answer⟩
      rcases answerRight with ⟨other, otherPerm, otherSorted, otherAnswer⟩
      have rowsPerm := agree.matching_perm database condition
      have same : ordered = other := by
        refine List.Perm.eq_of_pairwise ?_ sorted otherSorted
          ((perm.trans rowsPerm).trans otherPerm.symm)
        intro first second firstMember secondMember before after
        have firstRow := perm.mem_iff.mp firstMember
        have secondRow := rowsPerm.mem_iff.mpr (otherPerm.mem_iff.mp secondMember)
        exact List.inj_on_of_nodup_map matching_names_nodup firstRow secondRow
          (sorting.name_eq member isName before after)
      rw [answer, otherAnswer, same]

end Sufficient

/-! ## A database that shows more under any other text -/

theorem sortColumns_defaultOrder :
    sortColumns defaultOrder = some [⟨nameColumn, false⟩] := by
  decide

theorem sortsByName_defaultOrder : SortsByName defaultOrder :=
  ⟨_, sortColumns_defaultOrder, _, List.mem_singleton_self _, rfl⟩

/-- Whether the first column of names in a text is descending. -/
def namesDescend (sort : String) : Bool :=
  (((sortColumns sort).getD []).find? (fun term => term.column = nameColumn)).any
    SortColumn.descending

theorem namesDescend_defaultOrder : namesDescend defaultOrder = false := by
  decide

theorem defaultOrder_ne {sort : String} (other : ¬ SortsByName sort) :
    defaultOrder ≠ sort := by
  rintro rfl
  exact other sortsByName_defaultOrder

/--
A database that orders by the name wherever it is listed, and under one other
text reverses the rows when the table has more than two.
-/
def leakingDatabase (sort : String) (other : ¬ SortsByName sort) :
    Database Spec Status where
  rejects _ := none
  holds _ _ := false
  answer order limit offset table rows :=
    let ordered :=
      if order = sort then if 2 < table.rows.length then rows.reverse else rows
      else if namesDescend order then (codePointOrder.sort rows).reverse
      else codePointOrder.sort rows
    .ok ((ordered.drop offset).take limit)
  collation := codePointOrder
  answer_defaultOrder limit offset table rows _ := by
    simp only [if_neg (defaultOrder_ne other), namesDescend_defaultOrder,
      Bool.false_eq_true, if_false]

/-- Names are compared, and any two rows tie in every other column. -/
def namesOnly (column : List Char) (left right : Object Spec Status) : Bool :=
  if column = nameColumn then codePointOrder.notAfter left.name right.name else true

section NamesOnly

variable {left right : Object Spec Status}

theorem notAfter_of_name_eq (term : SortColumn) (same : left.name = right.name) :
    term.NotAfter namesOnly left right := by
  have reflexive : codePointOrder.notAfter right.name right.name = true := by
    simpa using codePointOrder.total right.name right.name
  simp [SortColumn.NotAfter, namesOnly, same, reflexive]

theorem notAfter_of_other {term : SortColumn} (other : term.column ≠ nameColumn) :
    term.NotAfter namesOnly left right := by
  simp [SortColumn.NotAfter, namesOnly, other]

theorem notAfterBy_of_name_eq (columns : List SortColumn)
    (same : left.name = right.name) :
    NotAfterBy namesOnly columns left right := by
  induction columns with
  | nil => trivial
  | cons term rest ih => exact ⟨notAfter_of_name_eq term same, fun _ => ih⟩

theorem notAfterBy_of_others {columns : List SortColumn}
    (others : ∀ term ∈ columns, term.column ≠ nameColumn) :
    NotAfterBy namesOnly columns left right := by
  induction columns with
  | nil => trivial
  | cons term rest ih =>
      rw [List.forall_mem_cons] at others
      exact ⟨notAfter_of_other others.1, fun _ => ih others.2⟩

/-- The first column of names decides. -/
theorem notAfterBy_of_first {columns : List SortColumn} {first : SortColumn}
    (found : columns.find? (fun term => term.column = nameColumn) = some first)
    (before : first.NotAfter namesOnly left right) :
    NotAfterBy namesOnly columns left right := by
  induction columns with
  | nil => cases found
  | cons term rest ih =>
      by_cases isName : term.column = nameColumn
      · rw [List.find?_cons_of_pos (by simpa using isName)] at found
        cases found
        refine ⟨before, fun after => notAfterBy_of_name_eq rest ?_⟩
        simp only [SortColumn.NotAfter, namesOnly, isName, if_true] at before after
        split at before
        · next descending =>
            rw [if_pos descending] at after
            exact codePointOrder.antisymm _ _ after before
        · next ascending =>
            rw [if_neg ascending] at after
            exact codePointOrder.antisymm _ _ before after
      · rw [List.find?_cons_of_neg (by simpa using isName)] at found
        exact ⟨notAfter_of_other isName, fun _ => ih found⟩

end NamesOnly

/-- Rows in the order of their names, or in the reverse order. -/
theorem pairwise_byName (columns : List SortColumn) (rows : List (Object Spec Status)) :
    (if (columns.find? (fun term => term.column = nameColumn)).any
        SortColumn.descending then
      (codePointOrder.sort rows).reverse
    else codePointOrder.sort rows).Pairwise (NotAfterBy namesOnly columns) := by
  cases found : columns.find? (fun term => term.column = nameColumn) with
  | none =>
      have others : ∀ term ∈ columns, term.column ≠ nameColumn := by
        simpa using found
      exact List.pairwise_of_forall fun _ _ => notAfterBy_of_others others
  | some first =>
      have isName : first.column = nameColumn := by
        simpa using List.find?_some found
      have sorted := codePointOrder.sort_pairwise rows
      rw [Option.any_some]
      split
      · next descending =>
          refine List.pairwise_reverse.mpr (sorted.imp fun before => ?_)
          refine notAfterBy_of_first found ?_
          simpa [SortColumn.NotAfter, namesOnly, isName, descending] using before
      · next ascending =>
          refine sorted.imp fun before => notAfterBy_of_first found ?_
          simpa [SortColumn.NotAfter, namesOnly, isName, ascending] using before

theorem perm_ite {Item : Type} {choice : Prop} [Decidable choice]
    {first second items : List Item} (one : first.Perm items)
    (two : second.Perm items) :
    (if choice then first else second).Perm items := by
  split
  · exact one
  · exact two

theorem leakingDatabase_answer {sort : String} (other : ¬ SortsByName sort)
    {order : String} {columns : List SortColumn}
    (read : sortColumns order = some columns) (limit offset : Nat)
    (table : Table Spec Status) (rows : List (Object Spec Status)) :
    ∃ ordered : List (Object Spec Status), ordered.Perm rows ∧
      ordered.Pairwise (NotAfterBy namesOnly columns) ∧
      (leakingDatabase sort other).answer order limit offset table rows =
        .ok ((ordered.drop offset).take limit) := by
  have sortPerm := codePointOrder.sort_perm rows
  refine ⟨_, ?_, ?_, rfl⟩
  · refine perm_ite (perm_ite ?_ (.refl _)) (perm_ite ?_ sortPerm)
    · exact List.reverse_perm rows
    · exact (List.reverse_perm _).trans sortPerm
  · split
    · next isOther =>
        -- no column listed compares names, so that any order will do
        subst isOther
        refine List.pairwise_of_forall fun _ _ => notAfterBy_of_others ?_
        intro term member isName
        exact other ⟨columns, read, term, member, isName⟩
    · simp only [namesDescend, read, Option.getD_some]
      exact pairwise_byName columns rows

/-- The database orders by columns as it should. -/
def leakingSorting (sort : String) (other : ¬ SortsByName sort) :
    ColumnSorting (leakingDatabase sort other : Database Spec Status) where
  refuses _ := none
  notAfter := namesOnly
  notAfter_name _ _ := if_pos rfl
  answer_columns _ _ read := leakingDatabase_answer other read

section Leak

variable [Inhabited Spec] [Inhabited Status]

def plainRow (org : UUID) (name : String) : Object Spec Status :=
  ⟨{ orgID := org, name := name }, default, default⟩

theorem ownRows_distinct :
    ([plainRow 1 "a", plainRow 1 "b"] : List (Object Spec Status)).map Object.key
      |>.Nodup := by
  show [(⟨1, "a"⟩ : Key), ⟨1, "b"⟩].Nodup
  decide

theorem sharedRows_distinct :
    ([plainRow 1 "a", plainRow 1 "b", plainRow 2 "c"] :
      List (Object Spec Status)).map Object.key |>.Nodup := by
  show [(⟨1, "a"⟩ : Key), ⟨1, "b"⟩, ⟨2, "c"⟩].Nodup
  decide

/-- Two rows of tenant one. -/
def ownRows : Table Spec Status :=
  ⟨[plainRow 1 "a", plainRow 1 "b"], ownRows_distinct⟩

/-- The same rows and one of tenant two. -/
def sharedRows : Table Spec Status :=
  ⟨[plainRow 1 "a", plainRow 1 "b", plainRow 2 "c"], sharedRows_distinct⟩

theorem agreeOn_sharedRows :
    AgreeOn 1 (ownRows : Table Spec Status) sharedRows := by
  intro name
  simp [ownRows, sharedRows, KeyedTable.find, plainRow, Object.key, Resource.key,
    List.find?_cons]

variable (Spec Status) in
/-- The third row turns the page of the first two around. -/
theorem leakingDatabase_lists {sort : String} (other : ¬ SortsByName sort)
    (given : sort ≠ "") :
    (list (leakingDatabase sort other) (ownRows : Table Spec Status) 1
        ⟨0, "", "", sort⟩).map Listed.items =
      .ok [plainRow 1 "a", plainRow 1 "b"] ∧
    (list (leakingDatabase sort other) (sharedRows : Table Spec Status) 1
        ⟨0, "", "", sort⟩).map Listed.items =
      .ok [plainRow 1 "b", plainRow 1 "a"] := by
  have order : orderBy sort = sort := if_neg given
  have accepted : Accepts (leakingDatabase sort other : Database Spec Status) "" [] :=
    ⟨rfl, rfl⟩
  constructor
  · rw [list_accepted ⟨0, "", "", sort⟩ accepted rfl]
    simp only [leakingDatabase, order, if_true]
    rfl
  · rw [list_accepted ⟨0, "", "", sort⟩ accepted rfl]
    simp only [leakingDatabase, order, if_true]
    rfl

end Leak

/--
The lists of tenants under a sort option reveal nothing of other tenants,
whatever database orders by columns as it should, exactly when the option is
left out or is a list of columns with the name column among them.
-/
theorem list_noninterfering_iff [Inhabited Spec] [Inhabited Status]
    (sort : String) :
    (∀ database : Database Spec Status, ColumnSorting database →
      ∀ org left right, AgreeOn org left right →
        ∀ options : ListOptions, options.sort = sort →
          list database left org options = list database right org options) ↔
      sort = "" ∨ SortsByName sort := by
  constructor
  · intro same
    by_cases given : sort = ""
    · exact .inl given
    · refine .inr (by_contra fun other => ?_)
      have lists := same _ (leakingSorting sort other) 1 ownRows sharedRows
        agreeOn_sharedRows ⟨0, "", "", sort⟩ rfl
      rcases leakingDatabase_lists Spec Status other given with ⟨own, shared⟩
      rw [lists, shared] at own
      have names : ["b", "a"] = ["a", "b"] :=
        congrArg (List.map Object.name) (Except.ok.inj own)
      exact absurd names (by decide)
  · rintro safe database sorting org left right agree options rfl
    apply list_eq_of_ownRowsOnly _ agree
    by_cases unsorted : options.sort = ""
    · rw [orderBy, if_pos unsorted]
      exact ownRowsOnly_defaultOrder database org
    · rw [orderBy, if_neg unsorted]
      exact sorting.ownRowsOnly (safe.resolve_left unsorted) org

/-! ## A sort option that counts rows -/

/-- Order one way or the other, by the number of rows in the whole table. -/
def countingSort : String :=
  "CASE WHEN (SELECT count(*) FROM machines) > 2 THEN generation ELSE -generation END"

/-- What `countingSort` evaluates to on a row of a table. -/
def countingKey (table : Table Unit Unit) (row : Object Unit Unit) : Int :=
  if table.rows.length > 2 then row.resource.generation.toInt
  else -row.resource.generation.toInt

/-- A database that knows the name column and evaluates `countingSort`. -/
def countingDatabase : Database Unit Unit where
  rejects condition :=
    if condition.flatten.all (fun term =>
        term.field = "name".toList && term.operator = .equal) then none
    else some "column does not exist"
  holds term row := term.value = row.name.toList
  answer order limit offset table rows :=
    let ordered :=
      if order = countingSort then
        rows.insertionSort (fun left right =>
          countingKey table left ≤ countingKey table right)
      else codePointOrder.sort rows
    .ok ((ordered.drop offset).take limit)
  collation := codePointOrder
  answer_defaultOrder limit offset table rows _ := by
    have other : defaultOrder ≠ countingSort := by decide
    simp only [if_neg other]

def machineRow (org : UUID) (name : String) (generation : Int64) :
    Object Unit Unit :=
  ⟨{ orgID := org, name := name, generation := generation,
     resourceVersion := 1 }, (), ()⟩

/-- Two machines of tenant one. -/
def ownMachines : Table Unit Unit :=
  ⟨[machineRow 1 "a" 1, machineRow 1 "b" 2], by decide⟩

/-- The same machines and one of tenant two. -/
def sharedMachines : Table Unit Unit :=
  ⟨[machineRow 1 "a" 1, machineRow 1 "b" 2, machineRow 2 "c" 1], by decide⟩

/-- Tenant one learns from the order of its machines that tenant two has one. -/
theorem sort_counts_other_tenants :
    AgreeOn 1 ownMachines sharedMachines ∧
      (list countingDatabase ownMachines 1
          ⟨0, "", "", countingSort⟩).map Listed.items =
        .ok [machineRow 1 "b" 2, machineRow 1 "a" 1] ∧
      (list countingDatabase sharedMachines 1
          ⟨0, "", "", countingSort⟩).map Listed.items =
        .ok [machineRow 1 "a" 1, machineRow 1 "b" 2] := by
  refine ⟨?_, by rfl, by rfl⟩
  intro name
  simp [ownMachines, sharedMachines, KeyedTable.find, machineRow, Object.key,
    Resource.key, List.find?_cons]

end Infractl.Store
