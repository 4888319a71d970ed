import Infractl.Store.Filter
import Infractl.Store.Pagination
import Infractl.Store.Statements

/-!
# Listing resources

`list` is `GenericStore.List`: the rows of one tenant that a filter selects,
counted, ordered and cut to a page.

The database enters as a parameter.  Of a filter it gets the terms, whose
field names have been checked, and says which rows each of them is true of.
The text of the `ORDER BY` clause it gets as the client sent it, together with
the page bounds and the whole table: nothing is promised about its answer,
except under the default order, where the rows come in the order of their
names and the page is cut from them.
-/

namespace Infractl.Store

open Infractl.Lib

variable {Spec Status : Type}

/-! ## The database -/

/-- `GetName`. -/
def Object.name (object : Object Spec Status) : String :=
  object.resource.name

/-- Rows in the order of their names. -/
def Collation.sort (collation : Collation) (rows : List (Object Spec Status)) :
    List (Object Spec Status) :=
  rows.mergeSort (fun left right => collation.notAfter left.name right.name)

theorem Collation.sort_perm (collation : Collation)
    (rows : List (Object Spec Status)) :
    (collation.sort rows).Perm rows :=
  List.mergeSort_perm rows _

theorem Collation.sort_pairwise (collation : Collation)
    (rows : List (Object Spec Status)) :
    (collation.sort rows).Pairwise (fun left right =>
      collation.notAfter left.name right.name = true) :=
  List.pairwise_mergeSort
    (fun first second third =>
      collation.trans first.name second.name third.name)
    (fun left right => collation.total left.name right.name) rows

/-- The order of distinct names does not depend on where the rows stood. -/
theorem Collation.sort_eq_of_perm (collation : Collation)
    {left right : List (Object Spec Status)}
    (names : (left.map Object.name).Nodup) (perm : left.Perm right) :
    collation.sort left = collation.sort right := by
  have sortedPerm : (collation.sort left).Perm (collation.sort right) :=
    ((collation.sort_perm left).trans perm).trans
      (collation.sort_perm right).symm
  refine List.Perm.eq_of_pairwise ?_ (collation.sort_pairwise left)
    (collation.sort_pairwise right) sortedPerm
  intro first second firstMember secondMember before after
  have firstRow := (collation.sort_perm left).mem_iff.mp firstMember
  have secondRow :=
    perm.mem_iff.mpr ((collation.sort_perm right).mem_iff.mp secondMember)
  exact List.inj_on_of_nodup_map names firstRow secondRow
    (collation.antisymm _ _ before after)

/-- The `ORDER BY` clause of a list without a sort option. -/
def defaultOrder : String := "name ASC"

/--
What the store relies on in the database: which conditions it refuses and with
what error, which rows a term is true of, and its answer to the statement that
reads a page.  The statement names the order, a limit and an offset, where an
offset of zero is none, and selects among the rows of the table.
-/
structure Database (Spec Status : Type) where
  rejects : Condition → Option String
  holds : Term → Object Spec Status → Bool
  answer :
    String → Nat → Nat → Table Spec Status → List (Object Spec Status) →
      Except String (List (Object Spec Status))
  collation : Collation
  answer_defaultOrder :
    ∀ limit offset table rows, (rows.map Object.name).Nodup →
      answer defaultOrder limit offset table rows =
        .ok (((collation.sort rows).drop offset).take limit)

/-- A condition selects a row when one of its groups holds of it. -/
def Database.selects (database : Database Spec Status) (condition : Condition)
    (row : Object Spec Status) : Bool :=
  condition.isEmpty ||
    condition.any (fun group => group.all (fun term => database.holds term row))

/-- The live rows of a tenant that a condition selects. -/
def matching (database : Database Spec Status) (table : Table Spec Status)
    (org : UUID) (condition : Condition) : List (Object Spec Status) :=
  table.rows.filter (fun row =>
    row.live && row.resource.orgID = org && database.selects condition row)

/-! ## The call -/

/-- `ListOptions`. -/
structure ListOptions where
  limit : Int64 := 0
  continueToken : String := ""
  filter : String := ""
  sort : String := ""
deriving DecidableEq

/-- A page, with the token of the next one and the number of all rows. -/
structure Listed (Spec Status : Type) where
  items : List (Object Spec Status)
  continueToken : String
  total : Int64
deriving DecidableEq

/-- The errors of `List`. -/
inductive ListError where
  | parsingFilter (error : FilterError)
  | counting (reason : String)
  | decodingToken (error : TokenError)
  | listing (reason : String)
deriving DecidableEq

/-- The message of a list error, up to what the library errors in it say. -/
def ListError.message (quote : List Char → String) : ListError → String
  | .parsingFilter error => "parsing filter: " ++ error.message quote
  | .counting reason => "counting resources: " ++ reason
  | .decodingToken error => "decoding continue token: " ++ error.message
  | .listing reason => "listing resources: " ++ reason

/-- The text handed to `Order`. -/
def orderBy (sort : String) : String :=
  if sort = "" then defaultOrder else sort

/-- The number handed to `Limit`. -/
def pageSize (limit : Int64) : Int64 :=
  if limit ≤ 0 then 50 else limit

theorem pageSize_pos (limit : Int64) : 0 < pageSize limit := by
  rw [pageSize]
  split
  · decide
  · exact Int64.not_le.mp ‹_›

/-- The offset a list starts from, zero without a token. -/
def startOffset (continueToken : String) : Except TokenError Int64 :=
  if continueToken = "" then .ok 0
  else (decodeContinueToken continueToken).map ContinueToken.offset

@[simp]
theorem startOffset_encode (token : ContinueToken) :
    startOffset (encodeContinueToken token) = .ok token.offset := by
  rw [startOffset, if_neg (encodeContinueToken_ne_empty token),
    decodeContinueToken_encode]
  rfl

/-- The page made of the rows found, with a token when more rows follow. -/
def pageOf (total offset : Int64) :
    Except String (List (Object Spec Status)) →
      Except ListError (Listed Spec Status)
  | .error reason => .error (.listing reason)
  | .ok items =>
      let nextOffset := offset + Int64.ofNat items.length
      .ok
        { items := items
          continueToken :=
            if nextOffset < total then encodeContinueToken ⟨nextOffset, 0⟩
            else ""
          total := total }

/-- `List`. -/
def list (database : Database Spec Status) (table : Table Spec Status)
    (org : UUID) (options : ListOptions) :
    Except ListError (Listed Spec Status) :=
  match parseFilter options.filter with
  | .error error => .error (.parsingFilter error)
  | .ok condition =>
      match database.rejects condition with
      | some reason => .error (.counting reason)
      | none =>
          let rows := matching database table org condition
          match startOffset options.continueToken with
          | .error error => .error (.decodingToken error)
          | .ok offset =>
              pageOf (Int64.ofNat rows.length) offset
                (database.answer (orderBy options.sort)
                  (pageSize options.limit).toNatClampNeg offset.toNatClampNeg
                  table rows)

/-- A filter that parses to a condition the database takes. -/
def Accepts (database : Database Spec Status) (filter : String)
    (condition : Condition) : Prop :=
  parseFilter filter = .ok condition ∧ database.rejects condition = none

theorem list_accepted {database : Database Spec Status}
    (options : ListOptions) {condition : Condition}
    (accepted : Accepts database options.filter condition)
    {offset : Int64}
    (started : startOffset options.continueToken = .ok offset)
    (table : Table Spec Status) (org : UUID) :
    list database table org options =
      pageOf (Int64.ofNat (matching database table org condition).length) offset
        (database.answer (orderBy options.sort)
          (pageSize options.limit).toNatClampNeg offset.toNatClampNeg table
          (matching database table org condition)) := by
  simp only [list, accepted.1, accepted.2, started]

/-! ## The rows selected -/

section Matching

variable {database : Database Spec Status} {table : Table Spec Status}
variable {org : UUID} {condition : Condition}

@[simp]
theorem mem_matching_iff {row : Object Spec Status} :
    row ∈ matching database table org condition ↔
      row ∈ table.rows ∧ row.live = true ∧ row.resource.orgID = org ∧
        database.selects condition row = true := by
  simp [matching, and_assoc]

/-- Within a tenant the name is the key, so that no two rows share one. -/
theorem matching_names_nodup :
    ((matching database table org condition).map Object.name).Nodup := by
  have keys :
      ((matching database table org condition).map Object.key).Nodup :=
    (List.filter_sublist.map _).nodup table.distinct
  apply List.Nodup.map_on _ (List.Nodup.of_map _ keys)
  intro left leftMember right rightMember sameName
  have leftRow := mem_matching_iff.mp leftMember
  have rightRow := mem_matching_iff.mp rightMember
  apply table.eq_of_key_eq leftRow.1 rightRow.1
  exact Key.ext (leftRow.2.2.1.trans rightRow.2.2.1.symm) sameName

theorem matching_nodup : (matching database table org condition).Nodup :=
  .of_map _ matching_names_nodup

theorem matching_length_le :
    (matching database table org condition).length ≤ table.rows.length :=
  List.length_filter_le _ _

end Matching

end Infractl.Store
