import Infractl.Api.Handler
import Infractl.Store.ListIsolation

/-!
# The HTTP list handler

The handler takes the options of a list from the query of the request.  Only
the limit is looked at on the way: the filter, the sort and the token reach
the store as they were sent.
-/

namespace Infractl.Api

open Infractl.Lib
open Infractl.Store

variable {Spec Status : Type}

/-- The parameters of a list request, each empty when it is absent. -/
structure ListQuery where
  filter : String := ""
  sort : String := ""
  continueToken : String := ""
  limit : String := ""

/-- `strconv.Atoi`: a decimal with an optional sign that fits in 64 bits. -/
def atoi (text : String) : Option Int64 :=
  let literal := text.toList
  let number :=
    if literal.head? = some '+' then
      (Json.readDigits literal.tail).map Int.ofNat
    else Json.readInteger literal
  number.bind (fun value =>
    if Int64.minValue.toInt ≤ value ∧ value ≤ Int64.maxValue.toInt then
      some (Int64.ofInt value)
    else none)

/--
`strconv.ParseUint`: the first digit that takes the number out of 64 bits ends
the reading at the largest number, and `none` is a text that is not a number.
-/
def parseUint (value : Nat) : List Char → Option Nat
  | [] => some value
  | digit :: rest =>
      if digit.isDigit then
        let next := 10 * value + (digit.toNat - '0'.toNat)
        if next < 2 ^ 64 then parseUint next rest else some (2 ^ 64 - 1)
      else none

/-- The value of digits after a sign, or the bound that is nearest to it. -/
def digitsValue (negative : Bool) (digits : List Char) : Int64 :=
  match digits, parseUint 0 digits with
  | _ :: _, some magnitude =>
      if negative then
        Int64.ofInt (max (-(magnitude : Int)) Int64.minValue.toInt)
      else Int64.ofInt (min (magnitude : Int) Int64.maxValue.toInt)
  | _, _ => 0

/--
The value that `strconv.Atoi` returns beside its error: zero for a text that is
not a number, and the nearest bound for a number out of range.
-/
def atoiValue (text : String) : Int64 :=
  let literal := text.toList
  if literal.head? = some '+' then digitsValue false literal.tail
  else if literal.head? = some '-' then digitsValue true literal.tail
  else digitsValue false literal

/-- The options of a request, or the message it is refused with. -/
def ListQuery.options (query : ListQuery) : Except String ListOptions :=
  let unlimited : ListOptions :=
    { filter := query.filter
      sort := query.sort
      continueToken := query.continueToken }
  if query.limit = "" then .ok unlimited
  else
    match atoi query.limit with
    | none => .error "invalid limit parameter"
    | some limit => .ok { unlimited with limit := limit }

/-- The answer to a list request. -/
inductive ListReply (Spec Status : Type) where
  | json (code : Nat) (listed : Listed Spec Status)
  | error (code : Nat) (message : String)

/-- `crudHandler.list`, where `quote` is the `%q` verb of its messages. -/
def CrudHandler.list (quote : List Char → String)
    (database : Database Spec Status) (table : Table Spec Status)
    (org : Option UUID) (query : ListQuery) : ListReply Spec Status :=
  match orgIDFromContext org with
  | .error reason => .error 500 reason
  | .ok orgID =>
      match query.options with
      | .error message => .error 400 message
      | .ok options =>
          match Store.list database table orgID options with
          | .error error => .error 500 (error.message quote)
          | .ok listed => .json 200 listed

theorem ListQuery.sort_options {query : ListQuery} {options : ListOptions}
    (taken : query.options = .ok options) :
    options.sort = query.sort := by
  simp only [ListQuery.options] at taken
  split at taken
  · cases taken
    rfl
  · split at taken
    · cases taken
    · cases taken
      rfl

/--
The reply to a list request of a tenant is the same from two tables that agree
on the tenant, if the database orders from the tenant's own rows.
-/
theorem CrudHandler.list_reply_eq (quote : List Char → String)
    {database : Database Spec Status} {org : UUID} {query : ListQuery}
    (own : OwnRowsOnly database org (orderBy query.sort))
    {left right : Table Spec Status} (agree : AgreeOn org left right) :
    list quote database left (some org) query =
      list quote database right (some org) query := by
  simp only [CrudHandler.list, orgIDFromContext]
  cases taken : query.options with
  | error message => rfl
  | ok options =>
      rw [← ListQuery.sort_options taken] at own
      simp only [list_eq_of_ownRowsOnly own agree]

end Infractl.Api
