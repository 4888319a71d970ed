import Mathlib.Data.List.Basic

/-!
# Filter expressions

A filter is a disjunction of conjunctions of terms `field op value`, written in
a plain text that is cut at its separators without any quoting.  Parsing
answers with the groups of terms, from which the clause handed to the mapper
and the arguments bound to its placeholders are printed.

A term cannot be built with a field name outside the allowed characters.  The
only texts of a filter that reach the clause are these names: the values are
arguments.

Texts are lists of characters; positions in them are only compared with each
other and used to cut.
-/

namespace Infractl.Store

/-! ## Texts -/

/-- Unicode white space. -/
def isSpace (character : Char) : Bool :=
  let code := character.toNat
  (0x09 ≤ code && code ≤ 0x0D) || code = 0x20 || code = 0x85 || code = 0xA0 ||
    code = 0x1680 || (0x2000 ≤ code && code ≤ 0x200A) || code = 0x2028 ||
    code = 0x2029 || code = 0x202F || code = 0x205F || code = 0x3000

/-- `strings.TrimSpace`. -/
def trimSpace (text : List Char) : List Char :=
  ((text.dropWhile isSpace).reverse.dropWhile isSpace).reverse

/-- `strings.Index`: where the first occurrence of a keyword starts. -/
def index (keyword : List Char) : List Char → Option Nat
  | [] => if keyword.isEmpty then some 0 else none
  | first :: rest =>
      if keyword.isPrefixOf (first :: rest) then some 0
      else (index keyword rest).map (fun position => position + 1)

/-- Cut at a keyword; `skip` characters of an occurrence are still to pass. -/
def splitFromSkip (keyword : List Char) : Nat → List Char → List (List Char)
  | _, [] => [[]]
  | skip + 1, _ :: rest => splitFromSkip keyword skip rest
  | 0, first :: rest =>
      if keyword.isPrefixOf (first :: rest) then
        [] :: splitFromSkip keyword (keyword.length - 1) rest
      else
        (splitFromSkip keyword 0 rest).modifyHead (fun part => first :: part)

/-- `strings.Split` at a keyword that is not empty. -/
def splitKeyword (text keyword : List Char) : List (List Char) :=
  splitFromSkip keyword 0 text

/-- `strings.ReplaceAll`. -/
def replaceKeyword (text keyword replacement : List Char) : List Char :=
  replacement.intercalate (splitKeyword text keyword)

/-- Cut at `OR` and at the double bar. -/
def splitOR (text : List Char) : List (List Char) :=
  splitKeyword (replaceKeyword text " || ".toList " OR ".toList) " OR ".toList

/-- Cut at commas, at `AND` and at the double ampersand. -/
def splitAND (text : List Char) : List (List Char) :=
  let commas := replaceKeyword text " AND ".toList ",".toList
  splitKeyword (replaceKeyword commas " && ".toList ",".toList) ",".toList

/-! ## Terms -/

/-- The operators. -/
inductive Operator where
  | greaterEqual
  | lessEqual
  | notEqual
  | doubleEqual
  | greater
  | less
  | equal
deriving DecidableEq

/-- The text of an operator. -/
def Operator.text : Operator → List Char
  | .greaterEqual => ">=".toList
  | .lessEqual => "<=".toList
  | .notEqual => "!=".toList
  | .doubleEqual => "==".toList
  | .greater => ">".toList
  | .less => "<".toList
  | .equal => "=".toList

/-- The operators in the order they are tried, the longest first. -/
def operators : List Operator :=
  [.greaterEqual, .lessEqual, .notEqual, .doubleEqual, .greater, .less, .equal]

/-- The SQL operator of a filter operator. -/
def operatorMap : Operator → Operator
  | .doubleEqual => .equal
  | operator => operator

/-- Why a term is refused, with the texts its message quotes. -/
inductive FilterError where
  | missingOperator (term : List Char)
  | emptyFieldName (term : List Char)
  | invalidFieldName (term field : List Char)
deriving DecidableEq

/-- The message of a filter error, where `quote` is the `%q` verb. -/
def FilterError.message (quote : List Char → String) : FilterError → String
  | .missingOperator term =>
      "filter term " ++ quote term ++
        ": missing operator (expected one of =, !=, >, <, >=, <=)"
  | .emptyFieldName term => "filter term " ++ quote term ++ ": empty field name"
  | .invalidFieldName term field =>
      "filter term " ++ quote term ++ ": invalid field name " ++ quote field

/-- A letter, a digit, an underscore or a dot. -/
def isFieldCharacter (character : Char) : Bool :=
  ('a' ≤ character && character ≤ 'z') || ('A' ≤ character && character ≤ 'Z') ||
    ('0' ≤ character && character ≤ '9') || character = '_' || character = '.'

/-- At most 64 characters, and at least one, all of them allowed. -/
def isValidFieldName (name : List Char) : Bool :=
  name.length ≠ 0 && name.length ≤ 64 && name.all isFieldCharacter

/-- A comparison of a field with a value, whose field has a valid name. -/
structure Term where
  field : List Char
  valid : isValidFieldName field = true
  operator : Operator
  value : List Char
deriving DecidableEq

/-- The better of two operator positions: the earlier, then the longer. -/
def betterOperator (text : List Char) (best : Option (Nat × Operator))
    (candidate : Operator) : Option (Nat × Operator) :=
  match index candidate.text text, best with
  | none, _ => best
  | some position, none => some (position, candidate)
  | some position, some (bestPosition, bestOperator) =>
      if position < bestPosition ∨
          (position = bestPosition ∧
            bestOperator.text.length < candidate.text.length) then
        some (position, candidate)
      else best

/-- `extractFieldOpValue`. -/
def extractFieldOpValue (term : List Char) :
    Except FilterError (List Char × Operator × List Char) :=
  match operators.foldl (betterOperator term) none with
  | none => .error (.missingOperator term)
  | some (position, operator) =>
      .ok (trimSpace (term.take position), operator,
        trimSpace (term.drop (position + operator.text.length)))

/-- `parseTerm`. -/
def parseTerm (term : List Char) : Except FilterError Term :=
  match extractFieldOpValue term with
  | .error error => .error error
  | .ok (field, operator, value) =>
      if field = [] then .error (.emptyFieldName term)
      else if valid : isValidFieldName field = true then
        .ok ⟨field, valid, operatorMap operator, value⟩
      else .error (.invalidFieldName term field)

/-! ## Expressions -/

/-- The groups of a parsed filter; without any, every row matches. -/
abbrev Condition := List (List Term)

/-- The terms of one group; empty ones are skipped. -/
def parseGroup (group : List Char) : Except FilterError (List Term) :=
  ((splitAND (trimSpace group)).map trimSpace |>.filter (fun term =>
    !term.isEmpty)).mapM parseTerm

/-- The groups of an expression; those without a term are dropped. -/
def parseFilter (text : String) : Except FilterError Condition :=
  if text = "" then .ok []
  else
    ((splitOR text.toList).mapM parseGroup).map (fun groups =>
      groups.filter (fun group => !group.isEmpty))

/-! ## The clause -/

/-- The column of a field, or the accessor of a key in a JSONB column. -/
def fieldToSQL (field : List Char) : List Char :=
  if "labels.".toList.isPrefixOf field then
    "labels->>'".toList ++ field.drop "labels.".length ++ "'".toList
  else if "annotations.".toList.isPrefixOf field then
    "annotations->>'".toList ++ field.drop "annotations.".length ++ "'".toList
  else field

def Term.clause (term : Term) : List Char :=
  fieldToSQL term.field ++ [' '] ++ term.operator.text ++ " ?".toList

/-- The clause of a group. -/
def groupClause (group : List Term) : List Char :=
  " AND ".toList.intercalate (group.map Term.clause)

/-- The text handed to the mapper. -/
def Condition.clause : Condition → List Char
  | [] => []
  | [group] => groupClause group
  | groups =>
      " OR ".toList.intercalate (groups.map (fun group =>
        "(".toList ++ groupClause group ++ ")".toList))

/-- The values bound to the placeholders of the clause, in their order. -/
def Condition.arguments (condition : Condition) : List (List Char) :=
  condition.flatten.map Term.value

end Infractl.Store
