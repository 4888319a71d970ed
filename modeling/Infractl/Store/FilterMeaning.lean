import Infractl.Lib.Sql
import Infractl.Store.FilterClause
import Infractl.Store.FilterText
import Infractl.Store.Listing

/-!
# What a filter means

A rendered filter is parsed to a clause and its arguments.  Read as SQL, with
the placeholders bound to the arguments from left to right, the clause is true
of a row exactly when all terms of some group are.

The clause is derived in the grammar of `Lib.Sql` along the loops that print
it: a term is a comparison, a group a conjunction, and the whole a disjunction
of groups that stand in parentheses when there are more than one.
-/

namespace Infractl.Store

open Infractl.Lib
open Infractl.Lib.Sql (Column Comparison Formula Primary Conjunction Disjunction)

/-! ## Terms -/

/-- The column of a field; a label or an annotation is read under its key. -/
def columnOf (field : List Char) : Column :=
  if "labels.".toList <+: field then
    ⟨"labels".toList, some (field.drop "labels.".length)⟩
  else if "annotations.".toList <+: field then
    ⟨"annotations".toList, some (field.drop "annotations.".length)⟩
  else ⟨field, none⟩

/-- The comparison of an operator, a double sign being the single one. -/
def comparisonOf : Operator → Comparison
  | .greaterEqual => .greaterEqual
  | .lessEqual => .lessEqual
  | .notEqual => .notEqual
  | .doubleEqual => .equal
  | .greater => .greater
  | .less => .less
  | .equal => .equal

@[simp]
theorem comparisonOf_operatorMap (operator : Operator) :
    comparisonOf (operatorMap operator) = comparisonOf operator := by
  cases operator <;> rfl

theorem text_comparisonOf {operator : Operator} (normal : operator ≠ .doubleEqual) :
    (comparisonOf operator).text = operator.text := by
  cases operator with
  | doubleEqual => exact absurd rfl normal
  | _ => rfl

/-- What a term asks of a row. -/
def Term.formula (term : Term) : Formula (List Char) :=
  .compare (columnOf term.field) (comparisonOf term.operator) term.value

/-- A term is true of a row that decides its comparison so. -/
def Term.TrueOf (decides : Column → Comparison → List Char → Sql.Truth)
    (term : Term) : Prop :=
  decides (columnOf term.field) (comparisonOf term.operator) term.value = some true

theorem isWordCharacter_of_isFieldCharacter {character : Char}
    (allowed : isFieldCharacter character = true) :
    Sql.isWordCharacter character = true := by
  have name := (Clause.isFieldCharacter_iff character).mp allowed
  simpa [Sql.isWordCharacter, Clause.NameCharacter, or_assoc] using name

theorem Term.primary {term : Term} (normal : Clause.Normal term) :
    Primary term.clause [term.value] term.formula := by
  have comparison := text_comparisonOf normal
  have words : ∀ character ∈ term.field, Sql.isWordCharacter character = true :=
    fun character member =>
      isWordCharacter_of_isFieldCharacter (term.field_characters character member)
  have unquoted (count : Nat) : '\'' ∉ term.field.drop count := by
    intro member
    have quote := term.field_characters _ (List.mem_of_mem_drop member)
    exact absurd quote (by decide)
  have printed :
      term.clause =
        fieldToSQL term.field ++
          (" ".toList ++ (comparisonOf term.operator).text ++ " ?".toList) := by
    rw [comparison]
    simp [Term.clause]
  rw [printed, Term.formula, fieldToSQL, columnOf]
  simp only [List.isPrefixOf_iff_prefix]
  split
  · exact Sql.primary_member "labels".toList (by decide)
      (List.all_eq_true.mp rfl) (unquoted _) _ _
  · split
    · exact Sql.primary_member "annotations".toList (by decide)
        (List.all_eq_true.mp rfl) (unquoted _) _ _
    · exact Sql.primary_column _ term.field_ne_nil words _ _

/-! ## Groups and clauses -/

theorem intercalate_cons (separator first : List Char) (rest : List (List Char)) :
    separator.intercalate (first :: rest) =
      first ++ rest.flatMap (fun text => separator ++ text) := by
  induction rest generalizing first with
  | nil => simp
  | cons next others ih =>
      rw [List.intercalate_cons_cons, ih, List.flatMap_cons]
      simp

/-- What a group of terms asks of a row. -/
def groupFormula (first : Term) (rest : List Term) : Formula (List Char) :=
  first.formula.allOf (rest.map Term.formula)

theorem conjunction_group {first : Term} {rest : List Term}
    (normal : ∀ term ∈ first :: rest, Clause.Normal term) :
    Conjunction (groupClause (first :: rest)) ((first :: rest).map Term.value)
      (groupFormula first rest) := by
  simp only [List.forall_mem_cons] at normal
  have chained :=
    Conjunction.chain (fun term member => Term.primary (normal.2 term member))
      (Term.primary normal.1).conjunction
  rw [groupClause, List.map_cons, intercalate_cons, List.flatMap_map, List.map_cons]
  rw [← List.map_eq_flatMap] at chained
  exact chained

theorem eval_groupFormula_iff
    {decides : Column → Comparison → List Char → Sql.Truth} (first : Term)
    (rest : List Term) :
    (groupFormula first rest).eval decides = some true ↔
      ∀ term ∈ first :: rest, term.TrueOf decides := by
  rw [groupFormula, Formula.eval_allOf_iff, ← List.map_cons]
  simp only [List.forall_mem_map]
  rfl

/-- A formula that is true of the rows of which all terms of some group are. -/
def Means (formula : Formula (List Char)) (condition : Condition) : Prop :=
  ∀ decides, formula.eval decides = some true ↔
    ∃ group ∈ condition, ∀ term ∈ group, term.TrueOf decides

/-- A group as it stands in a clause with others. -/
def parenthesized (group : List Term) : List Char :=
  "(".toList ++ groupClause group ++ ")".toList

/-- The groups that follow others in a clause. -/
theorem disjunction_groups {text : List Char} {values : List (List Char)}
    {formula : Formula (List Char)} {before : Condition}
    (start : Disjunction text values formula) (means : Means formula before)
    {groups : Condition} (tidy : Clause.Tidy groups) :
    ∃ whole,
      Disjunction
          (text ++ groups.flatMap (fun group => " OR ".toList ++ parenthesized group))
          (values ++ groups.flatten.map Term.value) whole ∧
        Means whole (before ++ groups) := by
  induction groups generalizing text values formula before with
  | nil =>
      refine ⟨formula, ?_, ?_⟩
      · simpa using start
      · simpa using means
  | cons group others ih =>
      simp only [Clause.Tidy, List.forall_mem_cons] at tidy
      rcases group with _ | ⟨first, rest⟩
      · exact absurd rfl tidy.1.1
      · have inner := conjunction_group tidy.1.2
        have joined := start.or inner.disjunction.parenthesized.conjunction
        have extended :
            Means (formula.disj (groupFormula first rest))
              (before ++ [first :: rest]) := by
          intro decides
          rw [Formula.eval_disj_iff, means decides, eval_groupFormula_iff]
          simp [or_and_right, exists_or]
        rcases ih joined extended tidy.2 with ⟨whole, derived, meansWhole⟩
        refine ⟨whole, ?_, ?_⟩
        · simpa only [List.flatMap_cons, List.flatten_cons, List.map_append,
            List.append_assoc, parenthesized] using derived
        · simpa only [List.append_assoc, List.singleton_append] using meansWhole

/-- The clause of a parsed filter, read as SQL, means what the filter means. -/
theorem parse_clause {condition : Condition} (nonempty : condition ≠ [])
    (tidy : Clause.Tidy condition) :
    ∃ formula,
      Sql.parse condition.clause condition.arguments = some formula ∧
        Means formula condition := by
  match condition with
  | [] => exact absurd rfl nonempty
  | [] :: _ => exact absurd rfl (tidy [] (by simp)).1
  | [first :: rest] =>
      have only := conjunction_group (tidy (first :: rest) (by simp)).2
      refine ⟨groupFormula first rest, ?_, ?_⟩
      · simpa [Condition.clause, Condition.arguments] using only.disjunction.parse
      · intro decides
        simp [eval_groupFormula_iff]
  | (first :: rest) :: second :: others =>
      have inner := conjunction_group (tidy (first :: rest) (by simp)).2
      have means : Means (groupFormula first rest) [first :: rest] := by
        intro decides
        simp [eval_groupFormula_iff]
      have tidyOthers : Clause.Tidy (second :: others) :=
        fun group member => tidy group (List.mem_cons_of_mem _ member)
      rcases disjunction_groups
          inner.disjunction.parenthesized.conjunction.disjunction means tidyOthers with
        ⟨whole, derived, meansWhole⟩
      refine ⟨whole, ?_, meansWhole⟩
      have parsed := derived.parse
      have clause :
          Condition.clause ((first :: rest) :: second :: others) =
            parenthesized (first :: rest) ++
              (second :: others).flatMap
                (fun group => " OR ".toList ++ parenthesized group) := by
        rw [← List.flatMap_map, ← intercalate_cons, ← List.map_cons]
        rfl
      have arguments :
          Condition.arguments ((first :: rest) :: second :: others) =
            (first :: rest).map Term.value ++
              (second :: others).flatten.map Term.value := by
        rw [Condition.arguments, List.flatten_cons, List.map_append]
      rw [clause, arguments]
      exact parsed

/--
The rows that a list selects under an accepted filter are those of which the
clause is true, for a database that decides the terms as the rows do.
-/
theorem selects_iff_clause {Spec Status : Type} (database : Database Spec Status)
    (decides : Object Spec Status → Column → Comparison → List Char → Sql.Truth)
    (agrees : ∀ term row,
      database.holds term row = true ↔ term.TrueOf (decides row))
    {expr : String} {condition : Condition}
    (parsed : parseFilter expr = .ok condition) (nonempty : condition ≠ []) :
    ∃ formula,
      Sql.parse condition.clause condition.arguments = some formula ∧
        ∀ row, database.selects condition row = true ↔
          formula.eval (decides row) = some true := by
  rcases parse_clause nonempty (Clause.tidy_of_parseFilter parsed) with
    ⟨formula, read, means⟩
  refine ⟨formula, read, fun row => ?_⟩
  rw [means (decides row), Database.selects]
  simp [nonempty, agrees]

/-! ## Rendered filters -/

theorem PlainTerm.read_trueOf_iff
    {decides : Column → Comparison → List Char → Sql.Truth} (term : PlainTerm) :
    term.read.TrueOf decides ↔ term.toTerm.TrueOf decides := by
  unfold Term.TrueOf
  rw [show term.read.operator = operatorMap term.operator from rfl,
    comparisonOf_operatorMap]
  rfl

/--
A filter rendered from groups of terms, with any mix of separators, is
accepted.  Its clause, with the placeholders bound to its arguments, is true of
a row exactly when all terms of some group are.
-/
theorem rendered_filter_keeps_meaning (expression : FilterExpression) :
    (Clause.parseFilter
        (String.ofList (FilterExpression.text expression))).err = none ∧
      ∃ formula,
        Sql.parse
            (Clause.parseFilter
              (String.ofList (FilterExpression.text expression))).clause
            (Clause.parseFilter
              (String.ofList (FilterExpression.text expression))).args =
          some formula ∧
        ∀ decides : Column → Comparison → List Char → Sql.Truth,
          formula.eval decides = some true ↔
            ∃ group ∈ expression.items, ∀ term ∈ group.items,
              term.toTerm.TrueOf decides := by
  have parsed := parseFilter_text expression
  rw [Clause.parseFilter_eq, parsed]
  refine ⟨rfl, ?_⟩
  have nonempty : FilterExpression.condition expression ≠ [] := by
    simp [FilterExpression.condition, Joined.items]
  rcases parse_clause nonempty (Clause.tidy_of_parseFilter parsed) with
    ⟨formula, read, means⟩
  refine ⟨formula, read, fun decides => ?_⟩
  rw [means decides]
  simp only [FilterExpression.condition, List.mem_map, exists_exists_and_eq_and,
    forall_exists_index, and_imp, forall_apply_eq_imp_iff₂,
    PlainTerm.read_trueOf_iff]

end Infractl.Store
