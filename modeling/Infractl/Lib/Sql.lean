import Mathlib.Data.List.Basic
import Infractl.Lib.Run

/-!
# Conditions of SQL

The part of SQL that a `WHERE` clause made of comparisons needs: a condition
compares columns, or text members of JSON columns, with placeholders, and
joins the comparisons with `AND`, `OR` and parentheses.  `AND` binds tighter
than `OR`, and placeholders are bound to values from left to right.

A text is cut into tokens by one machine and read into a formula by another,
both run character by character or token by token.  `Primary`, `Conjunction`
and `Disjunction` are the levels of the grammar, with one rule per way to put
a text together; whatever is derived with these rules is what `parse` reads.

Conditions have three truth values.  How a comparison turns out is left to the
row, so that a column it does not have, or a word that cannot name a column,
is in its hands too.
-/

namespace Infractl.Lib.Sql

open Infractl.Lib.Run

/-! ## Truth values -/

/-- True, false, or unknown. -/
abbrev Truth := Option Bool

namespace Truth

/-- Conjunction in three values. -/
def and : Truth → Truth → Truth
  | some false, _ => some false
  | _, some false => some false
  | some true, some true => some true
  | _, _ => none

/-- Disjunction in three values. -/
def or : Truth → Truth → Truth
  | some true, _ => some true
  | _, some true => some true
  | some false, some false => some false
  | _, _ => none

@[simp]
theorem and_eq_true_iff (left right : Truth) :
    left.and right = some true ↔ left = some true ∧ right = some true := by
  rcases left with _ | _ | _ <;> rcases right with _ | _ | _ <;> decide

@[simp]
theorem or_eq_true_iff (left right : Truth) :
    left.or right = some true ↔ left = some true ∨ right = some true := by
  rcases left with _ | _ | _ <;> rcases right with _ | _ | _ <;> decide

end Truth

/-! ## Formulas -/

inductive Comparison where
  | equal
  | notEqual
  | less
  | greater
  | lessEqual
  | greaterEqual
deriving DecidableEq

def Comparison.text : Comparison → List Char
  | .equal => "=".toList
  | .notEqual => "!=".toList
  | .less => "<".toList
  | .greater => ">".toList
  | .lessEqual => "<=".toList
  | .greaterEqual => ">=".toList

/-- The comparison an operator stands for; inequality has two spellings. -/
def Comparison.ofText (text : List Char) : Option Comparison :=
  if text = "=".toList then some .equal
  else if text = "!=".toList ∨ text = "<>".toList then some .notEqual
  else if text = "<".toList then some .less
  else if text = ">".toList then some .greater
  else if text = "<=".toList then some .lessEqual
  else if text = ">=".toList then some .greaterEqual
  else none

/-- A column, or the text under a key of a JSON column. -/
structure Column where
  name : List Char
  key : Option (List Char)
deriving DecidableEq

/-- A condition on a row. -/
inductive Formula (Value : Type) where
  | compare (column : Column) (comparison : Comparison) (value : Value)
  | conj (left right : Formula Value)
  | disj (left right : Formula Value)

section Formulas

variable {Value : Type}

/-- The truth of a formula of a row that decides the comparisons. -/
def Formula.eval (decides : Column → Comparison → Value → Truth) :
    Formula Value → Truth
  | .compare column comparison value => decides column comparison value
  | .conj left right => (left.eval decides).and (right.eval decides)
  | .disj left right => (left.eval decides).or (right.eval decides)

variable {decides : Column → Comparison → Value → Truth}

/-- Formulas joined from the left. -/
def Formula.allOf (first : Formula Value) (others : List (Formula Value)) :
    Formula Value :=
  others.foldl .conj first

@[simp]
theorem Formula.allOf_cons (first next : Formula Value)
    (rest : List (Formula Value)) :
    first.allOf (next :: rest) = (first.conj next).allOf rest :=
  rfl

@[simp]
theorem Formula.eval_disj_iff (left right : Formula Value) :
    (left.disj right).eval decides = some true ↔
      left.eval decides = some true ∨ right.eval decides = some true :=
  Truth.or_eq_true_iff _ _

@[simp]
theorem Formula.eval_allOf_iff (first : Formula Value)
    (others : List (Formula Value)) :
    (first.allOf others).eval decides = some true ↔
      ∀ formula ∈ first :: others, formula.eval decides = some true := by
  induction others generalizing first with
  | nil => simp [allOf]
  | cons next rest ih =>
      rw [allOf_cons, ih]
      simp [eval, and_assoc]

end Formulas

/-! ## Tokens -/

/-- The words of a condition. -/
inductive Token where
  | word (text : List Char)
  | literal (text : List Char)
  | symbol (text : List Char)
  | leftParen
  | rightParen
  | placeholder
deriving DecidableEq

def isWordCharacter (character : Char) : Bool :=
  character.isAlphanum || character = '_' || character = '.'

/-- The characters that operators are made of. -/
def isSymbolCharacter (character : Char) : Bool :=
  character = '=' || character = '!' || character = '<' || character = '>' ||
    character = '-'

/-- Where the scanner stands: between tokens, or in one it has begun. -/
inductive Scan where
  | between
  | word (read : List Char)
  | symbol (read : List Char)
  | literal (read : List Char)
  | quote (read : List Char)
deriving DecidableEq

/-- The scanner within a token, for a character that belongs to it. -/
def Scan.continues : Scan → Char → Option Scan
  | .between, _ => none
  | .word read, character =>
      if isWordCharacter character then some (.word (read ++ [character])) else none
  | .symbol read, character =>
      if isSymbolCharacter character then some (.symbol (read ++ [character]))
      else none
  | .literal read, character =>
      if character = '\'' then some (.quote read)
      else some (.literal (read ++ [character]))
  -- a doubled quote stands for one quote of the literal
  | .quote read, character =>
      if character = '\'' then some (.literal (read ++ [character])) else none

/-- The token that ends where the scanner stands; a literal has to be closed. -/
def Scan.ended : Scan → Option (List Token)
  | .between => some []
  | .word read => some [.word read]
  | .symbol read => some [.symbol read]
  | .literal _ => none
  | .quote read => some [.literal read]

/-- What a character that belongs to no earlier token begins. -/
def begins (character : Char) : Option (List Token × Scan) :=
  if character = ' ' then some ([], .between)
  else if character = '(' then some ([.leftParen], .between)
  else if character = ')' then some ([.rightParen], .between)
  else if character = '?' then some ([.placeholder], .between)
  else if character = '\'' then some ([], .literal [])
  else if isWordCharacter character then some ([], .word [character])
  else if isSymbolCharacter character then some ([], .symbol [character])
  else none

/-- Scan one character. -/
def scan (state : List Token × Scan) (character : Char) :
    Option (List Token × Scan) :=
  match state.2.continues character with
  | some next => some (state.1, next)
  | none =>
      match state.2.ended, begins character with
      | some closed, some (opened, next) => some (state.1 ++ closed ++ opened, next)
      | _, _ => none

/-- Split a text into words. -/
def tokenize (text : List Char) : Option (List Token) :=
  (run scan ([], .between) text).bind fun state =>
    state.2.ended.map (fun closed => state.1 ++ closed)

/-- A text that is cut into the tokens wherever it stands between others. -/
def Lexes (text : List Char) (tokens : List Token) : Prop :=
  ∀ before, run scan (before, .between) text = some (before ++ tokens, .between)

theorem Lexes.append {first second : List Char} {firstTokens secondTokens : List Token}
    (lexesFirst : Lexes first firstTokens) (lexesSecond : Lexes second secondTokens) :
    Lexes (first ++ second) (firstTokens ++ secondTokens) := by
  intro before
  rw [run_append, lexesFirst before, Option.bind_some, lexesSecond,
    List.append_assoc]

theorem Lexes.tokenize {text : List Char} {tokens : List Token}
    (lexes : Lexes text tokens) : tokenize text = some tokens := by
  rw [Sql.tokenize, lexes []]
  simp [Scan.ended]

theorem run_word {word : List Char}
    (characters : ∀ character ∈ word, isWordCharacter character = true)
    (before : List Token) (read : List Char) :
    run scan (before, .word read) word = some (before, .word (read ++ word)) := by
  induction word generalizing read with
  | nil => simp
  | cons character rest ih =>
      simp only [List.forall_mem_cons] at characters
      simp [run, scan, Scan.continues, characters.1, ih characters.2]

theorem run_literal {text : List Char} (unquoted : '\'' ∉ text)
    (before : List Token) (read : List Char) :
    run scan (before, .literal read) text =
      some (before, .literal (read ++ text)) := by
  induction text generalizing read with
  | nil => simp
  | cons character rest ih =>
      simp only [List.mem_cons, not_or] at unquoted
      simp [run, scan, Scan.continues, Ne.symm unquoted.1, ih unquoted.2]

theorem ne_of_isWordCharacter {character other : Char}
    (isWord : isWordCharacter character = true)
    (notWord : isWordCharacter other = false) : character ≠ other := by
  rintro rfl
  cases isWord.symm.trans notWord

/-- The first character of a word begins a word. -/
theorem begins_word {character : Char} (isWord : isWordCharacter character = true) :
    begins character = some ([], .word [character]) := by
  have other {excluded : Char} (notWord : isWordCharacter excluded = false) :
      character ≠ excluded :=
    ne_of_isWordCharacter isWord notWord
  rw [begins, if_neg (other (by decide)), if_neg (other (by decide)),
    if_neg (other (by decide)), if_neg (other (by decide)),
    if_neg (other (by decide)), if_pos isWord]

/-- A word, up to the character after it. -/
theorem run_between_word {word : List Char} (nonempty : word ≠ [])
    (characters : ∀ character ∈ word, isWordCharacter character = true)
    (before : List Token) :
    run scan (before, .between) word = some (before, .word word) := by
  cases word with
  | nil => exact absurd rfl nonempty
  | cons character rest =>
      simp only [List.forall_mem_cons] at characters
      have opened :
          scan (before, .between) character = some (before, .word [character]) := by
        simp [scan, Scan.continues, Scan.ended, begins_word characters.1]
      rw [run, opened, Option.bind_some, run_word characters.2]
      rfl

/-! ## Parsing -/

/-- The operands read so far at one level of parentheses. -/
structure Frame (Value : Type) where
  disjunction : Option (Formula Value) := none
  conjunction : Option (Formula Value) := none

/-- What the parser expects next. -/
inductive Phase (Value : Type) where
  | operand
  | column (name : List Char)
  | member (name : List Char)
  | comparison (column : Column)
  | value (column : Column) (comparison : Comparison)
  | complete (formula : Formula Value)

/-- The values not yet bound, the enclosing levels, and the current one. -/
structure Parser (Value : Type) where
  values : List Value
  outer : List (Frame Value)
  frame : Frame Value
  phase : Phase Value

section Parsing

variable {Value : Type}

def joinConj (before : Option (Formula Value)) (formula : Formula Value) :
    Formula Value :=
  match before with
  | none => formula
  | some conjunction => .conj conjunction formula

def joinDisj (before : Option (Formula Value)) (formula : Formula Value) :
    Formula Value :=
  match before with
  | none => formula
  | some disjunction => .disj disjunction formula

/-- The formula of a level whose last operand has been read. -/
def Frame.close (frame : Frame Value) (formula : Formula Value) : Formula Value :=
  joinDisj frame.disjunction (joinConj frame.conjunction formula)

/-- Read an operator after a column. -/
def Parser.compare (parser : Parser Value) (column : Column) (text : List Char) :
    Option (Parser Value) :=
  (Comparison.ofText text).map fun comparison =>
    { parser with phase := .value column comparison }

/-- Read one token. -/
def Parser.step (parser : Parser Value) (token : Token) : Option (Parser Value) :=
  match parser.phase, token with
  | .operand, .leftParen =>
      some { parser with outer := parser.frame :: parser.outer, frame := {} }
  | .operand, .word name => some { parser with phase := .column name }
  | .column name, .symbol text =>
      if text = "->>".toList then some { parser with phase := .member name }
      else parser.compare ⟨name, none⟩ text
  | .member name, .literal key =>
      some { parser with phase := .comparison ⟨name, some key⟩ }
  | .comparison column, .symbol text => parser.compare column text
  | .value column comparison, .placeholder =>
      match parser.values with
      | [] => none
      | value :: values =>
          some
            { parser with
              values := values
              phase := .complete (.compare column comparison value) }
  | .complete formula, .word text =>
      if text = "AND".toList then
        some
          { parser with
            frame :=
              { parser.frame with
                conjunction := some (joinConj parser.frame.conjunction formula) }
            phase := .operand }
      else if text = "OR".toList then
        some
          { parser with
            frame := { disjunction := some (parser.frame.close formula) }
            phase := .operand }
      else none
  | .complete formula, .rightParen =>
      match parser.outer with
      | [] => none
      | frame :: outer =>
          some
            { parser with
              outer := outer
              frame := frame
              phase := .complete (parser.frame.close formula) }
  | _, _ => none

/-- The formula of a parser that has read everything and bound every value. -/
def Parser.result (parser : Parser Value) : Option (Formula Value) :=
  match parser.values, parser.outer, parser.phase with
  | [], [], .complete formula => some (parser.frame.close formula)
  | _, _, _ => none

/-- The formula of a text, with its placeholders bound from left to right. -/
def parse (text : List Char) (values : List Value) : Option (Formula Value) :=
  (tokenize text).bind fun tokens =>
    (run Parser.step ⟨values, [], {}, .operand⟩ tokens).bind Parser.result

/-! ## The levels of the grammar -/

/-- A comparison or a condition in parentheses. -/
def Primary (text : List Char) (values : List Value) (formula : Formula Value) :
    Prop :=
  ∃ tokens, Lexes text tokens ∧
    ∀ more outer frame,
      run Parser.step ⟨values ++ more, outer, frame, .operand⟩ tokens =
        some ⟨more, outer, frame, .complete formula⟩

/-- Operands joined by `AND`. -/
def Conjunction (text : List Char) (values : List Value)
    (formula : Formula Value) : Prop :=
  ∃ tokens, Lexes text tokens ∧
    ∀ more outer disjunction, ∃ conjunction last,
      run Parser.step ⟨values ++ more, outer, ⟨disjunction, none⟩, .operand⟩ tokens =
          some ⟨more, outer, ⟨disjunction, conjunction⟩, .complete last⟩ ∧
        joinConj conjunction last = formula

/-- Conjunctions joined by `OR`. -/
def Disjunction (text : List Char) (values : List Value)
    (formula : Formula Value) : Prop :=
  ∃ tokens, Lexes text tokens ∧
    ∀ more outer, ∃ frame last,
      run Parser.step ⟨values ++ more, outer, {}, .operand⟩ tokens =
          some ⟨more, outer, frame, .complete last⟩ ∧
        frame.close last = formula

section Rules

variable {text first second : List Char}
variable {values firstValues secondValues : List Value}
variable {formula firstFormula secondFormula : Formula Value}

theorem Primary.conjunction (primary : Primary text values formula) :
    Conjunction text values formula := by
  rcases primary with ⟨tokens, lexes, reads⟩
  exact ⟨tokens, lexes, fun more outer disjunction =>
    ⟨none, formula, reads more outer _, rfl⟩⟩

theorem Conjunction.disjunction (conjunction : Conjunction text values formula) :
    Disjunction text values formula := by
  rcases conjunction with ⟨tokens, lexes, reads⟩
  refine ⟨tokens, lexes, fun more outer => ?_⟩
  rcases reads more outer none with ⟨before, last, done, joined⟩
  exact ⟨⟨none, before⟩, last, done, joined⟩

theorem lexes_and : Lexes " AND ".toList [.word "AND".toList] := by
  intro before
  simp [run, scan, Scan.continues, Scan.ended, begins, isWordCharacter]

theorem lexes_or : Lexes " OR ".toList [.word "OR".toList] := by
  intro before
  simp [run, scan, Scan.continues, Scan.ended, begins, isWordCharacter]

theorem Conjunction.and
    (left : Conjunction first firstValues firstFormula)
    (right : Primary second secondValues secondFormula) :
    Conjunction (first ++ (" AND ".toList ++ second)) (firstValues ++ secondValues)
      (.conj firstFormula secondFormula) := by
  rcases left with ⟨leftTokens, leftLexes, leftReads⟩
  rcases right with ⟨rightTokens, rightLexes, rightReads⟩
  refine ⟨_, leftLexes.append (lexes_and.append rightLexes), ?_⟩
  intro more outer disjunction
  rcases leftReads (secondValues ++ more) outer disjunction with
    ⟨before, last, done, joined⟩
  refine ⟨some firstFormula, secondFormula, ?_, rfl⟩
  rw [List.append_assoc, run_append, done, Option.bind_some, run_append]
  have keyword :
      run Parser.step
          ⟨secondValues ++ more, outer, ⟨disjunction, before⟩, .complete last⟩
          [.word "AND".toList] =
        some ⟨secondValues ++ more, outer, ⟨disjunction, some firstFormula⟩,
          .operand⟩ := by
    rw [← joined]
    rfl
  rw [keyword, Option.bind_some]
  exact rightReads more outer _

theorem Disjunction.or
    (left : Disjunction first firstValues firstFormula)
    (right : Conjunction second secondValues secondFormula) :
    Disjunction (first ++ (" OR ".toList ++ second)) (firstValues ++ secondValues)
      (.disj firstFormula secondFormula) := by
  rcases left with ⟨leftTokens, leftLexes, leftReads⟩
  rcases right with ⟨rightTokens, rightLexes, rightReads⟩
  refine ⟨_, leftLexes.append (lexes_or.append rightLexes), ?_⟩
  intro more outer
  rcases leftReads (secondValues ++ more) outer with ⟨frame, last, done, closed⟩
  rcases rightReads more outer (some firstFormula) with
    ⟨conjunction, lastRight, doneRight, joined⟩
  refine ⟨⟨some firstFormula, conjunction⟩, lastRight, ?_, ?_⟩
  · rw [List.append_assoc, run_append, done, Option.bind_some, run_append]
    have keyword :
        run Parser.step ⟨secondValues ++ more, outer, frame, .complete last⟩
            [.word "OR".toList] =
          some ⟨secondValues ++ more, outer, ⟨some firstFormula, none⟩,
            .operand⟩ := by
      rw [← closed]
      rfl
    rw [keyword, Option.bind_some, doneRight]
  · rw [Frame.close, joined]
    rfl

theorem Disjunction.parenthesized (inner : Disjunction text values formula) :
    Primary ("(".toList ++ text ++ ")".toList) values formula := by
  rcases inner with ⟨tokens, lexes, reads⟩
  have leftParen : Lexes "(".toList [.leftParen] := by
    intro before
    simp [run, scan, Scan.continues, Scan.ended, begins]
  have rightParen : Lexes ")".toList [.rightParen] := by
    intro before
    simp [run, scan, Scan.continues, Scan.ended, begins]
  refine ⟨_, (leftParen.append lexes).append rightParen, ?_⟩
  intro more outer frame
  rcases reads more (frame :: outer) with ⟨innerFrame, last, done, closed⟩
  rw [run_append, run_append]
  have opened :
      run Parser.step ⟨values ++ more, outer, frame, .operand⟩ [.leftParen] =
        some ⟨values ++ more, frame :: outer, {}, .operand⟩ := rfl
  rw [opened, Option.bind_some, done, Option.bind_some, ← closed]
  rfl

section Chain

variable {Item : Type} {itemText : Item → List Char}
variable {itemValues : Item → List Value} {itemFormula : Item → Formula Value}

theorem Conjunction.chain {items : List Item}
    (each : ∀ item ∈ items,
      Primary (itemText item) (itemValues item) (itemFormula item))
    (start : Conjunction text values formula) :
    Conjunction (text ++ items.flatMap (fun item => " AND ".toList ++ itemText item))
      (values ++ items.flatMap itemValues)
      (formula.allOf (items.map itemFormula)) := by
  induction items generalizing text values formula with
  | nil => simpa [Formula.allOf] using start
  | cons item rest ih =>
      simp only [List.forall_mem_cons] at each
      have chained := ih each.2 (start.and each.1)
      simpa only [List.flatMap_cons, List.map_cons, List.append_assoc,
        Formula.allOf_cons] using chained

end Chain

theorem Disjunction.parse (disjunction : Disjunction text values formula) :
    parse text values = some formula := by
  rcases disjunction with ⟨tokens, lexes, reads⟩
  rcases reads [] [] with ⟨frame, last, done, closed⟩
  rw [List.append_nil] at done
  rw [Sql.parse, lexes.tokenize, Option.bind_some, done, Option.bind_some, ← closed]
  rfl

example :
    parse "a = ? OR b->>'k' != ? AND (c < ?)".toList [1, 2, 3] =
      some
        (.disj (.compare ⟨['a'], none⟩ .equal 1)
          (.conj (.compare ⟨['b'], some ['k']⟩ .notEqual 2)
            (.compare ⟨['c'], none⟩ .less 3))) :=
  rfl

end Rules

/-! ## Comparisons -/

theorem lexes_comparison (comparison : Comparison) :
    Lexes (comparison.text ++ " ?".toList)
      [.symbol comparison.text, .placeholder] := by
  intro before
  cases comparison <;>
    simp [run, scan, Comparison.text, Scan.continues, Scan.ended, begins,
      isWordCharacter, isSymbolCharacter]

/-- A comparison after its column, whose last token the blank ends. -/
theorem run_comparison {state : Scan} {column : Token}
    (stops : state.continues ' ' = none) (ends : state.ended = some [column])
    (comparison : Comparison) (before : List Token) :
    run scan (before, state) (" ".toList ++ comparison.text ++ " ?".toList) =
      some (before ++ [column, .symbol comparison.text, .placeholder],
        .between) := by
  have blank : scan (before, state) ' ' = some (before ++ [column], .between) := by
    simp [scan, stops, ends, begins]
  rw [List.append_assoc]
  change run scan (before, state) (' ' :: (comparison.text ++ " ?".toList)) = _
  rw [run, blank, Option.bind_some, lexes_comparison, List.append_assoc]
  rfl

section Compare

variable (name : List Char) (nonempty : name ≠ [])
variable (characters : ∀ character ∈ name, isWordCharacter character = true)
include nonempty characters

theorem primary_column (comparison : Comparison) (value : Value) :
    Primary (name ++ (" ".toList ++ comparison.text ++ " ?".toList)) [value]
      (.compare ⟨name, none⟩ comparison value) := by
  refine ⟨[.word name, .symbol comparison.text, .placeholder], ?_, ?_⟩
  · intro before
    rw [run_append, run_between_word nonempty characters, Option.bind_some,
      run_comparison rfl rfl]
  · intro more outer frame
    cases comparison <;> rfl

theorem primary_member {key : List Char} (unquoted : '\'' ∉ key)
    (comparison : Comparison) (value : Value) :
    Primary
      (name ++ "->>'".toList ++ key ++ "'".toList ++
        (" ".toList ++ comparison.text ++ " ?".toList))
      [value] (.compare ⟨name, some key⟩ comparison value) := by
  refine ⟨[.word name, .symbol "->>".toList, .literal key,
    .symbol comparison.text, .placeholder], ?_, ?_⟩
  · intro before
    have arrow :
        run scan (before, .word name) "->>'".toList =
          some (before ++ [.word name, .symbol "->>".toList], .literal []) := by
      simp [run, scan, Scan.continues, Scan.ended, begins, isWordCharacter,
        isSymbolCharacter]
    have closing (tokens : List Token) :
        run scan (tokens, .literal key) "'".toList = some (tokens, .quote key) :=
      rfl
    rw [run_append, run_append, run_append, run_append,
      run_between_word nonempty characters, Option.bind_some, arrow,
      Option.bind_some, run_literal unquoted, Option.bind_some, List.nil_append,
      closing, Option.bind_some, run_comparison rfl rfl]
    simp
  · intro more outer frame
    cases comparison <;> rfl

end Compare

end Parsing

end Infractl.Lib.Sql
