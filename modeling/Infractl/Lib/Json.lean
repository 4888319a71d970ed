import Infractl.Lib.Run
import Mathlib.Tactic.IntervalCases

/-!
# A JSON reader

The reader is a machine fed one character at a time, so that reading a text is
a run of `Lib.Run` with the characters as labels.  Its state is a phase, which
says what may come next, and the containers still open around it, innermost
first.  Values nest at most `maxDepth` deep.

A text is given by its characters, or by its bytes where characters above 127
do not matter.  A string is kept as the numbers of its characters, with an
escape `\uXXXX` as the number it spells; `decodeUnits` gives the text of it.  A
number is kept as its literal.

`readInteger_printInteger` and `run_integer` say what becomes of a printed
integer, `run_printString` what becomes of a printed string, and
`parse_printObject` what becomes of an object of strings.
-/

namespace Infractl.Lib.Json

open Infractl.Lib.Run

/-- A JSON value. -/
inductive Value where
  | null
  | bool (value : Bool)
  | number (literal : List Char)
  | string (units : List Nat)
  | array (items : List Value)
  | object (members : List (List Nat × Value))

/-- A container whose next item is being read; an object knows its key. -/
inductive Frame where
  | array (items : List Value)
  | object (members : List (List Nat × Value)) (key : List Nat)

/-- Where the reader stands in an escape sequence. -/
inductive Escape where
  | none
  | backslash
  | hex (missing : Nat) (number : Nat)

/-- What a string is read for: a value, or a key after some members. -/
inductive Purpose where
  | value
  | key (members : List (List Nat × Value))

/-- How much of a number literal has been read. -/
inductive NumberPart where
  | minus
  | zero
  | whole
  | point
  | fraction
  | exponent
  | exponentSign
  | exponentDigits
deriving DecidableEq

/-- What the parser expects. -/
inductive Phase where
  | value
  | firstItem
  | firstKey
  | key (members : List (List Nat × Value))
  | colon (members : List (List Nat × Value)) (key : List Nat)
  | text (purpose : Purpose) (units : List Nat) (escape : Escape)
  | number (part : NumberPart) (literal : List Char)
  | word (missing : List Char) (result : Value)
  | ended (result : Value)

/-- The parser between two characters. -/
structure Machine where
  phase : Phase
  stack : List Frame

/-- The deepest nesting accepted. -/
def maxDepth : Nat := 10000

def isSpace (character : Char) : Bool :=
  character = ' ' || character = '\t' || character = '\r' || character = '\n'

/-- Open a container, unless the containers are nested too deep already. -/
def openContainer (stack : List Frame) (phase : Phase) : Option Machine :=
  if stack.length < maxDepth then some ⟨phase, stack⟩ else none

/-- The first character of a value. -/
def beginValue (stack : List Frame) (character : Char) : Option Machine :=
  if character = '{' then openContainer stack .firstKey
  else if character = '[' then openContainer stack .firstItem
  else if character = '"' then some ⟨.text .value [] .none, stack⟩
  else if character = '-' then some ⟨.number .minus ['-'], stack⟩
  else if character = '0' then some ⟨.number .zero ['0'], stack⟩
  else if character.isDigit then some ⟨.number .whole [character], stack⟩
  else if character = 't' then
    some ⟨.word ['r', 'u', 'e'] (.bool true), stack⟩
  else if character = 'f' then
    some ⟨.word ['a', 'l', 's', 'e'] (.bool false), stack⟩
  else if character = 'n' then some ⟨.word ['u', 'l', 'l'] .null, stack⟩
  else none

/-- A character after a value, which may end the container around it. -/
def afterValue (result : Value) (stack : List Frame) (character : Char) :
    Option Machine :=
  if isSpace character then some ⟨.ended result, stack⟩
  else
    match stack with
    | [] => none
    | .array items :: rest =>
        if character = ',' then
          some ⟨.value, .array (items ++ [result]) :: rest⟩
        else if character = ']' then
          some ⟨.ended (.array (items ++ [result])), rest⟩
        else none
    | .object members key :: rest =>
        if character = ',' then
          some ⟨.key (members ++ [(key, result)]), rest⟩
        else if character = '}' then
          some ⟨.ended (.object (members ++ [(key, result)])), rest⟩
        else none

def hexDigit (character : Char) : Option Nat :=
  if character.isDigit then some (character.toNat - '0'.toNat)
  else if 'a' ≤ character ∧ character ≤ 'f' then
    some (character.toNat - 'a'.toNat + 10)
  else if 'A' ≤ character ∧ character ≤ 'F' then
    some (character.toNat - 'A'.toNat + 10)
  else none

/-- The number of the character a one-letter escape stands for. -/
def shortEscape (character : Char) : Option Nat :=
  if character = '"' || character = '\\' || character = '/' then
    some character.toNat
  else if character = 'b' then some 8
  else if character = 'f' then some 12
  else if character = 'n' then some 10
  else if character = 'r' then some 13
  else if character = 't' then some 9
  else none

/-- The phase after the closing quote of a string. -/
def closeText (units : List Nat) : Purpose → Phase
  | .value => .ended (.string units)
  | .key members => .colon members units

/-- One character inside a string. -/
def textPhase (purpose : Purpose) (units : List Nat) (character : Char) :
    Escape → Option Phase
  | .none =>
      if character = '"' then some (closeText units purpose)
      else if character = '\\' then some (.text purpose units .backslash)
      else if character.toNat < 32 then none
      else some (.text purpose (units ++ [character.toNat]) .none)
  | .backslash =>
      if character = 'u' then some (.text purpose units (.hex 3 0))
      else
        (shortEscape character).map (fun number =>
          .text purpose (units ++ [number]) .none)
  | .hex 0 number =>
      (hexDigit character).map (fun digit =>
        .text purpose (units ++ [number * 16 + digit]) .none)
  | .hex (missing + 1) number =>
      (hexDigit character).map (fun digit =>
        .text purpose units (.hex missing (number * 16 + digit)))

/-- How a number literal goes on with a character, if it can. -/
def numberPart (character : Char) : NumberPart → Option NumberPart
  | .minus =>
      if character = '0' then some .zero
      else if character.isDigit then some .whole
      else none
  | .zero =>
      if character = '.' then some .point
      else if character = 'e' || character = 'E' then some .exponent
      else none
  | .whole =>
      if character.isDigit then some .whole
      else if character = '.' then some .point
      else if character = 'e' || character = 'E' then some .exponent
      else none
  | .point => if character.isDigit then some .fraction else none
  | .fraction =>
      if character.isDigit then some .fraction
      else if character = 'e' || character = 'E' then some .exponent
      else none
  | .exponent =>
      if character = '+' || character = '-' then some .exponentSign
      else if character.isDigit then some .exponentDigits
      else none
  | .exponentSign => if character.isDigit then some .exponentDigits else none
  | .exponentDigits => if character.isDigit then some .exponentDigits else none

/-- The parts after which a number literal may end. -/
def NumberPart.complete : NumberPart → Bool
  | .zero | .whole | .fraction | .exponentDigits => true
  | .minus | .point | .exponent | .exponentSign => false

/-- Feed one character to the reader; `none` is a syntax error. -/
def step (machine : Machine) (character : Char) : Option Machine :=
  let stack := machine.stack
  match machine.phase with
  | .value =>
      if isSpace character then some machine else beginValue stack character
  | .firstItem =>
      if isSpace character then some machine
      else if character = ']' then some ⟨.ended (.array []), stack⟩
      else beginValue (.array [] :: stack) character
  | .firstKey =>
      if isSpace character then some machine
      else if character = '}' then some ⟨.ended (.object []), stack⟩
      else if character = '"' then some ⟨.text (.key []) [] .none, stack⟩
      else none
  | .key members =>
      if isSpace character then some machine
      else if character = '"' then some ⟨.text (.key members) [] .none, stack⟩
      else none
  | .colon members key =>
      if isSpace character then some machine
      else if character = ':' then some ⟨.value, .object members key :: stack⟩
      else none
  | .text purpose units escape =>
      (textPhase purpose units character escape).map (fun phase =>
        ⟨phase, stack⟩)
  | .number part literal =>
      match numberPart character part with
      | some next => some ⟨.number next (literal ++ [character]), stack⟩
      | none =>
          if part.complete then afterValue (.number literal) stack character
          else none
  | .word [] _ => none
  | .word (wanted :: missing) result =>
      if character = wanted then
        match missing with
        | [] => some ⟨.ended result, stack⟩
        | _ :: _ => some ⟨.word missing result, stack⟩
      else none
  | .ended result => afterValue result stack character

/-- The value read, when the text may end here. -/
def finish (machine : Machine) : Option Value :=
  match machine.phase, machine.stack with
  | .ended result, [] => some result
  | .number part literal, [] =>
      if part.complete then some (.number literal) else none
  | _, _ => none

/-- The value a text spells, `none` when it is not one JSON value. -/
def parse (text : List Char) : Option Value :=
  (run step ⟨.value, []⟩ text).bind finish

/-! ## Integers -/

def printInteger : Int → List Char
  | .ofNat magnitude => Nat.toDigits 10 magnitude
  | .negSucc predecessor => '-' :: Nat.toDigits 10 (predecessor + 1)

/-- Read a decimal number. -/
def readDigits (digits : List Char) : Option Nat :=
  if digits ≠ [] ∧ digits.all Char.isDigit then
    some (Nat.ofDigitChars 10 digits 0)
  else none

/-- The integer a literal spells, `none` when it has a fraction or exponent. -/
def readInteger (literal : List Char) : Option Int :=
  if literal.head? = some '-' then
    (readDigits literal.tail).map (fun magnitude => -Int.ofNat magnitude)
  else (readDigits literal).map Int.ofNat

@[simp]
theorem isDigit_toDigits (value : Nat) :
    (Nat.toDigits 10 value).all Char.isDigit = true := by
  rw [List.all_eq_true]
  intro character member
  exact Nat.isDigit_of_mem_toDigits (by decide) (by decide) member

@[simp]
theorem readDigits_toDigits (value : Nat) :
    readDigits (Nat.toDigits 10 value) = some value := by
  rw [readDigits, if_pos ⟨Nat.toDigits_ne_nil, isDigit_toDigits value⟩,
    Nat.ofDigitChars_toDigits (by decide) (by decide)]

theorem head_toDigits_ne_minus (value : Nat) :
    (Nat.toDigits 10 value).head? ≠ some '-' := by
  intro negative
  have digit :=
    List.all_eq_true.mp (isDigit_toDigits value) '-'
      (List.mem_of_mem_head? negative)
  exact absurd digit (by decide)

@[simp]
theorem readInteger_printInteger (value : Int) :
    readInteger (printInteger value) = some value := by
  cases value with
  | ofNat magnitude =>
      rw [printInteger, readInteger, if_neg (head_toDigits_ne_minus magnitude),
        readDigits_toDigits]
      rfl
  | negSucc predecessor =>
      rw [printInteger, readInteger, if_pos List.head?_cons, List.tail_cons,
        readDigits_toDigits]
      rfl

/-- A printed integer holds digits and perhaps a sign. -/
theorem mem_printInteger {value : Int} {character : Char}
    (member : character ∈ printInteger value) :
    character = '-' ∨ character.isDigit = true := by
  cases value with
  | ofNat magnitude =>
      exact .inr (List.all_eq_true.mp (isDigit_toDigits magnitude) _ member)
  | negSucc predecessor =>
      rcases List.mem_cons.mp member with sign | digit
      · exact .inl sign
      · exact .inr (List.all_eq_true.mp (isDigit_toDigits _) _ digit)

/-- The part reached after the digits of a number without leading zeros. -/
def wholePart (value : Nat) : NumberPart :=
  if value = 0 then .zero else .whole

@[simp]
theorem wholePart_complete (value : Nat) :
    (wholePart value).complete = true := by
  rw [wholePart]
  split <;> rfl

/-- A machine that takes a first digit after what it has read of a number. -/
def TakesDigit (machine : Machine) (literal : List Char)
    (stack : List Frame) : Prop :=
  ∀ digit, digit < 10 →
    step machine (Nat.digitChar digit) =
      some ⟨.number (wholePart digit) (literal ++ [Nat.digitChar digit]), stack⟩

theorem takesDigit_value (stack : List Frame) :
    TakesDigit ⟨.value, stack⟩ [] stack := by
  intro digit bound
  interval_cases digit <;> rfl

theorem takesDigit_minus (stack : List Frame) :
    TakesDigit ⟨.number .minus ['-'], stack⟩ ['-'] stack := by
  intro digit bound
  interval_cases digit <;> rfl

theorem numberPart_whole {digit : Nat} (bound : digit < 10) :
    numberPart (Nat.digitChar digit) .whole = some .whole := by
  interval_cases digit <;> rfl

theorem run_digits {machine : Machine} {literal : List Char}
    {stack : List Frame}
    (takes : TakesDigit machine literal stack) (value : Nat) :
    run step machine (Nat.toDigits 10 value) =
      some ⟨.number (wholePart value) (literal ++ Nat.toDigits 10 value),
        stack⟩ := by
  induction value using Nat.strongRecOn with
  | _ value ih =>
      by_cases small : value < 10
      · rw [Nat.toDigits_of_lt_base small]
        exact (run_cons_eq_some_iff step).mpr ⟨_, takes value small, rfl⟩
      · have large : 10 ≤ value := Nat.le_of_not_lt small
        have earlier := ih (value / 10) (by omega)
        have started : wholePart (value / 10) = .whole :=
          if_neg (by omega)
        have whole : wholePart value = .whole := if_neg (by omega)
        have bound : value % 10 < 10 := Nat.mod_lt _ (by omega)
        rw [Nat.toDigits_of_base_le (by omega) large, whole]
        rw [started] at earlier
        refine (run_concat_eq_some_iff step).mpr ⟨_, earlier, ?_⟩
        simp only [step, numberPart_whole bound, List.append_assoc]

/-- A character that ends an integer literal. -/
def Delimits (character : Char) : Prop :=
  ∀ value, numberPart character (wholePart value) = none

theorem delimits_comma : Delimits ',' := by
  intro value
  rw [wholePart]
  split <;> rfl

theorem delimits_brace : Delimits '}' := by
  intro value
  rw [wholePart]
  split <;> rfl

@[simp]
theorem run_printInteger (value : Int) (stack : List Frame) :
    run step ⟨.value, stack⟩ (printInteger value) =
      some ⟨.number (wholePart value.natAbs) (printInteger value), stack⟩ := by
  cases value with
  | ofNat magnitude => exact run_digits (takesDigit_value stack) magnitude
  | negSucc predecessor =>
      refine (run_cons_eq_some_iff step).mpr ⟨_, rfl, ?_⟩
      exact run_digits (takesDigit_minus stack) (predecessor + 1)

/--
A printed integer where a value may stand is read as that number, once the
character after it has ended the literal.
-/
theorem run_integer (value : Int) (stack : List Frame) {delimiter : Char}
    (ends : Delimits delimiter) (rest : List Char) :
    run step ⟨.value, stack⟩ (printInteger value ++ delimiter :: rest) =
      (afterValue (.number (printInteger value)) stack delimiter).bind
        (fun next => run step next rest) := by
  rw [run_append, run_printInteger, Option.bind_some, run]
  simp only [step, ends value.natAbs, wholePart_complete, if_true]

/-! ## Strings -/

/-- The letter of a one-letter escape. -/
def escapeLetter (character : Char) : Option Char :=
  if character = '"' || character = '\\' then some character
  else if character.toNat = 8 then some 'b'
  else if character.toNat = 12 then some 'f'
  else if character = '\n' then some 'n'
  else if character = '\r' then some 'r'
  else if character = '\t' then some 't'
  else none

/-- The escape `\uXXXX` of a character number. -/
def printUnicode (unit : Nat) : List Char :=
  ['\\', 'u', Nat.digitChar (unit / 4096 % 16), Nat.digitChar (unit / 256 % 16),
    Nat.digitChar (unit / 16 % 16), Nat.digitChar (unit % 16)]

/--
The characters without a one-letter escape that are escaped all the same:
control characters, those that matter to HTML, and two line separators.
-/
def isEscaped (character : Char) : Bool :=
  character.toNat < 32 || character = '<' || character = '>' ||
    character = '&' || character.toNat = 0x2028 || character.toNat = 0x2029

/-- A character, escaped if need be. -/
def printCharacter (character : Char) : List Char :=
  match escapeLetter character with
  | some letter => ['\\', letter]
  | none =>
      if isEscaped character then printUnicode character.toNat else [character]

def printString (text : List Char) : List Char :=
  '"' :: (text.flatMap printCharacter ++ ['"'])

theorem hexDigit_digitChar {digit : Nat} (bound : digit < 16) :
    hexDigit (Nat.digitChar digit) = some digit := by
  interval_cases digit <;> rfl

theorem escapeLetter_spec {character letter : Char}
    (escaped : escapeLetter character = some letter) :
    letter ≠ 'u' ∧ shortEscape letter = some character.toNat := by
  unfold escapeLetter at escaped
  split_ifs at escaped with quoted backspace feed newline carriage tab <;>
    cases escaped
  · rcases (by simpa using quoted : character = '"' ∨ character = '\\') with
      rfl | rfl <;> exact ⟨by decide, rfl⟩
  · exact ⟨by decide, congrArg some backspace.symm⟩
  · exact ⟨by decide, congrArg some feed.symm⟩
  · exact ⟨by decide, congrArg (some ∘ Char.toNat) newline.symm⟩
  · exact ⟨by decide, congrArg (some ∘ Char.toNat) carriage.symm⟩
  · exact ⟨by decide, congrArg (some ∘ Char.toNat) tab.symm⟩

section Text

variable (purpose : Purpose) (units : List Nat) (stack : List Frame)

theorem run_printUnicode {unit : Nat} (bound : unit < 65536) :
    run step ⟨.text purpose units .none, stack⟩ (printUnicode unit) =
      some ⟨.text purpose (units ++ [unit]) .none, stack⟩ := by
  have digit (shifted : Nat) :
      hexDigit (Nat.digitChar (shifted % 16)) = some (shifted % 16) :=
    hexDigit_digitChar (Nat.mod_lt _ (by decide))
  have number :
      (((0 * 16 + unit / 4096 % 16) * 16 + unit / 256 % 16) * 16 +
        unit / 16 % 16) * 16 + unit % 16 = unit := by
    omega
  have opened :
      run step ⟨.text purpose units .none, stack⟩ ['\\', 'u'] =
        some ⟨.text purpose units (.hex 3 0), stack⟩ :=
    rfl
  refine (run_append_eq_some_iff step).mpr ⟨_, opened, ?_⟩
  simp only [run, step, textPhase, digit, Option.map_some, Option.bind_some,
    number]

@[simp]
theorem run_printCharacter (character : Char) :
    run step ⟨.text purpose units .none, stack⟩ (printCharacter character) =
      some ⟨.text purpose (units ++ [character.toNat]) .none, stack⟩ := by
  unfold printCharacter
  split
  · next letter escaped =>
      rcases escapeLetter_spec escaped with ⟨notUnicode, short⟩
      refine (run_cons_eq_some_iff step).mpr ⟨_, rfl, ?_⟩
      simp [run, step, textPhase, notUnicode, short]
  · next unescaped =>
      split
      · next escaped =>
          apply run_printUnicode
          simp only [isEscaped, Bool.or_eq_true, decide_eq_true_eq] at escaped
          rcases escaped with ((((control | rfl) | rfl) | rfl) | line) | line
          · omega
          · decide
          · decide
          · decide
          · omega
          · omega
      · next plain =>
          have printable : ¬ character.toNat < 32 := by
            intro control
            simp [isEscaped, control] at plain
          have notQuote : character ≠ '"' := by
            rintro rfl
            cases unescaped
          have notBackslash : character ≠ '\\' := by
            rintro rfl
            cases unescaped
          simp [run, step, textPhase, notQuote, notBackslash, printable]

@[simp]
theorem run_printCharacters (text : List Char) :
    run step ⟨.text purpose units .none, stack⟩ (text.flatMap printCharacter) =
      some ⟨.text purpose (units ++ text.map Char.toNat) .none, stack⟩ := by
  induction text generalizing units with
  | nil => simp
  | cons character text ih =>
      rw [List.flatMap_cons, run_append, run_printCharacter, Option.bind_some, ih,
        List.map_cons, List.append_assoc]
      rfl

end Text

/-- A printed string where a value may stand is read as its characters. -/
@[simp]
theorem run_printString (text : List Char) (stack : List Frame) :
    run step ⟨.value, stack⟩ (printString text) =
      some ⟨.ended (.string (text.map Char.toNat)), stack⟩ := by
  refine (run_cons_eq_some_iff step).mpr ⟨_, rfl, ?_⟩
  refine (run_append_eq_some_iff step).mpr
    ⟨_, run_printCharacters .value [] stack text, ?_⟩
  rfl

/-! ## Objects of strings -/

/-- A member whose value is a string. -/
def printMember (member : List Char × List Char) : List Char :=
  printString member.1 ++ (':' :: printString member.2)

/-- An object all of whose members are strings, in the order given. -/
def printObject : List (List Char × List Char) → List Char
  | [] => ['{', '}']
  | first :: rest =>
      '{' :: (printMember first ++
        (rest.flatMap (fun member => ',' :: printMember member) ++ ['}']))

theorem one_le_length_printCharacter (character : Char) :
    1 ≤ (printCharacter character).length := by
  unfold printCharacter
  split
  · exact Nat.le_add_left 1 1
  · split
    · exact Nat.le_add_left 1 5
    · exact le_rfl

theorem length_le_length_printString (text : List Char) :
    text.length ≤ (printString text).length := by
  have printed : text.length ≤ (text.flatMap printCharacter).length := by
    induction text with
    | nil => exact le_rfl
    | cons character text ih =>
        have one := one_le_length_printCharacter character
        rw [List.flatMap_cons, List.length_append, List.length_cons]
        omega
  rw [printString, List.length_cons, List.length_append]
  omega

/-- An object is no shorter than a string in it. -/
theorem length_le_length_printObject {members : List (List Char × List Char)}
    {member : List Char × List Char} (mem : member ∈ members) :
    member.2.length ≤ (printObject members).length := by
  have within : member.2.length ≤ (printMember member).length := by
    have printed := length_le_length_printString member.2
    rw [printMember, List.length_append, List.length_cons]
    omega
  cases members with
  | nil => cases mem
  | cons first rest =>
      rw [printObject, List.length_cons, List.length_append, List.length_append]
      rcases List.mem_cons.mp mem with rfl | later
      · omega
      · have part := (List.sublist_flatten_of_mem (List.mem_map_of_mem
          (f := fun member => ',' :: printMember member) later)).length_le
        rw [List.length_cons] at part
        rw [List.flatMap]
        omega

/-- A printed member as the reader returns it. -/
def readMember (member : List Char × List Char) : List Nat × Value :=
  (member.1.map Char.toNat, .string (member.2.map Char.toNat))

/-- A key is read wherever one may stand. -/
theorem run_printKey {phase : Phase} {done : List (List Nat × Value)}
    {stack : List Frame}
    (opens : step ⟨phase, stack⟩ '"' = some ⟨.text (.key done) [] .none, stack⟩)
    (key : List Char) :
    run step ⟨phase, stack⟩ (printString key) =
      some ⟨.colon done (key.map Char.toNat), stack⟩ := by
  refine (run_cons_eq_some_iff step).mpr ⟨_, opens, ?_⟩
  exact (run_append_eq_some_iff step).mpr
    ⟨_, run_printCharacters (.key done) [] stack key, rfl⟩

/-- A member is read wherever a key may stand. -/
theorem run_printMember {phase : Phase} {done : List (List Nat × Value)}
    {stack : List Frame}
    (opens : step ⟨phase, stack⟩ '"' = some ⟨.text (.key done) [] .none, stack⟩)
    (member : List Char × List Char) :
    run step ⟨phase, stack⟩ (printMember member) =
      some ⟨.ended (readMember member).2,
        .object done (readMember member).1 :: stack⟩ := by
  refine (run_append_eq_some_iff step).mpr
    ⟨_, run_printKey opens member.1, ?_⟩
  exact (run_cons_eq_some_iff step).mpr ⟨_, rfl, run_printString member.2 _⟩

theorem run_members (rest : List (List Char × List Char))
    (done : List (List Nat × Value)) (key : List Nat) (value : Value)
    (stack : List Frame) :
    run step ⟨.ended value, .object done key :: stack⟩
        (rest.flatMap (fun member => ',' :: printMember member) ++ ['}']) =
      some ⟨.ended (.object (done ++ (key, value) :: rest.map readMember)), stack⟩ := by
  induction rest generalizing done key value with
  | nil => rfl
  | cons member others ih =>
      have comma :
          step ⟨.ended value, .object done key :: stack⟩ ',' =
            some ⟨.key (done ++ [(key, value)]), stack⟩ :=
        rfl
      rw [List.flatMap_cons, List.cons_append, List.cons_append, List.append_assoc,
        run, comma, Option.bind_some, run_append, run_printMember rfl,
        Option.bind_some, ih, List.append_assoc]
      rfl

@[simp]
theorem parse_printObject (members : List (List Char × List Char)) :
    parse (printObject members) = some (.object (members.map readMember)) := by
  cases members with
  | nil => rfl
  | cons first rest =>
      have opened :
          step ⟨.value, []⟩ '{' = some ⟨.firstKey, []⟩ :=
        rfl
      have read :
          run step ⟨.value, []⟩ (printObject (first :: rest)) =
            some ⟨.ended (.object ((first :: rest).map readMember)), []⟩ := by
        rw [printObject, run, opened, Option.bind_some, run_append,
          run_printMember rfl, Option.bind_some, run_members]
        rfl
      rw [parse, read]
      rfl

/-- A printed object where a value may stand is read as its members. -/
theorem run_printObject (members : List (List Char × List Char)) (stack : List Frame)
    (room : stack.length < maxDepth) :
    run step ⟨.value, stack⟩ (printObject members) =
      some ⟨.ended (.object (members.map readMember)), stack⟩ := by
  have opened : step ⟨.value, stack⟩ '{' = some ⟨.firstKey, stack⟩ :=
    if_pos room
  cases members with
  | nil =>
      rw [printObject, run, opened]
      rfl
  | cons first rest =>
      rw [printObject, run, opened, Option.bind_some, run_append,
        run_printMember rfl, Option.bind_some, run_members]
      rfl

/-- An object of strings as the last member of another object. -/
theorem run_lastObject (done : List (List Nat × Value)) (key : List Nat) (value : Value)
    (stack : List Frame) (room : stack.length + 1 < maxDepth) (name : List Char)
    (members : List (List Char × List Char)) :
    run step ⟨.ended value, .object done key :: stack⟩
        (',' :: (printString name ++ (':' :: (printObject members ++ ['}'])))) =
      some ⟨.ended (.object (done ++ [(key, value)] ++
        [(name.map Char.toNat, .object (members.map readMember))])), stack⟩ := by
  refine (run_cons_eq_some_iff step).mpr
    ⟨⟨.key (done ++ [(key, value)]), stack⟩, rfl, ?_⟩
  refine (run_append_eq_some_iff step).mpr ⟨_, run_printKey rfl name, ?_⟩
  refine (run_cons_eq_some_iff step).mpr ⟨_, rfl, ?_⟩
  exact (run_append_eq_some_iff step).mpr ⟨_, run_printObject members _ room, rfl⟩

/-! ## The text of a string -/

def isHighSurrogate (unit : Nat) : Bool :=
  0xD800 ≤ unit && unit < 0xDC00

def isLowSurrogate (unit : Nat) : Bool :=
  0xDC00 ≤ unit && unit < 0xE000

/--
The characters of a string that was read.  Two escapes may spell one character
as a pair of surrogates; one that is alone is replaced.
-/
def decodeUnits : List Nat → List Char
  | [] => []
  | high :: low :: rest =>
      if isHighSurrogate high && isLowSurrogate low then
        Char.ofNat (0x10000 + (high - 0xD800) * 0x400 + (low - 0xDC00)) ::
          decodeUnits rest
      else if isHighSurrogate high || isLowSurrogate high then
        Char.ofNat 0xFFFD :: decodeUnits (low :: rest)
      else Char.ofNat high :: decodeUnits (low :: rest)
  | [unit] =>
      if isHighSurrogate unit || isLowSurrogate unit then [Char.ofNat 0xFFFD]
      else [Char.ofNat unit]

theorem not_surrogate (character : Char) :
    isHighSurrogate character.toNat = false ∧
      isLowSurrogate character.toNat = false := by
  have valid := character.valid
  simp only [isHighSurrogate, isLowSurrogate, Bool.and_eq_false_iff,
    decide_eq_false_iff_not]
  change Nat.isValidChar character.toNat at valid
  unfold Nat.isValidChar at valid
  omega

/-- A string of characters is read as these characters. -/
@[simp]
theorem decodeUnits_toNat (text : List Char) :
    decodeUnits (text.map Char.toNat) = text := by
  match text with
  | [] => rfl
  | [character] =>
      simp [decodeUnits, not_surrogate character]
  | first :: second :: rest =>
      have tail := decodeUnits_toNat (second :: rest)
      simp only [List.map_cons] at tail ⊢
      simp [decodeUnits, not_surrogate first, tail]

/-- Different members are read differently. -/
theorem readMember_injective : Function.Injective readMember := by
  intro left right same
  simp only [readMember, Prod.mk.injEq, Value.string.injEq] at same
  have keys := congrArg decodeUnits same.1
  have values := congrArg decodeUnits same.2
  rw [decodeUnits_toNat, decodeUnits_toNat] at keys values
  exact Prod.ext keys values

end Infractl.Lib.Json
