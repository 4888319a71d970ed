import Mathlib.Data.List.SplitLengths
import Infractl.Store.Model

/-!
# Identifiers as text

Tenant identifiers travel as strings, in headers, token claims and messages,
and are parsed and printed by a library.  `UUIDText` is what this development
uses of that library: printing is never empty, and parsing undoes it.  Parsing
accepts other spellings of an identifier as well, so nothing is said about
printing a parsed text.

`canonicalText` is the spelling with five groups of lower-case hexadecimal
digits, which shows that the assumptions can be met.  `libraryText` parses the
spellings that the library accepts: either case, a URN, a pair of braces, and
the digits alone.
-/

namespace Infractl.Auth

open Infractl.Store (UUID)

/-- `uuid.Parse`, which may fail with a message, and `UUID.String`. -/
structure UUIDText where
  parse : String → Except String UUID
  format : UUID → String
  parse_format : ∀ id, parse (format id) = .ok id
  format_ne_empty : ∀ id, format id ≠ ""

/-! ## The canonical spelling -/

/-- The hexadecimal digit of a number below sixteen. -/
def hexChar (value : Nat) : Char :=
  Char.ofNat (if value < 10 then 48 + value else 87 + value)

/-- The value of a hexadecimal digit. -/
def hexValue (char : Char) : Option Nat :=
  if 48 ≤ char.toNat ∧ char.toNat ≤ 57 then
    some (char.toNat - 48)
  else if 97 ≤ char.toNat ∧ char.toNat ≤ 102 then
    some (char.toNat - 87)
  else
    none

theorem hexValue_hexChar : ∀ value < 16, hexValue (hexChar value) = some value := by
  decide

theorem hexChar_ne_hyphen : ∀ value < 16, hexChar value ≠ '-' := by
  decide

/-- The last digits of a number, as many as asked for. -/
def hexSpelling : Nat → Nat → List Char
  | 0, _ => []
  | count + 1, value => hexSpelling count (value / 16) ++ [hexChar (value % 16)]

@[simp]
theorem length_hexSpelling (count value : Nat) :
    (hexSpelling count value).length = count := by
  induction count generalizing value with
  | zero => rfl
  | succ count ih => simp [hexSpelling, ih]

theorem hyphen_not_mem_hexSpelling (count value : Nat) :
    '-' ∉ hexSpelling count value := by
  induction count generalizing value with
  | zero => simp [hexSpelling]
  | succ count ih =>
      simp only [hexSpelling, List.mem_append, List.mem_singleton, not_or]
      exact ⟨ih (value / 16),
        (hexChar_ne_hyphen (value % 16) (Nat.mod_lt value (by decide))).symm⟩

/-- The number a list of digits spells. -/
def spelledNumber (digits : List Char) : Option Nat :=
  digits.foldlM
    (fun value char => (hexValue char).map (fun digit => value * 16 + digit)) 0

@[simp]
theorem spelledNumber_hexSpelling (count value : Nat) :
    spelledNumber (hexSpelling count value) = some (value % 16 ^ count) := by
  induction count generalizing value with
  | zero => simp [spelledNumber, hexSpelling, Nat.mod_one]
  | succ count ih =>
      have digit := hexValue_hexChar (value % 16) (Nat.mod_lt value (by decide))
      have leading := ih (value / 16)
      unfold spelledNumber at leading ⊢
      rw [hexSpelling, List.foldlM_append, leading]
      simp only [Option.bind_eq_bind, Option.bind_some, List.foldlM_cons, digit,
        Option.map_some, List.foldlM_nil, Option.pure_def, Option.some.injEq]
      rw [Nat.pow_succ', Nat.mod_mul]
      omega

/-- The lengths of the five groups. -/
def groupLengths : List Nat :=
  [8, 4, 4, 4, 12]

def canonicalGroups (id : UUID) : List (List Char) :=
  groupLengths.splitLengths (hexSpelling 32 id.toNat)

/-- The text `String` gives. -/
def canonicalFormat (id : UUID) : String :=
  String.ofList (['-'].intercalate (canonicalGroups id))

/-- `Parse` on the texts of `String`. -/
def canonicalParse (text : String) : Except String UUID :=
  let groups := text.toList.splitOn '-'
  if groups.map List.length = groupLengths then
    match spelledNumber groups.flatten with
    | some value => .ok (BitVec.ofNat 128 value)
    | none => .error "invalid UUID format"
  else
    .error "invalid UUID format"

@[simp]
theorem canonicalGroups_flatten (id : UUID) :
    (canonicalGroups id).flatten = hexSpelling 32 id.toNat :=
  List.flatten_splitLengths _ _ (by simp [groupLengths])

@[simp]
theorem canonicalGroups_lengths (id : UUID) :
    (canonicalGroups id).map List.length = groupLengths :=
  List.map_splitLengths_length _ _ (by simp [groupLengths])

@[simp]
theorem splitOn_canonicalFormat (id : UUID) :
    (canonicalFormat id).toList.splitOn '-' = canonicalGroups id := by
  rw [canonicalFormat, String.toList_ofList]
  apply List.splitOn_intercalate
  · intro group member hyphen
    have inDigits : '-' ∈ (canonicalGroups id).flatten :=
      List.mem_flatten.mpr ⟨group, member, hyphen⟩
    rw [canonicalGroups_flatten] at inDigits
    exact hyphen_not_mem_hexSpelling _ _ inDigits
  · intro empty
    have lengths := canonicalGroups_lengths id
    rw [empty] at lengths
    cases lengths

@[simp]
theorem canonicalParse_format (id : UUID) :
    canonicalParse (canonicalFormat id) = .ok id := by
  have bound : id.toNat % 16 ^ 32 = id.toNat := Nat.mod_eq_of_lt id.isLt
  simp only [canonicalParse, splitOn_canonicalFormat, canonicalGroups_lengths,
    if_pos, canonicalGroups_flatten, spelledNumber_hexSpelling, bound]
  rw [BitVec.ofNat_toNat, BitVec.setWidth_eq]

/-- The canonical spelling as an instance. -/
def canonicalText : UUIDText where
  parse := canonicalParse
  format := canonicalFormat
  parse_format := canonicalParse_format
  format_ne_empty := by
    intro id empty
    have groups := splitOn_canonicalFormat id
    have lengths := canonicalGroups_lengths id
    rw [empty] at groups
    rw [← groups] at lengths
    cases lengths

/-! ## The spellings the library accepts -/

/-- Five groups in either case; what follows them is not read. -/
def groupedParse (chars : List Char) : Except String UUID :=
  canonicalParse (String.ofList ((chars.take 36).map Char.toLower))

/--
`uuid.Parse`.  The length of the text tells its form.  Of a text in braces the
first and the last character are skipped without being looked at.
-/
def libraryParse (text : String) : Except String UUID :=
  let chars := text.toList
  if chars.any (fun char => decide (128 ≤ char.toNat)) then
    .error "invalid UUID format"
  else if chars.length = 36 then
    groupedParse chars
  else if chars.length = 36 + 9 then
    if (chars.take 9).map Char.toLower = "urn:uuid:".toList then
      groupedParse (chars.drop 9)
    else
      .error ("invalid urn prefix: " ++ String.ofList (chars.take 9))
  else if chars.length = 36 + 2 then
    groupedParse (chars.drop 1)
  else if chars.length = 32 then
    match spelledNumber (chars.map Char.toLower) with
    | some value => .ok (BitVec.ofNat 128 value)
    | none => .error "invalid UUID format"
  else
    .error ("invalid UUID length: " ++ toString chars.length)

theorem hexChar_plain : ∀ value < 16,
    (hexChar value).toNat < 128 ∧ (hexChar value).toLower = hexChar value := by
  decide

theorem hexSpelling_plain (count value : Nat) :
    ∀ char ∈ hexSpelling count value,
      char.toNat < 128 ∧ char.toLower = char := by
  induction count generalizing value with
  | zero =>
      intro char member
      cases member
  | succ count ih =>
      intro char member
      rcases List.mem_append.mp member with leading | last
      · exact ih (value / 16) char leading
      · rw [List.mem_singleton.mp last]
        exact hexChar_plain (value % 16) (Nat.mod_lt value (by decide))

/-- The five groups, each with its length. -/
theorem exists_canonicalGroups (id : UUID) :
    ∃ first second third fourth fifth,
      canonicalGroups id = [first, second, third, fourth, fifth] ∧
        first.length = 8 ∧ second.length = 4 ∧ third.length = 4 ∧
        fourth.length = 4 ∧ fifth.length = 12 := by
  have lengths := canonicalGroups_lengths id
  simp only [groupLengths, List.map_eq_cons_iff, List.map_eq_nil_iff] at lengths
  rcases lengths with
    ⟨first, _, all, firstLength, second, _, rfl, secondLength, third, _, rfl,
      thirdLength, fourth, _, rfl, fourthLength, fifth, _, rfl, fifthLength, rfl⟩
  exact ⟨first, second, third, fourth, fifth, all, firstLength, secondLength,
    thirdLength, fourthLength, fifthLength⟩

/-- A canonical text has 36 plain characters. -/
theorem canonicalFormat_plain (id : UUID) :
    (canonicalFormat id).toList.length = 36 ∧
      ∀ char ∈ (canonicalFormat id).toList,
        char.toNat < 128 ∧ char.toLower = char := by
  rcases exists_canonicalGroups id with
    ⟨first, second, third, fourth, fifth, all, firstLength, secondLength,
      thirdLength, fourthLength, fifthLength⟩
  have digits := canonicalGroups_flatten id
  have spelled : (canonicalFormat id).toList =
      first ++ '-' :: (second ++ '-' :: (third ++ '-' :: (fourth ++ '-' ::
        fifth))) := by
    rw [canonicalFormat, String.toList_ofList, all]
    simp [List.intercalate]
  rw [spelled]
  constructor
  · simp only [List.length_append, List.length_cons]
    omega
  · intro char member
    by_cases hyphen : char = '-'
    · rw [hyphen]
      decide
    · apply hexSpelling_plain 32 id.toNat char
      rw [← digits, all]
      simpa [hyphen] using member

@[simp]
theorem libraryParse_format (id : UUID) :
    libraryParse (canonicalFormat id) = .ok id := by
  rcases canonicalFormat_plain id with ⟨length, plain⟩
  have ascii : (canonicalFormat id).toList.any
      (fun char => decide (128 ≤ char.toNat)) = false := by
    rw [List.any_eq_false]
    intro char member
    simpa using (plain char member).1
  have lower : (canonicalFormat id).toList.map Char.toLower =
      (canonicalFormat id).toList := by
    conv_rhs => rw [← List.map_id (canonicalFormat id).toList]
    exact List.map_congr_left (fun char member => (plain char member).2)
  rw [libraryParse, ascii, length]
  simp only [Bool.false_eq_true, if_false, if_true]
  rw [groupedParse, List.take_of_length_le (Nat.le_of_eq length), lower,
    String.ofList_toList]
  exact canonicalParse_format id

/-- The library as an instance. -/
def libraryText : UUIDText where
  parse := libraryParse
  format := canonicalFormat
  parse_format := libraryParse_format
  format_ne_empty := canonicalText.format_ne_empty

end Infractl.Auth
