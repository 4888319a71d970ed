import Mathlib.Data.List.Basic

/-!
# Unpadded URL-safe base64

Three bytes are written as four characters of six bits each; one or two bytes
left at the end are written as two or three characters, without padding.

The decoder is lenient in two ways.  Line feeds and carriage returns are
skipped wherever they stand, and the bits of a last character that belong to
no byte are ignored.  A single character left at the end, and any character
outside the alphabet, is an error.
-/

namespace Infractl.Lib.Base64

/-- The character of a six-bit digit. -/
def symbol (digit : Fin 64) : Char :=
  if digit.val < 26 then Char.ofNat ('A'.toNat + digit.val)
  else if digit.val < 52 then Char.ofNat ('a'.toNat + (digit.val - 26))
  else if digit.val < 62 then Char.ofNat ('0'.toNat + (digit.val - 52))
  else if digit.val = 62 then '-'
  else '_'

/-- The digit of a character, `none` outside the alphabet. -/
def digit (character : Char) : Option (Fin 64) :=
  if character.isUpper then some (Fin.ofNat 64 (character.toNat - 'A'.toNat))
  else if character.isLower then
    some (Fin.ofNat 64 (character.toNat - 'a'.toNat + 26))
  else if character.isDigit then
    some (Fin.ofNat 64 (character.toNat - '0'.toNat + 52))
  else if character = '-' then some 62
  else if character = '_' then some 63
  else none

@[simp]
theorem digit_symbol (value : Fin 64) : digit (symbol value) = some value := by
  revert value
  decide

def isNewline (character : Char) : Bool :=
  character = '\n' || character = '\r'

@[simp]
theorem isNewline_symbol (value : Fin 64) :
    isNewline (symbol value) = false := by
  revert value
  decide

/-- The six-bit digits of a byte string. -/
def sextets : List UInt8 → List (Fin 64)
  | first :: second :: third :: rest =>
      Fin.ofNat 64 (first.toNat / 4) ::
        Fin.ofNat 64 (first.toNat % 4 * 16 + second.toNat / 16) ::
        Fin.ofNat 64 (second.toNat % 16 * 4 + third.toNat / 64) ::
        Fin.ofNat 64 (third.toNat % 64) ::
        sextets rest
  | [first, second] =>
      [Fin.ofNat 64 (first.toNat / 4),
        Fin.ofNat 64 (first.toNat % 4 * 16 + second.toNat / 16),
        Fin.ofNat 64 (second.toNat % 16 * 4)]
  | [first] =>
      [Fin.ofNat 64 (first.toNat / 4), Fin.ofNat 64 (first.toNat % 4 * 16)]
  | [] => []

/-- The bytes of a digit string, `none` when one digit is left over. -/
def octets : List (Fin 64) → Option (List UInt8)
  | first :: second :: third :: fourth :: rest =>
      (octets rest).map (fun bytes =>
        UInt8.ofNat (first.val * 4 + second.val / 16) ::
          UInt8.ofNat (second.val % 16 * 16 + third.val / 4) ::
          UInt8.ofNat (third.val % 4 * 64 + fourth.val) ::
          bytes)
  | [first, second, third] =>
      some
        [UInt8.ofNat (first.val * 4 + second.val / 16),
          UInt8.ofNat (second.val % 16 * 16 + third.val / 4)]
  | [first, second] => some [UInt8.ofNat (first.val * 4 + second.val / 16)]
  | [_] => none
  | [] => some []

theorem ofNat_eq_of_toNat {byte : UInt8} {value : Nat}
    (same : value = byte.toNat) :
    UInt8.ofNat value = byte := by
  rw [same, UInt8.ofNat_toNat]

@[simp]
theorem octets_sextets (bytes : List UInt8) :
    octets (sextets bytes) = some bytes := by
  fun_induction sextets bytes with
  | case1 first second third rest ih =>
      have firstBound := first.toNat_lt
      have secondBound := second.toNat_lt
      have thirdBound := third.toNat_lt
      simp only [octets, ih, Option.map_some, Fin.val_ofNat, Option.some.injEq,
        List.cons.injEq, and_true]
      refine ⟨ofNat_eq_of_toNat ?_, ofNat_eq_of_toNat ?_,
        ofNat_eq_of_toNat ?_⟩ <;> omega
  | case2 first second =>
      have firstBound := first.toNat_lt
      have secondBound := second.toNat_lt
      simp only [octets, Fin.val_ofNat, Option.some.injEq, List.cons.injEq,
        and_true]
      refine ⟨ofNat_eq_of_toNat ?_, ofNat_eq_of_toNat ?_⟩ <;> omega
  | case3 first =>
      have firstBound := first.toNat_lt
      simp only [octets, Fin.val_ofNat, Option.some.injEq, List.cons.injEq,
        and_true]
      exact ofNat_eq_of_toNat (by omega)
  | case4 => rfl

/-- Encode without padding. -/
def encode (bytes : List UInt8) : List Char :=
  (sextets bytes).map symbol

/-- Decode; newlines are ignored. -/
def decode (text : List Char) : Option (List UInt8) :=
  ((text.filter (fun character => !isNewline character)).mapM digit).bind octets

@[simp]
theorem mapM_digit_symbol (digits : List (Fin 64)) :
    (digits.map symbol).mapM digit = some digits := by
  induction digits with
  | nil => rfl
  | cons first rest ih =>
      rw [List.map_cons, List.mapM_cons, digit_symbol, ih]
      rfl

@[simp]
theorem decode_encode (bytes : List UInt8) :
    decode (encode bytes) = some bytes := by
  have noNewline :
      (encode bytes).filter (fun character => !isNewline character) =
        encode bytes := by
    rw [List.filter_eq_self]
    intro character member
    rcases List.mem_map.mp member with ⟨value, _, rfl⟩
    rw [isNewline_symbol]
    rfl
  rw [decode, noNewline, encode, mapM_digit_symbol]
  exact octets_sextets bytes

/-- A letter, a digit, a hyphen or an underscore. -/
def isURLSafe (character : Char) : Bool :=
  character.isAlphanum || character = '-' || character = '_'

@[simp]
theorem isURLSafe_symbol (value : Fin 64) : isURLSafe (symbol value) = true := by
  revert value
  decide

theorem isURLSafe_of_mem_encode {bytes : List UInt8} {character : Char}
    (member : character ∈ encode bytes) :
    isURLSafe character = true := by
  rcases List.mem_map.mp member with ⟨value, _, rfl⟩
  exact isURLSafe_symbol value

@[simp]
theorem encode_eq_nil_iff (bytes : List UInt8) :
    encode bytes = [] ↔ bytes = [] := by
  constructor
  · intro empty
    have decoded := decode_encode bytes
    rw [empty] at decoded
    exact (Option.some.inj decoded).symm
  · rintro rfl
    rfl

end Infractl.Lib.Base64
