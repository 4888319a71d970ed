import Infractl.Lib.Base64
import Infractl.Lib.Json

/-!
# Continue tokens

A list that has more rows than fit on a page hands out a token with the offset
of the next page: a JSON object in unpadded URL-safe base64.  The resource
version of a token is left out when it is zero, as it is in every token the
store makes.

Decoding follows the standard library.  Members match their field whatever the
case of their letters, a null leaves its field alone, the last of several
members for one field wins and unknown members are skipped.  The result has
both fields at zero unless the text sets them.

`decodeContinueToken_encode` says that every token survives the round trip, and
`continueToken_roundTrip` that its text needs no escape in a URL.
-/

namespace Infractl.Store

open Infractl.Lib
open Infractl.Lib.Run
open Infractl.Lib.Json (Value)

/-- `ContinueToken`. -/
@[ext]
structure ContinueToken where
  offset : Int64 := 0
  resourceVersion : Int64 := 0
deriving DecidableEq

/-- Why a text is not a continue token. -/
inductive TokenError where
  | encoding
  | payloadSyntax
  | payloadType
deriving DecidableEq

/-- The message of a token error, up to that of the error it wraps. -/
def TokenError.message : TokenError → String
  | .encoding => "invalid continue token encoding: "
  | .payloadSyntax => "invalid continue token payload: "
  | .payloadType => "invalid continue token payload: "

/-! ## The payload -/

/-- `json.Marshal` of a token. -/
def marshalToken (token : ContinueToken) : List Char :=
  ['{', '"', 'o', '"', ':'] ++ (Json.printInteger token.offset.toInt ++
    if token.resourceVersion = 0 then ['}']
    else
      ',' :: (['"', 'r', 'v', '"', ':'] ++
        (Json.printInteger token.resourceVersion.toInt ++ ['}'])))

/-- A character number with the case of a letter forgotten. -/
def foldCase (unit : Nat) : Nat :=
  if 'A'.toNat ≤ unit ∧ unit ≤ 'Z'.toNat then unit + 32 else unit

/-- The key names the field, in any case. -/
def names (key : List Nat) (field : List Char) : Bool :=
  key.map foldCase = field.map Char.toNat

/-- Decode a value into a 64-bit field: a null leaves it as it was. -/
def decodeInt64 (stored : Int64) : Value → Except TokenError Int64
  | .null => .ok stored
  | .number literal =>
      match Json.readInteger literal with
      | some number =>
          if Int64.minValue.toInt ≤ number ∧ number ≤ Int64.maxValue.toInt then
            .ok (Int64.ofInt number)
          else .error .payloadType
      | none => .error .payloadType
  | _ => .error .payloadType

/-- Decode one member of the token. -/
def decodeMember (token : ContinueToken) (member : List Nat × Value) :
    Except TokenError ContinueToken :=
  if names member.1 ['o'] then
    (decodeInt64 token.offset member.2).map (fun value =>
      { token with offset := value })
  else if names member.1 ['r', 'v'] then
    (decodeInt64 token.resourceVersion member.2).map (fun value =>
      { token with resourceVersion := value })
  else .ok token

/-- `json.Unmarshal` into a zero token. -/
def unmarshalToken (text : List Char) : Except TokenError ContinueToken :=
  match Json.parse text with
  | none => .error .payloadSyntax
  | some .null => .ok {}
  | some (.object members) => members.foldlM decodeMember {}
  | some _ => .error .payloadType

@[simp]
theorem decodeInt64_printed (stored value : Int64) :
    decodeInt64 stored (.number (Json.printInteger value.toInt)) = .ok value := by
  have inRange :
      Int64.minValue.toInt ≤ value.toInt ∧
        value.toInt ≤ Int64.maxValue.toInt :=
    ⟨value.minValue_le_toInt, value.toInt_le⟩
  simp only [decodeInt64, Json.readInteger_printInteger, if_pos inRange,
    Int64.ofInt_toInt]

/-- The members of a printed token, as the reader returns them. -/
def tokenMembers (token : ContinueToken) : List (List Nat × Value) :=
  ([111], .number (Json.printInteger token.offset.toInt)) ::
    if token.resourceVersion = 0 then []
    else
      [([114, 118], .number (Json.printInteger token.resourceVersion.toInt))]

variable {character : Char} (token : ContinueToken)

@[simp]
theorem parse_marshalToken :
    Json.parse (marshalToken token) = some (.object (tokenMembers token)) := by
  have opened (rest : List Char) :
      run Json.step ⟨.value, []⟩ (['{', '"', 'o', '"', ':'] ++ rest) =
        run Json.step ⟨.value, [.object [] [111]]⟩ rest :=
    rfl
  rw [Json.parse, marshalToken, opened, tokenMembers]
  by_cases unset : token.resourceVersion = 0
  · rw [if_pos unset, if_pos unset, Json.run_integer _ _ Json.delimits_brace]
    rfl
  · have comma (value : Value) :
        Json.afterValue value [.object [] [111]] ',' =
          some ⟨.key [([111], value)], []⟩ :=
      rfl
    have colon (members : List (List Nat × Value)) (rest : List Char) :
        run Json.step ⟨.key members, []⟩ (['"', 'r', 'v', '"', ':'] ++ rest) =
          run Json.step ⟨.value, [.object members [114, 118]]⟩ rest :=
      rfl
    rw [if_neg unset, if_neg unset, Json.run_integer _ _ Json.delimits_comma,
      comma, Option.bind_some, colon, Json.run_integer _ _ Json.delimits_brace]
    rfl

@[simp]
theorem decodeMember_offset (value : Int64) :
    decodeMember token ([111], .number (Json.printInteger value.toInt)) =
      .ok { token with offset := value } := by
  have named : names [111] ['o'] = true := by decide
  simp only [decodeMember, named, if_true, decodeInt64_printed, Except.map]

@[simp]
theorem decodeMember_resourceVersion (value : Int64) :
    decodeMember token ([114, 118], .number (Json.printInteger value.toInt)) =
      .ok { token with resourceVersion := value } := by
  have named : names [114, 118] ['r', 'v'] = true := by decide
  have other : names [114, 118] ['o'] = false := by decide
  simp only [decodeMember, named, other, if_true, Bool.false_eq_true, if_false,
    decodeInt64_printed, Except.map]

@[simp]
theorem foldlM_tokenMembers :
    (tokenMembers token).foldlM decodeMember {} = .ok token := by
  rw [tokenMembers, List.foldlM_cons, decodeMember_offset]
  by_cases unset : token.resourceVersion = 0
  · rw [if_pos unset]
    exact congrArg Except.ok (ContinueToken.ext rfl unset.symm)
  · rw [if_neg unset]
    show ([_] : List (List Nat × Value)).foldlM decodeMember _ = _
    rw [List.foldlM_cons, decodeMember_resourceVersion]
    rfl

@[simp]
theorem unmarshalToken_marshalToken :
    unmarshalToken (marshalToken token) = .ok token := by
  rw [unmarshalToken, parse_marshalToken]
  exact foldlM_tokenMembers token

theorem ofUInt8_toUInt8 (small : character.toNat < 256) :
    Char.ofUInt8 character.toUInt8 = character := by
  have value : character.val.toNat < 256 := small
  apply Char.ext
  apply UInt32.toNat_inj.mp
  show character.val.toUInt8.toUInt32.toNat = character.val.toNat
  rw [UInt8.toNat_toUInt32, UInt32.toNat_toUInt8]
  exact Nat.mod_eq_of_lt value

theorem printInteger_small {value : Int}
    (member : character ∈ Json.printInteger value) :
    character.toNat < 256 := by
  rcases Json.mem_printInteger member with rfl | digit
  · decide
  · exact Nat.lt_of_le_of_lt (Char.isDigit_iff_toNat.mp digit).2 (by decide)

/-- A printed token holds only characters of one byte. -/
theorem marshalToken_small {token : ContinueToken}
    (member : character ∈ marshalToken token) :
    character.toNat < 256 := by
  have fixed (characters : List Char)
      (small : characters.all (fun found => found.toNat < 256) = true)
      (found : character ∈ characters) :
      character.toNat < 256 := by
    simpa using List.all_eq_true.mp small character found
  rw [marshalToken, List.mem_append, List.mem_append] at member
  rcases member with first | offset | rest
  · exact fixed _ (by decide) first
  · exact printInteger_small offset
  · split at rest
    · exact fixed ['}'] (by decide) rest
    · rw [List.mem_cons, List.mem_append, List.mem_append] at rest
      rcases rest with comma | second | version | last
      · exact fixed [','] (by decide) (List.mem_singleton.mpr comma)
      · exact fixed _ (by decide) second
      · exact printInteger_small version
      · exact fixed ['}'] (by decide) last

/-! ## The token -/

/-- `EncodeContinueToken`. -/
def encodeContinueToken (token : ContinueToken) : String :=
  String.ofList (Base64.encode ((marshalToken token).map Char.toUInt8))

/-- `DecodeContinueToken`. -/
def decodeContinueToken (text : String) : Except TokenError ContinueToken :=
  match Base64.decode text.toList with
  | none => .error .encoding
  | some bytes => unmarshalToken (bytes.map Char.ofUInt8)

theorem encodeContinueToken_ne_empty :
    encodeContinueToken token ≠ "" := by
  intro empty
  have noDigits :
      Base64.encode ((marshalToken token).map Char.toUInt8) = [] := by
    rw [encodeContinueToken] at empty
    simpa using congrArg String.toList empty
  rw [Base64.encode_eq_nil_iff, List.map_eq_nil_iff] at noDigits
  exact absurd noDigits (by simp [marshalToken])

@[simp]
theorem decodeContinueToken_encode :
    decodeContinueToken (encodeContinueToken token) = .ok token := by
  have bytes :
      ((marshalToken token).map Char.toUInt8).map Char.ofUInt8 =
        marshalToken token := by
    rw [List.map_map]
    exact (List.map_congr_left (fun _ member =>
      ofUInt8_toUInt8 (marshalToken_small member))).trans
      (List.map_id _)
  rw [decodeContinueToken, encodeContinueToken, String.toList_ofList,
    Base64.decode_encode]
  simp only [bytes, unmarshalToken_marshalToken]

/--
Every token is decoded from its text, which is not empty and made of letters,
digits, hyphens and underscores only.
-/
theorem continueToken_roundTrip (token : ContinueToken) :
    decodeContinueToken (encodeContinueToken token) = .ok token ∧
      encodeContinueToken token ≠ "" ∧
      ∀ character ∈ (encodeContinueToken token).toList,
        Base64.isURLSafe character = true := by
  refine ⟨decodeContinueToken_encode token, encodeContinueToken_ne_empty token, ?_⟩
  intro character member
  rw [encodeContinueToken, String.toList_ofList] at member
  exact Base64.isURLSafe_of_mem_encode member

example : encodeContinueToken ⟨50, 0⟩ = "eyJvIjo1MH0" := by
  decide

end Infractl.Store
