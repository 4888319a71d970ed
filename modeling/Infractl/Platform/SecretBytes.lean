import Infractl.Api.Handler
import Infractl.Lib.FiniteMap
import Infractl.Lib.Json
import Mathlib.Data.String.Basic

/-!
# The bytes of a secret

`SpecBytes` marshals the spec of a secret to a JSON object: its type and, unless
it has none, its data with the keys sorted.  The store compares these bytes to
tell whether an update changed the spec.

They tell two specs apart exactly when the types or the entries differ.  A nil
map and an empty one marshal to the same bytes.
-/

namespace Infractl.Api.Platform

open Infractl.Lib
open Infractl.Lib.Run
open Infractl.Store

/-- The entries of a map in the order of their keys. -/
def sortedEntries (data : Finmap (fun _ : String => String)) :
    List (List Char × List Char) :=
  (FiniteMap.sorted data).map (fun entry => (entry.1.toList, entry.2.toList))

/-- The member `data`, left out when it is empty. -/
def printData : List (List Char × List Char) → List Char
  | [] => []
  | first :: rest =>
      ',' :: (Json.printString "data".toList ++
        (':' :: Json.printObject (first :: rest)))

/-- The JSON of a spec. -/
def printSpec (spec : SecretSpec) : List Char :=
  '{' :: (Json.printMember ("type".toList, spec.type.toList) ++
    (printData (sortedEntries (spec.data.getD ∅)) ++ ['}']))

/-- `MarshalSpec` of the spec of a secret. -/
def marshalSpec (spec : SecretSpec) : List UInt8 :=
  (String.ofList (printSpec spec)).toUTF8.data.toList

/-! ## Entries -/

theorem mem_sortedEntries (data : Finmap (fun _ : String => String))
    (key value : String) :
    (key.toList, value.toList) ∈ sortedEntries data ↔
      data.lookup key = some value := by
  have mem : (key, value) ∈ FiniteMap.sorted data ↔ data.lookup key = some value :=
    FiniteMap.mem_sorted
  simp [sortedEntries, String.toList_inj, mem]

theorem sortedEntries_injective : Function.Injective sortedEntries := by
  intro left right same
  apply Finmap.ext_lookup
  intro key
  ext value
  rw [← mem_sortedEntries, ← mem_sortedEntries, same]

/-! ## Reading the bytes back -/

/-- The members of a spec as a reader of its JSON returns them. -/
def readSpec (spec : SecretSpec) : List (List Nat × Json.Value) :=
  Json.readMember ("type".toList, spec.type.toList) ::
    match sortedEntries (spec.data.getD ∅) with
    | [] => []
    | first :: rest =>
        [("data".toList.map Char.toNat,
          .object ((first :: rest).map Json.readMember))]

@[simp]
theorem parse_printSpec (spec : SecretSpec) :
    Json.parse (printSpec spec) = some (.object (readSpec spec)) := by
  have read : run Json.step ⟨.value, []⟩ (printSpec spec) =
      some ⟨.ended (.object (readSpec spec)), []⟩ := by
    have opened : Json.step ⟨.value, []⟩ '{' = some ⟨.firstKey, []⟩ := rfl
    rw [printSpec, run, opened, Option.bind_some, run_append, Json.run_printMember rfl,
      Option.bind_some]
    unfold readSpec
    cases sortedEntries (spec.data.getD ∅) with
    | nil => rfl
    | cons first rest =>
        rw [printData, List.cons_append, List.append_assoc, List.cons_append,
          Json.run_lastObject _ _ _ [] (by decide)]
        rfl
  rw [Json.parse, read]
  rfl

theorem readSpec_injective {left right : SecretSpec}
    (same : readSpec left = readSpec right) :
    left.type = right.type ∧ left.data.getD ∅ = right.data.getD ∅ := by
  rcases List.cons.inj same with ⟨types, data⟩
  constructor
  · have texts := Json.readMember_injective types
    exact String.toList_inj.mp (congrArg Prod.snd texts)
  · apply sortedEntries_injective
    cases first : sortedEntries (left.data.getD ∅) with
    | nil =>
        cases second : sortedEntries (right.data.getD ∅) with
        | nil => rfl
        | cons entry rest =>
            rw [first, second] at data
            cases data
    | cons entry rest =>
        cases second : sortedEntries (right.data.getD ∅) with
        | nil =>
            rw [first, second] at data
            cases data
        | cons otherEntry otherRest =>
            rw [first, second] at data
            simp only [List.cons.injEq, Prod.mk.injEq, true_and, and_true,
              Json.Value.object.injEq] at data
            exact List.map_injective_iff.mpr Json.readMember_injective data

theorem marshalSpec_eq_iff (left right : SecretSpec) :
    marshalSpec left = marshalSpec right ↔
      left.type = right.type ∧ left.data.getD ∅ = right.data.getD ∅ := by
  constructor
  · intro same
    rw [marshalSpec, marshalSpec, Array.toList_inj] at same
    have texts := ByteArray.ext same
    rw [String.toUTF8_eq_toByteArray, String.toUTF8_eq_toByteArray,
      String.toByteArray_inj, String.ofList_inj] at texts
    have parsed := parse_printSpec left
    rw [texts, parse_printSpec, Option.some.injEq, Json.Value.object.injEq] at parsed
    exact readSpec_injective parsed.symm
  · rintro ⟨types, data⟩
    rw [marshalSpec, marshalSpec, printSpec, printSpec, types, data]

end Infractl.Api.Platform
