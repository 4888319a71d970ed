import Infractl.Store.Filter

/-!
# Cutting texts

What the text functions of the filter parser do to texts that are put together
from pieces.  All of it rests on one notion: a text is `Clear` of a keyword
when no occurrence of the keyword starts in it.

A text woven from pieces and separators is cut, or has its separators
replaced, at the separators only, as long as the pieces and the other
separators are clear of the keyword.
-/

namespace Infractl.Store

/-! ## Cutting at a keyword -/

/-- No occurrence of a keyword starts in the text, when `rest` follows it. -/
def Clear (keyword : List Char) : List Char → List Char → Prop
  | [], _ => True
  | first :: text, rest =>
      keyword.isPrefixOf (first :: (text ++ rest)) = false ∧
        Clear keyword text rest

section Cutting

variable {keyword text first second rest : List Char}

theorem Clear.append (clearFirst : Clear keyword first (second ++ rest))
    (clearSecond : Clear keyword second rest) :
    Clear keyword (first ++ second) rest := by
  induction first with
  | nil => exact clearSecond
  | cons character others ih =>
      refine ⟨?_, ih clearFirst.2⟩
      change keyword.isPrefixOf (character :: (others ++ second ++ rest)) = false
      rw [List.append_assoc]
      exact clearFirst.1

theorem clear_of_not_mem {start : Char} (absent : start ∉ text)
    (keyword rest : List Char) : Clear (start :: keyword) text rest := by
  induction text with
  | nil => trivial
  | cons character others ih =>
      simp only [List.mem_cons, not_or] at absent
      refine ⟨?_, ih absent.2⟩
      rw [List.isPrefixOf]
      simp [absent.1]

theorem index_clear (clear : Clear keyword text rest) :
    index keyword (text ++ rest) =
      (index keyword rest).map (fun position => position + text.length) := by
  induction text with
  | nil => simp
  | cons character others ih =>
      rw [List.cons_append, index, clear.1, ih clear.2, Option.map_map]
      simp [Function.comp_def, Nat.add_assoc]

theorem isPrefixOf_of_index {keyword text : List Char}
    (found : index keyword text = some 0) : keyword.isPrefixOf text = true := by
  cases text with
  | nil =>
      cases keyword with
      | nil => rfl
      | cons start rest => cases found
  | cons character others =>
      rw [index] at found
      split at found
      · assumption
      · simp at found

@[simp]
theorem index_append {keyword : List Char} (rest : List Char) :
    index keyword (keyword ++ rest) = some 0 := by
  cases joined : keyword ++ rest with
  | nil => simp [index, (List.append_eq_nil_iff.mp joined).1]
  | cons character others =>
      rw [index, ← joined, if_pos (by simp)]

theorem splitKeyword_clear (clear : Clear keyword text rest) :
    splitKeyword (text ++ rest) keyword =
      (splitKeyword rest keyword).modifyHead (fun part => text ++ part) := by
  induction text with
  | nil => exact List.modifyHead_id.symm ▸ rfl
  | cons character others ih =>
      have shorter := ih clear.2
      unfold splitKeyword at shorter ⊢
      rw [List.cons_append, splitFromSkip, clear.1, shorter]
      simp [List.modifyHead_modifyHead, Function.comp_def]

@[simp]
theorem splitFromSkip_append (keyword text rest : List Char) :
    splitFromSkip keyword text.length (text ++ rest) =
      splitFromSkip keyword 0 rest := by
  induction text with
  | nil => rfl
  | cons character others ih => exact ih

theorem splitKeyword_keyword (nonempty : keyword ≠ []) (rest : List Char) :
    splitKeyword (keyword ++ rest) keyword = [] :: splitKeyword rest keyword := by
  cases keyword with
  | nil => exact absurd rfl nonempty
  | cons start others =>
      unfold splitKeyword
      rw [List.cons_append, splitFromSkip, if_pos (by simp)]
      exact congrArg _ (splitFromSkip_append (start :: others) others rest)

theorem splitFromSkip_ne_nil (keyword : List Char) (skip : Nat)
    (text : List Char) : splitFromSkip keyword skip text ≠ [] := by
  induction text generalizing skip with
  | nil => simp [splitFromSkip]
  | cons character others ih =>
      cases skip with
      | succ skip => exact ih skip
      | zero =>
          rw [splitFromSkip]
          split
          · simp
          · simpa [List.modifyHead_eq_nil_iff] using ih 0

theorem splitKeyword_cons (keyword text : List Char) :
    ∃ part parts, splitKeyword text keyword = part :: parts :=
  List.exists_cons_of_ne_nil (splitFromSkip_ne_nil keyword 0 text)

variable (replacement : List Char)

theorem replaceKeyword_clear (clear : Clear keyword text rest) :
    replaceKeyword (text ++ rest) keyword replacement =
      text ++ replaceKeyword rest keyword replacement := by
  unfold replaceKeyword
  rw [splitKeyword_clear clear]
  rcases splitKeyword_cons keyword rest with ⟨part, parts, found⟩
  rw [found, List.modifyHead_cons]
  cases parts with
  | nil => simp
  | cons next others => simp [List.intercalate_cons_cons]

theorem replaceKeyword_keyword (nonempty : keyword ≠ []) (rest : List Char) :
    replaceKeyword (keyword ++ rest) keyword replacement =
      replacement ++ replaceKeyword rest keyword replacement := by
  unfold replaceKeyword
  rw [splitKeyword_keyword nonempty]
  rcases splitKeyword_cons keyword rest with ⟨part, parts, found⟩
  rw [found, List.intercalate_cons_cons]
  rfl

end Cutting

/-! ## Texts joined by separators -/

/-- Pieces joined by separators, each written before the piece it precedes. -/
def weave (first : List Char) : List (List Char × List Char) → List Char
  | [] => first
  | (separator, next) :: rest => first ++ (separator ++ weave next rest)

theorem weave_eq_append (first : List Char) (rest : List (List Char × List Char)) :
    ∃ more, weave first rest = first ++ more := by
  cases rest with
  | nil => exact ⟨[], by simp [weave]⟩
  | cons pair others => exact ⟨_, rfl⟩

/-- A text that is clear of a keyword whatever follows. -/
def Solid (keyword text : List Char) : Prop :=
  ∀ rest, Clear keyword text rest

/-- A separator that is clear of a keyword when it precedes a piece. -/
def Apart (keyword : List Char) (pair : List Char × List Char) : Prop :=
  ∀ rest, Clear keyword pair.1 (pair.2 ++ rest)

section Weaving

variable {keyword first : List Char} {rest : List (List Char × List Char)}

theorem clear_separator {separator next : List Char}
    (apart : Apart keyword (separator, next))
    (others : List (List Char × List Char)) (more : List Char) :
    Clear keyword separator (weave next others ++ more) := by
  rcases weave_eq_append next others with ⟨ending, joined⟩
  rw [joined, List.append_assoc]
  exact apart _

theorem solid_weave (solid : Solid keyword first)
    (pieces : ∀ pair ∈ rest, Solid keyword pair.2)
    (separators : ∀ pair ∈ rest, Apart keyword pair) :
    Solid keyword (weave first rest) := by
  induction rest generalizing first with
  | nil => exact solid
  | cons pair others ih =>
      simp only [List.forall_mem_cons] at pieces separators
      have tail := ih pieces.1 pieces.2 separators.2
      intro more
      refine Clear.append (solid _) (Clear.append ?_ (tail more))
      exact clear_separator separators.1 others more

/-- Replacing a keyword replaces the separators that are this keyword. -/
theorem replaceKeyword_weave (nonempty : keyword ≠ []) (replacement : List Char)
    (solid : Solid keyword first)
    (pieces : ∀ pair ∈ rest, Solid keyword pair.2)
    (separators : ∀ pair ∈ rest, pair.1 = keyword ∨ Apart keyword pair) :
    replaceKeyword (weave first rest) keyword replacement =
      weave first
        (rest.map (fun pair =>
          (if pair.1 = keyword then replacement else pair.1, pair.2))) := by
  induction rest generalizing first with
  | nil =>
      have alone := replaceKeyword_clear replacement (solid [])
      rw [List.append_nil] at alone
      rw [weave, alone]
      simp [replaceKeyword, splitKeyword, splitFromSkip, weave]
  | cons pair others ih =>
      rcases pair with ⟨separator, next⟩
      simp only [List.forall_mem_cons] at pieces separators
      have tail := ih pieces.1 pieces.2 separators.2
      rw [weave, replaceKeyword_clear replacement (solid _), List.map_cons, weave]
      by_cases same : separator = keyword
      · subst same
        rw [replaceKeyword_keyword replacement nonempty, tail, if_pos rfl]
      · have apart := separators.1.resolve_left same
        have clear := clear_separator apart others []
        rw [List.append_nil] at clear
        rw [replaceKeyword_clear replacement clear, tail, if_neg same]

/-- Cutting at the only separator gives the pieces. -/
theorem splitKeyword_weave (nonempty : keyword ≠ []) (solid : Solid keyword first)
    {pieces : List (List Char)} (all : ∀ piece ∈ pieces, Solid keyword piece) :
    splitKeyword (weave first (pieces.map (fun piece => (keyword, piece)))) keyword =
      first :: pieces := by
  induction pieces generalizing first with
  | nil =>
      have alone := splitKeyword_clear (solid [])
      rw [List.append_nil] at alone
      rw [List.map_nil, weave, alone]
      simp [splitKeyword, splitFromSkip]
  | cons piece others ih =>
      simp only [List.forall_mem_cons] at all
      rw [List.map_cons, weave, splitKeyword_clear (solid _),
        splitKeyword_keyword nonempty, ih all.1 all.2]
      simp

end Weaving

/-- What a woven text ends with is its last piece. -/
theorem getLast?_weave {first : List Char} {rest : List (List Char × List Char)}
    (nonempty : ∀ pair ∈ rest, pair.2 ≠ []) {character : Char}
    (last : character ∈ (weave first rest).getLast?) :
    ∃ piece ∈ first :: rest.map Prod.snd, character ∈ piece := by
  induction rest generalizing first with
  | nil => exact ⟨first, by simp, List.mem_of_getLast? last⟩
  | cons pair others ih =>
      rcases pair with ⟨separator, next⟩
      simp only [List.forall_mem_cons] at nonempty
      have tail : weave next others ≠ [] := by
        rcases weave_eq_append next others with ⟨more, joined⟩
        rw [joined]
        exact fun empty => nonempty.1 (List.append_eq_nil_iff.mp empty).1
      rw [weave, ← List.append_assoc, List.getLast?_append_of_ne_nil _ tail] at last
      rcases ih nonempty.2 last with ⟨piece, member, inside⟩
      exact ⟨piece, List.mem_cons_of_mem _ member, inside⟩

/-! ## Trimming -/

/-- A text without white space at its ends is not trimmed. -/
theorem trimSpace_eq {text : List Char}
    (starts : ∀ character ∈ text.head?, isSpace character = false)
    (ends : ∀ character ∈ text.getLast?, isSpace character = false) :
    trimSpace text = text := by
  have dropped {other : List Char}
      (head : ∀ character ∈ other.head?, isSpace character = false) :
      other.dropWhile isSpace = other := by
    cases other with
    | nil => rfl
    | cons character rest => simp [List.dropWhile, head character rfl]
  rw [trimSpace, dropped starts, dropped, List.reverse_reverse]
  rwa [List.head?_reverse]

theorem trimSpace_of_forall {text : List Char}
    (none : ∀ character ∈ text, isSpace character = false) :
    trimSpace text = text :=
  trimSpace_eq (fun _ member => none _ (List.mem_of_mem_head? member))
    (fun _ member => none _ (List.mem_of_getLast? member))

end Infractl.Store
