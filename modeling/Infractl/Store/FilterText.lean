import Infractl.Store.Cutting

/-!
# Reading back a rendered filter

A filter is rendered by writing each term as its field, its operator and its
value, and by joining terms and groups with any mix of the separators.  The
parser finds in such a text the groups and terms it was rendered from.

The parser cuts three times, after it has replaced one separator by another.
Terms hold neither blanks nor commas, so that only separators can be cut, and
a separator is never completed by the term after it, since a term holds an
operator character.
-/

namespace Infractl.Store

/-! ## Rendering -/

/-- What may stand between groups. -/
inductive OrSeparator where
  | or
  | bars
deriving DecidableEq

def OrSeparator.text : OrSeparator → List Char
  | .or => " OR ".toList
  | .bars => " || ".toList

/-- What may stand between terms. -/
inductive AndSeparator where
  | comma
  | and
  | ampersands
deriving DecidableEq

def AndSeparator.text : AndSeparator → List Char
  | .comma => ",".toList
  | .and => " AND ".toList
  | .ampersands => " && ".toList

/-- One item or more, with a separator before each but the first. -/
structure Joined (Separator Item : Type) where
  first : Item
  rest : List (Separator × Item)
deriving DecidableEq

namespace Joined

variable {Separator Item : Type}

def items (joined : Joined Separator Item) : List Item :=
  joined.first :: joined.rest.map Prod.snd

def text (separator : Separator → List Char) (item : Item → List Char)
    (joined : Joined Separator Item) : List Char :=
  weave (item joined.first)
    (joined.rest.map (fun pair => (separator pair.1, item pair.2)))

end Joined

/--
A term whose value can be written in a filter: without a comma or white space,
and not so that the operator would be read as a longer one.
-/
structure PlainTerm extends Term where
  noComma : ',' ∉ value
  noSpace : ∀ character ∈ value, isSpace character = false
  noEqual : value.head? ≠ some '='
deriving DecidableEq

def PlainTerm.text (term : PlainTerm) : List Char :=
  term.field ++ (term.operator.text ++ term.value)

/-- The term as the parser reads it, with the operator of SQL. -/
def PlainTerm.read (term : PlainTerm) : Term :=
  { term.toTerm with operator := operatorMap term.operator }

/-- Terms that hold together. -/
abbrev FilterGroup := Joined AndSeparator PlainTerm

def FilterGroup.text (group : FilterGroup) : List Char :=
  Joined.text AndSeparator.text PlainTerm.text group

/-- Groups of which one holds. -/
abbrev FilterExpression := Joined OrSeparator FilterGroup

def FilterExpression.text (expression : FilterExpression) : List Char :=
  Joined.text OrSeparator.text FilterGroup.text expression

/-! ## The characters of a term -/

theorem forall_mem_of_any {test : Char → Bool} {text : List Char}
    (fails : text.any test = false) :
    ∀ character ∈ text, test character = false := by
  intro character member
  exact Bool.eq_false_iff.mpr (List.any_eq_false.mp fails character member)

/-- The characters of which operators are made. -/
def isOperatorCharacter (character : Char) : Bool :=
  character = '=' || character = '!' || character = '<' || character = '>'

theorem Term.field_characters (term : Term) :
    ∀ character ∈ term.field, isFieldCharacter character = true := by
  have valid := term.valid
  simp only [isValidFieldName, Bool.and_eq_true, List.all_eq_true] at valid
  exact valid.2

theorem Term.field_ne_nil (term : Term) : term.field ≠ [] := by
  intro empty
  have valid := term.valid
  rw [empty] at valid
  cases valid

theorem isSpace_of_isFieldCharacter {character : Char}
    (allowed : isFieldCharacter character = true) :
    isSpace character = false := by
  have range :
      character.toNat = 46 ∨ 48 ≤ character.toNat ∧ character.toNat ≤ 122 := by
    simp only [isFieldCharacter, Bool.or_eq_true, Bool.and_eq_true,
      decide_eq_true_eq, Char.le_def, UInt32.le_iff_toNat_le] at allowed
    rcases allowed with (((⟨low, high⟩ | ⟨low, high⟩) | ⟨low, high⟩) | rfl) | rfl
    · exact Or.inr ⟨Nat.le_trans (by decide) low, Nat.le_trans high (by decide)⟩
    · exact Or.inr ⟨Nat.le_trans (by decide) low, Nat.le_trans high (by decide)⟩
    · exact Or.inr ⟨Nat.le_trans (by decide) low, Nat.le_trans high (by decide)⟩
    · exact Or.inr (by decide)
    · exact Or.inl rfl
  simp only [isSpace, Bool.or_eq_false_iff, Bool.and_eq_false_iff,
    decide_eq_false_iff_not]
  omega

/-- A text without blanks and commas that holds an operator character. -/
structure Bare (text : List Char) : Prop where
  noBlank : ' ' ∉ text
  noComma : ',' ∉ text
  operator : ∃ character ∈ text, isOperatorCharacter character = true

theorem Operator.text_bare (operator : Operator) : Bare operator.text := by
  cases operator <;> exact ⟨by decide, by decide, List.any_eq_true.mp rfl⟩

theorem PlainTerm.bare (term : PlainTerm) : Bare term.text := by
  have operatorBare := term.operator.text_bare
  have fieldExcludes {excluded : Char} (notField : isFieldCharacter excluded = false) :
      excluded ∉ term.field := by
    intro member
    cases (term.field_characters _ member).symm.trans notField
  constructor
  · simp only [text, List.mem_append, not_or]
    refine ⟨fieldExcludes (by decide), operatorBare.noBlank, ?_⟩
    intro member
    cases (term.noSpace _ member).symm.trans (by decide : isSpace ' ' = true)
  · simp only [text, List.mem_append, not_or]
    exact ⟨fieldExcludes (by decide), operatorBare.noComma, term.noComma⟩
  · rcases operatorBare.operator with ⟨character, member, isOperator⟩
    exact ⟨character, by simp [text, member], isOperator⟩

/-- A bare text is not the inside of a separator. -/
theorem not_isPrefixOf_bare {body piece : List Char} (bare : Bare piece)
    (plain : ∀ character ∈ body, isOperatorCharacter character = false)
    (rest : List Char) : (body ++ [' ']).isPrefixOf (piece ++ rest) = false := by
  induction piece generalizing body with
  | nil =>
      rcases bare.operator with ⟨character, member, _⟩
      cases member
  | cons character others ih =>
      have noBlank := bare.noBlank
      have noComma := bare.noComma
      simp only [List.mem_cons, not_or] at noBlank noComma
      cases body with
      | nil => simp [List.isPrefixOf, noBlank.1]
      | cons start body =>
          simp only [List.forall_mem_cons] at plain
          by_cases same : start = character
          · subst same
            have operator : ∃ other ∈ others, isOperatorCharacter other = true := by
              rcases bare.operator with ⟨other, member, isOperator⟩
              rcases List.mem_cons.mp member with rfl | later
              · cases isOperator.symm.trans plain.1
              · exact ⟨other, later, isOperator⟩
            simp [ih ⟨noBlank.2, noComma.2, operator⟩ plain.2]
          · simp [List.isPrefixOf, same]

/-! ## Cutting a rendered filter -/

theorem Bare.solid {text : List Char} (bare : Bare text) {start : Char}
    (separates : start = ' ' ∨ start = ',') (keyword : List Char) :
    Solid (start :: keyword) text := by
  intro rest
  rcases separates with rfl | rfl
  · exact clear_of_not_mem bare.noBlank keyword rest
  · exact clear_of_not_mem bare.noComma keyword rest

/-- A word between blanks. -/
def spaced (word : List Char) : List Char :=
  ' ' :: (word ++ [' '])

/--
A spaced word is clear of another one: they differ at their start, and the
bare text after the word does not complete an occurrence at its last blank.
-/
theorem clear_spaced (word other : List Char) {piece : List Char}
    (different : ∀ rest, (word ++ [' ']).isPrefixOf (other ++ rest) = false)
    (noBlank : ' ' ∉ other)
    (plain : word.any isOperatorCharacter = false)
    (bare : Bare piece) (rest : List Char) :
    Clear (spaced word) (spaced other) (piece ++ rest) := by
  refine ⟨?_, Clear.append (clear_of_not_mem noBlank _ _) ⟨?_, trivial⟩⟩
  · simpa [spaced, List.isPrefixOf] using different ([' '] ++ (piece ++ rest))
  · simpa [spaced, List.isPrefixOf] using
      not_isPrefixOf_bare bare (forall_mem_of_any plain) rest

def OrSeparator.word : OrSeparator → List Char
  | .or => ['O', 'R']
  | .bars => ['|', '|']

theorem OrSeparator.text_eq (separator : OrSeparator) :
    separator.text = spaced separator.word := by
  cases separator <;> rfl

section Cuts

variable {piece : List Char}

theorem OrSeparator.apart_bars {text : List Char} (bare : Bare piece)
    (starts : ∃ more, text = piece ++ more) :
    Apart OrSeparator.bars.text (OrSeparator.or.text, text) := by
  rcases starts with ⟨more, rfl⟩
  intro rest
  rw [List.append_assoc, text_eq, text_eq]
  exact clear_spaced _ _ (fun _ => rfl) (by decide) rfl bare _

/-- What separates terms is clear of what separates groups. -/
theorem AndSeparator.apart_or (separator : AndSeparator) (groups : OrSeparator)
    (bare : Bare piece) : Apart groups.text (separator.text, piece) := by
  intro rest
  have plain : groups.word.any isOperatorCharacter = false := by
    cases groups <;> rfl
  rw [groups.text_eq]
  cases separator with
  | comma => exact clear_of_not_mem (by decide : ' ' ∉ [',']) _ _
  | and =>
      refine clear_spaced _ ['A', 'N', 'D'] ?_ (by decide) plain bare rest
      cases groups <;> exact fun _ => rfl
  | ampersands =>
      refine clear_spaced _ ['&', '&'] ?_ (by decide) plain bare rest
      cases groups <;> exact fun _ => rfl

theorem FilterGroup.solid (group : FilterGroup) (separator : OrSeparator) :
    Solid separator.text (FilterGroup.text group) := by
  have terms (term : PlainTerm) : Solid separator.text term.text := by
    rw [separator.text_eq]
    exact term.bare.solid (Or.inl rfl) _
  refine solid_weave (terms group.first) ?_ ?_
  · intro pair member
    rcases List.mem_map.mp member with ⟨source, _, rfl⟩
    exact terms source.2
  · intro pair member
    rcases List.mem_map.mp member with ⟨source, _, rfl⟩
    exact source.1.apart_or separator source.2.bare

@[simp]
theorem splitOR_text (expression : FilterExpression) :
    splitOR (FilterExpression.text expression) =
      expression.items.map FilterGroup.text := by
  have replaced :
      replaceKeyword (FilterExpression.text expression) OrSeparator.bars.text
          OrSeparator.or.text =
        weave (FilterGroup.text expression.first)
          ((expression.rest.map (fun pair => FilterGroup.text pair.2)).map
            (fun group => (OrSeparator.or.text, group))) := by
    unfold FilterExpression.text Joined.text
    rw [replaceKeyword_weave (by decide) _ (expression.first.solid .bars), List.map_map,
      List.map_map]
    · congr 1
      refine List.map_congr_left (fun pair _ => ?_)
      rcases pair with ⟨separator, group⟩
      cases separator with
      | or =>
          exact congrArg (fun text => (text, FilterGroup.text group))
            (if_neg (show OrSeparator.or.text ≠ OrSeparator.bars.text by decide))
      | bars =>
          exact congrArg (fun text => (text, FilterGroup.text group)) (if_pos rfl)
    · intro pair member
      rcases List.mem_map.mp member with ⟨source, _, rfl⟩
      exact source.2.solid .bars
    · intro pair member
      rcases List.mem_map.mp member with ⟨source, _, rfl⟩
      cases separator : source.1 with
      | bars => exact Or.inl rfl
      | or =>
          exact Or.inr (OrSeparator.apart_bars source.2.first.bare
            (weave_eq_append _ _))
  change splitKeyword (replaceKeyword _ OrSeparator.bars.text OrSeparator.or.text)
    OrSeparator.or.text = _
  rw [replaced, splitKeyword_weave (by decide) (expression.first.solid .or)]
  · simp [Joined.items]
  · intro text member
    rcases List.mem_map.mp member with ⟨source, _, rfl⟩
    exact source.2.solid .or

/-- The separators of terms are clear of each other. -/
theorem AndSeparator.apart {keyword separator : AndSeparator}
    (spacedKeyword : keyword ≠ .comma) (different : separator ≠ keyword)
    (bare : Bare piece) : Apart keyword.text (separator.text, piece) := by
  intro rest
  cases keyword with
  | comma => exact absurd rfl spacedKeyword
  | and =>
      change Clear (spaced ['A', 'N', 'D']) _ _
      cases separator with
      | comma => exact clear_of_not_mem (by decide : ' ' ∉ [',']) _ _
      | and => exact absurd rfl different
      | ampersands =>
          exact clear_spaced _ ['&', '&'] (fun _ => rfl) (by decide) rfl bare
            rest
  | ampersands =>
      change Clear (spaced ['&', '&']) _ _
      cases separator with
      | comma => exact clear_of_not_mem (by decide : ' ' ∉ [',']) _ _
      | and =>
          exact clear_spaced _ ['A', 'N', 'D'] (fun _ => rfl) (by decide) rfl
            bare rest
      | ampersands => exact absurd rfl different

theorem AndSeparator.solid (separator : AndSeparator) (bare : Bare piece) :
    Solid separator.text piece := by
  cases separator with
  | comma => exact bare.solid (Or.inr rfl) []
  | and => exact bare.solid (Or.inl rfl) ['A', 'N', 'D', ' ']
  | ampersands => exact bare.solid (Or.inl rfl) ['&', '&', ' ']

theorem AndSeparator.text_injective {left right : AndSeparator}
    (same : left.text = right.text) : left = right := by
  cases left <;> cases right <;> first | rfl | exact absurd same (by decide)

/-- A separator once every keyword has become a comma. -/
def AndSeparator.toComma (keyword separator : AndSeparator) : AndSeparator :=
  if separator = keyword then .comma else separator

theorem AndSeparator.text_toComma (keyword separator : AndSeparator) :
    (keyword.toComma separator).text =
      if separator.text = keyword.text then ",".toList else separator.text := by
  by_cases same : separator = keyword
  · rw [toComma, if_pos same, if_pos (congrArg text same)]
    rfl
  · rw [toComma, if_neg same, if_neg (mt text_injective same)]

theorem replaceKeyword_terms {keyword : AndSeparator}
    (spacedKeyword : keyword ≠ .comma) (first : PlainTerm)
    (rest : List (AndSeparator × PlainTerm)) :
    replaceKeyword (FilterGroup.text ⟨first, rest⟩) keyword.text ",".toList =
      FilterGroup.text
        ⟨first, rest.map (fun pair => (keyword.toComma pair.1, pair.2))⟩ := by
  unfold FilterGroup.text Joined.text
  rw [replaceKeyword_weave _ _ (keyword.solid first.bare)]
  · simp only [List.map_map, Function.comp_def, AndSeparator.text_toComma]
  · intro pair member
    rcases List.mem_map.mp member with ⟨source, _, rfl⟩
    exact keyword.solid source.2.bare
  · intro pair member
    rcases List.mem_map.mp member with ⟨source, _, rfl⟩
    by_cases same : source.1 = keyword
    · exact Or.inl (congrArg AndSeparator.text same)
    · exact Or.inr (AndSeparator.apart spacedKeyword same source.2.bare)
  · cases keyword <;> decide

@[simp]
theorem splitAND_text (group : FilterGroup) :
    splitAND (FilterGroup.text group) = group.items.map PlainTerm.text := by
  rcases group with ⟨first, rest⟩
  change splitKeyword
    (replaceKeyword (replaceKeyword _ AndSeparator.and.text ",".toList)
      AndSeparator.ampersands.text ",".toList) AndSeparator.comma.text = _
  rw [replaceKeyword_terms (by decide), replaceKeyword_terms (by decide), List.map_map]
  have commas :
      (rest.map ((fun pair => (AndSeparator.ampersands.toComma pair.1, pair.2)) ∘
        fun pair => (AndSeparator.and.toComma pair.1, pair.2))) =
        rest.map (fun pair => (AndSeparator.comma, pair.2)) := by
    refine List.map_congr_left (fun pair _ => ?_)
    rcases pair with ⟨separator, term⟩
    cases separator <;> rfl
  rw [commas]
  unfold FilterGroup.text Joined.text
  have pieces :
      (rest.map (fun pair => (AndSeparator.comma, pair.2))).map
          (fun pair => (pair.1.text, pair.2.text)) =
        (rest.map (fun pair => pair.2.text)).map
          (fun piece => (AndSeparator.comma.text, piece)) := by
    simp [List.map_map, Function.comp_def]
  rw [pieces, splitKeyword_weave (by decide) (AndSeparator.comma.solid first.bare)]
  · simp [Joined.items]
  · intro text member
    rcases List.mem_map.mp member with ⟨source, _, rfl⟩
    exact AndSeparator.comma.solid source.2.bare

end Cuts

/-! ## Reading a term -/

theorem Operator.text_noSpace (operator : Operator) :
    ∀ character ∈ operator.text, isSpace character = false := by
  cases operator <;> exact forall_mem_of_any rfl

theorem PlainTerm.text_noSpace (term : PlainTerm) :
    ∀ character ∈ term.text, isSpace character = false := by
  intro character member
  simp only [text, List.mem_append] at member
  rcases member with inField | inOperator | inValue
  · exact isSpace_of_isFieldCharacter (term.field_characters _ inField)
  · exact term.operator.text_noSpace _ inOperator
  · exact term.noSpace _ inValue

/-- An operator that another one starts with, and what is missing in it. -/
theorem Operator.eq_or_text_eq {operator candidate : Operator}
    (starts : operator.text.isPrefixOf candidate.text = true) :
    candidate = operator ∨ candidate.text = operator.text ++ ['='] := by
  revert starts
  cases operator <;> cases candidate <;> decide

/-- Among the operators found at one place, the one written there is longest. -/
theorem isPrefixOf_operator {operator candidate : Operator} {value : List Char}
    (noEqual : value.head? ≠ some '=') (other : candidate ≠ operator)
    (found : candidate.text.isPrefixOf (operator.text ++ value) = true) :
    candidate.text.length < operator.text.length := by
  by_contra longer
  have candidatePrefix := List.isPrefixOf_iff_prefix.mp found
  have operatorPrefix : operator.text <+: candidate.text :=
    List.prefix_of_prefix_length_le (List.prefix_append _ _) candidatePrefix
      (Nat.le_of_not_lt longer)
  rcases Operator.eq_or_text_eq (List.isPrefixOf_iff_prefix.mpr operatorPrefix) with
    same | extended
  · exact other same
  · rw [extended, List.prefix_append_right_inj] at candidatePrefix
    rcases candidatePrefix with ⟨rest, rfl⟩
    exact noEqual rfl

theorem Operator.text_cons (operator : Operator) :
    ∃ start rest, operator.text = start :: rest ∧
      isFieldCharacter start = false := by
  cases operator <;> exact ⟨_, _, rfl, by decide⟩

/-- No operator starts in a field. -/
theorem Term.clear_operator (term : Term) (candidate : Operator)
    (rest : List Char) : Clear candidate.text term.field rest := by
  rcases candidate.text_cons with ⟨start, others, starts, notField⟩
  rw [starts]
  refine clear_of_not_mem (fun member => ?_) others rest
  cases (term.field_characters _ member).symm.trans notField

/-- Where an operator other than the written one may be found in a term. -/
theorem PlainTerm.index_other (term : PlainTerm) {candidate : Operator}
    (other : candidate ≠ term.operator) {position : Nat}
    (found : index candidate.text term.text = some position) :
    term.field.length < position ∨
      position = term.field.length ∧
        candidate.text.length < term.operator.text.length := by
  rw [PlainTerm.text, index_clear (term.clear_operator candidate _),
    Option.map_eq_some_iff] at found
  rcases found with ⟨offset, found, rfl⟩
  cases offset with
  | succ offset => exact Or.inl (by omega)
  | zero =>
      refine Or.inr ⟨by omega, isPrefixOf_operator term.noEqual other ?_⟩
      exact isPrefixOf_of_index found

/-- A place that is worse than the one where the operator is written. -/
def Worse (place : Nat) (operator : Operator) (best : Option (Nat × Operator)) :
    Prop :=
  ∀ position candidate, best = some (position, candidate) →
    place < position ∨
      position = place ∧ candidate.text.length < operator.text.length

section Best

variable {text : List Char} {place : Nat} {operator : Operator}

theorem worse_betterOperator {best : Option (Nat × Operator)} {candidate : Operator}
    (worse : Worse place operator best)
    (elsewhere : ∀ position, index candidate.text text = some position →
      place < position ∨
        position = place ∧ candidate.text.length < operator.text.length) :
    Worse place operator (betterOperator text best candidate) := by
  intro position chosen result
  unfold betterOperator at result
  split at result
  · exact worse position chosen result
  · next found =>
      cases result
      exact elsewhere position found
  · next found =>
      split at result
      · cases result
        exact elsewhere position found
      · exact worse position chosen result

theorem betterOperator_of_worse {best : Option (Nat × Operator)}
    (worse : Worse place operator best)
    (found : index operator.text text = some place) :
    betterOperator text best operator = some (place, operator) := by
  unfold betterOperator
  rw [found]
  rcases best with _ | ⟨position, candidate⟩
  · rfl
  · dsimp only
    rw [if_pos]
    rcases worse position candidate rfl with later | ⟨same, shorter⟩
    · exact Or.inl later
    · exact Or.inr ⟨same.symm, shorter⟩

theorem betterOperator_of_best {candidate : Operator}
    (elsewhere : ∀ position, index candidate.text text = some position →
      place < position ∨
        position = place ∧ candidate.text.length ≤ operator.text.length) :
    betterOperator text (some (place, operator)) candidate =
      some (place, operator) := by
  unfold betterOperator
  cases found : index candidate.text text with
  | none => rfl
  | some position =>
      dsimp only
      rw [if_neg]
      rcases elsewhere position found with later | ⟨same, shorter⟩ <;> omega

/-- The search settles on the operator that is written at the first place. -/
theorem foldl_betterOperator
    (found : index operator.text text = some place)
    (elsewhere : ∀ candidate, candidate ≠ operator →
      ∀ position, index candidate.text text = some position →
        place < position ∨
          position = place ∧ candidate.text.length < operator.text.length)
    {candidates : List Operator} {best : Option (Nat × Operator)}
    (reachable :
      best = some (place, operator) ∨
        Worse place operator best ∧ operator ∈ candidates) :
    candidates.foldl (betterOperator text) best = some (place, operator) := by
  induction candidates generalizing best with
  | nil =>
      rcases reachable with reached | ⟨_, member⟩
      · exact reached
      · cases member
  | cons candidate rest ih =>
      refine ih ?_
      by_cases same : candidate = operator
      · subst same
        refine Or.inl ?_
        rcases reachable with rfl | ⟨worse, _⟩
        · refine betterOperator_of_best (fun position again => ?_)
          cases found.symm.trans again
          exact Or.inr ⟨rfl, Nat.le_refl _⟩
        · exact betterOperator_of_worse worse found
      · rcases reachable with rfl | ⟨worse, member⟩
        · refine Or.inl (betterOperator_of_best (fun position again => ?_))
          rcases elsewhere candidate same position again with later | ⟨here, shorter⟩
          · exact Or.inl later
          · exact Or.inr ⟨here, Nat.le_of_lt shorter⟩
        · have later := (List.mem_cons.mp member).resolve_left (Ne.symm same)
          exact Or.inr
            ⟨worse_betterOperator worse (elsewhere candidate same), later⟩

end Best

theorem extractFieldOpValue_text (term : PlainTerm) :
    extractFieldOpValue term.text = .ok (term.field, term.operator, term.value) := by
  have found : index term.operator.text term.text = some term.field.length := by
    rw [PlainTerm.text, index_clear (term.clear_operator _ _), index_append]
    simp
  have settled :
      operators.foldl (betterOperator term.text) none =
        some (term.field.length, term.operator) := by
    have unsettled : Worse term.field.length term.operator none := by
      intro position candidate impossible
      cases impossible
    have tried : term.operator ∈ operators := by
      cases term.operator <;> decide
    exact foldl_betterOperator found
      (fun candidate other position => term.index_other other)
      (Or.inr ⟨unsettled, tried⟩)
  have field : term.text.take term.field.length = term.field := by
    simp [PlainTerm.text]
  have value :
      term.text.drop (term.field.length + term.operator.text.length) =
        term.value := by
    rw [PlainTerm.text, ← List.append_assoc, ← List.length_append,
      List.drop_left]
  rw [extractFieldOpValue, settled]
  dsimp only
  rw [field, value, trimSpace_of_forall term.noSpace, trimSpace_of_forall]
  intro character member
  exact isSpace_of_isFieldCharacter (term.field_characters _ member)

theorem parseTerm_text (term : PlainTerm) :
    parseTerm term.text = .ok term.read := by
  rw [parseTerm, extractFieldOpValue_text]
  dsimp only
  rw [if_neg term.field_ne_nil, dif_pos term.valid]
  rfl

/-! ## Reading a filter -/

/-- Items whose texts are all read, each as what it stands for. -/
theorem mapM_texts {Item Output : Type}
    {parse : List Char → Except FilterError Output} {text : Item → List Char}
    {output : Item → Output}
    (each : ∀ item, parse (text item) = .ok (output item)) (items : List Item) :
    (items.map text).mapM parse = .ok (items.map output) := by
  induction items with
  | nil => rfl
  | cons item rest ih =>
      rw [List.map_cons, List.mapM_cons, each item, ih]
      rfl

theorem PlainTerm.text_ne_nil (term : PlainTerm) : term.text ≠ [] := by
  intro empty
  exact term.field_ne_nil (List.append_eq_nil_iff.mp empty).1

@[simp]
theorem FilterGroup.text_trimmed (group : FilterGroup) :
    trimSpace (FilterGroup.text group) = FilterGroup.text group := by
  refine trimSpace_eq ?_ ?_
  · rcases weave_eq_append group.first.text
      (group.rest.map (fun pair => (pair.1.text, pair.2.text))) with ⟨more, joined⟩
    intro character head
    rw [show FilterGroup.text group = group.first.text ++ more from joined,
      List.head?_append_of_ne_nil _ group.first.text_ne_nil] at head
    exact group.first.text_noSpace _ (List.mem_of_mem_head? head)
  · intro character last
    have nonempty :
        ∀ pair ∈ group.rest.map (fun pair => (pair.1.text, pair.2.text)),
          pair.2 ≠ [] := by
      intro pair member
      rcases List.mem_map.mp member with ⟨source, _, rfl⟩
      exact source.2.text_ne_nil
    rcases getLast?_weave nonempty last with ⟨piece, member, inside⟩
    simp only [List.map_map, List.mem_cons, List.mem_map] at member
    rcases member with rfl | ⟨source, _, rfl⟩
    · exact group.first.text_noSpace _ inside
    · exact source.2.text_noSpace _ inside

@[simp]
theorem parseGroup_text (group : FilterGroup) :
    parseGroup (FilterGroup.text group) =
      .ok (group.items.map PlainTerm.read) := by
  have texts :
      ((group.items.map PlainTerm.text).map trimSpace).filter
          (fun term => !term.isEmpty) =
        group.items.map PlainTerm.text := by
    have trimmed :
        (group.items.map PlainTerm.text).map trimSpace =
          group.items.map PlainTerm.text := by
      rw [List.map_map]
      exact List.map_congr_left
        (fun term _ => trimSpace_of_forall term.text_noSpace)
    rw [trimmed, List.filter_eq_self]
    intro text member
    rcases List.mem_map.mp member with ⟨term, _, rfl⟩
    simp [term.text_ne_nil]
  rw [parseGroup, FilterGroup.text_trimmed, splitAND_text, texts]
  exact mapM_texts parseTerm_text group.items

/-- The terms of an expression, grouped and as the parser reads them. -/
def FilterExpression.condition (expression : FilterExpression) : Condition :=
  expression.items.map (fun group => group.items.map PlainTerm.read)

theorem FilterExpression.text_ne_nil (expression : FilterExpression) :
    FilterExpression.text expression ≠ [] := by
  intro empty
  have groups := weave_eq_append (FilterGroup.text expression.first)
    (expression.rest.map (fun pair => (pair.1.text, FilterGroup.text pair.2)))
  have terms := weave_eq_append expression.first.first.text
    (expression.first.rest.map (fun pair => (pair.1.text, pair.2.text)))
  rcases groups with ⟨moreGroups, joinedGroups⟩
  rcases terms with ⟨moreTerms, joinedTerms⟩
  have noGroup := (List.append_eq_nil_iff.mp (joinedGroups.symm.trans empty)).1
  exact expression.first.first.text_ne_nil
    (List.append_eq_nil_iff.mp (joinedTerms.symm.trans noGroup)).1

/-- The parser finds the groups and terms that were rendered. -/
@[simp]
theorem parseFilter_text (expression : FilterExpression) :
    parseFilter (String.ofList (FilterExpression.text expression)) =
      .ok (FilterExpression.condition expression) := by
  have nonempty : String.ofList (FilterExpression.text expression) ≠ "" := by
    intro empty
    have nothing := congrArg String.toList empty
    rw [String.toList_ofList] at nothing
    exact expression.text_ne_nil nothing
  rw [parseFilter, if_neg nonempty, String.toList_ofList, splitOR_text,
    mapM_texts parseGroup_text expression.items]
  simp only [Except.map]
  refine congrArg _ (List.filter_eq_self.mpr ?_)
  intro group member
  rcases List.mem_map.mp member with ⟨source, _, rfl⟩
  simp [Joined.items]

end Infractl.Store
