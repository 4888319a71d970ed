import Infractl.Store.Filter

/-!
# The clause of a filter

`Clause.parseFilter` is `ParseFilter` with its accumulators: it collects the
texts of the terms group by group, and the arguments across all groups.  It
agrees with the structured parser, which keeps the terms themselves, so that
its clause is the print of the parsed terms and the values are found among the
arguments only.

The grammar of a clause is stated on texts.  A clause that `ParseFilter`
returns has one placeholder per argument, and nothing of the filter but its
field names and operators shows in it.

A Go string may hold bytes that encode no character.  Such a byte is neither
white space nor part of a keyword, an operator or a valid name, and behaves in
all of this like any other character that is none of these.
-/

namespace Infractl.Store

namespace Clause

/-! ## The loops of the source -/

/-- `parseTerm`: the text of a comparison, and the value it is to be bound to. -/
def parseTerm (term : List Char) :
    Except FilterError (List Char × List Char) :=
  match extractFieldOpValue term with
  | .error error => .error error
  | .ok (field, operator, value) =>
      if field = [] then .error (.emptyFieldName term)
      else if isValidFieldName field = false then
        .error (.invalidFieldName term field)
      else
        .ok
          (fieldToSQL field ++ [' '] ++ (operatorMap operator).text ++ " ?".toList,
            value)

/-- The inner loop: the texts of a group's terms, and all arguments so far. -/
def andTerms (andClauses args : List (List Char)) :
    List (List Char) →
      Except FilterError (List (List Char) × List (List Char))
  | [] => .ok (andClauses, args)
  | text :: rest =>
      let term := trimSpace text
      if term = [] then andTerms andClauses args rest
      else
        match parseTerm term with
        | .error error => .error error
        | .ok (clause, value) =>
            andTerms (andClauses ++ [clause]) (args ++ [value]) rest

/-- The text of a group, which is its only term's where there is only one. -/
def joinTerms : List (List Char) → List Char
  | [clause] => clause
  | andClauses => " AND ".toList.intercalate andClauses

/-- The outer loop: the texts of the groups, and all arguments so far. -/
def orGroups (orClauses args : List (List Char)) :
    List (List Char) →
      Except FilterError (List (List Char) × List (List Char))
  | [] => .ok (orClauses, args)
  | text :: rest =>
      let group := trimSpace text
      if group = [] then orGroups orClauses args rest
      else
        match andTerms [] args (splitAND group) with
        | .error error => .error error
        | .ok ([], args) => orGroups orClauses args rest
        | .ok (andClauses, args) =>
            orGroups (orClauses ++ [joinTerms andClauses]) args rest

/-- The three results of `ParseFilter`. -/
structure Parsed where
  clause : List Char
  args : List (List Char)
  err : Option FilterError
deriving DecidableEq

/-- The clause of the collected groups, each in parentheses if there are more. -/
def joinGroups (args : List (List Char)) : List (List Char) → Parsed
  | [] => ⟨[], [], none⟩
  | [clause] => ⟨clause, args, none⟩
  | orClauses =>
      ⟨" OR ".toList.intercalate
          (orClauses.map (fun clause => "(".toList ++ clause ++ ")".toList)),
        args, none⟩

/-- `ParseFilter`. -/
def parseFilter (expr : String) : Parsed :=
  if expr = "" then ⟨[], [], none⟩
  else
    match orGroups [] [] (splitOR expr.toList) with
    | .error error => ⟨[], [], some error⟩
    | .ok (orClauses, args) => joinGroups args orClauses

/-! ## Agreement with the structured parser -/

theorem parseTerm_eq (term : List Char) :
    parseTerm term =
      (Store.parseTerm term).map (fun parsed => (parsed.clause, parsed.value)) := by
  unfold parseTerm Store.parseTerm
  rcases extractFieldOpValue term with error | ⟨field, operator, value⟩
  · rfl
  · dsimp only
    by_cases empty : field = []
    · rw [if_pos empty, if_pos empty]
      rfl
    · rw [if_neg empty, if_neg empty]
      by_cases valid : isValidFieldName field = true
      · rw [if_neg (by simp [valid]), dif_pos valid]
        rfl
      · rw [if_pos (by simpa using valid), dif_neg valid]
        rfl

/-- The texts of one group that are looked at. -/
def termTexts (texts : List (List Char)) : List (List Char) :=
  (texts.map trimSpace).filter (fun term => !term.isEmpty)

theorem termTexts_cons (text : List Char) (rest : List (List Char)) :
    termTexts (text :: rest) =
      if trimSpace text = [] then termTexts rest
      else trimSpace text :: termTexts rest := by
  by_cases empty : trimSpace text = [] <;> simp [termTexts, empty]

/-- The inner loop adds the terms it parses to both accumulators. -/
theorem andTerms_eq (texts andClauses args : List (List Char)) :
    andTerms andClauses args texts =
      ((termTexts texts).mapM Store.parseTerm).map (fun terms =>
        (andClauses ++ terms.map Term.clause, args ++ terms.map Term.value)) := by
  induction texts generalizing andClauses args with
  | nil => simp [andTerms, termTexts, Except.map, pure, Except.pure]
  | cons text rest ih =>
      rw [andTerms, termTexts_cons]
      by_cases empty : trimSpace text = []
      · rw [if_pos empty, if_pos empty, ih]
      · rw [if_neg empty, if_neg empty, parseTerm_eq, List.mapM_cons]
        cases Store.parseTerm (trimSpace text) with
        | error error => rfl
        | ok term =>
            simp only [Except.map, ih]
            cases (termTexts rest).mapM Store.parseTerm with
            | error error => rfl
            | ok terms => simp [bind, Except.bind, pure, Except.pure]

@[simp]
theorem joinTerms_map_clause (terms : List Term) :
    joinTerms (terms.map Term.clause) = groupClause terms := by
  match terms with
  | [] => rfl
  | [term] => simp [joinTerms, groupClause]
  | first :: second :: rest => rfl

theorem parseGroup_of_blank {text : List Char} (blank : trimSpace text = []) :
    parseGroup text = .ok [] := by
  rw [parseGroup, blank]
  rfl

/-- The outer loop adds the groups that have a term. -/
theorem orGroups_eq (texts orClauses args : List (List Char)) :
    orGroups orClauses args texts =
      (texts.mapM parseGroup).map (fun groups =>
        (orClauses ++
            (groups.filter (fun group => !group.isEmpty)).map groupClause,
          args ++ groups.flatten.map Term.value)) := by
  induction texts generalizing orClauses args with
  | nil => simp [orGroups, Except.map, pure, Except.pure]
  | cons text rest ih =>
      rw [orGroups, List.mapM_cons]
      by_cases blank : trimSpace text = []
      · rw [if_pos blank, parseGroup_of_blank blank, ih]
        cases rest.mapM parseGroup with
        | error error => rfl
        | ok groups => simp [Except.map, bind, Except.bind, pure, Except.pure]
      · rw [if_neg blank, andTerms_eq]
        change _ =
          Except.map _ (((termTexts (splitAND (trimSpace text))).mapM
            Store.parseTerm) >>= _)
        cases (termTexts (splitAND (trimSpace text))).mapM Store.parseTerm with
        | error error => rfl
        | ok terms =>
            cases terms with
            | nil =>
                simp only [Except.map, List.map_nil, List.append_nil, ih]
                cases rest.mapM parseGroup with
                | error error => rfl
                | ok groups => simp [bind, Except.bind, pure, Except.pure]
            | cons term terms =>
                simp only [Except.map, List.map_cons, List.nil_append, ih]
                rw [← List.map_cons, joinTerms_map_clause]
                cases rest.mapM parseGroup with
                | error error => rfl
                | ok groups => simp [bind, Except.bind, pure, Except.pure]

theorem flatten_filter_nonempty (groups : List (List Term)) :
    (groups.filter (fun group => !group.isEmpty)).flatten = groups.flatten := by
  induction groups with
  | nil => rfl
  | cons group rest ih =>
      cases group with
      | nil => simpa using ih
      | cons term terms => simpa using ih

@[simp]
theorem joinGroups_eq {condition : Condition} :
    joinGroups condition.arguments (condition.map groupClause) =
      ⟨condition.clause, condition.arguments, none⟩ := by
  match condition with
  | [] => rfl
  | [group] => rfl
  | first :: second :: rest =>
      simp [joinGroups, Condition.clause, Function.comp_def]

/-- The loops return the print of what the structured parser finds. -/
theorem parseFilter_eq (expr : String) :
    parseFilter expr =
      match Store.parseFilter expr with
      | .error error => ⟨[], [], some error⟩
      | .ok condition => ⟨condition.clause, condition.arguments, none⟩ := by
  unfold parseFilter Store.parseFilter
  by_cases empty : expr = ""
  · rw [if_pos empty, if_pos empty]
    rfl
  · rw [if_neg empty, if_neg empty, orGroups_eq]
    cases (splitOR expr.toList).mapM parseGroup with
    | error error => rfl
    | ok groups =>
        simp only [Except.map, List.nil_append]
        rw [← flatten_filter_nonempty]
        exact joinGroups_eq

/-! ## The grammar of a clause -/

/-- The characters of a name. -/
def NameCharacter (character : Char) : Prop :=
  character.isAlphanum = true ∨ character = '_' ∨ character = '.'

/-- A name, or the accessor of a key in one of the two JSONB columns. -/
inductive FieldText : List Char → Prop where
  | name {text : List Char} (nonempty : 1 ≤ text.length)
      (short : text.length ≤ 64)
      (characters : ∀ character ∈ text, NameCharacter character) :
      FieldText text
  | labelKey {key : List Char}
      (characters : ∀ character ∈ key, NameCharacter character) :
      FieldText ("labels->>'".toList ++ key ++ "'".toList)
  | annotationKey {key : List Char}
      (characters : ∀ character ∈ key, NameCharacter character) :
      FieldText ("annotations->>'".toList ++ key ++ "'".toList)

def operatorTexts : List (List Char) :=
  ["=", "!=", "<", ">", "<=", ">="].map String.toList

/-- A field, an operator and a placeholder. -/
inductive TermText : List Char → Prop where
  | compare {field operator : List Char} (accessed : FieldText field)
      (known : operator ∈ operatorTexts) :
      TermText (field ++ " ".toList ++ operator ++ " ?".toList)

/-- At least one term, joined by `AND`. -/
inductive GroupText : List Char → Prop where
  | join {terms : List (List Char)} (nonempty : terms ≠ [])
      (each : ∀ term ∈ terms, TermText term) :
      GroupText (" AND ".toList.intercalate terms)

/-- One group as it is, or more of them in parentheses, joined by `OR`. -/
inductive ClauseText : List Char → Prop where
  | group {text : List Char} (only : GroupText text) : ClauseText text
  | groups {texts : List (List Char)} (several : 2 ≤ texts.length)
      (each : ∀ text ∈ texts, GroupText text) :
      ClauseText
        (" OR ".toList.intercalate
          (texts.map (fun text => "(".toList ++ text ++ ")".toList)))

@[simp]
theorem isFieldCharacter_iff (character : Char) :
    isFieldCharacter character = true ↔ NameCharacter character := by
  delta isFieldCharacter NameCharacter Char.isAlphanum Char.isAlpha Char.isLower
    Char.isUpper Char.isDigit
  simp only [Char.le_def, Bool.or_eq_true, Bool.and_eq_true, decide_eq_true_eq]
  tauto

theorem isValidFieldName_iff (name : List Char) :
    isValidFieldName name = true ↔
      1 ≤ name.length ∧ name.length ≤ 64 ∧
        ∀ character ∈ name, NameCharacter character := by
  simp [isValidFieldName, Nat.one_le_iff_ne_zero, and_assoc]

theorem fieldText_of_valid {field : List Char}
    (valid : isValidFieldName field = true) : FieldText (fieldToSQL field) := by
  rcases (isValidFieldName_iff field).mp valid with ⟨nonempty, short, characters⟩
  have keyCharacters (count : Nat) :
      ∀ character ∈ field.drop count, NameCharacter character :=
    fun character member => characters character (List.mem_of_mem_drop member)
  unfold fieldToSQL
  split
  · exact .labelKey (keyCharacters _)
  · split
    · exact .annotationKey (keyCharacters _)
    · exact .name nonempty short characters

/-- A term as the parser builds it, its operator being one of SQL. -/
def Normal (term : Term) : Prop :=
  term.operator ≠ .doubleEqual

theorem termText_of_normal {term : Term} (normal : Normal term) :
    TermText term.clause := by
  refine .compare (fieldText_of_valid term.valid) ?_
  unfold Normal at normal
  cases operator : term.operator with
  | doubleEqual => exact absurd operator normal
  | _ => decide

theorem groupText_of_normal {group : List Term} (nonempty : group ≠ [])
    (normal : ∀ term ∈ group, Normal term) : GroupText (groupClause group) := by
  refine .join (by simpa using nonempty) ?_
  intro text member
  rcases List.mem_map.mp member with ⟨term, termMember, rfl⟩
  exact termText_of_normal (normal term termMember)

/-- What the parser finds: groups with terms, all of them normal. -/
def Tidy (condition : Condition) : Prop :=
  ∀ group ∈ condition, group ≠ [] ∧ ∀ term ∈ group, Normal term

theorem clauseText_of_tidy {condition : Condition} (nonempty : condition ≠ [])
    (tidy : Tidy condition) : ClauseText condition.clause := by
  have each : ∀ text ∈ condition.map groupClause, GroupText text := by
    intro text member
    rcases List.mem_map.mp member with ⟨group, groupMember, rfl⟩
    exact groupText_of_normal (tidy group groupMember).1 (tidy group groupMember).2
  match condition with
  | [] => exact absurd rfl nonempty
  | [group] => exact .group (each _ (List.mem_singleton_self _))
  | first :: second :: rest =>
      have shown := ClauseText.groups (by simp) each
      rwa [List.map_map] at shown

section Parsing

variable {α β : Type} {parse : α → Except FilterError β}

/-- What holds of every single result holds of all of them. -/
theorem forall_mem_mapM {property : β → Prop}
    (each : ∀ input output, parse input = .ok output → property output)
    {inputs : List α} {outputs : List β}
    (parsed : inputs.mapM parse = .ok outputs) :
    ∀ output ∈ outputs, property output := by
  induction inputs generalizing outputs with
  | nil =>
      cases parsed
      simp
  | cons input rest ih =>
      rw [List.mapM_cons] at parsed
      cases first : parse input with
      | error error =>
          rw [first] at parsed
          cases parsed
      | ok head =>
          rw [first] at parsed
          cases others : rest.mapM parse with
          | error error =>
              rw [others] at parsed
              cases parsed
          | ok tail =>
              rw [others] at parsed
              cases parsed
              simp only [List.forall_mem_cons]
              exact ⟨each input head first, ih others⟩

end Parsing

theorem normal_of_parseTerm (text : List Char) (term : Term)
    (parsed : Store.parseTerm text = .ok term) : Normal term := by
  unfold Store.parseTerm at parsed
  split at parsed
  · cases parsed
  · next field operator value _ =>
      split at parsed
      · cases parsed
      · split at parsed
        · cases parsed
          cases operator <;> simp [Normal, operatorMap]
        · cases parsed

theorem tidy_of_parseFilter {expr : String} {condition : Condition}
    (parsed : Store.parseFilter expr = .ok condition) : Tidy condition := by
  unfold Store.parseFilter at parsed
  split at parsed
  · cases parsed
    simp [Tidy]
  · cases groups : (splitOR expr.toList).mapM parseGroup with
    | error error =>
        rw [groups] at parsed
        cases parsed
    | ok found =>
        rw [groups] at parsed
        cases parsed
        intro group member
        rcases List.mem_filter.mp member with ⟨foundMember, nonempty⟩
        have normal : ∀ other ∈ found, ∀ term ∈ other, Normal term :=
          forall_mem_mapM
            (fun _ _ done => forall_mem_mapM normal_of_parseTerm done) groups
        exact ⟨by simpa using nonempty, normal group foundMember⟩

/-! ## Placeholders -/

theorem count_intercalate {character : Char} {separator : List Char}
    (absent : separator.count character = 0) (texts : List (List Char)) :
    (separator.intercalate texts).count character =
      texts.flatten.count character := by
  match texts with
  | [] => rfl
  | [text] => simp
  | first :: second :: rest =>
      rw [List.intercalate_cons_cons, List.count_append, List.count_append, absent,
        count_intercalate absent (second :: rest), Nat.add_zero]
      exact List.count_append.symm

theorem count_placeholder_name {text : List Char}
    (characters : ∀ character ∈ text, NameCharacter character) :
    text.count '?' = 0 := by
  refine List.count_eq_zero.mpr (fun member => ?_)
  have impossible := (isFieldCharacter_iff '?').mpr (characters '?' member)
  exact absurd impossible (by decide)

theorem count_placeholder_field {text : List Char} (field : FieldText text) :
    text.count '?' = 0 := by
  cases field with
  | name _ _ characters => exact count_placeholder_name characters
  | labelKey characters => simp [count_placeholder_name characters]
  | annotationKey characters => simp [count_placeholder_name characters]

theorem count_placeholder_term (term : Term) : term.clause.count '?' = 1 := by
  have operator : term.operator.text.count '?' = 0 := by
    cases term.operator <;> decide
  simp [Term.clause, List.count_append, operator,
    count_placeholder_field (fieldText_of_valid term.valid)]

@[simp]
theorem count_placeholder_group (group : List Term) :
    (groupClause group).count '?' = group.length := by
  rw [groupClause, count_intercalate (by decide), List.count_flatten,
    List.map_map]
  simp [Function.comp_def, count_placeholder_term]

theorem count_placeholder (condition : Condition) :
    condition.clause.count '?' = condition.arguments.length := by
  match condition with
  | [] => rfl
  | [group] => simp [Condition.clause, Condition.arguments]
  | first :: second :: rest =>
      change (" OR ".toList.intercalate
        ((first :: second :: rest).map _)).count '?' = _
      rw [count_intercalate (by decide), List.count_flatten, List.map_map]
      simp [Condition.arguments, Function.comp_def, List.count_append]

/-! ## Fields and operators -/

/-- The fields and operators of a filter, grouped as its terms are. -/
abbrev Shape := List (List (List Char × Operator))

/-- The fields and operators that an expression is parsed to. -/
def shapeOf (expr : String) : Shape :=
  match Store.parseFilter expr with
  | .error _ => []
  | .ok condition =>
      condition.map (fun group =>
        group.map (fun term => (term.field, term.operator)))

/-- The texts of a group, from its fields and operators. -/
def Shape.group (pairs : List (List Char × Operator)) : List Char :=
  " AND ".toList.intercalate
    (pairs.map (fun pair =>
      fieldToSQL pair.1 ++ " ".toList ++ pair.2.text ++ " ?".toList))

/-- A clause, from the fields and operators in it. -/
def Shape.clause : Shape → List Char
  | [] => []
  | [pairs] => Shape.group pairs
  | groups =>
      " OR ".toList.intercalate
        (groups.map (fun pairs =>
          "(".toList ++ Shape.group pairs ++ ")".toList))

theorem groupClause_eq (group : List Term) :
    groupClause group =
      Shape.group (group.map (fun term => (term.field, term.operator))) := by
  rw [Shape.group, List.map_map]
  rfl

theorem clause_eq_of_shape {expr : String} {condition : Condition}
    (parsed : Store.parseFilter expr = .ok condition) :
    condition.clause = (shapeOf expr).clause := by
  simp only [shapeOf, parsed]
  match condition with
  | [] => rfl
  | [group] => exact groupClause_eq group
  | first :: second :: rest =>
      simp [Condition.clause, Shape.clause, groupClause_eq, Function.comp_def]

/--
A filter that `ParseFilter` accepts gives no clause and no arguments, or a
clause of the grammar; its placeholders are as many as its arguments, and it is
printed from the fields and operators of the filter alone.  A filter that is
refused gives no clause and no arguments.
-/
theorem parseFilter_injection_free (expr : String) :
    ((parseFilter expr).err = none →
        ((parseFilter expr).clause = [] ∧ (parseFilter expr).args = [] ∨
            ClauseText (parseFilter expr).clause) ∧
          (parseFilter expr).clause.count '?' = (parseFilter expr).args.length ∧
          (parseFilter expr).clause = (shapeOf expr).clause) ∧
      ((parseFilter expr).err ≠ none →
        (parseFilter expr).clause = [] ∧ (parseFilter expr).args = []) := by
  rw [parseFilter_eq]
  cases parsed : Store.parseFilter expr with
  | error error =>
      refine ⟨?_, fun _ => ⟨rfl, rfl⟩⟩
      intro accepted
      cases accepted
  | ok condition =>
      refine ⟨fun _ => ⟨?_, count_placeholder condition, clause_eq_of_shape parsed⟩,
        fun refused => absurd rfl refused⟩
      by_cases nonempty : condition = []
      · subst nonempty
        exact Or.inl ⟨rfl, rfl⟩
      · exact Or.inr (clauseText_of_tidy nonempty (tidy_of_parseFilter parsed))

example :
    (parseFilter "name=a,labels.rack!=? OR kind==b").clause =
      "(name = ? AND labels->>'rack' != ?) OR (kind = ?)".toList := by
  decide

end Clause

end Infractl.Store
