import Infractl.Lib.GoJson

/-!
# Decoding into an interface

A document that is decoded into a place of type `interface{}` replaces what is
stored there by one of JSON's own values: nil, a bool, a float64, a string, a
slice or a map.  Such a value is given here by the document that is printed of
it, whose objects have each key once, in order, and whose numbers are the
shortest literals of a float64.  `Doc.plain` gives this document for the one
that is decoded.
-/

namespace Infractl.Lib.GoJson

/-- How a float64 that was read from a literal is printed, unless it is too large. -/
structure FloatText where
  print : String → Option String
  print_print : ∀ literal printed, print literal = some printed →
    print printed = some printed

/-- Put a member before later ones, which win, in the order of the keys. -/
def addMember (key : String) (item : Doc) : List (String × Doc) → List (String × Doc)
  | [] => [(key, item)]
  | (other, later) :: rest =>
      if key < other then (key, item) :: (other, later) :: rest
      else if key = other then (other, later) :: rest
      else (other, later) :: addMember key item rest

namespace Doc

def isNull : Doc → Bool
  | .null => true
  | _ => false

variable (floats : FloatText)

mutual

/-- The document of what `interface{}` holds once a document was decoded. -/
def plain : Doc → Option Doc
  | .null => some .null
  | .bool value => some (.bool value)
  | .number literal => (floats.print literal).map .number
  | .string text => some (.string text)
  | .array items => (plainItems items).map .array
  | .object members => (plainMembers members).map .object

def plainItems : List Doc → Option (List Doc)
  | [] => some []
  | item :: rest => (plain item).bind fun item => (plainItems rest).map (item :: ·)

def plainMembers : List (String × Doc) → Option (List (String × Doc))
  | [] => some []
  | (key, item) :: rest =>
      (plain item).bind fun item => (plainMembers rest).map (addMember key item)

end

/-- Members in the order of their keys, whose values are plain. -/
structure PlainMembers (members : List (String × Doc)) : Prop where
  ordered : members.Pairwise fun left right => left.1 < right.1
  plain : ∀ member ∈ members, member.2.plain floats = some member.2

variable {floats}

theorem mem_addMember {key : String} {item : Doc} {members : List (String × Doc)}
    {member : String × Doc} (isMember : member ∈ addMember key item members) :
    member = (key, item) ∨ member ∈ members := by
  fun_induction addMember key item members <;> grind

theorem ordered_addMember (key : String) (item : Doc) {members : List (String × Doc)}
    (ordered : members.Pairwise fun left right => left.1 < right.1) :
    (addMember key item members).Pairwise fun left right => left.1 < right.1 := by
  induction members with
  | nil => exact List.pairwise_singleton ..
  | cons first rest ih =>
      rcases List.pairwise_cons.mp ordered with ⟨least, others⟩
      rw [addMember]
      split
      · next smaller =>
        refine List.pairwise_cons.mpr ⟨?_, ordered⟩
        intro member isMember
        rcases List.mem_cons.mp isMember with rfl | later
        · exact smaller
        · exact lt_trans smaller (least member later)
      · split
        · exact ordered
        · next notSmaller different =>
          refine List.pairwise_cons.mpr ⟨?_, ih others⟩
          intro member isMember
          rcases mem_addMember isMember with rfl | later
          · exact lt_of_le_of_ne (le_of_not_gt notSmaller) (Ne.symm different)
          · exact least member later

theorem addMember_of_least {key : String} {item : Doc} {members : List (String × Doc)}
    (least : ∀ member ∈ members, key < member.1) :
    addMember key item members = (key, item) :: members := by
  cases members with
  | nil => rfl
  | cons first rest => exact if_pos (least first List.mem_cons_self)

theorem PlainMembers.plainMembers_eq {members : List (String × Doc)}
    (plain : PlainMembers floats members) :
    plainMembers floats members = some members := by
  induction members with
  | nil => rfl
  | cons first rest ih =>
      rcases List.pairwise_cons.mp plain.ordered with ⟨least, others⟩
      have fixed := ih ⟨others, fun member later =>
        plain.plain member (List.mem_cons_of_mem _ later)⟩
      rw [plainMembers, plain.plain first List.mem_cons_self, Option.bind_some, fixed,
        Option.map_some, addMember_of_least least]

mutual

/-- What `interface{}` holds is printed and read as itself. -/
theorem plain_plain : {doc after : Doc} → doc.plain floats = some after →
    after.plain floats = some after
  | .null, _, done | .bool _, _, done | .string _, _, done => by
      cases done
      rfl
  | .number literal, _, done => by
      rcases Option.map_eq_some_iff.mp done with ⟨printed, prints, rfl⟩
      rw [plain, floats.print_print literal printed prints, Option.map_some]
  | .array _, _, done => by
      rcases Option.map_eq_some_iff.mp done with ⟨items, fixed, rfl⟩
      rw [plain, plainItems_plainItems fixed, Option.map_some]
  | .object _, _, done => by
      rcases Option.map_eq_some_iff.mp done with ⟨members, fixed, rfl⟩
      rw [plain, (plainMembers_plainMembers fixed).plainMembers_eq, Option.map_some]

theorem plainItems_plainItems : {items after : List Doc} →
    plainItems floats items = some after → plainItems floats after = some after
  | [], _, done => by
      cases done
      rfl
  | _ :: _, _, done => by
      rcases Option.bind_eq_some_iff.mp done with ⟨item, first, others⟩
      rcases Option.map_eq_some_iff.mp others with ⟨rest, later, rfl⟩
      rw [plainItems, plain_plain first, Option.bind_some, plainItems_plainItems later,
        Option.map_some]

theorem plainMembers_plainMembers : {members after : List (String × Doc)} →
    plainMembers floats members = some after → PlainMembers floats after
  | [], _, done => by
      cases done
      exact ⟨List.Pairwise.nil, List.forall_mem_nil _⟩
  | (key, _) :: _, _, done => by
      rcases Option.bind_eq_some_iff.mp done with ⟨item, first, others⟩
      rcases Option.map_eq_some_iff.mp others with ⟨rest, later, rfl⟩
      have sorted := plainMembers_plainMembers later
      refine ⟨ordered_addMember key item sorted.ordered, ?_⟩
      intro member isMember
      rcases mem_addMember isMember with rfl | behind
      · exact plain_plain first
      · exact sorted.plain member behind

end

/-- The documents that are printed of JSON's own values. -/
def Plain (floats : FloatText) : Type :=
  { doc : Doc // doc.plain floats = some doc }

@[simp]
theorem plain_null : plain floats .null = some .null :=
  rfl

/-- Decode into a variable of interface type. -/
def decodePlain (floats : FloatText) (doc : Doc) : Option (Plain floats) :=
  (doc.plain floats).pmap Subtype.mk fun _ => plain_plain

theorem decodePlain_val (value : Plain floats) :
    decodePlain floats value.1 = some value :=
  Option.pmap_eq_some_iff.mpr ⟨value.1, value.2, value.2, rfl⟩

end Doc

/--
`interface{}` over JSON's own values, each as the document that is printed of
it.  Nothing is decoded into what was stored, and nil is a null.
-/
def interfaceKind (floats : FloatText) : Scalar where
  Carrier := Doc.Plain floats
  zero := ⟨.null, Doc.plain_null⟩
  isEmpty value := value.1.isNull
  encode := Subtype.val
  decode _ := Doc.decodePlain floats
  decode_encode value _ := Doc.decodePlain_val value

end Infractl.Lib.GoJson
