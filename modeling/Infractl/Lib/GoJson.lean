import Mathlib.Data.String.Basic
import Infractl.Lib.FiniteMap

/-!
# Decoding into memory

A decoder that is given a place to decode into may find something there.  What
it does with it depends on the type: a map keeps its keys and gets those of the
document, a struct keeps the fields that the document does not name, the items
of a slice are decoded into the items that are stored, and then into what is
left behind them up to the capacity of the slice.

`GoType` describes the types, `Value` their values and `Memory` what may be
stored at a place of a type.  `Restores` says of a value and a memory that the
value survives being encoded and decoded into the memory, and
`unmarshal_marshal` that this is what it says.  Documents are trees here; their
texts do not matter.
-/

namespace Infractl.Lib.GoJson

/-! ## Documents and types -/

/-- A JSON document; the literal of a number is kept. -/
inductive Doc where
  | null
  | bool (value : Bool)
  | number (literal : String)
  | string (text : String)
  | array (items : List Doc)
  | object (members : List (String × Doc))

/-- A type whose values are decoded as a whole. -/
structure Scalar where
  Carrier : Type
  zero : Carrier
  isEmpty : Carrier → Bool
  encode : Carrier → Doc
  decode : Carrier → Doc → Option Carrier
  decode_encode : ∀ value stored, decode stored (encode value) = some value

/-- A type is that of a value or the fields of a struct, which have names. -/
inductive Shape where
  | value
  | fields (names : List String)

/-- The types; the names of the fields of a struct are distinct. -/
inductive GoType : Shape → Type 1 where
  | scalar (kind : Scalar) : GoType .value
  | pointer (element : GoType .value) : GoType .value
  | slice (element : GoType .value) : GoType .value
  | map (element : GoType .value) : GoType .value
  | struct {names : List String} (fields : GoType (.fields names)) : GoType .value
  | noFields : GoType (.fields [])
  | field {names : List String} (name : String) (omitEmpty : Bool)
      (type : GoType .value) (rest : GoType (.fields names)) (fresh : name ∉ names) :
      GoType (.fields (name :: names))

namespace GoType

/-- The values of a type.  Pointers, slices and maps may be nil. -/
def Value : {shape : Shape} → GoType shape → Type
  | _, .scalar kind => kind.Carrier
  | _, .pointer element => Option (Value element)
  | _, .slice element => Option (List (Value element))
  | _, .map element => Option (Finmap fun _ : String => Value element)
  | _, .struct fields => Value fields
  | _, .noFields => Unit
  | _, .field _ _ type rest _ => Value type × Value rest

/--
What is stored at a place of a type.  A slice has further items behind it, up
to its capacity.  Nothing is decoded into the values of a map, so that they
stand for themselves.
-/
def Memory : {shape : Shape} → GoType shape → Type
  | _, .scalar kind => kind.Carrier
  | _, .pointer element => Option (Memory element)
  | _, .slice element => Option (List (Memory element) × List (Memory element))
  | _, .map element => Option (Finmap fun _ : String => Value element)
  | _, .struct fields => Memory fields
  | _, .noFields => Unit
  | _, .field _ _ type rest _ => Memory type × Memory rest

/-- The value that is stored. -/
def read : {shape : Shape} → (type : GoType shape) → Memory type → Value type
  | _, .scalar _, stored => stored
  | _, .pointer element, stored => Option.map (read element) stored
  | _, .slice element, stored => Option.map (fun slice => slice.1.map (read element)) stored
  | _, .map _, stored => stored
  | _, .struct fields, stored => read fields stored
  | _, .noFields, stored => stored
  | _, .field _ _ type rest _, stored => (read type stored.1, read rest stored.2)

/-- Memory that was not used yet. -/
def zero : {shape : Shape} → (type : GoType shape) → Memory type
  | _, .scalar kind => kind.zero
  | _, .pointer _ => none
  | _, .slice _ => none
  | _, .map _ => none
  | _, .struct fields => zero fields
  | _, .noFields => ()
  | _, .field _ _ type rest _ => (zero type, zero rest)

/-! ## Encoding -/

/-- A value is encoded as a document, and the fields of a struct as members. -/
def Encoded : Shape → Type
  | .value => Doc
  | .fields _ => List (String × Doc)

/-- The values that `omitempty` leaves out. -/
def isEmpty : {shape : Shape} → (type : GoType shape) → Value type → Bool
  | _, .scalar kind, value => kind.isEmpty value
  | _, .pointer _, value => Option.isNone value
  | _, .slice _, value => List.isEmpty (Option.getD value [])
  | _, .map _, value => Finset.card (Finmap.keys (Option.getD value ∅)) = 0
  | _, .struct _, _ => false
  | _, .noFields, _ => false
  | _, .field _ _ _ _ _, _ => false

/-- What a value is encoded as. -/
def encode : {shape : Shape} → (type : GoType shape) → Value type → Encoded shape
  | _, .scalar kind, value => kind.encode value
  | _, .pointer element, value => Option.elim value Doc.null (encode element)
  | _, .slice element, value =>
      Option.elim value Doc.null fun items => Doc.array (items.map (encode element))
  | _, .map element, value =>
      Option.elim value Doc.null fun entries =>
        Doc.object ((FiniteMap.sorted entries).map fun entry =>
          (entry.1, encode element entry.2))
  | _, .struct fields, value => Doc.object (encode fields value)
  | _, .noFields, _ => ([] : List (String × Doc))
  | _, .field name omitEmpty type rest _, value =>
      let others : List (String × Doc) := encode rest value.2
      if omitEmpty && isEmpty type value.1 then others
      else (name, encode type value.1) :: others

/-! ## Decoding -/

/-- What is decoded into a place: a document, or one member of an object. -/
def Input : Shape → Type
  | .value => Doc
  | .fields _ => String × Doc

/--
The field that a key names: the one of that name, or else the first one whose
name is the key up to case.
-/
def fieldNamed (foldCase : String → String) (names : List String) (key : String) :
    Option String :=
  if key ∈ names then some key
  else names.find? fun name => foldCase name = foldCase key

/-- Decode items into slots, and into unused memory behind them. -/
def decodeItems {Slot : Type} (decodeItem : Slot → Doc → Option Slot) (unused : Slot) :
    List Slot → List Doc → Option (List Slot)
  | _, [] => some []
  | slots, doc :: docs =>
      (decodeItem (slots.head?.getD unused) doc).bind fun item =>
        (decodeItems decodeItem unused slots.tail docs).map fun items => item :: items

/-- The items of a slice and those behind them. -/
def slots {Slot : Type} : Option (List Slot × List Slot) → List Slot
  | none => []
  | some (items, spare) => items ++ spare

/-- Decode into memory; `none` is an error. -/
def decode (foldCase : String → String) :
    {shape : Shape} → (type : GoType shape) → Memory type → Input shape →
      Option (Memory type)
  | _, .scalar kind, stored, doc => kind.decode stored doc
  | _, .pointer element, stored, doc =>
      match (doc : Doc) with
      | .null => some none
      | doc => (decode foldCase element (Option.getD stored (zero element)) doc).map some
  | _, .slice element, stored, doc =>
      match (doc : Doc) with
      | .null => some none
      | .array [] => some (some ([], []))
      | .array docs =>
          (decodeItems (decode foldCase element) (zero element) (slots stored) docs).map
            fun items => some (items, (slots stored).drop docs.length)
      | _ => none
  | _, .map element, stored, doc =>
      match (doc : Doc) with
      | .null => some none
      | .object members =>
          (members.foldlM
            (fun entries member =>
              (decode foldCase element (zero element) member.2).map fun value =>
                Finmap.insert member.1 (read element value) entries)
            (Option.getD stored ∅)).map some
      | _ => none
  | _, @GoType.struct names fields, stored, doc =>
      match (doc : Doc) with
      | .null => some stored
      | .object members =>
          members.foldlM
            (fun stored member =>
              match fieldNamed foldCase names member.1 with
              | none => some stored
              | some name => decode foldCase fields stored (name, member.2))
            stored
      | _ => none
  | _, .noFields, stored, _ => some stored
  | _, .field name _ type rest _, stored, member =>
      if (member : String × Doc).1 = name then
        (decode foldCase type stored.1 member.2).map fun value => (value, stored.2)
      else (decode foldCase rest stored.2 member).map fun values => (stored.1, values)

section Fields

variable {names : List String} (fields : GoType (.fields names))

/-- The members that the fields of a struct are encoded as. -/
def members (value : Value fields) : List (String × Doc) :=
  encode fields value

/-- Decode a member into the field of its name. -/
def decodeMember (foldCase : String → String) (stored : Memory fields)
    (member : String × Doc) : Option (Memory fields) :=
  decode foldCase fields stored member

/-- Decode the members into the fields. -/
def decodeMembers (foldCase : String → String) (stored : Memory fields)
    (members : List (String × Doc)) : Option (Memory fields) :=
  members.foldlM (decodeMember fields foldCase) stored

end Fields

/-! ## What survives -/

/-- Each item survives in the slot that it is decoded into. -/
def RestoresItems {Item Slot : Type} (restores : Item → Slot → Prop) (unused : Slot) :
    List Item → List Slot → Prop
  | [], _ => True
  | item :: items, slots =>
      restores item (slots.head?.getD unused) ∧
        RestoresItems restores unused items slots.tail

/--
The value survives being decoded into the memory.  A pointer must not be to
something that is encoded as a null, a map must have the keys of the map that
is stored, and a field that is left out must be stored already.
-/
def Restores : {shape : Shape} → (type : GoType shape) → Value type → Memory type → Prop
  | _, .scalar _, _, _ => True
  | _, .pointer element, value, stored =>
      ∀ target : Value element, value = some target →
        encode element target ≠ Doc.null ∧
          Restores element target (Option.getD stored (zero element))
  | _, .slice element, value, stored =>
      ∀ items : List (Value element), value = some items →
        RestoresItems (Restores element) (zero element) items (slots stored)
  | _, .map element, value, stored =>
      ∀ entries : Finmap fun _ : String => Value element, value = some entries →
        (∀ key entry, entries.lookup key = some entry →
          Restores element entry (zero element)) ∧
        ∀ key ∈ (Option.getD stored ∅ : Finmap fun _ : String => Value element),
          key ∈ entries
  | _, .struct fields, value, stored => Restores fields value stored
  | _, .noFields, _, _ => True
  | _, .field _ omitEmpty type rest _, value, stored =>
      (if omitEmpty && isEmpty type value.1 then read type stored.1 = value.1
        else Restores type value.1 stored.1) ∧
      Restores rest value.2 stored.2

variable {foldCase : String → String}

theorem decodeItems_map {Item Slot : Type} {encodeItem : Item → Doc}
    {decodeItem : Slot → Doc → Option Slot} {readItem : Slot → Item}
    {restores : Item → Slot → Prop} (unused : Slot)
    (decodes : ∀ item slot, ∃ after, decodeItem slot (encodeItem item) = some after ∧
      (readItem after = item ↔ restores item slot))
    (items : List Item) (slots : List Slot) :
    ∃ after, decodeItems decodeItem unused slots (items.map encodeItem) = some after ∧
      (after.map readItem = items ↔ RestoresItems restores unused items slots) := by
  induction items generalizing slots with
  | nil => exact ⟨[], rfl, iff_of_true rfl trivial⟩
  | cons item items ih =>
      rcases decodes item (slots.head?.getD unused) with ⟨first, decoded, same⟩
      rcases ih slots.tail with ⟨rest, decodedRest, sameRest⟩
      refine ⟨first :: rest, ?_, ?_⟩
      · rw [List.map_cons, decodeItems, decoded, Option.bind_some, decodedRest,
          Option.map_some]
      · rw [List.map_cons, List.cons.injEq, same, sameRest, RestoresItems]

theorem foldlM_insert {Entry : Type} {encodeEntry : Entry → Doc} {change : Entry → Entry}
    (insertMember : (Finmap fun _ : String => Entry) → String × Doc →
      Option (Finmap fun _ : String => Entry))
    (inserts : ∀ map key entry, insertMember map (key, encodeEntry entry) =
      some (map.insert key (change entry)))
    (entries : List (String × Entry)) (start : Finmap fun _ : String => Entry) :
    (entries.map fun entry => (entry.1, encodeEntry entry.2)).foldlM insertMember start =
      some (FiniteMap.insertAll
        (entries.map fun entry => (entry.1, change entry.2)) start) := by
  induction entries generalizing start with
  | nil => rfl
  | cons entry entries ih =>
      rw [List.map_cons, List.foldlM_cons, inserts]
      exact ih _

theorem decode_pointer {element : GoType .value} (stored : Option (Memory element))
    {doc : Doc} (notNull : doc ≠ .null) :
    decode foldCase (.pointer element) stored doc =
      (decode foldCase element (stored.getD (zero element)) doc).map some := by
  cases doc with
  | null => exact absurd rfl notNull
  | _ => rfl

theorem foldlM_congr {State Member : Type} {first second : State → Member → Option State}
    {members : List Member}
    (same : ∀ state, ∀ member ∈ members, first state member = second state member)
    (state : State) :
    members.foldlM first state = members.foldlM second state := by
  induction members generalizing state with
  | nil => rfl
  | cons member members ih =>
      rw [List.foldlM_cons, List.foldlM_cons, same state member List.mem_cons_self]
      refine bind_congr fun next => ?_
      exact ih (fun state other isOther =>
        same state other (List.mem_cons_of_mem _ isOther)) next

theorem foldlM_pair {Fixed State Member : Type}
    {both : Fixed × State → Member → Option (Fixed × State)}
    {second : State → Member → Option State} {members : List Member} {fixed : Fixed}
    (apart : ∀ state, ∀ member ∈ members,
      both (fixed, state) member = (second state member).map fun next => (fixed, next))
    (state : State) :
    members.foldlM both (fixed, state) =
      (members.foldlM second state).map fun next => (fixed, next) := by
  induction members generalizing state with
  | nil => rfl
  | cons member members ih =>
      rw [List.foldlM_cons, List.foldlM_cons, apart state member List.mem_cons_self]
      cases second state member with
      | none => rfl
      | some next =>
          exact ih (fun state other isOther =>
            apart state other (List.mem_cons_of_mem _ isOther)) next

theorem members_field {names : List String} {name : String} {omitEmpty : Bool}
    {type : GoType .value} {rest : GoType (.fields names)} {fresh : name ∉ names}
    (value : Value (.field name omitEmpty type rest fresh)) :
    members (.field name omitEmpty type rest fresh) value =
      if omitEmpty && isEmpty type value.1 then members rest value.2
      else (name, encode type value.1) :: members rest value.2 :=
  rfl

/-- The keys of the members are names of the fields. -/
theorem mem_names_of_mem_members : {names : List String} →
    (fields : GoType (.fields names)) → (value : Value fields) →
    ∀ member ∈ members fields value, member.1 ∈ names
  | _, .noFields, _ => List.forall_mem_nil _
  | _, .field _ _ _ rest _, value => by
      have others := mem_names_of_mem_members rest value.2
      intro member isMember
      rw [members_field] at isMember
      split at isMember
      · exact List.mem_cons_of_mem _ (others member isMember)
      · rcases List.mem_cons.mp isMember with rfl | later
        · exact List.mem_cons_self
        · exact List.mem_cons_of_mem _ (others member later)

/-- The members of a struct are decoded into the fields of their names. -/
theorem decode_struct {names : List String} (fields : GoType (.fields names))
    (value : Value fields) (stored : Memory fields) :
    decode foldCase (.struct fields) stored (.object (members fields value)) =
      decodeMembers fields foldCase stored (members fields value) := by
  refine foldlM_congr (fun state member isMember => ?_) stored
  have named : fieldNamed foldCase names member.1 = some member.1 :=
    if_pos (mem_names_of_mem_members fields value member isMember)
  rw [named]
  rfl

/-- The members of the other fields leave the first field as it is. -/
theorem decodeMembers_rest {names : List String} {name : String} {omitEmpty : Bool}
    {type : GoType .value} {rest : GoType (.fields names)} (fresh : name ∉ names)
    (value : Value rest) (first : Memory type) (others : Memory rest) :
    decodeMembers (.field name omitEmpty type rest fresh) foldCase (first, others)
        (members rest value) =
      (decodeMembers rest foldCase others (members rest value)).map
        fun after => (first, after) := by
  refine foldlM_pair (fun state member isMember => ?_) others
  have different : member.1 ≠ name := by
    intro same
    exact fresh (same ▸ mem_names_of_mem_members rest value member isMember)
  exact if_neg different

/-- What is asked of the target of a reference, and of none that is nil. -/
theorem forall_target_iff {Target : Type} (holds : Target → Prop) (target : Target) :
    (∀ other, some target = some other → holds other) ↔ holds target := by
  simp only [Option.some.injEq, forall_eq']

theorem forall_target_of_nil {Target : Type} (holds : Target → Prop) :
    ∀ other, none = some other → holds other := by
  intro other impossible
  cases impossible

/--
Values of a type are decoded into any memory without an error, and restored
exactly when `Restores` says so.
-/
def Decodes (foldCase : String → String) : {shape : Shape} → GoType shape → Prop
  | .value, type => ∀ (value : Value type) (stored : Memory type),
      ∃ after, decode foldCase type stored (encode type value) = some after ∧
        (read type after = value ↔ Restores type value stored)
  | .fields _, fields => ∀ (value : Value fields) (stored : Memory fields),
      ∃ after, decodeMembers fields foldCase stored (members fields value) = some after ∧
        (read fields after = value ↔ Restores fields value stored)

theorem Decodes.scalar (kind : Scalar) : Decodes foldCase (.scalar kind) := by
  intro value stored
  exact ⟨value, kind.decode_encode value stored, iff_of_true rfl trivial⟩

theorem Decodes.pointer {element : GoType .value} (decodes : Decodes foldCase element) :
    Decodes foldCase (.pointer element) := by
  intro value stored
  cases value with
  | none => exact ⟨none, rfl, iff_of_true rfl (forall_target_of_nil _)⟩
  | some target =>
      have encoded : encode (.pointer element) (some target) = encode element target := rfl
      by_cases null : encode element target = Doc.null
      · refine ⟨none, ?_, iff_of_false ?_ ?_⟩
        · rw [encoded, null]
          rfl
        · intro impossible
          cases impossible
        · intro restores
          exact (restores target rfl).1 null
      · rcases decodes target (Option.getD stored (zero element)) with
          ⟨after, decoded, same⟩
        refine ⟨some after, ?_, ?_⟩
        · rw [encoded, decode_pointer stored null, decoded]
          rfl
        · change some (read element after) = some target ↔ _
          rw [Option.some.injEq, same]
          symm
          exact Iff.trans (forall_target_iff _ target) (and_iff_right null)

theorem Decodes.slice {element : GoType .value} (decodes : Decodes foldCase element) :
    Decodes foldCase (.slice element) := by
  intro value stored
  cases value with
  | none => exact ⟨none, rfl, iff_of_true rfl (forall_target_of_nil _)⟩
  | some items =>
      have restores_iff : Restores (.slice element) (some items) stored ↔
          RestoresItems (Restores element) (zero element) items (slots stored) :=
        forall_target_iff _ items
      rw [restores_iff]
      cases items with
      | nil => exact ⟨some ([], []), rfl, iff_of_true rfl trivial⟩
      | cons first rest =>
          rcases decodeItems_map (zero element) decodes (first :: rest) (slots stored) with
            ⟨after, decoded, same⟩
          refine ⟨some (after,
            (slots stored).drop ((first :: rest).map (encode element)).length), ?_, ?_⟩
          · exact congrArg (Option.map _) decoded
          · change some (after.map (read element)) = some (first :: rest) ↔ _
            rw [Option.some.injEq, same]

theorem Decodes.map {element : GoType .value} (decodes : Decodes foldCase element) :
    Decodes foldCase (.map element) := by
  intro value stored
  cases value with
  | none => exact ⟨none, rfl, iff_of_true rfl (forall_target_of_nil _)⟩
  | some entries =>
      choose after decoded same using fun entry => decodes entry (zero element)
      have inserts (map : Finmap fun _ : String => Value element) (key : String)
          (entry : Value element) :
          ((decode foldCase element (zero element) (encode element entry)).map
            fun value => Finmap.insert key (read element value) map) =
              some (map.insert key (read element (after entry))) := by
        rw [decoded]
        rfl
      refine ⟨some (FiniteMap.insertAll ((FiniteMap.sorted entries).map fun entry =>
        (entry.1, read element (after entry.2))) (Option.getD stored ∅)), ?_, ?_⟩
      · exact congrArg (Option.map some)
          (foldlM_insert (fun map member =>
            (decode foldCase element (zero element) member.2).map fun value =>
              Finmap.insert member.1 (read element value) map) inserts _ _)
      · change some (FiniteMap.insertAll _ _) = some entries ↔ _
        rw [Option.some.injEq,
          FiniteMap.insertAll_map_sorted_eq_iff entries _
            fun entry => read element (after entry)]
        simp only [same]
        symm
        exact forall_target_iff _ entries

theorem Decodes.struct {names : List String} {fields : GoType (.fields names)}
    (decodes : Decodes foldCase fields) :
    Decodes foldCase (.struct fields) := by
  intro value stored
  rcases decodes value stored with ⟨after, decoded, same⟩
  exact ⟨after, (decode_struct fields value stored).trans decoded, same⟩

theorem Decodes.noFields : Decodes foldCase .noFields := by
  intro value stored
  exact ⟨stored, rfl, iff_of_true rfl trivial⟩

theorem Decodes.field {names : List String} {name : String} {omitEmpty : Bool}
    {type : GoType .value} {rest : GoType (.fields names)} {fresh : name ∉ names}
    (decodes : Decodes foldCase type) (decodesRest : Decodes foldCase rest) :
    Decodes foldCase (.field name omitEmpty type rest fresh) := by
  intro value stored
  rcases decodes value.1 stored.1 with ⟨first, decoded, same⟩
  rcases decodesRest value.2 stored.2 with ⟨others, decodedRest, sameRest⟩
  have behind (front : Memory type) :
      decodeMembers (.field name omitEmpty type rest fresh) foldCase (front, stored.2)
          (members rest value.2) =
        some (front, others) := by
    rw [decodeMembers_rest fresh value.2 front stored.2, decodedRest]
    rfl
  by_cases omitted : (omitEmpty && isEmpty type value.1) = true
  · refine ⟨(stored.1, others), ?_, ?_⟩
    · rw [members_field, if_pos omitted]
      exact behind stored.1
    · change (read type stored.1, read rest others) = value ↔
        (ite _ _ _) ∧ Restores rest value.2 stored.2
      rw [if_pos omitted, ← sameRest]
      exact Prod.ext_iff
  · have front : decodeMember (.field name omitEmpty type rest fresh) foldCase stored
        (name, encode type value.1) = some (first, stored.2) := by
      refine (if_pos rfl).trans ?_
      rw [decoded]
      rfl
    refine ⟨(first, others), ?_, ?_⟩
    · rw [members_field, if_neg omitted, decodeMembers, List.foldlM_cons, front]
      exact behind first
    · change (read type first, read rest others) = value ↔
        (ite _ _ _) ∧ Restores rest value.2 stored.2
      rw [if_neg omitted, ← same, ← sameRest]
      exact Prod.ext_iff

/-- Encoded values of every type are decoded as `Decodes` says. -/
theorem decode_encode (foldCase : String → String) {shape : Shape} (type : GoType shape) :
    Decodes foldCase type := by
  induction type with
  | scalar kind => exact .scalar kind
  | pointer element ih => exact ih.pointer
  | slice element ih => exact ih.slice
  | map element ih => exact ih.map
  | struct fields ih => exact ih.struct
  | noFields => exact .noFields
  | field name omitEmpty type rest fresh ih ihRest => exact ih.field ihRest

/-- The document of a value. -/
def marshal (type : GoType .value) (value : Value type) : Doc :=
  encode type value

/-- Decode a document into memory. -/
def unmarshal (foldCase : String → String) (type : GoType .value) (stored : Memory type)
    (doc : Doc) : Option (Memory type) :=
  decode foldCase type stored doc

theorem unmarshal_marshal (foldCase : String → String) (type : GoType .value)
    (value : Value type) (stored : Memory type) :
    ∃ after, unmarshal foldCase type stored (marshal type value) = some after ∧
      (read type after = value ↔ Restores type value stored) :=
  decode_encode foldCase type value stored

end GoType

end Infractl.Lib.GoJson
