import Mathlib.Data.List.Nodup
import SchemaForge.Proofs.Schema.Recovery
set_option autoImplicit false

/-!
# What the layout of a document may change

The elements of a schema are objects with known members. The same value is read from them when
members change places, when there are members with unknown names, and when a member that may be
absent is `null`. No value is read when a known member is there twice. The shape of a document says
which of its objects are elements, and of which kind.

## Main definitions

* `SchemaForge.Element`, `SchemaForge.Shape` — the kinds of elements, and what stands where in a
  document.
* `SchemaForge.Rewritten` — one change of a document that does not count.
* `SchemaForge.Repeats` — a known member of an element is there twice.
* `SchemaForge.Reader.Fits` — a reader is not affected by such changes, and refuses such documents.

## Main results

* `SchemaForge.Reader.Fits.list`, `SchemaForge.Reader.Fits.pair`,
  `SchemaForge.Reader.Fits.variant` — readers of values that are made of others.
-/

namespace SchemaForge

/-! ### Shapes -/

/-- The kinds of objects with known members. -/
inductive Element where
  | memberUrl
  | location
  | schemaOption
  | field
  | oneOf
  | extend
  | enumConstant
  | message
  | enumeration
  | enclosing
  | payload
  | rpc
  | service
  | schemaFile
  deriving DecidableEq, Repr

/-- What is read at a place of a document. -/
inductive Shape where
  /-- A text, a number, a truth value, a label, or nothing at all. -/
  | leaf
  | list (item : Shape)
  | pair (first second : Shape)
  | element (kind : Element)
  /-- An object whose only key says how the value of an option is written. -/
  | optionValue
  /-- An object whose only key is the kind of a type. -/
  | type
  deriving DecidableEq, Repr

/-- A known member. -/
structure Member where
  name : String
  shape : Shape
  /-- Whether the member may be absent. -/
  isOptional : Bool
  deriving DecidableEq, Repr

namespace Member

/-- A member that must be there. -/
def needed (name : String) (shape : Shape) : Member := ⟨name, shape, false⟩

/-- A member that may be absent. -/
def optional (name : String) (shape : Shape) : Member := ⟨name, shape, true⟩

end Member

namespace Shape

/-- The options of an element. -/
def options : Shape := .list (.element .schemaOption)

/-- The files of a schema. -/
def schema : Shape := .list (.element .schemaFile)

end Shape

open Member Shape in
/-- The known members, in the order in which an array gives them. -/
def Element.members : Element → List Member
  | .memberUrl => [needed "type_url" leaf, needed "member_name" leaf]
  | .location =>
    [needed "base_path" leaf, needed "relative_path" leaf, optional "line" leaf,
      optional "column" leaf]
  | .schemaOption =>
    [needed "name" leaf, needed "field_url" (element .memberUrl), optional "value" optionValue]
  | .field =>
    [needed "tag" leaf, needed "name" leaf, needed "options" options, needed "documentation" leaf,
      needed "type_url" leaf, needed "label" leaf, needed "location" (element .location),
      needed "is_extension" leaf, needed "namespaces" (list leaf)]
  | .oneOf =>
    [needed "name" leaf, needed "fields" (list (element .field)), needed "documentation" leaf,
      needed "options" options, needed "location" (element .location)]
  | .extend =>
    [needed "type_url" leaf, needed "name" leaf, needed "fields" (list (element .field)),
      needed "documentation" leaf, needed "location" (element .location)]
  | .enumConstant =>
    [needed "name" leaf, needed "tag" leaf, needed "options" options, needed "documentation" leaf,
      needed "location" (element .location)]
  | .message =>
    [needed "name" leaf, needed "documentation" leaf, needed "fields" (list (element .field)),
      needed "one_ofs" (list (element .oneOf)), needed "options" options, needed "type_url" leaf,
      needed "nested_extends" (list (element .extend)), needed "nested_types" (list type),
      needed "location" (element .location)]
  | .enumeration =>
    [needed "name" leaf, needed "constants" (list (element .enumConstant)),
      needed "documentation" leaf, needed "options" options, needed "type_url" leaf,
      needed "nested_extends" (list (element .extend)), needed "nested_types" (list type),
      needed "location" (element .location)]
  | .enclosing =>
    [needed "name" leaf, needed "documentation" leaf, needed "type_url" leaf,
      needed "nested_extends" (list (element .extend)), needed "options" options,
      needed "location" (element .location), needed "nested_types" (list type)]
  | .payload => [needed "is_streaming" leaf, needed "type_url" leaf]
  | .rpc =>
    [needed "name" leaf, needed "request_type" (element .payload),
      needed "response_type" (element .payload), needed "options" options,
      needed "documentation" leaf, needed "location" (element .location)]
  | .service =>
    [needed "name" leaf, needed "rpcs" (list (element .rpc)), needed "options" options,
      needed "type_url" leaf, needed "location" (element .location)]
  | .schemaFile =>
    [needed "name" leaf, needed "package_name" leaf, needed "options" options,
      needed "services" (list (element .service)), needed "extends" (list (element .extend)),
      needed "location" (element .location), needed "imports" (list leaf),
      needed "types" (list type)]

open Member Shape in
/-- The known members that all kinds of types have in common. -/
def Element.typeMembers : List Member :=
  [needed "name" leaf, needed "documentation" leaf, needed "type_url" leaf,
    needed "options" options, needed "location" (element .location),
    needed "nested_extends" (list (element .extend)), needed "nested_types" (list type)]

/-- The names of the known members. -/
def Element.names (kind : Element) : List String := kind.members.map Member.name

/-- The known members of an element have different names. -/
theorem Element.nodup_names (kind : Element) : kind.names.Nodup := by
  cases kind <;> decide

/-- The shape of the item of an array with this index. -/
def Shape.item : Shape → Nat → Shape
  | .list shape, _ => shape
  | .pair first _, 0 => first
  | .pair _ second, 1 => second
  | .element kind, index => (kind.members[index]?.map Member.shape).getD .leaf
  | _, _ => .leaf

/-- The shape of the value of an object under this key. -/
def Shape.member : Shape → Option String → Shape
  | .element kind, some key => ((kind.members.find? (·.name == key)).map Member.shape).getD .leaf
  | .optionValue, some "RawMap" => .list (.pair .leaf .leaf)
  | .optionValue, some "MessageMap" => .list (.pair (.element .memberUrl) .optionValue)
  | .type, some "Message" => .element .message
  | .type, some "Enum" => .element .enumeration
  | .type, some "Enclosing" => .element .enclosing
  | _, _ => .leaf

theorem Element.name_mem {kind : Element} {member : Member} (h : member ∈ kind.members) :
    member.name ∈ kind.names := List.mem_map_of_mem h

theorem Element.getElem?_names {kind : Element} {index : Nat} {member : Member}
    (h : kind.members[index]? = some member) : kind.names[index]? = some member.name := by
  rw [Element.names, List.getElem?_map, h, Option.map_some]

/-- A known member has the shape that it is said to have. -/
theorem Shape.member_of_mem {kind : Element} {member : Member} (h : member ∈ kind.members) :
    (Shape.element kind).member (some member.name) = member.shape := by
  cases kind <;> revert member <;> decide

/-- Of an unknown member nothing is read. -/
theorem Shape.member_of_not_mem {kind : Element} {key : Option String}
    (h : ∀ name ∈ kind.names, key ≠ some name) : (Shape.element kind).member key = .leaf := by
  cases key with
  | none => rfl
  | some key =>
    have hfind : kind.members.find? (·.name == key) = none := by
      rw [List.find?_eq_none]
      intro member hmember heq
      exact h member.name (Element.name_mem hmember) (congrArg some (beq_iff_eq.1 heq).symm)
    rw [Shape.member, hfind]
    rfl

/-! ### Changes of documents -/

/-- One change of a document of the shape that does not count, at any depth. -/
inductive Rewritten : Shape → Json → Json → Prop where
  /-- The members of an object change places. -/
  | permuted {shape : Shape} {members others : List (Option String × Json)}
      (h : members.Perm others) : Rewritten shape (.object members) (.object others)
  /-- An element is given a member with an unknown name. -/
  | extended {kind : Element} {before after : List (Option String × Json)} {name : String}
      {value : Json} (hname : name ∉ kind.names) :
      Rewritten (.element kind) (.object (before ++ after))
        (.object (before ++ (some name, value) :: after))
  /-- A member that is absent is given as `null`. -/
  | nulled {kind : Element} {before after : List (Option String × Json)} {member : Member}
      (hmember : member ∈ kind.members) (hoptional : member.isOptional = true)
      (habsent : ∀ other ∈ before ++ after, other.1 ≠ some member.name) :
      Rewritten (.element kind) (.object (before ++ after))
        (.object (before ++ (some member.name, .null) :: after))
  /-- An item of an array is changed. -/
  | item {shape : Shape} {before after : List Json} {a b : Json}
      (h : Rewritten (shape.item before.length) a b) :
      Rewritten shape (.array (before ++ a :: after)) (.array (before ++ b :: after))
  /-- The value of a member is changed. -/
  | member {shape : Shape} {before after : List (Option String × Json)} {key : Option String}
      {a b : Json} (h : Rewritten (shape.member key) a b) :
      Rewritten shape (.object (before ++ (key, a) :: after))
        (.object (before ++ (key, b) :: after))

/-- Somewhere in a document of the shape an element has a known member twice. -/
inductive Repeats : Shape → Json → Prop where
  | here {kind : Element} {members : List (Option String × Json)} {name : String}
      (hname : name ∈ kind.names) (htwice : 2 ≤ (members.map Prod.fst).count (some name)) :
      Repeats (.element kind) (.object members)
  | item {shape : Shape} {items : List Json} {index : Nat} {item : Json}
      (hitem : items[index]? = some item) (h : Repeats (shape.item index) item) :
      Repeats shape (.array items)
  | member {shape : Shape} {members : List (Option String × Json)} {key : Option String}
      {value : Json} (hmember : (key, value) ∈ members) (h : Repeats (shape.member key) value) :
      Repeats shape (.object members)

/-- Where nothing is read, no member counts as known. -/
theorem not_repeats_leaf {json : Json} : ¬ Repeats .leaf json := by
  intro h
  generalize hshape : Shape.leaf = shape at h
  induction h with
  | here => cases hshape
  | item _ _ ih =>
    subst hshape
    exact ih rfl
  | member _ _ ih =>
    subst hshape
    exact ih rfl

/-- What is changed is an array or an object. -/
theorem Rewritten.ne_null {shape : Shape} {a b : Json} (h : Rewritten shape a b) :
    a ≠ .null ∧ b ≠ .null := by
  cases h <;> exact ⟨nofun, nofun⟩

theorem Repeats.ne_null {shape : Shape} {json : Json} (h : Repeats shape json) : json ≠ .null := by
  cases h <;> exact nofun

/-! ### Readers that fit a shape -/

/-- The reader reads the same from a document of the shape when it is changed where that does not
count, and nothing when a known member is there twice. -/
structure Reader.Fits {α : Type} (shape : Shape) (read : Reader α) : Prop where
  same {a b : Json} (h : Rewritten shape a b) (room : Nat) : read room a = read room b
  refuses {json : Json} (h : Repeats shape json) (room : Nat) : read room json = none

namespace Reader

variable {α β : Type} {shape : Shape} {read : Reader α}

/-- However often a document is changed, the same is read. -/
theorem Fits.eq_of_eqvGen (h : Fits shape read) {a b : Json}
    (hrewritten : Relation.EqvGen (Rewritten shape) a b) (room : Nat) :
    read room a = read room b := by
  induction hrewritten with
  | rel a b hab => exact h.same hab room
  | refl a => rfl
  | symm a b _ ih => exact ih.symm
  | trans a b c _ _ ih ih' => exact ih.trans ih'

theorem Fits.map (h : Fits shape read) (f : α → β) :
    Fits shape fun room json => (read room json).map f where
  same hrewritten room := congrArg (Option.map f) (h.same hrewritten room)
  refuses hrepeats room := by rw [h.refuses hrepeats, Option.map_none]

/-- Where nothing is read at all, everything fits. -/
theorem fits_none : Fits shape (fun _ _ => none : Reader α) := ⟨fun _ _ => rfl, fun _ _ => rfl⟩

/-- Readers that fit with any room may be chosen by the room. -/
theorem fits_of_within (within : Nat → Reader α) (h : ∀ levels, Fits shape (within levels)) :
    Fits shape fun room json => within room room json :=
  ⟨fun hrewritten room => (h room).same hrewritten room,
    fun hrepeats room => (h room).refuses hrepeats room⟩

/-- Nothing else is read from arrays and objects. -/
theorem fits_leaf (harray : ∀ room items, read room (.array items) = none)
    (hobject : ∀ room members, read room (.object members) = none) : Fits .leaf read where
  same hrewritten room := by
    cases hrewritten with
    | permuted => rw [hobject, hobject]
    | item => rw [harray, harray]
    | member => rw [hobject, hobject]
  refuses hrepeats := absurd hrepeats not_repeats_leaf

/-! ### Arrays -/

/-- There is no list if one of its items is not there. -/
theorem mapM_eq_none {room index : Nat} {items : List Json} {item : Json}
    (hitem : items[index]? = some item) (h : read room item = none) :
    items.mapM (read room) = none := by
  obtain ⟨before, after, rfl⟩ := List.append_of_mem (List.mem_of_getElem? hitem)
  rw [List.mapM_append, List.mapM_cons, h]
  cases before.mapM (read room) <;> rfl

/-- **Lists.** -/
theorem Fits.list (h : Fits shape read) : Fits (.list shape) (Reader.list read) where
  same hrewritten room := by
    cases room with
    | zero => rfl
    | succ room =>
      cases hrewritten with
      | permuted => rfl
      | member => rfl
      | @item _ before after a b hitem =>
        change (before ++ a :: after).mapM (read room) = (before ++ b :: after).mapM (read room)
        rw [List.mapM_append, List.mapM_append, List.mapM_cons, List.mapM_cons, h.same hitem]
  refuses hrepeats room := by
    cases room with
    | zero => rfl
    | succ room =>
      cases hrepeats with
      | member => rfl
      | item hitem hrepeats => exact mapM_eq_none hitem (h.refuses hrepeats room)

/-- **Pairs.** -/
theorem Fits.pair {first : Reader α} {second : Reader β} {shape' : Shape} (h : Fits shape first)
    (h' : Fits shape' second) : Fits (.pair shape shape') (Reader.pair first second) where
  same hrewritten room := by
    cases room with
    | zero => rfl
    | succ room =>
      cases hrewritten with
      | permuted => rfl
      | member => rfl
      | @item _ before after a b hitem =>
        match before, after with
        | [], [y] =>
          change (first room a).bind _ = (first room b).bind _
          rw [h.same hitem]
        | [x], [] =>
          change (first room x).bind (fun x => (second room a).bind _) =
            (first room x).bind (fun x => (second room b).bind _)
          rw [h'.same hitem]
        | [], [] => rfl
        | [], _ :: _ :: _ => rfl
        | [_], _ :: _ => rfl
        | [_, _], _ => rfl
        | _ :: _ :: _ :: _, _ => rfl
  refuses hrepeats room := by
    cases room with
    | zero => rfl
    | succ room =>
      cases hrepeats with
      | member => rfl
      | @item _ items index item hitem hrepeats =>
        match items, index with
        | [_, y], 0 =>
          cases hitem
          change (first room item).bind _ = none
          rw [h.refuses hrepeats]
          rfl
        | [x, _], 1 =>
          cases hitem
          change (first room x).bind (fun x => (second room item).bind _) = none
          rw [h'.refuses hrepeats]
          cases first room x <;> rfl
        | [_, _], index + 2 => cases hitem
        | [], _ => rfl
        | [_], _ => rfl
        | _ :: _ :: _ :: _, _ => rfl

/-! ### Variants -/

variable {select : String → Option (Reader α)} {members : List (Option String × Json)}

/-- Nothing is read from an object that has not exactly one member. -/
theorem variant_eq_none (hlength : members.length ≠ 1) (room : Nat) :
    variant select room (.object members) = none := by
  match room, members with
  | 0, _ => rfl
  | _ + 1, [] => rfl
  | _ + 1, [_] => exact absurd rfl hlength
  | _ + 1, (none, _) :: _ :: _ => rfl
  | _ + 1, (some _, _) :: _ :: _ => rfl

/-- **Variants.** -/
theorem Fits.variant (hshape : ∀ kind, shape ≠ .element kind)
    (h : ∀ {key read}, select key = some read → Fits (shape.member (some key)) read) :
    Fits shape (Reader.variant select) where
  same hrewritten room := by
    cases room with
    | zero => rfl
    | succ room =>
      cases hrewritten with
      | extended => exact absurd rfl (hshape _)
      | nulled => exact absurd rfl (hshape _)
      | item => rfl
      | @permuted _ members others hperm =>
        by_cases hlength : members.length = 1
        · obtain ⟨member, rfl⟩ := List.length_eq_one_iff.1 hlength
          rw [List.perm_singleton.1 hperm.symm]
        · have hothers : others.length ≠ 1 := by rwa [← hperm.length_eq]
          rw [variant_eq_none hlength, variant_eq_none hothers]
      | @member _ before after key a b hvalue =>
        by_cases hlength : before.length + after.length = 0
        · obtain ⟨hbefore, hafter⟩ := Nat.add_eq_zero_iff.1 hlength
          rw [List.length_eq_zero_iff.1 hbefore, List.length_eq_zero_iff.1 hafter]
          cases key with
          | none => rfl
          | some key =>
            change (select key).bind (fun read => read room a) =
              (select key).bind (fun read => read room b)
            cases hselect : select key with
            | none => rfl
            | some read => exact (h hselect).same hvalue room
        · have hmore : ∀ value, (before ++ (key, value) :: after).length ≠ 1 := by
            intro value
            rw [List.length_append, List.length_cons]
            omega
          rw [variant_eq_none (hmore a), variant_eq_none (hmore b)]
  refuses hrepeats room := by
    cases room with
    | zero => rfl
    | succ room =>
      cases hrepeats with
      | here => exact absurd rfl (hshape _)
      | item => rfl
      | @member _ members key value hmember hrepeats =>
        by_cases hlength : members.length = 1
        · obtain ⟨member, rfl⟩ := List.length_eq_one_iff.1 hlength
          cases List.mem_singleton.1 hmember
          cases key with
          | none => rfl
          | some key =>
            change (select key).bind (fun read => read room value) = none
            cases hselect : select key with
            | none => rfl
            | some read => exact (h hselect).refuses hrepeats room
        · exact variant_eq_none hlength (room + 1)

end Reader

end SchemaForge
