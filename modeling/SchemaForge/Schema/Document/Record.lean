import SchemaForge.Json.Value
import SchemaForge.Text.Numeral
set_option autoImplicit false

/-!
# Reading values out of JSON documents

A reader knows how many arrays and objects may still be opened, and fails when a document nests
deeper. What no reader looks at may have any shape and any depth.

## Main definitions

* `SchemaForge.Reader` — readers of values.
* `SchemaForge.Reader.list`, `SchemaForge.Reader.pair`, `SchemaForge.Reader.optional` — readers of
  the common shapes.
* `SchemaForge.Record` — the members of an object that has known members.
* `SchemaForge.Reader.variant` — an object whose only key selects how its value is read.
-/

namespace SchemaForge

/-- A reader gets the number of arrays and objects that may still be opened, and a document. -/
abbrev Reader (α : Type) := Nat → Json → Option α

namespace Reader

/-- A string. -/
def text : Reader String
  | _, .string (some s) => some s
  | _, _ => none

/-- A string, as a value of another type. -/
def textAs {α : Type} (make : String → α) : Reader α := fun _ json => (text 0 json).map make

/-- A truth value. -/
def bool : Reader Bool
  | _, .bool value => some value
  | _, _ => none

/-- The value of a number literal without fraction and exponent. The literal `-0` is none: it
stands for the negative zero, which no integer is. -/
def integerValue? (literal : String) : Option Int :=
  match literal.toList with
  | '-' :: digits =>
    match Text.digitsValue? digits with
    | some 0 => none
    | some n => some (-(n : Int))
    | none => none
  | digits => (Text.digitsValue? digits).map Int.ofNat

/-- A signed 32-bit integer. -/
def int32 : Reader Int32
  | _, .number literal => do
    let n ← integerValue? literal
    if -2147483648 ≤ n && n ≤ 2147483647 then some (Int32.ofInt n) else none
  | _, _ => none

/-- An unsigned 32-bit integer. -/
def uint32 : Reader UInt32
  | _, .number literal => do
    let n ← integerValue? literal
    if 0 ≤ n && n ≤ 4294967295 then some (UInt32.ofNat n.toNat) else none
  | _, _ => none

/-- A value that may be `null`. -/
def optional {α : Type} (read : Reader α) : Reader (Option α)
  | _, .null => some none
  | room, json => (read room json).map some

/-- An array of values. -/
def list {α : Type} (read : Reader α) : Reader (List α)
  | room + 1, .array items => items.mapM (read room)
  | _, _ => none

/-- An array of exactly two values. -/
def pair {α β : Type} (first : Reader α) (second : Reader β) : Reader (α × β)
  | room + 1, .array [a, b] => do return (← first room a, ← second room b)
  | _, _ => none

/-- An object with exactly one member, whose key selects the reader of its value. -/
def variant {α : Type} (select : String → Option (Reader α)) : Reader α
  | room + 1, .object [(some key, value)] => do (← select key) room value
  | _, _ => none

end Reader

/-- The members of an object that are known by name, with the room left inside the object. -/
structure Record where
  room : Nat
  members : List (String × Json)

namespace Record

/-- The known members among `members`, in order; fails if a key is no text. -/
def select (names : List String) :
    List (Option String × Json) → Option (List (String × Json))
  | [] => some []
  | (none, _) :: _ => none
  | (some key, value) :: members => do
    let rest ← select names members
    return if names.contains key then (key, value) :: rest else rest

/-- Whether no name occurs twice among the members. -/
def isDistinct : List (String × Json) → Bool
  | [] => true
  | (key, _) :: members => !(members.any fun m => m.1 == key) && isDistinct members

/-- The record with the given names. An object may give its members in any order and hold unknown
ones, but none of the known ones twice; an array gives all of them by position. -/
def read (names : List String) : Reader Record
  | room + 1, .object members => do
    let known ← select names members
    if isDistinct known then some ⟨room, known⟩ else none
  | room + 1, .array items =>
    if items.length == names.length then some ⟨room, names.zip items⟩ else none
  | _, _ => none

/-- The value of the member `name`, which must be there. -/
def get {α : Type} (record : Record) (name : String) (read : Reader α) : Option α := do
  read record.room (← record.members.lookup name)

/-- The value of the member `name`, none if it is absent or `null`. -/
def getOptional {α : Type} (record : Record) (name : String) (read : Reader α) :
    Option (Option α) :=
  match record.members.lookup name with
  | none => some none
  | some json => read.optional record.room json

end Record

end SchemaForge
