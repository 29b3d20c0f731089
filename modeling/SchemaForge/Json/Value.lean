set_option autoImplicit false

/-!
# JSON documents

A document is kept as written: members stay in order, also repeated ones, and a number is its
literal. A string literal whose escapes name half of a surrogate pair has no text.

## Main definitions

* `SchemaForge.Json` — a document.
* `SchemaForge.Json.record` — an object with the given members.
* `SchemaForge.Json.natural`, `SchemaForge.Json.integer` — numbers by value.
-/

namespace SchemaForge

/-- A JSON document. -/
inductive Json where
  | null
  | bool (value : Bool)
  /-- A number, given by its literal. -/
  | number (literal : String)
  /-- A string, if its literal spells a text. -/
  | string (text : Option String)
  | array (items : List Json)
  /-- An object with its members in order; a key is a string literal too. -/
  | object (members : List (Option String × Json))
  deriving Repr, Inhabited

namespace Json

/-- The string with the given text. -/
def text (s : String) : Json := .string (some s)

/-- The object with the given members. -/
def record (members : List (String × Json)) : Json :=
  .object (members.map fun (key, value) => (some key, value))

/-- The number `n` in decimal digits. -/
def natural (n : Nat) : Json := .number (toString n)

/-- The number `n` in decimal digits, after a minus sign if it is negative. -/
def integer (n : Int) : Json := .number (toString n)

/-- The value of a present element, `null` for none. -/
def ofOption {α : Type} (write : α → Json) : Option α → Json
  | none => .null
  | some a => write a

end Json

end SchemaForge
