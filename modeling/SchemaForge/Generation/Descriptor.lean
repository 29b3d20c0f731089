import SchemaForge.Text.Numeral
set_option autoImplicit false

/-!
# Option descriptors

## Main definitions

* `SchemaForge.OptionKind` — the kinds of values an option takes.
* `SchemaForge.OptionKind.accepts` — whether a value is of a kind.
* `SchemaForge.OptionDescriptor` — an option that a plugin understands.
-/

namespace SchemaForge

open Text

/-- The kinds of values an option takes. -/
inductive OptionKind where
  /-- Any text. -/
  | text
  /-- One of the words `true` and `false`. -/
  | boolean
  /-- An integer of 32 bits. -/
  | int
  /-- An integer of 64 bits. -/
  | long
  /-- A real number, kept in 32 bits. -/
  | float
  /-- A real number, kept in 64 bits. -/
  | double
  /-- A path. -/
  | path
  /-- One of the given values. -/
  | choice (variants : List String)
  deriving DecidableEq, Repr, Inhabited

namespace OptionKind

/-- Whether `value` is of the kind. -/
def accepts : OptionKind → String → Bool
  | .text, _ | .path, _ => true
  | .boolean, value => value == "true" || value == "false"
  | .int, value => isIntegerWithin (-2147483648) 2147483647 value.toList
  | .long, value =>
    isIntegerWithin (-9223372036854775808) 9223372036854775807 value.toList
  | .float, value | .double, value => isReal value.toList
  | .choice variants, value => variants.contains value

/-- The kind as shown to a user. -/
def display : OptionKind → String
  | .text => "text"
  | .boolean => "boolean"
  | .int => "int"
  | .long => "long"
  | .float => "float"
  | .double => "double"
  | .path => "path"
  | .choice variants => "one of [" ++ String.intercalate ", " variants ++ "]"

end OptionKind

/-- An option that a plugin understands. -/
structure OptionDescriptor where
  /-- The key, without the name of the plugin. -/
  name : String
  description : String
  /-- Whether the option may be given more than once. -/
  isRepeatable : Bool
  kind : OptionKind
  deriving DecidableEq, Repr, Inhabited

namespace OptionDescriptor

/-- The option that may be given once. -/
def single (name description : String) (kind : OptionKind) : OptionDescriptor :=
  ⟨name, description, false, kind⟩

/-- The same option, which may be given more than once. -/
def repeatable (descriptor : OptionDescriptor) : OptionDescriptor :=
  { descriptor with isRepeatable := true }

/-- The option as shown to a user. -/
def display (descriptor : OptionDescriptor) : String :=
  descriptor.name ++ " <" ++ descriptor.kind.display ++ ">" ++
    (if descriptor.isRepeatable then " (repeatable)" else "") ++
    (if descriptor.description.isEmpty then "" else ": " ++ descriptor.description)

end OptionDescriptor

end SchemaForge
