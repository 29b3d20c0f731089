import SchemaForge.Json.Parser
set_option autoImplicit false

/-!
# Writing JSON documents

## Main definitions

* `SchemaForge.Json.compact` — the document without any white space.
* `SchemaForge.Json.pretty` — one item or member on each line, two more spaces at each level, and
  empty arrays and objects closed at once.
-/

namespace SchemaForge.Json

/-- The document without any white space. -/
def compact (json : Json) : String := String.ofList (json.tokens.flatMap Token.chars)

/-- A new line at the given level. -/
def newLine (level : Nat) : List Char := '\n' :: List.replicate (2 * level) ' '

mutual

/-- The document laid out over lines, its own lines at `level`. -/
def layout (level : Nat) : Json → List Char
  | .null => Token.null.chars
  | .bool value => (Token.bool value).chars
  | .number literal => literal.toList
  | .string text => stringChars text
  | .array [] => ['[', ']']
  | .array (item :: items) =>
    '[' :: (layoutItems (level + 1) (item :: items) ++ newLine level ++ [']'])
  | .object [] => ['\x7b', '\x7d']
  | .object (member :: members) =>
    '\x7b' :: (layoutMembers (level + 1) (member :: members) ++ newLine level ++ ['\x7d'])

/-- Items on lines of their own at `level`, with commas between them. -/
def layoutItems (level : Nat) : List Json → List Char
  | [] => []
  | [item] => newLine level ++ layout level item
  | item :: next :: items =>
    newLine level ++ layout level item ++ ',' :: layoutItems level (next :: items)

/-- Members on lines of their own at `level`, with commas between them. -/
def layoutMembers (level : Nat) : List (Option String × Json) → List Char
  | [] => []
  | [(key, value)] =>
    newLine level ++ stringChars key ++ ':' :: ' ' :: layout level value
  | (key, value) :: next :: members =>
    newLine level ++ stringChars key ++ ':' :: ' ' :: layout level value ++
      ',' :: layoutMembers level (next :: members)

end

/-- The document laid out over lines. -/
def pretty (json : Json) : String := String.ofList (layout 0 json)

end SchemaForge.Json
