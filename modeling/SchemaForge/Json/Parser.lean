import SchemaForge.Json.Value
import SchemaForge.Json.Token
set_option autoImplicit false

/-!
# Reading JSON documents

## Main definitions

* `SchemaForge.Json.parse` — the document a text spells, with nothing but white space after it.
* `SchemaForge.Json.tokens` — the tokens of a document, which reading takes back.

## Design

The readers carry a bound on their depth of recursion. A value of `n` tokens is read within `2 n`.
-/

namespace SchemaForge.Json

mutual

/-- The value at the beginning of the tokens, and what follows it. -/
def valueWithin : Nat → List Token → Option (Json × List Token)
  | 0, _ => none
  | _ + 1, [] => none
  | bound + 1, token :: rest =>
    match token with
    | .null => some (.null, rest)
    | .bool value => some (.bool value, rest)
    | .number literal => some (.number literal, rest)
    | .string text => some (.string text, rest)
    | .openArray =>
      match rest with
      | .closeArray :: after => some (.array [], after)
      | _ => do
        let (items, after) ← itemsWithin bound rest
        return (.array items, after)
    | .openObject =>
      match rest with
      | .closeObject :: after => some (.object [], after)
      | _ => do
        let (members, after) ← membersWithin bound rest
        return (.object members, after)
    | _ => none

/-- The items of an array, at least one, up to the closing bracket. -/
def itemsWithin : Nat → List Token → Option (List Json × List Token)
  | 0, _ => none
  | bound + 1, tokens => do
    let (item, rest) ← valueWithin bound tokens
    match rest with
    | .closeArray :: after => return ([item], after)
    | .comma :: rest => do
      let (items, after) ← itemsWithin bound rest
      return (item :: items, after)
    | _ => none

/-- The members of an object, at least one, up to the closing brace. -/
def membersWithin : Nat → List Token → Option (List (Option String × Json) × List Token)
  | 0, _ => none
  | bound + 1, tokens =>
    match tokens with
    | .string key :: .colon :: rest => do
      let (value, rest) ← valueWithin bound rest
      match rest with
      | .closeObject :: after => return ([(key, value)], after)
      | .comma :: rest => do
        let (members, after) ← membersWithin bound rest
        return ((key, value) :: members, after)
      | _ => none
    | _ => none

end

/-- The document that all the tokens together spell. -/
def ofTokens? (tokens : List Token) : Option Json :=
  match valueWithin (2 * tokens.length) tokens with
  | some (value, []) => some value
  | _ => none

/-- The document a text spells. -/
def parse (text : String) : Option Json := do ofTokens? (← tokenize text.toList)

mutual

/-- The tokens of a document. -/
def tokens : Json → List Token
  | .null => [.null]
  | .bool value => [.bool value]
  | .number literal => [.number literal]
  | .string text => [.string text]
  | .array items => .openArray :: (itemTokens items ++ [.closeArray])
  | .object members => .openObject :: (memberTokens members ++ [.closeObject])

/-- The tokens of items, with commas between them. -/
def itemTokens : List Json → List Token
  | [] => []
  | [item] => tokens item
  | item :: next :: items => tokens item ++ .comma :: itemTokens (next :: items)

/-- The tokens of members, with commas between them. -/
def memberTokens : List (Option String × Json) → List Token
  | [] => []
  | [(key, value)] => .string key :: .colon :: tokens value
  | (key, value) :: next :: members =>
    .string key :: .colon :: (tokens value ++ .comma :: memberTokens (next :: members))

end

end SchemaForge.Json
