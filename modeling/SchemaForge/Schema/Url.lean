import SchemaForge.Text.Blank
import SchemaForge.Text.Split
set_option autoImplicit false

/-!
# Declaration urls and member urls

A declaration is identified by its url: a scalar keyword, the synthetic url of a map, or a fully
qualified url such as `type.googleapis.com/acme.Outer.Name`. A member url names one field of a
declaration.

## Main definitions

* `SchemaForge.DeclUrl`, `SchemaForge.MemberUrl` — the two kinds of url.
* `SchemaForge.DeclUrl.ofMap` — the url of a map type, with
  `SchemaForge.DeclUrl.keyArgument?` and `SchemaForge.DeclUrl.valueArgument?` to take it apart.
* `SchemaForge.DeclUrl.simpleName`, `SchemaForge.DeclUrl.enclosing?` — the parts of a name.
-/

namespace SchemaForge

open Text

/-- The identity of a declaration. -/
structure DeclUrl where
  text : String
  deriving DecidableEq, Repr, Inhabited, Hashable

namespace DeclUrl

/-- The url of a declaration that is not known. -/
def unknown : DeclUrl := ⟨"unknown"⟩

/-- The url of a declaration of the well-known package of schema descriptions. -/
def wellKnown (name : String) : DeclUrl := ⟨"type.googleapis.com/google.protobuf." ++ name⟩

/-- The marker type of an rpc direction that carries no payload. -/
def ack : DeclUrl := ⟨"type.googleapis.com/timemates.rrpc.Ack"⟩

/-- The options type of files. -/
def fileOptions : DeclUrl := wellKnown "FileOptions"

/-- The options type of messages. -/
def messageOptions : DeclUrl := wellKnown "MessageOptions"

/-- The options type of services. -/
def serviceOptions : DeclUrl := wellKnown "ServiceOptions"

/-- The options type of fields. -/
def fieldOptions : DeclUrl := wellKnown "FieldOptions"

/-- The options type of enumerations. -/
def enumOptions : DeclUrl := wellKnown "EnumOptions"

/-- The options type of rpcs. -/
def methodOptions : DeclUrl := wellKnown "MethodOptions"

/-- The scalar keywords. -/
def scalars : List String :=
  ["int32", "int64", "sint32", "sint64", "uint32", "uint64", "fixed32", "fixed64", "sfixed32",
    "sfixed64", "bool", "string", "bytes", "float", "double"]

/-- The names of the types that wrap a scalar in a message. -/
def wrapperNames : List String :=
  ["DoubleValue", "FloatValue", "Int32Value", "Int64Value", "UInt32Value", "UInt64Value",
    "StringValue", "BytesValue", "BoolValue"]

/-- The names of the well-known types with a meaning of their own. -/
def builtinNames : List String :=
  ["Any", "Timestamp", "Duration", "Empty", "Struct", "Value", "NullValue", "ListValue"]

/-- Whether the url is a scalar keyword. -/
def isScalar (url : DeclUrl) : Bool := scalars.contains url.text

/-- Whether the url names a type that wraps a scalar. -/
def isWrapper (url : DeclUrl) : Bool := (wrapperNames.map wellKnown).contains url

/-- Whether the url names a well-known type with a meaning of its own. -/
def isBuiltin (url : DeclUrl) : Bool := (builtinNames.map wellKnown).contains url

/-- The letters every map url begins with. -/
def mapStart : List Char := ['m', 'a', 'p', '<']

/-- The url of the map type from `key` to `value`. -/
def ofMap (key value : DeclUrl) : DeclUrl := ⟨"map<" ++ key.text ++ ", " ++ value.text ++ ">"⟩

/-- Whether the url is written as a map. -/
def isMap (url : DeclUrl) : Bool := (dropStart? mapStart url.text.toList).isSome

/-- `cs` without one `>` at its end. -/
def dropClosing (cs : List Char) : List Char :=
  if cs.getLast? = some '>' then cs.dropLast else cs

/-- The key type of a map url: what stands before the first comma. -/
def keyArgument? (url : DeclUrl) : Option DeclUrl := do
  let inner ← dropStart? mapStart url.text.toList
  let (key, _) ← splitFirstChars ',' inner
  return ⟨String.ofList (trimChars key)⟩

/-- The value type of a map url: what stands after the first comma, up to the closing bracket. -/
def valueArgument? (url : DeclUrl) : Option DeclUrl := do
  let _ ← dropStart? mapStart url.text.toList
  let (_, rest) ← splitFirstChars ',' url.text.toList
  return ⟨String.ofList (trimChars (dropClosing rest))⟩

/-- The url without everything up to the last slash. -/
def qualifiedName (url : DeclUrl) : String := afterLast '/' url.text

/-- The last name of the url. -/
def simpleName (url : DeclUrl) : String := afterLast '.' url.qualifiedName

/-- The package, or for a nested declaration the type around it: the qualified name up to its last
dot. -/
def enclosing? (url : DeclUrl) : Option String :=
  (splitLast '.' url.qualifiedName).map Prod.fst

end DeclUrl

/-- A reference to one member of a declaration. -/
structure MemberUrl where
  owner : DeclUrl
  member : String
  deriving DecidableEq, Repr, Inhabited, Hashable

namespace MemberUrl

/-- The owner and the member with a number sign between them. -/
def text (url : MemberUrl) : String := url.owner.text ++ "#" ++ url.member

/-- Member urls are ordered by owner, then by member, both by code points. -/
def compare (a b : MemberUrl) : Ordering :=
  (Ord.compare a.owner.text b.owner.text).then (Ord.compare a.member b.member)

end MemberUrl

end SchemaForge
