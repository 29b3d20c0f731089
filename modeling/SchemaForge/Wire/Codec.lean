import SchemaForge.Text.Utf8
set_option autoImplicit false

/-!
# The binary form of values

Numbers have a fixed width and come with their lowest byte first. Texts and lists are preceded by
their length in eight bytes, a choice by its number in four, an optional value and a truth value
take one byte to say which. Records are their parts one after the other, without any separator.

## Main definitions

* `SchemaForge.Wire.Decoder` — reading a value from the beginning of bytes.
* `SchemaForge.Wire.DecodeError` — why bytes cannot be decoded.
* `SchemaForge.Wire` — the types that have a binary form.
* `SchemaForge.Wire.via` — the binary form of a record, by its parts.
-/

namespace SchemaForge

namespace Wire

/-- Bytes in order. -/
abbrev Bytes := List UInt8

/-- Why bytes cannot be decoded. -/
inductive DecodeError where
  /-- The bytes end inside a number. -/
  | endOfNumber
  /-- A text is longer than the bytes that are left. -/
  | endOfText
  /-- The bytes of a text encode no text. -/
  | notText (bytes : Bytes)
  /-- The byte of a truth value is neither 0 nor 1. -/
  | notFlag (byte : UInt8)
  /-- The byte of an optional value is neither 0 nor 1. -/
  | notPresence (byte : UInt8)
  /-- There are only `count` choices. -/
  | unknownChoice (index count : Nat)
  deriving DecidableEq, Repr, Inhabited

/-- The text of a failure. -/
def DecodeError.message : DecodeError → String
  | .endOfNumber => "io error: unexpected end of file"
  | .endOfText => "io error: "
  | .notText bytes => "string is not valid utf8: " ++ (Text.utf8Fault bytes).message
  | .notFlag byte =>
    "invalid u8 while decoding bool, expected 0 or 1, found " ++ toString byte.toNat
  | .notPresence byte => "tag for enum is not valid, found " ++ toString byte.toNat
  | .unknownChoice index count =>
    "invalid value: integer `" ++ toString index ++ "`, expected variant index 0 <= i < " ++
      toString count

/-- Reads a value from the beginning of bytes, and leaves the rest. -/
abbrev Decoder (α : Type) := StateT Bytes (Except DecodeError) α

end Wire

/-- The types that have a binary form. -/
class Wire (α : Type) where
  encode : α → Wire.Bytes
  decode : Wire.Decoder α

namespace Wire

/-! ### Numbers -/

/-- The lowest `width` bytes of `n`, the lowest one first. -/
def littleEndian : Nat → Nat → Bytes
  | 0, _ => []
  | width + 1, n => UInt8.ofNat (n % 256) :: littleEndian width (n / 256)

/-- The number with the given bytes, the lowest one first. -/
def ofLittleEndian : Bytes → Nat
  | [] => 0
  | b :: bytes => b.toNat + 256 * ofLittleEndian bytes

/-- The next `count` bytes, if there are as many. -/
def take (count : Nat) (error : DecodeError) : Decoder Bytes := fun bytes =>
  if bytes.length < count then .error error else .ok (bytes.take count, bytes.drop count)

/-- The next `width` bytes as a number. -/
def number (width : Nat) : Decoder Nat := do return ofLittleEndian (← take width .endOfNumber)

/-- The next byte. -/
def byte : Decoder UInt8 := do return UInt8.ofNat (← number 1)

/-- The number of a choice, in four bytes. -/
def choice (index : Nat) : Bytes := littleEndian 4 index

/-- A length, in eight bytes. -/
def length (n : Nat) : Bytes := littleEndian 8 n

instance : Wire UInt32 where
  encode n := littleEndian 4 n.toNat
  decode := do return UInt32.ofNat (← number 4)

instance : Wire Int32 where
  encode n := littleEndian 4 n.toUInt32.toNat
  decode := do return (UInt32.ofNat (← number 4)).toInt32

instance : Wire Bool where
  encode b := [if b then 1 else 0]
  decode := do
    match ← byte with
    | 0 => return false
    | 1 => return true
    | b => throw (.notFlag b)

/-! ### Texts -/

instance : Wire String where
  encode s := length (Text.toBytes s).length ++ Text.toBytes s
  decode := do
    let bytes ← take (← number 8) .endOfText
    match Text.ofBytes? bytes with
    | some s => return s
    | none => throw (.notText bytes)

/-! ### Compound values -/

instance {α β : Type} [Wire α] [Wire β] : Wire (α × β) where
  encode p := encode p.1 ++ encode p.2
  decode := do
    let a ← decode
    let b ← decode
    return (a, b)

instance {α : Type} [Wire α] : Wire (Option α) where
  encode
    | none => [0]
    | some a => 1 :: encode a
  decode := do
    match ← byte with
    | 0 => return none
    | 1 => return some (← decode)
    | b => throw (.notPresence b)

/-- The values of `count` elements one after the other. -/
def repeated {α : Type} (element : Decoder α) : Nat → Decoder (List α)
  | 0 => pure []
  | count + 1 => do
    let a ← element
    let rest ← repeated element count
    return a :: rest

/-- A list whose elements are read by `element`. -/
def listOf {α : Type} (element : Decoder α) : Decoder (List α) := do
  repeated element (← number 8)

instance {α : Type} [Wire α] : Wire (List α) where
  encode items := length items.length ++ items.flatMap encode
  decode := listOf decode

/-- The binary form of a record is that of its parts. -/
@[reducible]
def via {α β : Type} [Wire β] (parts : α → β) (ofParts : β → α) : Wire α where
  encode a := encode (parts a)
  decode := do return ofParts (← decode)

/-- Reads a value that may nest in itself: `step` reads one level, given the reader of the levels
below, and there are at most `depth` levels. -/
def nested {α : Type} (step : Decoder α → Decoder α) : Nat → Decoder α
  | 0 => throw .endOfNumber
  | depth + 1 => step (nested step depth)

/-- Reads a value that may nest in itself. Each level takes at least one byte, so there are not
more levels than bytes; the level after the last byte finds none. -/
def recursive {α : Type} (step : Decoder α → Decoder α) : Decoder α := fun bytes =>
  nested step (bytes.length + 1) bytes

end Wire

end SchemaForge
