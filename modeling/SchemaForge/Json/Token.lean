set_option autoImplicit false

/-!
# JSON tokens

## Main definitions

* `SchemaForge.Json.Token` — the tokens of a document.
* `SchemaForge.Json.tokenize` — the tokens of a text, white space between them skipped.
* `SchemaForge.Json.Token.chars` — how a token is written.

## Design

A string literal is first read into units, which are characters or halves of surrogate pairs; the
halves are then joined. A number is checked against its grammar and kept as a literal.
-/

namespace SchemaForge.Json

/-- A token of a document. -/
inductive Token where
  | openArray
  | closeArray
  | openObject
  | closeObject
  | comma
  | colon
  | null
  | bool (value : Bool)
  | number (literal : String)
  | string (text : Option String)
  deriving DecidableEq, Repr, Inhabited

/-- The characters that may stand between tokens. -/
def isSpace (c : Char) : Bool := c == ' ' || c == '\n' || c == '\t' || c == '\r'

/-! ### String literals -/

/-- One unit of a string literal. -/
inductive TextUnit where
  | char (c : Char)
  /-- The half of a surrogate pair with the given number. -/
  | half (n : Nat)
  deriving DecidableEq, Repr

/-- The value of a hexadecimal digit. -/
def hexDigit? (c : Char) : Option Nat :=
  if '0' ≤ c && c ≤ '9' then some (c.toNat - '0'.toNat)
  else if 'a' ≤ c && c ≤ 'f' then some (c.toNat - 'a'.toNat + 10)
  else if 'A' ≤ c && c ≤ 'F' then some (c.toNat - 'A'.toNat + 10)
  else none

/-- The value of four hexadecimal digits. -/
def hexNumber? (a b c d : Char) : Option Nat := do
  return (((← hexDigit? a) * 16 + (← hexDigit? b)) * 16 + (← hexDigit? c)) * 16 + (← hexDigit? d)

/-- The unit with the given number. -/
def TextUnit.ofNumber (n : Nat) : TextUnit :=
  if 0xD800 ≤ n && n ≤ 0xDFFF then .half n else .char (Char.ofNat n)

/-- The character a backslash and `c` stand for. -/
def unescape? (c : Char) : Option Char :=
  match c with
  | '"' => some '"'
  | '\\' => some '\\'
  | '/' => some '/'
  | 'b' => some '\x08'
  | 'f' => some '\x0c'
  | 'n' => some '\n'
  | 'r' => some '\r'
  | 't' => some '\t'
  | _ => none

/-- The units of a string literal up to its closing quote, and what follows the quote. Control
characters below the space must be escaped. -/
def scanUnits : List Char → Option (List TextUnit × List Char)
  | [] => none
  | '"' :: rest => some ([], rest)
  | '\\' :: 'u' :: a :: b :: c :: d :: rest => do
    let n ← hexNumber? a b c d
    let (units, after) ← scanUnits rest
    return (.ofNumber n :: units, after)
  | '\\' :: e :: rest => do
    let c ← unescape? e
    let (units, after) ← scanUnits rest
    return (.char c :: units, after)
  | c :: rest =>
    if c.toNat < 0x20 || c == '\\' then none
    else do
      let (units, after) ← scanUnits rest
      return (.char c :: units, after)

/-- The text the units spell: a high half must be followed by a low one. -/
def joinUnits : List TextUnit → Option (List Char)
  | [] => some []
  | .char c :: units => (c :: ·) <$> joinUnits units
  | .half high :: .half low :: units =>
    if high < 0xDC00 && 0xDC00 ≤ low then
      (Char.ofNat (0x10000 + (high - 0xD800) * 0x400 + (low - 0xDC00)) :: ·) <$> joinUnits units
    else none
  | .half _ :: _ => none

/-! ### Numbers -/

/-- Whether `c` is a decimal digit. -/
def isDigit (c : Char) : Bool := '0' ≤ c && c ≤ '9'

/-- The digits at the beginning of `cs`, at least one, and what follows them. -/
def scanDigits (cs : List Char) : Option (List Char × List Char) :=
  let digits := cs.takeWhile isDigit
  if digits.isEmpty then none else some (digits, cs.dropWhile isDigit)

/-- The integer part of a number: a zero, or digits that do not begin with one. -/
def scanInteger : List Char → Option (List Char × List Char)
  | '0' :: rest => some (['0'], rest)
  | cs => scanDigits cs

/-- The fraction of a number, which may be absent. -/
def scanFraction : List Char → Option (List Char × List Char)
  | '.' :: rest => do
    let (digits, after) ← scanDigits rest
    return ('.' :: digits, after)
  | cs => some ([], cs)

/-- The sign of an exponent, which may be absent. -/
def scanSign : List Char → List Char × List Char
  | '+' :: rest => (['+'], rest)
  | '-' :: rest => (['-'], rest)
  | cs => ([], cs)

/-- The exponent of a number, which may be absent. -/
def scanExponent : List Char → Option (List Char × List Char)
  | e :: rest =>
    if e == 'e' || e == 'E' then do
      let (sign, cs) := scanSign rest
      let (digits, after) ← scanDigits cs
      return (e :: sign ++ digits, after)
    else some ([], e :: rest)
  | [] => some ([], [])

/-- A number without its sign. -/
def scanUnsigned (cs : List Char) : Option (List Char × List Char) := do
  let (whole, cs) ← scanInteger cs
  let (fraction, cs) ← scanFraction cs
  let (exponent, cs) ← scanExponent cs
  return (whole ++ fraction ++ exponent, cs)

/-- A number. -/
def scanNumber : List Char → Option (List Char × List Char)
  | '-' :: rest => do
    let (literal, after) ← scanUnsigned rest
    return ('-' :: literal, after)
  | cs => scanUnsigned cs

/-! ### Tokens -/

/-- The token at the beginning of `cs`, and what follows it. -/
def scanToken : List Char → Option (Token × List Char)
  | [] => none
  | '[' :: rest => some (.openArray, rest)
  | ']' :: rest => some (.closeArray, rest)
  | '\x7b' :: rest => some (.openObject, rest)
  | '\x7d' :: rest => some (.closeObject, rest)
  | ',' :: rest => some (.comma, rest)
  | ':' :: rest => some (.colon, rest)
  | '"' :: rest => do
    let (units, after) ← scanUnits rest
    return (.string ((joinUnits units).map String.ofList), after)
  | 'n' :: 'u' :: 'l' :: 'l' :: rest => some (.null, rest)
  | 't' :: 'r' :: 'u' :: 'e' :: rest => some (.bool true, rest)
  | 'f' :: 'a' :: 'l' :: 's' :: 'e' :: rest => some (.bool false, rest)
  | cs => do
    let (literal, after) ← scanNumber cs
    return (.number (String.ofList literal), after)

/-- The tokens of `cs`, if they are less than `bound`. -/
def tokensWithin : Nat → List Char → Option (List Token)
  | 0, _ => none
  | bound + 1, cs =>
    match cs.dropWhile isSpace with
    | [] => some []
    | c :: rest => do
      let (token, after) ← scanToken (c :: rest)
      return token :: (← tokensWithin bound after)

/-- The tokens of a text; each takes at least one of its characters. -/
def tokenize (cs : List Char) : Option (List Token) := tokensWithin (cs.length + 1) cs

/-! ### Writing tokens -/

/-- How `c` is written in a string literal: quote, backslash and control characters are escaped,
all else stands for itself. -/
def escapeChar (c : Char) : List Char :=
  if c = '"' then ['\\', '"']
  else if c = '\\' then ['\\', '\\']
  else if c = '\x08' then ['\\', 'b']
  else if c = '\t' then ['\\', 't']
  else if c = '\n' then ['\\', 'n']
  else if c = '\x0c' then ['\\', 'f']
  else if c = '\r' then ['\\', 'r']
  else if c.toNat < 0x20 then
    ['\\', 'u', '0', '0', Nat.digitChar (c.toNat / 16), Nat.digitChar (c.toNat % 16)]
  else [c]

/-- How a string literal is written; the literal without text is the first lone half. -/
def stringChars : Option String → List Char
  | some s => '"' :: (s.toList.flatMap escapeChar ++ ['"'])
  | none => ['"', '\\', 'u', 'd', '8', '0', '0', '"']

/-- How a token is written. -/
def Token.chars : Token → List Char
  | .openArray => ['[']
  | .closeArray => [']']
  | .openObject => ['\x7b']
  | .closeObject => ['\x7d']
  | .comma => [',']
  | .colon => [':']
  | .null => ['n', 'u', 'l', 'l']
  | .bool true => ['t', 'r', 'u', 'e']
  | .bool false => ['f', 'a', 'l', 's', 'e']
  | .number literal => literal.toList
  | .string text => stringChars text

end SchemaForge.Json
