import SchemaForge.Text.Numeral
set_option autoImplicit false

/-!
# Reading the characters of a document

## Main definitions

* `SchemaForge.Toml.Scan` — reading from the beginning of characters.
* `SchemaForge.Toml.text` — a string in any of its four forms.
* `SchemaForge.Toml.keyPath` — a key of one or several parts.
-/

namespace SchemaForge.Toml

open Text

/-- Reads something from the beginning of characters and leaves the rest, or fails. -/
abbrev Scan (α : Type) := StateT (List Char) Option α

/-- Takes the given characters if they come next. -/
def accept (expected : List Char) : Scan Bool := fun cs =>
  if expected.isPrefixOf cs then some (true, cs.drop expected.length) else some (false, cs)

/-- Takes the given characters, which must come next. -/
def expect (expected : List Char) : Scan Unit := do
  if ← accept expected then return () else failure

/-- Takes the characters that satisfy a condition. -/
def takeAll (condition : Char → Bool) : Scan (List Char) := fun cs =>
  some (cs.takeWhile condition, cs.dropWhile condition)

/-- The next character, which stays. -/
def peek : Scan (Option Char) := fun cs => some (cs.head?, cs)

/-! ### White space -/

/-- Whether the character is white space within a line. -/
def isSpace (c : Char) : Bool := c == ' ' || c == '\t'

/-- Whether the character may not stand anywhere, not even in a comment. -/
def isControl (c : Char) : Bool := (c.toNat < 0x20 && c != '\t') || c == '\x7f'

/-- Skips white space within a line. -/
def skipSpaces : Scan Unit := do
  let _ ← takeAll isSpace

/-- Skips white space, line breaks and comments. -/
def skipFrom : (inComment : Bool) → List Char → Option (List Char)
  | _, [] => some []
  | _, '\n' :: rest => skipFrom false rest
  | _, '\r' :: '\n' :: rest => skipFrom false rest
  | true, c :: rest => if isControl c then none else skipFrom true rest
  | false, '#' :: rest => skipFrom true rest
  | false, c :: rest => if isSpace c then skipFrom false rest else some (c :: rest)

/-- Skips white space, line breaks and comments. -/
def skipLines : Scan Unit := fun cs => (skipFrom false cs).map fun rest => ((), rest)

/-- The end of a line: perhaps a comment, and a line break or the end of the document. -/
def endLine : Scan Unit := do
  skipSpaces
  if ← accept ['#'] then
    let _ ← takeAll fun c => !isControl c
  match ← peek with
  | none => return ()
  | some '\n' => expect ['\n']
  | some _ => expect ['\r', '\n']

/-! ### Strings -/

/-- The value of a hexadecimal digit. -/
def hexDigit? (c : Char) : Option Nat :=
  if '0' ≤ c && c ≤ '9' then some (c.toNat - '0'.toNat)
  else if 'a' ≤ c && c ≤ 'f' then some (c.toNat - 'a'.toNat + 10)
  else if 'A' ≤ c && c ≤ 'F' then some (c.toNat - 'A'.toNat + 10)
  else none

/-- The character with the number in hexadecimal digits, if there is one. -/
def hexChar? (digits : List Char) : Option Char := do
  let n ← digits.foldlM (fun n c => do return 16 * n + (← hexDigit? c)) 0
  if n < 0xD800 || (0xE000 ≤ n && n < 0x110000) then some (Char.ofNat n) else none

/-- The character that a backslash and a letter stand for. -/
def escaped? : Char → Option Char
  | 'b' => some '\x08'
  | 't' => some '\t'
  | 'n' => some '\n'
  | 'f' => some '\x0c'
  | 'r' => some '\r'
  | '"' => some '"'
  | '\\' => some '\\'
  | _ => none

/-- One character put in front of what has been read. -/
def consChar (c : Char) (read : Option (List Char × List Char)) :
    Option (List Char × List Char) :=
  read.map fun (chars, rest) => (c :: chars, rest)

/-- A string with escapes up to its quotation mark. -/
def scanBasic : List Char → Option (List Char × List Char)
  | [] => none
  | '"' :: rest => some ([], rest)
  | '\\' :: 'u' :: a :: b :: c :: d :: rest => do
    consChar (← hexChar? [a, b, c, d]) (scanBasic rest)
  | '\\' :: 'U' :: a :: b :: c :: d :: e :: f :: g :: h :: rest => do
    consChar (← hexChar? [a, b, c, d, e, f, g, h]) (scanBasic rest)
  | '\\' :: letter :: rest => do consChar (← escaped? letter) (scanBasic rest)
  | c :: rest => if isControl c || c == '\\' then none else consChar c (scanBasic rest)

/-- Whether only white space stands before the next line break. -/
def breaksLine (cs : List Char) : Bool :=
  match cs.dropWhile isSpace with
  | '\n' :: _ | '\r' :: '\n' :: _ => true
  | _ => false

/-- A string with escapes over several lines, up to its three quotation marks; one or two more may
stand before them. Behind a backslash at the end of a line all white space is left out. -/
def scanBasicLines : (trimming : Bool) → List Char → Option (List Char × List Char)
  | _, [] => none
  | true, '\n' :: rest => scanBasicLines true rest
  | true, '\r' :: '\n' :: rest => scanBasicLines true rest
  | true, ' ' :: rest => scanBasicLines true rest
  | true, '\t' :: rest => scanBasicLines true rest
  | _, '"' :: '"' :: '"' :: '"' :: '"' :: rest => some (['"', '"'], rest)
  | _, '"' :: '"' :: '"' :: '"' :: rest => some (['"'], rest)
  | _, '"' :: '"' :: '"' :: rest => some ([], rest)
  | _, '\\' :: 'u' :: a :: b :: c :: d :: rest => do
    consChar (← hexChar? [a, b, c, d]) (scanBasicLines false rest)
  | _, '\\' :: 'U' :: a :: b :: c :: d :: e :: f :: g :: h :: rest => do
    consChar (← hexChar? [a, b, c, d, e, f, g, h]) (scanBasicLines false rest)
  | _, '\\' :: letter :: rest =>
    if breaksLine (letter :: rest) then scanBasicLines true (letter :: rest)
    else do consChar (← escaped? letter) (scanBasicLines false rest)
  | _, '\r' :: '\n' :: rest => consChar '\r' (consChar '\n' (scanBasicLines false rest))
  | _, c :: rest =>
    if (isControl c && c != '\n') || c == '\\' then none
    else consChar c (scanBasicLines false rest)

/-- A string without escapes up to its apostrophe. -/
def scanLiteral : List Char → Option (List Char × List Char)
  | [] => none
  | '\'' :: rest => some ([], rest)
  | c :: rest => if isControl c then none else consChar c (scanLiteral rest)

/-- A string without escapes over several lines, up to its three apostrophes; one or two more may
stand before them. -/
def scanLiteralLines : List Char → Option (List Char × List Char)
  | [] => none
  | '\'' :: '\'' :: '\'' :: '\'' :: '\'' :: rest => some (['\'', '\''], rest)
  | '\'' :: '\'' :: '\'' :: '\'' :: rest => some (['\''], rest)
  | '\'' :: '\'' :: '\'' :: rest => some ([], rest)
  | '\r' :: '\n' :: rest => consChar '\r' (consChar '\n' (scanLiteralLines rest))
  | c :: rest =>
    if isControl c && c != '\n' then none else consChar c (scanLiteralLines rest)

/-- The text that a scanner of characters reads. -/
def textOf (scan : List Char → Option (List Char × List Char)) : Scan String := do
  return String.ofList (← scan)

/-- Leaves out a line break, if one comes next. -/
def skipBreak : Scan Unit := do
  if ← accept ['\n'] then return ()
  let _ ← accept ['\r', '\n']

/-- A string of one line. -/
def lineText : Scan String := do
  if ← accept ['"'] then textOf scanBasic
  else
    expect ['\'']
    textOf scanLiteral

/-- A string in any of its four forms. A line break right at the beginning of a string over several
lines does not belong to it. -/
def text : Scan String := do
  if ← accept ['"', '"', '"'] then
    skipBreak
    return ← textOf (scanBasicLines false)
  if ← accept ['\'', '\'', '\''] then
    skipBreak
    return ← textOf scanLiteralLines
  lineText

/-! ### Keys -/

/-- Whether the character may stand in a key without quotation marks. -/
def isKeyChar (c : Char) : Bool := c.isAlphanum || c == '_' || c == '-'

/-- One part of a key. -/
def keyPart : Scan String := do
  match ← peek with
  | some '"' | some '\'' => lineText
  | _ =>
    let chars ← takeAll isKeyChar
    if chars = [] then failure
    return String.ofList chars

/-- Further parts of a key, each behind a dot; there are fewer of them than characters. -/
def keyParts : Nat → Scan (List String)
  | 0 => return []
  | fuel + 1 => do
    skipSpaces
    if ← accept ['.'] then
      skipSpaces
      let part ← keyPart
      return part :: (← keyParts fuel)
    else return []

/-- A key of one or several parts, with the white space around it. -/
def keyPath : Scan (List String) := do
  skipSpaces
  let first ← keyPart
  return first :: (← keyParts (← get).length)

end SchemaForge.Toml
