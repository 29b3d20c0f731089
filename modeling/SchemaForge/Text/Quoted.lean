import SchemaForge.Text.CaseTable
import SchemaForge.Text.QuotedTable
set_option autoImplicit false

/-!
# Quoted text in messages

Messages show names and values between double quotes, with every character that could not be told
apart in print spelled out.

## Main definitions

* `SchemaForge.Text.escapeChar` — the spelling of one character.
* `SchemaForge.Text.quote` — a text between quotes.
* `SchemaForge.Text.quoteList` — a bracketed list of quoted texts.
* `SchemaForge.Text.commaSeparated` — texts joined by commas.
-/

namespace SchemaForge.Text

/-- `n` in lower-case hexadecimal digits. -/
def hexDigits (n : Nat) : List Char := Nat.toDigits 16 n

/-- The spelling of `c` between quotes: quote and backslash follow a backslash, the line
characters have their letters, and a character without a form of its own is given by its number
in braces. -/
def escapeChar (c : Char) : List Char :=
  if c = '"' then ['\\', '"']
  else if c = '\\' then ['\\', '\\']
  else if c = '\n' then ['\\', 'n']
  else if c = '\t' then ['\\', 't']
  else if c = '\r' then ['\\', 'r']
  else if c = '\x00' then ['\\', '0']
  else if inRanges formlessRanges c.toNat then
    ['\\', 'u', '\x7b'] ++ hexDigits c.toNat ++ ['\x7d']
  else [c]

/-- `s` between quotes. -/
def quote (s : String) : String :=
  String.ofList ('"' :: s.toList.flatMap escapeChar ++ ['"'])

/-- The texts one after the other with a comma and a space between them. -/
def commaSeparated (texts : List String) : String := String.intercalate ", " texts

/-- The quoted texts between brackets. -/
def quoteList (texts : List String) : String := "[" ++ commaSeparated (texts.map quote) ++ "]"

end SchemaForge.Text
