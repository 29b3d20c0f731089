set_option autoImplicit false

/-!
# Numerals

## Main definitions

* `SchemaForge.Text.digitsValue?` — the value of decimal digits.
* `SchemaForge.Text.signedValue?` — the value of digits after an optional sign.
* `SchemaForge.Text.isReal` — the grammar of real numbers: decimal fractions with an optional
  exponent, infinities, and what is not a number.
-/

namespace SchemaForge.Text

/-- Whether `c` is one of the digits `0` to `9`. -/
def isDigit (c : Char) : Bool := '0' ≤ c && c ≤ '9'

/-- The value of a digit. -/
def digitValue (c : Char) : Nat := c.toNat - '0'.toNat

/-- The value of decimal digits, the most significant first. -/
def decimalValue (digits : List Char) : Nat :=
  digits.foldl (fun n c => n * 10 + digitValue c) 0

/-- The value of a text of decimal digits, at least one. -/
def digitsValue? (cs : List Char) : Option Nat :=
  if cs.isEmpty || !cs.all isDigit then none else some (decimalValue cs)

/-- The value of digits after an optional sign. -/
def signedValue? : List Char → Option Int
  | '+' :: digits => (digitsValue? digits).map Int.ofNat
  | '-' :: digits => (digitsValue? digits).map fun n => -(n : Int)
  | digits => (digitsValue? digits).map Int.ofNat

/-- Whether `cs` is an optional sign and digits, with a value between the bounds. -/
def isIntegerWithin (low high : Int) (cs : List Char) : Bool :=
  match signedValue? cs with
  | some n => low ≤ n && n ≤ high
  | none => false

/-- `cs` without a sign at its beginning. -/
def dropSign : List Char → List Char
  | '+' :: cs => cs
  | '-' :: cs => cs
  | cs => cs

/-- Whether `cs` is the exponent of a number, from its letter on, or nothing. -/
def isExponent : List Char → Bool
  | [] => true
  | e :: cs =>
    (e == 'e' || e == 'E') && !(dropSign cs).isEmpty && (dropSign cs).all isDigit

/-- Whether `cs` is a decimal fraction without a sign: digits on at least one side of the point,
which may be absent, and an optional exponent. -/
def isFraction (cs : List Char) : Bool :=
  let whole := cs.takeWhile isDigit
  match cs.dropWhile isDigit with
  | '.' :: rest =>
    !(whole.isEmpty && (rest.takeWhile isDigit).isEmpty) && isExponent (rest.dropWhile isDigit)
  | rest => !whole.isEmpty && isExponent rest

/-- The words for numbers without digits, in any letter case. -/
def isNumberWord (cs : List Char) : Bool :=
  let word := String.ofList (cs.map Char.toLower)
  word == "inf" || word == "infinity" || word == "nan"

/-- Whether `cs` is a real number after an optional sign. -/
def isReal (cs : List Char) : Bool := isNumberWord (dropSign cs) || isFraction (dropSign cs)

end SchemaForge.Text
