import SchemaForge.Number.Binary64
import SchemaForge.Toml.Scan
set_option autoImplicit false

/-!
# The numbers of a document

## Main definitions

* `SchemaForge.Toml.Numeric` — an integer or a floating-point number.
* `SchemaForge.Toml.numeric` — the number that comes next.
-/

namespace SchemaForge.Toml

open Text

/-- An integer or a floating-point number. -/
inductive Numeric where
  | integer (n : Int)
  | float (number : Binary64)
  deriving DecidableEq, Repr, Inhabited

/-- Digits with single underscores between them, at least one; the underscores are left out. -/
def scanDigits (isDigit : Char → Bool) : Nat → List Char → Option (List Char × List Char)
  | 0, _ | _, [] => none
  | fuel + 1, c :: rest =>
    if !isDigit c then none
    else
      match rest with
      | '_' :: next :: more => consChar c (scanDigits isDigit fuel (next :: more))
      | '_' :: [] => none
      | next :: more =>
        if isDigit next then consChar c (scanDigits isDigit fuel (next :: more))
        else some ([c], rest)
      | [] => some ([c], [])

/-- Digits with single underscores between them. -/
def digits (isDigit : Char → Bool) : Scan (List Char) := fun cs =>
  scanDigits isDigit (cs.length + 1) cs

/-- The number in digits to a base. -/
def numberIn (base : Nat) (digits : List Char) : Option Nat :=
  digits.foldlM (fun n c => do return base * n + (← hexDigit? c)) 0

/-- Whether the character is a digit to a base. -/
def isDigitIn (base : Nat) (c : Char) : Bool :=
  match hexDigit? c with
  | some d => d < base
  | none => false

/-- The base behind the zero of a prefix. -/
def base? : Char → Option Nat
  | 'x' => some 16
  | 'o' => some 8
  | 'b' => some 2
  | _ => none

/-- The sign that comes next, if one does: whether it is a minus. -/
def sign : Scan (Option Bool) := do
  if ← accept ['-'] then return some true
  if ← accept ['+'] then return some false
  return none

/-- Takes the letter of an exponent if it comes next. -/
def exponentLetter : Scan Bool := do
  if ← accept ['e'] then return true
  accept ['E']

/-- An exponent, if one comes next. -/
def exponent : Scan (Option Int) := do
  if ← exponentLetter then
    let negative := (← sign) == some true
    let n := decimalValue (← digits isDigit)
    return some (if negative then -(n : Int) else n)
  else return none

/-- A number in decimal digits. Without a fraction and an exponent it is an integer. A number that
is too great for its form is none. -/
def decimal (negative : Bool) : Scan Numeric := do
  let whole ← digits isDigit
  if 1 < whole.length && whole.head? = some '0' then failure
  let fraction ← if ← accept ['.'] then some <$> digits isDigit else pure none
  match fraction, ← exponent with
  | none, none =>
    let n : Int := decimalValue whole
    return .integer (if negative then -n else n)
  | fraction, power =>
    let places := fraction.getD []
    match Binary64.ofDecimal negative (decimalValue (whole ++ places))
        (power.getD 0 - places.length) with
    | .infinity _ => failure
    | number => return .float number

/-- The number that comes next. A prefix for another base goes without a sign. -/
def numeric : Scan Numeric := do
  let sign? ← sign
  let negative := sign? == some true
  if ← accept ['i', 'n', 'f'] then return .float (.infinity negative)
  if ← accept ['n', 'a', 'n'] then return .float .nan
  match ← get with
  | '0' :: letter :: rest =>
    match base? letter with
    | some base =>
      if sign?.isSome then failure
      set rest
      let n ← (numberIn base (← digits (isDigitIn base)) : Option Nat)
      return .integer n
    | none => decimal negative
  | _ => decimal negative

end SchemaForge.Toml
