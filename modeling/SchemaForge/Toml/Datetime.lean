import SchemaForge.Text.Numeral
set_option autoImplicit false

/-!
# Dates and times

## Main definitions

* `SchemaForge.Toml.Datetime` — a date, a time of day, or both, then perhaps with an offset.
* `SchemaForge.Toml.Datetime.text` — its text.
* `SchemaForge.Toml.scanDatetime?` — the date or time at the beginning of a text.
-/

namespace SchemaForge.Toml

open Text

/-- A day of the calendar. -/
structure Date where
  year : Nat
  month : Nat
  day : Nat
  deriving DecidableEq, Repr, Inhabited

/-- A time of day. -/
structure Time where
  hour : Nat
  minute : Nat
  second : Nat
  nanosecond : Nat
  deriving DecidableEq, Repr, Inhabited

/-- How far the local time is from the universal one. -/
inductive Offset where
  /-- The universal time itself. -/
  | utc
  | minutes (n : Int)
  deriving DecidableEq, Repr, Inhabited

/-- A date, a time of day, or both, then perhaps with an offset. -/
inductive Datetime where
  | date (date : Date)
  | time (time : Time)
  | moment (date : Date) (time : Time) (offset : Option Offset)
  deriving DecidableEq, Repr, Inhabited

/-! ### Writing -/

/-- `n` in decimal digits, at least `width` of them. -/
def padded (width n : Nat) : String :=
  String.ofList ((Nat.toDigits 10 n).leftpad width '0')

/-- The text of a date. -/
def Date.text (date : Date) : String :=
  padded 4 date.year ++ "-" ++ padded 2 date.month ++ "-" ++ padded 2 date.day

/-- The text of a fraction of a second, without zeros at its end. -/
def fractionText (nanosecond : Nat) : String :=
  if nanosecond = 0 then ""
  else
    let digits := (Nat.toDigits 10 nanosecond).leftpad 9 '0'
    "." ++ String.ofList (digits.reverse.dropWhile (· == '0')).reverse

/-- The text of a time. -/
def Time.text (time : Time) : String :=
  padded 2 time.hour ++ ":" ++ padded 2 time.minute ++ ":" ++ padded 2 time.second ++
    fractionText time.nanosecond

/-- The text of an offset. -/
def Offset.text : Offset → String
  | .utc => "Z"
  | .minutes n =>
    (if n < 0 then "-" else "+") ++ padded 2 (n.natAbs / 60) ++ ":" ++ padded 2 (n.natAbs % 60)

/-- The text of a date or time. -/
def Datetime.text : Datetime → String
  | .date d => d.text
  | .time t => t.text
  | .moment d t offset =>
    d.text ++ "T" ++ t.text ++
      match offset with
      | none => ""
      | some o => o.text

/-! ### Reading -/

/-- Whether a year has 366 days. -/
def isLeapYear (year : Nat) : Bool :=
  year % 4 = 0 && (year % 100 != 0 || year % 400 = 0)

/-- The number of days of a month. -/
def daysOf (year month : Nat) : Nat :=
  if month = 2 then if isLeapYear year then 29 else 28
  else if month = 4 || month = 6 || month = 9 || month = 11 then 30
  else 31

/-- Whether there is such a day. -/
def Date.exists (date : Date) : Bool :=
  1 ≤ date.month && date.month ≤ 12 && 1 ≤ date.day && date.day ≤ daysOf date.year date.month

/-- Whether there is such a time; the last second may be a leap second. -/
def Time.exists (time : Time) : Bool :=
  time.hour ≤ 23 && time.minute ≤ 59 && time.second ≤ 60

/-- The number in two digits. -/
def two? (a b : Char) : Option Nat := digitsValue? [a, b]

/-- The date at the beginning of a text, and the rest. -/
def scanDate? : List Char → Option (Date × List Char)
  | y₁ :: y₂ :: y₃ :: y₄ :: '-' :: m₁ :: m₂ :: '-' :: d₁ :: d₂ :: rest => do
    let date : Date := ⟨← digitsValue? [y₁, y₂, y₃, y₄], ← two? m₁ m₂, ← two? d₁ d₂⟩
    if date.exists then some (date, rest) else none
  | _ => none

/-- The fraction of a second at the beginning of a text, in nanoseconds, and the rest. Digits
behind the ninth do not count. -/
def scanFraction? : List Char → Option (Nat × List Char)
  | '.' :: rest =>
    let digits := rest.takeWhile isDigit
    if digits = [] then none
    else some (decimalValue ((digits.take 9).rightpad 9 '0'), rest.dropWhile isDigit)
  | rest => some (0, rest)

/-- The time at the beginning of a text, and the rest. -/
def scanTime? : List Char → Option (Time × List Char)
  | h₁ :: h₂ :: ':' :: m₁ :: m₂ :: ':' :: s₁ :: s₂ :: rest => do
    let (nanosecond, rest) ← scanFraction? rest
    let time : Time := ⟨← two? h₁ h₂, ← two? m₁ m₂, ← two? s₁ s₂, nanosecond⟩
    if time.exists then some (time, rest) else none
  | _ => none

/-- An offset of hours and minutes, in minutes. -/
def offset? (sign : Int) (h₁ h₂ m₁ m₂ : Char) : Option Offset := do
  let hours ← two? h₁ h₂
  let minutes ← two? m₁ m₂
  if hours ≤ 23 && minutes ≤ 59 then some (.minutes (sign * (hours * 60 + minutes : Nat)))
  else none

/-- The offset at the beginning of a text, if there is one, and the rest. -/
def scanOffset? : List Char → Option (Option Offset × List Char)
  | 'Z' :: rest | 'z' :: rest => some (some .utc, rest)
  | '+' :: h₁ :: h₂ :: ':' :: m₁ :: m₂ :: rest => do
    return (some (← offset? 1 h₁ h₂ m₁ m₂), rest)
  | '-' :: h₁ :: h₂ :: ':' :: m₁ :: m₂ :: rest => do
    return (some (← offset? (-1) h₁ h₂ m₁ m₂), rest)
  | rest => some (none, rest)

/-- What follows the mark between a date and a time, if there is a time. -/
def afterMark? : List Char → Option (List Char)
  | 'T' :: rest | 't' :: rest => some rest
  | ' ' :: digit :: rest => if isDigit digit then some (digit :: rest) else none
  | _ => none

/-- Whether a text begins like a date. -/
def looksLikeDate (cs : List Char) : Bool :=
  (cs.take 4).all isDigit && (cs.drop 4).head? == some '-'

/-- Whether a text begins like a time. -/
def looksLikeTime (cs : List Char) : Bool :=
  (cs.take 2).all isDigit && (cs.drop 2).head? == some ':'

/-- The date or time at the beginning of a text that looks like one, and the rest. -/
def scanDatetime? (cs : List Char) : Option (Datetime × List Char) :=
  if looksLikeTime cs then do
    let (time, rest) ← scanTime? cs
    return (.time time, rest)
  else do
    let (date, rest) ← scanDate? cs
    match afterMark? rest with
    | none => return (.date date, rest)
    | some rest =>
      let (time, rest) ← scanTime? rest
      let (offset, rest) ← scanOffset? rest
      return (.moment date time offset, rest)

end SchemaForge.Toml
