set_option autoImplicit false

/-!
# Spans of time

## Main definitions

* `SchemaForge.Duration` — a span of time.
* `SchemaForge.Duration.text` — the span in its greatest unit of which there is at least one.
-/

namespace SchemaForge

/-- A span of time. -/
structure Duration where
  nanoseconds : Nat
  deriving DecidableEq, Repr, Inhabited

namespace Duration

/-- The span of so many milliseconds. -/
def ofMilliseconds (n : Nat) : Duration := ⟨n * 1000000⟩

/-- The span of so many seconds. -/
def ofSeconds (n : Nat) : Duration := ⟨n * 1000000000⟩

/-- How many whole seconds there are in the span. -/
def wholeSeconds (duration : Duration) : Nat := duration.nanoseconds / 1000000000

/-- The digits of `n` behind a decimal point, `places` of them, without the zeros at the end. -/
def fraction (places n : Nat) : List Char :=
  let digits := (Nat.toDigits 10 n).leftpad places '0'
  (digits.reverse.dropWhile (· == '0')).reverse

/-- `n` divided by ten to the power of `places`, as a decimal number. -/
def decimal (places n : Nat) : String :=
  let unit := Nat.pow 10 places
  let rest := fraction places (n % unit)
  toString (n / unit) ++ (if rest = [] then "" else "." ++ String.ofList rest)

/-- The span in seconds, milliseconds, microseconds or nanoseconds: in the greatest of these units
of which there is at least one. -/
def text (duration : Duration) : String :=
  let n := duration.nanoseconds
  if 1000000000 ≤ n then decimal 9 n ++ "s"
  else if 1000000 ≤ n then decimal 6 n ++ "ms"
  else if 1000 ≤ n then decimal 3 n ++ "µs"
  else toString n ++ "ns"

end Duration

end SchemaForge
