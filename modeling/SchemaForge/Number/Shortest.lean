import SchemaForge.Number.Binary64
set_option autoImplicit false

/-!
# The shortest text of a number

A number is written with the fewest digits that still tell it apart from all other numbers of 64
bits, and of these with the nearest ones. The text never has an exponent.

## Main definitions

* `SchemaForge.Binary64.Rounding` — the real numbers that round to a number.
* `SchemaForge.Binary64.Magnitude.shortest` — the fewest digits that read back.
* `SchemaForge.Binary64.text` — the text of a number.
-/

namespace SchemaForge.Binary64

/-- What one is as a multiple of `2 ^ (-1076)`, a quarter of the smallest positive number. -/
def unit : Nat := 4 * Nat.pow 2 scale

/-- A positive number with the real numbers that round to it, all as multiples of
`2 ^ (-1076)`: they reach from `low` to `high`, with the ends if `closed`. -/
structure Rounding where
  low : Nat
  value : Nat
  high : Nat
  closed : Bool
  deriving Repr

/-- The real numbers that round to a magnitude. Below a power of two the numbers lie closer
together. -/
def Magnitude.rounding (magnitude : Magnitude) : Rounding :=
  let value := 4 * magnitude.mantissa * Nat.pow 2 magnitude.power
  let above := 2 * Nat.pow 2 magnitude.power
  let below :=
    if magnitude.mantissa = Nat.pow 2 (precision - 1) && 0 < magnitude.power then
      Nat.pow 2 magnitude.power
    else above
  ⟨value - below, value, value + above, magnitude.mantissa % 2 = 0⟩

/-- Multiples of `10 ^ exponent`, as ratios to `2 ^ (-1076)`: `d` stands for
`d * scale / unit`. -/
structure Grid where
  scale : Nat
  unit : Nat

/-- The grid of the multiples of `10 ^ exponent`. -/
def gridOf (exponent : Int) : Grid :=
  match exponent with
  | .ofNat e => ⟨Nat.pow 10 e * unit, 1⟩
  | .negSucc e => ⟨unit, Nat.pow 10 (e + 1)⟩

/-- Whether the point `d` of the grid rounds to the number. -/
def Rounding.contains (r : Rounding) (grid : Grid) (d : Nat) : Bool :=
  let point := d * grid.scale
  let low := r.low * grid.unit
  let high := r.high * grid.unit
  if r.closed then low ≤ point && point ≤ high else low < point && point < high

/-- The point of the grid that rounds to the number and is nearest to it, if one does. Only the two
points around the number can; of two that are equally near the greater one is taken. -/
def Rounding.hit? (r : Rounding) (grid : Grid) : Option Nat :=
  let target := r.value * grid.unit
  let d := target / grid.scale
  let nearer := 2 * (target - d * grid.scale) < grid.scale
  if r.contains grid d && (nearer || !r.contains grid (d + 1)) then some d
  else if r.contains grid (d + 1) then some (d + 1)
  else none

/-- The number of decimal digits of `n`. -/
def digitCount (n : Nat) : Nat := (Nat.toDigits 10 n).length

/-- The exponent of the power of ten next to the number that is not less than it. -/
def Rounding.top (r : Rounding) : Int :=
  if unit ≤ r.value then digitCount (r.value / unit)
  else 1 - (digitCount (unit / r.value) : Int)

/-- The digits of the number on the first of the given grids on which it has any, finer grids
following coarser ones, and the exponent of the grid. -/
def Rounding.firstHit (r : Rounding) : Nat → Int → Nat × Int
  | 0, exponent => (r.value * (gridOf exponent).unit / (gridOf exponent).scale, exponent)
  | fuel + 1, exponent =>
    match r.hit? (gridOf exponent) with
    | some d => (d, exponent)
    | none => r.firstHit fuel (exponent - 1)

/-- The fewest digits that read back as a positive number, as an integer, and the exponent of ten
that belongs to them. The power of ten above the number may be all there is to it, and seventeen
digits are always enough. -/
def Magnitude.shortest (magnitude : Magnitude) : Nat × Int :=
  magnitude.rounding.firstHit 18 magnitude.rounding.top

/-- The text of `digits * 10 ^ exponent`, without an exponent. -/
def positional (digits : Nat) (exponent : Int) : String :=
  let written := Nat.toDigits 10 digits
  match exponent with
  | .ofNat e => String.ofList (written ++ List.replicate e '0')
  | .negSucc e =>
    let padded := written.leftpad (e + 2) '0'
    let cut := padded.length - (e + 1)
    String.ofList (padded.take cut ++ '.' :: padded.drop cut)

/-- The text of a magnitude. -/
def Magnitude.text (magnitude : Magnitude) : String :=
  if magnitude.mantissa = 0 then "0"
  else positional magnitude.shortest.1 magnitude.shortest.2

/-- The text of a number. -/
def text : Binary64 → String
  | .nan => "NaN"
  | .infinity negative => if negative then "-inf" else "inf"
  | .finite negative magnitude _ => if negative then "-" ++ magnitude.text else magnitude.text

/-- The double next to a millionth is a little less than it. -/
example : (ofDecimal false 1 (-6)).text = "0.000001" := by decide +kernel

end SchemaForge.Binary64
