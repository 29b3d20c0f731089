set_option autoImplicit false

/-!
# Floating-point numbers of 64 bits

A finite number is a multiple of the smallest positive one, which is `2 ^ (-1074)`. The multiples
that are numbers have at most 53 binary digits before their trailing zeros, and each of them has
just one mantissa and one power of two.

## Main definitions

* `SchemaForge.Binary64.Magnitude` — a finite number without its sign.
* `SchemaForge.Binary64` — a number, an infinity, or no number at all.
* `SchemaForge.Binary64.ofDecimal` — the number nearest to a decimal fraction.
* `SchemaForge.Binary64.equals` — equality as numbers compare.
-/

namespace SchemaForge

namespace Binary64

/-- The number of binary digits of a mantissa. -/
def precision : Nat := 53

/-- Finite numbers are multiples of two to the power of minus this. -/
def scale : Nat := 1074

/-- The greatest power of a finite number. -/
def maxPower : Nat := 2045

/-- `mantissa * 2 ^ power / 2 ^ 1074`. A mantissa has fewer digits than it may have only where the
power cannot be less. -/
structure Magnitude where
  mantissa : Nat
  power : Nat
  mantissa_lt : mantissa < Nat.pow 2 precision
  le_mantissa : 0 < power → Nat.pow 2 (precision - 1) ≤ mantissa
  deriving DecidableEq, Repr

end Binary64

/-- A floating-point number of 64 bits. -/
inductive Binary64 where
  /-- Not a number. -/
  | nan
  | infinity (negative : Bool)
  | finite (negative : Bool) (magnitude : Binary64.Magnitude)
    (h : magnitude.power ≤ Binary64.maxPower)
  deriving DecidableEq, Repr, Inhabited

namespace Binary64

/-- The zero with a sign. -/
def zero (negative : Bool) : Binary64 := .finite negative ⟨0, 0, by decide, by decide⟩ (by decide)

/-! ### Rounding -/

/-- `numerator / denominator`, rounded to the nearest integer, a half to the even one. -/
def roundDiv (numerator denominator : Nat) : Nat :=
  let quotient := numerator / denominator
  let rest := 2 * (numerator % denominator)
  if rest < denominator || (rest = denominator && quotient % 2 = 0) then quotient
  else quotient + 1

/-- Rounding leads to an integer that is not less than the one before the number. -/
theorem div_le_roundDiv (numerator denominator : Nat) :
    numerator / denominator ≤ roundDiv numerator denominator := by
  simp only [roundDiv]
  split
  · exact Nat.le_refl _
  · exact Nat.le_succ _

/-- The power at which `numerator / denominator` has the digits of a mantissa before its binary
point, or zero if there are fewer of them. -/
def powerOf (numerator denominator : Nat) : Nat := (numerator / denominator).log2 + 1 - precision

/-- The digits of a mantissa are there if they can be. -/
theorem le_roundDiv_of_powerOf_pos {numerator denominator : Nat}
    (h : 0 < powerOf numerator denominator) :
    Nat.pow 2 (precision - 1) ≤
      roundDiv numerator (denominator * Nat.pow 2 (powerOf numerator denominator)) := by
  have hlog : (numerator / denominator).log2 = 52 + powerOf numerator denominator := by
    unfold powerOf precision at *
    omega
  have hne : numerator / denominator ≠ 0 := by
    intro hzero
    rw [hzero, Nat.log2_zero] at hlog
    omega
  have hle : 2 ^ (52 + powerOf numerator denominator) ≤ numerator / denominator :=
    (Nat.le_log2 hne).1 (Nat.le_of_eq hlog.symm)
  have hpos : 0 < Nat.pow 2 (powerOf numerator denominator) := Nat.pow_pos (by decide)
  refine Nat.le_trans ?_ (div_le_roundDiv _ _)
  rw [← Nat.div_div_eq_div_mul, Nat.le_div_iff_mul_le hpos]
  rwa [Nat.pow_add] at hle

/-- The magnitude nearest to `numerator / denominator / 2 ^ 1074`. If the mantissa has one digit too
many it is a power of two. -/
def Magnitude.nearest (numerator denominator : Nat) : Magnitude :=
  let power := powerOf numerator denominator
  let mantissa := roundDiv numerator (denominator * Nat.pow 2 power)
  if h : mantissa < Nat.pow 2 precision then ⟨mantissa, power, h, le_roundDiv_of_powerOf_pos⟩
  else ⟨Nat.pow 2 (precision - 1), power + 1, by decide, fun _ => Nat.le_refl _⟩

/-- The number nearest to `± numerator / denominator / 2 ^ 1074`. -/
def ofRatio (negative : Bool) (numerator denominator : Nat) : Binary64 :=
  let magnitude := Magnitude.nearest numerator denominator
  if h : magnitude.power ≤ maxPower then .finite negative magnitude h else .infinity negative

/-- The number nearest to `± digits * 10 ^ exponent`. Far outside the range of the numbers the
value is not computed. -/
def ofDecimal (negative : Bool) (digits : Nat) (exponent : Int) : Binary64 :=
  let magnitude := exponent + (Nat.toDigits 10 digits).length
  if digits = 0 || magnitude < -400 then zero negative
  else if 400 < magnitude then .infinity negative
  else
    match exponent with
    | .ofNat e => ofRatio negative (digits * Nat.pow 10 e * Nat.pow 2 scale) 1
    | .negSucc e => ofRatio negative (digits * Nat.pow 2 scale) (Nat.pow 10 (e + 1))

/-! ### Comparing -/

/-- Equality as numbers compare: the zeros are equal, and what is no number equals nothing. -/
def equals : Binary64 → Binary64 → Bool
  | .nan, _ | _, .nan => false
  | .finite negative a _, .finite negative' b _ =>
    a == b && (negative == negative' || a.mantissa == 0)
  | a, b => a == b

end Binary64

end SchemaForge
