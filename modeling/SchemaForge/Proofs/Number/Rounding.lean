import Mathlib.Data.Rat.Cast.Order
import Mathlib.Tactic.Linarith
import Mathlib.Tactic.Positivity
import Mathlib.Tactic.Ring
import SchemaForge.Number.Shortest
set_option autoImplicit false

/-!
# Which decimals are read as a number

A decimal is read as the number that it is nearest to. The decimals that are read as a number are
those between two bounds, which lie in the middle between the number and its neighbours. The bounds
themselves belong to it if its mantissa is even.

## Main definitions

* `SchemaForge.Binary64.decimal` — the value of digits before a power of ten.
* `SchemaForge.Binary64.Rounding.Contains` — the bounds, and what lies between them.

## Main results

* `SchemaForge.Binary64.Magnitude.nearest_eq_iff` — a ratio is rounded to a magnitude just if it
  lies between the bounds of the magnitude.
* `SchemaForge.Binary64.ofDecimal_eq_finite_iff` — and so is a decimal.
-/

namespace SchemaForge.Binary64

/-- The value of `digits * 10 ^ exponent`. -/
def decimal (digits : ℕ) (exponent : ℤ) : ℚ := digits * 10 ^ exponent

/-! ### Bounds -/

/-- A number in units of `2 ^ (-1076)` lies between the bounds, or is one of them if these
belong to it. -/
structure Rounding.Contains (r : Rounding) (x : ℚ) : Prop where
  low_le : r.low ≤ x
  le_high : x ≤ r.high
  ne : r.closed = false → x ≠ r.low ∧ x ≠ r.high

/-- What lies between two numbers within the bounds is within the bounds. -/
theorem Rounding.Contains.convex {r : Rounding} {x y z : ℚ} (hx : r.Contains x) (hz : r.Contains z)
    (hxy : x ≤ y) (hyz : y ≤ z) : r.Contains y where
  low_le := hx.low_le.trans hxy
  le_high := hyz.trans hz.le_high
  ne hclosed :=
    ⟨fun h => (hx.ne hclosed).1 (le_antisymm (h ▸ hxy) hx.low_le),
      fun h => (hz.ne hclosed).2 (le_antisymm hz.le_high (h ▸ hyz))⟩

/-- A ratio within the bounds, by natural numbers. -/
theorem Rounding.contains_div_iff {r : Rounding} {n k : ℕ} (hk : 0 < k) :
    r.Contains ((n : ℚ) / k) ↔ r.low * k ≤ n ∧ n ≤ r.high * k ∧
      (r.closed = false → n ≠ r.low * k ∧ n ≠ r.high * k) := by
  have hpos : (0 : ℚ) < k := Nat.cast_pos.2 hk
  have hlow : (r.low : ℚ) ≤ n / k ↔ r.low * k ≤ n := by
    rw [le_div_iff₀ hpos]
    exact_mod_cast Iff.rfl
  have hhigh : (n : ℚ) / k ≤ r.high ↔ n ≤ r.high * k := by
    rw [div_le_iff₀ hpos]
    exact_mod_cast Iff.rfl
  have heq (bound : ℕ) : (n : ℚ) / k ≠ bound ↔ n ≠ bound * k := by
    rw [Ne, div_eq_iff hpos.ne']
    exact_mod_cast Iff.rfl
  constructor
  · rintro ⟨h₁, h₂, h₃⟩
    exact ⟨hlow.1 h₁, hhigh.1 h₂, fun hclosed =>
      ⟨(heq _).1 (h₃ hclosed).1, (heq _).1 (h₃ hclosed).2⟩⟩
  · rintro ⟨h₁, h₂, h₃⟩
    exact ⟨hlow.2 h₁, hhigh.2 h₂, fun hclosed =>
      ⟨(heq _).2 (h₃ hclosed).1, (heq _).2 (h₃ hclosed).2⟩⟩

/-- Points of a grid are checked against the bounds. -/
theorem Rounding.contains_iff {r : Rounding} {grid : Grid} (hunit : 0 < grid.unit) (d : ℕ) :
    r.contains grid d = true ↔ r.Contains ((d * grid.scale : ℕ) / grid.unit) := by
  rw [contains_div_iff hunit, contains]
  cases r.closed with
  | false =>
    simp only [Bool.false_eq_true, if_false, Bool.and_eq_true, decide_eq_true_eq, true_imp_iff]
    omega
  | true => simp

/-! ### Rounding to an integer -/

/-- An integer is nearest to a ratio if twice the ratio is not more than one away from twice the
integer, and less than that if it is odd. -/
theorem roundDiv_eq_iff {n k m : ℕ} (hk : 0 < k) :
    roundDiv n k = m ↔ 2 * (m * k) ≤ 2 * n + k ∧ 2 * n ≤ 2 * (m * k) + k ∧
      (m % 2 = 1 → 2 * (m * k) ≠ 2 * n + k ∧ 2 * n ≠ 2 * (m * k) + k) := by
  have hn : k * (n / k) + n % k = n := Nat.div_add_mod n k
  have hrest : n % k < k := Nat.mod_lt n hk
  simp only [roundDiv]
  generalize n / k = q at hn ⊢
  generalize n % k = rest at hn hrest ⊢
  have hq : q * k + rest = n := by rw [Nat.mul_comm q k, hn]
  have hnext : (q + 1) * k = q * k + k := Nat.succ_mul q k
  constructor
  · rintro rfl
    split
    · rename_i h
      simp only [Bool.or_eq_true, Bool.and_eq_true, decide_eq_true_eq] at h
      omega
    · rename_i h
      simp only [Bool.or_eq_true, Bool.and_eq_true, decide_eq_true_eq] at h
      rw [hnext]
      omega
  · rintro ⟨hlow, hhigh, hodd⟩
    rcases Nat.lt_trichotomy m q with hlt | rfl | hgt
    · have hle : (m + 1) * k ≤ q * k := Nat.mul_le_mul_right k hlt
      rw [Nat.succ_mul] at hle
      omega
    · rw [if_pos]
      simp only [Bool.or_eq_true, Bool.and_eq_true, decide_eq_true_eq]
      omega
    · rcases Nat.eq_or_lt_of_le hgt with rfl | hgt
      · rw [hnext] at hlow hhigh hodd
        rw [if_neg]
        simp only [Bool.or_eq_true, Bool.and_eq_true, decide_eq_true_eq]
        omega
      · have hle : (q + 2) * k ≤ m * k := Nat.mul_le_mul_right k hgt
        rw [Nat.add_mul] at hle
        omega

/-! ### Powers -/

theorem powerOf_le {n k : ℕ} (hk : 0 < k) (h : 0 < powerOf n k) :
    4503599627370496 * (2 ^ powerOf n k * k) ≤ n := by
  have hlog : (n / k).log2 = 52 + powerOf n k := by
    unfold powerOf precision at *
    omega
  have hne : n / k ≠ 0 := by
    intro hzero
    rw [hzero, Nat.log2_zero] at hlog
    omega
  have hle : 2 ^ (52 + powerOf n k) ≤ n / k := (Nat.le_log2 hne).1 hlog.ge
  rw [Nat.le_div_iff_mul_le hk, pow_add, mul_assoc] at hle
  exact hle

theorem lt_powerOf {n k : ℕ} (hk : 0 < k) : n < 9007199254740992 * (2 ^ powerOf n k * k) := by
  have hlt : n / k < 2 ^ (53 + powerOf n k) := by
    refine lt_of_lt_of_le Nat.lt_log2_self (Nat.pow_le_pow_right (by decide) ?_)
    unfold powerOf precision
    omega
  rw [Nat.div_lt_iff_lt_mul hk, pow_add, mul_assoc] at hlt
  exact hlt

/-- The power of a ratio by its bounds. -/
theorem powerOf_eq {n k p : ℕ} (hk : 0 < k)
    (hlow : 0 < p → 4503599627370496 * (2 ^ p * k) ≤ n)
    (hhigh : n < 9007199254740992 * (2 ^ p * k)) : powerOf n k = p := by
  have hlt : n / k < 2 ^ (53 + p) := by
    rw [Nat.div_lt_iff_lt_mul hk, pow_add, mul_assoc]
    exact hhigh
  rcases Nat.eq_zero_or_pos p with rfl | hp
  · unfold powerOf precision
    rcases eq_or_ne (n / k) 0 with hzero | hne
    · rw [hzero, Nat.log2_zero]
    · have hlog := (Nat.log2_lt hne).2 hlt
      omega
  · have hle : 2 ^ (52 + p) ≤ n / k := by
      rw [Nat.le_div_iff_mul_le hk, pow_add, mul_assoc]
      exact hlow hp
    have hne : n / k ≠ 0 := (lt_of_lt_of_le (by positivity) hle).ne'
    have hlog := (Nat.log2_eq_iff hne).2 ⟨hle, by rwa [show 52 + p + 1 = 53 + p by omega]⟩
    unfold powerOf precision
    omega

/-! ### Magnitudes -/

namespace Magnitude

/-- A magnitude has one mantissa and one power. -/
theorem ext {a b : Magnitude} (hmantissa : a.mantissa = b.mantissa) (hpower : a.power = b.power) :
    a = b := by
  cases a
  cases b
  cases hmantissa
  cases hpower
  rfl

variable (a : Magnitude) {n k : ℕ}

/-- Whether the numbers right below a magnitude lie closer together. -/
def IsLeast : Prop := a.mantissa = 4503599627370496 ∧ 0 < a.power

instance : Decidable a.IsLeast := instDecidableAnd

theorem rounding_value : a.rounding.value = 4 * (a.mantissa * 2 ^ a.power) :=
  Nat.mul_assoc 4 _ _

theorem rounding_high : a.rounding.high = 4 * (a.mantissa * 2 ^ a.power) + 2 * 2 ^ a.power := by
  rw [← rounding_value]
  rfl

theorem rounding_low :
    a.rounding.low = 4 * (a.mantissa * 2 ^ a.power) -
      if a.IsLeast then 2 ^ a.power else 2 * 2 ^ a.power := by
  have hleast : a.IsLeast ↔
      (a.mantissa = Nat.pow 2 (precision - 1) && 0 < a.power) = true := by
    simp only [Bool.and_eq_true, decide_eq_true_eq]
    exact Iff.rfl
  rw [← rounding_value]
  simp only [hleast]
  rfl

theorem rounding_closed : a.rounding.closed = false ↔ a.mantissa % 2 = 1 := by
  rw [← Nat.mod_two_ne_zero]
  exact decide_eq_false_iff_not

variable {a}

/-- The least mantissa is even. -/
theorem not_isLeast (h : a.mantissa % 2 = 1) : ¬ a.IsLeast := by
  rintro ⟨hmantissa, -⟩
  omega

/-- The bounds of a magnitude, in quarters of its last place. -/
theorem contains_div_iff (hk : 0 < k) :
    a.rounding.Contains ((n : ℚ) / k) ↔
      4 * (a.mantissa * (2 ^ a.power * k)) ≤
          n + (if a.IsLeast then 2 ^ a.power * k else 2 * (2 ^ a.power * k)) ∧
        n ≤ 4 * (a.mantissa * (2 ^ a.power * k)) + 2 * (2 ^ a.power * k) ∧
        (a.mantissa % 2 = 1 → n + 2 * (2 ^ a.power * k) ≠ 4 * (a.mantissa * (2 ^ a.power * k)) ∧
          n ≠ 4 * (a.mantissa * (2 ^ a.power * k)) + 2 * (2 ^ a.power * k)) := by
  rw [Rounding.contains_div_iff hk, rounding_closed, rounding_low, rounding_high]
  -- everything is a multiple of the last place
  simp only [Nat.sub_mul, Nat.add_mul, Nat.mul_assoc, ite_mul]
  by_cases hodd : a.mantissa % 2 = 1
  · have hle : 2 ^ a.power * k ≤ a.mantissa * (2 ^ a.power * k) :=
      Nat.le_mul_of_pos_left _ (by omega)
    simp only [hodd, true_imp_iff, if_neg (not_isLeast hodd)]
    omega
  · simp only [hodd, false_imp_iff, and_true]
    omega

/-! ### Rounding to a magnitude -/

theorem nearest_of_lt (h : roundDiv n (2 ^ powerOf n k * k) < 9007199254740992) :
    (nearest n k).mantissa = roundDiv n (2 ^ powerOf n k * k) ∧
      (nearest n k).power = powerOf n k := by
  have hlt : roundDiv n (k * Nat.pow 2 (powerOf n k)) < Nat.pow 2 precision := by
    rwa [Nat.mul_comm]
  have hnearest : nearest n k = ⟨_, _, hlt, le_roundDiv_of_powerOf_pos⟩ := dif_pos hlt
  exact ⟨(congrArg mantissa hnearest).trans (congrArg (roundDiv n) (Nat.mul_comm _ _)),
    congrArg power hnearest⟩

theorem nearest_of_le (h : 9007199254740992 ≤ roundDiv n (2 ^ powerOf n k * k)) :
    (nearest n k).mantissa = 4503599627370496 ∧ (nearest n k).power = powerOf n k + 1 := by
  have hle : ¬ roundDiv n (k * Nat.pow 2 (powerOf n k)) < Nat.pow 2 precision := by
    rw [Nat.mul_comm]
    exact not_lt.2 h
  have hnearest : nearest n k =
      ⟨Nat.pow 2 (precision - 1), powerOf n k + 1, by decide, fun _ => Nat.le_refl _⟩ :=
    dif_neg hle
  exact ⟨congrArg mantissa hnearest, congrArg power hnearest⟩

/-- A ratio lies between the bounds of the magnitude it is rounded to. -/
theorem contains_nearest (hk : 0 < k) : (nearest n k).rounding.Contains ((4 * n : ℕ) / k) := by
  have hplace : 0 < 2 ^ powerOf n k * k := by positivity
  obtain ⟨hlow, hhigh, hodd⟩ := (roundDiv_eq_iff (n := n) hplace).1 rfl
  have hlt := lt_powerOf (n := n) hk
  have hle := powerOf_le (n := n) hk
  rw [contains_div_iff hk]
  by_cases h : roundDiv n (2 ^ powerOf n k * k) < 9007199254740992
  · obtain ⟨hmantissa, hpower⟩ := nearest_of_lt h
    by_cases hleast : (nearest n k).IsLeast
    · -- the ratio is not less than the least mantissa at its power
      rw [if_pos hleast, hmantissa, hpower]
      have hround := hmantissa.symm.trans hleast.1
      rw [hround] at hlow hhigh ⊢
      have hle := hle (hpower ▸ hleast.2)
      omega
    · rw [if_neg hleast, hmantissa, hpower]
      omega
  · obtain ⟨hmantissa, hpower⟩ := nearest_of_le (not_lt.1 h)
    have hleast : (nearest n k).IsLeast := ⟨hmantissa, hpower ▸ Nat.succ_pos _⟩
    have hmul : 9007199254740992 * (2 ^ powerOf n k * k) ≤
        roundDiv n (2 ^ powerOf n k * k) * (2 ^ powerOf n k * k) :=
      Nat.mul_le_mul_right _ (not_lt.1 h)
    rw [if_pos hleast, hmantissa, hpower, pow_succ', Nat.mul_assoc 2]
    omega

/-- A ratio right below a power of two is rounded to it, as the mantissa gets one digit too many. -/
theorem nearest_eq_of_lt {a : Magnitude} (hk : 0 < k) (h : a.rounding.Contains ((4 * n : ℕ) / k))
    (hleast : a.IsLeast) (hbelow : n < a.mantissa * (2 ^ a.power * k)) : nearest n k = a := by
  obtain ⟨hlow, -, -⟩ := (contains_div_iff hk).1 h
  obtain ⟨p, hp⟩ : ∃ p, a.power = p + 1 := Nat.exists_eq_succ_of_ne_zero hleast.2.ne'
  rw [if_pos hleast, hleast.1, hp, pow_succ', Nat.mul_assoc 2] at hlow
  rw [hleast.1, hp, pow_succ', Nat.mul_assoc 2] at hbelow
  have hplace : 0 < 2 ^ p * k := by positivity
  have hpower : powerOf n k = p := powerOf_eq hk (fun _ => by omega) (by omega)
  have hround : roundDiv n (2 ^ powerOf n k * k) = 9007199254740992 := by
    rw [hpower, roundDiv_eq_iff hplace]
    omega
  obtain ⟨hmantissa, hpower'⟩ := nearest_of_le hround.ge
  exact ext (hmantissa.trans hleast.1.symm) (by rw [hpower', hpower, hp])

/-- Any other ratio between the bounds has the power of the magnitude. -/
theorem nearest_eq_of_le {a : Magnitude} (hk : 0 < k) (h : a.rounding.Contains ((4 * n : ℕ) / k))
    (habove : a.IsLeast → a.mantissa * (2 ^ a.power * k) ≤ n) : nearest n k = a := by
  obtain ⟨hlow, hhigh, hodd⟩ := (contains_div_iff hk).1 h
  have hlt : a.mantissa < 9007199254740992 := a.mantissa_lt
  have hplace : 0 < 2 ^ a.power * k := by positivity
  have hmul : a.mantissa * (2 ^ a.power * k) ≤ 9007199254740991 * (2 ^ a.power * k) :=
    Nat.mul_le_mul_right _ (Nat.le_of_lt_succ hlt)
  have hpower : powerOf n k = a.power := by
    refine powerOf_eq hk (fun hpos => ?_) (by omega)
    have hle : 4503599627370496 ≤ a.mantissa := a.le_mantissa hpos
    rcases Nat.eq_or_lt_of_le hle with heq | hgt
    · rw [heq]
      exact habove ⟨heq.symm, hpos⟩
    · have hnext : 4503599627370497 * (2 ^ a.power * k) ≤ a.mantissa * (2 ^ a.power * k) :=
        Nat.mul_le_mul_right _ hgt
      split at hlow
      · omega
      · omega
  have hround : roundDiv n (2 ^ powerOf n k * k) = a.mantissa := by
    rw [hpower, roundDiv_eq_iff hplace]
    split at hlow
    · rename_i hleast
      have hge := habove hleast
      omega
    · omega
  obtain ⟨hmantissa, hpower'⟩ := nearest_of_lt (hround ▸ hlt)
  exact ext (hmantissa.trans hround) (hpower'.trans hpower)

/-- A ratio is rounded to a magnitude just if it lies between the bounds of the magnitude. -/
theorem nearest_eq_iff {a : Magnitude} (hk : 0 < k) :
    nearest n k = a ↔ a.rounding.Contains ((4 * n : ℕ) / k) := by
  constructor
  · rintro rfl
    exact contains_nearest hk
  · intro h
    by_cases hbelow : a.IsLeast ∧ n < a.mantissa * (2 ^ a.power * k)
    · exact nearest_eq_of_lt hk h hbelow.1 hbelow.2
    · exact nearest_eq_of_le hk h fun hleast => not_lt.1 fun hlt => hbelow ⟨hleast, hlt⟩

end Magnitude

/-! ### Decimals -/

variable {negative negative' : Bool} {a : Magnitude} {digits : ℕ} {exponent : ℤ} {x : ℚ}

theorem unit_pos : (0 : ℚ) < unit := by
  rw [unit, Nat.pow_eq]
  positivity

theorem decimal_lt (digits : ℕ) (exponent : ℤ) :
    decimal digits exponent < 10 ^ (exponent + (Nat.toDigits 10 digits).length) := by
  have hlt : digits < 10 ^ (Nat.toDigits 10 digits).length :=
    (Nat.length_toDigits_le_iff (by decide) Nat.length_toDigits_pos).1 le_rfl
  have hlt : (digits : ℚ) < 10 ^ (Nat.toDigits 10 digits).length := by exact_mod_cast hlt
  rw [decimal, zpow_add₀ (by norm_num), zpow_natCast, mul_comm]
  exact mul_lt_mul_of_pos_left hlt (zpow_pos (by norm_num) exponent)

theorem le_decimal (h : 0 < digits) (exponent : ℤ) :
    10 ^ (exponent + (Nat.toDigits 10 digits).length - 1) ≤ decimal digits exponent := by
  obtain ⟨count, hcount⟩ : ∃ count, (Nat.toDigits 10 digits).length = count + 1 :=
    Nat.exists_eq_succ_of_ne_zero Nat.length_toDigits_pos.ne'
  have hle : 10 ^ count ≤ digits := by
    rcases Nat.eq_zero_or_pos count with rfl | hpos
    · rwa [pow_zero]
    · refine not_lt.1 fun hlt => ?_
      have hlength := (Nat.length_toDigits_le_iff (by decide) hpos).2 hlt
      omega
  have hle : (10 : ℚ) ^ count ≤ digits := by exact_mod_cast hle
  have hexponent : exponent + ((count + 1 : ℕ) : ℤ) - 1 = exponent + count := by
    push_cast
    ring
  rw [hcount, hexponent, decimal, zpow_add₀ (by norm_num), zpow_natCast, mul_comm]
  exact mul_le_mul_of_nonneg_right hle (zpow_pos (by norm_num) exponent).le

/-- What is read as a positive number is not too small. -/
theorem Magnitude.two_le_of_contains (ha : 0 < a.mantissa) (h : a.rounding.Contains x) :
    2 ≤ x := by
  have hplace : 0 < 2 ^ a.power := by positivity
  have hmul : 1 * 2 ^ a.power ≤ a.mantissa * 2 ^ a.power := Nat.mul_le_mul_right _ ha
  have hlow : 2 ≤ a.rounding.low := by
    rw [rounding_low]
    split
    · omega
    · omega
  have hlow : (2 : ℚ) ≤ a.rounding.low := by exact_mod_cast hlow
  exact hlow.trans h.low_le

/-- What is read as a finite number is not too great. -/
theorem Magnitude.lt_of_contains (hpower : a.power ≤ maxPower) (h : a.rounding.Contains x) :
    x < 2 ^ 55 * 2 ^ maxPower := by
  have hplace : 2 ^ a.power ≤ 2 ^ maxPower := Nat.pow_le_pow_right (by decide) hpower
  have hpos : 0 < 2 ^ maxPower := by positivity
  have hmul : a.mantissa * 2 ^ a.power ≤ 9007199254740991 * 2 ^ maxPower :=
    Nat.mul_le_mul (Nat.le_of_lt_succ a.mantissa_lt) hplace
  have hhigh : a.rounding.high < 2 ^ 55 * 2 ^ maxPower := by
    rw [rounding_high]
    omega
  have hhigh : (a.rounding.high : ℚ) < 2 ^ 55 * 2 ^ maxPower := by exact_mod_cast hhigh
  exact h.le_high.trans_lt hhigh

/-- Zero is not read as a positive number. -/
theorem Magnitude.digits_pos (ha : 0 < a.mantissa)
    (h : a.rounding.Contains (decimal digits exponent * unit)) : 0 < digits := by
  refine Nat.pos_of_ne_zero fun hzero => ?_
  have htwo := two_le_of_contains ha h
  rw [hzero, decimal, Nat.cast_zero, zero_mul, zero_mul] at htwo
  exact absurd htwo (by norm_num)

/-- Nor is a decimal that is too small. -/
theorem Magnitude.le_of_contains_decimal (ha : 0 < a.mantissa)
    (h : a.rounding.Contains (decimal digits exponent * unit)) :
    -400 ≤ exponent + (Nat.toDigits 10 digits).length := by
  by_contra hsmall
  have hlt : decimal digits exponent < 10 ^ (-400 : ℤ) :=
    (decimal_lt digits exponent).trans_le (zpow_le_zpow_right₀ (by norm_num) (not_le.1 hsmall).le)
  have hunit : (10 : ℚ) ^ (-400 : ℤ) * unit < 2 := by
    have hlt : unit < 2 * 10 ^ 400 := by decide +kernel
    rw [zpow_neg, inv_mul_lt_iff₀ (zpow_pos (by norm_num) _), mul_comm]
    exact_mod_cast hlt
  exact absurd ((two_le_of_contains ha h).trans_lt
    ((mul_lt_mul_of_pos_right hlt unit_pos).trans hunit)) (lt_irrefl _)

/-- A decimal that is too great is not read as a finite number. -/
theorem Magnitude.contains_decimal_le (ha : 0 < a.mantissa) (hpower : a.power ≤ maxPower)
    (h : a.rounding.Contains (decimal digits exponent * unit)) :
    exponent + (Nat.toDigits 10 digits).length ≤ 400 := by
  by_contra hgreat
  have hle : (10 : ℚ) ^ (400 : ℤ) ≤ decimal digits exponent :=
    (zpow_le_zpow_right₀ (by norm_num) (by omega)).trans (le_decimal (digits_pos ha h) exponent)
  have hunit : (2 : ℚ) ^ 55 * 2 ^ maxPower < 10 ^ (400 : ℤ) * unit := by
    have hlt : 2 ^ 55 * 2 ^ maxPower < 10 ^ 400 * unit := by decide +kernel
    exact_mod_cast hlt
  exact absurd ((lt_of_contains hpower h).trans
    (hunit.trans_le (mul_le_mul_of_nonneg_right hle unit_pos.le))) (lt_irrefl _)

theorem ofRatio_eq_finite_iff {h : a.power ≤ maxPower} {n k : ℕ} (hk : 0 < k) :
    ofRatio negative n k = .finite negative' a h ↔
      negative = negative' ∧ a.rounding.Contains ((4 * n : ℕ) / k) := by
  rw [← Magnitude.nearest_eq_iff hk]
  simp only [ofRatio]
  constructor
  · intro heq
    split at heq
    · cases heq
      exact ⟨rfl, rfl⟩
    · cases heq
  · rintro ⟨rfl, rfl⟩
    exact dif_pos h

/-- A decimal is read as a number other than zero just if it lies between the bounds of the
number. -/
theorem ofDecimal_eq_finite_iff {h : a.power ≤ maxPower} (ha : 0 < a.mantissa) :
    ofDecimal negative digits exponent = .finite negative' a h ↔
      negative = negative' ∧ a.rounding.Contains (decimal digits exponent * unit) := by
  have hzero : zero negative ≠ .finite negative' a h := by
    rintro heq
    cases heq
    exact absurd ha (lt_irrefl _)
  simp only [ofDecimal]
  by_cases hdigits : digits = 0
  · refine iff_of_false (by simpa [hdigits] using hzero) fun ⟨_, hcontains⟩ => ?_
    exact (Magnitude.digits_pos ha hcontains).ne' hdigits
  by_cases hsmall : exponent + (Nat.toDigits 10 digits).length < -400
  · refine iff_of_false (by simpa [hsmall] using hzero) fun ⟨_, hcontains⟩ => ?_
    exact not_le.2 hsmall (Magnitude.le_of_contains_decimal ha hcontains)
  by_cases hgreat : 400 < exponent + (Nat.toDigits 10 digits).length
  · refine iff_of_false (by simp [hdigits, hsmall, hgreat]) fun ⟨_, hcontains⟩ => ?_
    exact not_le.2 hgreat (Magnitude.contains_decimal_le ha h hcontains)
  rw [if_neg (by simp [hdigits, hsmall]), if_neg hgreat]
  cases exponent with
  | ofNat e =>
    have hvalue : ((4 * (digits * Nat.pow 10 e * Nat.pow 2 scale) : ℕ) : ℚ) / (1 : ℕ) =
        decimal digits (.ofNat e) * unit := by
      rw [decimal, unit, Int.ofNat_eq_natCast, zpow_natCast, Nat.cast_one, div_one, Nat.pow_eq,
        Nat.pow_eq]
      push_cast
      ring
    rw [← hvalue]
    exact ofRatio_eq_finite_iff Nat.one_pos
  | negSucc e =>
    have hvalue : ((4 * (digits * Nat.pow 2 scale) : ℕ) : ℚ) / (Nat.pow 10 (e + 1) : ℕ) =
        decimal digits (.negSucc e) * unit := by
      rw [decimal, unit, zpow_negSucc, Nat.pow_eq, Nat.pow_eq]
      push_cast
      ring
    rw [← hvalue]
    exact ofRatio_eq_finite_iff (Nat.pow_pos (by decide))

end SchemaForge.Binary64
