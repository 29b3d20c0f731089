import Mathlib.Tactic.FieldSimp
import SchemaForge.Proofs.Number.Rounding
import SchemaForge.Proofs.Text.Digits
set_option autoImplicit false

/-!
# The shortest decimals of numbers

A number is written with the fewest digits that are read as this number again, and with the nearest
ones if there is a choice. Which digits these are is said here by what is read from them, apart from
the search that finds them.

## Main definitions

* `SchemaForge.Binary64.Magnitude.IsShortest` — the fewest digits that are read as a magnitude.
* `SchemaForge.Binary64.IsPositional` — the text of digits before a power of ten.
* `SchemaForge.Binary64.HasText` — the text of a number.

## Main results

* `SchemaForge.Binary64.Magnitude.IsShortest.length_le`,
  `SchemaForge.Binary64.Magnitude.IsShortest.not_dvd` — fewer digits are never read back, and the
  last digit is no zero.
* `SchemaForge.Binary64.Magnitude.isShortest_shortest` — the fewest digits are found.
* `SchemaForge.Binary64.hasText_iff` — a number has the text that is written for it, and no other.
-/

namespace SchemaForge.Binary64

/-! ### Grids -/

section Grids

variable {r : Rounding} {exponent : ℤ} {d d' : ℕ}

theorem gridOf_unit_pos (exponent : ℤ) : 0 < (gridOf exponent).unit := by
  cases exponent with
  | ofNat e => exact Nat.one_pos
  | negSucc e => exact Nat.pow_pos (by decide)

/-- A point of a grid is the decimal that it stands for. -/
theorem point_eq (d : ℕ) (exponent : ℤ) :
    ((d * (gridOf exponent).scale : ℕ) : ℚ) / (gridOf exponent).unit =
      decimal d exponent * unit := by
  cases exponent with
  | ofNat e =>
    simp only [gridOf, decimal, Int.ofNat_eq_natCast, zpow_natCast, Nat.pow_eq]
    push_cast
    ring
  | negSucc e =>
    simp only [gridOf, decimal, zpow_negSucc, Nat.pow_eq]
    push_cast
    ring

theorem contains_gridOf_iff :
    r.contains (gridOf exponent) d = true ↔ r.Contains (decimal d exponent * unit) := by
  rw [Rounding.contains_iff (gridOf_unit_pos exponent), point_eq]

/-- The step of a grid. -/
theorem step_pos (exponent : ℤ) : (0 : ℚ) < 10 ^ exponent * unit :=
  mul_pos (zpow_pos (by norm_num) exponent) unit_pos

theorem decimal_succ (d : ℕ) (exponent : ℤ) :
    decimal (d + 1) exponent * unit = decimal d exponent * unit + 10 ^ exponent * unit := by
  rw [decimal, decimal]
  push_cast
  ring

theorem decimal_le (h : d ≤ d') (exponent : ℤ) :
    decimal d exponent * unit ≤ decimal d' exponent * unit := by
  have hle : (d : ℚ) ≤ d' := by exact_mod_cast h
  exact mul_le_mul_of_nonneg_right
    (mul_le_mul_of_nonneg_right hle (zpow_pos (by norm_num) exponent).le) unit_pos.le

theorem decimal_lt_decimal (h : d < d') (exponent : ℤ) :
    decimal d exponent * unit < decimal d' exponent * unit := by
  have hle := decimal_le h exponent
  rw [decimal_succ] at hle
  linarith [step_pos exponent]

/-- The point of a grid right before a number. -/
def Rounding.pointBefore (r : Rounding) (exponent : ℤ) : ℕ :=
  r.value * (gridOf exponent).unit / (gridOf exponent).scale

/-- A number lies between the point before it and the next one. -/
theorem Rounding.pointBefore_le (r : Rounding) (exponent : ℤ) :
    decimal (r.pointBefore exponent) exponent * unit ≤ r.value ∧
      (r.value : ℚ) < decimal (r.pointBefore exponent + 1) exponent * unit := by
  have hunit : (0 : ℚ) < (gridOf exponent).unit := Nat.cast_pos.2 (gridOf_unit_pos exponent)
  have hscale : 0 < (gridOf exponent).scale := by
    have hpoint := point_eq 1 exponent
    have hone : (0 : ℚ) < decimal 1 exponent * unit := by
      rw [decimal, Nat.cast_one, one_mul]
      exact step_pos exponent
    rw [← hpoint, one_mul] at hone
    refine Nat.pos_of_ne_zero fun hzero => ?_
    rw [hzero, Nat.cast_zero, zero_div] at hone
    exact lt_irrefl _ hone
  rw [← point_eq, ← point_eq, div_le_iff₀ hunit, lt_div_iff₀ hunit]
  have hlt : r.value * (gridOf exponent).unit <
      (r.pointBefore exponent + 1) * (gridOf exponent).scale := by
    rw [Nat.mul_comm (r.pointBefore exponent + 1)]
    exact Nat.lt_mul_div_succ _ hscale
  constructor
  · exact_mod_cast Nat.div_mul_le_self _ _
  · exact_mod_cast hlt

/-- Which of the two points is nearer is found out without fractions. -/
theorem Rounding.nearer_iff (r : Rounding) (exponent : ℤ) :
    2 * (r.value * (gridOf exponent).unit - r.pointBefore exponent * (gridOf exponent).scale) <
        (gridOf exponent).scale ↔
      2 * (r.value - decimal (r.pointBefore exponent) exponent * unit) <
        (10 : ℚ) ^ exponent * unit := by
  have hunit : (0 : ℚ) < (gridOf exponent).unit := Nat.cast_pos.2 (gridOf_unit_pos exponent)
  have hstep : (10 : ℚ) ^ exponent * unit = (gridOf exponent).scale / (gridOf exponent).unit := by
    have hpoint := point_eq 1 exponent
    rw [decimal, Nat.cast_one, one_mul, one_mul] at hpoint
    exact hpoint.symm
  have hle : r.pointBefore exponent * (gridOf exponent).scale ≤
      r.value * (gridOf exponent).unit := Nat.div_mul_le_self _ _
  have hcleared : 2 * (r.value - decimal (r.pointBefore exponent) exponent * unit) *
      ((gridOf exponent).unit : ℚ) =
        2 * (r.value * (gridOf exponent).unit -
          r.pointBefore exponent * (gridOf exponent).scale) := by
    rw [← point_eq]
    push_cast
    field_simp
  rw [hstep, lt_div_iff₀ hunit, hcleared]
  rw [← Nat.cast_mul, ← Nat.cast_mul, ← Nat.cast_sub hle]
  exact_mod_cast Iff.rfl

/-! ### Hits -/

/-- Of two points of a grid one is preferred to the other: it is nearer to the number, or as near
and not less. -/
def Rounding.Prefers (r : Rounding) (exponent : ℤ) (d d' : ℕ) : Prop :=
  |decimal d exponent * unit - r.value| < |decimal d' exponent * unit - r.value| ∨
    |decimal d exponent * unit - r.value| = |decimal d' exponent * unit - r.value| ∧ d' ≤ d

/-- The point before a number is preferred to all points before it. -/
theorem Rounding.prefers_pointBefore (r : Rounding) (h : d ≤ r.pointBefore exponent) :
    r.Prefers exponent (r.pointBefore exponent) d := by
  have hpoint := (r.pointBefore_le exponent).1
  rcases Nat.eq_or_lt_of_le h with rfl | hlt
  · exact .inr ⟨rfl, le_rfl⟩
  · have hless := decimal_lt_decimal hlt exponent
    left
    rw [abs_of_nonpos (by linarith), abs_of_nonpos (by linarith)]
    linarith

/-- The point behind a number is preferred to all points behind it. -/
theorem Rounding.prefers_pointBehind (r : Rounding) (h : r.pointBefore exponent + 1 ≤ d) :
    r.Prefers exponent (r.pointBefore exponent + 1) d := by
  have hpoint := (r.pointBefore_le exponent).2
  rcases Nat.eq_or_lt_of_le h with rfl | hlt
  · exact .inr ⟨rfl, le_rfl⟩
  · have hless := decimal_lt_decimal hlt exponent
    left
    rw [abs_of_nonneg (by linarith), abs_of_nonneg (by linarith)]
    linarith

/-- Points that round to a number lie before it, and so does the point right before it, or behind
it, and so does the point right behind it. -/
theorem Rounding.Contains.cases (hvalue : r.Contains r.value)
    (h : r.Contains (decimal d exponent * unit)) :
    d ≤ r.pointBefore exponent ∧ r.contains (gridOf exponent) (r.pointBefore exponent) = true ∨
      r.pointBefore exponent + 1 ≤ d ∧
        r.contains (gridOf exponent) (r.pointBefore exponent + 1) = true := by
  obtain ⟨hbefore, hbehind⟩ := r.pointBefore_le exponent
  rcases Nat.lt_or_ge (r.pointBefore exponent) d with hlt | hle
  · exact .inr ⟨hlt, contains_gridOf_iff.2 (hvalue.convex h hbehind.le (decimal_le hlt exponent))⟩
  · exact .inl ⟨hle, contains_gridOf_iff.2 (h.convex hvalue (decimal_le hle exponent) hbefore)⟩

/-- The points right before and right behind a number are tried. -/
theorem Rounding.hit?_eq (r : Rounding) (exponent : ℤ) :
    r.hit? (gridOf exponent) =
      if r.contains (gridOf exponent) (r.pointBefore exponent) = true ∧
          (2 * (r.value - decimal (r.pointBefore exponent) exponent * unit) <
              (10 : ℚ) ^ exponent * unit ∨
            r.contains (gridOf exponent) (r.pointBefore exponent + 1) = false) then
        some (r.pointBefore exponent)
      else if r.contains (gridOf exponent) (r.pointBefore exponent + 1) = true then
        some (r.pointBefore exponent + 1)
      else none := by
  simp only [hit?, Bool.and_eq_true, Bool.or_eq_true, Bool.not_eq_true', decide_eq_true_eq]
  refine if_congr ?_ rfl rfl
  rw [← r.nearer_iff]
  rfl

/-- No point is hit just if no point rounds to the number. -/
theorem Rounding.hit?_eq_none_iff (hvalue : r.Contains r.value) :
    r.hit? (gridOf exponent) = none ↔ ∀ d, ¬ r.Contains (decimal d exponent * unit) := by
  rw [hit?_eq]
  constructor
  · intro hnone d hd
    split at hnone
    · cases hnone
    split at hnone
    · cases hnone
    rename_i hbefore hbehind
    rcases hvalue.cases hd with ⟨-, h⟩ | ⟨-, h⟩
    · exact hbefore ⟨h, .inr (Bool.eq_false_iff.2 hbehind)⟩
    · exact hbehind h
  · intro hnone
    rw [if_neg fun h => hnone _ (contains_gridOf_iff.1 h.1),
      if_neg fun h => hnone _ (contains_gridOf_iff.1 h)]

/-- A point that is hit rounds to the number and is preferred to all others that do. -/
theorem Rounding.hit?_eq_some (hvalue : r.Contains r.value)
    (h : r.hit? (gridOf exponent) = some d) :
    r.Contains (decimal d exponent * unit) ∧
      ∀ d', r.Contains (decimal d' exponent * unit) → r.Prefers exponent d d' := by
  obtain ⟨hle, hlt⟩ := r.pointBefore_le exponent
  have hsucc := decimal_succ (r.pointBefore exponent) exponent
  rw [hit?_eq] at h
  split at h
  · rename_i hbefore
    cases h
    refine ⟨contains_gridOf_iff.1 hbefore.1, fun d' hd' => ?_⟩
    rcases hvalue.cases hd' with ⟨hd', -⟩ | ⟨hd', hbehind⟩
    · exact r.prefers_pointBefore hd'
    · rcases hbefore.2 with hnear | hnot
      · -- the point behind the number is farther away, and the others are behind that one
        have hpoint := decimal_le hd' exponent
        left
        rw [abs_of_nonpos (by linarith), abs_of_nonneg (by linarith)]
        linarith
      · exact Bool.noConfusion (hbehind.symm.trans hnot)
  · rename_i hbefore
    split at h
    · rename_i hbehind
      cases h
      refine ⟨contains_gridOf_iff.1 hbehind, fun d' hd' => ?_⟩
      rcases hvalue.cases hd' with ⟨hd', hcontains⟩ | ⟨hd', -⟩
      · -- the point before the number is not nearer, and the others are before that one
        have hfar := not_lt.1 fun hnear => hbefore ⟨hcontains, .inl hnear⟩
        have hpoint := decimal_le hd' exponent
        rw [Prefers, abs_of_nonneg (by linarith), abs_of_nonpos (by linarith)]
        rcases lt_or_eq_of_le (show decimal (r.pointBefore exponent + 1) exponent * unit - r.value ≤
          -(decimal d' exponent * unit - r.value) by linarith) with hless | heq
        · exact .inl hless
        · exact .inr ⟨heq, Nat.le_succ_of_le hd'⟩
      · exact r.prefers_pointBehind hd'
    · cases h

end Grids

/-! ### How far the bounds reach -/

section Bounds

variable {a : Magnitude} {x : ℚ}

/-- The bound below a positive number is less by at least this part of the number. -/
theorem Magnitude.gap_below (ha : 0 < a.mantissa) :
    a.rounding.low < a.rounding.value ∧
      a.rounding.value ≤ 2 ^ 54 * (a.rounding.value - a.rounding.low) := by
  have hplace : 0 < 2 ^ a.power := by positivity
  have hmul : 1 * 2 ^ a.power ≤ a.mantissa * 2 ^ a.power := Nat.mul_le_mul_right _ ha
  have hmul' : a.mantissa * 2 ^ a.power ≤ 9007199254740991 * 2 ^ a.power :=
    Nat.mul_le_mul_right _ (Nat.le_of_lt_succ a.mantissa_lt)
  rw [rounding_value, rounding_low]
  split
  · rename_i hleast
    rw [hleast.1]
    omega
  · omega

/-- The bound above a positive number is greater by at least this part of the number, but not more
than twice the number. -/
theorem Magnitude.gap_above (ha : 0 < a.mantissa) :
    a.rounding.value < a.rounding.high ∧
      a.rounding.value ≤ 2 ^ 54 * (a.rounding.high - a.rounding.value) ∧
      a.rounding.high ≤ 2 * a.rounding.value := by
  have hplace : 0 < 2 ^ a.power := by positivity
  have hmul : 1 * 2 ^ a.power ≤ a.mantissa * 2 ^ a.power := Nat.mul_le_mul_right _ ha
  have hmul' : a.mantissa * 2 ^ a.power ≤ 9007199254740991 * 2 ^ a.power :=
    Nat.mul_le_mul_right _ (Nat.le_of_lt_succ a.mantissa_lt)
  rw [rounding_value, rounding_high]
  omega

theorem Magnitude.rounding_value_pos (ha : 0 < a.mantissa) : 0 < a.rounding.value :=
  Nat.zero_lt_of_lt (gap_below ha).1

/-- What is near enough to a number is read as the number. -/
theorem Magnitude.contains_of_near (ha : 0 < a.mantissa)
    (h : |x - a.rounding.value| * 2 ^ 54 < a.rounding.value) : a.rounding.Contains x := by
  obtain ⟨hlow, hlow'⟩ := gap_below ha
  obtain ⟨hhigh, hhigh', -⟩ := gap_above ha
  have hlow' : (a.rounding.value : ℚ) ≤ 2 ^ 54 * (a.rounding.value - a.rounding.low) := by
    rw [← Nat.cast_sub hlow.le]
    exact_mod_cast hlow'
  have hhigh' : (a.rounding.value : ℚ) ≤ 2 ^ 54 * (a.rounding.high - a.rounding.value) := by
    rw [← Nat.cast_sub hhigh.le]
    exact_mod_cast hhigh'
  obtain ⟨hleft, hright⟩ := abs_lt.1 (lt_div_iff₀ (by positivity) |>.2 h)
  have hlt : (a.rounding.low : ℚ) < x := by linarith
  have hgt : x < a.rounding.high := by linarith
  exact ⟨hlt.le, hgt.le, fun _ => ⟨hlt.ne', hgt.ne⟩⟩

/-- A number is read as itself. -/
theorem Magnitude.contains_value (ha : 0 < a.mantissa) :
    a.rounding.Contains a.rounding.value := by
  refine contains_of_near ha ?_
  rw [sub_self, abs_zero, zero_mul]
  exact_mod_cast rounding_value_pos ha

theorem Magnitude.le_of_contains (ha : 0 < a.mantissa) (h : a.rounding.Contains x) :
    x ≤ 2 * a.rounding.value := by
  have hhigh : (a.rounding.high : ℚ) ≤ 2 * a.rounding.value := by
    exact_mod_cast (gap_above ha).2.2
  exact h.le_high.trans hhigh

end Bounds

/-! ### The search -/

section Search

variable {r : Rounding} {a : Magnitude} {exponent : ℤ}

/-- A ratio of at least one lies between two powers of ten, by the digits before its point. -/
theorem pow_digitCount_div {n k : ℕ} (hk : 0 < k) (h : k ≤ n) :
    (10 : ℚ) ^ ((digitCount (n / k) : ℤ) - 1) * k ≤ n ∧
      (n : ℚ) < 10 ^ (digitCount (n / k) : ℤ) * k := by
  have hlow : (10 : ℚ) ^ ((digitCount (n / k) : ℤ) - 1) ≤ (n / k : ℕ) := by
    simpa [decimal, digitCount] using le_decimal (Nat.div_pos h hk) 0
  have hhigh : ((n / k : ℕ) : ℚ) < 10 ^ digitCount (n / k) := by
    simpa [decimal, digitCount] using decimal_lt (n / k) 0
  have hhigh : n / k + 1 ≤ 10 ^ digitCount (n / k) := by exact_mod_cast hhigh
  have hlt : n < 10 ^ digitCount (n / k) * k := by
    refine lt_of_lt_of_le (Nat.lt_mul_div_succ n hk) ?_
    rw [Nat.mul_comm]
    exact Nat.mul_le_mul_right k hhigh
  constructor
  · refine (mul_le_mul_of_nonneg_right hlow k.cast_nonneg).trans ?_
    exact_mod_cast Nat.div_mul_le_self n k
  · rw [zpow_natCast]
    exact_mod_cast hlt

/-- The top is the exponent of a power of ten next to the number. -/
theorem Rounding.top_spec (h : 0 < r.value) :
    (10 : ℚ) ^ (r.top - 1) * unit ≤ r.value ∧ (r.value : ℚ) ≤ 10 ^ r.top * unit := by
  have hunit : 0 < unit := Nat.cast_pos.1 unit_pos
  unfold top
  split
  · rename_i hle
    obtain ⟨hlow, hhigh⟩ := pow_digitCount_div hunit hle
    exact ⟨hlow, hhigh.le⟩
  · rename_i hlt
    obtain ⟨hlow, hhigh⟩ := pow_digitCount_div h (not_le.1 hlt).le
    generalize (digitCount (unit / r.value) : ℤ) = count at hlow hhigh ⊢
    generalize (unit : ℚ) = one at hlow hhigh ⊢
    have hexponent : 1 - count - 1 = -count := by ring
    have hexponent' : 1 - count = -(count - 1) := by ring
    constructor
    · rw [hexponent, zpow_neg, inv_mul_le_iff₀ (zpow_pos (by norm_num) _)]
      exact hhigh.le
    · rwa [hexponent', zpow_neg, le_inv_mul_iff₀ (zpow_pos (by norm_num) _)]

/-- No multiple of a greater power of ten is read as a number. -/
theorem Magnitude.not_contains_of_top_lt (ha : 0 < a.mantissa) (h : a.rounding.top < exponent)
    (d : ℕ) : ¬ a.rounding.Contains (decimal d exponent * unit) := by
  intro hd
  have hvalue : (0 : ℚ) < a.rounding.value := by exact_mod_cast rounding_value_pos ha
  have hle := le_of_contains ha hd
  have hpoint := decimal_le (digits_pos ha hd : 1 ≤ d) exponent
  rw [decimal, Nat.cast_one, one_mul] at hpoint
  have htop := (Rounding.top_spec (rounding_value_pos ha)).2
  have hstep : (10 : ℚ) ^ (a.rounding.top + 1) * unit ≤ 10 ^ exponent * unit :=
    mul_le_mul_of_nonneg_right (zpow_le_zpow_right₀ (by norm_num) h) unit_pos.le
  rw [zpow_add_one₀ (by norm_num)] at hstep
  linarith

/-- Seventeen digits are enough: the bounds are farther from each other than two multiples of this
power of ten. -/
theorem Magnitude.exists_contains (ha : 0 < a.mantissa) :
    ∃ d, a.rounding.Contains (decimal d (a.rounding.top - 17) * unit) := by
  have htop := (Rounding.top_spec (rounding_value_pos ha)).1
  have hstep := step_pos (a.rounding.top - 17)
  obtain ⟨hle, hlt⟩ := a.rounding.pointBefore_le (a.rounding.top - 17)
  rw [decimal_succ] at hlt
  have hdigits (e : ℤ) : (10 : ℚ) ^ (e - 1) = 10 ^ (e - 17) * 10 ^ 16 := by
    rw [← zpow_natCast, ← zpow_add₀ (by norm_num)]
    congr 1
    push_cast
    ring
  rw [hdigits] at htop
  generalize hpoint : a.rounding.pointBefore (a.rounding.top - 17) = d at hle hlt
  generalize hx : decimal d (a.rounding.top - 17) * unit = x at hle hlt
  generalize hgap : (10 : ℚ) ^ (a.rounding.top - 17) * unit = gap at *
  rcases le_total (2 * (a.rounding.value - x)) gap with hnear | hfar
  · refine ⟨d, contains_of_near ha ?_⟩
    rw [hx, abs_of_nonpos (by linarith)]
    linarith
  · refine ⟨d + 1, contains_of_near ha ?_⟩
    rw [decimal_succ, hx, hgap, abs_of_nonneg (by linarith)]
    linarith

/-- If some grid among those that are searched has a point for the number, then the first such grid
is found, and the point that is hit on it. -/
theorem Rounding.firstHit_spec {fuel : ℕ}
    (h : ∃ i < fuel, r.hit? (gridOf (exponent - i)) ≠ none) :
    r.hit? (gridOf (r.firstHit fuel exponent).2) = some (r.firstHit fuel exponent).1 ∧
      ∀ e, (r.firstHit fuel exponent).2 < e → e ≤ exponent → r.hit? (gridOf e) = none := by
  induction fuel generalizing exponent with
  | zero =>
    obtain ⟨i, hi, -⟩ := h
    cases hi
  | succ fuel ih =>
    rw [firstHit]
    cases hhit : r.hit? (gridOf exponent) with
    | some d => exact ⟨hhit, fun e hlt hle => absurd hle (not_le.2 hlt)⟩
    | none =>
      obtain ⟨i, hi, hne⟩ := h
      obtain ⟨j, rfl⟩ : ∃ j, i = j + 1 := by
        refine Nat.exists_eq_succ_of_ne_zero ?_
        rintro rfl
        rw [Nat.cast_zero, sub_zero] at hne
        exact hne hhit
      have hshift : exponent - ((j + 1 : ℕ) : ℤ) = exponent - 1 - j := by
        push_cast
        ring
      rw [hshift] at hne
      obtain ⟨hfound, hbefore⟩ := ih ⟨j, Nat.lt_of_succ_lt_succ hi, hne⟩
      refine ⟨hfound, fun e hlt hle => ?_⟩
      rcases hle.eq_or_lt with rfl | hless
      · exact hhit
      · exact hbefore e hlt (Int.le_sub_one_of_lt hless)

end Search

/-! ### What is shortest -/

section Shortest

variable {a : Magnitude} {digits digits' : ℕ} {exponent exponent' : ℤ}

/-- The value of a magnitude. -/
def Magnitude.value (a : Magnitude) : ℚ := a.mantissa * 2 ^ a.power / 2 ^ scale

/-- The decimal is read as the magnitude. -/
def Magnitude.ReadFrom (a : Magnitude) (digits : ℕ) (exponent : ℤ) : Prop :=
  ∃ h, ofDecimal false digits exponent = .finite false a h

/-- The fewest digits that are read as a magnitude: no multiple of a greater power of ten is read as
the magnitude, and no other multiple of this one that is read as it is nearer to it. Of two that are
equally near the greater one is meant. -/
structure Magnitude.IsShortest (a : Magnitude) (digits : ℕ) (exponent : ℤ) : Prop where
  readFrom : a.ReadFrom digits exponent
  coarsest : ∀ d e, exponent < e → ¬ a.ReadFrom d e
  nearest : ∀ d, a.ReadFrom d exponent →
    |decimal digits exponent - a.value| < |decimal d exponent - a.value| ∨
      |decimal digits exponent - a.value| = |decimal d exponent - a.value| ∧ d ≤ digits

theorem Magnitude.readFrom_iff (ha : 0 < a.mantissa) (hpower : a.power ≤ maxPower) :
    a.ReadFrom digits exponent ↔ a.rounding.Contains (decimal digits exponent * unit) := by
  constructor
  · rintro ⟨h, hread⟩
    exact ((ofDecimal_eq_finite_iff ha).1 hread).2
  · exact fun h => ⟨hpower, (ofDecimal_eq_finite_iff ha).2 ⟨rfl, h⟩⟩

theorem Magnitude.ReadFrom.power_le (h : a.ReadFrom digits exponent) : a.power ≤ maxPower := h.1

theorem Magnitude.value_mul_unit (a : Magnitude) : a.value * unit = a.rounding.value := by
  rw [rounding_value, value, unit, Nat.pow_eq]
  push_cast
  field_simp

/-- Which of two decimals is nearer does not depend on the unit. -/
theorem Magnitude.prefers_iff {d d' : ℕ} :
    a.rounding.Prefers exponent d d' ↔
      |decimal d exponent - a.value| < |decimal d' exponent - a.value| ∨
        |decimal d exponent - a.value| = |decimal d' exponent - a.value| ∧ d' ≤ d := by
  have hunit := unit_pos
  have hscaled (x : ℚ) : |x * unit - a.rounding.value| = |x - a.value| * unit := by
    rw [← a.value_mul_unit, ← sub_mul, abs_mul, abs_of_pos hunit]
  rw [Rounding.Prefers, hscaled, hscaled, mul_lt_mul_iff_left₀ hunit, mul_left_inj' hunit.ne']

/-- **Shortest digits.** The fewest digits that are read as a positive number are found.

**Proof sketch.** A decimal is read as the number just if it lies between the bounds of the number
(`ofDecimal_eq_finite_iff`). The powers of ten are tried from the one next to the number on, as no
multiple of a greater one lies between the bounds. Sixteen steps further down two multiples are
nearer to each other than the bounds are, so that one of them lies between the bounds. -/
theorem Magnitude.isShortest_shortest (ha : 0 < a.mantissa) (hpower : a.power ≤ maxPower) :
    a.IsShortest a.shortest.1 a.shortest.2 := by
  have hvalue := contains_value ha
  obtain ⟨d, hd⟩ := exists_contains ha
  have hfound : ∃ i < 18, a.rounding.hit? (gridOf (a.rounding.top - (i : ℕ))) ≠ none :=
    ⟨17, by decide, fun hnone => (Rounding.hit?_eq_none_iff hvalue).1 hnone d hd⟩
  obtain ⟨hhit, hbefore⟩ := Rounding.firstHit_spec hfound
  obtain ⟨hcontains, hnearest⟩ := Rounding.hit?_eq_some hvalue hhit
  refine ⟨(readFrom_iff ha hpower).2 hcontains, fun d e hlt hread => ?_, fun d hread => ?_⟩
  · have hd := (readFrom_iff ha hpower).1 hread
    rcases le_or_gt e a.rounding.top with hle | hgt
    · exact (Rounding.hit?_eq_none_iff hvalue).1 (hbefore e hlt hle) d hd
    · exact not_contains_of_top_lt ha hgt d hd
  · exact prefers_iff.1 (hnearest d ((readFrom_iff ha hpower).1 hread))

/-- A magnitude has one decimal with the fewest digits. -/
theorem Magnitude.IsShortest.unique (h : a.IsShortest digits exponent)
    (h' : a.IsShortest digits' exponent') : digits = digits' ∧ exponent = exponent' := by
  have hexponent : exponent = exponent' := by
    rcases lt_trichotomy exponent exponent' with hlt | heq | hgt
    · exact absurd h'.readFrom (h.coarsest _ _ hlt)
    · exact heq
    · exact absurd h.readFrom (h'.coarsest _ _ hgt)
  subst hexponent
  refine ⟨?_, rfl⟩
  rcases h.nearest _ h'.readFrom with hlt | ⟨heq, hle⟩
  · rcases h'.nearest _ h.readFrom with hlt' | ⟨heq', -⟩
    · exact absurd (hlt.trans hlt') (lt_irrefl _)
    · exact absurd heq'.symm hlt.ne
  · rcases h'.nearest _ h.readFrom with hlt' | ⟨-, hle'⟩
    · exact absurd heq.symm hlt'.ne
    · exact le_antisymm hle' hle

/-- No decimal with fewer digits is read as the magnitude: there would be a power of ten between the
two, of which no multiple is read as the magnitude. -/
theorem Magnitude.IsShortest.length_le (ha : 0 < a.mantissa) (h : a.IsShortest digits exponent)
    {d : ℕ} {e : ℤ} (hread : a.ReadFrom d e) :
    (Nat.toDigits 10 digits).length ≤ (Nat.toDigits 10 d).length := by
  have hpower := hread.power_le
  refine not_lt.1 fun hlt => ?_
  have hpos : 0 < (Nat.toDigits 10 d).length := Nat.length_toDigits_pos
  have hle : e ≤ exponent := not_lt.1 fun hgt => h.coarsest d e hgt hread
  have hdigits : 0 < digits := by
    refine Nat.pos_of_ne_zero fun hzero => ?_
    rw [hzero, Nat.toDigits_zero, List.length_singleton] at hlt
    omega
  have hbelow : decimal d e ≤ 10 ^ (exponent + (Nat.toDigits 10 digits).length - 1) :=
    (decimal_lt d e).le.trans (zpow_le_zpow_right₀ (by norm_num) (by omega))
  have habove := le_decimal hdigits exponent
  have hcontains := ((readFrom_iff ha hpower).1 hread).convex
    ((readFrom_iff ha hpower).1 h.readFrom)
    (mul_le_mul_of_nonneg_right hbelow unit_pos.le)
    (mul_le_mul_of_nonneg_right habove unit_pos.le)
  refine h.coarsest 1 (exponent + (Nat.toDigits 10 digits).length - 1) (by omega)
    ((readFrom_iff ha hpower).2 ?_)
  rwa [decimal, Nat.cast_one, one_mul]

/-- The fewest digits do not end with a zero. -/
theorem Magnitude.IsShortest.not_dvd (ha : 0 < a.mantissa) (h : a.IsShortest digits exponent) :
    ¬ 10 ∣ digits := by
  rintro ⟨d, rfl⟩
  have hpower := h.readFrom.power_le
  have hcoarser : decimal (10 * d) exponent = decimal d (exponent + 1) := by
    rw [decimal, decimal, zpow_add_one₀ (by norm_num)]
    push_cast
    ring
  refine h.coarsest d (exponent + 1) (Int.lt_succ exponent) ((readFrom_iff ha hpower).2 ?_)
  rw [← hcoarser]
  exact (readFrom_iff ha hpower).1 h.readFrom

end Shortest

/-! ### Texts -/

/-- The text of `digits * 10 ^ exponent` without an exponent: all digits of a whole number, or those
of the whole part, a point, and as many digits behind it as the exponent says. -/
def IsPositional (digits : ℕ) : ℤ → List Char → Prop
  | .ofNat e, cs => Text.IsPadded 1 (digits * 10 ^ e) cs
  | .negSucc e, cs => ∃ whole places, Text.IsPadded 1 (digits / 10 ^ (e + 1)) whole ∧
      Text.IsPadded (e + 1) (digits % 10 ^ (e + 1)) places ∧ cs = whole ++ '.' :: places

/-- Digits before a power of ten have one text. -/
theorem IsPositional.unique {digits : ℕ} {exponent : ℤ} {cs ds : List Char}
    (hcs : IsPositional digits exponent cs) (hds : IsPositional digits exponent ds) : cs = ds := by
  cases exponent with
  | ofNat e => exact Text.IsPadded.unique hcs hds
  | negSucc e =>
    obtain ⟨whole, places, hwhole, hplaces, rfl⟩ := hcs
    obtain ⟨whole', places', hwhole', hplaces', rfl⟩ := hds
    rw [hwhole.unique hwhole', hplaces.unique hplaces']

/-- The text that is written for digits before a power of ten. -/
theorem isPositional_positional {digits : ℕ} (h : 0 < digits) (exponent : ℤ) :
    IsPositional digits exponent (positional digits exponent).toList := by
  have hwritten : ∀ c ∈ Nat.toDigits 10 digits, c.isDigit = true := fun _ =>
    Nat.isDigit_of_mem_toDigits (by decide) (by decide)
  cases exponent with
  | ofNat e =>
    simp only [positional, String.toList_ofList]
    refine ⟨fun c hc => ?_, ?_, ?_, fun _ => ?_⟩
    · rcases List.mem_append.1 hc with hc | hc
      · exact hwritten c hc
      · rw [List.eq_of_mem_replicate hc]
        rfl
    · rw [Nat.ofDigitChars_append, Nat.ofDigitChars_ten_toDigits,
        Nat.ofDigitChars_replicate_zero, Nat.mul_comm]
    · rw [List.length_append]
      exact Nat.le_add_right_of_le Nat.length_toDigits_pos
    · rw [List.head?_append_of_ne_nil _ Nat.toDigits_ne_nil]
      exact Text.head?_toDigits_ne h
  | negSucc e =>
    simp only [positional, String.toList_ofList]
    obtain ⟨hwhole, hplaces⟩ := (Text.isPadded_leftpad (e + 1).succ_pos digits).split
    exact ⟨_, _, hwhole, hplaces, rfl⟩

/-- The text of a number without its sign: a zero, or the fewest digits. -/
inductive Magnitude.HasText (a : Magnitude) : String → Prop where
  | zero (h : a.mantissa = 0) : a.HasText "0"
  | digits {digits : ℕ} {exponent : ℤ} {text : String} (h : 0 < a.mantissa)
      (hshortest : a.IsShortest digits exponent)
      (htext : IsPositional digits exponent text.toList) : a.HasText text

/-- The text of a number. A zero keeps its sign. -/
inductive HasText : Binary64 → String → Prop where
  | nan : HasText .nan "NaN"
  | infinity : HasText (.infinity false) "inf"
  | negativeInfinity : HasText (.infinity true) "-inf"
  | finite {a : Magnitude} {h : a.power ≤ maxPower} {text : String} (htext : a.HasText text) :
      HasText (.finite false a h) text
  | negative {a : Magnitude} {h : a.power ≤ maxPower} {text : String} (htext : a.HasText text) :
      HasText (.finite true a h) ("-" ++ text)

theorem Magnitude.hasText_text {a : Magnitude} (hpower : a.power ≤ maxPower) :
    a.HasText a.text := by
  rw [text]
  split
  · rename_i hzero
    exact .zero hzero
  · rename_i hne
    have ha := Nat.pos_of_ne_zero hne
    have hshortest := isShortest_shortest ha hpower
    exact .digits ha hshortest (isPositional_positional
      (digits_pos ha ((readFrom_iff ha hpower).1 hshortest.readFrom)) _)

theorem Magnitude.HasText.unique {a : Magnitude} {text text' : String} (h : a.HasText text)
    (h' : a.HasText text') : text = text' := by
  cases h with
  | zero hzero =>
    cases h' with
    | zero => rfl
    | digits hpos => exact absurd hzero hpos.ne'
  | digits hpos hshortest htext =>
    cases h' with
    | zero hzero => exact absurd hzero hpos.ne'
    | digits _ hshortest' htext' =>
      obtain ⟨rfl, rfl⟩ := hshortest.unique hshortest'
      exact String.toList_injective (htext.unique htext')

theorem HasText.unique {number : Binary64} {text text' : String} (h : HasText number text)
    (h' : HasText number text') : text = text' := by
  cases h with
  | nan | infinity | negativeInfinity =>
    cases h'
    rfl
  | finite htext =>
    cases h' with
    | finite htext' => exact htext.unique htext'
  | negative htext =>
    cases h' with
    | negative htext' => rw [htext.unique htext']

theorem hasText_text (number : Binary64) : HasText number number.text := by
  cases number with
  | nan => exact .nan
  | infinity negative =>
    cases negative with
    | false => exact .infinity
    | true => exact .negativeInfinity
  | finite negative a h =>
    have ha := Magnitude.hasText_text h
    cases negative with
    | false => exact .finite ha
    | true => exact .negative ha

/-- **Texts of numbers.** A finite number is written with the fewest digits that are read as this
number again, the nearest ones if there is a choice, and without an exponent. The fewest digits do
not end with a zero (`Magnitude.IsShortest.not_dvd`), so there are none behind the last place. -/
theorem hasText_iff {number : Binary64} {text : String} :
    HasText number text ↔ number.text = text := by
  constructor
  · exact fun h => (hasText_text number).unique h
  · rintro rfl
    exact hasText_text number

end SchemaForge.Binary64
