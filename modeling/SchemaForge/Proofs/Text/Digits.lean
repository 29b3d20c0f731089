import Mathlib.Algebra.Order.Group.Nat
import Mathlib.Tactic.Ring
set_option autoImplicit false

/-!
# Numbers in decimal digits

A number has just one text of decimal digits of a given width, with zeros in front of its own digits
where these are fewer. Which text this is, is said here by its digits and their value, apart from
the functions that write numbers.

## Main definitions

* `SchemaForge.Text.IsPadded` — the digits of a number, at least as many as given.

## Main results

* `SchemaForge.Text.IsPadded.unique` — a number has one text of a width.
* `SchemaForge.Text.IsPadded.split` — the digits are those of quotient and remainder.
* `SchemaForge.Text.isPadded_leftpad` — the digits of a number with zeros in front of them.
-/

namespace SchemaForge.Text

variable {width n : ℕ} {cs ds : List Char} {c : Char}

/-- The decimal digits of a number, at least as many as the width says. More digits than that do not
begin with a zero. -/
structure IsPadded (width n : ℕ) (cs : List Char) : Prop where
  isDigit : ∀ c ∈ cs, c.isDigit = true
  value : Nat.ofDigitChars 10 cs 0 = n
  width_le : width ≤ cs.length
  head?_ne : width < cs.length → cs.head? ≠ some '0'

/-! ### Values of digits -/

/-- Digits stand between zero and nine. -/
theorem toNat_of_isDigit (h : c.isDigit = true) : 48 ≤ c.toNat ∧ c.toNat ≤ 57 := by
  simpa [Char.isDigit, UInt32.le_iff_toNat_le] using h

/-- The first digit has the greatest place. -/
theorem ofDigitChars_cons_zero (c : Char) (cs : List Char) :
    Nat.ofDigitChars 10 (c :: cs) 0 =
      10 ^ cs.length * (c.toNat - 48) + Nat.ofDigitChars 10 cs 0 := by
  rw [Nat.ofDigitChars_cons, Nat.ofDigitChars_eq_ofDigitChars_zero, Nat.mul_zero, Nat.zero_add]
  rfl

/-- The value of digits is less than the place in front of them. -/
theorem ofDigitChars_lt (h : ∀ c ∈ cs, c.isDigit = true) :
    Nat.ofDigitChars 10 cs 0 < 10 ^ cs.length := by
  induction cs with
  | nil => simp
  | cons c cs ih =>
    obtain ⟨hc, hcs⟩ := List.forall_mem_cons.1 h
    have hdigit := toNat_of_isDigit hc
    have hrest := ih hcs
    have hplace : 10 ^ cs.length * (c.toNat - 48) ≤ 10 ^ cs.length * 9 :=
      Nat.mul_le_mul_left _ (by omega)
    rw [ofDigitChars_cons_zero, List.length_cons, pow_succ]
    omega

/-- Equally many digits with the same value are the same. -/
theorem eq_of_ofDigitChars_eq (hcs : ∀ c ∈ cs, c.isDigit = true) (hds : ∀ d ∈ ds, d.isDigit = true)
    (hlength : cs.length = ds.length)
    (hvalue : Nat.ofDigitChars 10 cs 0 = Nat.ofDigitChars 10 ds 0) : cs = ds := by
  induction cs generalizing ds with
  | nil => exact (List.length_eq_zero_iff.1 hlength.symm).symm
  | cons c cs ih =>
    obtain _ | ⟨d, ds⟩ := ds
    · cases hlength
    obtain ⟨hc, hcs⟩ := List.forall_mem_cons.1 hcs
    obtain ⟨hd, hds⟩ := List.forall_mem_cons.1 hds
    have hlength : cs.length = ds.length := Nat.succ.inj hlength
    rw [ofDigitChars_cons_zero, ofDigitChars_cons_zero, hlength] at hvalue
    have hrest := ofDigitChars_lt hcs
    have hrest' := ofDigitChars_lt hds
    rw [hlength] at hrest
    -- the values are quotient and remainder of the place of the first digit
    have hfirst : c.toNat - 48 = d.toNat - 48 := by
      have hdiv := congrArg (· / 10 ^ ds.length) hvalue
      simpa [Nat.mul_add_div, Nat.div_eq_of_lt hrest, Nat.div_eq_of_lt hrest'] using hdiv
    have hdigit := toNat_of_isDigit hc
    have hdigit' := toNat_of_isDigit hd
    have hchar : c = d := Char.toNat_inj.1 (by omega)
    rw [hfirst] at hvalue
    rw [hchar, ih hcs hds hlength (Nat.add_left_cancel hvalue)]

/-- More digits than the width do not have a value for which fewer are enough. -/
theorem IsPadded.le_value (h : IsPadded width n cs) (hlength : width < cs.length) :
    10 ^ (cs.length - 1) ≤ n := by
  obtain ⟨hdigits, rfl, -, hhead⟩ := h
  obtain _ | ⟨c, cs⟩ := cs
  · cases hlength
  have hdigit := toNat_of_isDigit (hdigits c List.mem_cons_self)
  have hne : c.toNat ≠ 48 := fun hzero => hhead hlength (by
    rw [List.head?_cons, Option.some.injEq]
    exact Char.toNat_inj.1 hzero)
  rw [ofDigitChars_cons_zero, List.length_cons, Nat.add_sub_cancel]
  exact le_trans (Nat.le_mul_of_pos_right _ (by omega)) (Nat.le_add_right _ _)

/-- A number has one text of a width. -/
theorem IsPadded.unique (hcs : IsPadded width n cs) (hds : IsPadded width n ds) : cs = ds := by
  -- neither text is longer, as its first digit would have too great a place
  have hle {cs ds : List Char} (hcs : IsPadded width n cs) (hds : IsPadded width n ds) :
      cs.length ≤ ds.length := by
    by_contra hlt
    have hlow := hcs.le_value (lt_of_le_of_lt hds.width_le (not_le.1 hlt))
    have hhigh := ofDigitChars_lt hds.isDigit
    rw [hds.value] at hhigh
    have hlengths := (Nat.pow_lt_pow_iff_right (by decide)).1 (lt_of_le_of_lt hlow hhigh)
    omega
  exact eq_of_ofDigitChars_eq hcs.isDigit hds.isDigit (le_antisymm (hle hcs hds) (hle hds hcs))
    (hcs.value.trans hds.value.symm)

/-- The last digits of a number, as many as the places, and the digits in front of them. -/
theorem IsPadded.split {places : ℕ} (h : IsPadded (places + 1) n cs) :
    IsPadded 1 (n / 10 ^ places) (cs.take (cs.length - places)) ∧
      IsPadded places (n % 10 ^ places) (cs.drop (cs.length - places)) := by
  have hwidth := h.width_le
  have htake : (cs.take (cs.length - places)).length = cs.length - places := by
    rw [List.length_take]
    omega
  have hdrop : (cs.drop (cs.length - places)).length = places := by
    rw [List.length_drop]
    omega
  have hfront : ∀ c ∈ cs.take (cs.length - places), c.isDigit = true := fun c hc =>
    h.isDigit c (List.mem_of_mem_take hc)
  have hlast : ∀ c ∈ cs.drop (cs.length - places), c.isDigit = true := fun c hc =>
    h.isDigit c (List.mem_of_mem_drop hc)
  have hlt := ofDigitChars_lt hlast
  have hvalue : n = 10 ^ places * Nat.ofDigitChars 10 (cs.take (cs.length - places)) 0 +
      Nat.ofDigitChars 10 (cs.drop (cs.length - places)) 0 := by
    have hcut := h.value.symm
    rwa [← List.take_append_drop (cs.length - places) cs, Nat.ofDigitChars_append,
      Nat.ofDigitChars_eq_ofDigitChars_zero, hdrop] at hcut
  rw [hdrop] at hlt
  refine ⟨⟨hfront, ?_, ?_, fun hlong => ?_⟩, ⟨hlast, ?_, hdrop.ge, fun hlong => ?_⟩⟩
  · rw [hvalue, Nat.mul_add_div (Nat.pow_pos (by decide)), Nat.div_eq_of_lt hlt, Nat.add_zero]
  · omega
  · rw [List.head?_take, if_neg (by omega)]
    exact h.head?_ne (by omega)
  · rw [hvalue, Nat.mul_add_mod, Nat.mod_eq_of_lt hlt]
  · omega

/-! ### The digits that are written -/

/-- The digits of a positive number do not begin with a zero. -/
theorem head?_toDigits_ne (h : 0 < n) : (Nat.toDigits 10 n).head? ≠ some '0' := by
  obtain ⟨c, cs, hcs⟩ := List.exists_cons_of_ne_nil (Nat.toDigits_ne_nil (b := 10) (n := n))
  have hdigits : ∀ d ∈ cs, d.isDigit = true := fun d hd =>
    Nat.isDigit_of_mem_toDigits (by decide) (by decide)
      (hcs ▸ List.mem_cons_of_mem c hd : d ∈ Nat.toDigits 10 n)
  have hvalue : Nat.ofDigitChars 10 (c :: cs) 0 = n := by
    rw [← hcs, Nat.ofDigitChars_ten_toDigits]
  rw [hcs, List.head?_cons, Ne, Option.some.injEq]
  rintro rfl
  rw [ofDigitChars_cons_zero] at hvalue
  have hlt := ofDigitChars_lt hdigits
  have hn : n < 10 ^ cs.length := by
    rw [← hvalue]
    simpa using hlt
  rcases Nat.eq_zero_or_pos cs.length with hzero | hpos
  · rw [hzero] at hn
    omega
  · -- one digit fewer would be enough
    have hle := (Nat.length_toDigits_le_iff (by decide) hpos).2 hn
    rw [hcs, List.length_cons] at hle
    omega

theorem ofDigitChars_leftpad (width : ℕ) (cs : List Char) :
    Nat.ofDigitChars 10 (cs.leftpad width '0') 0 = Nat.ofDigitChars 10 cs 0 := by
  rw [List.leftpad, Nat.ofDigitChars_append, Nat.ofDigitChars_replicate_zero, Nat.mul_zero]

theorem isDigit_of_mem_leftpad (hcs : ∀ c ∈ cs, c.isDigit = true) :
    ∀ c ∈ cs.leftpad width '0', c.isDigit = true := by
  intro c hc
  rw [List.leftpad, List.mem_append] at hc
  rcases hc with hc | hc
  · rw [List.eq_of_mem_replicate hc]
    rfl
  · exact hcs c hc

/-- The digits of a number with zeros in front of them. -/
theorem isPadded_leftpad (hwidth : 0 < width) (n : ℕ) :
    IsPadded width n ((Nat.toDigits 10 n).leftpad width '0') where
  isDigit := isDigit_of_mem_leftpad fun _ =>
    Nat.isDigit_of_mem_toDigits (by decide) (by decide)
  value := by rw [ofDigitChars_leftpad, Nat.ofDigitChars_ten_toDigits]
  width_le := by
    rw [List.length_leftpad]
    exact le_max_left _ _
  head?_ne := by
    intro hlength
    rw [List.length_leftpad, lt_max_iff, or_iff_right (lt_irrefl _)] at hlength
    have hzeros : width - (Nat.toDigits 10 n).length = 0 := by omega
    have hpos : 0 < n := by
      rcases Nat.eq_zero_or_pos n with rfl | hpos
      · rw [Nat.toDigits_zero, List.length_singleton] at hlength
        omega
      · exact hpos
    rw [List.leftpad, hzeros, List.replicate_zero, List.nil_append]
    exact head?_toDigits_ne hpos

end SchemaForge.Text
