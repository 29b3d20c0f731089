import Mathlib.Data.List.TakeWhile
import Mathlib.Data.Nat.Digits.Lemmas
import SchemaForge.Generation.Descriptor
set_option autoImplicit false

/-!
# The kinds of numbers

What a number may look like is said here by a grammar, apart from the functions that read numbers
or check them. Integers are kept in 32 or in 64 bits, so their values are bounded; real numbers are
not, as what is too great for them is infinite.

## Main definitions

* `SchemaForge.Text.SpellsInteger` — the spellings of integers, with their values.
* `SchemaForge.Text.SpellsReal` — the spellings of real numbers.

## Main results

* `SchemaForge.Text.signedValue?_eq_some_iff` — an integer is read just from its spellings.
* `SchemaForge.Text.isReal_iff` — real numbers are recognized by their spellings.
* `SchemaForge.OptionKind.numbers_accepted` — which values the kinds of numbers accept.
-/

namespace SchemaForge

namespace Text

variable {cs digits rest sign : List Char} {c : Char}

/-! ### Digits and signs -/

/-- Digits, at least one, and nothing else. -/
def IsDigits (cs : List Char) : Prop := cs ≠ [] ∧ ∀ c ∈ cs, isDigit c = true

/-- The value of digits by their places: the last one counts once, the one before it ten times, and
so on. -/
def placeValue (digits : List Char) : Nat := Nat.ofDigits 10 (digits.reverse.map digitValue)

/-- An optional sign. -/
inductive IsSign : List Char → Prop where
  | none : IsSign []
  | plus : IsSign ['+']
  | minus : IsSign ['-']

/-- Digits that are read from the left to the right have the value of their places. -/
theorem decimalValue_eq_placeValue (digits : List Char) :
    decimalValue digits = placeValue digits := by
  -- the digits read so far are the ones with the greater places
  have hfold (n : Nat) : digits.foldl (fun n c => n * 10 + digitValue c) n =
      n * 10 ^ digits.length + placeValue digits := by
    induction digits generalizing n with
    | nil => simp [placeValue]
    | cons c digits ih =>
      have hplace : placeValue (c :: digits) =
          placeValue digits + 10 ^ digits.length * digitValue c := by
        simp [placeValue, Nat.ofDigits_append]
      rw [List.foldl_cons, ih, hplace, List.length_cons, pow_succ]
      ring
  simpa [decimalValue] using hfold 0

/-- The value of a text of digits, and of no other text. -/
theorem digitsValue?_eq_some_iff {n : Nat} :
    digitsValue? digits = some n ↔ IsDigits digits ∧ n = placeValue digits := by
  have hcondition : (digits.isEmpty || !digits.all isDigit) = true ↔ ¬ IsDigits digits := by
    simp [IsDigits, imp_iff_not_or]
  rw [digitsValue?, ← decimalValue_eq_placeValue]
  split
  · rename_i h
    exact iff_of_false nofun fun hdigits => hcondition.1 h hdigits.1
  · rename_i h
    have hdigits : IsDigits digits := not_not.1 fun hnot => h (hcondition.2 hnot)
    rw [Option.some.injEq, and_iff_right hdigits, eq_comm]

/-- A text that does not begin with a sign. -/
def Unsigned (cs : List Char) : Prop := ∀ c ∈ cs.head?, c ≠ '+' ∧ c ≠ '-'

/-- A text begins with one of the two signs or with none. -/
theorem sign_cases (cs : List Char) :
    (∃ rest, cs = '+' :: rest) ∨ (∃ rest, cs = '-' :: rest) ∨ Unsigned cs := by
  cases cs with
  | nil => exact .inr (.inr nofun)
  | cons c rest =>
    by_cases hplus : c = '+'
    · exact .inl ⟨rest, by rw [hplus]⟩
    by_cases hminus : c = '-'
    · exact .inr (.inl ⟨rest, by rw [hminus]⟩)
    refine .inr (.inr fun d hd => ?_)
    cases hd
    exact ⟨hplus, hminus⟩

theorem dropSign_of_unsigned (h : Unsigned cs) : dropSign cs = cs := by
  unfold dropSign
  split
  · exact absurd rfl (h '+' rfl).1
  · exact absurd rfl (h '-' rfl).2
  · rfl

/-- One sign is dropped. -/
theorem dropSign_append (hsign : IsSign sign) (h : Unsigned rest) :
    dropSign (sign ++ rest) = rest := by
  cases hsign with
  | none => exact dropSign_of_unsigned h
  | plus => rfl
  | minus => rfl

/-- In front of what is left without a sign there was a sign or nothing. -/
theorem exists_sign_append_dropSign (cs : List Char) :
    ∃ sign, IsSign sign ∧ cs = sign ++ dropSign cs := by
  rcases sign_cases cs with ⟨rest, rfl⟩ | ⟨rest, rfl⟩ | h
  · exact ⟨['+'], .plus, rfl⟩
  · exact ⟨['-'], .minus, rfl⟩
  · exact ⟨[], .none, (dropSign_of_unsigned h).symm⟩

/-- Where neither sign has a property, a text that begins with a character with this property does
not begin with a sign. -/
theorem unsigned_of_head? {p : Char → Bool} (hplus : p '+' = false) (hminus : p '-' = false)
    (h : ∀ c ∈ cs.head?, p c = true) : Unsigned cs := by
  intro c hc
  have hc := h c hc
  constructor
  · rintro rfl
    exact Bool.noConfusion (hplus.symm.trans hc)
  · rintro rfl
    exact Bool.noConfusion (hminus.symm.trans hc)

/-- No digit is a sign. -/
theorem unsigned_of_isDigit (h : ∀ c ∈ cs.head?, isDigit c = true) : Unsigned cs :=
  unsigned_of_head? (by decide) (by decide) h

theorem IsDigits.unsigned (h : IsDigits digits) : Unsigned digits :=
  unsigned_of_isDigit fun c hc => h.2 c (List.mem_of_mem_head? hc)

/-! ### Integers -/

/-- An optional sign and digits spell an integer. -/
inductive SpellsInteger : List Char → Int → Prop where
  | unsigned {digits : List Char} (h : IsDigits digits) : SpellsInteger digits (placeValue digits)
  | plus {digits : List Char} (h : IsDigits digits) :
    SpellsInteger ('+' :: digits) (placeValue digits)
  | minus {digits : List Char} (h : IsDigits digits) :
    SpellsInteger ('-' :: digits) (-(placeValue digits : Int))

theorem signedValue?_plus (digits : List Char) :
    signedValue? ('+' :: digits) = (digitsValue? digits).map Int.ofNat := rfl

theorem signedValue?_minus (digits : List Char) :
    signedValue? ('-' :: digits) = (digitsValue? digits).map fun n : Nat => -(n : Int) := by
  rw [signedValue?]
  cases digitsValue? digits <;> rfl

theorem signedValue?_of_unsigned (h : Unsigned cs) :
    signedValue? cs = (digitsValue? cs).map Int.ofNat := by
  unfold signedValue?
  split
  · exact absurd rfl (h '+' rfl).1
  · exact absurd rfl (h '-' rfl).2
  · rfl

/-- What is made of the value of digits. -/
theorem map_digitsValue?_eq_some_iff {f : Nat → Int} {n : Int} :
    (digitsValue? digits).map f = some n ↔ IsDigits digits ∧ f (placeValue digits) = n := by
  simp only [Option.map_eq_some_iff, digitsValue?_eq_some_iff]
  constructor
  · rintro ⟨_, ⟨hdigits, rfl⟩, hn⟩
    exact ⟨hdigits, hn⟩
  · rintro ⟨hdigits, hn⟩
    exact ⟨_, ⟨hdigits, rfl⟩, hn⟩

/-- An integer is read just from its spellings. -/
theorem signedValue?_eq_some_iff {n : Int} : signedValue? cs = some n ↔ SpellsInteger cs n := by
  constructor
  · intro h
    rcases sign_cases cs with ⟨digits, rfl⟩ | ⟨digits, rfl⟩ | hunsigned
    · rw [signedValue?_plus] at h
      obtain ⟨hdigits, rfl⟩ := map_digitsValue?_eq_some_iff.1 h
      exact .plus hdigits
    · rw [signedValue?_minus] at h
      obtain ⟨hdigits, rfl⟩ := map_digitsValue?_eq_some_iff.1 h
      exact .minus hdigits
    · rw [signedValue?_of_unsigned hunsigned] at h
      obtain ⟨hdigits, rfl⟩ := map_digitsValue?_eq_some_iff.1 h
      exact .unsigned hdigits
  · intro h
    cases h with
    | unsigned hdigits =>
      rw [signedValue?_of_unsigned hdigits.unsigned]
      exact map_digitsValue?_eq_some_iff.2 ⟨hdigits, rfl⟩
    | plus hdigits =>
      rw [signedValue?_plus]
      exact map_digitsValue?_eq_some_iff.2 ⟨hdigits, rfl⟩
    | minus hdigits =>
      rw [signedValue?_minus]
      exact map_digitsValue?_eq_some_iff.2 ⟨hdigits, rfl⟩

/-- Whether a text spells an integer between the bounds. -/
theorem isIntegerWithin_iff {low high : Int} :
    isIntegerWithin low high cs = true ↔ ∃ n, SpellsInteger cs n ∧ low ≤ n ∧ n ≤ high := by
  simp only [← signedValue?_eq_some_iff, isIntegerWithin]
  cases signedValue? cs with
  | none => simp
  | some n => simp

/-! ### Real numbers -/

/-- The exponent of a number, which may be left out: a letter, an optional sign and digits. -/
inductive SpellsExponent : List Char → Prop where
  | none : SpellsExponent []
  | some {letter : Char} {sign digits : List Char} (hletter : letter = 'e' ∨ letter = 'E')
    (hsign : IsSign sign) (hdigits : IsDigits digits) : SpellsExponent (letter :: (sign ++ digits))

/-- A decimal fraction without a sign: digits, then perhaps a point and more digits, then perhaps an
exponent. With a point, there may be no digits on one side of it. -/
inductive SpellsFraction : List Char → Prop where
  | whole {whole exponent : List Char} (hwhole : IsDigits whole)
    (hexponent : SpellsExponent exponent) : SpellsFraction (whole ++ exponent)
  | point {whole places exponent : List Char} (hwhole : ∀ c ∈ whole, isDigit c = true)
    (hplaces : ∀ c ∈ places, isDigit c = true) (hsome : whole ≠ [] ∨ places ≠ [])
    (hexponent : SpellsExponent exponent) : SpellsFraction (whole ++ '.' :: (places ++ exponent))

/-- One of the words for numbers without digits, in small or capital letters. -/
def SpellsWord (cs : List Char) : Prop :=
  cs.map Char.toLower ∈ ["inf".toList, "infinity".toList, "nan".toList]

/-- An optional sign, and a fraction or a word. -/
def SpellsReal (cs : List Char) : Prop :=
  ∃ sign rest, cs = sign ++ rest ∧ IsSign sign ∧ (SpellsFraction rest ∨ SpellsWord rest)

/-- The digits in front are all the digits there are before something else. -/
theorem takeWhile_isDigit_append (hdigits : ∀ c ∈ digits, isDigit c = true)
    (hrest : ∀ c ∈ rest.head?, isDigit c = false) :
    (digits ++ rest).takeWhile isDigit = digits ∧ (digits ++ rest).dropWhile isDigit = rest := by
  rw [List.takeWhile_append_of_pos hdigits, List.dropWhile_append_of_pos hdigits]
  cases rest with
  | nil => simp
  | cons c rest => simp [hrest c rfl]

theorem isExponent_iff : isExponent cs = true ↔ SpellsExponent cs := by
  constructor
  · intro h
    cases cs with
    | nil => exact .none
    | cons letter cs =>
      simp only [isExponent, Bool.and_eq_true, Bool.or_eq_true, beq_iff_eq, Bool.not_eq_true',
        List.isEmpty_eq_false_iff, List.all_eq_true] at h
      obtain ⟨sign, hsign, hcs⟩ := exists_sign_append_dropSign cs
      rw [hcs]
      exact .some h.1.1 hsign ⟨h.1.2, h.2⟩
  · intro h
    cases h with
    | none => rfl
    | some hletter hsign hdigits =>
      simp only [isExponent, dropSign_append hsign hdigits.unsigned, Bool.and_eq_true,
        Bool.or_eq_true, beq_iff_eq, Bool.not_eq_true', List.isEmpty_eq_false_iff,
        List.all_eq_true]
      exact ⟨⟨hletter, hdigits.1⟩, hdigits.2⟩

/-- An exponent does not begin with a digit. -/
theorem SpellsExponent.head? (h : SpellsExponent cs) : ∀ c ∈ cs.head?, isDigit c = false := by
  cases h with
  | none => exact nofun
  | some hletter _ _ =>
    intro c hc
    cases hc
    rcases hletter with rfl | rfl <;> decide

theorem isFraction_whole {exponent : List Char} (hdigits : ∀ c ∈ digits, isDigit c = true)
    (hexponent : SpellsExponent exponent) :
    isFraction (digits ++ exponent) = (!digits.isEmpty && isExponent exponent) := by
  obtain ⟨htake, hdrop⟩ := takeWhile_isDigit_append hdigits hexponent.head?
  unfold isFraction
  rw [htake, hdrop]
  cases hexponent with
  | none => rfl
  | some hletter _ _ => rcases hletter with rfl | rfl <;> rfl

theorem isFraction_point {whole places exponent : List Char}
    (hwhole : ∀ c ∈ whole, isDigit c = true) (hplaces : ∀ c ∈ places, isDigit c = true)
    (hexponent : SpellsExponent exponent) :
    isFraction (whole ++ '.' :: (places ++ exponent)) =
      (!(whole.isEmpty && places.isEmpty) && isExponent exponent) := by
  have hpoint : ∀ c ∈ ('.' :: (places ++ exponent)).head?, isDigit c = false := by
    intro c hc
    cases hc
    decide
  obtain ⟨htake, hdrop⟩ := takeWhile_isDigit_append hwhole hpoint
  obtain ⟨hplacesTake, hplacesDrop⟩ := takeWhile_isDigit_append hplaces hexponent.head?
  unfold isFraction
  rw [htake, hdrop]
  change (!(whole.isEmpty && ((places ++ exponent).takeWhile isDigit).isEmpty) &&
    isExponent ((places ++ exponent).dropWhile isDigit)) = _
  rw [hplacesTake, hplacesDrop]

theorem isFraction_iff : isFraction cs = true ↔ SpellsFraction cs := by
  constructor
  · intro h
    have hwhole : ∀ c ∈ cs.takeWhile isDigit, isDigit c = true := fun c => List.mem_takeWhile_imp
    have hcs : cs = cs.takeWhile isDigit ++ cs.dropWhile isDigit :=
      List.takeWhile_append_dropWhile.symm
    unfold isFraction at h
    split at h
    · rename_i rest hrest
      rw [hcs, hrest, ← List.takeWhile_append_dropWhile (p := isDigit) (l := rest)]
      simp only [Bool.and_eq_true, Bool.not_eq_true', Bool.and_eq_false_iff,
        List.isEmpty_eq_false_iff] at h
      exact .point hwhole (fun c => List.mem_takeWhile_imp) h.1 (isExponent_iff.1 h.2)
    · simp only [Bool.and_eq_true, Bool.not_eq_true', List.isEmpty_eq_false_iff] at h
      rw [hcs]
      exact .whole ⟨h.1, hwhole⟩ (isExponent_iff.1 h.2)
  · intro h
    cases h with
    | whole hwhole hexponent =>
      rw [isFraction_whole hwhole.2 hexponent, isExponent_iff.2 hexponent]
      simpa using hwhole.1
    | point hwhole hplaces hsome hexponent =>
      rw [isFraction_point hwhole hplaces hexponent, isExponent_iff.2 hexponent]
      simpa [imp_iff_not_or] using hsome

theorem isNumberWord_iff : isNumberWord cs = true ↔ SpellsWord cs := by
  have hword (word : String) :
      (String.ofList (cs.map Char.toLower) == word) = true ↔ cs.map Char.toLower = word.toList := by
    rw [beq_iff_eq, ← String.toList_inj, String.toList_ofList]
  simp only [isNumberWord, SpellsWord, Bool.or_eq_true, hword, List.mem_cons, List.not_mem_nil,
    or_false, or_assoc]

/-- Neither fractions nor words have a sign of their own. -/
theorem SpellsFraction.unsigned (h : SpellsFraction cs) : Unsigned cs := by
  cases h with
  | @whole whole exponent hwhole _ =>
    refine unsigned_of_isDigit fun c hc => ?_
    rw [List.head?_append_of_ne_nil _ hwhole.1] at hc
    exact hwhole.2 c (List.mem_of_mem_head? hc)
  | @point whole places exponent hwhole _ _ _ =>
    cases whole with
    | nil =>
      intro c hc
      cases hc
      decide
    | cons d whole => exact unsigned_of_isDigit fun c hc => hwhole c (List.mem_of_mem_head? hc)

theorem SpellsWord.unsigned (h : SpellsWord cs) : Unsigned cs := by
  have hletter : ∀ c ∈ cs.head?, (c.toLower == 'i' || c.toLower == 'n') = true := by
    intro c hc
    have hhead : (cs.map Char.toLower).head? = some c.toLower := by
      rw [List.head?_map, hc, Option.map_some]
    have hfirst : some c.toLower = some 'i' ∨ some c.toLower = some 'n' := by
      rw [← hhead]
      simp only [SpellsWord, List.mem_cons, List.not_mem_nil, or_false] at h
      rcases h with h | h | h
      · exact .inl (h ▸ rfl)
      · exact .inl (h ▸ rfl)
      · exact .inr (h ▸ rfl)
    simpa using hfirst
  exact unsigned_of_head? (by decide) (by decide) hletter

/-- Real numbers are recognized by their spellings. -/
theorem isReal_iff : isReal cs = true ↔ SpellsReal cs := by
  have hparts (rest : List Char) : (isNumberWord rest || isFraction rest) = true ↔
      SpellsFraction rest ∨ SpellsWord rest := by
    rw [Bool.or_eq_true, isNumberWord_iff, isFraction_iff, or_comm]
  rw [isReal, hparts]
  constructor
  · intro h
    obtain ⟨sign, hsign, hcs⟩ := exists_sign_append_dropSign cs
    exact ⟨sign, dropSign cs, hcs, hsign, h⟩
  · rintro ⟨sign, rest, rfl, hsign, hrest⟩
    have hunsigned : Unsigned rest := hrest.elim SpellsFraction.unsigned SpellsWord.unsigned
    rwa [dropSign_append hsign hunsigned]

/-- An integer is a real number. -/
theorem SpellsInteger.spellsReal {n : Int} (h : SpellsInteger cs n) : SpellsReal cs := by
  have hfraction {digits : List Char} (h : IsDigits digits) : SpellsFraction digits :=
    List.append_nil digits ▸ .whole h .none
  cases h with
  | unsigned hdigits => exact ⟨[], _, rfl, .none, .inl (hfraction hdigits)⟩
  | plus hdigits => exact ⟨['+'], _, rfl, .plus, .inl (hfraction hdigits)⟩
  | minus hdigits => exact ⟨['-'], _, rfl, .minus, .inl (hfraction hdigits)⟩

end Text

open Text

namespace OptionKind

/-- **The kinds of numbers.** A value is of the kind of integers with 32 or 64 bits just if it is an
optional sign and digits, as many as it likes, and its value is in the range of these integers. A
value is of one of the kinds of real numbers just if it is spelled as a real number, whatever the
number is. So each kind of numbers accepts what the narrower ones accept, and both kinds of real
numbers accept the same values.

**Proof sketch.** A signed text of digits is read just if it is a spelling of an integer
(`Text.signedValue?_eq_some_iff`), and then as what it is by the places of its digits. The grammars
of integers and of real numbers agree on signs, and digits without a point and an exponent are a
fraction (`Text.SpellsInteger.spellsReal`). -/
theorem numbers_accepted (value : String) :
    (int.accepts value = true ↔
      ∃ n, SpellsInteger value.toList n ∧ -2 ^ 31 ≤ n ∧ n ≤ 2 ^ 31 - 1) ∧
    (long.accepts value = true ↔
      ∃ n, SpellsInteger value.toList n ∧ -2 ^ 63 ≤ n ∧ n ≤ 2 ^ 63 - 1) ∧
    (double.accepts value = true ↔ SpellsReal value.toList) ∧
    (int.accepts value = true → long.accepts value = true) ∧
    (long.accepts value = true → float.accepts value = true ∧ double.accepts value = true) ∧
    float.accepts value = double.accepts value := by
  have hint : int.accepts value = true ↔
      ∃ n, SpellsInteger value.toList n ∧ -2147483648 ≤ n ∧ n ≤ 2147483647 := isIntegerWithin_iff
  have hlong : long.accepts value = true ↔ ∃ n, SpellsInteger value.toList n ∧
      -9223372036854775808 ≤ n ∧ n ≤ 9223372036854775807 := isIntegerWithin_iff
  have hreal : double.accepts value = true ↔ SpellsReal value.toList := isReal_iff
  refine ⟨?_, ?_, hreal, ?_, ?_, rfl⟩
  · norm_num [hint]
  · norm_num [hlong]
  · rw [hint, hlong]
    rintro ⟨n, hn, hlow, hhigh⟩
    exact ⟨n, hn, by omega, by omega⟩
  · rw [hlong]
    rintro ⟨n, hn, -, -⟩
    exact ⟨hreal.2 hn.spellsReal, hreal.2 hn.spellsReal⟩

/-- The least integer of 32 bits, with zeros in front, is of each kind; what is one less is of no
kind but the wider ones. -/
theorem numbers_accepted_least :
    int.accepts "-0002147483648" = true ∧ long.accepts "-0002147483648" = true ∧
      float.accepts "-0002147483648" = true ∧ int.accepts "-2147483649" = false ∧
      long.accepts "-2147483649" = true ∧ double.accepts "-2147483649" = true := by
  obtain ⟨hint, -, -, hlong, hreal, -⟩ := numbers_accepted "-0002147483648"
  obtain ⟨-, hlessLong, -, -, hlessReal, -⟩ := numbers_accepted "-2147483649"
  have hspells : SpellsInteger "-0002147483648".toList (-2147483648) :=
    @SpellsInteger.minus "0002147483648".toList ⟨by decide, List.all_eq_true.1 (by decide)⟩
  have haccepts : int.accepts "-0002147483648" = true :=
    hint.2 ⟨-2147483648, hspells, by norm_num, by norm_num⟩
  have hspellsLess : SpellsInteger "-2147483649".toList (-2147483649) :=
    @SpellsInteger.minus "2147483649".toList ⟨by decide, List.all_eq_true.1 (by decide)⟩
  have hacceptsLess : long.accepts "-2147483649" = true :=
    hlessLong.2 ⟨-2147483649, hspellsLess, by norm_num, by norm_num⟩
  exact ⟨haccepts, hlong haccepts, (hreal (hlong haccepts)).1, by decide, hacceptsLess,
    (hlessReal hacceptsLess).2⟩

end OptionKind

end SchemaForge
