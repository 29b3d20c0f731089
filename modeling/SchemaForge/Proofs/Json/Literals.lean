import SchemaForge.Json.Value
import SchemaForge.Json.Token
set_option autoImplicit false

/-!
# Literals are read as they were written

A string literal is read character by character, and each character is read from its escape. The
digits of a number are read as long as there are any, so what follows a number must not be taken for
a part of it.

## Main definitions

* `SchemaForge.Json.Stops` — a text that does not go on with certain characters.
* `SchemaForge.Json.EndsNumber` — what may follow a number.
* `SchemaForge.Json.Token.IsPlain` — a token that is no number but an integer.

## Main results

* `SchemaForge.Json.scanUnits_escape` — the text of a string literal.
* `SchemaForge.Json.scanNumber_integer` — the digits of an integer.
* `SchemaForge.Json.scanToken_chars` — a token is read as it was written.
-/

namespace SchemaForge.Json

/-! ### String literals -/

/-- The value of the two hexadecimal digits of a control character. -/
theorem hexNumber?_control {n : Nat} (h : n < 0x20) :
    hexNumber? '0' '0' (Nat.digitChar (n / 16)) (Nat.digitChar (n % 16)) = some n := by
  have hall : ∀ n < 0x20,
      hexNumber? '0' '0' (Nat.digitChar (n / 16)) (Nat.digitChar (n % 16)) = some n := by decide
  exact hall n h

/-- The ways in which a character is written: by a letter behind a backslash, by its number, or as
it is. -/
theorem escapeChar_cases (c : Char) :
    (∃ e, escapeChar c = ['\\', e] ∧ unescape? e = some c) ∨
      (escapeChar c =
          ['\\', 'u', '0', '0', Nat.digitChar (c.toNat / 16), Nat.digitChar (c.toNat % 16)] ∧
        c.toNat < 0x20) ∨
      (escapeChar c = [c] ∧ c ≠ '"' ∧ c ≠ '\\' ∧ 0x20 ≤ c.toNat) := by
  unfold escapeChar
  split
  · rename_i h; subst h; exact .inl ⟨_, rfl, rfl⟩
  split
  · rename_i h; subst h; exact .inl ⟨_, rfl, rfl⟩
  split
  · rename_i h; subst h; exact .inl ⟨_, rfl, rfl⟩
  split
  · rename_i h; subst h; exact .inl ⟨_, rfl, rfl⟩
  split
  · rename_i h; subst h; exact .inl ⟨_, rfl, rfl⟩
  split
  · rename_i h; subst h; exact .inl ⟨_, rfl, rfl⟩
  split
  · rename_i h; subst h; exact .inl ⟨_, rfl, rfl⟩
  split
  · rename_i hcontrol
    exact .inr (.inl ⟨rfl, hcontrol⟩)
  · rename_i hquote hbackslash _ _ _ _ _ hcontrol
    exact .inr (.inr ⟨rfl, hquote, hbackslash, Nat.not_lt.1 hcontrol⟩)

/-- A character is read from its escape. -/
theorem scanUnits_escapeChar {c : Char} {cs after : List Char} {units : List TextUnit}
    (h : scanUnits cs = some (units, after)) :
    scanUnits (escapeChar c ++ cs) = some (.char c :: units, after) := by
  rcases escapeChar_cases c with ⟨e, hescape, he⟩ | ⟨hescape, hcontrol⟩ |
    ⟨hescape, hquote, hbackslash, hprinted⟩
  · have hu : e ≠ 'u' := by
      rintro rfl
      cases he
    rw [hescape]
    change scanUnits ('\\' :: e :: cs) = _
    rw [scanUnits.eq_4 e cs fun _ _ _ _ _ heq _ => hu heq, he, h]
    rfl
  · have hunit : TextUnit.ofNumber c.toNat = .char c := by
      rw [TextUnit.ofNumber, if_neg, Char.ofNat_toNat]
      simp only [Bool.and_eq_true, decide_eq_true_eq]
      omega
    rw [hescape]
    change scanUnits ('\\' :: 'u' :: '0' :: '0' :: Nat.digitChar (c.toNat / 16) ::
      Nat.digitChar (c.toNat % 16) :: cs) = _
    rw [scanUnits, hexNumber?_control hcontrol, h, ← hunit]
    rfl
  · have hplain : ¬ (decide (c.toNat < 0x20) || c == '\\') = true := by
      simp only [Bool.or_eq_true, decide_eq_true_eq, beq_iff_eq, not_or]
      exact ⟨Nat.not_lt.2 hprinted, hbackslash⟩
    rw [hescape, List.singleton_append, scanUnits.eq_5 c cs hquote
      (fun _ _ _ _ _ heq _ => hbackslash heq) fun _ _ heq _ => hbackslash heq, if_neg hplain, h]
    rfl

/-- The characters of a string literal are read up to the closing quote. -/
theorem scanUnits_escape (cs rest : List Char) :
    scanUnits (cs.flatMap escapeChar ++ '"' :: rest) = some (cs.map .char, rest) := by
  induction cs with
  | nil => rw [List.flatMap_nil, List.nil_append, scanUnits, List.map_nil]
  | cons c cs ih =>
    rw [List.flatMap_cons, List.append_assoc, List.map_cons]
    exact scanUnits_escapeChar ih

/-- Characters spell themselves. -/
theorem joinUnits_map_char (cs : List Char) : joinUnits (cs.map .char) = some cs := by
  induction cs with
  | nil => rfl
  | cons c cs ih =>
    rw [List.map_cons, joinUnits, ih]
    rfl

/-- A string literal is read as it was written, also the one without text. -/
theorem scanToken_stringChars (text : Option String) (rest : List Char) :
    scanToken (stringChars text ++ rest) = some (.string text, rest) := by
  cases text with
  | none =>
    change scanToken ('"' :: '\\' :: 'u' :: 'd' :: '8' :: '0' :: '0' :: '"' :: rest) = _
    rw [scanToken, scanUnits, scanUnits]
    rfl
  | some s =>
    change scanToken ('"' :: ((s.toList.flatMap escapeChar ++ ['"']) ++ rest)) = _
    rw [scanToken, List.append_assoc, List.singleton_append, scanUnits_escape]
    change some (Token.string ((joinUnits (s.toList.map .char)).map String.ofList), rest) = _
    rw [joinUnits_map_char, Option.map_some, String.ofList_toList]

/-! ### Numbers -/

/-- Whether `c` may stand behind a digit in a number. -/
def continuesNumber (c : Char) : Bool := isDigit c || c == '.' || c == 'e' || c == 'E'

/-- The text does not go on with a character for which `p` holds. -/
def Stops (p : Char → Bool) (cs : List Char) : Prop := ∀ c ∈ cs.head?, p c = false

theorem stops_nil (p : Char → Bool) : Stops p [] := nofun

theorem Stops.mono {p q : Char → Bool} {cs : List Char} (h : Stops q cs)
    (hpq : ∀ c, q c = false → p c = false) : Stops p cs := fun c hc => hpq c (h c hc)

/-- What may follow a number: nothing, or a character that does not continue it. -/
def EndsNumber (cs : List Char) : Prop := Stops continuesNumber cs

theorem EndsNumber.stops_isDigit {cs : List Char} (h : EndsNumber cs) : Stops isDigit cs := by
  refine h.mono fun c hc => ?_
  simp only [continuesNumber, Bool.or_eq_false_iff] at hc
  exact hc.1.1.1

theorem EndsNumber.stops_dot {cs : List Char} (h : EndsNumber cs) : Stops (· == '.') cs := by
  refine h.mono fun c hc => ?_
  simp only [continuesNumber, Bool.or_eq_false_iff] at hc
  exact hc.1.1.2

/-- The digits of a natural number are decimal digits. -/
theorem isDigit_of_mem_toDigits {n : Nat} {c : Char} (h : c ∈ Nat.toDigits 10 n) :
    isDigit c = true :=
  Nat.isDigit_of_mem_toDigits (by decide) (by decide) h

/-- The first digit of a number is a zero for zero only. -/
theorem toDigits_eq_cons (n : Nat) :
    ∃ c cs, Nat.toDigits 10 n = c :: cs ∧ isDigit c = true ∧ (0 < n → c ≠ '0') := by
  induction n using Nat.strongRecOn with
  | ind n ih =>
    rcases Nat.lt_or_ge n 10 with hlt | hge
    · have hdigit : ∀ n < 10, isDigit (Nat.digitChar n) = true ∧
          (0 < n → Nat.digitChar n ≠ '0') := by decide
      exact ⟨Nat.digitChar n, [], Nat.toDigits_of_lt_base hlt, hdigit n hlt⟩
    · obtain ⟨c, cs, hcons, hc, hzero⟩ := ih (n / 10) (by omega)
      refine ⟨c, cs ++ [Nat.digitChar (n % 10)], ?_, hc, fun _ => hzero (by omega)⟩
      rw [Nat.toDigits_of_base_le (by decide) hge, hcons, List.cons_append]

/-- A natural number is written in its digits. -/
theorem toList_toString_ofNat (n : Nat) :
    (toString (Int.ofNat n)).toList = Nat.toDigits 10 n := by
  rw [Int.toString_eq_repr, Int.repr, Nat.repr_eq_ofList_toDigits, String.toList_ofList]

/-- A negative number is written in its digits after a minus sign. -/
theorem toList_toString_negSucc (n : Nat) :
    (toString (Int.negSucc n)).toList = '-' :: Nat.toDigits 10 (n + 1) := by
  rw [Int.toString_eq_repr, Int.repr, Nat.repr_eq_ofList_toDigits, String.toList_append]
  exact congrArg ('-' :: ·) String.toList_ofList

/-- Digits are read up to what is no digit. -/
theorem scanDigits_append {digits rest : List Char} (hne : digits ≠ [])
    (hdigits : ∀ c ∈ digits, isDigit c = true) (hrest : Stops isDigit rest) :
    scanDigits (digits ++ rest) = some (digits, rest) := by
  have hnone : rest.takeWhile isDigit = [] ∧ rest.dropWhile isDigit = rest := by
    cases rest with
    | nil => exact ⟨rfl, rfl⟩
    | cons c rest =>
      have hc : isDigit c = false := hrest c rfl
      exact ⟨List.takeWhile_cons_of_neg (by simp [hc]), List.dropWhile_cons_of_neg (by simp [hc])⟩
  rw [scanDigits, List.takeWhile_append_of_pos hdigits, List.dropWhile_append_of_pos hdigits,
    hnone.1, hnone.2, List.append_nil]
  exact if_neg (by simpa using hne)

/-- Without a dot there is no fraction. -/
theorem scanFraction_of_stops {rest : List Char} (h : Stops (· == '.') rest) :
    scanFraction rest = some ([], rest) := by
  refine scanFraction.eq_2 _ fun tail heq => ?_
  rw [heq] at h
  cases h '.' rfl

/-- What ends a number is no exponent. -/
theorem scanExponent_of_endsNumber {rest : List Char} (h : EndsNumber rest) :
    scanExponent rest = some ([], rest) := by
  cases rest with
  | nil => rfl
  | cons c rest =>
    have hc := h c rfl
    simp only [continuesNumber, Bool.or_eq_false_iff] at hc
    rw [scanExponent, hc.1.2, hc.2]
    rfl

/-- The digits of a natural number are read as one number. -/
theorem scanUnsigned_toDigits (n : Nat) {rest : List Char} (hrest : EndsNumber rest) :
    scanUnsigned (Nat.toDigits 10 n ++ rest) = some (Nat.toDigits 10 n, rest) := by
  have hinteger : scanInteger (Nat.toDigits 10 n ++ rest) = some (Nat.toDigits 10 n, rest) := by
    rcases Nat.eq_zero_or_pos n with rfl | hpos
    · rfl
    · obtain ⟨c, cs, hcons, -, hzero⟩ := toDigits_eq_cons n
      rw [scanInteger.eq_2]
      · exact scanDigits_append Nat.toDigits_ne_nil (fun _ => isDigit_of_mem_toDigits)
          hrest.stops_isDigit
      · intro tail heq
        rw [hcons] at heq
        exact hzero hpos (List.cons.inj heq).1
  rw [scanUnsigned, hinteger]
  change (scanFraction rest).bind _ = _
  rw [scanFraction_of_stops hrest.stops_dot]
  change (scanExponent rest).bind _ = _
  rw [scanExponent_of_endsNumber hrest]
  change some (Nat.toDigits 10 n ++ [] ++ [], rest) = _
  rw [List.append_nil, List.append_nil]

/-- The digits of an integer, after a minus sign if it is negative, are read as one number. -/
theorem scanNumber_integer (n : Int) {rest : List Char} (hrest : EndsNumber rest) :
    scanNumber ((toString n).toList ++ rest) = some ((toString n).toList, rest) := by
  cases n with
  | ofNat n =>
    obtain ⟨c, cs, hcons, hc, -⟩ := toDigits_eq_cons n
    rw [toList_toString_ofNat, scanNumber.eq_2]
    · exact scanUnsigned_toDigits n hrest
    · intro tail heq
      rw [hcons] at heq
      rw [(List.cons.inj heq).1] at hc
      cases hc
  | negSucc n =>
    rw [toList_toString_negSucc, List.cons_append, scanNumber, scanUnsigned_toDigits _ hrest]
    rfl

/-- A number begins with a digit or with a minus sign. -/
theorem toString_eq_cons (n : Int) :
    ∃ c cs, (toString n).toList = c :: cs ∧ (isDigit c || c == '-') = true := by
  cases n with
  | ofNat n =>
    obtain ⟨c, cs, hcons, hc, -⟩ := toDigits_eq_cons n
    exact ⟨c, cs, (toList_toString_ofNat n).trans hcons, by rw [hc, Bool.true_or]⟩
  | negSucc n => exact ⟨'-', Nat.toDigits 10 (n + 1), toList_toString_negSucc n, rfl⟩

/-- What begins with a digit or with a minus sign is no token but a number. -/
theorem scanToken_eq_scanNumber {c : Char} (hc : (isDigit c || c == '-') = true) (cs : List Char) :
    scanToken (c :: cs) =
      (scanNumber (c :: cs)).map fun (literal, after) =>
        (.number (String.ofList literal), after) := by
  have hother : ∀ {other : Char} {tail : List Char}, (isDigit other || other == '-') = false →
      c :: cs = other :: tail → False := by
    intro other tail hother heq
    rw [← (List.cons.inj heq).1, hc] at hother
    cases hother
  rw [scanToken.eq_12 (c :: cs) nofun (fun _ => hother rfl) (fun _ => hother rfl)
    (fun _ => hother rfl) (fun _ => hother rfl) (fun _ => hother rfl) (fun _ => hother rfl)
    (fun _ => hother rfl) (fun _ => hother rfl) (fun _ => hother rfl) (fun _ => hother rfl)]
  cases scanNumber (c :: cs) <;> rfl

/-- An integer is read as it was written. -/
theorem scanToken_integer (n : Int) {rest : List Char} (hrest : EndsNumber rest) :
    scanToken ((toString n).toList ++ rest) = some (.number (toString n), rest) := by
  obtain ⟨c, cs, hcons, hc⟩ := toString_eq_cons n
  have hscan := scanNumber_integer n hrest
  rw [hcons, List.cons_append] at hscan ⊢
  rw [scanToken_eq_scanNumber hc, hscan, ← hcons]
  exact congrArg (fun literal => some (Token.number literal, rest)) String.ofList_toList

/-! ### Tokens -/

/-- A token as the documents of a program have it: its numbers are integers. -/
def Token.IsPlain : Token → Prop
  | .number literal => ∃ n : Int, literal = toString n
  | _ => True

/-- Whether the token is a number. -/
def Token.isNumber : Token → Bool
  | .number _ => true
  | _ => false

/-- A token is read as it was written. -/
theorem scanToken_chars {token : Token} (hplain : token.IsPlain) {rest : List Char}
    (hrest : token.isNumber = true → EndsNumber rest) :
    scanToken (token.chars ++ rest) = some (token, rest) := by
  cases token with
  | number literal =>
    obtain ⟨n, rfl⟩ := hplain
    exact scanToken_integer n (hrest rfl)
  | string text => exact scanToken_stringChars text rest
  | bool value => cases value <;> rfl
  | _ => rfl

/-- The first character of a token is no white space. -/
theorem chars_eq_cons {token : Token} (hplain : token.IsPlain) :
    ∃ c cs, token.chars = c :: cs ∧ isSpace c = false := by
  cases token with
  | number literal =>
    obtain ⟨n, rfl⟩ := hplain
    obtain ⟨c, cs, hcons, hc⟩ := toString_eq_cons n
    refine ⟨c, cs, hcons, Bool.eq_false_iff.2 fun hspace => ?_⟩
    simp only [isSpace, Bool.or_eq_true, beq_iff_eq] at hspace
    rcases hspace with ((rfl | rfl) | rfl) | rfl <;> cases hc
  | string text => cases text <;> exact ⟨_, _, rfl, rfl⟩
  | bool value => cases value <;> exact ⟨_, _, rfl, rfl⟩
  | _ => exact ⟨_, _, rfl, rfl⟩

end SchemaForge.Json
