import Mathlib.Data.List.Chain
import Mathlib.Data.List.TakeWhile
import SchemaForge.Proofs.Json.Literals
set_option autoImplicit false

/-!
# The characters of tokens

To read a token takes characters from the front of a text, its lexeme. What follows the lexeme does
not matter, but for a number: behind it there must not be anything that could be taken for a part of
it. So the tokens of a text are read from their lexemes, whatever white space there is between them.

## Main definitions

* `SchemaForge.Json.MayFollow` — two tokens that may stand side by side.
* `SchemaForge.Json.Spelled` — a text spells tokens.

## Main results

* `SchemaForge.Json.exists_lexeme_of_scanUnits` — the lexeme of a string literal.
* `SchemaForge.Json.scanNumber_append` — the lexeme of a number, which is its literal.
* `SchemaForge.Json.exists_lexeme_of_scanToken` — the lexeme of a token.
* `SchemaForge.Json.tokenize_spelled`, `SchemaForge.Json.spelled_of_tokensWithin` — the tokens that
  are read are those that the text spells.
-/

namespace SchemaForge.Json

/-! ### String literals -/

/-- The units of a string literal are read up to its closing quote, whatever follows it. -/
theorem exists_lexeme_of_scanUnits {cs after : List Char} {units : List TextUnit}
    (h : scanUnits cs = some (units, after)) :
    ∃ lexeme, cs = lexeme ++ after ∧
      ∀ other, scanUnits (lexeme ++ other) = some (units, other) := by
  induction cs using scanUnits.induct generalizing units with
  | case1 => cases h
  | case2 rest =>
    -- the closing quote
    cases h
    exact ⟨['"'], rfl, fun _ => rfl⟩
  | case3 a b c d rest ih =>
    -- a character by its number
    rw [scanUnits] at h
    obtain ⟨n, hn, h⟩ := Option.bind_eq_some_iff.1 h
    obtain ⟨⟨others, last⟩, hrest, h⟩ := Option.bind_eq_some_iff.1 h
    cases h
    obtain ⟨body, rfl, hbody⟩ := ih hrest
    refine ⟨'\\' :: 'u' :: a :: b :: c :: d :: body, rfl, fun other => ?_⟩
    simp only [List.cons_append]
    rw [scanUnits, hn, hbody]
    rfl
  | case4 e rest hunit ih =>
    -- a character by a letter, which is not the one that comes before a number
    rw [scanUnits.eq_4 _ _ hunit] at h
    obtain ⟨c, hc, h⟩ := Option.bind_eq_some_iff.1 h
    obtain ⟨⟨others, last⟩, hrest, h⟩ := Option.bind_eq_some_iff.1 h
    cases h
    obtain ⟨body, rfl, hbody⟩ := ih hrest
    have hu : e ≠ 'u' := by
      rintro rfl
      cases hc
    refine ⟨'\\' :: e :: body, rfl, fun other => ?_⟩
    simp only [List.cons_append]
    rw [scanUnits.eq_4 _ _ fun _ _ _ _ _ heq _ => hu heq, hc, hbody]
    rfl
  | case5 c rest hquote hunit hescape hplain =>
    rw [scanUnits.eq_5 _ _ hquote hunit hescape, if_pos hplain] at h
    cases h
  | case6 c rest hquote hunit hescape hplain ih =>
    -- a character as it is
    rw [scanUnits.eq_5 _ _ hquote hunit hescape, if_neg hplain] at h
    obtain ⟨⟨others, last⟩, hrest, h⟩ := Option.bind_eq_some_iff.1 h
    cases h
    obtain ⟨body, rfl, hbody⟩ := ih hrest
    have hbackslash : c ≠ '\\' := by
      rintro rfl
      exact hplain rfl
    refine ⟨c :: body, rfl, fun other => ?_⟩
    rw [List.cons_append, scanUnits.eq_5 _ _ hquote (fun _ _ _ _ _ heq _ => hbackslash heq)
      fun _ _ heq _ => hbackslash heq, if_neg hplain, hbody]
    rfl

/-! ### Numbers -/

theorem Stops.append {p : Char → Bool} {cs other : List Char} (h : Stops p cs)
    (hother : Stops p other) : Stops p (cs ++ other) := by
  cases cs with
  | nil => exact hother
  | cons c cs => exact h

variable {cs after digits : List Char}

/-- Digits that are read are the first characters. -/
theorem of_scanDigits (h : scanDigits cs = some (digits, after)) :
    cs = digits ++ after ∧ digits ≠ [] ∧ ∀ c ∈ digits, isDigit c = true := by
  rw [scanDigits] at h
  split at h
  · cases h
  · rename_i hne
    cases h
    refine ⟨List.takeWhile_append_dropWhile.symm, by simpa using hne, fun c hc => ?_⟩
    exact List.all_eq_true.1 List.all_takeWhile c hc

/-- The integer part of a number, whatever follows but digits. -/
theorem scanInteger_append {whole : List Char} (h : scanInteger cs = some (whole, after)) :
    cs = whole ++ after ∧ whole ≠ [] ∧ (∀ c ∈ whole, isDigit c = true) ∧
      ∀ other, Stops isDigit other → scanInteger (whole ++ other) = some (whole, other) := by
  rw [scanInteger.eq_def] at h
  split at h
  · cases h
    exact ⟨rfl, List.cons_ne_nil _ _, List.forall_mem_singleton.2 rfl, fun _ _ => rfl⟩
  · rename_i hzero
    obtain ⟨rfl, hne, hdigits⟩ := of_scanDigits h
    refine ⟨rfl, hne, hdigits, fun other hother => ?_⟩
    obtain ⟨c, ds, rfl⟩ := List.exists_cons_of_ne_nil hne
    rw [scanInteger.eq_2]
    · exact scanDigits_append hne hdigits hother
    · intro tail heq
      rw [(List.cons.inj heq).1] at hzero
      exact hzero _ rfl

/-- The fraction of a number, whatever follows but digits and a dot. -/
theorem scanFraction_append {fraction : List Char} (h : scanFraction cs = some (fraction, after)) :
    cs = fraction ++ after ∧ Stops isDigit fraction ∧
      ∀ other, Stops isDigit other → Stops (· == '.') other →
        scanFraction (fraction ++ other) = some (fraction, other) := by
  rw [scanFraction.eq_def] at h
  split at h
  · obtain ⟨⟨digits, last⟩, hdigits, h⟩ := Option.bind_eq_some_iff.1 h
    cases h
    obtain ⟨rfl, hne, hall⟩ := of_scanDigits hdigits
    refine ⟨rfl, fun c hc => ?_, fun other hother _ => ?_⟩
    · obtain rfl := Option.some.inj hc
      rfl
    · rw [List.cons_append, scanFraction, scanDigits_append hne hall hother]
      rfl
  · cases h
    exact ⟨rfl, stops_nil _, fun other _ hdot => scanFraction_of_stops hdot⟩

/-- A sign before digits. -/
theorem scanSign_append {sign : List Char} (h : scanSign cs = (sign, after)) :
    cs = sign ++ after ∧ ∀ {digits : List Char}, digits ≠ [] →
      (∀ c ∈ digits, isDigit c = true) → ∀ other,
        scanSign (sign ++ (digits ++ other)) = (sign, digits ++ other) := by
  rw [scanSign.eq_def] at h
  split at h
  · cases h
    exact ⟨rfl, fun _ _ _ => rfl⟩
  · cases h
    exact ⟨rfl, fun _ _ _ => rfl⟩
  · cases h
    refine ⟨rfl, fun {digits} hne hdigits other => ?_⟩
    obtain ⟨c, ds, rfl⟩ := List.exists_cons_of_ne_nil hne
    have hc := hdigits c List.mem_cons_self
    refine scanSign.eq_3 _ (fun tail heq => ?_) fun tail heq => ?_
    · rw [(List.cons.inj heq).1] at hc
      cases hc
    · rw [(List.cons.inj heq).1] at hc
      cases hc

/-- The exponent of a number, whatever follows but what continues a number. -/
theorem scanExponent_append {exponent : List Char} (h : scanExponent cs = some (exponent, after)) :
    cs = exponent ++ after ∧ Stops isDigit exponent ∧ Stops (· == '.') exponent ∧
      ∀ other, EndsNumber other → scanExponent (exponent ++ other) = some (exponent, other) := by
  rw [scanExponent.eq_def] at h
  split at h
  · rename_i e rest
    split at h
    · rename_i he
      rcases hsplit : scanSign rest with ⟨sign, behind⟩
      rw [hsplit] at h
      obtain ⟨⟨digits, last⟩, hdigits, h⟩ := Option.bind_eq_some_iff.1 h
      cases h
      obtain ⟨rfl, hsign⟩ := scanSign_append hsplit
      obtain ⟨rfl, hne, hall⟩ := of_scanDigits hdigits
      have hletter : e = 'e' ∨ e = 'E' := by simpa using he
      refine ⟨?_, fun c hc => ?_, fun c hc => ?_, fun other hother => ?_⟩
      · simp only [List.cons_append, List.append_assoc]
      · obtain rfl := Option.some.inj hc
        rcases hletter with rfl | rfl <;> rfl
      · obtain rfl := Option.some.inj hc
        rcases hletter with rfl | rfl <;> rfl
      · simp only [List.cons_append, List.append_assoc]
        rw [scanExponent, if_pos he, hsign hne hall]
        dsimp only
        rw [scanDigits_append hne hall hother.stops_isDigit]
        rfl
    · cases h
      exact ⟨rfl, stops_nil _, stops_nil _, fun other => scanExponent_of_endsNumber⟩
  · cases h
    exact ⟨rfl, stops_nil _, stops_nil _, fun other => scanExponent_of_endsNumber⟩

/-- A number without its sign: its literal comes first, and is read whatever ends the number. -/
theorem scanUnsigned_append {literal : List Char} (h : scanUnsigned cs = some (literal, after)) :
    cs = literal ++ after ∧ (∃ c tail, literal = c :: tail ∧ isDigit c = true) ∧
      ∀ other, EndsNumber other → scanUnsigned (literal ++ other) = some (literal, other) := by
  obtain ⟨⟨whole, behindWhole⟩, hwhole, h⟩ := Option.bind_eq_some_iff.1 h
  obtain ⟨⟨fraction, behindFraction⟩, hfraction, h⟩ := Option.bind_eq_some_iff.1 h
  obtain ⟨⟨exponent, last⟩, hexponent, h⟩ := Option.bind_eq_some_iff.1 h
  cases h
  obtain ⟨rfl, hne, hdigits, hreadWhole⟩ := scanInteger_append hwhole
  obtain ⟨rfl, hnoDigit, hreadFraction⟩ := scanFraction_append hfraction
  obtain ⟨rfl, hnoDigit', hnoDot, hreadExponent⟩ := scanExponent_append hexponent
  refine ⟨by simp only [List.append_assoc], ?_, fun other hother => ?_⟩
  · obtain ⟨c, tail, rfl⟩ := List.exists_cons_of_ne_nil hne
    exact ⟨c, _, rfl, hdigits c List.mem_cons_self⟩
  · have hbehind : Stops isDigit (exponent ++ other) := hnoDigit'.append hother.stops_isDigit
    simp only [List.append_assoc]
    rw [scanUnsigned, hreadWhole _ (hnoDigit.append hbehind)]
    change (scanFraction _).bind _ = _
    rw [hreadFraction _ hbehind (hnoDot.append hother.stops_dot)]
    change (scanExponent _).bind _ = _
    rw [hreadExponent other hother]
    change some (whole ++ fraction ++ exponent, other) = _
    rw [List.append_assoc]

/-- **Numbers.** The literal of a number comes first, it begins with a digit or a minus sign, and it
is read whatever ends the number.

**Proof sketch.** Each part of a number is read up to what does not continue it. A fraction does not
begin with a digit, and an exponent neither with a digit nor with a dot, so no part runs into the
next one. -/
theorem scanNumber_append {literal : List Char} (h : scanNumber cs = some (literal, after)) :
    cs = literal ++ after ∧
      (∃ c tail, literal = c :: tail ∧ (isDigit c || c == '-') = true) ∧
      ∀ other, EndsNumber other → scanNumber (literal ++ other) = some (literal, other) := by
  rw [scanNumber.eq_def] at h
  split at h
  · obtain ⟨⟨unsigned, last⟩, hunsigned, h⟩ := Option.bind_eq_some_iff.1 h
    cases h
    obtain ⟨rfl, -, happend⟩ := scanUnsigned_append hunsigned
    refine ⟨rfl, ⟨'-', unsigned, rfl, rfl⟩, fun other hother => ?_⟩
    rw [List.cons_append, scanNumber, happend other hother]
    rfl
  · obtain ⟨rfl, ⟨c, tail, rfl, hc⟩, happend⟩ := scanUnsigned_append h
    refine ⟨rfl, ⟨c, tail, rfl, by rw [hc, Bool.true_or]⟩, fun other hother => ?_⟩
    rw [scanNumber.eq_2]
    · exact happend other hother
    · intro rest heq
      rw [(List.cons.inj heq).1] at hc
      cases hc

/-! ### Tokens -/

/-- **Tokens.** A token is read from its lexeme, which does not begin with white space, and it is
read again from there whatever follows, unless it is a number that would go on.

**Proof sketch.** Cases on the first characters. What begins a number begins no other token. -/
theorem exists_lexeme_of_scanToken {token : Token} (h : scanToken cs = some (token, after)) :
    ∃ lexeme, cs = lexeme ++ after ∧ (∃ c tail, lexeme = c :: tail ∧ isSpace c = false) ∧
      ∀ other, (token.isNumber = true → EndsNumber other) →
        scanToken (lexeme ++ other) = some (token, other) := by
  -- a token that can be written in one way only
  have hchars {token : Token} (hplain : token.IsPlain) (hcs : cs = token.chars ++ after) :
      ∃ lexeme, cs = lexeme ++ after ∧ (∃ c tail, lexeme = c :: tail ∧ isSpace c = false) ∧
        ∀ other, (token.isNumber = true → EndsNumber other) →
          scanToken (lexeme ++ other) = some (token, other) :=
    ⟨token.chars, hcs, chars_eq_cons hplain, fun _ => scanToken_chars hplain⟩
  rw [scanToken.eq_def] at h
  split at h
  case h_1 => cases h
  case h_8 rest =>
    obtain ⟨⟨units, last⟩, hunits, h⟩ := Option.bind_eq_some_iff.1 h
    cases h
    obtain ⟨body, rfl, hbody⟩ := exists_lexeme_of_scanUnits hunits
    refine ⟨'"' :: body, rfl, ⟨'"', body, rfl, rfl⟩, fun other _ => ?_⟩
    rw [List.cons_append, scanToken, hbody]
    rfl
  case h_12 =>
    obtain ⟨⟨literal, last⟩, hnumber, h⟩ := Option.bind_eq_some_iff.1 h
    cases h
    obtain ⟨rfl, ⟨c, tail, rfl, hc⟩, happend⟩ := scanNumber_append hnumber
    refine ⟨c :: tail, rfl, ⟨c, tail, rfl, Bool.eq_false_iff.2 fun hspace => ?_⟩,
      fun other hother => ?_⟩
    · simp only [isSpace, Bool.or_eq_true, beq_iff_eq] at hspace
      rcases hspace with ((rfl | rfl) | rfl) | rfl <;> cases hc
    · rw [List.cons_append, scanToken_eq_scanNumber hc, ← List.cons_append,
        happend other (hother rfl)]
      rfl
  all_goals
    cases h
    exact hchars trivial rfl

/-! ### Tokens side by side -/

/-- Whether the token may stand directly behind a number. -/
def Token.closesNumber : Token → Bool
  | .comma | .closeArray | .closeObject => true
  | _ => false

/-- Two tokens may stand one behind the other. -/
def MayFollow (token next : Token) : Prop := token.isNumber = true → next.closesNumber = true

theorem mayFollow_of_closes {next : Token} (h : next.closesNumber = true) (token : Token) :
    MayFollow token next := fun _ => h

/-- What is put behind a token other than a number does not matter. -/
theorem isChain_cons_of_not_number {token : Token} {tokens : List Token}
    (htoken : token.isNumber = false) (h : tokens.IsChain MayFollow) :
    (token :: tokens).IsChain MayFollow :=
  List.isChain_cons.2 ⟨fun _ _ hnumber => absurd hnumber (Bool.eq_false_iff.1 htoken), h⟩

/-- Tokens may be closed. -/
theorem isChain_append_cons {tokens more : List Token} {next : Token}
    (hnext : next.closesNumber = true) (h : tokens.IsChain MayFollow)
    (hmore : (next :: more).IsChain MayFollow) :
    (tokens ++ next :: more).IsChain MayFollow :=
  List.isChain_append.2 ⟨h, hmore, fun _ _ other hother => by
    obtain rfl := Option.some.inj hother
    exact mayFollow_of_closes hnext _⟩

/-! ### Texts of tokens -/

/-- The text spells the tokens: it is a lexeme of each of them, one after the other, with some white
space before each and at the end. -/
inductive Spelled : List Token → List Char → Prop where
  | nil {space : List Char} (hspace : ∀ c ∈ space, isSpace c = true) : Spelled [] space
  | cons {token : Token} {tokens : List Token} {space lexeme cs : List Char}
      (hspace : ∀ c ∈ space, isSpace c = true) (hlexeme : scanToken lexeme = some (token, []))
      (h : Spelled tokens cs) : Spelled (token :: tokens) (space ++ (lexeme ++ cs))

/-- White space does not continue a number. -/
theorem endsNumber_of_space {space : List Char} (hspace : ∀ c ∈ space, isSpace c = true)
    {cs : List Char} (h : space = [] → EndsNumber cs) : EndsNumber (space ++ cs) := by
  cases space with
  | nil => exact h rfl
  | cons s space =>
    intro c hc
    obtain rfl := Option.some.inj hc
    have hs := hspace s List.mem_cons_self
    simp only [isSpace, Bool.or_eq_true, beq_iff_eq] at hs
    rcases hs with ((rfl | rfl) | rfl) | rfl <;> rfl

/-- Nor does a token that may stand directly behind it. -/
theorem endsNumber_of_scanToken {token : Token} (h : scanToken cs = some (token, after))
    (hcloses : token.closesNumber = true) : EndsNumber cs := by
  rw [scanToken.eq_def] at h
  split at h
  case h_1 => cases h
  case h_8 rest =>
    obtain ⟨_, -, h⟩ := Option.bind_eq_some_iff.1 h
    cases h
    cases hcloses
  case h_12 =>
    obtain ⟨_, -, h⟩ := Option.bind_eq_some_iff.1 h
    cases h
    cases hcloses
  all_goals
    cases h
    first
    | exact absurd hcloses Bool.false_ne_true
    | exact fun c hc => Option.some.inj hc ▸ rfl

/-- A number ends where a text begins that spells tokens which may follow it. -/
theorem endsNumber_of_spelled {token : Token} {tokens : List Token} (h : Spelled tokens cs)
    (hchain : (token :: tokens).IsChain MayFollow) (hnumber : token.isNumber = true) :
    EndsNumber cs := by
  cases h with
  | nil hspace =>
    have hends := endsNumber_of_space hspace fun _ => stops_nil continuesNumber
    rwa [List.append_nil] at hends
  | @cons next tokens space lexeme cs hspace hlexeme h =>
    refine endsNumber_of_space hspace fun _ => ?_
    obtain ⟨_, hcs, -, hread⟩ := exists_lexeme_of_scanToken hlexeme
    have hcloses := (List.isChain_cons_cons.1 hchain).1 hnumber
    rw [List.append_nil] at hcs
    subst hcs
    refine endsNumber_of_scanToken (hread cs fun hnext => ?_) hcloses
    cases next with
    | number => exact absurd hcloses Bool.false_ne_true
    | _ => exact absurd hnext Bool.false_ne_true

/-- **Texts are read.** The tokens that a text spells are read from it, if those side by side may
be.

**Proof sketch.** Induction on the tokens. The white space before a token is skipped, and the token
is read from its lexeme, since behind a number there is something that ends it. -/
theorem tokensWithin_spelled {tokens : List Token} (h : Spelled tokens cs)
    (hchain : tokens.IsChain MayFollow) {bound : Nat} (hbound : tokens.length < bound) :
    tokensWithin bound cs = some tokens := by
  induction h generalizing bound with
  | nil hspace =>
    obtain ⟨bound, rfl⟩ := Nat.exists_eq_succ_of_ne_zero (Nat.ne_of_gt hbound)
    rw [tokensWithin, List.dropWhile_eq_nil_iff.2 hspace]
  | @cons token tokens space lexeme cs hspace hlexeme h ih =>
    obtain ⟨bound, rfl⟩ := Nat.exists_eq_succ_of_ne_zero (Nat.ne_zero_of_lt hbound)
    obtain ⟨_, hsame, ⟨c, tail, rfl, hc⟩, hread⟩ := exists_lexeme_of_scanToken hlexeme
    rw [List.append_nil] at hsame
    subst hsame
    have hscan := hread cs (endsNumber_of_spelled h hchain)
    have hdrop : (space ++ (c :: tail ++ cs)).dropWhile isSpace = c :: (tail ++ cs) := by
      rw [List.dropWhile_append_of_pos hspace, List.cons_append,
        List.dropWhile_cons_of_neg (by simp [hc])]
    rw [tokensWithin, hdrop]
    change (scanToken (c :: (tail ++ cs))).bind _ = _
    rw [← List.cons_append, hscan]
    change (tokensWithin bound cs).bind _ = _
    rw [ih hchain.tail (Nat.lt_of_succ_lt_succ hbound)]
    rfl

/-- A text has at least as many characters as it spells tokens. -/
theorem length_le_of_spelled {tokens : List Token} (h : Spelled tokens cs) :
    tokens.length ≤ cs.length := by
  induction h with
  | nil => exact Nat.zero_le _
  | cons hspace hlexeme h ih =>
    obtain ⟨_, hsame, ⟨c, tail, rfl, -⟩, -⟩ := exists_lexeme_of_scanToken hlexeme
    rw [List.append_nil] at hsame
    subst hsame
    simp only [List.length_append, List.length_cons]
    omega

/-- All tokens of a text are read. -/
theorem tokenize_spelled {tokens : List Token} (h : Spelled tokens cs)
    (hchain : tokens.IsChain MayFollow) : tokenize cs = some tokens :=
  tokensWithin_spelled h hchain (Nat.lt_succ_of_le (length_le_of_spelled h))

/-- What tokens are read from spells them. -/
theorem spelled_of_tokensWithin {bound : Nat} {tokens : List Token}
    (h : tokensWithin bound cs = some tokens) : Spelled tokens cs := by
  induction bound generalizing cs tokens with
  | zero => cases h
  | succ bound ih =>
    have hsplit : cs = cs.takeWhile isSpace ++ cs.dropWhile isSpace :=
      List.takeWhile_append_dropWhile.symm
    have hspace : ∀ c ∈ cs.takeWhile isSpace, isSpace c = true :=
      fun c hc => List.all_eq_true.1 List.all_takeWhile c hc
    rw [tokensWithin] at h
    split at h
    · rename_i hnil
      cases h
      rw [hsplit, hnil, List.append_nil]
      exact .nil hspace
    · rename_i c rest hcons
      obtain ⟨⟨token, after⟩, htoken, h⟩ := Option.bind_eq_some_iff.1 h
      obtain ⟨others, hothers, h⟩ := Option.bind_eq_some_iff.1 h
      cases h
      obtain ⟨lexeme, hlexeme, -, hread⟩ := exists_lexeme_of_scanToken htoken
      have halone := hread [] fun _ => nofun
      rw [List.append_nil] at halone
      rw [hsplit, hcons, hlexeme]
      exact .cons hspace halone (ih hothers)

end SchemaForge.Json
