import SchemaForge.Json.Printer
import SchemaForge.Proofs.Json.Lexemes
set_option autoImplicit false

/-!
# Documents are read as they were written

A document is written as its tokens with white space before some of them: with none at all, or laid
out over lines. Behind a number there is always white space, a comma or a closing bracket, so all
tokens are read again. A document is then read from its tokens.

## Main definitions

* `SchemaForge.Json.Spread` — tokens with white space before them.
* `SchemaForge.Json.IsPlain` — a document whose numbers are integers.

## Main results

* `SchemaForge.Json.spread_compact`, `SchemaForge.Json.spread_layout` — how documents are written.
* `SchemaForge.Json.Spread.spelled` — such a text spells its tokens, which are therefore read again.
* `SchemaForge.Json.valueWithin_tokens` — a document is read from its tokens.
* `SchemaForge.Json.parse_compact`, `SchemaForge.Json.parse_pretty` — a document is read as it was
  written.
-/

namespace SchemaForge.Json

/-! ### White space -/

/-- The text is the tokens one after the other, each with some white space before it. -/
inductive Spread : List Token → List Char → Prop where
  | nil : Spread [] []
  | cons {token : Token} {tokens : List Token} {space cs : List Char}
      (hspace : ∀ c ∈ space, isSpace c = true) (h : Spread tokens cs) :
      Spread (token :: tokens) (space ++ (token.chars ++ cs))

namespace Spread

variable {tokens more : List Token} {cs ds : List Char}

/-- A token without white space before it. -/
theorem token (token : Token) (h : Spread tokens cs) :
    Spread (token :: tokens) (token.chars ++ cs) :=
  @cons token tokens [] cs nofun h

/-- A single token. -/
theorem single (token : Token) : Spread [token] token.chars := by
  have h := Spread.nil.token token
  rwa [List.append_nil] at h

/-- One text behind another one. -/
theorem append (h : Spread tokens cs) (hmore : Spread more ds) :
    Spread (tokens ++ more) (cs ++ ds) := by
  induction h with
  | nil => exact hmore
  | cons hspace _ ih =>
    rw [List.append_assoc, List.append_assoc]
    exact .cons hspace ih

/-- White space may be put before tokens, if there are any. -/
theorem spaced {space : List Char} (hspace : ∀ c ∈ space, isSpace c = true) (hne : tokens ≠ [])
    (h : Spread tokens cs) : Spread tokens (space ++ cs) := by
  cases h with
  | nil => exact absurd rfl hne
  | cons hmore h =>
    rw [← List.append_assoc]
    exact .cons (List.forall_mem_append.2 ⟨hspace, hmore⟩) h

end Spread

/-- A document has tokens. -/
theorem tokens_ne_nil (json : Json) : json.tokens ≠ [] := by
  cases json <;> simp [tokens]

/-- Without white space a document is its tokens one after the other. -/
theorem spread_compact (tokens : List Token) : Spread tokens (tokens.flatMap Token.chars) := by
  induction tokens with
  | nil => exact .nil
  | cons token tokens ih => exact ih.token token

/-- A new line may be put before tokens, if there are any. -/
theorem Spread.onNewLine (level : Nat) {tokens : List Token} {cs : List Char} (hne : tokens ≠ [])
    (h : Spread tokens cs) : Spread tokens (newLine level ++ cs) := by
  refine h.spaced (fun c hc => ?_) hne
  rcases List.mem_cons.1 hc with rfl | hc
  · rfl
  · rw [List.eq_of_mem_replicate hc]
    rfl

mutual

/-- Laid out over lines a document is its tokens with new lines and spaces between them. -/
theorem spread_layout (level : Nat) : ∀ json : Json, Spread json.tokens (json.layout level)
  | .null => .single .null
  | .bool value => .single (.bool value)
  | .number literal => .single (.number literal)
  | .string text => .single (.string text)
  | .array [] => (Spread.single .closeArray).token .openArray
  | .array (item :: items) => by
    have hclose := (Spread.single .closeArray).onNewLine level (List.cons_ne_nil _ _)
    have h := (spread_layoutItems (level + 1) (item :: items)).append hclose
    rw [tokens, layout, List.append_assoc]
    exact h.token .openArray
  | .object [] => (Spread.single .closeObject).token .openObject
  | .object (member :: members) => by
    have hclose := (Spread.single .closeObject).onNewLine level (List.cons_ne_nil _ _)
    have h := (spread_layoutMembers (level + 1) (member :: members)).append hclose
    rw [tokens, layout, List.append_assoc]
    exact h.token .openObject

theorem spread_layoutItems (level : Nat) :
    ∀ items : List Json, Spread (itemTokens items) (layoutItems level items)
  | [] => by
    rw [itemTokens, layoutItems]
    exact .nil
  | [item] => by
    rw [itemTokens, layoutItems]
    exact (spread_layout level item).onNewLine level (tokens_ne_nil item)
  | item :: next :: items => by
    have hitem := (spread_layout level item).onNewLine level (tokens_ne_nil item)
    rw [itemTokens, layoutItems]
    exact hitem.append ((spread_layoutItems level (next :: items)).token .comma)

theorem spread_layoutMembers (level : Nat) :
    ∀ members : List (Option String × Json),
      Spread (memberTokens members) (layoutMembers level members)
  | [] => by
    rw [memberTokens, layoutMembers]
    exact .nil
  | [(key, value)] => by
    have hmember := spread_member level key value
    rw [memberTokens, layoutMembers]
    exact hmember
  | (key, value) :: next :: members => by
    have hmember := spread_member level key value
    rw [memberTokens, layoutMembers]
    exact hmember.append ((spread_layoutMembers level (next :: members)).token .comma)

theorem spread_member (level : Nat) (key : Option String) (value : Json) :
    Spread (.string key :: .colon :: value.tokens)
      (newLine level ++ stringChars key ++ ':' :: ' ' :: value.layout level) := by
  have hspace : ∀ c ∈ [' '], isSpace c = true := List.forall_mem_singleton.2 rfl
  have hvalue : Spread value.tokens (' ' :: value.layout level) :=
    (spread_layout level value).spaced hspace (tokens_ne_nil value)
  rw [List.append_assoc]
  exact ((hvalue.token .colon).token (.string key)).onNewLine level (List.cons_ne_nil _ _)

end

/-! ### Numbers in documents -/

mutual

/-- Behind a number in a document there is a comma or a closing bracket, if there is anything. -/
theorem isChain_tokens : ∀ json : Json, json.tokens.IsChain MayFollow
  | .null => List.isChain_singleton _
  | .bool _ => List.isChain_singleton _
  | .number _ => List.isChain_singleton _
  | .string _ => List.isChain_singleton _
  | .array items => by
    rw [tokens]
    exact isChain_cons_of_not_number rfl
      (isChain_append_cons rfl (isChain_itemTokens items) (List.isChain_singleton _))
  | .object members => by
    rw [tokens]
    exact isChain_cons_of_not_number rfl
      (isChain_append_cons rfl (isChain_memberTokens members) (List.isChain_singleton _))

theorem isChain_itemTokens : ∀ items : List Json, (itemTokens items).IsChain MayFollow
  | [] => by
    rw [itemTokens]
    exact .nil
  | [item] => by
    rw [itemTokens]
    exact isChain_tokens item
  | item :: next :: items => by
    rw [itemTokens]
    exact isChain_append_cons rfl (isChain_tokens item)
      (isChain_cons_of_not_number rfl (isChain_itemTokens (next :: items)))

theorem isChain_memberTokens :
    ∀ members : List (Option String × Json), (memberTokens members).IsChain MayFollow
  | [] => by
    rw [memberTokens]
    exact .nil
  | [(_, value)] => by
    rw [memberTokens]
    exact isChain_cons_of_not_number rfl (isChain_cons_of_not_number rfl (isChain_tokens value))
  | (_, value) :: next :: members => by
    have hmore : (value.tokens ++ .comma :: memberTokens (next :: members)).IsChain MayFollow :=
      isChain_append_cons rfl (isChain_tokens value)
        (isChain_cons_of_not_number rfl (isChain_memberTokens (next :: members)))
    rw [memberTokens]
    exact isChain_cons_of_not_number rfl (isChain_cons_of_not_number rfl hmore)

end

/-! ### Tokens are read again -/

/-- Plain tokens with white space before them are spelled by their texts. -/
theorem Spread.spelled {tokens : List Token} {cs : List Char} (h : Spread tokens cs)
    (hplain : ∀ token ∈ tokens, token.IsPlain) : Spelled tokens cs := by
  induction h with
  | nil => exact .nil nofun
  | @cons token tokens space cs hspace _ ih =>
    rw [List.forall_mem_cons] at hplain
    have hlexeme := @scanToken_chars token hplain.1 [] fun _ => nofun
    rw [List.append_nil] at hlexeme
    exact .cons hspace hlexeme (ih hplain.2)

/-! ### Documents are read from their tokens -/

/-- The tokens of a document do not begin with a closing bracket. -/
theorem tokens_append_ne_closeArray (json : Json) (more rest : List Token) :
    json.tokens ++ more ≠ .closeArray :: rest := by
  cases json <;> simp [tokens]

/-- Nor do the tokens of items. -/
theorem itemTokens_append_ne_closeArray (item : Json) (items : List Json) (more rest : List Token) :
    itemTokens (item :: items) ++ more ≠ .closeArray :: rest := by
  cases items with
  | nil =>
    rw [itemTokens]
    exact tokens_append_ne_closeArray item more rest
  | cons next items =>
    rw [itemTokens, List.append_assoc]
    exact tokens_append_ne_closeArray item _ rest

/-- The tokens of members begin with a key. -/
theorem memberTokens_append_ne_closeObject (member : Option String × Json)
    (members : List (Option String × Json)) (more rest : List Token) :
    memberTokens (member :: members) ++ more ≠ .closeObject :: rest := by
  cases members <;> simp [memberTokens]

/-- One step of reading items: the last one. -/
theorem itemsWithin_last {bound : Nat} {tokens after : List Token} {item : Json}
    (h : valueWithin bound tokens = some (item, .closeArray :: after)) :
    itemsWithin (bound + 1) tokens = some ([item], after) := by
  rw [itemsWithin, h]
  rfl

/-- One step of reading items: one with others behind it. -/
theorem itemsWithin_next {bound : Nat} {tokens rest after : List Token} {item : Json}
    {items : List Json} (h : valueWithin bound tokens = some (item, .comma :: rest))
    (hrest : itemsWithin bound rest = some (items, after)) :
    itemsWithin (bound + 1) tokens = some (item :: items, after) := by
  rw [itemsWithin, h]
  change (itemsWithin bound rest).bind _ = _
  rw [hrest]
  rfl

/-- One step of reading members: the last one. -/
theorem membersWithin_last {bound : Nat} {key : Option String} {tokens after : List Token}
    {value : Json} (h : valueWithin bound tokens = some (value, .closeObject :: after)) :
    membersWithin (bound + 1) (.string key :: .colon :: tokens) = some ([(key, value)], after) := by
  rw [membersWithin, h]
  rfl

/-- One step of reading members: one with others behind it. -/
theorem membersWithin_next {bound : Nat} {key : Option String} {tokens rest after : List Token}
    {value : Json} {members : List (Option String × Json)}
    (h : valueWithin bound tokens = some (value, .comma :: rest))
    (hrest : membersWithin bound rest = some (members, after)) :
    membersWithin (bound + 1) (.string key :: .colon :: tokens) =
      some ((key, value) :: members, after) := by
  rw [membersWithin, h]
  change (membersWithin bound rest).bind _ = _
  rw [hrest]
  rfl

mutual

/-- **Documents.** A document is read from its tokens, whatever follows them.

**Proof sketch.** By recursion over the document. A value of `n` tokens takes at most `2 n - 1`
steps, and the items of an array, which have `n` tokens with the commas, at most `2 n`. -/
theorem valueWithin_tokens (rest : List Token) :
    ∀ (json : Json) (bound : Nat), 2 * json.tokens.length ≤ bound + 1 →
      valueWithin bound (json.tokens ++ rest) = some (json, rest)
  | json, 0, h => by
    have := List.length_pos_of_ne_nil (tokens_ne_nil json)
    omega
  | .null, _ + 1, _ => rfl
  | .bool _, _ + 1, _ => rfl
  | .number _, _ + 1, _ => rfl
  | .string _, _ + 1, _ => rfl
  | .array [], _ + 1, _ => rfl
  | .array (item :: items), bound + 1, h => by
    rw [tokens, List.length_cons, List.length_append, List.length_singleton] at h
    have hitems := itemsWithin_itemTokens rest (item :: items) (List.cons_ne_nil _ _)
      bound (by omega)
    rw [tokens, List.cons_append, List.append_assoc, List.singleton_append, valueWithin, hitems]
    · rfl
    · exact itemTokens_append_ne_closeArray item items _
  | .object [], _ + 1, _ => rfl
  | .object (member :: members), bound + 1, h => by
    rw [tokens, List.length_cons, List.length_append, List.length_singleton] at h
    have hmembers := membersWithin_memberTokens rest (member :: members) (List.cons_ne_nil _ _)
      bound (by omega)
    rw [tokens, List.cons_append, List.append_assoc, List.singleton_append, valueWithin, hmembers]
    · rfl
    · exact memberTokens_append_ne_closeObject member members _

theorem itemsWithin_itemTokens (rest : List Token) :
    ∀ (items : List Json), items ≠ [] → ∀ bound : Nat,
      2 * (itemTokens items).length ≤ bound →
      itemsWithin bound (itemTokens items ++ .closeArray :: rest) = some (items, rest)
  | [], hne, _, _ => absurd rfl hne
  | [item], _, bound, h => by
    rw [itemTokens] at h ⊢
    have hpos := List.length_pos_of_ne_nil (tokens_ne_nil item)
    obtain ⟨bound, rfl⟩ := Nat.exists_eq_succ_of_ne_zero (n := bound) (by omega)
    exact itemsWithin_last (valueWithin_tokens _ item bound (by omega))
  | item :: next :: items, _, bound, h => by
    rw [itemTokens, List.length_append, List.length_cons] at h
    have hpos := List.length_pos_of_ne_nil (tokens_ne_nil item)
    obtain ⟨bound, rfl⟩ := Nat.exists_eq_succ_of_ne_zero (n := bound) (by omega)
    have hitems := itemsWithin_itemTokens rest (next :: items) (List.cons_ne_nil _ _)
      bound (by omega)
    rw [itemTokens, List.append_assoc, List.cons_append]
    exact itemsWithin_next (valueWithin_tokens _ item bound (by omega)) hitems

theorem membersWithin_memberTokens (rest : List Token) :
    ∀ (members : List (Option String × Json)), members ≠ [] → ∀ bound : Nat,
      2 * (memberTokens members).length ≤ bound →
      membersWithin bound (memberTokens members ++ .closeObject :: rest) = some (members, rest)
  | [], hne, _, _ => absurd rfl hne
  | [(key, value)], _, bound, h => by
    rw [memberTokens, List.length_cons, List.length_cons] at h
    obtain ⟨bound, rfl⟩ := Nat.exists_eq_succ_of_ne_zero (n := bound) (by omega)
    rw [memberTokens]
    exact membersWithin_last (valueWithin_tokens _ value bound (by omega))
  | (key, value) :: next :: members, _, bound, h => by
    rw [memberTokens, List.length_cons, List.length_cons, List.length_append,
      List.length_cons] at h
    obtain ⟨bound, rfl⟩ := Nat.exists_eq_succ_of_ne_zero (n := bound) (by omega)
    have hmembers := membersWithin_memberTokens rest (next :: members) (List.cons_ne_nil _ _)
      bound (by omega)
    rw [memberTokens, List.cons_append, List.cons_append, List.append_assoc, List.cons_append]
    exact membersWithin_next (valueWithin_tokens _ value bound (by omega)) hmembers

end

/-! ### Plain documents -/

/-- The numbers of the document are integers. -/
def IsPlain (json : Json) : Prop := ∀ token ∈ json.tokens, token.IsPlain

/-- An array is plain if its items are. -/
theorem isPlain_array {items : List Json} (h : ∀ item ∈ items, item.IsPlain) :
    (array items).IsPlain := by
  have hitems : ∀ token ∈ itemTokens items, token.IsPlain := by
    induction items with
    | nil => exact nofun
    | cons item items ih =>
      rw [List.forall_mem_cons] at h
      cases items with
      | nil => exact h.1
      | cons next items =>
        rw [itemTokens, List.forall_mem_append, List.forall_mem_cons]
        exact ⟨h.1, trivial, ih h.2⟩
  rw [IsPlain, tokens, List.forall_mem_cons, List.forall_mem_append]
  exact ⟨trivial, hitems, List.forall_mem_singleton.2 trivial⟩

/-- An object is plain if the values of its members are. -/
theorem isPlain_object {members : List (Option String × Json)}
    (h : ∀ member ∈ members, member.2.IsPlain) : (object members).IsPlain := by
  have hmembers : ∀ token ∈ memberTokens members, token.IsPlain := by
    induction members with
    | nil => exact nofun
    | cons member members ih =>
      rw [List.forall_mem_cons] at h
      cases members with
      | nil =>
        rw [memberTokens, List.forall_mem_cons, List.forall_mem_cons]
        exact ⟨trivial, trivial, h.1⟩
      | cons next members =>
        rw [memberTokens, List.forall_mem_cons, List.forall_mem_cons, List.forall_mem_append,
          List.forall_mem_cons]
        exact ⟨trivial, trivial, h.1, trivial, ih h.2⟩
  rw [IsPlain, tokens, List.forall_mem_cons, List.forall_mem_append]
  exact ⟨trivial, hmembers, List.forall_mem_singleton.2 trivial⟩

/-- A plain document is read from its tokens with white space between them. -/
theorem parse_of_spread {json : Json} {text : String} (hplain : json.IsPlain)
    (h : Spread json.tokens text.toList) : parse text = some json := by
  have htokens : tokenize text.toList = some json.tokens :=
    tokenize_spelled (h.spelled hplain) (isChain_tokens json)
  have hvalue := valueWithin_tokens [] json (2 * json.tokens.length) (Nat.le_succ _)
  rw [List.append_nil] at hvalue
  rw [parse, htokens]
  change ofTokens? json.tokens = _
  rw [ofTokens?, hvalue]

/-- **Compact texts.** A plain document is read from its text without white space. -/
theorem parse_compact {json : Json} (hplain : json.IsPlain) : parse json.compact = some json := by
  refine parse_of_spread hplain ?_
  rw [compact, String.toList_ofList]
  exact spread_compact json.tokens

/-- **Pretty texts.** A plain document is read from its text that is laid out over lines. -/
theorem parse_pretty {json : Json} (hplain : json.IsPlain) : parse json.pretty = some json := by
  refine parse_of_spread hplain ?_
  rw [pretty, String.toList_ofList]
  exact spread_layout 0 json

end SchemaForge.Json
