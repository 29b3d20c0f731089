import SchemaForge.Proofs.Json.RoundTrip
set_option autoImplicit false

/-!
# The document that a text spells

A text spells a document if it spells the tokens of the document, with any white space between them.
Just these texts are read as the document.

## Main definitions

* `SchemaForge.Json.Spells` — a text spells a document.

## Main results

* `SchemaForge.Json.readsTokens` — a document is read from its tokens only.
* `SchemaForge.Json.parse_eq_some_iff` — a text is read as the document that it spells.
-/

namespace SchemaForge.Json

/-- The text spells the document: it consists of its tokens, with any white space between them. -/
def Spells (text : String) (json : Json) : Prop := Spelled json.tokens text.toList

/-! ### Documents are read from their tokens only -/

theorem itemTokens_cons (item : Json) {items : List Json} (h : items ≠ []) :
    itemTokens (item :: items) = item.tokens ++ .comma :: itemTokens items := by
  obtain ⟨next, more, rfl⟩ := List.exists_cons_of_ne_nil h
  rw [itemTokens]

theorem memberTokens_cons (key : Option String) (value : Json)
    {members : List (Option String × Json)} (h : members ≠ []) :
    memberTokens ((key, value) :: members) =
      .string key :: .colon :: (value.tokens ++ .comma :: memberTokens members) := by
  obtain ⟨next, more, rfl⟩ := List.exists_cons_of_ne_nil h
  rw [memberTokens]

/-- What is read within the bound comes from its own tokens. -/
structure ReadsTokens (bound : Nat) : Prop where
  value {tokens rest : List Token} {json : Json}
    (h : valueWithin bound tokens = some (json, rest)) :
    tokens = json.tokens ++ rest
  items {tokens rest : List Token} {items : List Json}
    (h : itemsWithin bound tokens = some (items, rest)) :
    items ≠ [] ∧ tokens = itemTokens items ++ .closeArray :: rest
  members {tokens rest : List Token} {members : List (Option String × Json)}
    (h : membersWithin bound tokens = some (members, rest)) :
    members ≠ [] ∧ tokens = memberTokens members ++ .closeObject :: rest

namespace ReadsTokens

variable {bound : Nat} {tokens rest : List Token}

/-- One step of reading a value. -/
theorem value_succ (ih : ReadsTokens bound) {json : Json}
    (h : valueWithin (bound + 1) tokens = some (json, rest)) : tokens = json.tokens ++ rest := by
  cases tokens with
  | nil => cases h
  | cons token more =>
    rw [valueWithin.eq_def] at h
    dsimp only at h
    split at h
    case h_5 =>
      -- an array
      split at h
      · cases h
        rfl
      · obtain ⟨⟨items, after⟩, hitems, h⟩ := Option.bind_eq_some_iff.1 h
        cases h
        rw [(ih.items hitems).2, Json.tokens, List.cons_append, List.append_assoc,
          List.singleton_append]
    case h_6 =>
      -- an object
      split at h
      · cases h
        rfl
      · obtain ⟨⟨members, after⟩, hmembers, h⟩ := Option.bind_eq_some_iff.1 h
        cases h
        rw [(ih.members hmembers).2, Json.tokens, List.cons_append, List.append_assoc,
          List.singleton_append]
    case h_7 => cases h
    all_goals
      cases h
      rfl

/-- One step of reading items. -/
theorem items_succ (ih : ReadsTokens bound) {items : List Json}
    (h : itemsWithin (bound + 1) tokens = some (items, rest)) :
    items ≠ [] ∧ tokens = itemTokens items ++ .closeArray :: rest := by
  rw [itemsWithin] at h
  obtain ⟨⟨item, more⟩, hitem, h⟩ := Option.bind_eq_some_iff.1 h
  rw [ih.value hitem]
  dsimp only at h
  split at h
  · cases h
    exact ⟨List.cons_ne_nil _ _, by rw [itemTokens]⟩
  · obtain ⟨⟨others, last⟩, hothers, h⟩ := Option.bind_eq_some_iff.1 h
    cases h
    obtain ⟨hne, hmore⟩ := ih.items hothers
    refine ⟨List.cons_ne_nil _ _, ?_⟩
    rw [hmore, itemTokens_cons item hne, List.append_assoc, List.cons_append]
  · cases h

/-- One step of reading members. -/
theorem members_succ (ih : ReadsTokens bound) {members : List (Option String × Json)}
    (h : membersWithin (bound + 1) tokens = some (members, rest)) :
    members ≠ [] ∧ tokens = memberTokens members ++ .closeObject :: rest := by
  rw [membersWithin.eq_def] at h
  dsimp only at h
  split at h
  · obtain ⟨⟨value, more⟩, hvalue, h⟩ := Option.bind_eq_some_iff.1 h
    rw [ih.value hvalue]
    dsimp only at h
    split at h
    · cases h
      exact ⟨List.cons_ne_nil _ _, by rw [memberTokens]; rfl⟩
    · obtain ⟨⟨others, last⟩, hothers, h⟩ := Option.bind_eq_some_iff.1 h
      cases h
      obtain ⟨hne, hmore⟩ := ih.members hothers
      refine ⟨List.cons_ne_nil _ _, ?_⟩
      rw [hmore, memberTokens_cons _ value hne]
      simp only [List.append_assoc, List.cons_append]
    · cases h
  · cases h

end ReadsTokens

/-- **Tokens of documents.** What is read from tokens comes from its own tokens.

**Proof sketch.** Induction on the bound, for values, items and members together. -/
theorem readsTokens (bound : Nat) : ReadsTokens bound := by
  induction bound with
  | zero => exact ⟨nofun, nofun, nofun⟩
  | succ bound ih => exact ⟨ih.value_succ, ih.items_succ, ih.members_succ⟩

/-! ### Texts -/

/-- **Texts of documents.** A text is read as a document just if it spells it.

**Proof sketch.** All tokens of a text are read (`tokenize_spelled`) and come from it
(`spelled_of_tokensWithin`), and so it is with a document and its tokens (`valueWithin_tokens`,
`readsTokens`). In a document a number is followed by a comma or a closing bracket, if there is
anything behind it. -/
theorem parse_eq_some_iff {text : String} {json : Json} :
    parse text = some json ↔ Spells text json := by
  constructor
  · intro h
    obtain ⟨tokens, htokens, hdocument⟩ := Option.bind_eq_some_iff.1 h
    rw [ofTokens?] at hdocument
    split at hdocument
    · rename_i value hvalue
      cases hdocument
      have hread := (readsTokens _).value hvalue
      rw [List.append_nil] at hread
      rw [Spells, ← hread]
      exact spelled_of_tokensWithin htokens
    · cases hdocument
  · intro h
    have hvalue := valueWithin_tokens [] json (2 * json.tokens.length) (Nat.le_succ _)
    rw [List.append_nil] at hvalue
    rw [parse, tokenize_spelled h (isChain_tokens json)]
    change ofTokens? json.tokens = _
    rw [ofTokens?, hvalue]

/-- A text spells at most one document. -/
theorem Spells.unique {text : String} {json other : Json} (h : Spells text json)
    (hother : Spells text other) : json = other :=
  Option.some.inj ((parse_eq_some_iff.2 h).symm.trans (parse_eq_some_iff.2 hother))

end SchemaForge.Json
