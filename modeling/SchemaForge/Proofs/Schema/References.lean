import SchemaForge.Schema.Options
set_option autoImplicit false

/-!
# What options refer to

An option refers to the field that declares it, and its value to the members of messages whose
values it holds, at any depth.

## Main definitions

* `SchemaForge.Options.references` — the member urls that options refer to.

## Main results

* `SchemaForge.Options.mem_references_without` — what is left refers to no removed member, and to
  nothing new.
-/

namespace SchemaForge

namespace OptionValue

mutual

/-- The members that a value refers to. -/
def references : OptionValue → List MemberUrl
  | .raw _ => []
  | .rawMap _ => []
  | .messageMap entries => entryReferences entries

/-- The members that the entries of a message value refer to. -/
def entryReferences : List (MemberUrl × OptionValue) → List MemberUrl
  | [] => []
  | (url, value) :: entries => url :: (value.references ++ entryReferences entries)

end

mutual

/-- What is left of a value refers to no removed member, and to nothing new. -/
theorem mem_references_without {removed : MemberUrl → Bool} {url : MemberUrl} :
    ∀ {value : OptionValue}, url ∈ (value.without removed).references →
      url ∈ value.references ∧ removed url = false
  | .raw _, h => by cases h
  | .rawMap _, h => by cases h
  | .messageMap entries, h => by
    rw [without, references] at h
    exact mem_entryReferences_without h

/-- What is left of the entries of a message value refers to no removed member, and to nothing
new. -/
theorem mem_entryReferences_without {removed : MemberUrl → Bool} {url : MemberUrl} :
    ∀ {entries : List (MemberUrl × OptionValue)},
      url ∈ entryReferences (entriesWithout removed entries) →
        url ∈ entryReferences entries ∧ removed url = false
  | [], h => by cases h
  | (member, value) :: entries, h => by
    rw [entriesWithout] at h
    rw [entryReferences, List.mem_cons, List.mem_append]
    cases hmember : removed member with
    | true =>
      rw [hmember, if_pos rfl] at h
      obtain ⟨hurl, hkept⟩ := mem_entryReferences_without h
      exact ⟨.inr (.inr hurl), hkept⟩
    | false =>
      rw [hmember, if_neg Bool.false_ne_true, entryReferences, List.mem_cons, List.mem_append] at h
      rcases h with rfl | h | h
      · exact ⟨.inl rfl, hmember⟩
      · obtain ⟨hurl, hkept⟩ := mem_references_without h
        exact ⟨.inr (.inl hurl), hkept⟩
      · obtain ⟨hurl, hkept⟩ := mem_entryReferences_without h
        exact ⟨.inr (.inr hurl), hkept⟩

end

end OptionValue

/-- The members that an option refers to. -/
def SchemaOption.references (option : SchemaOption) : List MemberUrl :=
  option.field :: option.value.toList.flatMap OptionValue.references

/-- The members that options refer to. -/
def Options.references (options : Options) : List MemberUrl :=
  options.flatMap SchemaOption.references

/-- What is left of the value of an option refers to no removed member, and to nothing new. -/
theorem SchemaOption.mem_references_without {removed : MemberUrl → Bool} {option : SchemaOption}
    {url : MemberUrl} (hfield : removed option.field = false)
    (h : url ∈ (option.without removed).references) :
    url ∈ option.references ∧ removed url = false := by
  obtain ⟨name, field, value⟩ := option
  rcases List.mem_cons.1 h with rfl | h
  · exact ⟨List.mem_cons_self, hfield⟩
  · cases value with
    | none => cases h
    | some value =>
      simp only [without, Option.map_some, Option.toList_some, List.flatMap_singleton] at h
      obtain ⟨hurl, hkept⟩ := OptionValue.mem_references_without h
      refine ⟨List.mem_cons_of_mem _ ?_, hkept⟩
      simpa using hurl

/-- **References.** What is left of options refers to no removed member, and to nothing new. -/
theorem Options.mem_references_without {removed : MemberUrl → Bool} {options : Options}
    {url : MemberUrl} (h : url ∈ (options.without removed).references) :
    url ∈ options.references ∧ removed url = false := by
  obtain ⟨left, hleft, hurl⟩ := List.mem_flatMap.1 h
  obtain ⟨option, hoption, rfl⟩ := List.mem_map.1 hleft
  obtain ⟨hmem, hkept⟩ := List.mem_filter.1 hoption
  rw [Bool.not_eq_true'] at hkept
  obtain ⟨hreference, hremains⟩ := SchemaOption.mem_references_without hkept hurl
  exact ⟨List.mem_flatMap.2 ⟨option, hmem, hreference⟩, hremains⟩

end SchemaForge
