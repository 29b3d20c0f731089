import SchemaForge.Proofs.Schema.References
import SchemaForge.Proofs.Schema.Without
set_option autoImplicit false

/-!
# Members that options do not refer to

To take members out of options changes them only if they refer to one of the members. Since what is
left refers to none, sets of members act on options: sets that are taken out one after the other are
taken out as their union, in any order, and a set that is taken out again changes nothing.

## Main results

* `SchemaForge.Options.without_eq_self_iff` — the sets that leave options as they are.
* `SchemaForge.Options.sets_act_by_without` — the laws of taking sets of members out of options.
-/

namespace SchemaForge

variable {removed : MemberUrl → Bool}

namespace OptionValue

mutual

/-- A value that refers to no removed member stays as it is. -/
theorem without_eq_self :
    ∀ {value : OptionValue}, (∀ url ∈ value.references, removed url = false) →
      value.without removed = value
  | .raw _, _ => rfl
  | .rawMap _, _ => rfl
  | .messageMap entries, h => by
    rw [references] at h
    rw [without, entriesWithout_eq_self h]

/-- The entries of a message value that refer to no removed member stay as they are. -/
theorem entriesWithout_eq_self :
    ∀ {entries : List (MemberUrl × OptionValue)},
      (∀ url ∈ entryReferences entries, removed url = false) →
        entriesWithout removed entries = entries
  | [], _ => rfl
  | (member, value) :: entries, h => by
    rw [entryReferences, List.forall_mem_cons, List.forall_mem_append] at h
    obtain ⟨hmember, hvalue, hentries⟩ := h
    rw [entriesWithout, hmember, if_neg Bool.false_ne_true, without_eq_self hvalue,
      entriesWithout_eq_self hentries]

end

end OptionValue

/-- An option that refers to no removed member stays as it is. -/
theorem SchemaOption.without_eq_self {option : SchemaOption}
    (h : ∀ url ∈ option.references, removed url = false) : option.without removed = option := by
  obtain ⟨name, field, _ | value⟩ := option
  · rfl
  · have hvalue : ∀ url ∈ value.references, removed url = false := by
      intro url hurl
      exact h url (List.mem_cons_of_mem _ (by simpa using hurl))
    rw [without, Option.map_some, OptionValue.without_eq_self hvalue]

namespace Options

/-- Options that refer to no removed member stay as they are. -/
theorem without_eq_self {options : Options} (h : ∀ url ∈ options.references, removed url = false) :
    options.without removed = options := by
  rw [references, List.forall_mem_flatMap] at h
  have hkept : ∀ option ∈ options, (!removed option.field) = true := by
    intro option hoption
    rw [h option hoption option.field List.mem_cons_self]
    rfl
  have hoptions : ∀ option ∈ options, option.without removed = option :=
    fun option hoption => SchemaOption.without_eq_self (h option hoption)
  rw [without, List.filter_eq_self.2 hkept, List.map_congr_left hoptions, List.map_id']

/-- Options stay as they are exactly if they refer to no removed member. -/
theorem without_eq_self_iff (options : Options) :
    options.without removed = options ↔ ∀ url ∈ options.references, removed url = false := by
  refine ⟨fun h url hurl => ?_, without_eq_self⟩
  rw [← h] at hurl
  exact (mem_references_without hurl).2

/-- Nothing is taken out with the empty set. -/
theorem without_false (options : Options) : options.without (fun _ => false) = options :=
  without_eq_self fun _ _ => rfl

/-- **Sets of members act on options.** What is left without a set of members refers to none of
them, neither as the field of an option nor, at any depth, as the member of a message entry. Two
sets are taken out one after the other as their union, so their order does not matter, and a set
that is taken out again changes nothing. A set leaves options as they are exactly if they refer to
none of its members, and the empty set always does. Under a member of the set no option is found in
what is left; under every other one the option that was found before, with the same name and field,
and with its value without the set.

**Proof sketch.** What refers to nothing in a set stays as it is, by induction over the values of
messages in the values of messages. A set that is taken out again is the union of the set with
itself. -/
theorem sets_act_by_without (first second : MemberUrl → Bool) (options : Options) :
    (¬ ∃ url ∈ (options.without first).references, first url = true) ∧
    ((options.without first).without second =
        options.without (fun url => first url || second url) ∧
      (options.without first).without second = (options.without second).without first ∧
      (options.without first).without first = options.without first) ∧
    ((options.without first = options ↔ ¬ ∃ url ∈ options.references, first url = true) ∧
      options.without (fun _ => false) = options) ∧
    ∀ url, (options.without first).get? url =
      if first url then none
      else (options.get? url).map fun option =>
        ⟨option.name, option.field, option.value.map fun value => value.without first⟩ := by
  have hdisjoint : options.without first = options ↔
      ¬ ∃ url ∈ options.references, first url = true := by
    rw [without_eq_self_iff]
    simp
  have hunion := without_without first second options
  have horder : (fun url => first url || second url) = fun url => second url || first url :=
    funext fun url => Bool.or_comm _ _
  refine ⟨?_, ⟨hunion, ?_, ?_⟩, ⟨hdisjoint, options.without_false⟩, get?_without first options⟩
  · rintro ⟨url, hurl, hremoved⟩
    rw [(mem_references_without hurl).2] at hremoved
    cases hremoved
  · rw [hunion, horder, ← without_without second first]
  · rw [without_without]
    simp only [Bool.or_self]

end Options

end SchemaForge
