import SchemaForge.Proofs.Generation.Scopes
import SchemaForge.Proofs.Text.ByteOrder
set_option autoImplicit false

/-!
# Which fault of the options is reported

The options of a run are checked key by key in the order of the keys, and the check ends at the
first key that is not in order. What is said of this key is one thing, although several may be wrong
with it: that it belongs to no option, or else that it has too many values, or else the first of its
values that is not of the right kind.

## Main definitions

* `SchemaForge.IsFirstNamed` — the first member of a list that goes by its name.
* `SchemaForge.BelongsTo` — the option that a key belongs to.
* `SchemaForge.InOrder`, `SchemaForge.Blames` — a key with its values is in order, or has a fault.

## Main results

* `SchemaForge.descriptor?_eq_some_iff` — the option found for a key is the one it belongs to.
* `SchemaForge.optionFault?_eq_some_iff` — the fault that is found is the one that is to be blamed.
* `SchemaForge.validateOptions_blames_first` — when options are accepted, and what is blamed else.
-/

namespace SchemaForge

variable {plugins : List Metadata} {key : String} {values : List String}

/-! ### The option a key belongs to -/

/-- No member of the list before this one goes by the same name. -/
def IsFirstNamed {α : Type} (nameOf : α → String) (list : List α) (a : α) : Prop :=
  ∃ before after, list = before ++ a :: after ∧ ∀ other ∈ before, nameOf other ≠ nameOf a

/-- What is looked up by a name is the first member of this name. -/
theorem find?_name_eq_some_iff {α : Type} {nameOf : α → String} {list : List α} {name : String}
    {a : α} :
    list.find? (nameOf · == name) = some a ↔ nameOf a = name ∧ IsFirstNamed nameOf list a := by
  rw [List.find?_eq_some_iff_append, beq_iff_eq]
  refine and_congr_right ?_
  rintro rfl
  simp [IsFirstNamed]

/-- The option that a key belongs to: one of the run, or, behind the name of a plugin and a colon,
one of this plugin. The first plugin of a name counts, and its first option of a name. -/
inductive BelongsTo (plugins : List Metadata) : String → OptionDescriptor → Prop
  /-- The key is the name of an option of the run. -/
  | run {descriptor : OptionDescriptor} (hbase : descriptor ∈ GenerationOptions.baseOptions) :
    BelongsTo plugins descriptor.name descriptor
  /-- The key names a plugin and one of its options. It is cut at its first colon, so there is none
  in the name of the plugin. -/
  | plugin {owner : Metadata} {descriptor : OptionDescriptor} (hcolon : ':' ∉ owner.name.toList)
    (howner : IsFirstNamed Metadata.name plugins owner)
    (hdescriptor : IsFirstNamed OptionDescriptor.name owner.options descriptor) :
    BelongsTo plugins (owner.name ++ ":" ++ descriptor.name) descriptor

/-- The options of the run have no colons in their names. -/
theorem not_colon_mem_of_mem_baseOptions {descriptor : OptionDescriptor}
    (h : descriptor ∈ GenerationOptions.baseOptions) : ':' ∉ descriptor.name.toList := by
  have hall : ∀ d ∈ GenerationOptions.baseOptions, ':' ∉ d.name.toList := by decide
  exact hall descriptor h

/-- Their names are different, so each of them is found by its name. -/
theorem find?_baseOptions_of_mem {descriptor : OptionDescriptor}
    (h : descriptor ∈ GenerationOptions.baseOptions) :
    GenerationOptions.baseOptions.find? (·.name == descriptor.name) = some descriptor := by
  have hall : ∀ d ∈ GenerationOptions.baseOptions,
      GenerationOptions.baseOptions.find? (·.name == d.name) = some d := by decide
  exact hall descriptor h

/-- A key without a colon is looked up among the options of the run. -/
theorem descriptor?_of_no_colon (plugins : List Metadata) (h : ':' ∉ key.toList) :
    descriptor? plugins key = GenerationOptions.baseOptions.find? (·.name == key) := by
  rw [descriptor?, splitKey?, Text.splitFirst, Text.splitFirstChars_eq_none_iff.2 h]
  rfl

/-- A key with a colon is looked up among the options of the plugin that it names. -/
theorem descriptor?_of_colon (plugins : List Metadata) {name : String} (own : String)
    (h : ':' ∉ name.toList) :
    descriptor? plugins (name ++ ":" ++ own) =
      (plugins.find? (·.name == name)).bind fun owner =>
        owner.options.find? (·.name == own) := by
  rw [descriptor?, splitKey?_append h]
  rfl

/-- A key with a colon is a name without a colon, a colon, and anything. -/
theorem exists_of_colon_mem (h : ':' ∈ key.toList) :
    ∃ name own : String, ':' ∉ name.toList ∧ key = name ++ ":" ++ own := by
  cases hchars : Text.splitFirstChars ':' key.toList with
  | none => exact absurd h (Text.splitFirstChars_eq_none_iff.1 hchars)
  | some parts =>
    obtain ⟨hkey, hname⟩ := Text.splitFirstChars_eq_some_iff.1 hchars
    refine ⟨String.ofList parts.1, String.ofList parts.2, by simpa using hname, ?_⟩
    apply String.toList_injective
    rw [hkey]
    simp

/-- The option that is found for a key is the one that the key belongs to. -/
theorem descriptor?_eq_some_iff {descriptor : OptionDescriptor} :
    descriptor? plugins key = some descriptor ↔ BelongsTo plugins key descriptor := by
  constructor
  · intro h
    by_cases hcolon : ':' ∈ key.toList
    · obtain ⟨name, own, hname, rfl⟩ := exists_of_colon_mem hcolon
      rw [descriptor?_of_colon plugins own hname, Option.bind_eq_some_iff] at h
      obtain ⟨owner, howner, hdescriptor⟩ := h
      obtain ⟨rfl, hfirstOwner⟩ := find?_name_eq_some_iff.1 howner
      obtain ⟨rfl, hfirst⟩ := find?_name_eq_some_iff.1 hdescriptor
      exact .plugin hname hfirstOwner hfirst
    · rw [descriptor?_of_no_colon plugins hcolon] at h
      obtain ⟨rfl, -⟩ := find?_name_eq_some_iff.1 h
      exact .run (List.mem_of_find?_eq_some h)
  · rintro (hbase | ⟨hcolon, howner, hdescriptor⟩)
    · rw [descriptor?_of_no_colon plugins (not_colon_mem_of_mem_baseOptions hbase)]
      exact find?_baseOptions_of_mem hbase
    · rw [descriptor?_of_colon plugins _ hcolon, Option.bind_eq_some_iff]
      exact ⟨_, find?_name_eq_some_iff.2 ⟨rfl, howner⟩,
        find?_name_eq_some_iff.2 ⟨rfl, hdescriptor⟩⟩

/-- Where no option is found the key belongs to none. -/
theorem descriptor?_eq_none_iff :
    descriptor? plugins key = none ↔ ∀ descriptor, ¬ BelongsTo plugins key descriptor := by
  rw [Option.eq_none_iff_forall_ne_some]
  exact forall_congr' fun descriptor => not_congr descriptor?_eq_some_iff

/-! ### One key -/

/-- The key belongs to an option, and the values suit it. -/
def InOrder (plugins : List Metadata) (key : String) (values : List String) : Prop :=
  ∃ descriptor, BelongsTo plugins key descriptor ∧ descriptor.Suits values

/-- What is to be blamed where a key with its values is not in order. Of several faults this is the
first one of the list below. -/
inductive Blames (plugins : List Metadata) (key : String) (values : List String) :
    OptionFault → Prop
  /-- The key belongs to no option. -/
  | unknown (hnone : ∀ descriptor, ¬ BelongsTo plugins key descriptor) :
    Blames plugins key values (.unknown key)
  /-- The option may be given once, and there are several values. -/
  | notRepeatable {descriptor : OptionDescriptor} (hbelongs : BelongsTo plugins key descriptor)
    (hsingle : descriptor.isRepeatable = false) (hseveral : 1 < values.length) :
    Blames plugins key values (.notRepeatable key)
  /-- The number of values is right, and this is the first one that is not of the kind. -/
  | invalid {descriptor : OptionDescriptor} {before after : List String} {value : String}
    (hbelongs : BelongsTo plugins key descriptor)
    (hnumber : descriptor.isRepeatable = true ∨ values.length ≤ 1)
    (hvalues : values = before ++ value :: after)
    (hbefore : ∀ earlier ∈ before, descriptor.kind.accepts earlier = true)
    (hvalue : descriptor.kind.accepts value = false) :
    Blames plugins key values (.invalid key value descriptor.kind)

/-- A value that is not of the kind is blamed if the number of values is right. -/
theorem OptionDescriptor.fault?_eq_some_iff (descriptor : OptionDescriptor) {fault : OptionFault} :
    descriptor.fault? key values = some fault ↔
      (descriptor.isRepeatable = false ∧ 1 < values.length ∧ fault = .notRepeatable key) ∨
      ((descriptor.isRepeatable = true ∨ values.length ≤ 1) ∧
        ∃ before value after, values = before ++ value :: after ∧
          (∀ earlier ∈ before, descriptor.kind.accepts earlier = true) ∧
          descriptor.kind.accepts value = false ∧
          fault = .invalid key value descriptor.kind) := by
  by_cases hmany : descriptor.isRepeatable = false ∧ 1 < values.length
  · -- too many values
    have hnumber : ¬ (descriptor.isRepeatable = true ∨ values.length ≤ 1) := by
      rw [hmany.1]
      simpa using hmany.2
    rw [fault?, if_pos (by simpa using hmany), or_iff_left fun h => hnumber h.1,
      Option.some.injEq]
    constructor
    · rintro rfl
      exact ⟨hmany.1, hmany.2, rfl⟩
    · rintro ⟨-, -, rfl⟩
      rfl
  · have hnumber : descriptor.isRepeatable = true ∨ values.length ≤ 1 := by
      rcases Bool.eq_false_or_eq_true descriptor.isRepeatable with h | h
      · exact .inl h
      · exact .inr (Nat.not_lt.1 fun hlt => hmany ⟨h, hlt⟩)
    rw [fault?, if_neg (by simpa using hmany), Option.map_eq_some_iff]
    have hleft : ¬ (descriptor.isRepeatable = false ∧ 1 < values.length ∧
        fault = .notRepeatable key) := fun h => hmany ⟨h.1, h.2.1⟩
    rw [or_iff_right hleft, and_iff_right hnumber]
    constructor
    · rintro ⟨value, hfound, rfl⟩
      obtain ⟨hvalue, before, after, hvalues, hbefore⟩ := List.find?_eq_some_iff_append.1 hfound
      exact ⟨before, value, after, hvalues, by simpa using hbefore, by simpa using hvalue, rfl⟩
    · rintro ⟨before, value, after, hvalues, hbefore, hvalue, rfl⟩
      refine ⟨value, List.find?_eq_some_iff_append.2 ⟨by simpa using hvalue, before, after,
        hvalues, by simpa using hbefore⟩, rfl⟩

/-- **The fault of a key.** What is found to be wrong with a key and its values is what is to be
blamed.

**Proof sketch.** The option that is found is the one that the key belongs to, and there is only
one. -/
theorem optionFault?_eq_some_iff {fault : OptionFault} :
    optionFault? plugins key values = some fault ↔ Blames plugins key values fault := by
  rw [optionFault?]
  cases hfound : descriptor? plugins key with
  | none =>
    have hnone := descriptor?_eq_none_iff.1 hfound
    constructor
    · intro h
      obtain rfl := Option.some.inj h
      exact .unknown hnone
    · rintro (_ | ⟨hbelongs, -, -⟩ | ⟨hbelongs, -, -, -, -⟩)
      · rfl
      · exact absurd hbelongs (hnone _)
      · exact absurd hbelongs (hnone _)
  | some descriptor =>
    have hbelongs := descriptor?_eq_some_iff.1 hfound
    have hunique {other : OptionDescriptor} (h : BelongsTo plugins key other) :
        descriptor = other :=
      Option.some.inj (hfound.symm.trans (descriptor?_eq_some_iff.2 h))
    rw [descriptor.fault?_eq_some_iff]
    constructor
    · rintro (⟨hsingle, hseveral, rfl⟩ | ⟨hnumber, before, value, after, hvalues, hbefore, hvalue,
        rfl⟩)
      · exact .notRepeatable hbelongs hsingle hseveral
      · exact .invalid hbelongs hnumber hvalues hbefore hvalue
    · rintro (hnone | ⟨hother, hsingle, hseveral⟩ | ⟨hother, hnumber, hvalues, hbefore, hvalue⟩)
      · exact absurd hbelongs (hnone descriptor)
      · obtain rfl := hunique hother
        exact .inl ⟨hsingle, hseveral, rfl⟩
      · obtain rfl := hunique hother
        exact .inr ⟨hnumber, _, _, _, hvalues, hbefore, hvalue, rfl⟩

/-- A key has no fault if it is in order with its values. -/
theorem optionFault?_eq_none_iff_inOrder :
    optionFault? plugins key values = none ↔ InOrder plugins key values := by
  rw [optionFault?, InOrder]
  cases hfound : descriptor? plugins key with
  | none =>
    refine iff_of_false (Option.some_ne_none _) ?_
    rintro ⟨descriptor, hbelongs, -⟩
    exact descriptor?_eq_none_iff.1 hfound descriptor hbelongs
  | some descriptor =>
    simp only [← descriptor?_eq_some_iff, hfound, descriptor.fault?_eq_none_iff,
      Option.some.injEq, exists_eq_left']

/-! ### All keys -/

/-- Options are in order if all their keys are. -/
theorem validateOptions_eq_ok_iff_inOrder {options : GenerationOptions} :
    validateOptions plugins options = .ok () ↔
      ∀ key values, (key, values) ∈ options.raw → InOrder plugins key values := by
  rw [validateOptions_eq_ok_iff]
  simp only [Prod.forall, optionFault?_eq_none_iff_inOrder]

/-- A fault is reported if it is the one of the least key that has a fault. -/
theorem validateOptions_eq_error_iff {options : GenerationOptions} {fault : OptionFault} :
    validateOptions plugins options = .error fault ↔
      ∃ key values, (key, values) ∈ options.raw ∧ Blames plugins key values fault ∧
        ∀ other more, (other, more) ∈ options.raw → other < key → InOrder plugins other more := by
  have hresult : validateOptions plugins options = .error fault ↔
      options.raw.findSome? (fun entry => optionFault? plugins entry.1 entry.2) =
        some fault := by
    rw [validateOptions]
    split <;> rename_i hfound <;> rw [hfound] <;> simp
  rw [hresult, GenerationOptions.raw, SortedMap.findSome?_entries_eq_some_iff]
  simp only [Prod.exists, Prod.forall, optionFault?_eq_some_iff, optionFault?_eq_none_iff_inOrder]

/-- **The first fault is blamed.** A key belongs to the option that is looked up for it: without a
colon to the option of the run with this name, and otherwise, cut at its first colon, to the first
option with the name behind the colon of the first plugin with the name before it. The options of a
run are accepted exactly if each of their keys belongs to an option which its values suit. Otherwise
the fault that is reported is that of a key before which, in the order of the bytes of the keys, all
keys are in order; and the fault is that the key belongs to no option, or else that it has several
values although its option takes one, or else the first value that is not of the kind of the option.

**Proof sketch.** The fault of one key is what is to be blamed (`optionFault?_eq_some_iff`). The
keys are checked in their order, so the fault of the least one counts
(`SortedMap.findSome?_entries_eq_some_iff`), and texts are in the order of their bytes
(`Text.toBytes_lt_toBytes_iff`). -/
theorem validateOptions_blames_first (plugins : List Metadata) (options : GenerationOptions) :
    (∀ key descriptor,
      descriptor? plugins key = some descriptor ↔ BelongsTo plugins key descriptor) ∧
    (validateOptions plugins options = .ok () ↔
      ∀ key values, (key, values) ∈ options.raw → InOrder plugins key values) ∧
    ∀ fault, validateOptions plugins options = .error fault ↔
      ∃ key values, (key, values) ∈ options.raw ∧ Blames plugins key values fault ∧
        ∀ other more, (other, more) ∈ options.raw → Text.toBytes other < Text.toBytes key →
          InOrder plugins other more := by
  refine ⟨fun key descriptor => descriptor?_eq_some_iff, validateOptions_eq_ok_iff_inOrder,
    fun fault => ?_⟩
  simp only [Text.toBytes_lt_toBytes_iff]
  exact validateOptions_eq_error_iff

/-- A plugin with an option for one number. -/
def numberPlugins : List Metadata := [processorWith "js" [.single "n" "" .int]]

/-- Two words for the number, and behind them a key that belongs to no option. -/
def wordOptions : GenerationOptions := .ofPairs [("zz", "1"), ("js:n", "x"), ("js:n", "y")]

/-- That there are two of them is blamed first. -/
theorem blames_wordOptions :
    BelongsTo numberPlugins "js:n" (.single "n" "" .int) ∧
      validateOptions numberPlugins wordOptions = .error (.notRepeatable "js:n") := by
  obtain ⟨hbelongs, -, herror⟩ := validateOptions_blames_first numberPlugins wordOptions
  have hnumber := (hbelongs "js:n" (.single "n" "" .int)).1 (by decide)
  refine ⟨hnumber, (herror _).2 ⟨"js:n", ["x", "y"], by decide, ?_, ?_⟩⟩
  · exact .notRepeatable hnumber rfl (by decide)
  · intro other more hmem hless
    -- no key is before this one
    have hraw : wordOptions.raw = [("js:n", ["x", "y"]), ("zz", ["1"])] := by decide
    rw [hraw] at hmem
    rcases List.mem_pair.1 hmem with h | h <;> cases h
    · exact absurd hless (List.lt_irrefl _)
    · exact absurd hless (by decide)

end SchemaForge
