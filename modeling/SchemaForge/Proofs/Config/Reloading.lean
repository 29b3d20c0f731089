import SchemaForge.Config.Store
import SchemaForge.Proofs.Disk
import SchemaForge.Proofs.Generation.SortedMaps
set_option autoImplicit false

/-!
# Saved configurations

A configuration that has been saved is loaded again as it was, if parsing undoes printing. Nothing is
lost either if what is as in the default configuration is not in the document at all: a section that
is left out has its default value, and so has a field.

## Main definitions

* `SchemaForge.Toml.Value.isNanFree` — whether a value has no NaN in it.
* `SchemaForge.Config.AreDefaults` — sections and fields that are as in the default configuration.
* `SchemaForge.Config.toDocumentWithout` — a document with sections and fields left out.

## Main results

* `SchemaForge.Config.equals_self` — a configuration without a NaN is equal to itself.
* `SchemaForge.Config.ofDocument?_sorted_toDocumentWithout` — a configuration is read from what is
  left of its document without default values.
* `SchemaForge.Config.isReloaded_eq` — only a NaN keeps a configuration from being read as it was.
* `SchemaForge.Config.load_save` — a configuration that has been saved is loaded again.
-/

namespace SchemaForge

/-! ### Equality -/

theorem Binary64.equals_self (number : Binary64) : number.equals number = (number != .nan) := by
  cases number with
  | nan => rfl
  | infinity negative => simp [equals]
  | finite negative magnitude h => simp [equals]

namespace Toml.Value

mutual

/-- Whether every floating-point number in a value is a number. -/
def isNanFree : Value → Bool
  | .float number => number != .nan
  | .array items => itemsNanFree items
  | .table members => membersNanFree members
  | _ => true

/-- Whether every floating-point number in items is a number. -/
def itemsNanFree : List Value → Bool
  | [] => true
  | item :: items => item.isNanFree && itemsNanFree items

/-- Whether every floating-point number in members is a number. -/
def membersNanFree : List (String × Value) → Bool
  | [] => true
  | (_, value) :: members => value.isNanFree && membersNanFree members

end

mutual

/-- A value is equal to itself if all numbers in it are. -/
theorem equals_self : (value : Value) → value.equals value = value.isNanFree
  | .string _ | .integer _ | .boolean _ | .datetime _ => by simp [equals, isNanFree]
  | .float number => by rw [equals, isNanFree, number.equals_self]
  | .array items => by rw [equals, isNanFree, equalItems_self items]
  | .table members => by rw [equals, isNanFree, equalMembers_self members]

theorem equalItems_self : (items : List Value) → equalItems items items = itemsNanFree items
  | [] => rfl
  | item :: items => by rw [equalItems, itemsNanFree, equals_self item, equalItems_self items]

theorem equalMembers_self :
    (members : List (String × Value)) → equalMembers members members = membersNanFree members
  | [] => rfl
  | (key, value) :: members => by
    rw [equalMembers, membersNanFree, equals_self value, equalMembers_self members,
      beq_self_eq_true, Bool.true_and]

end

/-- Texts have no numbers in them. -/
theorem isNanFree_ofStrings (texts : List String) : (ofStrings texts).isNanFree = true := by
  rw [ofStrings, isNanFree]
  induction texts with
  | nil => rfl
  | cons text texts ih => exact ih

/-- Fields without a value do not matter. -/
theorem isNanFree_ofFields (fields : List (String × Option Value)) :
    (ofFields fields).isNanFree = fields.all fun field => field.2.all isNanFree := by
  rw [ofFields, isNanFree]
  induction fields with
  | nil => rfl
  | cons field fields ih =>
    obtain ⟨name, value⟩ := field
    rw [List.filterMap_cons, List.all_cons, ← ih]
    cases value <;> rfl

end Toml.Value

namespace Config

open Toml (Value)
open Toml.Value (membersFit membersNanFree)

/-- All numbers of a configuration are in its table of options. -/
theorem isNanFree_toDocument (config : Config) :
    config.toDocument.isNanFree = membersNanFree config.generation.options.entries := by
  have htext (text? : Option String) : (text?.map Value.string).all Value.isNanFree = true := by
    cases text? <;> rfl
  have hlimit (limit : Option UInt64) :
      (limit.map fun n => Value.integer n.toNat).all Value.isNanFree = true := by
    cases limit <;> rfl
  simp only [toDocument, Generation.toValue, Logging.toValue, Plugins.toValue, Timeouts.toValue,
    Value.isNanFree_ofFields, Value.isNanFree_ofStrings, Value.isNanFree, htext, hlimit,
    List.all_cons, List.all_nil, Option.all_some, Bool.and_true, Bool.true_and]

/-- A configuration is equal to itself just if none of its options has a NaN in it. -/
theorem equals_self (config : Config) :
    config.equals config = membersNanFree config.generation.options.entries := by
  rw [equals, Value.equals_self, isNanFree_toDocument]

end Config

/-! ### Leaving out members -/

namespace Toml.Value

/-- The members of a table; other values have none. -/
def members : Value → List (String × Value)
  | .table members => members
  | _ => []

/-- The table without the members whose names are left out. -/
def without (value : Value) (leaves : String → Bool) : Value :=
  .table (value.members.filter fun member => !leaves member.1)

theorem without_nothing (value : Value) :
    (value.without fun _ => false) = .table value.members := by
  have hall : (value.members.filter fun _ => !false) = value.members :=
    List.filter_eq_self.mpr fun _ _ => rfl
  rw [without, hall]

/-- A member that is left out is not found, and all others are. -/
theorem lookup_members_without (value : Value) (leaves : String → Bool) (name : String) :
    (value.without leaves).members.lookup name =
      if leaves name then none else value.members.lookup name := by
  rw [without, members]
  induction value.members with
  | nil => simp
  | cons member rest ih =>
    obtain ⟨other, value⟩ := member
    rw [List.filter_cons, SortedMap.lookup_cons_ite]
    by_cases hname : name = other
    · subst hname
      cases hleaves : leaves name with
      | false => simp
      | true => simpa [hleaves] using ih
    · rw [if_neg hname, ← ih]
      split
      · rw [SortedMap.lookup_cons_ite, if_neg hname]
      · rfl

/-- The table with each member changed as its name says. -/
def mapMembers (value : Value) (change : String → Value → Value) : Value :=
  .table (value.members.map fun (name, member) => (name, change name member))

theorem lookup_members_mapMembers (value : Value) (change : String → Value → Value)
    (name : String) :
    (value.mapMembers change).members.lookup name =
      (value.members.lookup name).map (change name) := by
  rw [mapMembers, members]
  induction value.members with
  | nil => rfl
  | cons member rest ih =>
    obtain ⟨other, value⟩ := member
    rw [List.map_cons, SortedMap.lookup_cons_ite, SortedMap.lookup_cons_ite]
    by_cases hname : name = other
    · rw [if_pos hname, if_pos hname, Option.map_some, hname]
    · rw [if_neg hname, if_neg hname, ih]

/-! ### Sorted members -/

/-- Among sorted members a name has the value that it had, itself sorted. -/
theorem lookup_sortedMembers (members : List (String × Value)) (name : String) :
    (sortedMembers members).lookup name = (members.lookup name).map sorted := by
  induction members with
  | nil => rfl
  | cons member rest ih =>
    obtain ⟨key, value⟩ := member
    rw [sortedMembers, SortedMap.lookup_insertEntry, SortedMap.lookup_cons_ite, ih]
    split <;> rfl

/-- Members in order stay where they are. -/
theorem sortedMembers_eq_self {members : List (String × Value)}
    (hkeys : members.Pairwise fun a b => a.1 < b.1)
    (hvalues : ∀ member ∈ members, member.2.sorted = member.2) :
    sortedMembers members = members := by
  induction members with
  | nil => rfl
  | cons member rest ih =>
    obtain ⟨key, value⟩ := member
    obtain ⟨hfirst, hrest⟩ := List.pairwise_cons.1 hkeys
    obtain ⟨hvalue, hvalues⟩ := List.forall_mem_cons.1 hvalues
    rw [sortedMembers, ih hrest hvalues, hvalue]
    cases rest with
    | nil => rfl
    | cons next others => exact if_pos (hfirst next List.mem_cons_self)

theorem sorted_ofStrings (texts : List String) : (ofStrings texts).sorted = ofStrings texts := by
  rw [ofStrings, sorted]
  congr 1
  induction texts with
  | nil => rfl
  | cons text texts ih =>
    rw [List.map_cons, sortedItems, ih]
    rfl

/-- Whether all values in a table have their tables sorted. -/
def HasSortedMembers (value : Value) : Prop :=
  ∀ member ∈ value.members, member.2.sorted = member.2

theorem hasSortedMembers_ofFields {fields : List (String × Option Value)}
    (h : ∀ field ∈ fields, ∀ value ∈ field.2, value.sorted = value) :
    (ofFields fields).HasSortedMembers := by
  intro member hmember
  obtain ⟨⟨name, value?⟩, hfield, hfound⟩ := List.mem_filterMap.1 hmember
  obtain ⟨value, hvalue, rfl⟩ := Option.map_eq_some_iff.1 hfound
  exact h _ hfield value hvalue

/-- The field of a section of a document, by the names of both. -/
def fieldAt? (document : Value) (place : String × String) : Option Value :=
  (document.members.lookup place.1).bind (·.members.lookup place.2)

end Toml.Value

namespace Config

open Toml (Value)
open Toml.Value (membersFit membersNanFree)

/-- What is left of the members that were written: each of them is there as it was written, or it
is not there and was written as it is among the members of the defaults. -/
def IsLeftOf (left written defaults : List (String × Value)) : Prop :=
  ∀ name, left.lookup name = written.lookup name ∨
    left.lookup name = none ∧ written.lookup name = defaults.lookup name

/-- Leaving out members that are as in the defaults. -/
theorem isLeftOf_without {written defaults : Value} {leaves : String → Bool}
    (h : ∀ name, leaves name = true → written.members.lookup name = defaults.members.lookup name) :
    IsLeftOf (written.without leaves).members written.members defaults.members := by
  intro name
  rw [Value.lookup_members_without]
  cases hleaves : leaves name with
  | false => exact .inl rfl
  | true => exact .inr ⟨rfl, h name hleaves⟩

/-- Sorting what is left of sorted values. -/
theorem IsLeftOf.sorted {left defaults : List (String × Value)} {written : Value}
    (hleft : IsLeftOf left written.members defaults) (hsorted : written.HasSortedMembers) :
    IsLeftOf (Value.sortedMembers left) written.members defaults := by
  intro name
  rw [Value.lookup_sortedMembers]
  rcases hleft name with hsame | ⟨hnone, hdefault⟩
  · left
    rw [hsame]
    cases hlookup : written.members.lookup name with
    | none => rfl
    | some value =>
      exact congrArg some (hsorted _ (SortedMap.mem_of_lookup_eq_some hlookup))
  · rw [hnone]
    exact .inr ⟨rfl, hdefault⟩

/-- A field is read from what is left of the members as it is from all of them, if it is read as its
default value from those of the defaults. -/
theorem field_of_isLeftOf {α : Type} {name : String} {read : Value → Option α} {standard a : α}
    {left written defaults : List (String × Value)} (hleft : IsLeftOf left written defaults)
    (hdefaults : field defaults name read standard = some standard)
    (hwritten : field written name read standard = some a) :
    field left name read standard = some a := by
  obtain hsame | ⟨hnone, hdefault⟩ := hleft name
  · rw [field, hsame]
    exact hwritten
  · rw [field, ← hdefault] at hdefaults
    rw [field, hnone]
    exact hdefaults.symm.trans hwritten

/-! ### Sections -/

/-- Whether a section is read from whatever is left of the members that are written for it, where
the defaults are the members of the default section. -/
def IsRestored {α : Type} (read : Value → Option α) (write : α → Value) (standard a : α) : Prop :=
  ∀ left, IsLeftOf left (write a).members (write standard).members → read (.table left) = some a

theorem Generation.isRestored (generation : Generation)
    (hfits : membersFit generation.options.entries = true) :
    IsRestored ofValue? toValue {} generation := by
  intro left hleft
  obtain ⟨schema, output, cycles, sources, contexts, options⟩ := generation
  have hschema : field left "schema" (optional Value.string?) none = some schema :=
    field_of_isLeftOf hleft rfl (by cases schema <;> cases output <;> rfl)
  have houtput : field left "gen_output" (optional Value.string?) none = some output :=
    field_of_isLeftOf hleft rfl (by cases schema <;> cases output <;> rfl)
  have hcycles : field left "permit_package_cycles" Value.boolean? false = some cycles :=
    field_of_isLeftOf hleft rfl (by cases schema <;> cases output <;> rfl)
  have hsources : field left "source_inputs" Value.strings? [] = some sources :=
    field_of_isLeftOf hleft rfl
      (by cases schema <;> cases output <;> exact Value.strings?_ofStrings sources)
  have hcontexts : field left "context_inputs" Value.strings? [] = some contexts :=
    field_of_isLeftOf hleft rfl
      (by cases schema <;> cases output <;> exact Value.strings?_ofStrings contexts)
  have hoptions : field left "options" Value.options? .empty = some options :=
    field_of_isLeftOf hleft rfl
      (by cases schema <;> cases output <;> exact Value.options?_entries hfits)
  simp only [ofValue?, Value.fields?, hschema, houtput, hcycles, hsources, hcontexts, hoptions,
    Option.bind_eq_bind, Option.bind_some]
  rfl

theorem Logging.isRestored (logging : Logging) : IsRestored ofValue? toValue {} logging := by
  intro left hleft
  have hlevel : field left "level" Value.string? "info" = some logging.level :=
    field_of_isLeftOf hleft rfl rfl
  have hdebug : field left "debug" Value.boolean? false = some logging.debug :=
    field_of_isLeftOf hleft rfl rfl
  simp only [ofValue?, Value.fields?, hlevel, hdebug, Option.bind_eq_bind, Option.bind_some]
  rfl

theorem Plugins.isRestored (plugins : Plugins) : IsRestored ofValue? toValue {} plugins := by
  intro left hleft
  have hcommands : field left "commands" Value.strings? [] = some plugins.commands :=
    field_of_isLeftOf hleft rfl (Value.strings?_ofStrings plugins.commands)
  have hignores : field left "ignore_errors" Value.boolean? false = some plugins.ignoreErrors :=
    field_of_isLeftOf hleft rfl rfl
  simp only [ofValue?, Value.fields?, hcommands, hignores, Option.bind_eq_bind, Option.bind_some]
  rfl

/-- A time limit is read back. -/
theorem optional_natural64? (n : UInt64) :
    optional Value.natural64? (.integer n.toNat) = some (some n) := by
  rw [optional, Value.natural64?_toNat, Option.map_some]

theorem Timeouts.isRestored (timeouts : Timeouts) : IsRestored ofValue? toValue {} timeouts := by
  intro left hleft
  obtain ⟨handshake, generation⟩ := timeouts
  have hhandshake :
      field left "handshake_secs" (optional Value.natural64?) none = some handshake := by
    refine field_of_isLeftOf hleft rfl ?_
    cases handshake with
    | none => cases generation <;> rfl
    | some n => exact optional_natural64? n
  have hgeneration :
      field left "generation_secs" (optional Value.natural64?) none = some generation := by
    refine field_of_isLeftOf hleft rfl ?_
    cases generation with
    | none => cases handshake <;> rfl
    | some n => cases handshake <;> exact optional_natural64? n
  simp only [ofValue?, Value.fields?, hhandshake, hgeneration, Option.bind_eq_bind,
    Option.bind_some]
  rfl

theorem Generation.hasSortedMembers (generation : Generation)
    (hsorted : ∀ entry ∈ generation.options.entries, entry.2.sorted = entry.2) :
    generation.toValue.HasSortedMembers := by
  have hoptions : Value.sortedMembers generation.options.entries = generation.options.entries :=
    Value.sortedMembers_eq_self generation.options.sorted hsorted
  refine Value.hasSortedMembers_ofFields ?_
  simp [Value.sorted_ofStrings, hoptions, Value.sorted]

theorem Logging.hasSortedMembers (logging : Logging) : logging.toValue.HasSortedMembers :=
  Value.hasSortedMembers_ofFields (by simp [Value.sorted])

theorem Plugins.hasSortedMembers (plugins : Plugins) : plugins.toValue.HasSortedMembers :=
  Value.hasSortedMembers_ofFields (by simp [Value.sorted, Value.sorted_ofStrings])

theorem Timeouts.hasSortedMembers (timeouts : Timeouts) : timeouts.toValue.HasSortedMembers :=
  Value.hasSortedMembers_ofFields (by simp [Value.sorted])

/-- A section that is written as the default section is the default section, as that is what is read
if all of its fields are left out. -/
theorem IsRestored.eq_standard {α : Type} {read : Value → Option α} {write : α → Value}
    {standard a : α} (h : IsRestored read write standard a)
    (hempty : read (.table []) = some standard)
    (hsame : (write a).members = (write standard).members) : standard = a := by
  have hleft : IsLeftOf [] (write a).members (write standard).members :=
    fun name => .inr ⟨rfl, by rw [hsame]⟩
  exact Option.some_inj.mp (hempty.symm.trans (h [] hleft))

/-! ### Documents -/

/-- The document of a configuration without some sections and without some fields, which are given
by the names of their sections and their own. -/
def toDocumentWithout (config : Config) (sections : List String)
    (fields : List (String × String)) : Value :=
  (config.toDocument.mapMembers fun name value => value.without fun field => (name, field) ∈ fields)
    |>.without (· ∈ sections)

/-- Whether sections and fields of a configuration are as in the default configuration. -/
structure AreDefaults (config : Config) (sections : List String) (fields : List (String × String)) :
    Prop where
  sections : ∀ name ∈ sections,
    config.toDocument.members.lookup name = ({} : Config).toDocument.members.lookup name
  fields : ∀ place ∈ fields,
    config.toDocument.fieldAt? place = ({} : Config).toDocument.fieldAt? place

/-- A section is read from what is left of a document. -/
theorem field_sorted_toDocumentWithout {α : Type} {read : Value → Option α} {write : α → Value}
    {standard a : α} {config : Config} {sections : List String} {fields : List (String × String)}
    (name : String) (hrestored : IsRestored read write standard a)
    (hsorted : (write a).HasSortedMembers) (hempty : read (.table []) = some standard)
    (hwritten : config.toDocument.members.lookup name = some (write a))
    (hstandard : ({} : Config).toDocument.members.lookup name = some (write standard))
    (hdefaults : config.AreDefaults sections fields) :
    field (Value.sortedMembers (config.toDocumentWithout sections fields).members) name read
      standard = some a := by
  rw [field, Value.lookup_sortedMembers, toDocumentWithout, Value.lookup_members_without,
    Value.lookup_members_mapMembers, hwritten]
  by_cases hname : name ∈ sections
  · have hsame : write a = write standard := by
      have hlookup := hdefaults.sections name hname
      rw [hwritten, hstandard] at hlookup
      exact Option.some_inj.mp hlookup
    rw [if_pos (decide_eq_true hname)]
    exact congrArg some (hrestored.eq_standard hempty (congrArg Value.members hsame))
  · rw [if_neg (by simpa using hname)]
    have hleft : IsLeftOf ((write a).without fun field => (name, field) ∈ fields).members
        (write a).members (write standard).members := by
      refine isLeftOf_without fun field hfield => ?_
      have hlookup := hdefaults.fields (name, field) (of_decide_eq_true hfield)
      rwa [Value.fieldAt?, Value.fieldAt?, hwritten, hstandard] at hlookup
    exact hrestored _ (hleft.sorted hsorted)

/-- A configuration is read from what is left of its document without defaults, the members of all
tables in order. -/
theorem ofDocument?_sorted_toDocumentWithout {config : Config} {sections : List String}
    {fields : List (String × String)} (hfits : membersFit config.generation.options.entries = true)
    (hsorted : ∀ entry ∈ config.generation.options.entries, entry.2.sorted = entry.2)
    (hdefaults : config.AreDefaults sections fields) :
    ofDocument? (config.toDocumentWithout sections fields).sorted = some config := by
  have hgeneration := field_sorted_toDocumentWithout "generation"
    (config.generation.isRestored hfits) (config.generation.hasSortedMembers hsorted) rfl rfl rfl
    hdefaults
  have hlogging := field_sorted_toDocumentWithout "logging"
    config.logging.isRestored config.logging.hasSortedMembers rfl rfl rfl hdefaults
  have hplugins := field_sorted_toDocumentWithout "plugins"
    config.plugins.isRestored config.plugins.hasSortedMembers rfl rfl rfl hdefaults
  have htimeouts := field_sorted_toDocumentWithout "timeouts"
    config.timeouts.isRestored config.timeouts.hasSortedMembers rfl rfl rfl hdefaults
  have hdocument : (config.toDocumentWithout sections fields).sorted =
    .table (Value.sortedMembers (config.toDocumentWithout sections fields).members) := rfl
  rw [hdocument]
  simp only [ofDocument?, hgeneration, hlogging, hplugins, htimeouts, Option.bind_eq_bind,
    Option.bind_some]
  rfl

/-- Nothing has to be left out. -/
theorem toDocumentWithout_nil (config : Config) :
    config.toDocumentWithout [] [] = config.toDocument := by
  simp only [toDocumentWithout, List.not_mem_nil, decide_false, Value.without_nothing]
  rfl

/-- A configuration is read from its document, the members of all tables in order. -/
theorem ofDocument?_sorted_toDocument {config : Config}
    (hfits : membersFit config.generation.options.entries = true)
    (hsorted : ∀ entry ∈ config.generation.options.entries, entry.2.sorted = entry.2) :
    ofDocument? config.toDocument.sorted = some config := by
  rw [← toDocumentWithout_nil]
  exact ofDocument?_sorted_toDocumentWithout hfits hsorted ⟨by simp, by simp⟩

/-- A configuration is equal to what is read from its document just if none of its options has a NaN
in it. -/
theorem isReloaded_eq {config : Config}
    (hfits : membersFit config.generation.options.entries = true)
    (hsorted : ∀ entry ∈ config.generation.options.entries, entry.2.sorted = entry.2) :
    config.isReloaded = membersNanFree config.generation.options.entries := by
  rw [isReloaded, ofDocument?_sorted_toDocument hfits hsorted]
  exact config.equals_self

/-! ### On disk -/

section Disk

variable {print : Value → Option String} {parse : String → Option Value} {disk saved : Disk}
  {path : String} {config : Config}

/-- A configuration is loaded from a document just if it is the one in the text of the document. -/
theorem load_eq_ok_iff {text : String} (hread : disk.read path = .ok text.toUTF8) :
    load parse disk path = .ok config ↔ ofText? parse text = some config := by
  rw [load, hread]
  dsimp only
  rw [fromUTF8?_toUTF8]
  dsimp only
  cases ofText? parse text with
  | none => exact iff_of_false nofun nofun
  | some found => rw [Except.ok.injEq, Option.some.injEq]

/-- To save a configuration is to write the text of its document. -/
theorem save_eq_ok_iff :
    config.save print disk path = .ok saved ↔
      ∃ text, print config.toDocument = some text ∧ disk.write path text.toUTF8 = .ok saved := by
  rw [save]
  cases print config.toDocument with
  | none => exact iff_of_false nofun nofun
  | some text =>
    simp only [Option.some.injEq, exists_eq_left']
    cases disk.write path text.toUTF8 with
    | error error => exact iff_of_false nofun nofun
    | ok written => rw [Except.ok.injEq, Except.ok.injEq]

end Disk

/-- **Saved configurations.** If parsing a text that has been printed for a document gives back the
document, with the members of its tables in the order of their keys, then a configuration that has
been saved is loaded again, and is equal to what was saved. It is also loaded from each text of what
is left of its document without any sections and fields that are as in the default configuration.
The options of the configuration are what a document can hold, integers of 64 bits and tables with
their members in order, and have no NaN in them.

**Proof sketch.** A section is read field by field, and what is left of it has each field as it was
written or not at all, in which case its default value stands for it (`field_of_isLeftOf`). A section
that is left out is the default section, as the empty table is read as the default section too
(`IsRestored.eq_standard`). The order of the members does not matter, as each is looked up by its
name (`IsLeftOf.sorted`). -/
theorem load_save {print : Value → Option String} {parse : String → Option Value}
    (hundone : ∀ document text, print document = some text → parse text = some document.sorted)
    (config : Config) (hfits : membersFit config.generation.options.entries = true)
    (hsorted : ∀ entry ∈ config.generation.options.entries, entry.2.sorted = entry.2)
    (hnumbers : membersNanFree config.generation.options.entries = true) :
    (∀ {disk saved : Disk} {path : String}, config.save print disk path = .ok saved →
      load parse saved path = .ok config ∧ config.equals config = true) ∧
    ∀ {sections : List String} {fields : List (String × String)},
      config.AreDefaults sections fields → ∀ {disk : Disk} {path text : String},
        disk.read path = .ok text.toUTF8 →
        parse text = some (config.toDocumentWithout sections fields).sorted →
          load parse disk path = .ok config := by
  constructor
  · intro disk saved path hsave
    obtain ⟨text, hprint, hwrite⟩ := save_eq_ok_iff.1 hsave
    refine ⟨(load_eq_ok_iff (Disk.read_write hwrite)).2 ?_, (equals_self config).trans hnumbers⟩
    rw [ofText?, hundone _ _ hprint]
    exact ofDocument?_sorted_toDocument hfits hsorted
  · intro sections fields hdefaults disk path text hread hparse
    refine (load_eq_ok_iff hread).2 ?_
    rw [ofText?, hparse]
    exact ofDocument?_sorted_toDocumentWithout hfits hsorted hdefaults

/-- A configuration in which a plugin has a flag and a table of options. -/
def tabledConfig : Config where
  generation := {
    options := .ofList [("js:flag", .boolean true), ("js:x", .table [("a", .array [.integer (-3)])])] }
  logging := { debug := true }
  timeouts := { handshake := some 5 }

/-- The text that is printed for it. -/
def savedText : String := r#"[generation]
permit_package_cycles = false
source_inputs = []
context_inputs = []

[generation.options]
"js:flag" = true

[generation.options."js:x"]
a = [-3]

[logging]
level = "info"
debug = true

[plugins]
commands = []
ignore_errors = false

[timeouts]
handshake_secs = 5
"#

/-- A printer for this one document. -/
def printTabled (document : Value) : Option String :=
  if document = tabledConfig.toDocument then some savedText else none

/-- What is not as in the default configuration. -/
def tabledText : String := r#"[generation.options]
"js:flag" = true
"js:x" = {a = [-3]}
[logging]
debug = true
[timeouts]
handshake_secs = 5"#

set_option maxRecDepth 100000 in
/-- The configuration is loaded from all of its document and from what has to be in it. -/
theorem load_save_tabledConfig :
    (∃ saved, tabledConfig.save printTabled .empty "rrgen.toml" = .ok saved ∧
      saved.read "rrgen.toml" = .ok savedText.toUTF8 ∧
      load Toml.parse saved "rrgen.toml" = .ok tabledConfig) ∧
    ∃ written, Disk.empty.write "rrgen.toml" tabledText.toUTF8 = .ok written ∧
      load Toml.parse written "rrgen.toml" = .ok tabledConfig := by
  have hundone : ∀ document text, printTabled document = some text →
      Toml.parse text = some document.sorted := by
    intro document text hprint
    obtain ⟨rfl, htext⟩ := Option.ite_none_right_eq_some.1 hprint
    obtain rfl := Option.some.inj htext
    rw [Toml.parse, savedText, String.toList_ofList]
    decide +kernel
  have hwrite (text : String) : Disk.empty.write "rrgen.toml" text.toUTF8 =
      .ok ⟨[(["work", "rrgen.toml"], .document text.toUTF8), (["work"], .directory)]⟩ := rfl
  have hparse : Toml.parse tabledText = some (tabledConfig.toDocumentWithout ["plugins"]
      [("generation", "context_inputs"), ("generation", "permit_package_cycles"),
        ("generation", "source_inputs"), ("logging", "level")]).sorted := by
    rw [Toml.parse, tabledText, String.toList_ofList]
    decide +kernel
  obtain ⟨hsaved, hleft⟩ := load_save hundone tabledConfig (by decide) (by decide) (by decide)
  have hprint : printTabled tabledConfig.toDocument = some savedText := if_pos rfl
  have hsave := save_eq_ok_iff.2 ⟨savedText, hprint, hwrite savedText⟩
  exact ⟨⟨_, hsave, Disk.read_write (hwrite _), (hsaved hsave).1⟩, _, hwrite _,
    hleft ⟨by decide, by decide⟩ (Disk.read_write (hwrite _)) hparse⟩

end Config

end SchemaForge
