import Mathlib.Data.List.DropRight
import SchemaForge.Proofs.Generation.Values
import SchemaForge.Proofs.Text.ByteOrder
set_option autoImplicit false

/-!
# The history of options

Options are changed one after the other: values are put in, added or taken out, and options are made
anew of pairs. A log keeps each value that is written, and notes when the values of a key are given
up. The values of a key are those that have been written for it since.

## Main definitions

* `SchemaForge.GenerationOptions.Change` — a change of options.
* `SchemaForge.GenerationOptions.after` — the options after changes.
* `SchemaForge.GenerationOptions.log` — the log of changes.
* `SchemaForge.GenerationOptions.recorded` — the values of a key in a log.

## Main results

* `SchemaForge.GenerationOptions.getAll_apply` — a change does to the values what it does to the
  log.
* `SchemaForge.GenerationOptions.after_eq_recorded` — what is in the options after any changes.
-/

namespace SchemaForge.GenerationOptions

variable {options : GenerationOptions} {key : String}

/-! ### Changes -/

/-- A change of options. -/
inductive Change where
  /-- The value takes the place of all values of the key. -/
  | put (key value : String)
  /-- The value comes behind the values of the key. -/
  | append (key value : String)
  | remove (key : String)
  /-- The options are made anew of the pairs. -/
  | collect (pairs : List (String × String))
  deriving DecidableEq, Repr

/-- The options after a change. -/
def Change.apply (options : GenerationOptions) : Change → GenerationOptions
  | .put key value => options.put key value
  | .append key value => options.append key value
  | .remove key => (options.remove key).2
  | .collect pairs => ofPairs pairs

/-- The options after changes, of which there were none at first. -/
def after (changes : List Change) : GenerationOptions := changes.foldl Change.apply empty

/-- Whether a change is about a key. -/
def Change.concerns (key : String) : Change → Bool
  | .put other _ | .append other _ | .remove other => other == key
  | .collect _ => true

/-! ### Logs -/

/-- An entry of a log. -/
inductive LogEntry where
  | write (key value : String)
  /-- The values of the key are given up. -/
  | forget (key : String)
  /-- The values of all keys are given up. -/
  | forgetAll
  deriving DecidableEq, Repr

/-- Whether the values of the key are given up. -/
def LogEntry.forgets (key : String) : LogEntry → Bool
  | .write _ _ => false
  | .forget other => other == key
  | .forgetAll => true

/-- The value that is written for the key. -/
def LogEntry.valueFor? (key : String) : LogEntry → Option String
  | .write other value => if other = key then some value else none
  | .forget _ | .forgetAll => none

/-- What a change writes into the log. -/
def Change.entries : Change → List LogEntry
  | .put key value => [.forget key, .write key value]
  | .append key value => [.write key value]
  | .remove key => [.forget key]
  | .collect pairs => .forgetAll :: pairs.map fun pair => .write pair.1 pair.2

/-- The log of changes. -/
def log (changes : List Change) : List LogEntry := changes.flatMap Change.entries

/-- The values that have been written for the key since its values were given up for the last
time. -/
def recorded (log : List LogEntry) (key : String) : List String :=
  (log.rtakeWhile fun entry => !entry.forgets key).filterMap (·.valueFor? key)

variable {entries more : List LogEntry} {entry : LogEntry}

/-- Entries that give up nothing of the key add what they write for it. -/
theorem recorded_append (h : ∀ entry ∈ more, entry.forgets key = false) :
    recorded (entries ++ more) key =
      recorded entries key ++ more.filterMap (·.valueFor? key) := by
  have hmore : ∀ entry ∈ more.reverse, (!entry.forgets key) = true := by simpa using h
  simp only [recorded, List.rtakeWhile, List.reverse_append]
  rw [List.takeWhile_append_of_pos hmore, List.reverse_append, List.reverse_reverse,
    List.filterMap_append]

/-- What was written before the values of the key were given up does not count. -/
theorem recorded_append_cons (hentry : entry.forgets key = true)
    (h : ∀ entry ∈ more, entry.forgets key = false) :
    recorded (entries ++ entry :: more) key = more.filterMap (·.valueFor? key) := by
  have hnone : recorded (entries ++ [entry]) key = [] := by
    rw [recorded, List.rtakeWhile_concat, if_neg (by simp [hentry]), List.filterMap_nil]
  rw [← List.singleton_append, ← List.append_assoc, recorded_append h, hnone, List.nil_append]

/-- A change does to the values of each key what it does to the log. -/
theorem getAll_apply (h : ∀ key, options.getAll key = recorded entries key) (change : Change)
    (key : String) :
    (change.apply options).getAll key = recorded (entries ++ change.entries) key := by
  cases change with
  | put other value =>
    rw [Change.apply, Change.entries, getAll_put]
    split
    · rename_i hkey
      subst hkey
      rw [recorded_append_cons (by simp [LogEntry.forgets]) (by simp [LogEntry.forgets])]
      simp [LogEntry.valueFor?]
    · rename_i hkey
      rw [recorded_append (by simp [LogEntry.forgets, Ne.symm hkey]), h]
      simp [LogEntry.valueFor?, Ne.symm hkey]
  | append other value =>
    have hvalues := getAll_appendAll options other [value] key
    rw [Change.apply, Change.entries, recorded_append (by simp [LogEntry.forgets]), ← h]
    refine hvalues.trans ?_
    split
    · rename_i hkey
      simp [LogEntry.valueFor?, hkey]
    · rename_i hkey
      simp [LogEntry.valueFor?, Ne.symm hkey]
  | remove other =>
    rw [Change.apply, Change.entries, getAll_remove]
    split
    · rename_i hkey
      subst hkey
      rw [recorded_append_cons (by simp [LogEntry.forgets]) (List.forall_mem_nil _),
        List.filterMap_nil]
    · rename_i hkey
      rw [recorded_append (by simp [LogEntry.forgets, Ne.symm hkey]), h]
      simp [LogEntry.valueFor?]
  | collect pairs =>
    have hwrites : ∀ entry ∈ pairs.map fun pair => LogEntry.write pair.1 pair.2,
        entry.forgets key = false := by
      intro entry hentry
      obtain ⟨pair, -, rfl⟩ := List.mem_map.1 hentry
      rfl
    rw [Change.apply, Change.entries, getAll_ofPairs, recorded_append_cons rfl hwrites,
      List.filterMap_map]
    rfl

/-- The values of a key are those that are recorded for it in the log of all changes. -/
theorem getAll_after (changes : List Change) (key : String) :
    (after changes).getAll key = recorded (log changes) key := by
  induction changes using List.reverseRecOn generalizing key with
  | nil => rfl
  | append_singleton changes change ih =>
    have hafter : after (changes ++ [change]) = change.apply (after changes) := by
      rw [after, List.foldl_append]
      rfl
    have hlog : log (changes ++ [change]) = log changes ++ change.entries := by
      rw [log, List.flatMap_append, List.flatMap_singleton]
      rfl
    rw [hafter, hlog, getAll_apply ih]

/-! ### What changes keep -/

/-- No change leaves a key without a value. -/
theorem Filled.apply (h : options.Filled) (change : Change) : (change.apply options).Filled := by
  cases change with
  | put key value => exact h.put key value
  | append key value => exact h.append key value
  | remove key => exact h.remove key
  | collect pairs => exact filled_ofPairs pairs

theorem filled_after (changes : List Change) : (after changes).Filled := by
  induction changes using List.reverseRecOn with
  | nil => exact Filled.empty
  | append_singleton changes change ih =>
    rw [after, List.foldl_append]
    exact ih.apply change

/-- A change does nothing to a key that it is not about. -/
theorem get?_apply (options : GenerationOptions) {change : Change}
    (h : change.concerns key = false) :
    (change.apply options).values.get? key = options.values.get? key := by
  cases change with
  | put other value =>
    have hne : other ≠ key := beq_eq_false_iff_ne.1 h
    rw [Change.apply, get?_put, if_neg hne.symm]
  | append other value =>
    have hne : other ≠ key := beq_eq_false_iff_ne.1 h
    rw [Change.apply, get?_append, if_neg hne.symm]
  | remove other =>
    have hne : other ≠ key := beq_eq_false_iff_ne.1 h
    rw [Change.apply, remove, SortedMap.get?_erase, if_neg hne.symm]
  | collect pairs => cases h

/-- A key is present just if it has a value. -/
theorem Filled.contains_iff (h : options.Filled) :
    options.contains key = true ↔ options.getAll key ≠ [] := by
  rw [contains, SortedMap.contains, h.get?_eq]
  split
  · rename_i hnone
    simp [hnone]
  · rename_i hsome
    simp [hsome]

/-- The entries of options are the keys that have values, with all of these. -/
theorem Filled.mem_raw_iff (h : options.Filled) {values : List String} :
    (key, values) ∈ options.raw ↔ values ≠ [] ∧ options.getAll key = values := by
  rw [GenerationOptions.mem_raw_iff, h.get?_eq]
  split
  · rename_i hnone
    simp [hnone, eq_comm]
  · rename_i hsome
    rw [Option.some.injEq]
    exact ⟨fun heq => ⟨heq ▸ hsome, heq⟩, fun hvalues => hvalues.2⟩

/-- **Options are what their history says.** Let options be changed in any way, from the empty
options on. Then the values of each key are those that have been written for it since its values
were put in, taken out or made anew for the last time, in the order in which they were written. When
the key is taken out, it is just these values that are given back, or none if there are none. The
first of them is the value of the key, and the key is present just if there is one. The entries are
the keys with their values in strictly increasing order of the bytes of the keys, so no key comes
twice, and no key is without a value. A further change does nothing to a key that it is not about.
Of pairs, each key has the values that stand with it, in order, whatever stands between them.

**Proof sketch.** A change does to the values of each key what it does to the log (`getAll_apply`),
so both say the same after any changes. No change leaves a key without a value (`Filled.apply`), so
what is found under a key is determined by its values (`Filled.get?_eq`). The order of texts is that
of their bytes (`Text.toBytes_lt_toBytes_iff`). -/
theorem after_eq_recorded (changes : List Change) :
    (∀ key, (after changes).getAll key = recorded (log changes) key) ∧
    (∀ key, ((after changes).remove key).1 =
      if recorded (log changes) key = [] then none else some (recorded (log changes) key)) ∧
    (∀ (change : Change) key, change.concerns key = false →
      (change.apply (after changes)).getAll key = (after changes).getAll key ∧
        (change.apply (after changes)).contains key = (after changes).contains key) ∧
    (∀ key, (after changes).get? key = ((after changes).getAll key).head?) ∧
    (∀ key, (after changes).contains key = true ↔ (after changes).getAll key ≠ []) ∧
    (after changes).raw.Pairwise (fun a b => Text.toBytes a.1 < Text.toBytes b.1) ∧
    (∀ key values, (key, values) ∈ (after changes).raw ↔
      values ≠ [] ∧ (after changes).getAll key = values) ∧
    ∀ pairs key, (ofPairs pairs).getAll key =
      pairs.filterMap fun pair => if pair.1 = key then some pair.2 else none := by
  have hfilled := filled_after changes
  refine ⟨getAll_after changes, fun key => ?_, fun change key hkey => ?_, fun _ => rfl,
    fun key => hfilled.contains_iff, ?_, fun key values => hfilled.mem_raw_iff, getAll_ofPairs⟩
  · rw [remove, ← getAll_after]
    exact hfilled.get?_eq key
  · have hget := get?_apply (after changes) hkey
    rw [getAll, getAll, contains, contains, SortedMap.contains, SortedMap.contains, hget]
    exact ⟨rfl, rfl⟩
  · simp only [Text.toBytes_lt_toBytes_iff]
    exact (after changes).values.sorted

/-- Changes of all kinds. -/
def mixedChanges : List Change :=
  [.append "k" "1", .collect [("k", "2"), ("é", "3"), ("k", "4")], .append "z" "5", .put "é" "6",
    .remove "z", .append "k" "2"]

/-- What is left of the changes, and one more change that is about another key. -/
theorem after_eq_recorded_mixedChanges :
    (after mixedChanges).getAll "k" = ["2", "4", "2"] ∧
      ((after mixedChanges).remove "é").1 = some ["6"] ∧
      ((after mixedChanges).remove "z").1 = none ∧
      (Change.remove "é").concerns "k" = false ∧
      ((Change.remove "é").apply (after mixedChanges)).getAll "k" = ["2", "4", "2"] ∧
      (ofPairs [("k", "2"), ("é", "3"), ("k", "4")]).getAll "k" = ["2", "4"] := by
  obtain ⟨hvalues, hremoved, hothers, -, -, -, -, hpairs⟩ := after_eq_recorded mixedChanges
  have hconcerns : (Change.remove "é").concerns "k" = false := by decide
  have hk : (after mixedChanges).getAll "k" = ["2", "4", "2"] := (hvalues "k").trans (by decide)
  refine ⟨hk, ?_, ?_, hconcerns, ?_, ?_⟩
  · exact (hremoved "é").trans (by decide)
  · exact (hremoved "z").trans (by decide)
  · exact (hothers (.remove "é") "k" hconcerns).1.trans hk
  · exact (hpairs _ "k").trans (by decide)

end SchemaForge.GenerationOptions
