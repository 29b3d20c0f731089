import SchemaForge.Proofs.Generation.Setting
set_option autoImplicit false

/-!
# The values of a key

What the values of one key are after options have been written, replaced or taken out is said here
key by key. No way of writing options leaves a key without a value, so a key is absent just where it
has no values.

## Main definitions

* `SchemaForge.GenerationOptions.Filled` — every key that is present has a value.

## Main results

* `SchemaForge.GenerationOptions.getAll_ofPairs` — the values of a key in a list of pairs.
* `SchemaForge.GenerationOptions.Filled.get?_eq` — what is found under a key.
-/

namespace SchemaForge.GenerationOptions

variable {options : GenerationOptions} {key other : String} {values : List String}

/-! ### Values -/

/-- A value that is put in is the only one of its key. -/
theorem getAll_put (options : GenerationOptions) (key value other : String) :
    (options.put key value).getAll other =
      if other = key then [value] else options.getAll other := by
  rw [getAll, put, SortedMap.get?_insert]
  split <;> rfl

/-- A key that is taken out has no values. -/
theorem getAll_remove (options : GenerationOptions) (key other : String) :
    (options.remove key).2.getAll other = if other = key then [] else options.getAll other := by
  rw [getAll, remove, SortedMap.get?_erase]
  split <;> rfl

/-- Values that are added come behind those of their key. -/
theorem getAll_appendAll (options : GenerationOptions) (key : String) (values : List String)
    (other : String) :
    (options.appendAll key values).getAll other =
      if other = key then options.getAll other ++ values else options.getAll other := by
  by_cases hkey : other = key
  · subst hkey
    rw [if_pos rfl]
    by_cases hvalues : values = []
    · subst hvalues
      exact (List.append_nil _).symm
    · rw [getAll, get?_appendAll_self hvalues, Option.getD_some]
  · rw [if_neg hkey, getAll, get?_appendAll_of_ne hkey, getAll]

/-- Pairs add their values to what is there. -/
theorem getAll_foldl_append (options : GenerationOptions) (pairs : List (String × String))
    (key : String) :
    (pairs.foldl (fun options pair => options.append pair.1 pair.2) options).getAll key =
      options.getAll key ++
        pairs.filterMap fun pair => if pair.1 = key then some pair.2 else none := by
  induction pairs generalizing options with
  | nil => exact (List.append_nil _).symm
  | cons pair pairs ih =>
    rw [List.foldl_cons, ih, List.filterMap_cons]
    by_cases hkey : pair.1 = key
    · rw [hkey, getAll_append, if_pos rfl, List.append_assoc, List.singleton_append]
    · have hother : (options.append pair.1 pair.2).getAll key = options.getAll key := by
        rw [getAll, get?_append, if_neg (Ne.symm hkey), getAll]
      rw [hother, if_neg hkey]

/-- The values of a key in a list of pairs are those of the pairs with this key, in order, whatever
stands between them. -/
theorem getAll_ofPairs (pairs : List (String × String)) (key : String) :
    (ofPairs pairs).getAll key =
      pairs.filterMap fun pair => if pair.1 = key then some pair.2 else none :=
  getAll_foldl_append empty pairs key

/-! ### Keys with values -/

/-- Every key that is present has a value. -/
def Filled (options : GenerationOptions) : Prop := ∀ key, options.values.get? key ≠ some []

namespace Filled

theorem empty : Filled .empty := fun key h => by
  rw [GenerationOptions.empty, SortedMap.get?_empty] at h
  cases h

theorem append (h : options.Filled) (key value : String) : (options.append key value).Filled := by
  intro other
  rw [get?_append]
  split
  · simp
  · exact h other

theorem appendAll (h : options.Filled) (key : String) (values : List String) :
    (options.appendAll key values).Filled := by
  induction values generalizing options with
  | nil => exact h
  | cons value values ih => exact ih (h.append key value)

theorem put (h : options.Filled) (key value : String) : (options.put key value).Filled := by
  intro other
  rw [GenerationOptions.put, SortedMap.get?_insert]
  split
  · simp
  · exact h other

theorem remove (h : options.Filled) (key : String) : (options.remove key).2.Filled := by
  intro other
  rw [GenerationOptions.remove, SortedMap.get?_erase]
  split
  · simp
  · exact h other

/-- A key is absent just where it has no values. -/
theorem get?_eq (h : options.Filled) (key : String) :
    options.values.get? key =
      if options.getAll key = [] then none else some (options.getAll key) := by
  rw [getAll]
  cases hvalues : options.values.get? key with
  | none => rfl
  | some values =>
    have hne : values ≠ [] := fun hnil => h key (hnil ▸ hvalues)
    exact (if_neg hne).symm

end Filled

/-- Options that are read from pairs are filled. -/
theorem filled_ofPairs (pairs : List (String × String)) : (ofPairs pairs).Filled := by
  have hfold (options : GenerationOptions) (h : options.Filled) :
      (pairs.foldl (fun options pair => options.append pair.1 pair.2) options).Filled := by
    induction pairs generalizing options with
    | nil => exact h
    | cons pair pairs ih => exact ih _ (h.append pair.1 pair.2)
  exact hfold .empty .empty

end SchemaForge.GenerationOptions
