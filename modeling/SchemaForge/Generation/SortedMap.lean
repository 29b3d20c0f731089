set_option autoImplicit false

/-!
# Maps with sorted text keys

A map is the list of its entries in strictly increasing order of the keys, by code points, so maps
with the same entries are equal.

## Main definitions

* `SchemaForge.SortedMap` — the maps.
* `SchemaForge.SortedMap.get?`, `SchemaForge.SortedMap.insert`, `SchemaForge.SortedMap.erase`.
* `SchemaForge.SortedMap.ofList` — the map of a list of entries, the last of each key.

## Main results

* `SchemaForge.SortedMap.get?_insert`, `SchemaForge.SortedMap.get?_erase` — each operation changes
  what is found under its own key only.
* `SchemaForge.SortedMap.ofList_entries` — a map is the map of its entries.
-/

namespace SchemaForge

/-- A map with text keys, as the list of its entries in order. -/
structure SortedMap (α : Type) where
  entries : List (String × α)
  sorted : entries.Pairwise fun a b => a.1 < b.1

namespace SortedMap

variable {α : Type}

instance [DecidableEq α] : DecidableEq (SortedMap α) := fun a b =>
  if h : a.entries = b.entries then
    isTrue (by cases a; cases b; simp_all)
  else isFalse (fun he => h (by rw [he]))

instance [Repr α] : Repr (SortedMap α) := ⟨fun map n => reprPrec map.entries n⟩

/-- The map without entries. -/
def empty : SortedMap α := ⟨[], List.Pairwise.nil⟩

instance : Inhabited (SortedMap α) := ⟨empty⟩

/-- What is found under `key`. -/
def get? (map : SortedMap α) (key : String) : Option α := map.entries.lookup key

/-- The entries with `key` put in its place. -/
def insertEntry (key : String) (value : α) : List (String × α) → List (String × α)
  | [] => [(key, value)]
  | (k, v) :: rest =>
    if key < k then (key, value) :: (k, v) :: rest
    else if key = k then (key, value) :: rest
    else (k, v) :: insertEntry key value rest

/-- The keys after an insertion are the key and those before. -/
theorem mem_insertEntry {key : String} {value : α} {entries : List (String × α)}
    {e : String × α} (h : e ∈ insertEntry key value entries) :
    e = (key, value) ∨ e ∈ entries := by
  induction entries with
  | nil => simpa [insertEntry] using h
  | cons entry rest ih =>
    obtain ⟨k, v⟩ := entry
    unfold insertEntry at h
    split at h
    · simpa using h
    · split at h
      · rcases List.mem_cons.1 h with rfl | h
        · exact Or.inl rfl
        · exact Or.inr (List.mem_cons_of_mem _ h)
      · rcases List.mem_cons.1 h with rfl | h
        · exact Or.inr List.mem_cons_self
        · exact (ih h).imp id (List.mem_cons_of_mem _)

/-- A text that is neither below nor equal to another one is above it. -/
theorem lt_of_not_lt_of_ne {a b : String} (h : ¬ a < b) (hne : a ≠ b) : b < a := by
  have hle := String.not_lt.1 h
  grind

/-- An insertion keeps the entries sorted. -/
theorem sorted_insertEntry (key : String) (value : α) {entries : List (String × α)}
    (h : entries.Pairwise fun a b => a.1 < b.1) :
    (insertEntry key value entries).Pairwise fun a b => a.1 < b.1 := by
  induction entries with
  | nil => simp [insertEntry]
  | cons entry rest ih =>
    obtain ⟨k, v⟩ := entry
    obtain ⟨hhead, hrest⟩ := List.pairwise_cons.1 h
    unfold insertEntry
    split
    · rename_i hlt
      refine List.pairwise_cons.2 ⟨fun e he => ?_, h⟩
      rcases List.mem_cons.1 he with rfl | he
      · exact hlt
      · exact String.lt_trans hlt (hhead e he)
    · split
      · rename_i heq
        subst heq
        exact List.pairwise_cons.2 ⟨hhead, hrest⟩
      · rename_i hnlt hne
        refine List.pairwise_cons.2 ⟨fun e he => ?_, ih hrest⟩
        rcases mem_insertEntry he with rfl | he
        · exact lt_of_not_lt_of_ne hnlt hne
        · exact hhead e he

/-- The map with `value` under `key`. -/
def insert (map : SortedMap α) (key : String) (value : α) : SortedMap α :=
  ⟨insertEntry key value map.entries, sorted_insertEntry key value map.sorted⟩

/-- The map with nothing under `key`. -/
def erase (map : SortedMap α) (key : String) : SortedMap α :=
  ⟨map.entries.filter fun e => e.1 != key, map.sorted.filter _⟩

/-- The map with each of the entries put in, one after the other. -/
def insertAll (map : SortedMap α) (entries : List (String × α)) : SortedMap α :=
  entries.foldl (fun map e => map.insert e.1 e.2) map

/-- The map of the entries; of entries with the same key the last one counts. -/
def ofList (entries : List (String × α)) : SortedMap α := empty.insertAll entries

/-- Whether something is found under `key`. -/
def contains (map : SortedMap α) (key : String) : Bool := (map.get? key).isSome

/-- The keys in order. -/
def keys (map : SortedMap α) : List String := map.entries.map Prod.fst

/-- The number of entries. -/
def size (map : SortedMap α) : Nat := map.entries.length

/-- The first entry answers for its key. -/
theorem lookup_cons_ite (other key : String) (value : α) (entries : List (String × α)) :
    ((key, value) :: entries).lookup other =
      if other = key then some value else entries.lookup other := by
  by_cases h : other = key
  · subst h
    simp
  · have hb : (other == key) = false := by simpa using h
    simp [List.lookup_cons, hb, h]

/-- After an insertion the key gives the new value and every other key what it gave. -/
theorem lookup_insertEntry (key : String) (value : α) (entries : List (String × α))
    (other : String) :
    (insertEntry key value entries).lookup other =
      if other = key then some value else entries.lookup other := by
  induction entries with
  | nil => simp [insertEntry, lookup_cons_ite]
  | cons entry rest ih =>
    obtain ⟨k, v⟩ := entry
    unfold insertEntry
    split
    · rw [lookup_cons_ite]
    · split
      · rename_i heq
        subst heq
        simp only [lookup_cons_ite]
        split <;> rfl
      · rename_i hne
        simp only [lookup_cons_ite, ih]
        split
        · rename_i hk
          subst hk
          simp [Ne.symm hne]
        · rfl

@[simp] theorem get?_empty (key : String) : (empty : SortedMap α).get? key = none := rfl

theorem get?_insert (map : SortedMap α) (key : String) (value : α) (other : String) :
    (map.insert key value).get? other = if other = key then some value else map.get? other :=
  lookup_insertEntry key value map.entries other

/-- Entries with another key do not matter to a lookup. -/
theorem lookup_filter_ne (key other : String) (entries : List (String × α)) :
    (entries.filter fun e => e.1 != key).lookup other =
      if other = key then none else entries.lookup other := by
  induction entries with
  | nil => simp
  | cons entry rest ih =>
    obtain ⟨k, v⟩ := entry
    by_cases hk : k = key
    · subst hk
      simp only [bne_self_eq_false, Bool.false_eq_true, not_false_eq_true, List.filter_cons_of_neg,
        ih, lookup_cons_ite]
      split <;> rfl
    · have hb : (k != key) = true := by simpa using hk
      simp only [List.filter_cons, hb, if_true, lookup_cons_ite, ih]
      split
      · rename_i ho
        subst ho
        simp [hk]
      · rfl

theorem get?_erase (map : SortedMap α) (key other : String) :
    (map.erase key).get? other = if other = key then none else map.get? other :=
  lookup_filter_ne key other map.entries

/-! ### Maps from lists -/

/-- An entry above all others goes behind them. -/
theorem insertEntry_of_forall_lt {key : String} {value : α} {entries : List (String × α)}
    (h : ∀ e ∈ entries, e.1 < key) :
    insertEntry key value entries = entries ++ [(key, value)] := by
  induction entries with
  | nil => rfl
  | cons entry rest ih =>
    obtain ⟨k, v⟩ := entry
    have hk : k < key := h (k, v) List.mem_cons_self
    have hnlt : ¬ key < k := fun hlt => String.lt_irrefl k (String.lt_trans hk hlt)
    have hne : key ≠ k := fun he => String.lt_irrefl k (by rw [he] at hk; exact hk)
    simp [insertEntry, hnlt, hne, ih fun e he => h e (List.mem_cons_of_mem _ he)]

/-- Entries in order above those of a map go behind them. -/
theorem entries_insertAll (map : SortedMap α) (entries : List (String × α))
    (h : (map.entries ++ entries).Pairwise fun a b => a.1 < b.1) :
    (map.insertAll entries).entries = map.entries ++ entries := by
  induction entries generalizing map with
  | nil => simp [insertAll]
  | cons e rest ih =>
    have hlt : ∀ a ∈ map.entries, a.1 < e.1 := fun a ha =>
      (List.pairwise_append.1 h).2.2 a ha e List.mem_cons_self
    have he : (map.insert e.1 e.2).entries = map.entries ++ [e] := insertEntry_of_forall_lt hlt
    have := ih (map.insert e.1 e.2) (by rw [he]; simpa using h)
    simpa [insertAll, he] using this

/-- A map is the map of its entries. -/
theorem ofList_entries (map : SortedMap α) : ofList map.entries = map := by
  have h := entries_insertAll empty map.entries (by simpa [empty] using map.sorted)
  obtain ⟨entries, sorted⟩ := map
  simp only [ofList]
  cases hm : empty.insertAll entries with
  | mk es s => simp_all [empty]

end SortedMap

end SchemaForge
