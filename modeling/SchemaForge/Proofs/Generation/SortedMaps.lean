import Mathlib.Data.List.Nodup
import SchemaForge.Generation.SortedMap
set_option autoImplicit false

/-!
# What is found in maps with sorted keys

A map is known by what is found in it: its entries are the keys with what is found under them, and
maps in which the same is found under every key are equal.

## Main results

* `SchemaForge.SortedMap.mem_entries_iff` — entries and what is found.
* `SchemaForge.SortedMap.findSome?_entries_eq_some_iff` — the entry that decides a search.
* `SchemaForge.SortedMap.get?_ofList` — what is found in the map of a list.
* `SchemaForge.SortedMap.ext_get?` — a map is known by what is found in it.
-/

namespace SchemaForge.SortedMap

variable {α : Type}

/-! ### Maps of lists -/

/-- Entries in order are those of the map that is made of them. -/
theorem entries_ofList {entries : List (String × α)}
    (h : entries.Pairwise fun a b => a.1 < b.1) : (ofList entries).entries = entries :=
  entries_insertAll empty entries h

/-- Entries that are put into a map answer for their keys, the last one of each, and the map answers
for the other keys. -/
theorem get?_insertAll (map : SortedMap α) (entries : List (String × α)) (key : String) :
    (map.insertAll entries).get? key = (entries.reverse.lookup key).or (map.get? key) := by
  induction entries generalizing map with
  | nil => rfl
  | cons e entries ih =>
    have hstep : map.insertAll (e :: entries) = (map.insert e.1 e.2).insertAll entries := rfl
    rw [hstep, ih, get?_insert, List.reverse_cons, List.lookup_append, Option.or_assoc,
      lookup_cons_ite]
    congr 1
    split <;> rfl

/-- The last entry of each key is found in the map of a list. -/
theorem get?_ofList (entries : List (String × α)) (key : String) :
    (ofList entries).get? key = entries.reverse.lookup key := by
  rw [ofList, get?_insertAll, get?_empty, Option.or_none]

/-! ### Entries -/

/-- What is looked up in a list is one of its entries. -/
theorem mem_of_lookup_eq_some {entries : List (String × α)} {key : String} {value : α}
    (h : entries.lookup key = some value) : (key, value) ∈ entries := by
  obtain ⟨before, after, rfl, -⟩ := List.lookup_eq_some_iff.1 h
  exact List.mem_append_right before List.mem_cons_self

/-- In a list with increasing keys every entry answers for its key. -/
theorem lookup_of_mem {entries : List (String × α)} {key : String} {value : α}
    (hsorted : entries.Pairwise fun a b => a.1 < b.1) (h : (key, value) ∈ entries) :
    entries.lookup key = some value := by
  induction entries with
  | nil => cases h
  | cons e entries ih =>
    obtain ⟨hfirst, hrest⟩ := List.pairwise_cons.1 hsorted
    rw [lookup_cons_ite]
    rcases List.mem_cons.1 h with rfl | h
    · exact if_pos rfl
    · have hlt : e.1 < key := hfirst (key, value) h
      have hne : key ≠ e.1 := by
        rintro rfl
        exact String.lt_irrefl e.1 hlt
      rw [if_neg hne, ih hrest h]

/-- The entries of a map are the keys with what is found under them. -/
theorem mem_entries_iff (map : SortedMap α) (key : String) (value : α) :
    (key, value) ∈ map.entries ↔ map.get? key = some value :=
  ⟨lookup_of_mem map.sorted, mem_of_lookup_eq_some⟩

/-- What is looked for in the entries one after the other is found in the entry with the least key
of those that give anything. -/
theorem findSome?_entries_eq_some_iff {β : Type} (map : SortedMap α) (f : String × α → Option β)
    (b : β) :
    map.entries.findSome? f = some b ↔
      ∃ e ∈ map.entries, f e = some b ∧ ∀ other ∈ map.entries, other.1 < e.1 → f other = none := by
  rw [List.findSome?_eq_some_iff]
  constructor
  · rintro ⟨before, e, after, hentries, he, hbefore⟩
    have hsorted := map.sorted
    rw [hentries, List.pairwise_append, List.pairwise_cons] at hsorted
    rw [hentries]
    refine ⟨e, by simp, he, fun other hother hlt => ?_⟩
    rcases List.mem_append.1 hother with hother | hother
    · exact hbefore other hother
    · -- behind the entry no key is less
      rcases List.mem_cons.1 hother with rfl | hother
      · exact absurd hlt (String.lt_irrefl _)
      · exact absurd (String.lt_trans hlt (hsorted.2.1.1 other hother)) (String.lt_irrefl _)
  · rintro ⟨e, hmem, he, hless⟩
    obtain ⟨before, after, hentries⟩ := List.append_of_mem hmem
    have hsorted := map.sorted
    rw [hentries, List.pairwise_append] at hsorted
    refine ⟨before, e, after, hentries, he, fun other hother => hless other ?_ ?_⟩
    · rw [hentries]
      exact List.mem_append_left _ hother
    · exact hsorted.2.2 other hother e List.mem_cons_self

/-- **Extensionality.** Maps in which the same is found under every key are equal.

**Proof sketch.** They have the same entries, and both have them in order. -/
theorem ext_get? {a b : SortedMap α} (h : ∀ key, a.get? key = b.get? key) : a = b := by
  have hnodup (map : SortedMap α) : map.entries.Nodup := by
    refine map.sorted.imp ?_
    rintro x y hlt rfl
    exact String.lt_irrefl x.1 hlt
  have hperm : a.entries.Perm b.entries := by
    rw [List.perm_ext_iff_of_nodup (hnodup a) (hnodup b)]
    rintro ⟨key, value⟩
    rw [mem_entries_iff, mem_entries_iff, h]
  have hentries : a.entries = b.entries := by
    refine hperm.eq_of_pairwise ?_ a.sorted b.sorted
    intro x y _ _ hxy hyx
    exact absurd (String.lt_trans hxy hyx) (String.lt_irrefl x.1)
  cases a
  cases b
  cases hentries
  rfl

end SchemaForge.SortedMap
