import Mathlib.Data.List.Dedup
import Mathlib.Data.List.Forall2
import SchemaForge.Resolver.Lookup
set_option autoImplicit false

/-!
# What is found through an index

An index maps keys to positions, and a lookup goes on to the position. Suppose that the entries of
the index are made for the members of a list, one after the other, and that each position leads back
to its member. Then a lookup is a plain search for the last member with the key. If moreover no two
positions are the same, the members whose own position is in the index are the last ones of their
keys.

## Main definitions

* `SchemaForge.Leads` — the positions of some entries lead to the members of a list.
* `SchemaForge.lastOfEach` — the members of a list that are the last ones of their keys.

## Main results

* `SchemaForge.Leads.lookup` — a lookup finds the last member with the key.
* `SchemaForge.Leads.lookupAll` — all positions of a key lead to all members with the key.
* `SchemaForge.filter_indexed` — the members whose position is in the index.
-/

namespace SchemaForge

variable {α β κ π : Type}

/-! ### The last member that passes a test -/

theorem findRev?_cons (test : α → Bool) (a : α) (list : List α) :
    (a :: list).findRev? test = (list.findRev? test).or (if test a then some a else none) := by
  rw [List.findRev?]
  cases list.findRev? test <;> rfl

theorem findRev?_append (test : α → Bool) (list more : List α) :
    (list ++ more).findRev? test = (more.findRev? test).or (list.findRev? test) := by
  simp only [List.findRev?_eq_find?_reverse, List.reverse_append, List.find?_append]

theorem findRev?_map (test : β → Bool) (f : α → β) (list : List α) :
    (list.map f).findRev? test = (list.findRev? fun a => test (f a)).map f := by
  simp only [List.findRev?_eq_find?_reverse, ← List.map_reverse, List.find?_map]
  rfl

theorem findRev?_eq_none_iff (test : α → Bool) (list : List α) :
    list.findRev? test = none ↔ ∀ a ∈ list, test a = false := by
  simp [List.findRev?_eq_find?_reverse]

/-- A search for the last member with a key finds one with this key, or there is none. -/
theorem findRev?_key_cases [BEq κ] [LawfulBEq κ] (key : β → κ) (list : List β) (k : κ) :
    (∃ found ∈ list, key found = k ∧ (list.findRev? fun b => key b == k) = some found) ∨
      (¬ ∃ b ∈ list, key b = k) ∧ (list.findRev? fun b => key b == k) = none := by
  cases hfound : list.findRev? fun b => key b == k with
  | none =>
    refine .inr ⟨?_, rfl⟩
    rintro ⟨b, hb, hkey⟩
    rw [findRev?_eq_none_iff] at hfound
    exact beq_eq_false_iff_ne.1 (hfound b hb) hkey
  | some found =>
    rw [List.findRev?_eq_find?_reverse] at hfound
    refine .inl ⟨found, List.mem_reverse.1 (List.mem_of_find?_eq_some hfound), ?_, rfl⟩
    simpa using List.find?_some hfound

/-! ### Entries that lead to the members of a list -/

/-- What is made of the members of a list is made of them with their numbers. -/
theorem flatMap_eq_flatMap_zipIdx (f : α → List β) (list : List α) :
    list.flatMap f = list.zipIdx.flatMap fun entry => f entry.1 := by
  rw [← List.flatMap_map Prod.fst f, List.zipIdx_map_fst]

/-- The entries are made for the members of the list, one after the other: each has the key of its
member, and its position leads to the node that belongs to the member. -/
def Leads (at? : π → Option α) (key : β → κ) (node : β → α) (entries : List (κ × π))
    (list : List β) : Prop :=
  List.Forall₂ (fun entry b => entry.1 = key b ∧ at? entry.2 = some (node b)) entries list

namespace Leads

variable {at? : π → Option α} {key : β → κ} {node : β → α} {entries : List (κ × π)} {list : List β}

/-- Positions that lead to some nodes lead to what is made of these. -/
theorem imp {γ : Type} {at' : π → Option γ} {node' : β → γ} (h : Leads at? key node entries list)
    (hat : ∀ position b, at? position = some (node b) → at' position = some (node' b)) :
    Leads at' key node' entries list :=
  List.Forall₂.imp (fun _ _ hentry => ⟨hentry.1, hat _ _ hentry.2⟩) h

theorem append {more : List (κ × π)} {rest : List β} (h : Leads at? key node entries list)
    (hrest : Leads at? key node more rest) :
    Leads at? key node (entries ++ more) (list ++ rest) :=
  List.rel_append h hrest

/-- Entries and members that are made of the same list. -/
theorem map {γ : Type} {listed : List γ} {entry : γ → κ × π} {member : γ → β}
    (h : ∀ c ∈ listed, (entry c).1 = key (member c) ∧ at? (entry c).2 = some (node (member c))) :
    Leads at? key node (listed.map entry) (listed.map member) := by
  rw [Leads, List.forall₂_map_left_iff, List.forall₂_map_right_iff, List.forall₂_same]
  exact h

/-- The same for several entries and members at a time. -/
theorem flatMap {γ : Type} {listed : List γ} {entriesOf : γ → List (κ × π)}
    {membersOf : γ → List β} (h : ∀ c ∈ listed, Leads at? key node (entriesOf c) (membersOf c)) :
    Leads at? key node (listed.flatMap entriesOf) (listed.flatMap membersOf) := by
  induction listed with
  | nil => exact .nil
  | cons c listed ih =>
    rw [List.flatMap_cons, List.flatMap_cons]
    refine append (h c List.mem_cons_self) (ih ?_)
    intro c' hc'
    exact h c' (List.mem_cons_of_mem c hc')

/-- Entries that are made of the members of a list and their numbers. -/
theorem map_zipIdx {γ : Type} {listed : List γ} {entry : γ × Nat → κ × π} {member : γ → β}
    (h : ∀ c index, listed[index]? = some c →
      (entry (c, index)).1 = key (member c) ∧ at? (entry (c, index)).2 = some (node (member c))) :
    Leads at? key node (listed.zipIdx.map entry) (listed.map member) := by
  rw [← List.zipIdx_map_fst 0 (listed.map member), List.zipIdx_map, List.map_map]
  apply map
  rintro ⟨c, index⟩ hc
  exact h c index (List.mem_zipIdx_iff_getElem?.1 hc)

/-- The same for several entries at a time. -/
theorem flatMap_zipIdx {γ : Type} {listed : List γ} {entriesOf : γ × Nat → List (κ × π)}
    {membersOf : γ → List β}
    (h : ∀ c index, listed[index]? = some c →
      Leads at? key node (entriesOf (c, index)) (membersOf c)) :
    Leads at? key node (listed.zipIdx.flatMap entriesOf) (listed.flatMap membersOf) := by
  rw [flatMap_eq_flatMap_zipIdx membersOf]
  apply flatMap
  rintro ⟨c, index⟩ hc
  exact h c index (List.mem_zipIdx_iff_getElem?.1 hc)

/-- Every position leads to the node of a member with the key of the entry. -/
theorem exists_of_mem {entry : κ × π} (h : Leads at? key node entries list)
    (hentry : entry ∈ entries) : ∃ b ∈ list, entry.1 = key b ∧ at? entry.2 = some (node b) := by
  induction h with
  | nil => cases hentry
  | cons hfirst _ ih =>
    rcases List.mem_cons.1 hentry with rfl | hentry
    · exact ⟨_, List.mem_cons_self, hfirst⟩
    · obtain ⟨b, hb, hleads⟩ := ih hentry
      exact ⟨b, List.mem_cons_of_mem _ hb, hleads⟩

variable [BEq κ]

/-- The first entry of a key leads to the node of the first member with the key. -/
theorem find? (h : Leads at? key node entries list) (k : κ) :
    ((entries.find? fun entry => entry.1 == k).map Prod.snd).bind at? =
      (list.find? fun b => key b == k).map node := by
  induction h with
  | nil => rfl
  | @cons entry b _ _ hentry _ ih =>
    rw [List.find?_cons, List.find?_cons, hentry.1]
    cases key b == k with
    | true => exact hentry.2
    | false => exact ih

/-- All positions of a key lead to the nodes of all members with the key, in order. -/
theorem lookupAll (h : Leads at? key node entries list) (k : κ) :
    ((entries.filter fun entry => entry.1 == k).map Prod.snd).filterMap at? =
      (list.filter fun b => key b == k).map node := by
  induction h with
  | nil => rfl
  | @cons entry b _ _ hentry _ ih =>
    rw [List.filter_cons, List.filter_cons, hentry.1]
    cases key b == k with
    | true =>
      rw [if_pos rfl, if_pos rfl, List.map_cons, List.map_cons,
        List.filterMap_cons_some hentry.2, ih]
    | false =>
      rw [if_neg Bool.false_ne_true, if_neg Bool.false_ne_true, ih]

variable [LawfulBEq κ] [Hashable κ]

/-- **Lookup.** A lookup through the index finds the node of the last member with the key. -/
theorem lookup (h : Leads at? key node entries list) (k : κ) :
    (indexOf entries)[k]?.bind at? = (list.findRev? fun b => key b == k).map node := by
  rw [getElem?_indexOf, List.findRev?_eq_find?_reverse]
  exact find? (List.forall₂_reverse_iff.2 h) k

/-- What the index gives to a key leads to the node of the last member with this key. -/
theorem exists_of_getElem? (h : Leads at? key node entries list) {k : κ} {position : π}
    (hposition : (indexOf entries)[k]? = some position) :
    ∃ b, key b = k ∧ (list.findRev? fun b => key b == k) = some b ∧
      at? position = some (node b) := by
  have hlookup := h.lookup k
  rw [hposition, Option.bind_some] at hlookup
  rcases findRev?_key_cases key list k with ⟨b, -, hkey, hlast⟩ | ⟨hnone, -⟩
  · rw [hlast] at hlookup
    exact ⟨b, hkey, hlast, hlookup⟩
  · rw [getElem?_indexOf] at hposition
    obtain ⟨entry, hfind, rfl⟩ := Option.map_eq_some_iff.1 hposition
    have hentry : entry.1 = k := by simpa using List.find?_some hfind
    obtain ⟨b, hb, hkey, -⟩ :=
      h.exists_of_mem (List.mem_reverse.1 (List.mem_of_find?_eq_some hfind))
    exact absurd ⟨b, hb, hkey.symm.trans hentry⟩ hnone

end Leads

/-! ### All positions of a key -/

/-- An index that collects positions gives a key those it had, then those of its entries. -/
theorem getD_foldl_insert [BEq κ] [LawfulBEq κ] [Hashable κ] (entries : List (κ × π))
    (index : Std.HashMap κ (List π)) (k : κ) :
    (entries.foldl (fun index (entry : κ × π) =>
        index.insert entry.1 (index.getD entry.1 [] ++ [entry.2])) index).getD k [] =
      index.getD k [] ++ (entries.filter fun entry => entry.1 == k).map Prod.snd := by
  induction entries generalizing index with
  | nil => simp
  | cons entry entries ih =>
    rw [List.foldl_cons, ih, Std.HashMap.getD_insert, List.filter_cons]
    by_cases hkey : entry.1 == k
    · rw [if_pos hkey, if_pos hkey, eq_of_beq hkey, List.map_cons, List.append_assoc]
      rfl
    · rw [if_neg hkey, if_neg hkey]

/-! ### The last members of each key -/

/-- The members of the list that share their key with no later member, in order. -/
def lastOfEach [DecidableEq κ] (key : β → κ) : List β → List β
  | [] => []
  | b :: list =>
    if ∃ later ∈ list, key later = key b then lastOfEach key list
    else b :: lastOfEach key list

section LastOfEach

variable [DecidableEq κ] (key : β → κ)

/-- They are a longest part of the list in which no two members share a key. -/
theorem lastOfEach_eq_pwFilter (list : List β) :
    lastOfEach key list = list.pwFilter fun a b => key a ≠ key b := by
  induction list with
  | nil => rfl
  | cons b list ih =>
    have hkept : (∀ later ∈ list.pwFilter fun a b => key a ≠ key b, key b ≠ key later) ↔
        ∀ later ∈ list, key b ≠ key later := by
      apply List.forall_mem_pwFilter
      intro x y z hxz
      by_cases hxy : key x = key y
      · exact .inr (hxy ▸ hxz)
      · exact .inl hxy
    rw [lastOfEach]
    split_ifs with hlater
    · obtain ⟨later, hmem, hkey⟩ := hlater
      rw [ih, List.pwFilter_cons_of_neg]
      intro hall
      exact hkept.1 hall later hmem hkey.symm
    · rw [ih, List.pwFilter_cons_of_pos]
      refine hkept.2 ?_
      intro later hmem hkey
      exact hlater ⟨later, hmem, hkey.symm⟩

/-- No two of the last members have the same key. -/
theorem nodup_map_lastOfEach (list : List β) : ((lastOfEach key list).map key).Nodup := by
  rw [List.Nodup, List.pairwise_map, lastOfEach_eq_pwFilter]
  exact List.pairwise_pwFilter list

/-- Every key of the list has its last member. -/
theorem mem_map_lastOfEach (list : List β) (k : κ) :
    k ∈ (lastOfEach key list).map key ↔ k ∈ list.map key := by
  induction list with
  | nil => rfl
  | cons b list ih =>
    rw [lastOfEach, List.map_cons, List.mem_cons]
    split_ifs with hlater
    · obtain ⟨later, hmem, hkey⟩ := hlater
      rw [ih]
      constructor
      · exact .inr
      · rintro (rfl | hk)
        · exact hkey ▸ List.mem_map_of_mem hmem
        · exact hk
    · rw [List.map_cons, List.mem_cons, ih]

/-- The last members of a list whose keys are taken through a map. -/
theorem map_lastOfEach {γ : Type} (f : γ → β) (list : List γ) :
    (lastOfEach (fun c => key (f c)) list).map f = lastOfEach key (list.map f) := by
  rw [lastOfEach_eq_pwFilter, lastOfEach_eq_pwFilter, List.pwFilter_map]

/-- Of each key, the last member is there and no other one. -/
theorem filter_lastOfEach (list : List β) (k : κ) :
    (lastOfEach key list).filter (fun b => key b == k) =
      (list.findRev? fun b => key b == k).toList := by
  induction list with
  | nil => rfl
  | cons b list ih =>
    rw [lastOfEach, findRev?_cons]
    rcases findRev?_key_cases key list (key b) with ⟨later, hmem, hsame, hlast⟩ | ⟨hnone, hlast⟩
    · rw [if_pos ⟨later, hmem, hsame⟩, ih]
      by_cases hkey : key b = k
      · -- `b` is left out, and a later member with its key is found
        rw [← hkey, hlast, Option.some_or]
      · rw [if_neg (beq_eq_false_iff_ne.2 hkey ▸ Bool.false_ne_true), Option.or_none]
    · rw [if_neg hnone, List.filter_cons, ih]
      by_cases hkey : key b = k
      · rw [← hkey, hlast, beq_self_eq_true]
        rfl
      · rw [beq_eq_false_iff_ne.2 hkey, if_neg Bool.false_ne_true, if_neg Bool.false_ne_true,
          Option.or_none]

end LastOfEach

/-! ### The members whose position is in the index -/

section Indexed

variable [DecidableEq κ] [Hashable κ] [BEq π] [LawfulBEq π]

/-- **Winners.** Let no two members of a list have the same position. Then the members whose own
position the index gives to their key are the last ones of their keys.

**Proof sketch.** By induction on the list. The first member is in the index if and only if no later
one has its key, for the position of a later one is another one. For a later member it makes no
difference whether the first one is there. -/
theorem filter_indexed (key : α → κ) {listed : List (π × α)} (h : (listed.map Prod.fst).Nodup) :
    (listed.filter fun entry =>
        (indexOf (listed.map fun entry => (key entry.2, entry.1)))[key entry.2]? ==
          some entry.1) =
      lastOfEach (fun entry => key entry.2) listed := by
  have hindex : ∀ (listed : List (π × α)) (k : κ),
      (indexOf (listed.map fun entry => (key entry.2, entry.1)))[k]? =
        (listed.findRev? fun entry => key entry.2 == k).map Prod.fst := by
    intro listed k
    rw [getElem?_indexOf, ← List.findRev?_eq_find?_reverse, findRev?_map, Option.map_map]
    rfl
  simp only [hindex]
  induction listed with
  | nil => rfl
  | cons first listed ih =>
    rw [List.map_cons, List.nodup_cons] at h
    have hothers : ∀ entry ∈ listed,
        ((((first :: listed).findRev? fun other => key other.2 == key entry.2).map Prod.fst) ==
            some entry.1) =
          (((listed.findRev? fun other => key other.2 == key entry.2).map Prod.fst) ==
            some entry.1) := by
      intro entry hentry
      rcases findRev?_key_cases (fun other : π × α => key other.2) listed (key entry.2) with
        ⟨found, -, -, hlast⟩ | ⟨hnone, -⟩
      · rw [findRev?_cons, hlast, Option.some_or]
      · exact absurd ⟨entry, hentry, rfl⟩ hnone
    rw [List.filter_cons, List.filter_congr hothers, ih h.2, lastOfEach, findRev?_cons]
    rcases findRev?_key_cases (fun other : π × α => key other.2) listed (key first.2) with
      ⟨later, hmem, hsame, hlast⟩ | ⟨hnone, hlast⟩
    · have hposition : later.1 ≠ first.1 := by
        intro heq
        exact h.1 (heq ▸ List.mem_map_of_mem hmem)
      have hlater : ∃ later ∈ listed, key later.2 = key first.2 := ⟨later, hmem, hsame⟩
      rw [if_pos hlater, hlast, Option.some_or, Option.map_some, if_neg]
      simpa using hposition
    · rw [if_neg hnone, hlast, Option.none_or, if_pos (beq_self_eq_true (key first.2)),
        Option.map_some, if_pos (beq_self_eq_true _)]

end Indexed

end SchemaForge
