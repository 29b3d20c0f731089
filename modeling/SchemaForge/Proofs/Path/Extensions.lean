import Mathlib.Data.List.TakeWhile
import SchemaForge.Proofs.Path
set_option autoImplicit false

/-!
# Paths with another extension

An extension is a part of the last name of a path, and what is cut off with it is the last name or
something behind it. So all that stands before the last name stays: a path that begins at the root,
or that goes up, still does so when its extension has been replaced.

## Main definitions

* `SchemaForge.Path.KeepsHarm` — a path that begins at the root, or goes up, where another one does.

## Main results

* `SchemaForge.Path.exists_tail_of_splitName?` — what stands around the last name of a path.
* `SchemaForge.Path.keepsHarm_withExtension` — what a path keeps when its extension is replaced.
-/

namespace SchemaForge

open Text

/-- A text without separators is one segment. -/
theorem Text.segmentChars_of_not_mem {sep : Char} {cs : List Char} (h : sep ∉ cs) :
    segmentChars sep cs = [cs] := by
  induction cs with
  | nil => rfl
  | cons c cs ih =>
    rw [List.mem_cons, not_or] at h
    rw [segmentChars, ih h.2]
    exact if_neg (Ne.symm h.1)

namespace Path

variable {path before name : List Char}

/-! ### Harmful components -/

/-- A path goes up if one of its segments does. -/
theorem parent_mem_components_iff {path : String} :
    .parent ∈ components path ↔ ['.', '.'] ∈ segmentChars '/' path.toList := by
  have hbeginning : .parent ∉ beginning path.toList := by
    rw [beginning]
    split
    · decide
    · split <;> decide
  rw [components, componentsOf_eq, List.mem_append, or_iff_right hbeginning, segmentComponents,
    List.mem_filterMap]
  constructor
  · rintro ⟨segment, hsegment, hparent⟩
    rw [componentOf?] at hparent
    split at hparent
    · cases hparent
    · split at hparent
      · rename_i heq
        rwa [← heq]
      · cases hparent
  · intro h
    exact ⟨['.', '.'], h, rfl⟩

/-- A path begins at the root if it is absolute. -/
theorem root_mem_components_iff {path : String} :
    .root ∈ components path ↔ isAbsolute path = true := by
  have hsegments : .root ∉ segmentComponents path.toList := by
    intro h
    obtain ⟨segment, -, hsegment⟩ := List.mem_filterMap.1 h
    rw [componentOf?] at hsegment
    split at hsegment
    · cases hsegment
    · split at hsegment <;> cases hsegment
  rw [components, componentsOf_eq, List.mem_append, or_iff_left hsegments, beginning, isAbsolute,
    beq_iff_eq]
  split
  · rename_i hroot
    exact iff_of_true List.mem_cons_self hroot
  · rename_i hroot
    refine iff_of_false ?_ hroot
    split <;> decide

/-! ### The last name of a path -/

/-- What is dropped at the end of a path read backwards adds no segment that goes up. -/
theorem exists_tail_of_dropTail (backwards : List Char) :
    ∃ tail, backwards.reverse = (dropTail backwards).reverse ++ tail ∧
      ∀ cs, ['.', '.'] ∈ segmentChars '/' (cs ++ tail) → ['.', '.'] ∈ segmentChars '/' cs := by
  induction backwards using dropTail.induct with
  | case1 rest ih =>
    obtain ⟨tail, hrest, htail⟩ := ih
    refine ⟨tail ++ ['/'], ?_, fun cs h => htail cs ?_⟩
    · rw [dropTail, List.reverse_cons, hrest, List.append_assoc]
    · rw [← List.append_assoc, segmentChars_append, List.mem_append] at h
      exact h.resolve_right (by decide)
  | case2 rest ih =>
    obtain ⟨tail, hrest, htail⟩ := ih
    refine ⟨tail ++ ['/', '.'], ?_, fun cs h => htail cs ?_⟩
    · rw [dropTail, List.reverse_cons, List.reverse_cons, hrest, List.append_assoc,
        List.append_assoc]
      rfl
    · rw [← List.append_assoc, segmentChars_append, List.mem_append] at h
      exact h.resolve_right (by decide)
  | case3 rest hslash hdot =>
    refine ⟨[], ?_, fun cs h => by rwa [List.append_nil] at h⟩
    rw [dropTail, List.append_nil]
    · exact hslash
    · exact hdot

/-- **The last name.** A path with a last name is what stands before it, which ends in a slash if
there is anything, the name, and what is behind it. Only what stands before the name can go up. -/
theorem exists_tail_of_splitName? (h : splitName? path = some (before, name)) :
    ∃ tail, path = before ++ (name ++ tail) ∧ name ≠ [] ∧ '/' ∉ name ∧
      (before = [] ∨ ∃ front, before = front ++ ['/']) ∧
      ['.', '.'] ∉ segmentChars '/' (name ++ tail) := by
  rw [splitName?] at h
  generalize hbackwards : dropTail path.reverse = backwards at h
  split at h
  · cases h
  · rename_i hproper
    cases h
    simp only [Bool.or_eq_true, decide_eq_true_eq, not_or] at hproper
    obtain ⟨tail, hpath, htail⟩ := exists_tail_of_dropTail path.reverse
    rw [hbackwards, List.reverse_reverse] at hpath
    have hsplit : backwards.reverse =
        (backwards.dropWhile (· != '/')).reverse ++ (backwards.takeWhile (· != '/')).reverse := by
      rw [← List.reverse_append, List.takeWhile_append_dropWhile]
    have hslash : '/' ∉ (backwards.takeWhile (· != '/')).reverse := by
      rw [List.mem_reverse]
      intro hmem
      simpa using List.mem_takeWhile_imp hmem
    refine ⟨tail, ?_, hproper.1.1, hslash, ?_, fun hparent => ?_⟩
    · rw [hpath, hsplit, List.append_assoc]
    · cases hfront : backwards.dropWhile (· != '/') with
      | nil => exact .inl rfl
      | cons c front =>
        have hc : c = '/' := by
          have hhead := List.head?_dropWhile_not (· != '/') backwards
          rw [hfront] at hhead
          simpa using hhead
        exact .inr ⟨front.reverse, by rw [List.reverse_cons, hc]⟩
    · have hname := htail _ hparent
      rw [segmentChars_of_not_mem hslash, List.mem_singleton] at hname
      exact hproper.2 hname.symm

/-! ### Another extension -/

/-- Where the first path begins at the root or goes up, the second one does so too. -/
structure KeepsHarm (path other : List Char) : Prop where
  root : path.head? = some '/' → other.head? = some '/'
  parent : ['.', '.'] ∈ segmentChars '/' path → ['.', '.'] ∈ segmentChars '/' other

theorem KeepsHarm.refl (path : List Char) : KeepsHarm path path := ⟨id, id⟩

theorem KeepsHarm.trans {other last : List Char} (h : KeepsHarm path other)
    (hlast : KeepsHarm other last) : KeepsHarm path last :=
  ⟨fun hroot => hlast.root (h.root hroot), fun hparent => hlast.parent (h.parent hparent)⟩

/-- Whatever stands in the place of the last name and of what is behind it, the harm is kept. -/
theorem keepsHarm_of_splitName? (h : splitName? path = some (before, name)) (further : List Char) :
    KeepsHarm path (before ++ further) := by
  obtain ⟨tail, hpath, hname, hslash, hbefore, hparent⟩ := exists_tail_of_splitName? h
  obtain ⟨c, cs, hcs⟩ := List.exists_cons_of_ne_nil hname
  rcases hbefore with rfl | ⟨front, rfl⟩
  · -- the whole path is the last name and what is behind it
    rw [List.nil_append] at hpath
    refine ⟨fun hroot => ?_, fun hup => absurd (hpath ▸ hup) hparent⟩
    rw [hpath, hcs, List.cons_append, List.head?_cons, Option.some.injEq] at hroot
    exact absurd (hcs ▸ hroot ▸ List.mem_cons_self) hslash
  · rw [List.append_assoc, List.singleton_append] at hpath ⊢
    constructor
    · intro hroot
      rw [hpath] at hroot
      cases front with
      | nil => rfl
      | cons d front => exact hroot
    · intro hup
      rw [hpath, segmentChars_append, List.mem_append, or_iff_left hparent] at hup
      rw [segmentChars_append]
      exact List.mem_append_left _ hup

/-- An extension is shorter than its name. -/
theorem length_lt_of_splitExtension {old : List Char} (h : (splitExtension name).2 = some old) :
    old.length < name.length := by
  rw [splitExtension] at h
  split at h
  · cases h
  · cases h
  · rename_i stem extension hstem hsplit
    cases h
    rw [splitLastChars, Option.map_eq_some_iff] at hsplit
    obtain ⟨⟨after, front⟩, hfirst, heq⟩ := hsplit
    cases heq
    have hlength := congrArg List.length (splitFirstChars_eq_some_iff.1 hfirst).1
    rw [List.length_reverse, List.length_append, List.length_cons] at hlength
    rw [List.length_reverse]
    omega

theorem keepsHarm_replaceFrom (extension path : List Char) :
    KeepsHarm path (replaceFrom extension path) := by
  rw [replaceFrom]
  split
  · exact .refl path
  · rename_i before name h
    rw [List.append_assoc]
    exact keepsHarm_of_splitName? h _

/-- **Another extension.** A path that begins at the root or goes up still does so when its
extension is replaced.

**Proof sketch.** Both when the old extension is cut off and when the new one is put behind the
stem, all that stands before the last name stays (`keepsHarm_of_splitName?`). -/
theorem keepsHarm_withExtension (extension path : String) :
    KeepsHarm path.toList (withExtension extension path).toList := by
  rw [withExtension, String.toList_ofList]
  refine .trans ?_ (keepsHarm_replaceFrom _ _)
  split
  · exact .refl _
  · rename_i old hold
    obtain ⟨⟨before, name⟩, hsplit, hextension⟩ := Option.bind_eq_some_iff.1 hold
    obtain ⟨tail, hpath, -⟩ := exists_tail_of_splitName? hsplit
    -- the extension is no longer than what stands behind the front of the path
    have hshort := length_lt_of_splitExtension hextension
    have hlength := congrArg List.length hpath
    rw [List.length_append, List.length_append] at hlength
    have hcount : before.length ≤ path.toList.length - old.length := by omega
    generalize path.toList.length - old.length = count at hcount ⊢
    have hfront : path.toList.take count =
        before ++ (name ++ tail).take (count - before.length) := by
      rw [hpath, List.take_append, List.take_of_length_le hcount]
    rw [hfront]
    exact keepsHarm_of_splitName? hsplit _

/-- A path that is absolute or goes up does not lead below where it starts, whatever extension it
is given. -/
theorem isBelow_withExtension_of_harm {path : String} (extension : String)
    (h : isAbsolute path = true ∨ .parent ∈ components path) :
    isBelow (withExtension extension path) = false := by
  have hkept := keepsHarm_withExtension extension path
  rw [Bool.eq_false_iff]
  intro hbelow
  rw [isBelow_iff] at hbelow
  rcases h with hroot | hparent
  · refine hbelow .root (root_mem_components_iff.2 ?_)
    exact beq_iff_eq.2 (hkept.root (beq_iff_eq.1 hroot))
  · refine hbelow .parent (parent_mem_components_iff.2 ?_)
    exact hkept.parent (parent_mem_components_iff.1 hparent)

end Path

end SchemaForge
