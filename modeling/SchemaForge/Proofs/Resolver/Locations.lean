import Mathlib.Data.List.Find
import SchemaForge.Proofs.Resolver.Indexes
set_option autoImplicit false

/-!
# The file at a location

A file is found at a location by a key that joins the base path and the relative path with a colon.
Paths may hold colons themselves, so one key can be divided in more than one place, and a file may
be found at a location that has other paths than the file.

## Main definitions

* `SchemaForge.Location.samePaths` — whether two locations are in one file.
* `SchemaForge.Location.DividedBefore` — the paths of two locations divide one text at two colons.

## Main results

* `SchemaForge.Location.fileKey_eq_iff` — which locations have the same key.
* `SchemaForge.Resolver.last_file_of_key_found` — which file is found at a location.
* `SchemaForge.Resolver.not_samePaths_of_second_colon` — a file that is found elsewhere.
-/

namespace SchemaForge

namespace Location

/-- Whether the locations are in one file: both paths are the same, whatever the positions. -/
def samePaths (a b : Location) : Bool :=
  a.basePath == b.basePath && a.relativePath == b.relativePath

/-- The base path of `b` begins with that of `a` and goes on, behind a colon, with what the relative
path of `a` begins with: both divide the same text, and `a` does so at an earlier colon. -/
def DividedBefore (a b : Location) : Prop :=
  ∃ part : String, b.basePath.text = a.basePath.text ++ ":" ++ part ∧
    a.relativePath.text = part ++ ":" ++ b.relativePath.text

/-- A base path without a colon divides the text at its first colon. -/
theorem not_dividedBefore_of_no_colon {a b : Location} (h : ':' ∉ b.basePath.text.toList) :
    ¬ a.DividedBefore b := by
  rintro ⟨part, hbase, -⟩
  apply h
  rw [hbase, String.toList_append, String.toList_append]
  exact List.mem_append_left _ (List.mem_append_right _ (by decide))

theorem samePaths_iff (a b : Location) :
    a.samePaths b = true ↔ a.basePath = b.basePath ∧ a.relativePath = b.relativePath := by
  simp [samePaths]

/-- Paths that are divided at different colons have the same key. -/
theorem DividedBefore.fileKey_eq {a b : Location} (h : a.DividedBefore b) :
    a.fileKey = b.fileKey := by
  obtain ⟨part, hbase, hrelative⟩ := h
  simp only [fileKey, hbase, hrelative, String.append_assoc]

/-- A text that is divided at two colons is divided at the same one, or at an earlier and a later
one. -/
theorem colon_cases {base relative base' relative' : List Char}
    (h : base ++ ':' :: relative = base' ++ ':' :: relative') :
    (base = base' ∧ relative = relative') ∨
      (∃ part, base' = base ++ ':' :: part ∧ relative = part ++ ':' :: relative') ∨
      ∃ part, base = base' ++ ':' :: part ∧ relative' = part ++ ':' :: relative := by
  rcases List.append_eq_append_iff.1 h with ⟨between, hbase, hrest⟩ | ⟨between, hbase, hrest⟩
  · cases between with
    | nil =>
      rw [List.append_nil] at hbase
      exact .inl ⟨hbase.symm, (List.cons.inj hrest).2⟩
    | cons colon part =>
      obtain ⟨rfl, hrelative⟩ := List.cons.inj hrest
      exact .inr (.inl ⟨part, hbase, hrelative⟩)
  · cases between with
    | nil =>
      rw [List.append_nil] at hbase
      exact .inl ⟨hbase, (List.cons.inj hrest).2.symm⟩
    | cons colon part =>
      obtain ⟨rfl, hrelative⟩ := List.cons.inj hrest
      exact .inr (.inr ⟨part, hbase, hrelative⟩)

/-- The letters of a key. -/
theorem toList_fileKey (location : Location) :
    location.fileKey.toList =
      location.basePath.text.toList ++ ':' :: location.relativePath.text.toList := by
  rw [fileKey, String.toList_append, String.toList_append, List.append_assoc]
  rfl

/-- A division of letters at two colons is one of texts. -/
theorem dividedBefore_of_toList {a b : Location} {part : List Char}
    (hbase : b.basePath.text.toList = a.basePath.text.toList ++ ':' :: part)
    (hrelative : a.relativePath.text.toList = part ++ ':' :: b.relativePath.text.toList) :
    a.DividedBefore b := by
  refine ⟨String.ofList part, ?_, ?_⟩
  · apply String.toList_inj.1
    simp [hbase]
  · apply String.toList_inj.1
    simp [hrelative]

/-- **Keys.** Two locations have the same key if and only if their paths are the same, or divide the
same text at different colons.

**Proof sketch.** Let the keys be the same text. The shorter base path is the beginning of the other
one. Either it is the whole of it, or the colon behind it is in the other one, and what follows
there up to its end is the part that the two divide differently. -/
theorem fileKey_eq_iff (a b : Location) :
    a.fileKey = b.fileKey ↔ a.samePaths b = true ∨ a.DividedBefore b ∨ b.DividedBefore a := by
  constructor
  · intro h
    have hletters := congrArg String.toList h
    rw [toList_fileKey, toList_fileKey] at hletters
    rcases colon_cases hletters with
      ⟨hbase, hrelative⟩ | ⟨part, hbase, hrelative⟩ | ⟨part, hbase, hrelative⟩
    · refine .inl ((samePaths_iff a b).2 ⟨?_, ?_⟩)
      · exact congrArg SourcePath.mk (String.toList_inj.1 hbase)
      · exact congrArg SourcePath.mk (String.toList_inj.1 hrelative)
    · exact .inr (.inl (dividedBefore_of_toList hbase hrelative))
    · exact .inr (.inr (dividedBefore_of_toList hbase hrelative))
  · rintro (h | h | h)
    · obtain ⟨hbase, hrelative⟩ := (samePaths_iff a b).1 h
      rw [fileKey, fileKey, hbase, hrelative]
    · exact h.fileKey_eq
    · exact h.fileKey_eq.symm

end Location

namespace Resolver

/-- The file that is found at a location is the last one whose location has the same key. -/
theorem fileAtLocation?_eq_findRev? (resolver : Resolver) (location : Location) :
    resolver.fileAtLocation? location = resolver.files.findRev? fun file =>
      file.location.fileKey == location.fileKey := by
  have hleads : Leads (fun index : Nat => resolver.files[index]?)
      (fun file : SchemaFile => file.location.fileKey) id
      (resolver.files.zipIdx.map fun entry => (entry.1.location.fileKey, entry.2))
      (resolver.files.map id) := by
    apply Leads.map_zipIdx
    intro file fileIndex hfile
    exact ⟨rfl, hfile⟩
  have h := hleads.lookup location.fileKey
  rw [Option.map_id, List.map_id] at h
  exact h

/-- **Location.** The file that is found at a location is the last one with the same key, that is,
the last one whose paths are those of the location or divide the same text at another colon. So if
no file divides the text of the location at another colon, it is the last one with both paths. -/
theorem last_file_of_key_found (resolver : Resolver) (location : Location) :
    (resolver.fileAtLocation? location = resolver.files.findRev? fun file =>
        file.location.fileKey == location.fileKey) ∧
      (∀ file : SchemaFile, file.location.fileKey = location.fileKey ↔
        file.location.samePaths location = true ∨ file.location.DividedBefore location ∨
          location.DividedBefore file.location) ∧
      ((∀ file ∈ resolver.files, ¬ file.location.DividedBefore location ∧
          ¬ location.DividedBefore file.location) →
        resolver.fileAtLocation? location = resolver.files.findRev? fun file =>
          file.location.samePaths location) := by
  refine ⟨resolver.fileAtLocation?_eq_findRev? location,
    fun file => file.location.fileKey_eq_iff location, ?_⟩
  intro h
  rw [fileAtLocation?_eq_findRev?, List.findRev?_eq_find?_reverse,
    List.findRev?_eq_find?_reverse]
  apply List.find?_congr
  intro file hfile
  obtain ⟨hbefore, hafter⟩ := h file (List.mem_reverse.1 hfile)
  rw [Bool.eq_iff_iff, beq_iff_eq, file.location.fileKey_eq_iff location]
  constructor
  · rintro (hsame | hdivided | hdivided)
    · exact hsame
    · exact absurd hdivided hbefore
    · exact absurd hdivided hafter
  · exact .inl

/-- A file with the given paths and nothing in it. -/
def fileWithPaths (base relative : String) : SchemaFile :=
  ⟨"f", ⟨"p"⟩, [], [], [], ⟨⟨base⟩, ⟨relative⟩, none, none⟩, [], []⟩

/-- Of two files with colons in their relative paths, the one with the paths of the location is
found, wherever in it the location is. -/
theorem last_file_of_key_found_relative_colon :
    let resolver : Resolver := ⟨[fileWithPaths "a" "b:c", fileWithPaths "a" "b:d"]⟩
    let location : Location := ⟨⟨"a"⟩, ⟨"b:c"⟩, some 3, some 7⟩
    (∀ file ∈ resolver.files, ¬ file.location.DividedBefore location ∧
        ¬ location.DividedBefore file.location) ∧
      resolver.fileAtLocation? location = some (fileWithPaths "a" "b:c") := by
  intro resolver location
  have hapart : ∀ file ∈ resolver.files, ¬ file.location.DividedBefore location ∧
      ¬ location.DividedBefore file.location := by
    have hbase : ∀ file ∈ resolver.files, ':' ∉ file.location.basePath.text.toList := by decide
    intro file hfile
    constructor
    · exact Location.not_dividedBefore_of_no_colon (by decide)
    · exact Location.not_dividedBefore_of_no_colon (hbase file hfile)
  refine ⟨hapart, ?_⟩
  rw [(last_file_of_key_found resolver location).2.2 hapart]
  decide

/-! ### A file that is found elsewhere -/

/-- A file is found at a location with other paths: the paths `a` and `b:c` of the file and the
paths `a:b` and `c` of the location have the same key. -/
theorem not_samePaths_of_second_colon :
    ¬ ∀ (resolver : Resolver) (location : Location),
      resolver.fileAtLocation? location = resolver.files.findRev? fun file =>
        file.location.samePaths location := by
  intro h
  have hfound := h ⟨[fileWithPaths "a" "b:c"]⟩ ⟨⟨"a:b"⟩, ⟨"c"⟩, none, none⟩
  rw [fileAtLocation?_eq_findRev?] at hfound
  revert hfound
  decide

end Resolver

end SchemaForge
