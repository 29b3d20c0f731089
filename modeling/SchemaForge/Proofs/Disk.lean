import SchemaForge.Disk
set_option autoImplicit false

/-!
# What has been written is read

A document is written at the place that its path leads to. No directory is written over by that, so
the path still leads to the same place.

## Main definitions

* `SchemaForge.Disk.SparesDirectories` — the directories of a disk are still there later.

## Main results

* `SchemaForge.Disk.SparesDirectories.locate` — then a path leads to the same place.
* `SchemaForge.Disk.read_eq_ok_iff`, `SchemaForge.Disk.write_eq_ok_iff` — what is read and written.
* `SchemaForge.Disk.read_write` — a document that has been written is read.
* `SchemaForge.fromUTF8?_toUTF8` — and so is a text.
-/

namespace SchemaForge

/-- The bytes of a text are read as this text. -/
theorem fromUTF8?_toUTF8 (s : String) : String.fromUTF8? s.toUTF8 = some s := by
  rw [String.fromUTF8?, String.toUTF8_eq_toByteArray, dif_pos s.isValidUTF8]
  rfl

namespace Disk

variable {disk later written : Disk} {place target : List String} {entry : Entry}

/-! ### What a change leaves as it is -/

/-- What is put at a place leaves the other places as they are. -/
theorem lookup_set_of_ne (h : place ≠ target) :
    (disk.set target entry).lookup place = disk.lookup place := by
  have hne : (place == target) = false := beq_false_of_ne h
  rw [lookup, lookup, set, List.lookup_cons, hne]

/-- Where something is put it is found, unless it is put at the root. -/
theorem lookup_set_self (h : target ≠ []) : (disk.set target entry).lookup target = some entry := by
  rw [lookup, if_neg h, set, List.lookup_cons, beq_self_eq_true]

/-- One step into a directory. -/
theorem enter_cons {c : Path.Component} {cs : List Path.Component} {last : List String} :
    disk.enter place (c :: cs) = .ok last ↔
      ∃ next, step place c = .ok next ∧ disk.lookup next = some .directory ∧
        disk.enter next cs = .ok last := by
  rw [enter]
  cases hstep : step place c with
  | error error => exact iff_of_false nofun nofun
  | ok next =>
    simp only [bind, Except.bind]
    cases hnext : disk.lookup next with
    | none => simp [hnext]
    | some found => cases found <;> simp [hnext]

/-- The directories of the disk are still there later. -/
def SparesDirectories (disk later : Disk) : Prop :=
  ∀ ⦃place⦄, disk.lookup place = some .directory → later.lookup place = some .directory

/-- Something else may be put where there is no directory: all directories stay. -/
theorem sparesDirectories_set (h : disk.lookup target ≠ some .directory) :
    disk.SparesDirectories (disk.set target entry) := by
  intro place hplace
  have hne : place ≠ target := by
    rintro rfl
    exact h hplace
  rw [lookup_set_of_ne hne, hplace]

/-- Directories that are still there are entered as before. -/
theorem SparesDirectories.enter (h : disk.SparesDirectories later) {cs : List Path.Component}
    {last : List String} (henter : disk.enter place cs = .ok last) :
    later.enter place cs = .ok last := by
  induction cs generalizing place with
  | nil => exact henter
  | cons c cs ih =>
    obtain ⟨next, hstep, hnext, hlast⟩ := enter_cons.1 henter
    exact enter_cons.2 ⟨next, hstep, h hnext, ih hlast⟩

/-! ### Places of documents -/

/-- The path is one of a document: it does not end in a slash or in a segment of dots. -/
def NamesDocument (path : String) : Prop :=
  checkPath path = .ok () ∧ (locate.segmentsOf path).getLast? ∉ [some "", some ".", some ".."]

/-- A path leads to a place if it is one of a document and its directories are there. -/
theorem locate_eq_ok_iff {path : String} :
    disk.locate path = .ok place ↔
      NamesDocument path ∧ locate.walk disk (Path.components path) = .ok place := by
  rw [locate, NamesDocument]
  cases checkPath path with
  | error error => exact iff_of_false nofun nofun
  | ok _ =>
    simp only [bind, Except.bind]
    split
    · rename_i hlast
      refine iff_of_false (fun h => ?_) fun h => h.1.2 (by simp [hlast])
      cases hwalk : locate.walk disk (Path.components path) with
      | error error => rw [hwalk] at h; cases h
      | ok reached =>
        rw [hwalk] at h
        dsimp only at h
        split at h <;> cases h
    · rename_i hlast
      refine iff_of_false (fun h => ?_) fun h => h.1.2 (by simp [hlast])
      cases henter : disk.enter workingPlace (Path.components path) <;> rw [henter] at h <;> cases h
    · rename_i hlast
      refine iff_of_false (fun h => ?_) fun h => h.1.2 (by simp [hlast])
      cases henter : disk.enter workingPlace (Path.components path) <;> rw [henter] at h <;> cases h
    · rename_i hempty hdot hdots
      refine (and_iff_right ⟨trivial, ?_⟩).symm
      simp only [List.mem_cons, List.not_mem_nil, or_false, not_or]
      exact ⟨hempty, hdot, hdots⟩

/-- A path leads to the same place as long as the directories are there. -/
theorem SparesDirectories.locate (h : disk.SparesDirectories later) {path : String}
    (hlocate : disk.locate path = .ok place) : later.locate path = .ok place := by
  obtain ⟨hnames, hwalk⟩ := locate_eq_ok_iff.1 hlocate
  refine locate_eq_ok_iff.2 ⟨hnames, ?_⟩
  rw [locate.walk] at hwalk ⊢
  cases henter : disk.enter workingPlace (Path.components path).dropLast with
  | error error => rw [henter] at hwalk; cases hwalk
  | ok reached =>
    rw [henter] at hwalk
    rw [h.enter henter]
    exact hwalk

/-! ### Reading and writing -/

/-- A document is read where its path leads to. -/
theorem read_eq_ok_iff {path : String} {content : ByteArray} :
    disk.read path = .ok content ↔
      ∃ place, disk.locate path = .ok place ∧ disk.lookup place = some (.document content) := by
  rw [read]
  cases hlocate : disk.locate path with
  | error error => exact iff_of_false nofun nofun
  | ok place =>
    simp only [bind, Except.bind]
    cases hplace : disk.lookup place with
    | none => simp [hplace]
    | some found => cases found <;> simp [hplace]

/-- A document is written where its path leads to, unless a directory is there. -/
theorem write_eq_ok_iff {path : String} {content : ByteArray} :
    disk.write path content = .ok written ↔
      ∃ place, disk.locate path = .ok place ∧ disk.lookup place ≠ some .directory ∧
        disk.set place (.document content) = written := by
  rw [write]
  cases hlocate : disk.locate path with
  | error error => exact iff_of_false nofun nofun
  | ok place =>
    simp only [bind, Except.bind]
    cases hplace : disk.lookup place with
    | none => simp [hplace]
    | some found => cases found <;> simp [hplace]

/-- **Reading what has been written.** A document that has been written is read under the same
path.

**Proof sketch.** Only directories are entered on the way, and the document is not written over one
of them, so that the path leads to the same place again. -/
theorem read_write {path : String} {content : ByteArray}
    (h : disk.write path content = .ok written) : written.read path = .ok content := by
  obtain ⟨place, hlocate, hplace, rfl⟩ := write_eq_ok_iff.1 h
  have hroot : place ≠ [] := by
    rintro rfl
    exact hplace (if_pos rfl)
  exact read_eq_ok_iff.2
    ⟨place, (sparesDirectories_set hplace).locate hlocate, lookup_set_self hroot⟩

end Disk

end SchemaForge
