import SchemaForge.Proofs.Disk
import SchemaForge.Proofs.Path
set_option autoImplicit false

/-!
# Places of documents

The place that a path leads to can be read off its components, whatever is on the disk. To create
directories, and to write a document, leaves all else on the disk as it is. So a document is read
under its path until another one is written at the same place.

## Main definitions

* `SchemaForge.Disk.placeAt` — the place at the end of components.
* `SchemaForge.Disk.Keeps` — what a disk holds is still there later.

## Main results

* `SchemaForge.Disk.components_eq_iff_of_locate` — when paths of names, seen from the same
  directory, lead to the same place.
* `SchemaForge.Disk.createParents_keeps` — directories that are created replace nothing.
* `SchemaForge.Disk.read_write_of_read` — what is read after a document has been written.
-/

namespace SchemaForge.Disk

open SchemaForge.Path (Component)

variable {disk later written : Disk} {place other : List String} {cs more : List Component}

/-! ### Where components lead to -/

/-- The place at the end of the components. -/
def placeAt (place : List String) : List Component → Except FileError (List String)
  | [] => .ok place
  | c :: cs => do placeAt (← step place c) cs

/-- One component further. -/
theorem placeAt_cons {c : Component} {last : List String} :
    placeAt place (c :: cs) = .ok last ↔
      ∃ next, step place c = .ok next ∧ placeAt next cs = .ok last := by
  rw [placeAt]
  cases step place c with
  | error error => exact iff_of_false nofun nofun
  | ok next => simp [bind, Except.bind]

/-- Components one list after the other. -/
theorem placeAt_append {last : List String} :
    placeAt place (cs ++ more) = .ok last ↔
      ∃ next, placeAt place cs = .ok next ∧ placeAt next more = .ok last := by
  induction cs generalizing place with
  | nil => simp [placeAt]
  | cons c cs ih =>
    rw [List.cons_append, placeAt_cons]
    constructor
    · rintro ⟨next, hstep, hlast⟩
      obtain ⟨between, hbetween, hmore⟩ := ih.1 hlast
      exact ⟨between, placeAt_cons.2 ⟨next, hstep, hbetween⟩, hmore⟩
    · rintro ⟨between, hbetween, hmore⟩
      obtain ⟨next, hstep, hrest⟩ := placeAt_cons.1 hbetween
      exact ⟨next, hstep, ih.2 ⟨between, hrest, hmore⟩⟩

/-- Directories are entered at the places of their components. -/
theorem placeAt_of_enter {last : List String} (h : disk.enter place cs = .ok last) :
    placeAt place cs = .ok last := by
  induction cs generalizing place with
  | nil => exact h
  | cons c cs ih =>
    obtain ⟨next, hstep, -, hlast⟩ := enter_cons.1 h
    exact placeAt_cons.2 ⟨next, hstep, ih hlast⟩

/-- A path leads to the place of its components. -/
theorem placeAt_of_locate {path : String} (h : disk.locate path = .ok place) :
    placeAt workingPlace (Path.components path) = .ok place := by
  obtain ⟨-, hwalk⟩ := locate_eq_ok_iff.1 h
  rw [locate.walk] at hwalk
  cases henter : disk.enter workingPlace (Path.components path).dropLast with
  | error error => rw [henter] at hwalk; cases hwalk
  | ok reached =>
    rw [henter] at hwalk
    have hreached := placeAt_of_enter henter
    rcases List.eq_nil_or_concat (Path.components path) with hnil | ⟨front, c, hfront⟩
    · -- without a component the path leads to the working directory
      rw [hnil] at hwalk hreached ⊢
      exact hreached.trans hwalk
    · rw [List.concat_eq_append] at hfront
      rw [hfront, List.dropLast_concat] at hreached
      rw [hfront, List.getLast?_concat] at hwalk
      rw [hfront]
      exact placeAt_append.2 ⟨reached, hreached, placeAt_cons.2 ⟨place, hwalk, rfl⟩⟩

/-- The text of a component that is a name. -/
def name? : Component → Option String
  | .name text => some text
  | _ => none

/-- Names lead below the place where they start. -/
theorem placeAt_names (hnames : ∀ c ∈ cs, c.IsName) (h : placeAt place cs = .ok other) :
    other = place ++ cs.filterMap name? := by
  induction cs generalizing place with
  | nil =>
    cases h
    exact (List.append_nil other).symm
  | cons c cs ih =>
    obtain ⟨hname, hrest⟩ := List.forall_mem_cons.1 hnames
    cases c with
    | name text =>
      obtain ⟨next, hstep, hlast⟩ := placeAt_cons.1 h
      have hnext : next = place ++ [text] := by
        rw [step] at hstep
        split at hstep
        · cases hstep
        · exact (Except.ok.inj hstep).symm
      rw [ih hrest hlast, hnext, List.append_assoc]
      rfl
    | _ => exact absurd hname id

/-- Components that are names are known by their texts. -/
theorem eq_of_names_eq (hcs : ∀ c ∈ cs, c.IsName) (hmore : ∀ c ∈ more, c.IsName)
    (h : cs.filterMap name? = more.filterMap name?) : cs = more := by
  have hback {list : List Component} (hlist : ∀ c ∈ list, c.IsName) :
      (list.filterMap name?).map Component.name = list := by
    induction list with
    | nil => rfl
    | cons c list ih =>
      obtain ⟨hc, hrest⟩ := List.forall_mem_cons.1 hlist
      cases c with
      | name text => exact congrArg (Component.name text :: ·) (ih hrest)
      | _ => exact absurd hc id
  rw [← hback hcs, ← hback hmore, h]

/-- **Same places.** Paths of names that are seen from the same directory lead to the same place
only if they have the same components.

**Proof sketch.** Both places are the one of the directory with the names behind it. -/
theorem components_eq_iff_of_locate {root path next : String}
    (hpath : Path.isBelow path = true) (hnext : Path.isBelow next = true)
    (hplace : disk.locate (Path.join root path) = .ok place)
    (hother : later.locate (Path.join root next) = .ok other) :
    Path.components path = Path.components next ↔ place = other := by
  have hbase := placeAt_of_locate hplace
  have hbase' := placeAt_of_locate hother
  rw [Path.components_join_of_isBelow root hpath, placeAt_append] at hbase
  rw [Path.components_join_of_isBelow root hnext, placeAt_append] at hbase'
  obtain ⟨base, hroot, hbelow⟩ := hbase
  obtain ⟨base', hroot', hbelow'⟩ := hbase'
  obtain rfl : base = base' := Except.ok.inj (hroot.symm.trans hroot')
  constructor
  · intro heq
    rw [heq] at hbelow
    exact Except.ok.inj (hbelow.symm.trans hbelow')
  · rintro rfl
    have hnames := Path.isBelow_iff.1 hpath
    have hnames' := Path.isBelow_iff.1 hnext
    refine eq_of_names_eq hnames hnames' ?_
    exact List.append_cancel_left
      ((placeAt_names hnames hbelow).symm.trans (placeAt_names hnames' hbelow'))

/-! ### What remains on a disk -/

/-- What the disk holds is still there later. -/
def Keeps (disk later : Disk) : Prop :=
  ∀ ⦃place entry⦄, disk.lookup place = some entry → later.lookup place = some entry

theorem Keeps.sparesDirectories (h : disk.Keeps later) : disk.SparesDirectories later :=
  fun _ hplace => h hplace

/-- What is put where nothing is replaces nothing. -/
theorem keeps_set {entry : Entry} (h : disk.lookup place = none) :
    disk.Keeps (disk.set place entry) := by
  intro other found hfound
  have hne : other ≠ place := by
    rintro rfl
    rw [h] at hfound
    cases hfound
  rw [lookup_set_of_ne hne, hfound]

/-- One step on the way along which directories are created. -/
theorem createAlong_cons {c : Component} :
    disk.createAlong place (c :: cs) = .ok later ↔
      ∃ next, step place c = .ok next ∧
        (disk.lookup next = some .directory ∧ disk.createAlong next cs = .ok later ∨
          disk.lookup next = none ∧
            (disk.set next .directory).createAlong next cs = .ok later) := by
  rw [createAlong]
  cases step place c with
  | error error => exact iff_of_false nofun nofun
  | ok next =>
    simp only [bind, Except.bind, Except.ok.injEq, exists_eq_left']
    cases hnext : disk.lookup next with
    | none => simp
    | some found => cases found <;> simp

/-- Directories are created where nothing is. -/
theorem createAlong_keeps (h : disk.createAlong place cs = .ok later) : disk.Keeps later := by
  induction cs generalizing disk place with
  | nil =>
    cases h
    exact fun _ _ hfound => hfound
  | cons c cs ih =>
    obtain ⟨next, -, ⟨-, hrest⟩ | ⟨hnext, hrest⟩⟩ := createAlong_cons.1 h
    · exact ih hrest
    · exact fun _ _ hfound => ih hrest (keeps_set hnext hfound)

/-- Directories are created along the components above the last one. -/
theorem createAlong_of_createParents {path : String} (h : disk.createParents path = .ok later) :
    disk.createAlong workingPlace (Path.components path).dropLast = .ok later := by
  rw [createParents] at h
  cases hpath : checkPath path with
  | error error => rw [hpath] at h; cases h
  | ok _ =>
    rw [hpath] at h
    exact h

theorem createParents_keeps {path : String} (h : disk.createParents path = .ok later) :
    disk.Keeps later :=
  createAlong_keeps (createAlong_of_createParents h)

/-- A document is read as long as nothing else is put in its place. -/
theorem Keeps.read (h : disk.Keeps later) {path : String} {content : ByteArray}
    (hread : disk.read path = .ok content) : later.read path = .ok content := by
  obtain ⟨place, hlocate, hplace⟩ := read_eq_ok_iff.1 hread
  exact read_eq_ok_iff.2 ⟨place, h.sparesDirectories.locate hlocate, h hplace⟩

/-- **Reading other documents.** When a document has been written, any other one is read as before,
unless its path leads to the same place: then the new one is read there too. -/
theorem read_write_of_read {path next : String} {content more : ByteArray}
    (hread : disk.read path = .ok content) (hwrite : disk.write next more = .ok written) :
    ∃ place other, disk.locate path = .ok place ∧ disk.locate next = .ok other ∧
      written.read path = .ok (if place = other then more else content) := by
  obtain ⟨place, hlocate, hplace⟩ := read_eq_ok_iff.1 hread
  obtain ⟨other, hlocate', hother, rfl⟩ := write_eq_ok_iff.1 hwrite
  have hspares : disk.SparesDirectories (disk.set other (.document more)) :=
    sparesDirectories_set hother
  refine ⟨place, other, hlocate, hlocate', read_eq_ok_iff.2 ⟨place, hspares.locate hlocate, ?_⟩⟩
  by_cases heq : place = other
  · subst heq
    have hroot : place ≠ [] := by
      rintro rfl
      exact hother (if_pos rfl)
    rw [if_pos rfl, lookup_set_self hroot]
  · rw [if_neg heq, lookup_set_of_ne heq, hplace]

end SchemaForge.Disk
