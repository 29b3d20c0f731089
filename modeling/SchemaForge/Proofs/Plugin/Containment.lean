import SchemaForge.Proofs.Path.Extensions
import SchemaForge.Proofs.Plugin.GeneratedDocuments
set_option autoImplicit false

/-!
# What the generator of documents may change

The name of a file may be any text, so it may try to lead out of the output directory. The generator
looks at the name once its extension has been replaced, and that hides nothing: a name that is
absolute or goes up still is so. All that the generator changes on the disk is inside the output
directory, save for the directories on the way to it.

## Main definitions

* `SchemaForge.Disk.ChangesOnly` — what has been changed on a disk has some property.
* `SchemaForge.DocumentGenerator.Harmful` — a name that tries to lead out of a directory.
* `SchemaForge.DocumentGenerator.Contained` — a change that is allowed in an output directory.

## Main results

* `SchemaForge.DocumentGenerator.put_changesOnly` — to write a document changes nothing outside.
* `SchemaForge.DocumentGenerator.generate_contained` — nor does a call of the generator, and it
  stops at the first harmful name.
-/

namespace SchemaForge

open SchemaForge.Path (Component)

/-! ### Changes of a disk -/

namespace Disk

variable {disk between later : Disk} {place : List String} {cs : List Component}
  {P Q : List String × Entry → Prop}

/-- All that has been changed on the disk until the later one has the property. -/
def ChangesOnly (P : List String × Entry → Prop) (disk later : Disk) : Prop :=
  ∃ changes, later.changes = changes ++ disk.changes ∧ ∀ change ∈ changes, P change

theorem ChangesOnly.refl (P : List String × Entry → Prop) (disk : Disk) : ChangesOnly P disk disk :=
  ⟨[], rfl, nofun⟩

theorem ChangesOnly.trans (h : ChangesOnly P disk between) (hlater : ChangesOnly P between later) :
    ChangesOnly P disk later := by
  obtain ⟨changes, hchanges, hP⟩ := h
  obtain ⟨more, hmore, hP'⟩ := hlater
  refine ⟨more ++ changes, by rw [hmore, hchanges, List.append_assoc], ?_⟩
  intro change hchange
  exact (List.mem_append.1 hchange).elim (hP' change) (hP change)

theorem ChangesOnly.mono (hPQ : ∀ change, P change → Q change) (h : ChangesOnly P disk later) :
    ChangesOnly Q disk later := by
  obtain ⟨changes, hchanges, hP⟩ := h
  exact ⟨changes, hchanges, fun change hchange => hPQ change (hP change hchange)⟩

theorem changesOnly_set {entry : Entry} (h : P (place, entry)) :
    ChangesOnly P disk (disk.set place entry) :=
  ⟨[(place, entry)], rfl, fun _ hchange => List.mem_singleton.1 hchange ▸ h⟩

/-- A directory on the way along the components from a place. -/
def OnTheWay (place : List String) (cs : List Component) (change : List String × Entry) : Prop :=
  change.2 = .directory ∧ ∃ front, front <+: cs ∧ placeAt place front = .ok change.1

/-- Nothing but directories on the way is created. -/
theorem createAlong_changesOnly (h : disk.createAlong place cs = .ok later) :
    ChangesOnly (OnTheWay place cs) disk later := by
  induction cs generalizing disk place with
  | nil =>
    cases h
    exact .refl _ _
  | cons c cs ih =>
    obtain ⟨next, hstep, hnext⟩ := createAlong_cons.1 h
    have hfurther : ∀ change, OnTheWay next cs change → OnTheWay place (c :: cs) change := by
      rintro change ⟨hdirectory, front, hfront, hplace⟩
      exact ⟨hdirectory, c :: front, (List.prefix_cons_inj c).2 hfront,
        placeAt_cons.2 ⟨next, hstep, hplace⟩⟩
    rcases hnext with ⟨-, hrest⟩ | ⟨-, hrest⟩
    · exact (ih hrest).mono hfurther
    · have hhere : OnTheWay place (c :: cs) (next, .directory) :=
        ⟨rfl, [c], ⟨cs, rfl⟩, placeAt_cons.2 ⟨next, hstep, rfl⟩⟩
      exact (changesOnly_set hhere).trans ((ih hrest).mono hfurther)

end Disk

/-- A path that says nothing at all is empty. -/
theorem Path.eq_empty_of_components_eq_nil {path : String} (h : Path.components path = []) :
    path = "" := by
  rw [← String.toList_eq_nil_iff]
  cases hchars : path.toList with
  | nil => rfl
  | cons c cs =>
    exfalso
    rw [components, hchars, componentsOf_eq, List.append_eq_nil_iff] at h
    obtain ⟨hbeginning, hsegments⟩ := h
    rw [beginning] at hbeginning
    split at hbeginning
    · cases hbeginning
    · rename_i hroot
      split at hbeginning
      · cases hbeginning
      · rename_i hdot
        obtain ⟨part, parts, hparts⟩ :=
          List.exists_cons_of_ne_nil (Text.segmentChars_ne_nil '/' cs)
        have hc : c ≠ '/' := fun hc => hroot (congrArg some hc)
        -- the first segment is neither empty nor a dot
        rw [Text.segmentChars, hparts] at hdot
        rw [segmentComponents, Text.segmentChars, hparts] at hsegments
        simp only [if_neg hc, List.head?_cons, Option.some.injEq] at hdot hsegments
        have hfirst := List.filterMap_eq_nil_iff.1 hsegments (c :: part) List.mem_cons_self
        rw [componentOf?] at hfirst
        split at hfirst
        · rename_i hsays
          simp only [reduceCtorEq, decide_false, Bool.false_or, decide_eq_true_eq] at hsays
          exact hdot hsays
        · split at hfirst <;> cases hfirst

namespace DocumentGenerator

variable {root path name text : String}

/-! ### Names of files -/

/-- The name is an absolute path, or one that goes up. -/
def Harmful (name : String) : Prop :=
  Path.isAbsolute name = true ∨ Component.parent ∈ Path.components name

instance (name : String) : Decidable (Harmful name) := inferInstanceAs (Decidable (_ ∨ _))

/-- There is no document for a file with a harmful name. -/
theorem outputPath_eq_none_of_harmful (root : String) (h : Harmful name) :
    outputPath root name = none := by
  rw [outputPath, Path.isBelow_withExtension_of_harm "json" h]
  rfl

/-- The path of a document adds names, and nothing else, to the output directory. -/
theorem exists_names_of_outputPath (h : outputPath root name = some path) :
    ∃ names, (∀ c ∈ names, c.IsName) ∧ Path.components path = Path.components root ++ names := by
  obtain ⟨hbelow, hjoin⟩ := outputPath_eq_some_iff.1 h
  rw [hjoin]
  exact ⟨_, Path.isBelow_iff.1 hbelow, Path.components_join_of_isBelow root hbelow⟩

/-- A path that ends in a slash is not the path of a document. -/
theorem not_namesDocument_slash {cs : List Char} (h : path.toList = cs ++ ['/']) :
    ¬ Disk.NamesDocument path := by
  rintro ⟨-, hlast⟩
  refine hlast ?_
  rw [Disk.locate.segmentsOf, Text.segments, h, Text.segmentChars_append, List.map_append,
    List.getLast?_append]
  exact List.mem_cons_self

/-- Nor is one that is joined with the empty path. -/
theorem not_namesDocument_join_empty (root : String) :
    ¬ Disk.NamesDocument (Path.join root "") := by
  rw [Path.join]
  split
  · exact fun h => h.2 List.mem_cons_self
  · split
    · rename_i hslash
      obtain ⟨cs, hcs⟩ := List.getLast?_eq_some_iff.1 hslash
      refine @not_namesDocument_slash _ cs ?_
      rw [String.toList_append, hcs]
      exact List.append_nil _
    · refine @not_namesDocument_slash _ root.toList ?_
      rw [String.toList_append, String.toList_append]
      exact List.append_nil _

/-- Where there is a path of a document, it adds at least one name. -/
theorem strictlyBelow_of_namesDocument (h : outputPath root name = some path)
    (hnames : Disk.NamesDocument path) : Path.StrictlyBelow path root := by
  obtain ⟨hbelow, hjoin⟩ := outputPath_eq_some_iff.1 h
  rw [hjoin] at hnames ⊢
  refine Path.strictlyBelow_join_of_isBelow root hbelow fun hnil => ?_
  rw [Path.eq_empty_of_components_eq_nil hnil] at hnames
  exact not_namesDocument_join_empty root hnames

/-! ### Changes that are allowed -/

/-- The place is strictly below the one of the directory. -/
def Inside (root : String) (place : List String) : Prop :=
  ∃ base names, Disk.placeAt Disk.workingPlace (Path.components root) = .ok base ∧
    names ≠ [] ∧ place = base ++ names

/-- A change inside the directory, or the creation of a directory on the way to it. -/
def Contained (root : String) (change : List String × Disk.Entry) : Prop :=
  Inside root change.1 ∨ Disk.OnTheWay Disk.workingPlace (Path.components root) change

/-- Names that follow those of a directory lead inside it. -/
theorem inside_of_placeAt {names : List Component} {place : List String}
    (hnames : Path.OnlyNames names)
    (h : Disk.placeAt Disk.workingPlace (Path.components root ++ names) = .ok place) :
    Inside root place := by
  obtain ⟨base, hbase, hplace⟩ := Disk.placeAt_append.1 h
  refine ⟨base, names.filterMap Disk.name?, hbase, ?_, Disk.placeAt_names hnames.2 hplace⟩
  obtain ⟨c, cs, rfl⟩ := List.exists_cons_of_ne_nil hnames.1
  cases c with
  | name text => exact List.cons_ne_nil _ _
  | _ => exact absurd (hnames.2 _ List.mem_cons_self) id

/-- **Writing a document.** To put a document on a disk changes nothing outside the output
directory, save that the directories on the way to it are created.

**Proof sketch.** The path of the document adds names to the output directory, and at least one. So
the document is inside, and each directory above it is either on the way to the output directory or
inside as well. -/
theorem put_changesOnly {disk later : Disk} (hpath : outputPath root name = some path)
    (h : put disk path text = .ok later) : Disk.ChangesOnly (Contained root) disk later := by
  obtain ⟨parents, hparents, hwrite⟩ := put_eq_ok_iff.1 h
  obtain ⟨place, hlocate, -, rfl⟩ := Disk.write_eq_ok_iff.1 hwrite
  obtain ⟨hdocument, -⟩ := Disk.locate_eq_ok_iff.1 hlocate
  obtain ⟨names, hnames, hcomponents⟩ := strictlyBelow_of_namesDocument hpath hdocument
  have hplace := Disk.placeAt_of_locate hlocate
  have hcreated := Disk.createAlong_changesOnly (Disk.createAlong_of_createParents hparents)
  rw [hcomponents] at hplace hcreated
  refine (hcreated.mono ?_).trans (Disk.changesOnly_set (.inl (inside_of_placeAt hnames hplace)))
  rintro change ⟨hdirectory, front, hfront, hchange⟩
  have hfront' := hfront.trans (List.dropLast_prefix _)
  rcases List.prefix_or_prefix_of_prefix hfront' (List.prefix_append _ names) with hroot | hroot
  · exact .inr ⟨hdirectory, front, hroot, hchange⟩
  · obtain ⟨further, rfl⟩ := hroot
    have hfurther := (List.prefix_append_right_inj _).1 hfront'
    by_cases hnil : further = []
    · subst hnil
      rw [List.append_nil] at hchange
      exact .inr ⟨hdirectory, _, List.prefix_rfl, hchange⟩
    · exact .inl (inside_of_placeAt ⟨hnil, fun c hc => hnames.2 c (hfurther.subset hc)⟩ hchange)

/-! ### Calls of the generator -/

variable {pretty : Bool} {logger : Logger}

/-- A file that is written changes nothing outside, and one that cannot be written nothing. -/
theorem writeFile_changesOnly (root : String) (pretty : Bool) (logger : Logger) (file : SchemaFile)
    (journal : Journal Disk) :
    Disk.ChangesOnly (Contained root) journal.world
      ((writeFile root pretty logger file).run journal).2.world := by
  unfold writeFile
  cases hpath : outputPath root file.name with
  | none => exact .refl _ _
  | some path =>
    simp only [Work.run_bind, Work.run_world]
    cases hput : put journal.world path (render pretty file) with
    | error error => exact .refl _ _
    | ok disk =>
      simp only [Work.run_bind, Work.run_setWorld, Logger.run_detail]
      exact put_changesOnly hpath hput

theorem writeFiles_changesOnly (root : String) (pretty : Bool) (logger : Logger)
    (files : List SchemaFile) (journal : Journal Disk) :
    Disk.ChangesOnly (Contained root) journal.world
      ((writeFiles root pretty logger files).run journal).2.world := by
  induction files generalizing journal with
  | nil => exact .refl _ _
  | cons file files ih =>
    have hfile := writeFile_changesOnly root pretty logger file journal
    rw [writeFiles, Work.run_bind]
    rcases hrun : (writeFile root pretty logger file).run journal with ⟨halt | _, between⟩
    · rw [hrun] at hfile
      exact hfile
    · rw [hrun] at hfile
      exact hfile.trans (ih between)

/-- Files that are written one after the other: once a file cannot be written, none behind it is. -/
theorem run_writeFiles_append (before after : List SchemaFile) (journal : Journal Disk) :
    (writeFiles root pretty logger (before ++ after)).run journal =
      match (writeFiles root pretty logger before).run journal with
      | (.ok _, between) => (writeFiles root pretty logger after).run between
      | (.error halt, between) => (.error halt, between) := by
  induction before generalizing journal with
  | nil => rfl
  | cons file before ih =>
    rw [List.cons_append, writeFiles, writeFiles, Work.run_bind, Work.run_bind]
    rcases (writeFile root pretty logger file).run journal with ⟨halt | _, between⟩
    · rfl
    · exact ih between

/-- The text of the failure for a file with a harmful name. -/
def leavesText (name : String) : String :=
  "file name " ++ Text.quote name ++ " leaves the output folder"

/-- Files of which one has a harmful name: those before it are written, and no other one. -/
theorem run_writeFiles_harmful {file : SchemaFile} (before after : List SchemaFile)
    (h : Harmful file.name) (journal : Journal Disk) :
    (writeFiles root pretty logger (before ++ file :: after)).run journal =
      match (writeFiles root pretty logger before).run journal with
      | (.ok _, between) => (.error (.failed (.failed (leavesText file.name))), between)
      | (.error halt, between) => (.error halt, between) := by
  have hfile : writeFile root pretty logger file =
      Work.fail (.failed (leavesText file.name)) := by
    unfold writeFile
    simp only [outputPath_eq_none_of_harmful root h, leavesText]
  have hrun (between : Journal Disk) :
      (writeFiles root pretty logger (file :: after)).run between =
        (.error (.failed (.failed (leavesText file.name))), between) := by
    rw [writeFiles, hfile, Work.run_bind]
    rfl
  rw [run_writeFiles_append]
  simp only [hrun]

/-- A call for an output directory writes the files, and tells how many they are. -/
theorem run_generate (call : Call) (h : call.options.output? = some root)
    (journal : Journal Disk) :
    (generate call).run journal =
      match (writeFiles root ((call.options.flag? prettyKey).getD false) call.logger
        call.files).run journal with
      | (.ok _, between) =>
        (call.logger.progress ("Wrote " ++ toString call.files.length ++ " file(s) to " ++ root) :
          Work Disk PluginError Unit).run between
      | (.error halt, between) => (.error halt, between) := by
  unfold generate
  simp only [h, Work.run_bind]
  rcases (writeFiles root ((call.options.flag? prettyKey).getD false) call.logger
    call.files).run journal with ⟨halt | _, between⟩ <;> rfl

/-- Without an output directory the generator does nothing. -/
theorem run_generate_none (call : Call) (h : call.options.output? = none)
    (journal : Journal Disk) :
    (generate call).run journal =
      (.error (.failed (.missingOption GenerationOptions.outputKey)), journal) := by
  unfold generate
  rw [h]
  rfl

/-- A call changes nothing outside its output directory. -/
theorem generate_changesOnly (call : Call) (journal : Journal Disk) :
    Disk.ChangesOnly
      (fun change => ∃ root, call.options.output? = some root ∧ Contained root change)
      journal.world ((generate call).run journal).2.world := by
  cases houtput : call.options.output? with
  | none =>
    rw [run_generate_none call houtput]
    exact .refl _ _
  | some root =>
    have hfiles := writeFiles_changesOnly root ((call.options.flag? prettyKey).getD false)
      call.logger call.files journal
    have hchanges := hfiles.mono (Q := fun change => ∃ found, some root = some found ∧
      Contained found change) fun change hchange => ⟨root, rfl, hchange⟩
    rw [run_generate call houtput]
    rcases hrun : (writeFiles root ((call.options.flag? prettyKey).getD false) call.logger
      call.files).run journal with ⟨halt | _, between⟩
    · rw [hrun] at hchanges
      exact hchanges
    · rw [hrun] at hchanges
      exact hchanges

/-- With a harmful name among those of the files a call fails, and it leaves the disk as the call
for the files before does. -/
theorem generate_harmful {call : Call} {before after : List SchemaFile} {file : SchemaFile}
    (hfiles : call.files = before ++ file :: after) (h : Harmful file.name)
    (journal : Journal Disk) :
    ∃ halt last, (generate call).run journal = (.error halt, last) ∧
      last.world = ((generate { call with files := before }).run journal).2.world ∧
      halt = match ((generate { call with files := before }).run journal).1 with
        | .ok _ => .failed (.failed (leavesText file.name))
        | .error earlier => earlier := by
  cases houtput : call.options.output? with
  | none =>
    have hbefore := run_generate_none { call with files := before } houtput journal
    rw [run_generate_none call houtput, hbefore]
    exact ⟨_, _, rfl, rfl, rfl⟩
  | some root =>
    have hbefore := run_generate { call with files := before } houtput journal
    rw [run_generate call houtput, hfiles, run_writeFiles_harmful before after h, hbefore]
    dsimp only
    rcases (writeFiles root ((call.options.flag? prettyKey).getD false) call.logger
      before).run journal with ⟨halt | _, between⟩
    · exact ⟨halt, between, rfl, rfl, rfl⟩
    · exact ⟨_, between, rfl, rfl, rfl⟩

/-- **Containment.** The path of a document has the components of the output directory, followed by
names only, and there is none for a name that is absolute or goes up. Let the generator be called
with any options and any files, on whatever disk and whether it succeeds or not. Then each change of
the disk is inside the output directory, or it creates a directory on the way to it. If a file has a
harmful name, the call fails and leaves the disk as the call for the files before it does. It fails
as that one does, or because of the name of the file.

**Proof sketch.** Neither when the old extension is cut off nor when the new one is put in its place
can a harmful name become a path of names (`Path.isBelow_withExtension_of_harm`). What is allowed is
joined to the output directory and adds at least one name, so that a document is inside
(`put_changesOnly`); the files are written one after the other until one fails. -/
theorem generate_contained (call : Call) (journal : Journal Disk) :
    (∀ root name path, outputPath root name = some path →
      ∃ names, (∀ c ∈ names, c.IsName) ∧
        Path.components path = Path.components root ++ names) ∧
    (∀ root name, Harmful name → outputPath root name = none) ∧
    (∃ changes,
      ((generate call).run journal).2.world.changes = changes ++ journal.world.changes ∧
        ∀ change ∈ changes, ∃ root, call.options.output? = some root ∧ Contained root change) ∧
    ∀ before file after, call.files = before ++ file :: after → Harmful file.name →
      ∃ halt last, (generate call).run journal = (.error halt, last) ∧
        last.world = ((generate { call with files := before }).run journal).2.world ∧
        halt = match ((generate { call with files := before }).run journal).1 with
          | .ok _ => .failed (.failed (leavesText file.name))
          | .error earlier => earlier := by
  exact ⟨fun _ _ _ => exists_names_of_outputPath, fun root _ => outputPath_eq_none_of_harmful root,
    generate_changesOnly call journal,
    fun _ _ _ hfiles hharmful => generate_harmful hfiles hharmful journal⟩

/-- The call to generate documents for files of which the second one has a harmful name. -/
def escapingCall : Call where
  options := .ofPairs [(GenerationOptions.outputKey, "out")]
  files := [fileNamed "a.proto", fileNamed "../escape.proto", fileNamed "b.proto"]
  logger := ⟨.orchestrator, false⟩

/-- The document for the first file is written, and then the call fails. -/
theorem generate_contained_escapingCall :
    outputPath "/out/json" "a/b/c.proto" = some "/out/json/a/b/c.json" ∧
      (∃ names, (∀ c ∈ names, c.IsName) ∧ Path.components "/out/json/a/b/c.json" =
        Path.components "/out/json" ++ names) ∧
      Harmful "/etc/passwd" ∧ outputPath "/out/json" "/etc/passwd" = none ∧
      Harmful "../escape.proto" ∧
      ∃ disk last, put .empty "out/a.json" (render false (fileNamed "a.proto")) = .ok disk ∧
        (generate escapingCall).run ⟨.empty, []⟩ =
          (.error (.failed (.failed (leavesText "../escape.proto"))), last) ∧
        last.world = disk := by
  obtain ⟨hnames, hnone, -, hharmful⟩ := generate_contained escapingCall ⟨.empty, []⟩
  have hpath : outputPath "/out/json" "a/b/c.proto" = some "/out/json/a/b/c.json" := by
    decide +kernel
  have habsolute : Harmful "/etc/passwd" := by decide
  have hup : Harmful "../escape.proto" := by decide
  refine ⟨hpath, hnames _ _ _ hpath, habsolute, hnone _ _ habsolute, hup, ?_⟩
  obtain ⟨disk, hput⟩ : ∃ disk,
      put .empty "out/a.json" (render false (fileNamed "a.proto")) = .ok disk := by
    generalize render false (fileNamed "a.proto") = text
    exact ⟨_, rfl⟩
  have hearlier : ∃ entries, (generate { escapingCall with files := [fileNamed "a.proto"] }).run
      ⟨.empty, []⟩ = (.ok (), ⟨disk, entries⟩) := by
    refine ⟨_, generate_eq_ok_iff.2 ⟨"out", ⟨disk, []⟩, rfl, ?_, rfl⟩⟩
    have hfile : (writeFile "out" false ⟨.orchestrator, false⟩ (fileNamed "a.proto")).run
        ⟨.empty, []⟩ = (.ok (), ⟨disk, []⟩) :=
      writeFile_eq_ok_iff.2 ⟨"out/a.json", by decide, hput, rfl⟩
    exact Work.run_bind_eq_ok_iff.2 ⟨(), _, hfile, rfl⟩
  obtain ⟨halt, last, hrun, hworld, hhalt⟩ := hharmful [fileNamed "a.proto"]
    (fileNamed "../escape.proto") [fileNamed "b.proto"] rfl hup
  obtain ⟨entries, hearlier⟩ := hearlier
  have hfails : halt = .failed (.failed (leavesText "../escape.proto")) := by
    rw [hhalt, hearlier]
    rfl
  refine ⟨disk, last, hput, ?_, ?_⟩
  · rw [hrun, hfails]
  · rw [hworld, hearlier]

end DocumentGenerator

end SchemaForge
