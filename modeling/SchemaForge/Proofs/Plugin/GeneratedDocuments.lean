import Mathlib.Tactic.Choose
import SchemaForge.Proofs.Disk.Places
import SchemaForge.Proofs.Process.Errand
import SchemaForge.Proofs.Resolver.Indexes
import SchemaForge.Proofs.Schema.Store
set_option autoImplicit false

/-!
# The documents that are generated

The document for a file goes by the name of the file with another extension, whatever its own one
is. So different files can share a document, and of those the last one is found in it. A file is
lost just where a file that differs from it comes to the same document.

## Main definitions

* `SchemaForge.DocumentGenerator.SameDocument` — the names of files that share a document.
* `SchemaForge.DocumentGenerator.lastSharing` — the last file that shares a document.
* `SchemaForge.Disk.HoldsFile` — the document of a file is on the disk.

## Main results

* `SchemaForge.DocumentGenerator.read_writeFiles` — what is read when files have been written.
* `SchemaForge.DocumentGenerator.generate_documents` — which files are found in their documents.
-/

namespace SchemaForge

/-! ### Documents of files -/

/-- The document at `path` is one for the file: it is read as this file wherever there is room for
what it nests, and as nothing else. -/
def Disk.HoldsFile (disk : Disk) (path : String) (file : SchemaFile) : Prop :=
  ∃ text : String, disk.read path = .ok text.toUTF8 ∧
    ∀ limit, (Json.parse text).bind (Reader.schemaFile limit) =
      if file.toJson.depth ≤ limit then some file else none

/-- A document is one for a single file. -/
theorem Disk.HoldsFile.unique {disk : Disk} {path : String} {file other : SchemaFile}
    (h : disk.HoldsFile path file) (hother : disk.HoldsFile path other) : file = other := by
  obtain ⟨text, hread, hparse⟩ := h
  obtain ⟨more, hmore, hparse'⟩ := hother
  have hbytes : text.toUTF8 = more.toUTF8 := Except.ok.inj (hread.symm.trans hmore)
  have htext : some text = some more := by
    rw [← fromUTF8?_toUTF8, ← fromUTF8?_toUTF8, hbytes]
  obtain rfl := Option.some.inj htext
  -- there is room for both
  have hfile := (hparse (file.toJson.depth + other.toJson.depth)).symm.trans (hparse' _)
  rw [if_pos (Nat.le_add_right _ _), if_pos (Nat.le_add_left _ _)] at hfile
  exact Option.some.inj hfile

namespace DocumentGenerator

/-- Files with these names share a document. -/
def SameDocument (name other : String) : Prop :=
  Path.components (Path.withExtension "json" name) =
    Path.components (Path.withExtension "json" other)

instance (name other : String) : Decidable (SameDocument name other) :=
  inferInstanceAs (Decidable (_ = _))

/-- The last of the files that shares a document with the file. -/
def lastSharing (files : List SchemaFile) (file : SchemaFile) : SchemaFile :=
  (files.findRev? fun other => SameDocument file.name other.name).getD file

variable {files : List SchemaFile} {file other first : SchemaFile}

/-- A file that comes first counts where no later one shares its document. -/
theorem lastSharing_cons_self (files : List SchemaFile) (file : SchemaFile) :
    lastSharing (file :: files) file = lastSharing files file := by
  have hself : decide (SameDocument file.name file.name) = true := decide_eq_true rfl
  rw [lastSharing, findRev?_cons, hself, lastSharing]
  cases files.findRev? fun other => decide (SameDocument file.name other.name) <;> rfl

/-- Where a file is listed, one that shares its document is found. -/
theorem exists_findRev?_of_mem (h : file ∈ files) :
    ∃ found, files.findRev? (fun other => decide (SameDocument file.name other.name)) =
      some found := by
  rw [← Option.ne_none_iff_exists']
  intro hnone
  have hself := (findRev?_eq_none_iff _ _).1 hnone file h
  exact (of_decide_eq_false hself) rfl

theorem lastSharing_cons_of_mem (first : SchemaFile) (h : file ∈ files) :
    lastSharing (first :: files) file = lastSharing files file := by
  obtain ⟨found, hfound⟩ := exists_findRev?_of_mem h
  rw [lastSharing, findRev?_cons, hfound, lastSharing, hfound]
  rfl

/-- The last file that shares a document is one of the files. -/
theorem lastSharing_mem (h : file ∈ files) :
    lastSharing files file ∈ files ∧ SameDocument file.name (lastSharing files file).name := by
  obtain ⟨found, hfound⟩ := exists_findRev?_of_mem h
  rw [lastSharing, hfound, Option.getD_some]
  rw [List.findRev?_eq_find?_reverse] at hfound
  have hsame := List.find?_some hfound
  exact ⟨List.mem_reverse.1 (List.mem_of_find?_eq_some hfound), of_decide_eq_true hsame⟩

/-- It is the same one for all files that share the document. -/
theorem lastSharing_eq (h : SameDocument file.name other.name) (hfile : file ∈ files) :
    lastSharing files file = lastSharing files other := by
  have hsame : (fun more : SchemaFile => decide (SameDocument file.name more.name)) =
      fun more => decide (SameDocument other.name more.name) := by
    funext more
    have hiff : SameDocument file.name more.name ↔ SameDocument other.name more.name :=
      ⟨fun hmore => h.symm.trans hmore, fun hmore => h.trans hmore⟩
    simp only [hiff]
  obtain ⟨found, hfound⟩ := exists_findRev?_of_mem hfile
  rw [lastSharing, hfound, lastSharing, ← hsame, hfound]
  rfl

/-- Each file is the last one of its document just where files that share a document are equal. -/
theorem forall_lastSharing_eq_self_iff :
    (∀ file ∈ files, lastSharing files file = file) ↔
      ∀ file ∈ files, ∀ other ∈ files, SameDocument file.name other.name → file = other := by
  constructor
  · intro h file hfile other hother hsame
    rw [← h file hfile, lastSharing_eq hsame hfile, h other hother]
  · intro h file hfile
    obtain ⟨hmem, hsame⟩ := lastSharing_mem hfile
    exact (h file hfile _ hmem hsame).symm

/-! ### Writing -/

variable {root path : String} {pretty : Bool} {logger : Logger}

theorem outputPath_eq_some_iff {name : String} :
    outputPath root name = some path ↔
      Path.isBelow (Path.withExtension "json" name) = true ∧
        path = Path.join root (Path.withExtension "json" name) := by
  rw [outputPath]
  cases Path.isBelow (Path.withExtension "json" name) <;> simp [eq_comm]

/-- When a document is put on a disk, any other one stays, unless it is the same. -/
theorem read_put_of_read {disk written : Disk} {name more next text : String} {content : ByteArray}
    (hpath : outputPath root name = some path) (hnext : outputPath root more = some next)
    (hread : disk.read path = .ok content) (hput : put disk next text = .ok written) :
    written.read path = .ok (if SameDocument name more then text.toUTF8 else content) := by
  obtain ⟨hbelow, hjoin⟩ := outputPath_eq_some_iff.1 hpath
  obtain ⟨hbelow', hjoin'⟩ := outputPath_eq_some_iff.1 hnext
  obtain ⟨parents, hparents, hwrite⟩ := put_eq_ok_iff.1 hput
  have hkept := (Disk.createParents_keeps hparents).read hread
  obtain ⟨place, other, hplace, hother, hafter⟩ := Disk.read_write_of_read hkept hwrite
  rw [hjoin] at hplace
  rw [hjoin'] at hother
  have hsame : SameDocument name more ↔ place = other :=
    Disk.components_eq_iff_of_locate hbelow hbelow' hplace hother
  rw [hafter]
  simp only [hsame]

/-- A file is written by putting its document on the disk. -/
theorem writeFile_eq_ok_iff {journal last : Journal Disk} :
    (writeFile root pretty logger file).run journal = (.ok (), last) ↔
      ∃ path, outputPath root file.name = some path ∧
        put journal.world path (render pretty file) = .ok last.world ∧
        last.entries = journal.entries ++ logger.details ["Wrote " ++ path] := by
  obtain ⟨world, entries⟩ := last
  unfold writeFile
  generalize outputPath root file.name = found
  cases found with
  | none => exact iff_of_false nofun nofun
  | some path =>
    simp only [Work.run_bind, Work.run_world, Option.some.injEq, exists_eq_left']
    generalize put journal.world path (render pretty file) = result
    cases result with
    | error error => exact iff_of_false nofun nofun
    | ok disk =>
      simp only [Work.run_bind, Work.run_setWorld, Logger.run_detail, Except.ok.injEq]
      constructor
      · intro h
        cases h
        exact ⟨rfl, rfl⟩
      · rintro ⟨rfl, rfl⟩
        rfl

/-- **Writing files.** The document of a file that is there stays when others are written, unless
some of them share it: then the last one of these is read there.

**Proof sketch.** Induction on the files. The document is replaced by each that shares it, and by no
other one (`read_put_of_read`). -/
theorem read_writeFiles {journal last : Journal Disk} {name : String}
    (hpath : outputPath root name = some path)
    (hread : journal.world.read path = .ok (render pretty file).toUTF8)
    (h : (writeFiles root pretty logger files).run journal = (.ok (), last)) :
    last.world.read path = .ok (render pretty
      ((files.findRev? fun other => decide (SameDocument name other.name)).getD file)).toUTF8 := by
  induction files generalizing journal file with
  | nil =>
    cases h
    exact hread
  | cons first files ih =>
    obtain ⟨_, between, hfirst, hrest⟩ := Work.run_bind_eq_ok_iff.1 h
    obtain ⟨next, hnext, hput, -⟩ := writeFile_eq_ok_iff.1 hfirst
    have hbetween := read_put_of_read hpath hnext hread hput
    rw [findRev?_cons]
    by_cases hsame : SameDocument name first.name
    · rw [if_pos hsame] at hbetween
      rw [ih hbetween hrest, if_pos (decide_eq_true hsame)]
      cases files.findRev? fun other => decide (SameDocument name other.name) with
      | none => rw [Option.none_or, Option.getD_none, Option.getD_some]
      | some found => rw [Option.some_or, Option.getD_some, Option.getD_some]
    · rw [if_neg hsame] at hbetween
      rw [ih hbetween hrest, if_neg (by simpa using hsame), Option.or_none]

/-- Each file that has been written leads to the last one that shares its document. -/
theorem read_of_mem_writeFiles {journal last : Journal Disk} (hfile : file ∈ files)
    (h : (writeFiles root pretty logger files).run journal = (.ok (), last)) :
    ∃ path, outputPath root file.name = some path ∧
      last.world.read path = .ok (render pretty (lastSharing files file)).toUTF8 := by
  induction files generalizing journal with
  | nil => cases hfile
  | cons first files ih =>
    obtain ⟨_, between, hfirst, hrest⟩ := Work.run_bind_eq_ok_iff.1 h
    by_cases hmem : file ∈ files
    · rw [lastSharing_cons_of_mem first hmem]
      exact ih hmem hrest
    · -- the file itself has just been written
      obtain rfl : file = first := (List.mem_cons.1 hfile).resolve_right hmem
      obtain ⟨path, hpath, hput, -⟩ := writeFile_eq_ok_iff.1 hfirst
      refine ⟨path, hpath, ?_⟩
      rw [lastSharing_cons_self]
      exact read_writeFiles hpath (read_put hput) hrest

/-- To generate is to write the files and to tell how many they are. -/
theorem generate_eq_ok_iff {call : Call} {journal last : Journal Disk} :
    (generate call).run journal = (.ok (), last) ↔
      ∃ root between, call.options.output? = some root ∧
        (writeFiles root ((call.options.flag? prettyKey).getD false) call.logger call.files).run
          journal = (.ok (), between) ∧
        last = ⟨between.world, between.entries ++ [⟨call.logger.audience, .lifecycle,
          "Wrote " ++ toString call.files.length ++ " file(s) to " ++ root⟩]⟩ := by
  unfold generate
  generalize call.options.output? = output
  cases output with
  | none => exact iff_of_false nofun nofun
  | some root =>
    constructor
    · intro h
      obtain ⟨_, between, hwrite, hlog⟩ := Work.run_bind_eq_ok_iff.1 h
      rw [Logger.progress, Logger.run_log] at hlog
      cases hlog
      exact ⟨root, between, rfl, hwrite, rfl⟩
    · rintro ⟨_, between, hroot, hwrite, rfl⟩
      cases hroot
      exact Work.run_bind_eq_ok_iff.2 ⟨(), between, hwrite, rfl⟩

/-! ### What is found -/

/-- The document that goes by the name of a file is there, and it is one for the file. -/
def Finds (disk : Disk) (root name : String) (file : SchemaFile) : Prop :=
  ∃ path, outputPath root name = some path ∧ disk.HoldsFile path file

/-- One name leads to one file. -/
theorem Finds.unique {disk : Disk} {name : String} (h : Finds disk root name file)
    (hother : Finds disk root name other) : file = other := by
  obtain ⟨path, hpath, hholds⟩ := h
  obtain ⟨path', hpath', hholds'⟩ := hother
  obtain rfl := Option.some.inj (hpath.symm.trans hpath')
  exact hholds.unique hholds'

theorem finds_of_mem_writeFiles {journal last : Journal Disk} (hfile : file ∈ files)
    (h : (writeFiles root pretty logger files).run journal = (.ok (), last)) :
    Finds last.world root file.name (lastSharing files file) := by
  obtain ⟨path, hpath, hread⟩ := read_of_mem_writeFiles hfile h
  exact ⟨path, hpath, _, hread, parse_render_within pretty _⟩

/-- Documents that are found for files of which no two share one have as many places. -/
theorem exists_places {disk : Disk}
    (hfound : ∀ file ∈ files, ∃ held, Finds disk root file.name held)
    (hdistinct : files.Pairwise fun file other => ¬ SameDocument file.name other.name) :
    ∃ places : List (List String), places.Nodup ∧ places.length = files.length ∧
      ∀ place ∈ places, ∃ content, disk.lookup place = some (.document content) := by
  have hplace : ∀ file ∈ files, ∃ place content, disk.lookup place = some (.document content) ∧
      Path.isBelow (Path.withExtension "json" file.name) = true ∧
      disk.locate (Path.join root (Path.withExtension "json" file.name)) = .ok place := by
    intro file hfile
    obtain ⟨held, path, hpath, text, hread, -⟩ := hfound file hfile
    obtain ⟨hbelow, hjoin⟩ := outputPath_eq_some_iff.1 hpath
    obtain ⟨place, hlocate, hlookup⟩ := Disk.read_eq_ok_iff.1 hread
    exact ⟨place, _, hlookup, hbelow, hjoin ▸ hlocate⟩
  choose! place content hlookup hbelow hlocate using hplace
  refine ⟨files.map place, ?_, List.length_map _, ?_⟩
  · rw [List.Nodup, List.pairwise_map]
    refine hdistinct.imp_of_mem fun {file other} hfile hother hsame heq => hsame ?_
    exact (Disk.components_eq_iff_of_locate (hbelow file hfile) (hbelow other hother)
      (hlocate file hfile) (hlocate other hother)).2 heq
  · intro p hp
    obtain ⟨file, hfile, rfl⟩ := List.mem_map.1 hp
    exact ⟨content file, hlookup file hfile⟩

/-- **Generated documents.** Let the documents for files have been generated, on whatever disk. Then
the name of each file leads to a document for the last file that shares it. So all files are found
just where those that share a document are equal. The last record tells how many files have been
written, and if no two of them share a document there are as many documents, each at a place of its
own.

**Proof sketch.** A document is read under its path until another one is written at the same place
(`read_writeFiles`). Both paths add names to the same directory, so they lead to the same place just
where the names are the same (`Disk.components_eq_iff_of_locate`). What is read is the text of a
file, from which this file is recovered (`parse_render_within`). -/
theorem generate_documents {call : Call} {journal last : Journal Disk}
    (h : (generate call).run journal = (.ok (), last)) :
    ∃ root, call.options.output? = some root ∧
      (∀ file ∈ call.files, Finds last.world root file.name (lastSharing call.files file)) ∧
      ((∀ file ∈ call.files, Finds last.world root file.name file) ↔
        ∀ file ∈ call.files, ∀ other ∈ call.files,
          SameDocument file.name other.name → file = other) ∧
      last.entries.getLast? = some ⟨call.logger.audience, .lifecycle,
        "Wrote " ++ toString call.files.length ++ " file(s) to " ++ root⟩ ∧
      (call.files.Pairwise (fun file other => ¬ SameDocument file.name other.name) →
        ∃ places : List (List String), places.Nodup ∧ places.length = call.files.length ∧
          ∀ place ∈ places, ∃ content, last.world.lookup place = some (.document content)) := by
  obtain ⟨root, between, houtput, hwrite, rfl⟩ := generate_eq_ok_iff.1 h
  have hfinds : ∀ file ∈ call.files,
      Finds between.world root file.name (lastSharing call.files file) :=
    fun file hfile => finds_of_mem_writeFiles hfile hwrite
  refine ⟨root, houtput, hfinds, ?_, List.getLast?_concat, ?_⟩
  · rw [← forall_lastSharing_eq_self_iff]
    constructor
    · exact fun hall file hfile => (hfinds file hfile).unique (hall file hfile)
    · intro hlast file hfile
      have hfound := hfinds file hfile
      rwa [hlast file hfile] at hfound
  · exact fun hdistinct => exists_places (fun file hfile => ⟨_, hfinds file hfile⟩) hdistinct

/-- A file with this name, in a package of this name. -/
def fileNamed (name : String) : SchemaFile := ⟨name, ⟨name⟩, [], [], [], .unknown, [], []⟩

/-- The call to generate documents for two files. -/
def callFor (first second : String) : Call where
  options := .ofPairs [(GenerationOptions.outputKey, "out")]
  files := [fileNamed first, fileNamed second]
  logger := ⟨.orchestrator, false⟩

/-- Two documents that can be put on a disk one after the other are generated. -/
theorem exists_generate_callFor {first second path next : String} {between last : Disk}
    (hpath : outputPath "out" first = some path) (hnext : outputPath "out" second = some next)
    (hfirst : put .empty path (render false (fileNamed first)) = .ok between)
    (hsecond : put between next (render false (fileNamed second)) = .ok last) :
    ∃ entries, (generate (callFor first second)).run ⟨.empty, []⟩ = (.ok (), ⟨last, entries⟩) := by
  refine ⟨_, generate_eq_ok_iff.2 ⟨"out", ⟨last, []⟩, rfl, ?_, rfl⟩⟩
  have hwrite : (writeFile "out" false ⟨.orchestrator, false⟩ (fileNamed first)).run ⟨.empty, []⟩ =
      (.ok (), ⟨between, []⟩) := writeFile_eq_ok_iff.2 ⟨path, hpath, hfirst, rfl⟩
  have hwrite' : (writeFile "out" false ⟨.orchestrator, false⟩ (fileNamed second)).run
      ⟨between, []⟩ = (.ok (), ⟨last, []⟩) := writeFile_eq_ok_iff.2 ⟨next, hnext, hsecond, rfl⟩
  refine Work.run_bind_eq_ok_iff.2 ⟨(), _, hwrite, ?_⟩
  exact Work.run_bind_eq_ok_iff.2 ⟨(), _, hwrite', rfl⟩

/-- Files beside a directory and in it are both found, each in a document of its own. -/
theorem generate_documents_nested :
    ∃ last, (generate (callFor "a.proto" "b/c.proto")).run ⟨.empty, []⟩ = (.ok (), last) ∧
      (∀ file ∈ (callFor "a.proto" "b/c.proto").files, Finds last.world "out" file.name file) ∧
      ∃ places : List (List String), places.Nodup ∧ places.length = 2 ∧
        ∀ place ∈ places, ∃ content, last.world.lookup place = some (.document content) := by
  have hfirst (text : String) : put .empty "out/a.json" text =
      .ok ⟨[(["work", "out", "a.json"], .document text.toUTF8), (["work", "out"], .directory),
        (["work"], .directory)]⟩ := rfl
  have hsecond (text more : String) : put ⟨[(["work", "out", "a.json"], .document text.toUTF8),
        (["work", "out"], .directory), (["work"], .directory)]⟩ "out/b/c.json" more =
      .ok ⟨[(["work", "out", "b", "c.json"], .document more.toUTF8),
        (["work", "out", "b"], .directory), (["work", "out", "a.json"], .document text.toUTF8),
        (["work", "out"], .directory), (["work"], .directory)]⟩ := rfl
  have hdistinct : (callFor "a.proto" "b/c.proto").files.Pairwise fun file other =>
      ¬ SameDocument file.name other.name := by decide
  obtain ⟨entries, hrun⟩ := exists_generate_callFor (by decide) (by decide)
    (hfirst (render false (fileNamed "a.proto")))
    (hsecond _ (render false (fileNamed "b/c.proto")))
  obtain ⟨root, hroot, -, hfound, -, hplaces⟩ := generate_documents hrun
  obtain rfl : "out" = root := Option.some.inj hroot
  refine ⟨_, hrun, hfound.2 ?_, hplaces hdistinct⟩
  decide

/-- Files whose names differ in what counts as an extension share a document, and one is lost. -/
theorem not_finds_versions :
    ((callFor "api.v1" "api.v2").files.map SchemaFile.name).Nodup ∧
      ∃ last, (generate (callFor "api.v1" "api.v2")).run ⟨.empty, []⟩ = (.ok (), last) ∧
        ∃ file ∈ (callFor "api.v1" "api.v2").files, ¬ Finds last.world "out" file.name file := by
  have hfirst (text : String) : put .empty "out/api.json" text =
      .ok ⟨[(["work", "out", "api.json"], .document text.toUTF8), (["work", "out"], .directory),
        (["work"], .directory)]⟩ := rfl
  have hsecond (text more : String) : put ⟨[(["work", "out", "api.json"], .document text.toUTF8),
        (["work", "out"], .directory), (["work"], .directory)]⟩ "out/api.json" more =
      .ok ⟨[(["work", "out", "api.json"], .document more.toUTF8),
        (["work", "out", "api.json"], .document text.toUTF8), (["work", "out"], .directory),
        (["work"], .directory)]⟩ := rfl
  obtain ⟨entries, hrun⟩ := exists_generate_callFor (by decide) (by decide)
    (hfirst (render false (fileNamed "api.v1"))) (hsecond _ (render false (fileNamed "api.v2")))
  refine ⟨by decide, _, hrun, fileNamed "api.v1", List.mem_cons_self, fun hfound => ?_⟩
  -- the document is one for the other file
  obtain ⟨root, between, hroot, hwrite, hlast⟩ := generate_eq_ok_iff.1 hrun
  obtain rfl : "out" = root := Option.some.inj hroot
  have hmem : fileNamed "api.v1" ∈ (callFor "api.v1" "api.v2").files := List.mem_cons_self
  have hother := finds_of_mem_writeFiles hmem hwrite
  rw [← congrArg Journal.world hlast] at hother
  have hsame : SameDocument (fileNamed "api.v1").name (fileNamed "api.v2").name := by
    decide +kernel
  have hlost : lastSharing (callFor "api.v1" "api.v2").files (fileNamed "api.v1") =
      fileNamed "api.v2" := by
    simp only [lastSharing, callFor, List.findRev?, hsame, decide_true, if_true, Option.getD_some]
  have hnames := congrArg SchemaFile.name ((hfound.unique hother).trans hlost)
  exact absurd hnames (by decide)

end DocumentGenerator

end SchemaForge
