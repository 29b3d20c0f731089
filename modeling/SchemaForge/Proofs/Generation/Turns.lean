import SchemaForge.Generation.Run
import SchemaForge.Proofs.Plugin.Running
set_option autoImplicit false

/-!
# The turns of a run

The plugins of a run have their turns one after the other. A processor hands the plugins behind it
the schema that it gives back, and a generator leaves the schema as it is. The first plugin that
fails, or that logs errors where these end a run, stops the run, and the plugins behind it are not
called.

To tell which calls a run makes, its plugins keep a book: each notes in it that it is called, and
with what. Apart from the book a plugin may do with a call whatever it likes.

## Main definitions

* `SchemaForge.Conduct`, `SchemaForge.Actor` — what a plugin does with its calls, and a plugin that
  is known by this.
* `SchemaForge.Actor.plugin` — the plugin, which notes its calls in a book.
* `SchemaForge.Terms.filesBefore` — the schema that the processors before a plugin leave.
* `SchemaForge.Turn`, `SchemaForge.Terms.turns` — the turns that the plugins of a run have if none
  of them stops it.

## Main results

* `SchemaForge.Terms.run_callPlugin` — what becomes of one turn.
* `SchemaForge.Terms.run_callAll_of_forall_none`, `SchemaForge.Terms.run_callAll_of_some` — what
  becomes of all turns.
* `SchemaForge.Terms.generate_calls_in_order` — what becomes of a run.
-/

namespace SchemaForge

/-! ### Plugins that keep a book -/

/-- What a plugin does with a call: the records that it logs, and what comes of its work. -/
inductive Conduct where
  | generator (act : Call → List LogRecord × Except PluginError Unit)
  | processor (act : Call → List LogRecord × Except PluginError (List SchemaFile))

/-- A plugin that is known by what it does with its calls. -/
structure Actor where
  name : String
  description : String
  options : List OptionDescriptor
  conduct : Conduct

/-- The calls that plugins have noted, each with the number of the plugin that was called. -/
abbrev CallBook := List (Nat × Call)

/-- The work of the plugin with a certain number on a call: it notes the call, logs its records,
and comes to its result. -/
def perform {α : Type} (index : Nat) (call : Call)
    (performance : List LogRecord × Except PluginError α) : Work CallBook PluginError α := do
  Work.setWorld ((← Work.world) ++ [(index, call)])
  performance.1.forM call.logger.log
  Work.ofExcept performance.2

/-- The plugin, under the number by which it is known in the book. -/
def Actor.plugin (actor : Actor) (index : Nat) : Plugin CallBook where
  name := actor.name
  description := actor.description
  options := actor.options
  task := match actor.conduct with
    | .generator act => .generator fun call => perform index call (act call)
    | .processor act => .processor fun call => perform index call (act call)

/-- The role of a plugin. -/
def Actor.role (actor : Actor) : Role :=
  match actor.conduct with
  | .generator _ => .generator
  | .processor _ => .processor

/-- What a plugin gives back of the files behind it, which only a processor does. -/
def Actor.changed (actor : Actor) (files : List SchemaFile) : Option (List SchemaFile) :=
  match actor.conduct with
  | .generator _ => none
  | .processor _ => some files

/-- A plugin that keeps a book has the same role. -/
theorem Actor.role_plugin (actor : Actor) (index : Nat) :
    (actor.plugin index).role = actor.role := by
  obtain ⟨name, description, options, conduct⟩ := actor
  cases conduct <;> rfl

/-- How a plugin describes itself. -/
def Actor.metadata (actor : Actor) : Metadata :=
  ⟨actor.name, actor.description, actor.options, actor.role⟩

/-- A plugin that keeps a book describes itself in the same way. -/
theorem Actor.metadata_plugin (actor : Actor) (index : Nat) :
    (actor.plugin index).metadata = actor.metadata :=
  congrArg (Metadata.mk actor.name actor.description actor.options) (actor.role_plugin index)

/-- A performance adds the call to the book and its records to the log. -/
theorem run_perform {α : Type} (index : Nat) (call : Call)
    (performance : List LogRecord × Except PluginError α) (journal : Journal CallBook) :
    (perform index call performance).run journal =
      (performance.2.mapError .failed, ⟨journal.world ++ [(index, call)],
        journal.entries ++ performance.1.map fun record => ⟨call.logger.audience, record⟩⟩) := by
  simp only [perform, Work.run_bind, Work.run_world, Work.run_setWorld, Logger.run_forM_log,
    Work.run_ofExcept]

/-! ### Turns -/

/-- The terms of a run without time limits: its rules, and the options it is given. -/
structure Terms where
  policy : ErrorPolicy
  debug : Bool
  options : GenerationOptions

namespace Terms

variable (terms : Terms)

/-- The call of a plugin that has its turn with these files. -/
def call (actor : Actor) (files : List SchemaFile) : Call :=
  ⟨terms.options.scopedFor actor.name, files, ⟨.plugin actor.name, terms.debug⟩⟩

/-- The records that a plugin logs, and what becomes of the files if it does not fail. -/
def performance (actor : Actor) (files : List SchemaFile) :
    List LogRecord × Except PluginError (List SchemaFile) :=
  match actor.conduct with
  | .generator act =>
    let (records, result) := act (terms.call actor files)
    (records, result.map fun _ => files)
  | .processor act => act (terms.call actor files)

/-- How many errors a plugin logs. -/
def errorCount (actor : Actor) (files : List SchemaFile) : Nat :=
  countErrors (terms.performance actor files).1

/-- Why the run stops with the turn of a plugin, if it does: the plugin fails, or else it has logged
errors and these end the run. -/
def stop? (actor : Actor) (files : List SchemaFile) : Option RunError :=
  match (terms.performance actor files).2 with
  | .error error => some (.plugin actor.name error)
  | .ok _ =>
    if terms.policy = .abort ∧ 0 < terms.errorCount actor files then
      some (.reportedErrors actor.name (terms.errorCount actor files))
    else none

/-- The files behind a plugin: a generator leaves them as they are, and a processor replaces them
unless it fails. -/
def filesAfter (files : List SchemaFile) (actor : Actor) : List SchemaFile :=
  match actor.conduct with
  | .generator _ => files
  | .processor act =>
    match (act (terms.call actor files)).2 with
    | .ok changed => changed
    | .error _ => files

/-- The files that the plugins before the one with this number leave. -/
def filesBefore (actors : List Actor) (files : List SchemaFile) (index : Nat) : List SchemaFile :=
  (actors.take index).foldl terms.filesAfter files

end Terms

/-- The turn of a plugin in a run. -/
structure Turn where
  /-- The number of the plugin. -/
  index : Nat
  actor : Actor
  /-- The files that the plugin is called with. -/
  files : List SchemaFile

namespace Terms

variable (terms : Terms)

/-- The turns of plugins that are numbered from `start` on: each plugin has one turn, with the files
that the plugins before it leave. -/
def turns (start : Nat) (actors : List Actor) (files : List SchemaFile) : List Turn :=
  actors.mapIdx fun i actor => ⟨start + i, actor, terms.filesBefore actors files i⟩

/-- Why the run stops with a turn, if it does. -/
def turnStop? (turn : Turn) : Option RunError := terms.stop? turn.actor turn.files

/-- What is reported of a turn. -/
def report (turn : Turn) : PluginReport :=
  ⟨turn.actor.name, turn.actor.role, terms.errorCount turn.actor turn.files⟩

/-- The log entries of a turn. -/
def entries (turn : Turn) : List Entry :=
  (terms.performance turn.actor turn.files).1.map fun record => ⟨.plugin turn.actor.name, record⟩

/-- The journal of these turns: the calls in the book, and the log. -/
def journal (turns : List Turn) : Journal CallBook :=
  ⟨turns.map fun turn => (turn.index, terms.call turn.actor turn.files),
    turns.flatMap terms.entries⟩

/-- The plugins of a run, numbered from `start` on. -/
def plugins (start : Nat) (actors : List Actor) : List (Plugin CallBook) :=
  actors.mapIdx fun i actor => actor.plugin (start + i)

/-- The run of these plugins, in which no time limit applies. -/
def run (actors : List Actor) : Run CallBook :=
  ⟨plugins 0 actors, terms.policy, none, terms.debug⟩

/-- The first plugin has its turn with the files that are given, and the others have theirs with the
files behind it. -/
theorem turns_cons (start : Nat) (actor : Actor) (actors : List Actor)
    (files : List SchemaFile) :
    terms.turns start (actor :: actors) files =
      ⟨start, actor, files⟩ :: terms.turns (start + 1) actors (terms.filesAfter files actor) := by
  unfold turns
  rw [List.mapIdx_cons]
  congr 2
  funext i other
  rw [Nat.add_assoc, Nat.add_comm 1 i]
  rfl

theorem plugins_cons (start : Nat) (actor : Actor) (actors : List Actor) :
    plugins start (actor :: actors) = actor.plugin start :: plugins (start + 1) actors := by
  unfold plugins
  rw [List.mapIdx_cons]
  congr 2
  funext i other
  rw [Nat.add_assoc, Nat.add_comm 1 i]

/-- The plugins of a run describe themselves as they do without a book. -/
theorem metadata_run (actors : List Actor) :
    (terms.run actors).metadata = actors.map Actor.metadata := by
  have hplugins : ∀ start, (plugins start actors).map Plugin.metadata =
      actors.map Actor.metadata := by
    induction actors with
    | nil => exact fun _ => rfl
    | cons actor actors ih =>
      intro start
      rw [plugins_cons, List.map_cons, List.map_cons, Actor.metadata_plugin, ih]
  exact hplugins 0

/-! ### One turn -/

/-- The journal of further turns is written behind the journal. -/
def afterTurns (journal : Journal CallBook) (turns : List Turn) : Journal CallBook :=
  ⟨journal.world ++ (terms.journal turns).world, journal.entries ++ (terms.journal turns).entries⟩

theorem afterTurns_cons (journal : Journal CallBook) (turn : Turn) (turns : List Turn) :
    terms.afterTurns journal (turn :: turns) =
      terms.afterTurns (terms.afterTurns journal [turn]) turns := by
  simp [afterTurns, Terms.journal]

/-- A plugin that is called notes the call and logs its records; it gives back files if it is a
processor. -/
theorem run_plugin (actor : Actor) (index : Nat) (files : List SchemaFile)
    (journal : Journal CallBook) :
    ((actor.plugin index).run (terms.call actor files)).run journal =
      (((terms.performance actor files).2.map actor.changed).mapError .failed,
        terms.afterTurns journal [⟨index, actor, files⟩]) := by
  obtain ⟨name, description, options, conduct⟩ := actor
  cases conduct with
  | generator act =>
    simp only [Actor.plugin, Plugin.run, Work.run_bind, run_perform, performance, afterTurns,
      Terms.journal, List.flatMap_singleton]
    cases (act (terms.call _ files)).2 <;> rfl
  | processor act =>
    simp only [Actor.plugin, Plugin.run, Work.run_bind, run_perform, performance, afterTurns,
      Terms.journal, List.flatMap_singleton]
    cases (act (terms.call _ files)).2 <;> rfl

/-- The files behind a plugin that does not fail are those that it gives back, if it does. -/
theorem getD_changed {actor : Actor} {files changed : List SchemaFile}
    (h : (terms.performance actor files).2 = .ok changed) :
    (actor.changed changed).getD files = terms.filesAfter files actor := by
  unfold performance at h
  unfold Actor.changed filesAfter
  split
  · rfl
  · rename_i act hact
    rw [hact] at h
    simp only [h, Option.getD_some]

/-- A plugin without a time limit that does not stall comes to its result, and its records are
written behind the entries of the journal. -/
theorem run_supervise {σ α : Type} {run : Run σ} {name : String} {work : Work σ PluginError α}
    {journal last : Journal σ} {result : Except PluginError α} (hlimit : run.limit = none)
    (h : work.run ⟨journal.world, []⟩ = (result.mapError .failed, last)) :
    (run.supervise name work).run journal =
      ((result.map fun a => (a, last.entries.map Entry.record)).mapError
          fun error => .failed (.plugin name error),
        ⟨last.world, journal.entries ++ last.entries⟩) := by
  change work ⟨journal.world, []⟩ = _ at h
  simp only [Run.supervise, ExceptT.run, h, hlimit]
  cases result <;> rfl

/-- The same of a plugin that keeps a book. -/
theorem run_supervise_plugin (all : List Actor) (actor : Actor) (index : Nat)
    (files : List SchemaFile) (journal : Journal CallBook) :
    ((terms.run all).supervise actor.name
        ((actor.plugin index).run (terms.call actor files))).run journal =
      (((terms.performance actor files).2.map fun changed =>
          (actor.changed changed, (terms.performance actor files).1)).mapError
            fun error => .failed (.plugin actor.name error),
        terms.afterTurns journal [⟨index, actor, files⟩]) := by
  have hplugin := terms.run_plugin actor index files ⟨journal.world, []⟩
  have hrecords : (terms.afterTurns ⟨journal.world, []⟩ [⟨index, actor, files⟩]).entries.map
      Entry.record = (terms.performance actor files).1 := by
    simp [afterTurns, Terms.journal, entries, Function.comp_def]
  rw [@run_supervise _ _ (terms.run all) actor.name _ journal _ _ rfl hplugin, hrecords]
  cases (terms.performance actor files).2 <;> rfl

/-- **A turn.** A plugin that has its turn is called once. Either the turn stops the run, or the run
goes on with the files behind the plugin.

**Proof sketch.** The plugin fails, or it comes to a result. Then the errors among its records are
counted. -/
theorem run_callPlugin (all : List Actor) (actor : Actor) (index : Nat) (files : List SchemaFile)
    (journal : Journal CallBook) :
    ((terms.run all).callPlugin terms.options (actor.plugin index) files).run journal =
      (match terms.stop? actor files with
        | some error => .error (.failed error)
        | none => .ok (terms.filesAfter files actor, terms.report ⟨index, actor, files⟩),
      terms.afterTurns journal [⟨index, actor, files⟩]) := by
  have hcall : (terms.run all).callPlugin terms.options (actor.plugin index) files =
      ((terms.run all).supervise actor.name ((actor.plugin index).run (terms.call actor files)) >>=
        fun done => do
          let errors := countErrors done.2
          if 0 < errors && terms.policy = .abort then
            Work.fail (.reportedErrors actor.name errors)
          return (done.1.getD files, ⟨actor.name, (actor.plugin index).role, errors⟩)) := rfl
  rw [hcall, Work.run_bind, run_supervise_plugin]
  unfold stop?
  cases hresult : (terms.performance actor files).2 with
  | error error => rfl
  | ok changed =>
    change ((do
      if 0 < terms.errorCount actor files && terms.policy = .abort then
        Work.fail (.reportedErrors actor.name (terms.errorCount actor files))
      return ((actor.changed changed).getD files,
        ⟨actor.name, (actor.plugin index).role, terms.errorCount actor files⟩)) :
        Work CallBook RunError (List SchemaFile × PluginReport)).run _ = _
    rw [terms.getD_changed hresult, actor.role_plugin]
    by_cases hstop : terms.policy = .abort ∧ 0 < terms.errorCount actor files
    · rw [if_pos (by simpa [and_comm] using hstop), if_pos hstop]
      rfl
    · rw [if_neg (by simpa [and_comm] using hstop), if_neg hstop]
      rfl

/-! ### All turns -/

/-- The run goes through all turns if none of them stops it. -/
theorem run_callAll_of_forall_none (all : List Actor) (start : Nat) (actors : List Actor)
    (files : List SchemaFile) (journal : Journal CallBook)
    (h : ∀ turn ∈ terms.turns start actors files, terms.turnStop? turn = none) :
    ((terms.run all).callAll terms.options (plugins start actors) files).run journal =
      (.ok ⟨actors.foldl terms.filesAfter files,
          (terms.turns start actors files).map terms.report⟩,
        terms.afterTurns journal (terms.turns start actors files)) := by
  induction actors generalizing start files journal with
  | nil => simp [plugins, turns, Run.callAll, afterTurns, Terms.journal, Work.run_pure]
  | cons actor actors ih =>
    rw [turns_cons] at h ⊢
    obtain ⟨hfirst, hothers⟩ := List.forall_mem_cons.1 h
    change terms.stop? actor files = none at hfirst
    rw [plugins_cons, Run.callAll, Work.run_bind, run_callPlugin, hfirst]
    simp only [Work.run_bind, ih _ _ _ hothers, Work.run_pure]
    rw [← afterTurns_cons]
    rfl

/-- The run goes up to the first turn that stops it.

**Proof sketch.** Induction on the turns before this one. If there are none, the turn is the one of
the first plugin. Otherwise the first plugin does not stop the run, and the others have their turns
with the files behind it. -/
theorem run_callAll_of_some (all : List Actor) {start : Nat} {actors : List Actor}
    {files : List SchemaFile} {before after : List Turn} {turn : Turn} {error : RunError}
    (journal : Journal CallBook) (hturns : terms.turns start actors files = before ++ turn :: after)
    (hbefore : ∀ earlier ∈ before, terms.turnStop? earlier = none)
    (hturn : terms.turnStop? turn = some error) :
    ((terms.run all).callAll terms.options (plugins start actors) files).run journal =
      (.error (.failed error), terms.afterTurns journal (before ++ [turn])) := by
  induction before generalizing start actors files journal with
  | nil =>
    cases actors with
    | nil => cases hturns
    | cons actor actors =>
      rw [turns_cons] at hturns
      obtain ⟨rfl, -⟩ := List.cons_eq_cons.1 hturns
      change terms.stop? actor files = some error at hturn
      rw [plugins_cons, Run.callAll, Work.run_bind, run_callPlugin, hturn]
      rfl
  | cons earlier before ih =>
    cases actors with
    | nil => cases hturns
    | cons actor actors =>
      rw [turns_cons] at hturns
      obtain ⟨rfl, hothers⟩ := List.cons_eq_cons.1 hturns
      obtain ⟨hfirst, hbefore⟩ := List.forall_mem_cons.1 hbefore
      change terms.stop? actor files = none at hfirst
      rw [plugins_cons, Run.callAll, Work.run_bind, run_callPlugin, hfirst]
      simp only [Work.run_bind, ih _ hothers hbefore, List.cons_append]
      rw [← afterTurns_cons]

/-! ### The run -/

/-- A run without an output directory calls no plugin. -/
theorem run_generate_of_missing (actors : List Actor) (files : List SchemaFile)
    (journal : Journal CallBook) (h : terms.options.output? = none) :
    ((terms.run actors).generate files terms.options).run journal =
      (.error (.failed .missingOutput), journal) := by
  unfold Run.generate
  rw [h]
  rfl

/-- Otherwise the options are looked at, and if they are in order the plugins have their turns. -/
theorem run_generate_of_output (actors : List Actor) (files : List SchemaFile)
    (journal : Journal CallBook) (h : terms.options.output?.isSome) :
    ((terms.run actors).generate files terms.options).run journal =
      match validateOptions (actors.map Actor.metadata) terms.options with
      | .error fault => (.error (.failed (.options fault)), journal)
      | .ok () =>
        ((terms.run actors).callAll terms.options (plugins 0 actors) files).run journal := by
  unfold Run.generate
  rw [metadata_run]
  obtain ⟨output, houtput⟩ := Option.isSome_iff_exists.1 h
  rw [houtput]
  cases validateOptions (actors.map Actor.metadata) terms.options <;> rfl

/-- **The order of a run.** Let a run without time limits be given plugins that do with their calls
whatever they like, some files and some options. Without an output directory, or with options that
are not in order, it fails and no plugin is called. Otherwise the plugins have their turns in order:
each is called once, with the options of its scope and with the files that the processors before it
leave. If no turn stops the run, its result is made of the files behind the last plugin and of a
report of each turn. Else it fails for the reason of the first turn that stops it, and no plugin
behind this one is called.

**Proof sketch.** Nothing is called before the options have been looked at. From then on every
plugin has its turn, and adds it to the journal, until one stops the run. -/
theorem generate_calls_in_order (actors : List Actor) (files : List SchemaFile) :
    let outcome := ((terms.run actors).generate files terms.options).run ⟨[], []⟩
    let turns := terms.turns 0 actors files
    (terms.options.output? = none → outcome = (.error (.failed .missingOutput), ⟨[], []⟩)) ∧
    (terms.options.output?.isSome →
      match validateOptions (actors.map Actor.metadata) terms.options with
      | .error fault => outcome = (.error (.failed (.options fault)), ⟨[], []⟩)
      | .ok () =>
        ((∀ turn ∈ turns, terms.turnStop? turn = none) →
          outcome = (.ok ⟨actors.foldl terms.filesAfter files, turns.map terms.report⟩,
            terms.journal turns)) ∧
        ∀ before turn after error, turns = before ++ turn :: after →
          (∀ earlier ∈ before, terms.turnStop? earlier = none) →
          terms.turnStop? turn = some error →
          outcome = (.error (.failed error), terms.journal (before ++ [turn]))) := by
  intro outcome turns
  refine ⟨terms.run_generate_of_missing actors files ⟨[], []⟩, fun houtput => ?_⟩
  have hrun : outcome = _ := terms.run_generate_of_output actors files ⟨[], []⟩ houtput
  cases hvalid : validateOptions (actors.map Actor.metadata) terms.options with
  | error fault =>
    rw [hvalid] at hrun
    exact hrun
  | ok _ =>
    rw [hvalid] at hrun
    refine ⟨fun hnone => ?_, fun before turn after error hturns hbefore hturn => ?_⟩
    · rw [hrun]
      exact terms.run_callAll_of_forall_none actors 0 actors files ⟨[], []⟩ hnone
    · rw [hrun]
      exact terms.run_callAll_of_some actors ⟨[], []⟩ hturns hbefore hturn

end Terms

/-! ### A run that is stopped -/

/-- A file without declarations. -/
def emptyFile (name : String) : SchemaFile := ⟨name, ⟨""⟩, [], [], [], .unknown, [], []⟩

/-- A processor that adds a file, a generator that logs an error, and a generator that is not called
where errors end a run. -/
def addingActors : List Actor :=
  [⟨"add", "", [], .processor fun call => ([], .ok (call.files ++ [emptyFile "b"]))⟩,
    ⟨"complain", "", [], .generator fun _ => ([⟨.warn, "odd"⟩, ⟨.error, "bad"⟩], .ok ())⟩,
    ⟨"idle", "", [], .generator fun _ => ([], .error (.failed "never called"))⟩]

/-- The run of these plugins stops with the second one, which has got the added file. -/
theorem generate_addingActors_stops :
    let terms : Terms := ⟨.abort, false, .put .empty "gen_output" "out"⟩
    let call (name : String) (files : List SchemaFile) : Call :=
      ⟨.put (.put .empty "permit_package_cycles" "false") "gen_output" ("out/" ++ name), files,
        ⟨.plugin name, false⟩⟩
    terms.options.output?.isSome ∧
      ((terms.run addingActors).generate [emptyFile "a"] terms.options).run ⟨[], []⟩ =
        (.error (.failed (.reportedErrors "complain" 1)),
          ⟨[(0, call "add" [emptyFile "a"]), (1, call "complain" [emptyFile "a", emptyFile "b"])],
            [⟨.plugin "complain", .warn, "odd"⟩, ⟨.plugin "complain", .error, "bad"⟩]⟩) := by
  intro terms call
  have houtput : terms.options.output?.isSome := by decide
  refine ⟨houtput, ?_⟩
  have horder := (terms.generate_calls_in_order addingActors [emptyFile "a"]).2 houtput
  have hvalid : validateOptions (addingActors.map Actor.metadata) terms.options = .ok () :=
    rfl
  rw [hvalid] at horder
  have hstops := horder.2 [⟨0, _, _⟩] ⟨1, _, _⟩ _ _ rfl (by decide) rfl
  have hjournal : terms.journal ((terms.turns 0 addingActors [emptyFile "a"]).take 2) =
      ⟨[(0, call "add" [emptyFile "a"]), (1, call "complain" [emptyFile "a", emptyFile "b"])],
        [⟨.plugin "complain", .warn, "odd"⟩, ⟨.plugin "complain", .error, "bad"⟩]⟩ := by
    decide
  rw [← hjournal]
  exact hstops

end SchemaForge
