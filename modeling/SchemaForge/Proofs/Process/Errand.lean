import SchemaForge.Process.Load
import SchemaForge.Proofs.Plugin.Running
set_option autoImplicit false

/-!
# The errand of an orchestrator

To start a plugin and to call it are two pieces of work, with other work between them. For the
plugin they are one conversation. It is the plan of this conversation from its first message to its
last, in which the orchestrator has its part whatever the process at the other end is.

## Main definitions

* `SchemaForge.Wire.Talk.andThen` — one talk after another.
* `SchemaForge.Contact.callTalk` — the part of an orchestrator in the one call of a plugin.
* `SchemaForge.errand` — its part in the whole conversation.
* `SchemaForge.loadAndCall` — a plugin started and called.
* `SchemaForge.IsPlanOfCall` — a talk is the plan of this work.

## Main results

* `SchemaForge.Contact.run_plugin` — to call a plugin is to run the talk of the call.
* `SchemaForge.isPlanOfCall_errand` — to start a plugin and to call it is to run the errand.
-/

namespace SchemaForge

open Wire

/-! ### One talk after another -/

namespace Wire.Talk

variable {ι ο ν α β : Type}

/-- The talk that follows when the first one has its result. -/
def andThen : Talk ι ο ν α → (α → Talk ι ο ν β) → Talk ι ο ν β
  | .done result, next => next result
  | .stall, _ => .stall
  | .note remark rest, next => .note remark (rest.andThen next)
  | .send message rest, next => .send message fun result => (rest result).andThen next
  | .listen hear rest, next => .listen hear fun result => (rest result).andThen next

/-- A talk after another is run on the channel that the first one leaves. -/
theorem run_andThen {π : Type} [Wire ι] [Wire ο] [Peer π] (talk : Talk ι ο ν α)
    (next : α → Talk ι ο ν β) (channel : Channel ι π) :
    (talk.andThen next).run channel =
      match (talk.run channel).result with
      | none => ⟨(talk.run channel).notes, (talk.run channel).channel, none⟩
      | some result =>
        ((next result).run (talk.run channel).channel).after (talk.run channel).notes := by
  induction talk generalizing channel with
  | done result => simp [andThen, run, Record.after]
  | stall => simp [andThen, run]
  | note remark rest ih =>
    simp only [andThen, run, ih, Record.after]
    cases (rest.run channel).result with
    | none => rfl
    | some result => simp
  | send message rest ih =>
    simp only [andThen, run, ih]
  | listen hear rest ih =>
    simp only [andThen, run]
    obtain ⟨notes, found, inbox⟩ := channel.inbox.listen hear
    cases found with
    | ok message =>
      simp only [ih, Record.after]
      cases ((rest (.ok message)).run { channel with inbox }).result with
      | none => rfl
      | some result => simp
    | error halt =>
      cases halt with
      | failed error =>
        simp only [ih, Record.after]
        cases ((rest (.error error)).run { channel with inbox }).result with
        | none => rfl
        | some result => simp
      | stalled => rfl

end Wire.Talk

/-! ### Details -/

/-- The details that are noted, if details are wanted. -/
def Logger.details (logger : Logger) (texts : List String) : List Entry :=
  if logger.debug then texts.map fun text => ⟨logger.audience, .debug, text⟩ else []

/-- A detail that is noted comes before the notes of the rest. -/
theorem Logger.run_note {α π : Type} [Peer π] (logger : Logger) (text : String)
    (next : OrchestratorTalk α) (channel : Channel Reply π) :
    (logger.note text next).run channel = (next.run channel).after (logger.details [text]) := by
  unfold note details
  split
  · rfl
  · rfl

/-- A detail is written behind the entries of a journal. -/
theorem Logger.run_detail {σ ε : Type} (logger : Logger) (text : String) (journal : Journal σ) :
    (logger.detail text : Work σ ε Unit).run journal =
      (.ok (), ⟨journal.world, journal.entries ++ logger.details [text]⟩) := by
  unfold detail details
  split
  · rfl
  · rw [List.append_nil]
    rfl

/-! ### The call -/

/-- The description of a plugin that runs as a process is the one it has given. -/
theorem Contact.metadata_plugin {π : Type} [Peer π] (contact : Contact) :
    (contact.plugin (π := π)).metadata = contact.metadata := by
  obtain ⟨⟨name, description, options, role⟩, command, number, logger⟩ := contact
  cases role with
  | generator => rfl
  | processor => rfl

/-- What an answer means to the caller of the plugin. -/
def Contact.accept (contact : Contact) (answer : Reply.Body) :
    Except PluginError (Option (List SchemaFile)) :=
  match contact.metadata.role, answer with
  | .generator, .codeGenerated => .ok none
  | .generator, got => .error (contact.unexpected "CodeGenerated" got)
  | .processor, .changedInput files => .ok (some files)
  | .processor, got => .error (contact.unexpected "ChangedInput" got)

/-- The part of an orchestrator in the one call of a plugin. -/
def Contact.callTalk (contact : Contact) (call : Call) :
    OrchestratorTalk (Except PluginError (Option (List SchemaFile))) :=
  if contact.metadata.role = .generator ∧ call.options.output?.isNone then
    .done (.error (.missingOption GenerationOptions.outputKey))
  else
    (exchange contact call).andThen fun answer =>
      contact.logger.note contact.farewellText <| .done (answer.bind contact.accept)

/-! ### Work -/

namespace Work

variable {σ ε ε' α β : Type}

/-- Work that takes a failure as its result. -/
def attempt (work : Work σ ε α) : Work σ ε' (Except ε α) := fun journal =>
  match work.run journal with
  | (.ok a, journal) => (.ok (.ok a), journal)
  | (.error (.failed error), journal) => (.ok (.error error), journal)
  | (.error .stalled, journal) => (.error .stalled, journal)

/-- What work comes to whose result is the one of a talk. -/
def outcome : Option (Except ε α) → Except (Halt ε) α
  | none => .error .stalled
  | some (.ok a) => .ok a
  | some (.error error) => .error (.failed error)

/-- An attempt takes the result of a talk as it is. -/
theorem run_attempt {work : Work σ ε α} {result : Option (Except ε α)} {journal last : Journal σ}
    (h : work.run journal = (outcome result, last)) :
    (work.attempt : Work σ ε' (Except ε α)).run journal = (outcome (result.map .ok), last) := by
  have hrun : (work.attempt : Work σ ε' (Except ε α)).run journal =
      match work.run journal with
      | (.ok a, journal) => (.ok (.ok a), journal)
      | (.error (.failed error), journal) => (.ok (.error error), journal)
      | (.error .stalled, journal) => (.error .stalled, journal) := rfl
  rw [hrun, h]
  rcases result with _ | _ | a <;> rfl

end Work

namespace Contact

variable {π : Type} [Peer π]

/-- Notes are written behind the entries of a journal. -/
theorem run_writeDown {σ ε : Type} (notes : List Entry) (journal : Journal σ) :
    (writeDown notes : Work σ ε Unit).run journal =
      (.ok (), ⟨journal.world, journal.entries ++ notes⟩) := rfl

/-- To hand a plugin its input uses up the channel. What was noted in the exchange is written down,
and if there is a result the process is let go. -/
theorem run_request (contact : Contact) (call : Call) {channel : Channel Reply π}
    {record : Talk.Record Reply Entry (Except PluginError Reply.Body) π} (entries : List Entry)
    (h : (exchange contact call).run channel = record) :
    (contact.request call).run ⟨some channel, entries⟩ =
      (Work.outcome record.result,
        ⟨none, entries ++ record.notes ++
          if record.result.isSome then contact.logger.details [contact.farewellText] else []⟩) := by
  simp only [request, Work.run_bind, Work.run_world, Work.run_setWorld, run_writeDown, h]
  obtain ⟨notes, last, result⟩ := record
  cases result with
  | none =>
    simp only [Option.isSome_none, Bool.false_eq_true, if_false, List.append_nil]
    rfl
  | some result =>
    simp only [Work.run_bind, farewell, Logger.run_detail, Option.isSome_some, if_true]
    cases result with
    | ok answer => rfl
    | error error => rfl

/-- A plugin is left alone where it lacks its output directory. -/
theorem run_plugin_of_missing (contact : Contact) (call : Call)
    (hmissing : contact.metadata.role = .generator ∧ call.options.output?.isNone)
    (journal : Journal (Line π)) :
    (contact.plugin.run call).run journal =
      (.error (.failed (.missingOption GenerationOptions.outputKey)), journal) := by
  obtain ⟨⟨name, description, options, role⟩, command, number, logger⟩ := contact
  obtain ⟨hrole, hnone⟩ := hmissing
  obtain rfl : role = .generator := hrole
  simp only [Contact.plugin, Plugin.run, generate, if_pos hnone]
  rfl

/-- Otherwise a plugin is handed its input, and its answer is accepted if it suits the role. -/
theorem run_plugin_of_not_missing (contact : Contact) (call : Call)
    (hoption : ¬ (contact.metadata.role = .generator ∧ call.options.output?.isNone))
    (journal : Journal (Line π)) :
    (contact.plugin.run call).run journal =
      ((contact.request call : Work (Line π) PluginError Reply.Body) >>= fun answer =>
        Work.ofExcept (contact.accept answer)).run journal := by
  obtain ⟨⟨name, description, options, role⟩, command, number, logger⟩ := contact
  cases role with
  | generator =>
    have hsome : ¬ call.options.output?.isNone := fun hnone => hoption ⟨rfl, hnone⟩
    simp only [Contact.plugin, Plugin.run, generate, if_neg hsome, Work.run_bind]
    rcases (request _ call).run journal with ⟨_ | answer, journal⟩
    · rfl
    · cases answer <;> rfl
  | processor =>
    simp only [Contact.plugin, Plugin.run, process, Work.run_bind]
    rcases (request _ call).run journal with ⟨_ | answer, journal⟩
    · rfl
    · cases answer <;> rfl

/-- **Calls.** To call a plugin that runs as a process is to run the talk of the call over the
channel to it, and to write down what is noted.

**Proof sketch.** Without an output directory neither the plugin nor the talk does anything. The
talk of the call is the exchange with the farewell behind it, and the request runs the exchange and
then says farewell. -/
theorem run_plugin (contact : Contact) (call : Call) {channel : Channel Reply π}
    {record : Talk.Record Reply Entry (Except PluginError (Option (List SchemaFile))) π}
    (entries : List Entry) (h : (contact.callTalk call).run channel = record) :
    ∃ line, (contact.plugin.run call).run ⟨some channel, entries⟩ =
      (Work.outcome record.result, ⟨line, entries ++ record.notes⟩) := by
  unfold callTalk at h
  split at h
  · rename_i hmissing
    subst h
    refine ⟨some channel, ?_⟩
    rw [run_plugin_of_missing contact call hmissing]
    simp only [Talk.run, List.append_nil]
    rfl
  · rename_i hoption
    rw [Talk.run_andThen] at h
    rw [run_plugin_of_not_missing contact call hoption, Work.run_bind,
      run_request contact call entries rfl]
    refine ⟨none, ?_⟩
    cases hresult : ((exchange contact call).run channel).result with
    | none =>
      rw [hresult] at h
      subst h
      simp [Work.outcome]
    | some result =>
      rw [hresult] at h
      subst h
      cases result with
      | ok answer =>
        simp only [Work.outcome, Logger.run_note, Talk.run, Talk.Record.after]
        cases haccept : contact.accept answer with
        | ok value => simp [Except.bind, haccept]; rfl
        | error error => simp [Except.bind, haccept]; rfl
      | error error =>
        simp [Work.outcome, Logger.run_note, Talk.run, Talk.Record.after, Except.bind]

end Contact

/-! ### The errand -/

/-- What comes of a plugin that has been started and called: the description it has given, and the
result of the call. -/
abbrev CallReport := Metadata × Except PluginError (Option (List SchemaFile))

/-- The part of an orchestrator in the conversation with a plugin that is started with the given
command and then called. -/
def errand (logger : Logger) (command : String) (number : Nat) (call : Call) :
    OrchestratorTalk (Except HandshakeFault CallReport) :=
  (handshake logger).andThen fun
    | .error fault => .done (.error fault)
    | .ok metadata =>
      (Contact.callTalk ⟨metadata, command, number, logger⟩ call).andThen fun result =>
        .done (.ok (metadata, result))

/-- Calls a plugin that has been started, over the channel to it. -/
def callLoaded {π : Type} [Peer π] (call : Call) (loaded : Contact × Channel Reply π) :
    Work (Line π) LoadError CallReport := do
  Work.setWorld (some loaded.2)
  let plugin : Plugin (Line π) := loaded.1.plugin
  return (plugin.metadata, ← (plugin.run call).attempt)

/-- Starts a plugin and calls it. -/
def loadAndCall {π : Type} [Process π] (system : System π) (logger : Logger) (number : Nat)
    (command : List String) (call : Call) : Work (Line π) LoadError CallReport := do
  callLoaded call (← load system logger number command)

/-- To call a plugin that has been started is to run the talk of the call. -/
theorem run_callLoaded {π : Type} [Peer π] (contact : Contact) (call : Call)
    {channel : Channel Reply π}
    {record : Talk.Record Reply Entry (Except PluginError (Option (List SchemaFile))) π}
    (journal : Journal (Line π)) (h : (contact.callTalk call).run channel = record) :
    ∃ line, (callLoaded call (contact, channel)).run journal =
      (Work.outcome (record.result.map fun result => .ok (contact.metadata, result)),
        ⟨line, journal.entries ++ record.notes⟩) := by
  obtain ⟨line, hrun⟩ := contact.run_plugin call journal.entries h
  have hattempt : (callLoaded call (contact, channel)).run journal =
      (do return (contact.plugin.metadata, ← (contact.plugin.run call).attempt) :
        Work (Line π) LoadError CallReport).run ⟨some channel, journal.entries⟩ := rfl
  refine ⟨line, ?_⟩
  rw [hattempt, Work.run_bind, Contact.metadata_plugin]
  rw [Work.run_attempt hrun]
  obtain ⟨notes, last, _ | result⟩ := record <;> rfl

section Adequacy

variable {π : Type} [Process π] {σ : Type}

/-- To ask a plugin to describe itself is to run the handshake. -/
theorem run_greet (logger : Logger) (started : Started π)
    {record : Talk.Record Reply Entry (Except HandshakeFault Metadata) π} (journal : Journal σ)
    (h : (handshake logger).run started.channel = record) :
    (greet logger started).run journal =
      (Work.outcome (record.result.map fun result =>
          (result.map fun metadata =>
            (⟨metadata, started.command, Process.number started.peer, logger⟩,
              record.channel)).mapError
            (LoadError.ofFault started.command (Process.status? record.channel.peer))),
        ⟨journal.world, journal.entries ++ record.notes⟩) := by
  simp only [greet, Work.run_bind, Contact.run_writeDown, h]
  obtain ⟨notes, channel, _ | _ | metadata⟩ := record
  · rfl
  · rfl
  · rfl

/-- A process that starts is noted, and then asked to describe itself. -/
theorem run_load {system : System π} {logger : Logger} {number : Nat} {command : List String}
    {peer : π} (hcommand : command ≠ [])
    (hspawn : system.spawn number (pluginEnvironment logger.debug) command = some peer)
    (journal : Journal σ) :
    (load system logger number command).run journal =
      (greet logger ⟨commandLine command, peer⟩).run ⟨journal.world, journal.entries ++
        logger.details [startedText (commandLine command) (Process.number peer)]⟩ := by
  have hstart : (start system logger number command).run journal =
      (.ok ⟨commandLine command, peer⟩, ⟨journal.world, journal.entries ++
        logger.details [startedText (commandLine command) (Process.number peer)]⟩) := by
    unfold start
    rw [if_neg hcommand, hspawn]
    simp only [Work.run_bind, Logger.run_detail]
    rfl
  unfold load
  rw [Work.run_bind, hstart]

/-- A talk is the plan by which a plugin is started with the given command and then called: whatever
process the system starts, and whatever this process does, to start it and to call it comes to the
result of the talk over the channel to the process, and writes down what is noted. -/
def IsPlanOfCall (talk : OrchestratorTalk (Except HandshakeFault CallReport)) (logger : Logger)
    (command : List String) (pid : Nat) (call : Call) : Prop :=
  ∀ (π : Type) [Process π] (system : System π) (number : Nat) (peer : π)
    (journal : Journal (Line π)),
    system.spawn number (pluginEnvironment logger.debug) command = some peer →
    Process.number peer = pid →
    ∃ line, (loadAndCall system logger number command call).run journal =
      let record := talk.run (Started.channel ⟨commandLine command, peer⟩)
      (Work.outcome (record.result.map (Except.mapError
        (LoadError.ofFault (commandLine command) (Process.status? record.channel.peer)))),
      ⟨line, journal.entries ++ logger.details [startedText (commandLine command) pid] ++
        record.notes⟩)

/-- **Adequacy.** The errand is the plan by which a plugin is started and called.

**Proof sketch.** The handshake comes first in both. If the plugin describes itself, the call goes
on over the channel that the handshake leaves, and `Contact.run_plugin` says what becomes of it. -/
theorem isPlanOfCall_errand (logger : Logger) {command : List String} (pid : Nat) (call : Call)
    (hcommand : command ≠ []) :
    IsPlanOfCall (errand logger (commandLine command) pid call) logger command pid call := by
  rintro π _ system number peer journal hspawn rfl
  generalize hrecord : (errand logger (commandLine command) (Process.number peer) call).run
    (Started.channel ⟨commandLine command, peer⟩) = record
  rw [errand, Talk.run_andThen] at hrecord
  rw [loadAndCall, Work.run_bind, run_load hcommand hspawn, run_greet logger _ _ rfl]
  generalize (handshake logger).run (Started.channel ⟨commandLine command, peer⟩) = greeting
    at hrecord ⊢
  obtain ⟨notes, channel, result⟩ := greeting
  cases result with
  | none =>
    subst hrecord
    exact ⟨journal.world, rfl⟩
  | some described =>
    cases described with
    | error fault =>
      subst hrecord
      refine ⟨journal.world, ?_⟩
      simp only [Talk.run, Talk.Record.after, List.append_nil]
      rfl
    | ok metadata =>
      obtain ⟨line, hcall⟩ := run_callLoaded
        ⟨metadata, commandLine command, Process.number peer, logger⟩ call
        ⟨journal.world, journal.entries ++
          logger.details [startedText (commandLine command) (Process.number peer)] ++ notes⟩
        (@rfl _ ((Contact.callTalk _ call).run channel))
      refine ⟨line, ?_⟩
      refine Eq.trans hcall ?_
      simp only [Talk.run_andThen] at hrecord
      subst hrecord
      generalize (Contact.callTalk _ call).run channel = called
      obtain ⟨more, last, _ | value⟩ := called
      · simp only [Talk.Record.after, List.append_assoc]
        rfl
      · simp only [Talk.Record.after, Talk.run, List.append_assoc, List.append_nil]
        rfl

end Adequacy

end SchemaForge
