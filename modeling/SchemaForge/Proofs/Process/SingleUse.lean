import SchemaForge.Proofs.Process.Errand
import SchemaForge.Proofs.Wire.RunningTalk
set_option autoImplicit false

/-!
# A process serves one call

A plugin that runs as a process may be called any number of times. A generator without an output
directory is left alone. The first other call uses up the channel, whatever comes of it, and later
ones find that there is none. To see what is written to the process from its start on, it is
watched: its peer is replaced by one that keeps a book of the bytes handed to it.

## Main definitions

* `SchemaForge.Watched` — a peer with a book of the bytes that are handed to it.
* `SchemaForge.Plugin.serve` — calls of a plugin one after the other.
* `SchemaForge.Contact.lacksOutput` — whether a call leaves the plugin alone.

## Main results

* `SchemaForge.Wire.Talk.run_unwatched` — to be watched changes nothing else.
* `SchemaForge.Contact.run_plugin_none`, `SchemaForge.Contact.run_plugin_some` — a call of the
  plugin.
* `SchemaForge.load_of_mem_loadAll` — plugins that are loaded together are each loaded.
* `SchemaForge.serve_of_load` — all the calls of a plugin, and all that is written to it.
-/

namespace SchemaForge

open Wire

/-! ### Watched peers -/

/-- A peer, and the bytes that have been handed to it. -/
structure Watched (π : Type) where
  peer : π
  book : Bytes

/-- A watched peer takes bytes as before. The book has them whether this succeeds or not. -/
instance {π : Type} [Peer π] : Peer (Watched π) where
  take bytes := fun (source, watched) =>
    let (result, source, peer) := Peer.take bytes (source, watched.peer)
    (result, source, ⟨peer, watched.book ++ bytes⟩)

instance {π : Type} [Process π] : Process (Watched π) where
  status? watched := Process.status? watched.peer
  number watched := Process.number watched.peer

/-- The system whose processes are watched from their start on. -/
def System.watched {π : Type} (system : System π) : System (Watched π) where
  spawn number environment command :=
    (system.spawn number environment command).map fun peer => ⟨peer, []⟩

namespace Wire

variable {ι ο ν α π : Type}

/-- The same channel to the peer as it is when nobody watches. -/
def Channel.unwatched (channel : Channel ι (Watched π)) : Channel ι π :=
  ⟨channel.inbox, channel.peer.peer⟩

/-- The same outcome for the peer as it is when nobody watches. -/
def Talk.Record.unwatched (record : Talk.Record ι ν α (Watched π)) : Talk.Record ι ν α π :=
  ⟨record.notes, record.channel.unwatched, record.result⟩

variable [Wire ο] [Peer π]

/-- A message is sent in the same way to a peer that is watched. -/
theorem Channel.send_unwatched (channel : Channel ι (Watched π)) (message : ο) :
    channel.unwatched.send message =
      ((channel.send message).1, (channel.send message).2.unwatched) := by
  unfold Channel.send
  cases frame message with
  | error error => rfl
  | ok bytes => rfl

/-- The book of a peer gets the bytes of a message that is sent. -/
theorem Channel.book_send (channel : Channel ι (Watched π)) (message : ο) :
    (channel.send message).2.peer.book = channel.peer.book ++ sent [message] := by
  unfold Channel.send
  rcases frame_eq_sent message with h | ⟨h, hsent⟩
  · rw [h]
    rfl
  · rw [h, hsent, List.append_nil]

variable [Wire ι]

/-- **Watching.** To be watched changes nothing about a talk.

**Proof sketch.** Induction on the talk: a watched peer takes bytes like the peer it is. -/
theorem Talk.run_unwatched (talk : Talk ι ο ν α) (channel : Channel ι (Watched π)) :
    (talk.run channel).unwatched = talk.run channel.unwatched := by
  induction talk generalizing channel with
  | done result => rfl
  | stall => rfl
  | note remark next ih =>
    rw [run, run, ← ih]
    rfl
  | send message next ih =>
    simp only [run, Channel.send_unwatched, ih]
  | listen hear next ih =>
    have hinbox : channel.unwatched.inbox = channel.inbox := rfl
    simp only [run, hinbox]
    obtain ⟨notes, result, inbox⟩ := channel.inbox.listen hear
    rcases result with (error | _) | message
    · change ((next (.error error)).run _).unwatched.after notes = _
      rw [ih]
      rfl
    · rfl
    · change ((next (.ok message)).run _).unwatched.after notes = _
      rw [ih]
      rfl

/-- Of a talk in which nothing follows the first message, the book gets the bytes of this one. -/
theorem Talk.book_run_send {message : ο} {next : Except TransportError Unit → Talk ι ο ν α}
    (h : ∀ result, (next result).Quiet) (channel : Channel ι (Watched π)) :
    ((Talk.send message next).run channel).channel.peer.book =
      channel.peer.book ++ sent [message] := by
  rw [run, (h _).peer_run, Channel.book_send]

end Wire

/-! ### What is written to a process -/

/-- To note a detail is to send nothing. -/
theorem Logger.quiet_note {α : Type} (logger : Logger) (text : String) {next : OrchestratorTalk α}
    (h : next.Quiet) : (logger.note text next).Quiet := by
  unfold note
  split
  · exact h
  · exact h

section Books

variable {π : Type} [Peer π]

/-- The request for the description is written in a handshake. -/
theorem book_handshake (logger : Logger) (channel : Channel Reply (Watched π)) :
    ((handshake logger).run channel).channel.peer.book =
      channel.peer.book ++ sent [(⟨requestId 0, .fetchMetadata⟩ : Request)] := by
  refine Talk.book_run_send (fun result => ?_) channel
  rcases result with error | _
  · trivial
  · rintro (error | _ | ⟨id, body⟩)
    · trivial
    · trivial
    · cases body <;> trivial

/-- The input is written in an exchange. -/
theorem book_exchange (contact : Contact) (call : Call) (channel : Channel Reply (Watched π)) :
    ((exchange contact call).run channel).channel.peer.book =
      channel.peer.book ++
        sent [(⟨requestId 1, .sendInput call.files call.options⟩ : Request)] := by
  rw [exchange, Logger.run_note]
  refine Talk.book_run_send (fun result => ?_) channel
  rcases result with error | _
  · trivial
  · rintro (error | _ | answer)
    · trivial
    · trivial
    · exact contact.logger.quiet_note _ trivial

end Books

/-! ### Loaded plugins -/

/-- Work that is done side by side has a result only if both parts have one. -/
theorem Work.exists_of_both_eq_ok {σ ε α β : Type} {first : Work σ ε α} {second : Work σ ε β}
    {journal last : Journal σ} {a : α} {b : β}
    (h : (first.both second).run journal = (.ok (a, b), last)) :
    ∃ between, first.run journal = (.ok a, between) ∧ second.run between = (.ok b, last) := by
  simp only [Work.both, ExceptT.run] at h
  split at h
  · cases h
  · split at h <;> cases h
  · rename_i hfirst
    split at h
    · cases h
    · rename_i hsecond
      cases h
      exact ⟨_, hfirst, hsecond⟩

section Loading

variable {π σ : Type} [Process π] {system : System π} {logger : Logger} {journal last : Journal σ}

/-- A process is started if the command has a program that can be started. -/
theorem start_eq_ok_iff {number : Nat} {command : List String} {started : Started π} :
    (start system logger number command).run journal = (.ok started, last) ↔
      command ≠ [] ∧ ∃ peer,
        system.spawn number (pluginEnvironment logger.debug) command = some peer ∧
        started = ⟨commandLine command, peer⟩ ∧
        last = ⟨journal.world, journal.entries ++
          logger.details [startedText (commandLine command) (Process.number peer)]⟩ := by
  unfold start
  by_cases hcommand : command = []
  · simp only [ne_eq, hcommand, not_true_eq_false, false_and, iff_false]
    intro h
    cases h
  · rw [if_neg hcommand]
    cases hspawn : system.spawn number (pluginEnvironment logger.debug) command with
    | none =>
      simp only [reduceCtorEq, false_and, exists_false, and_false, iff_false]
      intro h
      cases h
    | some peer =>
      simp only [Work.run_bind, Logger.run_detail, Work.run_pure]
      constructor
      · intro h
        cases h
        exact ⟨hcommand, peer, rfl, rfl, rfl⟩
      · rintro ⟨-, _, hpeer, rfl, rfl⟩
        cases hpeer
        rfl

/-- A started process is loaded if it describes itself. -/
theorem greet_eq_ok_iff {started : Started π} {loaded : Contact × Channel Reply π} :
    (greet logger started).run journal = (.ok loaded, last) ↔
      ∃ metadata notes,
        (handshake logger).run started.channel = ⟨notes, loaded.2, some (.ok metadata)⟩ ∧
        loaded.1 = ⟨metadata, started.command, Process.number started.peer, logger⟩ ∧
        last = ⟨journal.world, journal.entries ++ notes⟩ := by
  rw [run_greet logger started journal rfl]
  generalize (handshake logger).run started.channel = record
  obtain ⟨notes, channel, _ | fault | metadata⟩ := record
  · constructor
    · intro h
      cases h
    · rintro ⟨_, _, h, -⟩
      cases h
  · constructor
    · intro h
      cases h
    · rintro ⟨_, _, h, -⟩
      cases h
  · constructor
    · intro h
      cases h
      exact ⟨metadata, notes, rfl, rfl, rfl⟩
    · rintro ⟨_, _, h, hcontact, rfl⟩
      cases h
      obtain ⟨contact, channel⟩ := loaded
      cases hcontact
      rfl

/-- A plugin that is loaded is loaded in the same way when it is watched, and the request for its
description has been written to it. -/
theorem exists_watched_of_load {number : Nat} {command : List String} {contact : Contact}
    {channel : Channel Reply π}
    (h : (load system logger number command).run journal = (.ok (contact, channel), last)) :
    ∃ watched : Channel Reply (Watched π), watched.unwatched = channel ∧
      (load system.watched logger number command).run journal = (.ok (contact, watched), last) ∧
      watched.peer.book = sent [(⟨requestId 0, .fetchMetadata⟩ : Request)] := by
  obtain ⟨started, between, hstart, hgreet⟩ := Work.run_bind_eq_ok_iff.1 h
  obtain ⟨hcommand, peer, hspawn, rfl, hbetween⟩ := start_eq_ok_iff.1 hstart
  obtain ⟨metadata, notes, hrun, hcontact, hlast⟩ := greet_eq_ok_iff.1 hgreet
  let fresh : Started (Watched π) := ⟨commandLine command, peer, []⟩
  have hsame : ((handshake logger).run fresh.channel).unwatched =
      ⟨notes, channel, some (.ok metadata)⟩ := (Talk.run_unwatched _ _).trans hrun
  have hbook : ((handshake logger).run fresh.channel).channel.peer.book = _ :=
    book_handshake logger fresh.channel
  generalize hrecord : (handshake logger).run fresh.channel = record at hsame hbook
  obtain ⟨watchedNotes, watched, result⟩ := record
  cases hsame
  refine ⟨watched, rfl, ?_, hbook⟩
  refine Work.run_bind_eq_ok_iff.2 ⟨fresh, between, ?_, ?_⟩
  · refine start_eq_ok_iff.2 ⟨hcommand, ⟨peer, []⟩, ?_, rfl, hbetween⟩
    exact congrArg (Option.map _) hspawn
  · exact greet_eq_ok_iff.2 ⟨metadata, _, hrecord, hcontact, hlast⟩

/-- Processes that are started together are each started for one of the commands. -/
theorem start_of_mem_startAll {number : Nat} {commands : List (List String)}
    {startedAll : List (Started π)} {started : Started π}
    (h : (startAll system logger number commands).run journal = (.ok startedAll, last))
    (hmem : started ∈ startedAll) :
    ∃ own command before after, command ∈ commands ∧
      (start system logger own command).run (before : Journal σ) = (.ok started, after) := by
  induction commands generalizing number journal startedAll with
  | nil =>
    cases h
    cases hmem
  | cons command commands ih =>
    obtain ⟨first, between, hfirst, hothers⟩ := Work.run_bind_eq_ok_iff.1 h
    obtain ⟨others, between', hrest, hpure⟩ := Work.run_bind_eq_ok_iff.1 hothers
    cases hpure
    rcases List.mem_cons.1 hmem with rfl | hlater
    · exact ⟨number, command, journal, between, List.mem_cons_self, hfirst⟩
    · obtain ⟨own, command', before, after, hcommand, hstart⟩ := ih hrest hlater
      exact ⟨own, command', before, after, List.mem_cons_of_mem _ hcommand, hstart⟩

/-- Plugins that describe themselves side by side each describe themselves. -/
theorem greet_of_mem_greetAll {startedAll : List (Started π)}
    {loadedAll : List (Contact × Channel Reply π)} {loaded : Contact × Channel Reply π}
    (h : (greetAll logger startedAll).run journal = (.ok loadedAll, last))
    (hmem : loaded ∈ loadedAll) :
    ∃ started ∈ startedAll, ∃ before after,
      (greet logger started).run (before : Journal σ) = (.ok loaded, after) := by
  induction startedAll generalizing journal last loadedAll with
  | nil =>
    cases h
    cases hmem
  | cons started startedAll ih =>
    obtain ⟨⟨first, others⟩, between, hboth, hpure⟩ := Work.run_bind_eq_ok_iff.1 h
    cases hpure
    obtain ⟨middle, hfirst, hothers⟩ := Work.exists_of_both_eq_ok hboth
    rcases List.mem_cons.1 hmem with rfl | hlater
    · exact ⟨started, List.mem_cons_self, journal, middle, hfirst⟩
    · obtain ⟨other, hother, before, after, hgreet⟩ := ih hothers hlater
      exact ⟨other, List.mem_cons_of_mem _ hother, before, after, hgreet⟩

/-- **Loading together.** Each plugin that is loaded together with others is loaded for one of the
commands.

**Proof sketch.** Neither whether a process starts nor whether it describes itself depends on what
has been written into the journal. -/
theorem load_of_mem_loadAll {commands : List (List String)}
    {loadedAll : List (Contact × Channel Reply π)} {loaded : Contact × Channel Reply π}
    (h : (loadAll system logger commands).run journal = (.ok loadedAll, last))
    (hmem : loaded ∈ loadedAll) :
    ∃ number command after, command ∈ commands ∧
      (load system logger number command).run journal = (.ok loaded, after) := by
  obtain ⟨startedAll, between, hstartAll, hgreetAll⟩ := Work.run_bind_eq_ok_iff.1 h
  obtain ⟨started, hstarted, _, _, hgreet⟩ := greet_of_mem_greetAll hgreetAll hmem
  obtain ⟨number, command, _, _, hcommand, hstart⟩ := start_of_mem_startAll hstartAll hstarted
  obtain ⟨hne, peer, hspawn, hpeer, -⟩ := start_eq_ok_iff.1 hstart
  obtain ⟨metadata, notes, hrun, hcontact, hlast⟩ := greet_eq_ok_iff.1 hgreet
  exact ⟨number, command, _, hcommand, Work.run_bind_eq_ok_iff.2 ⟨started, _,
    start_eq_ok_iff.2 ⟨hne, peer, hspawn, hpeer, rfl⟩,
    greet_eq_ok_iff.2 ⟨metadata, notes, hrun, hcontact, rfl⟩⟩⟩

end Loading

/-! ### Calls -/

namespace Plugin

variable {σ : Type}

/-- Calls of a plugin one after the other, whatever comes of those before: the results, and the
journal. -/
def serve (plugin : Plugin σ) : List Call → Journal σ →
    List (Except (Halt PluginError) (Option (List SchemaFile))) × Journal σ
  | [], journal => ([], journal)
  | call :: calls, journal =>
    let (result, journal) := (plugin.run call).run journal
    let (results, journal) := plugin.serve calls journal
    (result :: results, journal)

end Plugin

namespace Contact

variable {π : Type} [Peer π]

/-- Whether the call is one of a generator, and has no output directory. -/
def lacksOutput (contact : Contact) (call : Call) : Bool :=
  decide (contact.metadata.role = .generator ∧ call.options.output?.isNone)

/-- What comes of a call whose exchange has this result. -/
def verdict (contact : Contact) (result : Option (Except PluginError Reply.Body)) :
    Except (Halt PluginError) (Option (List SchemaFile)) :=
  Work.outcome (result.map fun answer => answer.bind contact.accept)

/-- The entries for an exchange: what is noted in it, and the farewell behind its end. -/
def exchangeNotes (contact : Contact)
    (record : Talk.Record Reply Entry (Except PluginError Reply.Body) π) : List Entry :=
  record.notes ++
    if record.result.isSome then contact.logger.details [contact.farewellText] else []

/-- The failure of a call that has no channel left. -/
def refusal (contact : Contact) (call : Call) : PluginError :=
  if contact.lacksOutput call then .missingOption GenerationOptions.outputKey
  else .alreadyFinished contact.metadata.name

/-- A call without an output directory fails, and changes nothing. -/
theorem run_plugin_of_lacksOutput (contact : Contact) {call : Call}
    (h : contact.lacksOutput call = true) (journal : Journal (Line π)) :
    (contact.plugin.run call).run journal =
      (.error (.failed (.missingOption GenerationOptions.outputKey)), journal) :=
  contact.run_plugin_of_missing call (of_decide_eq_true h) journal

/-- A call without a channel is refused, and changes nothing. -/
theorem run_plugin_none (contact : Contact) (call : Call) (entries : List Entry) :
    (contact.plugin.run call).run (⟨none, entries⟩ : Journal (Line π)) =
      (.error (.failed (contact.refusal call)), ⟨none, entries⟩) := by
  unfold refusal
  split
  · rename_i h
    exact contact.run_plugin_of_lacksOutput h _
  · rename_i h
    rw [run_plugin_of_not_missing contact call (of_decide_eq_false (Bool.eq_false_iff.2 h)),
      Work.run_bind]
    rfl

/-- Any other call has its exchange over the channel, and uses it up. -/
theorem run_plugin_some (contact : Contact) {call : Call} (h : contact.lacksOutput call = false)
    (channel : Channel Reply π) (entries : List Entry) :
    (contact.plugin.run call).run ⟨some channel, entries⟩ =
      let record := (exchange contact call).run channel
      (contact.verdict record.result, ⟨none, entries ++ contact.exchangeNotes record⟩) := by
  rw [run_plugin_of_not_missing contact call (of_decide_eq_false h), Work.run_bind,
    run_request contact call entries rfl]
  simp only [verdict, exchangeNotes, List.append_assoc]
  rcases ((exchange contact call).run channel).result with _ | error | answer
  · rfl
  · rfl
  · cases haccept : contact.accept answer <;>
      simp [Work.outcome, Except.bind, haccept, Work.ofExcept] <;> rfl

/-- Calls without a channel change nothing. -/
theorem serve_none (contact : Contact) (calls : List Call) (entries : List Entry) :
    contact.plugin.serve calls (⟨none, entries⟩ : Journal (Line π)) =
      (calls.map fun call => .error (.failed (contact.refusal call)), ⟨none, entries⟩) := by
  induction calls with
  | nil => rfl
  | cons call calls ih =>
    rw [Plugin.serve, contact.run_plugin_none]
    simp only [ih, List.map_cons]

/-- Calls of a plugin whose channel is not used up: those up to the first one with an output
directory change nothing, this one has its exchange, and later ones are refused.

**Proof sketch.** Induction on the calls. One that lacks its output directory leaves the channel to
the others; any other one leaves them none. -/
theorem serve_some (contact : Contact) (calls : List Call) (channel : Channel Reply π)
    (entries : List Entry) :
    contact.plugin.serve calls ⟨some channel, entries⟩ =
      let early := (calls.takeWhile contact.lacksOutput).map fun _ =>
        .error (.failed (.missingOption GenerationOptions.outputKey))
      match calls.dropWhile contact.lacksOutput with
      | [] => (early, ⟨some channel, entries⟩)
      | call :: later =>
        let record := (exchange contact call).run channel
        (early ++ contact.verdict record.result ::
            later.map fun call => .error (.failed (contact.refusal call)),
          ⟨none, entries ++ contact.exchangeNotes record⟩) := by
  induction calls with
  | nil => rfl
  | cons call calls ih =>
    cases hcall : contact.lacksOutput call with
    | true =>
      rw [Plugin.serve, contact.run_plugin_of_lacksOutput hcall, List.takeWhile_cons_of_pos hcall,
        List.dropWhile_cons_of_pos hcall]
      simp only [ih, List.map_cons]
      cases calls.dropWhile contact.lacksOutput <;> rfl
    | false =>
      have hneg : ¬ contact.lacksOutput call = true := Bool.eq_false_iff.1 hcall
      rw [Plugin.serve, contact.run_plugin_some hcall, List.takeWhile_cons_of_neg hneg,
        List.dropWhile_cons_of_neg hneg]
      simp only [contact.serve_none, List.map_nil, List.nil_append]

end Contact

/-- **One request.** Let a plugin be loaded, and then called any number of times, whatever comes of
each call. A call of a generator that lacks its output directory fails for this reason and changes
nothing. The first other call has its exchange over the channel, and whatever comes of this is the
result; no channel is left then, and later calls fail because the plugin has finished, unless they
lack their output directory. Nothing else changes. If the process of the plugin is watched from its
start on, all else being the same, then the request for the description is all that has been written
to it when it is loaded, and an exchange adds the request that hands over the input, if this one is
not too long; the ids of the two are different.

**Proof sketch.** The calls by induction: `Contact.serve_some`. The handshake and the exchange send
one message each, before they listen, and to be watched changes nothing about a talk. -/
theorem serve_of_load {π σ : Type} [Process π] {system : System π} {logger : Logger} {number : Nat}
    {command : List String} {journal last : Journal σ} {contact : Contact}
    {channel : Channel Reply π}
    (h : (load system logger number command).run journal = (.ok (contact, channel), last)) :
    (∀ (calls : List Call) (entries : List Entry),
      contact.plugin.serve calls ⟨some channel, entries⟩ =
        let early := (calls.takeWhile contact.lacksOutput).map fun _ =>
          .error (.failed (.missingOption GenerationOptions.outputKey))
        match calls.dropWhile contact.lacksOutput with
        | [] => (early, ⟨some channel, entries⟩)
        | call :: later =>
          let record := (exchange contact call).run channel
          (early ++ contact.verdict record.result ::
              later.map fun call => .error (.failed (contact.refusal call)),
            ⟨none, entries ++ contact.exchangeNotes record⟩)) ∧
    ∃ watched : Channel Reply (Watched π), watched.unwatched = channel ∧
      (load system.watched logger number command).run journal = (.ok (contact, watched), last) ∧
      watched.peer.book = framed (⟨requestId 0, .fetchMetadata⟩ : Request) ∧
      requestId 0 ≠ requestId 1 ∧
      ∀ call : Call,
        let record := (exchange contact call).run watched
        record.unwatched = (exchange contact call).run channel ∧
          record.channel.peer.book = framed (⟨requestId 0, .fetchMetadata⟩ : Request) ++
            sent [(⟨requestId 1, .sendInput call.files call.options⟩ : Request)] := by
  refine ⟨fun calls entries => contact.serve_some calls channel entries, ?_⟩
  obtain ⟨watched, rfl, hload, hbook⟩ := exists_watched_of_load h
  have hfetch : sent [(⟨requestId 0, .fetchMetadata⟩ : Request)] =
      framed (⟨requestId 0, .fetchMetadata⟩ : Request) := by decide
  rw [hfetch] at hbook
  refine ⟨watched, rfl, hload, hbook, by decide, fun call => ⟨Talk.run_unwatched _ _, ?_⟩⟩
  rw [book_exchange, hbook]

/-- What is known of a generator without options once it is loaded. -/
def quickContact : Contact :=
  ⟨⟨"quick", "", [], .generator⟩, "quick", 1, ⟨.orchestrator, false⟩⟩

/-- A call of the generator with an output directory. -/
def quickCall : Call := ⟨.put .empty "gen_output" "out", [], ⟨.plugin "quick", false⟩⟩

/-- The request that hands over the input of the call. -/
def quickInput : Request := ⟨requestId 1, .sendInput quickCall.files quickCall.options⟩

/-- The process of the generator: it answers the request for its description and the input. -/
def quickChild : Child := .start 1 [
  .read (framed (⟨requestId 0, .fetchMetadata⟩ : Request)).length false,
  .write (framed (⟨"1", .metadata quickContact.metadata⟩ : Reply)),
  .read (framed quickInput).length false,
  .write (framed (⟨"2", .codeGenerated⟩ : Reply))]

/-- The system with this process as its only one. -/
def quickSystem : System Child := ⟨fun _ _ _ => some quickChild⟩

/-- The channel to the process when it has been asked for its description. -/
def quickFetched : Channel Reply Child :=
  ((Started.channel ⟨"quick", quickChild⟩).send (⟨requestId 0, .fetchMetadata⟩ : Request)).2

/-- The channel to the process when it is loaded. -/
def quickChannel : Channel Reply Child :=
  { quickFetched with inbox := (Inbox.receive.run quickFetched.inbox).2 }

/-- The channel to the process when it has got its input. -/
def quickAnswered : Channel Reply Child := (quickChannel.send quickInput).2

/-- The generator is loaded, and called three times: without an output directory, with one, and
again. -/
theorem serve_of_load_quickSystem :
    (load quickSystem quickContact.logger 1 ["quick"]).run (⟨(), []⟩ : Journal Unit) =
        (.ok (quickContact, quickChannel), ⟨(), []⟩) ∧
      quickContact.plugin.serve [⟨.empty, [], quickCall.logger⟩, quickCall, quickCall]
          ⟨some quickChannel, []⟩ =
        ([.error (.failed (.missingOption "gen_output")), .ok none,
          .error (.failed (.alreadyFinished "quick"))], ⟨none, []⟩) ∧
      ∃ watched : Channel Reply (Watched Child), watched.unwatched = quickChannel ∧
        watched.peer.book = framed (⟨requestId 0, .fetchMetadata⟩ : Request) ∧
        ((exchange quickContact quickCall).run watched).channel.peer.book =
          framed (⟨requestId 0, .fetchMetadata⟩ : Request) ++ framed quickInput := by
  have hdescription : Inbox.receive.run quickFetched.inbox =
      (.ok (some ⟨"1", .metadata quickContact.metadata⟩), quickChannel.inbox) := rfl
  have hhandshake : (handshake quickContact.logger).run
        (Started.channel ⟨"quick", quickChild⟩) =
      ⟨[], quickChannel, some (.ok quickContact.metadata)⟩ := by
    change Talk.run (.listen _ _) quickFetched = _
    rw [Talk.run_listen_of_unnoted hdescription rfl]
    rfl
  have hload : (load quickSystem quickContact.logger 1 ["quick"]).run (⟨(), []⟩ : Journal Unit) =
      (.ok (quickContact, quickChannel), ⟨(), []⟩) :=
    Work.run_bind_eq_ok_iff.2 ⟨⟨"quick", quickChild⟩, ⟨(), []⟩, rfl,
      greet_eq_ok_iff.2 ⟨_, _, hhandshake, rfl, rfl⟩⟩
  have hanswer : Inbox.receive.run quickAnswered.inbox =
      (.ok (some ⟨"2", .codeGenerated⟩), (Inbox.receive.run quickAnswered.inbox).2) := rfl
  have hexchange : (exchange quickContact quickCall).run quickChannel =
      ⟨[], { quickAnswered with inbox := (Inbox.receive.run quickAnswered.inbox).2 },
        some (.ok .codeGenerated)⟩ := by
    change Talk.run (.listen _ _) quickAnswered = _
    rw [Talk.run_listen_of_unnoted hanswer rfl]
    rfl
  obtain ⟨hserve, watched, hwatched, -, hbook, -, hbooks⟩ := serve_of_load hload
  have hinput : sent [(⟨requestId 1, .sendInput quickCall.files quickCall.options⟩ : Request)] =
      framed quickInput := by decide
  have hwritten := (hbooks quickCall).2
  rw [hinput] at hwritten
  refine ⟨hload, ?_, watched, hwatched, hbook, hwritten⟩
  rw [hserve]
  change ([_, _, _], _) = _
  rw [hexchange]
  rfl

end SchemaForge
