import SchemaForge.Plugin.Session
import SchemaForge.Proofs.Plugin.Running
import SchemaForge.Proofs.Wire.RoundTrip
import SchemaForge.Proofs.Wire.RunningTalk
set_option autoImplicit false

/-!
# The transcript of a session

A plugin that serves a conversation reads one stream of bytes and writes another one. Of the first
stream only the messages in it matter, and what is found where they end; what is written are the
frames of the plugin's messages. Which messages these are, and what the plugin comes to, is said
here for any stream at all.

## Main definitions

* `SchemaForge.Transcript` — what a plugin says, and what it comes to.
* `SchemaForge.Plugin.transcript` — the transcript of a session, by the requests that come.

## Main results

* `SchemaForge.Plugin.run_session` — what a session writes, and what it comes to.
-/

namespace SchemaForge

open Wire

/-- What a plugin says in a session, and the result it comes to with the world it leaves. There is
none if the plugin waits for ever. -/
structure Transcript (σ : Type) where
  said : List Reply
  result : Option (Except PluginError Unit × σ)

namespace Transcript

variable {σ : Type}

/-- The plugin has come to a result without another word. -/
def done (result : Except PluginError Unit) (world : σ) : Transcript σ := ⟨[], some (result, world)⟩

/-- The same transcript, with messages before it. -/
def after (replies : List Reply) (transcript : Transcript σ) : Transcript σ :=
  { transcript with said := replies ++ transcript.said }

/-- A message, and then the transcript. If the message is too long, this is the failure of the
plugin, and nothing is said. -/
def saying (reply : Reply) (world : σ) (transcript : Transcript σ) : Transcript σ :=
  if (encode reply).length ≤ maxFormLength then transcript.after [reply]
  else .done (.error (.transport (.frameTooLarge (encode reply).length))) world

/-- No further request comes: the stream is closed, or something else is found there. -/
def ofEnd (world : σ) : Except (Halt TransportError) (Option Request) → Transcript σ
  | .ok _ => .done (.ok ()) world
  | .error (.failed error) => .done (.error (.transport error)) world
  | .error .stalled => ⟨[], none⟩

/-- The request is not the one whose turn it is. -/
def ofUnexpected (world : σ) (expected got : String) : Transcript σ :=
  .done (.error (.protocol (.unexpectedRequest expected got))) world

/-- A record of a log as a message, which answers nothing. -/
def recorded (record : LogRecord) : Reply := ⟨"", .log record⟩

/-- The messages for the records of a log, in order: details are passed on only if they are
wanted. -/
def logged (debug : Bool) (records : List LogRecord) : List Reply :=
  (records.filter fun record => debug || record.level != .debug).map recorded

/-- The work for the request `id`: its records are passed on, and then either its result is said
under this id, as `signal` has it, or its error is passed on as a record. -/
def ofWork {α : Type} (debug : Bool) (world : σ) (id : String) (signal : α → Reply.Body)
    (work : Work σ PluginError α) : Transcript σ :=
  let (result, journal) := work.run ⟨world, []⟩
  .after (logged debug (journal.entries.map Entry.record)) <|
    match result with
    | .ok a => .saying ⟨id, signal a⟩ journal.world (.done (.ok ()) journal.world)
    | .error (.failed error) =>
      .after [recorded ⟨.error, error.message⟩] (.done (.error error) journal.world)
    | .error .stalled => ⟨[], none⟩

end Transcript

namespace Plugin

variable {σ : Type}

/-- The transcript of the work on an input: the plugin is called once, with just these options and
files. A generator says that code has been generated, and a processor which files it gives back. -/
def workTranscript (plugin : Plugin σ) (debug : Bool) (world : σ) (id : String)
    (files : List SchemaFile) (options : GenerationOptions) : Transcript σ :=
  let call : Call := ⟨options, files, ⟨.plugin plugin.name, debug⟩⟩
  match plugin.task with
  | .generator generate => .ofWork debug world id (fun _ => .codeGenerated) (generate call)
  | .processor process => .ofWork debug world id .changedInput (process call)

/-- The transcript of a session in which the given requests come, and `behind` is found behind
them. -/
def transcript (plugin : Plugin σ) (debug : Bool) (world : σ)
    (behind : Except (Halt TransportError) (Option Request)) : List Request → Transcript σ
  | [] => .ofEnd world behind
  | ⟨_, .sendInput _ _⟩ :: _ => .ofUnexpected world "FetchMetadata" "SendInput"
  | ⟨id, .fetchMetadata⟩ :: requests =>
    .saying ⟨id, .metadata plugin.metadata⟩ world <|
      match requests with
      | [] => .ofEnd world behind
      | ⟨_, .fetchMetadata⟩ :: _ => .ofUnexpected world "SendInput" "FetchMetadata"
      | ⟨id, .sendInput files options⟩ :: _ => plugin.workTranscript debug world id files options

end Plugin

/-! ### The messages that come -/

/-- Either a message is received, and it is the first of the messages that come, or none comes. -/
theorem Wire.Inbox.receive_cases {α : Type} [Wire α] (inbox : Inbox α) :
    (∃ message rest, receive.run inbox = (.ok (some message), rest) ∧
      (inbox.listen some).1 = message :: (rest.listen some).1 ∧
      (inbox.listen some).2.1 = (rest.listen some).2.1) ∨
    (∀ message, (receive.run inbox).1 ≠ .ok (some message)) ∧
      (inbox.listen some).1 = [] ∧ (inbox.listen some).2.1 = (receive.run inbox).1 := by
  by_cases h : ∃ message, (receive.run inbox).1 = .ok (some message)
  · obtain ⟨message, hmessage⟩ := h
    have hreceive : receive.run inbox = (.ok (some message), (receive.run inbox).2) :=
      Prod.ext hmessage rfl
    refine .inl ⟨message, _, hreceive, ?_⟩
    rw [listen_of_noted hreceive rfl]
    exact ⟨rfl, rfl⟩
  · have hnone : ∀ message, (receive.run inbox).1 ≠ .ok (some message) :=
      fun message hmessage => h ⟨message, hmessage⟩
    exact .inr ⟨hnone, listen_of_no_message some hnone⟩

/-! ### Transcripts of talks -/

variable {σ : Type}

/-- The outcome of a talk over a sink has the transcript: behind what was written before stands what
is said, and the result is the one that is come to. -/
def Transcript.IsOf (transcript : Transcript σ) (written : Bytes)
    (record : Talk.Record Request Empty (Except PluginError Unit × σ) Sink) : Prop :=
  record.channel.peer.written = written ++ sent transcript.said ∧
    record.result = transcript.result

namespace Transcript

variable {inbox : Inbox Request} {written : Bytes} {world : σ}

/-- A talk that is done says nothing more. -/
theorem isOf_done (result : Except PluginError Unit) :
    (done result world).IsOf written
      ((Talk.done (result, world) : PluginTalk _).run ⟨inbox, ⟨written, none⟩⟩) :=
  ⟨(List.append_nil written).symm, rfl⟩

/-- Messages that are sent come before what is said later. -/
theorem IsOf.sendAll {transcript : Transcript σ} {replies : List Reply}
    {talk : PluginTalk (Except PluginError Unit × σ)}
    (h : transcript.IsOf (written ++ sent replies)
      (talk.run ⟨inbox, ⟨written ++ sent replies, none⟩⟩)) :
    (transcript.after replies).IsOf written
      ((Talk.sendAll replies talk).run ⟨inbox, ⟨written, none⟩⟩) := by
  rw [Talk.run_sendAll_sink]
  obtain ⟨hwritten, hresult⟩ := h
  refine ⟨?_, hresult⟩
  rw [hwritten, after, sent_append, List.append_assoc]

/-- A message that has to be sent is said, unless it is too long. -/
theorem IsOf.send {transcript : Transcript σ} {reply : Reply}
    {next : Except TransportError Unit → PluginTalk (Except PluginError Unit × σ)}
    (herror : ∀ error, next (.error error) = .done (.error (.transport error), world))
    (h : transcript.IsOf (written ++ sent [reply])
      ((next (.ok ())).run ⟨inbox, ⟨written ++ sent [reply], none⟩⟩)) :
    (saying reply world transcript).IsOf written
      ((Talk.send reply next).run ⟨inbox, ⟨written, none⟩⟩) := by
  rw [Talk.run_send_sink]
  unfold saying
  split
  · rename_i hfits
    rw [frame_of_le hfits]
    obtain ⟨hwritten, hresult⟩ := h
    refine ⟨?_, hresult⟩
    rw [after, sent_append, ← List.append_assoc, ← hwritten]
    rfl
  · rename_i hlong
    obtain ⟨hframe, hsent⟩ : frame reply = .error (.frameTooLarge (encode reply).length) ∧
        sent [reply] = [] := by
      rcases frame_eq_sent reply with hframe | h
      · exact absurd (le_of_frame_eq_ok hframe).1 hlong
      · exact h
    rw [hframe, hsent, List.append_nil]
    change IsOf _ _ (Talk.run (next (.error _)) _)
    rw [herror]
    exact isOf_done _

/-- A request is taken: what follows depends on the request, or there is none. -/
theorem IsOf.receive (transcript : List Request → Transcript σ)
    {next : Except TransportError (Option Request) → PluginTalk (Except PluginError Unit × σ)}
    (herror : ∀ error, next (.error error) = .done (.error (.transport error), world))
    (hclosed : next (.ok none) = .done (.ok (), world))
    (hend : transcript [] = .ofEnd world (inbox.listen some).2.1)
    (h : ∀ request rest, (inbox.listen some).2.1 = (rest.listen some).2.1 →
      (transcript (request :: (rest.listen some).1)).IsOf written
        ((next (.ok (some request))).run ⟨rest, ⟨written, none⟩⟩)) :
    (transcript (inbox.listen some).1).IsOf written
      ((Talk.receive next).run ⟨inbox, ⟨written, none⟩⟩) := by
  rw [Talk.run_receive]
  rcases inbox.receive_cases with ⟨request, rest, hreceive, hmessages, hbehind⟩ |
    ⟨hnone, hmessages, hbehind⟩
  · rw [hreceive, hmessages]
    exact h request rest hbehind
  · rw [hmessages, hend, hbehind]
    generalize Inbox.receive.run inbox = received at hnone ⊢
    obtain ⟨(error | _) | _ | request, rest⟩ := received
    · change IsOf _ _ (Talk.run (next (.error error)) _)
      rw [herror]
      exact isOf_done _
    · exact ⟨(List.append_nil written).symm, rfl⟩
    · change IsOf _ _ (Talk.run (next (.ok none)) _)
      rw [hclosed]
      exact isOf_done _
    · exact absurd rfl (hnone request)

end Transcript

namespace Plugin

/-- What a session says of work has the transcript of this work, if the call of the plugin is the
work, and each of its results is said as the session says what it takes from it. -/
theorem isOf_ofWork {α : Type} {plugin : Plugin σ} {debug : Bool} {world : σ} {id : String}
    {files : List SchemaFile} {options : GenerationOptions} {signal : α → Reply.Body}
    {work : Work σ PluginError α} (given : α → Option (List SchemaFile))
    (hrun : (plugin.run ⟨options, files, plugin.sessionLogger debug⟩).run ⟨world, []⟩ =
      ((work.run ⟨world, []⟩).1.map given, (work.run ⟨world, []⟩).2))
    (hsignal : ∀ a, Reply.Body.ofResult (given a) = signal a) (inbox : Inbox Request)
    (written : Bytes) :
    (Transcript.ofWork debug world id signal work).IsOf written
      ((plugin.answer debug world id files options).run ⟨inbox, ⟨written, none⟩⟩) := by
  unfold answer Transcript.ofWork
  rw [hrun]
  obtain ⟨(error | _) | a, journal⟩ := work.run ⟨world, []⟩
  · refine .sendAll ?_
    have hrecord : logReplies debug [⟨.error, error.message⟩] =
        [Transcript.recorded ⟨.error, error.message⟩] := by cases debug <;> rfl
    simp only [Except.map, hrecord]
    exact .sendAll (Transcript.isOf_done _)
  · exact .sendAll ⟨(List.append_nil _).symm, rfl⟩
  · refine .sendAll ?_
    simp only [Except.map, hsignal]
    exact .send (fun _ => rfl) (Transcript.isOf_done _)

/-- The work on an input has its transcript. -/
theorem isOf_workTranscript (plugin : Plugin σ) (debug : Bool) (world : σ) (id : String)
    (files : List SchemaFile) (options : GenerationOptions) (inbox : Inbox Request)
    (written : Bytes) :
    (plugin.workTranscript debug world id files options).IsOf written
      ((plugin.answer debug world id files options).run ⟨inbox, ⟨written, none⟩⟩) := by
  obtain ⟨name, description, descriptors, generate | process⟩ := plugin
  · refine isOf_ofWork (fun _ => none) ?_ (fun _ => rfl) inbox written
    exact Work.run_bind_pure (generate _) (fun _ => none) _
  · refine isOf_ofWork some ?_ (fun _ => rfl) inbox written
    exact Work.run_bind_pure (process _) some _

/-- A session has the transcript of the requests that come. -/
theorem isOf_transcript (plugin : Plugin σ) (debug : Bool) (world : σ) (inbox : Inbox Request)
    (written : Bytes) :
    (plugin.transcript debug world (inbox.listen some).2.1 (inbox.listen some).1).IsOf written
      ((plugin.session debug world).run ⟨inbox, ⟨written, none⟩⟩) := by
  refine .receive (plugin.transcript debug world _) (fun _ => rfl) rfl rfl
    fun request rest hbehind => ?_
  rw [hbehind]
  obtain ⟨id, _ | _⟩ := request
  · refine .send (fun _ => rfl) ?_
    refine .receive (fun requests => match requests with
      | [] => .ofEnd world (rest.listen some).2.1
      | ⟨_, .fetchMetadata⟩ :: _ => .ofUnexpected world "SendInput" "FetchMetadata"
      | ⟨id, .sendInput files options⟩ :: _ => plugin.workTranscript debug world id files options)
      (fun _ => rfl) rfl rfl fun input last _ => ?_
    obtain ⟨inputId, _ | ⟨files, options⟩⟩ := input
    · exact Transcript.isOf_done _
    · exact plugin.isOf_workTranscript debug world inputId files options last _
  · exact Transcript.isOf_done _

/-- **Sessions.** Let a plugin serve a session over a stream of bytes and a sink that takes
everything. If the stream holds the frames of requests and is closed behind them, the plugin writes
the frames of the messages in the transcript of these requests, of those that are not too long, and
comes to the result of the transcript. Whatever the stream holds, it does so for the requests that
can be taken from it, and what is found behind them.

**Proof sketch.** The session takes at most two requests, and each message that comes is the first
of those that come. What is sent stands behind what was written. From a stream of frames exactly
their messages are taken. -/
theorem run_session (plugin : Plugin σ) (debug : Bool) (world : σ) (source : Source) :
    let record := (plugin.session debug world).run (⟨.ofSource source, .unlimited⟩ : Channel _ Sink)
    (∀ requests : List Request,
      (∀ request ∈ requests, (encode request).length ≤ maxFormLength) →
      source.bytes = requests.flatMap framed → source.ending = .closed →
      let transcript := plugin.transcript debug world (.ok none) requests
      record.channel.peer.written = sent transcript.said ∧
        ((∀ reply ∈ transcript.said, (encode reply).length ≤ maxFormLength) →
          record.channel.peer.written = transcript.said.flatMap framed) ∧
        record.result = transcript.result) ∧
    let received := (Inbox.ofSource source : Inbox Request).listen some
    let transcript := plugin.transcript debug world received.2.1 received.1
    record.channel.peer.written = sent transcript.said ∧ record.result = transcript.result := by
  intro record
  have hany := plugin.isOf_transcript debug world (.ofSource source) []
  refine ⟨?_, hany⟩
  intro requests hfits hbytes hend transcript
  obtain ⟨hmessages, hbehind⟩ := Inbox.listen_of_framed hfits hbytes hend
  rw [hmessages, hbehind] at hany
  obtain ⟨hwritten, hresult⟩ := hany
  exact ⟨hwritten, fun hreplies => hwritten.trans (sent_of_le hreplies), hresult⟩

/-- A generator that counts its calls, and writes of a detail and of progress. -/
def countingGenerator : Plugin Nat where
  name := "counting"
  description := ""
  options := []
  task := .generator fun call => do
    call.logger.log ⟨.debug, "looking"⟩
    call.logger.progress "counted"
    Work.setWorld ((← Work.world) + 1)

/-- A processor that gives back all files but the first one, and fails if there is none. -/
def droppingProcessor : Plugin Nat where
  name := "dropping"
  description := ""
  options := []
  task := .processor fun call => do
    call.logger.log ⟨.debug, "looking"⟩
    match call.files with
    | [] => Work.fail (.failed "nothing to drop")
    | _ :: files => return files

/-- A file without types. -/
def bareFile (name : String) : SchemaFile := ⟨name, ⟨""⟩, [], [], [], .unknown, [], []⟩

/-- The channel and the result of a plugin for which the given requests have come. -/
def recordOf (plugin : Plugin Nat) (debug : Bool) (requests : List Request) :
    Talk.Record Request Empty (Except PluginError Unit × Nat) Sink :=
  (plugin.session debug 0).run
    (⟨.ofSource ⟨requests.map framed, .closed⟩, .unlimited⟩ : Channel _ Sink)

/-- Two sessions with results and one with a failure. The generator, for which details are not
wanted, passes on its progress and is done with its only call; the third request does not matter.
The processor passes on its detail and says which files it gives back, or its error and nothing
else. -/
theorem run_session_of_either_role :
    let asked : List Request :=
      [⟨"1", .fetchMetadata⟩, ⟨"2", .sendInput [] .empty⟩, ⟨"3", .fetchMetadata⟩]
    let given : List Request :=
      [⟨"1", .fetchMetadata⟩, ⟨"2", .sendInput [bareFile "a", bareFile "b"] .empty⟩]
    ((∀ request ∈ asked, (encode request).length ≤ maxFormLength) ∧
      ∀ request ∈ given, (encode request).length ≤ maxFormLength) ∧
    ((recordOf countingGenerator false asked).channel.peer.written =
        framed (⟨"1", .metadata countingGenerator.metadata⟩ : Reply) ++
          framed (⟨"", .log ⟨.lifecycle, "counted"⟩⟩ : Reply) ++
          framed (⟨"2", .codeGenerated⟩ : Reply) ∧
      (recordOf countingGenerator false asked).result = some (.ok (), 1)) ∧
    ((recordOf droppingProcessor true given).channel.peer.written =
        framed (⟨"1", .metadata droppingProcessor.metadata⟩ : Reply) ++
          framed (⟨"", .log ⟨.debug, "looking"⟩⟩ : Reply) ++
          framed (⟨"2", .changedInput [bareFile "b"]⟩ : Reply) ∧
      (recordOf droppingProcessor true given).result = some (.ok (), 0)) ∧
    (recordOf droppingProcessor false asked).channel.peer.written =
        framed (⟨"1", .metadata droppingProcessor.metadata⟩ : Reply) ++
          framed (⟨"", .log ⟨.error, "Generation failed: nothing to drop"⟩⟩ : Reply) ∧
      (recordOf droppingProcessor false asked).result =
        some (.error (.failed "nothing to drop"), 0) := by
  intro asked given
  have hasked : ∀ request ∈ asked, (encode request).length ≤ maxFormLength := by decide
  have hgiven : ∀ request ∈ given, (encode request).length ≤ maxFormLength := by
    decide +kernel
  obtain ⟨hcounting, -, hcounted⟩ :=
    (run_session countingGenerator false 0 ⟨asked.map framed, .closed⟩).1 asked hasked rfl rfl
  obtain ⟨hdropping, -, hdropped⟩ :=
    (run_session droppingProcessor true 0 ⟨given.map framed, .closed⟩).1 given hgiven rfl rfl
  obtain ⟨hfailing, -, hfailed⟩ :=
    (run_session droppingProcessor false 0 ⟨asked.map framed, .closed⟩).1 asked hasked rfl rfl
  refine ⟨⟨hasked, hgiven⟩, ⟨hcounting.trans ?_, hcounted.trans ?_⟩,
    ⟨hdropping.trans ?_, hdropped.trans ?_⟩, hfailing.trans ?_, hfailed.trans ?_⟩
  all_goals decide +kernel

end Plugin

end SchemaForge
