import SchemaForge.Plugin.Session
import SchemaForge.Proofs.Process.Errand
import SchemaForge.Proofs.Wire.Interleaving
set_option autoImplicit false

/-!
# A plugin in another process

A plugin that runs in another process is started, describes itself, is called, and passes on the
records of its log, all in messages over two streams. Whoever calls it gets what a direct call of
the plugin gives, in whatever order the two parties and the streams take their steps.

## Main definitions

* `SchemaForge.inputRequest` — the message that hands a plugin its input.
* `SchemaForge.Plugin.lastReplies`, `SchemaForge.Plugin.replies` — what a plugin says.
* `SchemaForge.Logger.heard` — the entries for the records that are passed on.

## Main results

* `SchemaForge.remote_call_of_local_call` — the end of every conversation with a plugin.
-/

namespace SchemaForge

open Wire

/-! ### The messages -/

/-- The message that hands a plugin its input. -/
def inputRequest (call : Call) : Request := ⟨requestId 1, .sendInput call.files call.options⟩

/-- What a plugin says when its work has come to a result: an answer, or what it has failed of. -/
def lastReplies (debug : Bool) : Except PluginError (Option (List SchemaFile)) → List Reply
  | .ok files? => [⟨requestId 1, .ofResult files?⟩]
  | .error error => logReplies debug [⟨.error, error.message⟩]

/-- All that a plugin says in a conversation in which its work comes to this result after these
records. -/
def Plugin.replies {σ : Type} (plugin : Plugin σ) (debug : Bool) (records : List LogRecord)
    (result : Except PluginError (Option (List SchemaFile))) : List Reply :=
  ⟨requestId 0, .metadata plugin.metadata⟩ :: logReplies debug records ++ lastReplies debug result

/-- The entries that a logger gets for records of which those are passed on that are wanted. -/
def Logger.heard (logger : Logger) (debug : Bool) (records : List LogRecord) : List Entry :=
  (records.filter (LogRecord.isSent debug)).map fun record => ⟨logger.audience, record⟩

/-- Of the records that are passed on entries are made. -/
theorem map_entry?_logReplies (logger : Logger) (debug : Bool) (records : List LogRecord) :
    (logReplies debug records).map (Reply.entry? logger.audience) =
      (logger.heard debug records).map some := by
  simp only [logReplies, Logger.heard, List.map_map]
  rfl

/-- An answer is no record. -/
theorem entry?_ofResult (audience : Audience) (id : String)
    (files? : Option (List SchemaFile)) : Reply.entry? audience ⟨id, .ofResult files?⟩ = none := by
  cases files? <;> rfl

/-- An error is passed on whether details are wanted or not. -/
theorem Logger.heard_error (logger : Logger) (debug : Bool) (text : String) :
    logger.heard debug [⟨.error, text⟩] = [⟨logger.audience, .error, text⟩] := by
  cases debug <;> rfl

/-! ### The plugin -/

/-- A plugin gives back a schema if and only if it is a processor. -/
theorem Plugin.role_of_run {σ : Type} {plugin : Plugin σ} {call : Call} {journal last : Journal σ}
    {files? : Option (List SchemaFile)} (h : (plugin.run call).run journal = (.ok files?, last)) :
    plugin.role = .processor ↔ files?.isSome := by
  obtain ⟨name, description, options, task⟩ := plugin
  cases task with
  | generator generate =>
    simp only [Plugin.run, Work.run_bind] at h
    split at h
    · cases h
      simp [role, PluginTask.role]
    · cases h
  | processor process =>
    simp only [Plugin.run, Work.run_bind] at h
    split at h
    · cases h
      simp [role, PluginTask.role]
    · cases h

/-- The answer that a plugin gives is accepted for what it is. -/
theorem Contact.accept_ofResult {σ : Type} {plugin : Plugin σ} {call : Call}
    {journal last : Journal σ} {files? : Option (List SchemaFile)}
    (h : (plugin.run call).run journal = (.ok files?, last)) (command : String) (number : Nat)
    (logger : Logger) :
    Contact.accept ⟨plugin.metadata, command, number, logger⟩ (.ofResult files?) = .ok files? := by
  have hrole := Plugin.role_of_run h
  unfold accept
  cases files? with
  | none =>
    have hgenerator : plugin.metadata.role = .generator := by
      cases hr : plugin.role with
      | generator => exact hr
      | processor => simp [hr] at hrole
    simp only [hgenerator]
    rfl
  | some files =>
    have hprocessor : plugin.metadata.role = .processor := hrole.2 rfl
    simp only [hprocessor]
    rfl

/-! ### One order of the conversation -/

/-- A detail that is noted before the first talk is noted before both. -/
theorem Logger.andThen_note {α β : Type} (logger : Logger) (text : String)
    (talk : OrchestratorTalk α) (next : α → OrchestratorTalk β) :
    (logger.note text talk).andThen next = logger.note text (talk.andThen next) := by
  unfold note
  split <;> rfl

/-- The talk of a call, from the first detail that is noted to the last. -/
theorem Contact.callTalk_eq (contact : Contact) {call : Call}
    (hoption : ¬ (contact.metadata.role = .generator ∧ call.options.output?.isNone)) :
    contact.callTalk call =
      contact.logger.note (contact.sendingText call) (.send (inputRequest call) fun
        | .error error => contact.logger.note contact.farewellText
          (.done (.error (.transport error)))
        | .ok () => .listen (Reply.entry? call.logger.audience) fun
          | .error error => contact.logger.note contact.farewellText
            (.done (.error (.transport error)))
          | .ok none => contact.logger.note contact.farewellText
            (.done (.error (.transport (.closed contact.exitedText))))
          | .ok (some answer) => contact.logger.note (contact.answeredText answer.body)
            (contact.logger.note contact.farewellText (.done (contact.accept answer.body)))) := by
  rw [callTalk, if_neg hoption, exchange, Logger.andThen_note]
  simp only [Talk.andThen]
  congr 2
  funext sent
  rcases sent with error | _
  · rfl
  · refine congrArg (Talk.listen _) (funext fun heard => ?_)
    rcases heard with error | _ | answer
    · rfl
    · rfl
    · exact Logger.andThen_note _ _ _ _

section Conversation

variable {β : Type} {last : Dialogue Reply Request Entry Empty (Except HandshakeFault CallReport) β}

/-- The orchestrator notes a detail, if details are wanted. -/
theorem settles_of_note (logger : Logger) (text : String)
    {talk : OrchestratorTalk (Except HandshakeFault CallReport)} {other : PluginTalk β}
    {leftNotes : List Entry} {rightNotes : List Empty} {toLeft : List Reply}
    {toRight : List Request}
    (h : last.Settles
      ⟨talk, other, leftNotes ++ logger.details [text], rightNotes, toLeft, toRight⟩) :
    last.Settles
      ⟨logger.note text talk, other, leftNotes, rightNotes, toLeft, toRight⟩ := by
  unfold Logger.note
  unfold Logger.details at h
  split
  · rename_i hdebug
    rw [if_pos hdebug] at h
    exact .note h
  · rename_i hdebug
    rw [if_neg hdebug, List.append_nil] at h
    exact h

end Conversation

/-- The plugin describes itself and gets its input; then the orchestrator waits for its answer.
What it does when it has found one, or the end of the stream, is `next`. -/
theorem settles_of_answer {σ : Type} {plugin : Plugin σ} {world : σ} {logger : Logger}
    {command : String} {number : Nat} {call : Call}
    (houtput : plugin.role = .generator → call.options.output?.isSome)
    (hinput : (encode (inputRequest call)).length ≤ maxFormLength)
    (hmetadata : (encode (⟨requestId 0, .metadata plugin.metadata⟩ : Reply)).length ≤ maxFormLength)
    {last : Dialogue Reply Request Entry Empty (Except HandshakeFault CallReport)
      (Except PluginError Unit × σ)}
    (h : ∀ next : Except TransportError (Option Reply) →
        OrchestratorTalk (Except HandshakeFault CallReport),
      let contact : Contact := ⟨plugin.metadata, command, number, logger⟩
      next (.ok none) = logger.note contact.farewellText
        (.done (.ok (plugin.metadata, .error (.transport (.closed contact.exitedText))))) →
      (∀ reply, next (.ok (some reply)) = logger.note (contact.answeredText reply.body)
        (logger.note contact.farewellText
          (.done (.ok (plugin.metadata, contact.accept reply.body))))) →
      last.Settles ⟨.listen (Reply.entry? call.logger.audience) next,
        plugin.answer logger.debug world (requestId 1) call.files call.options,
        logger.details [contact.sendingText call], [], [], []⟩) :
    last.Settles (.start (errand logger command number call)
      (plugin.session logger.debug world)) := by
  have hfetch : (encode (⟨requestId 0, .fetchMetadata⟩ : Request)).length ≤ maxFormLength := by
    decide
  refine .send hfetch ?_
  refine .right_take rfl ?_
  refine .right_send hmetadata ?_
  refine .take rfl ?_
  have hoption : ¬ (plugin.metadata.role = .generator ∧ call.options.output?.isNone) := by
    rintro ⟨hrole, hnone⟩
    have hsome := houtput hrole
    rw [← Option.not_isNone, hnone] at hsome
    cases hsome
  change last.Settles ⟨(Contact.callTalk ⟨plugin.metadata, command, number, logger⟩ call).andThen
    fun result => .done (.ok (plugin.metadata, result)), _, _, _, _, _⟩
  rw [Contact.callTalk_eq _ hoption, Logger.andThen_note]
  refine settles_of_note _ _ ?_
  refine .send hinput ?_
  refine .right_take rfl ?_
  refine h _ ?_ ?_
  · simp only [Talk.andThen, Logger.andThen_note]
  · intro reply
    simp only [Talk.andThen, Logger.andThen_note]

/-! ### The end of the conversation -/

section End

variable {σ : Type} {plugin : Plugin σ} {world : σ} {journal : Journal σ} {logger : Logger}
  {call : Call}

/-- A conversation in which the work of the plugin comes to a value. -/
theorem settles_of_value {files? : Option (List SchemaFile)} (command : String) (number : Nat)
    (houtput : plugin.role = .generator → call.options.output?.isSome)
    (hrun : (plugin.run ⟨call.options, call.files, plugin.sessionLogger logger.debug⟩).run
      ⟨world, []⟩ = (.ok files?, journal))
    (hinput : (encode (inputRequest call)).length ≤ maxFormLength)
    (hreplies : ∀ reply ∈ plugin.replies logger.debug (journal.entries.map Entry.record)
      (.ok files?), (encode reply).length ≤ maxFormLength) :
    let contact : Contact := ⟨plugin.metadata, command, number, logger⟩
    Dialogue.Settles
      ⟨.done (.ok (plugin.metadata, .ok files?)), .done (.ok (), journal.world),
        logger.details [contact.sendingText call] ++
          call.logger.heard logger.debug (journal.entries.map Entry.record) ++
          logger.details [contact.answeredText (.ofResult files?)] ++
          logger.details [contact.farewellText], [], [], []⟩
      (.start (errand logger command number call) (plugin.session logger.debug world)) := by
  intro contact
  unfold Plugin.replies lastReplies at hreplies
  simp only [List.forall_mem_append, List.forall_mem_cons] at hreplies
  obtain ⟨⟨hmetadata, hlog⟩, hanswer, -⟩ := hreplies
  refine settles_of_answer houtput hinput hmetadata fun next _ hsome => ?_
  simp only [Plugin.answer, hrun]
  refine .right_sendAll hlog ?_
  refine .right_send hanswer ?_
  rw [List.nil_append]
  refine .hear (map_entry?_logReplies call.logger logger.debug _) ?_
  refine .take (entry?_ofResult _ _ _) ?_
  rw [hsome, Contact.accept_ofResult hrun]
  refine settles_of_note _ _ (settles_of_note _ _ ?_)
  exact Dialogue.settles_done _ _ _ _ _ _

/-- A conversation in which the plugin fails. -/
theorem settles_of_error {error : PluginError} (command : String) (number : Nat)
    (houtput : plugin.role = .generator → call.options.output?.isSome)
    (hrun : (plugin.run ⟨call.options, call.files, plugin.sessionLogger logger.debug⟩).run
      ⟨world, []⟩ = (.error (.failed error), journal))
    (hinput : (encode (inputRequest call)).length ≤ maxFormLength)
    (hreplies : ∀ reply ∈ plugin.replies logger.debug (journal.entries.map Entry.record)
      (.error error), (encode reply).length ≤ maxFormLength) :
    let contact : Contact := ⟨plugin.metadata, command, number, logger⟩
    Dialogue.Settles
      ⟨.done (.ok (plugin.metadata, .error (.transport (.closed contact.exitedText)))),
        .done (.error error, journal.world),
        logger.details [contact.sendingText call] ++
          call.logger.heard logger.debug (journal.entries.map Entry.record) ++
          [⟨call.logger.audience, .error, error.message⟩] ++
          logger.details [contact.farewellText], [], [], []⟩
      (.start (errand logger command number call) (plugin.session logger.debug world)) := by
  intro contact
  unfold Plugin.replies lastReplies at hreplies
  simp only [List.forall_mem_append, List.forall_mem_cons] at hreplies
  obtain ⟨⟨hmetadata, hlog⟩, herror⟩ := hreplies
  refine settles_of_answer houtput hinput hmetadata fun next hnone _ => ?_
  simp only [Plugin.answer, hrun]
  refine .right_sendAll hlog ?_
  refine .right_sendAll herror ?_
  rw [List.nil_append]
  refine .hear (map_entry?_logReplies call.logger logger.debug _) ?_
  rw [← List.append_nil (logReplies _ [_])]
  refine .hear (map_entry?_logReplies call.logger logger.debug _) ?_
  refine .close ?_
  rw [hnone]
  refine settles_of_note _ _ ?_
  rw [Logger.heard_error]
  exact Dialogue.settles_done _ _ _ _ _ _

end End

/-- **Transparency.** Let a plugin be called directly with some options and files: it writes some
records, and comes to a result. Let it serve a conversation in another process instead, in which
none of the messages is too long. Then the plan by which it is started there and called comes to an
end in every interleaving of the steps of the two parties and of the streams between them. The
caller has got the description of the plugin. If the result is a value, the call has given this
value, and the log has got the records that are passed on; if the plugin fails, the call fails as
the stream was closed, the log has got an entry for the error behind those records, and the process
of the plugin ends with the error.

**Proof sketch.** There is one order of moves in which the dialogue comes to rest: the plugin
describes itself, gets its input, says all it has to say, and then the orchestrator hears it. So
every interleaving ends there. -/
theorem remote_call_of_local_call {σ : Type} {plugin : Plugin σ} {world : σ} {journal : Journal σ}
    {logger : Logger} {command : List String} (number : Nat) {call : Call}
    {result : Except PluginError (Option (List SchemaFile))}
    (hcommand : command ≠ [])
    (houtput : plugin.role = .generator → call.options.output?.isSome)
    (hrun : (plugin.run ⟨call.options, call.files, plugin.sessionLogger logger.debug⟩).run
      ⟨world, []⟩ = (result.mapError .failed, journal))
    (hinput : (encode (inputRequest call)).length ≤ maxFormLength)
    (hreplies : ∀ reply ∈ plugin.replies logger.debug (journal.entries.map Entry.record) result,
      (encode reply).length ≤ maxFormLength) :
    IsPlanOfCall (errand logger (commandLine command) number call) logger command number call ∧
      (Connection.start (errand logger (commandLine command) number call)
        (plugin.session logger.debug world)).EndsIn fun c =>
          let contact : Contact := ⟨plugin.metadata, commandLine command, number, logger⟩
          let heard := call.logger.heard logger.debug (journal.entries.map Entry.record)
          match result with
          | .ok value =>
            c.left.talk = .done (.ok (plugin.metadata, .ok value)) ∧
            c.left.notes = logger.details [contact.sendingText call] ++ heard ++
              logger.details [contact.answeredText (.ofResult value)] ++
              logger.details [contact.farewellText] ∧
            c.right.talk = .done (.ok (), journal.world)
          | .error error =>
            c.left.talk = .done (.ok (plugin.metadata,
              .error (.transport (.closed contact.exitedText)))) ∧
            c.left.notes = logger.details [contact.sendingText call] ++ heard ++
              [⟨call.logger.audience, .error, error.message⟩] ++
              logger.details [contact.farewellText] ∧
            c.right.talk = .done (.error error, journal.world) := by
  refine ⟨isPlanOfCall_errand logger number call hcommand, ?_⟩
  have hstart := Connection.represents_start (errand logger (commandLine command) number call)
    (plugin.session logger.debug world)
  cases result with
  | ok value =>
    obtain ⟨n, hsettles⟩ :=
      settles_of_value (commandLine command) number houtput hrun hinput hreplies
    exact (hstart.endsIn hsettles).mono fun c hc => ⟨hc.left, hc.leftNotes, hc.right⟩
  | error error =>
    obtain ⟨n, hsettles⟩ :=
      settles_of_error (commandLine command) number houtput hrun hinput hreplies
    exact (hstart.endsIn hsettles).mono fun c hc => ⟨hc.left, hc.leftNotes, hc.right⟩

/-- A generator that writes a detail, whether it is wanted or not, and a warning, and then fails. -/
def failingGenerator : Plugin Unit where
  name := "failing"
  description := ""
  options := []
  task := .generator fun call => do
    call.logger.log ⟨.debug, "looking"⟩
    call.logger.warning "odd"
    Work.fail (.failed "nothing found")

/-- Details are not wanted: the caller gets the warning and the error. -/
theorem remote_call_of_failingGenerator :
    let logger : Logger := ⟨.orchestrator, false⟩
    let call : Call := ⟨.put .empty "gen_output" "out", [], logger⟩
    (failingGenerator.role = .generator → call.options.output?.isSome) ∧
      (Connection.start (errand logger "failing" 7 call)
        (failingGenerator.session false ())).EndsIn fun c =>
          c.left.talk = .done (.ok (failingGenerator.metadata, .error (.transport
            (.closed "`failing` exited before reporting a result")))) ∧
          c.left.notes = [⟨.orchestrator, .warn, "odd"⟩,
            ⟨.orchestrator, .error, "Generation failed: nothing found"⟩] ∧
          c.right.talk = .done (.error (.failed "nothing found"), ()) := by
  intro logger call
  have houtput : failingGenerator.role = .generator → call.options.output?.isSome := by
    intro _
    rfl
  let journal : Journal Unit :=
    ⟨(), [⟨.plugin "failing", .debug, "looking"⟩, ⟨.plugin "failing", .warn, "odd"⟩]⟩
  have hends := @remote_call_of_local_call Unit failingGenerator () journal logger ["failing"] 7
    call (.error (.failed "nothing found")) (by decide) houtput rfl (by decide) (by decide)
  refine ⟨houtput, hends.2.mono ?_⟩
  rintro c ⟨htalk, hnotes, hother⟩
  exact ⟨htalk, hnotes, hother⟩

end SchemaForge
