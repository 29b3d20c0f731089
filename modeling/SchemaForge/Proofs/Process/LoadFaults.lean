import SchemaForge.Proofs.Process.SingleUse
set_option autoImplicit false

/-!
# What plugins fail to start with

A failure to start plugins is told of one of the commands: of one without a program, or of one whose
process is not started or does not describe itself.

## Main definitions

* `SchemaForge.Work.FailsOnlyWith` — the failures that work can come to.
* `SchemaForge.LoadError.Blames` — the failure is about one of the commands.

## Main results

* `SchemaForge.loadAll_failsOnlyWith` — what plugins fail to start with.
* `SchemaForge.ne_emptyCommand_of_loadWithin` — where each command has a program, none is missed.
-/

namespace SchemaForge

open Wire

/-! ### Failures of work -/

/-- All failures that the work can come to have the property. -/
def Work.FailsOnlyWith {σ ε α : Type} (work : Work σ ε α) (property : ε → Prop) : Prop :=
  ∀ ⦃journal error last⦄, work.run journal = (.error (.failed error), last) → property error

namespace Work.FailsOnlyWith

variable {σ ε α β : Type} {property : ε → Prop}

theorem pure (a : α) : (Pure.pure a : Work σ ε α).FailsOnlyWith property := by
  intro journal error last h
  cases h

/-- Work that goes on with a result fails as the one part or as the other one. -/
theorem bind {work : Work σ ε α} {next : α → Work σ ε β} (h : work.FailsOnlyWith property)
    (hnext : ∀ journal a between, work.run journal = (.ok a, between) →
      (next a).FailsOnlyWith property) :
    (work >>= next).FailsOnlyWith property := by
  intro journal error last hrun
  rw [Work.run_bind] at hrun
  rcases hwork : work.run journal with ⟨halt | a, between⟩
  · rw [hwork] at hrun
    cases hrun
    exact h hwork
  · rw [hwork] at hrun
    exact hnext journal a between hwork hrun

/-- Work that is done side by side fails as one of its parts. -/
theorem both {first : Work σ ε α} {second : Work σ ε β} (hfirst : first.FailsOnlyWith property)
    (hsecond : second.FailsOnlyWith property) : (first.both second).FailsOnlyWith property := by
  intro journal error last hrun
  simp only [Work.both, ExceptT.run] at hrun
  split at hrun
  · -- the first part fails
    rename_i h
    cases hrun
    exact hfirst h
  · -- it stalls, and the failure of the second one is found
    split at hrun
    · rename_i h
      cases hrun
      exact hsecond h
    · cases hrun
  · split at hrun
    · rename_i h
      cases hrun
      exact hsecond h
    · cases hrun

end Work.FailsOnlyWith

/-! ### Failures to start -/

/-- The failure is about one of the commands. Where no command is told, one of them is empty. -/
def LoadError.Blames (commands : List (List String)) (error : LoadError) : Prop :=
  match error.command? with
  | none => [] ∈ commands
  | some line => ∃ command ∈ commands, command ≠ [] ∧ line = commandLine command

/-- A fault of the handshake is one of the command that was started. -/
theorem LoadError.command?_ofFault (command : String) (status? : Option ExitStatus)
    (fault : HandshakeFault) :
    (LoadError.ofFault command status? fault).command? = some command := by
  cases status? <;> rfl

section Loading

variable {π σ : Type} [Process π] (system : System π) (logger : Logger)
  {commands : List (List String)}

/-- To start a process fails with its command. -/
theorem start_failsOnlyWith (number : Nat) {command : List String} (h : command ∈ commands) :
    (start system logger number command : Work σ LoadError (Started π)).FailsOnlyWith
      (LoadError.Blames commands) := by
  intro journal error last hrun
  unfold start at hrun
  by_cases hcommand : command = []
  · subst hcommand
    rw [if_pos rfl] at hrun
    cases hrun
    exact h
  · rw [if_neg hcommand] at hrun
    cases hspawn : system.spawn number (pluginEnvironment logger.debug) command with
    | none =>
      rw [hspawn] at hrun
      cases hrun
      exact ⟨command, h, hcommand, rfl⟩
    | some peer =>
      simp only [hspawn, Work.run_bind, Logger.run_detail, Work.run_pure] at hrun
      cases hrun

/-- To start several processes fails with one of their commands. -/
theorem startAll_failsOnlyWith (number : Nat) {part : List (List String)} (h : part ⊆ commands) :
    (startAll system logger number part : Work σ LoadError (List (Started π))).FailsOnlyWith
      (LoadError.Blames commands) := by
  induction part generalizing number with
  | nil => exact .pure []
  | cons command part ih =>
    obtain ⟨hcommand, hpart⟩ := List.cons_subset.1 h
    refine .bind (start_failsOnlyWith system logger number hcommand) fun _ _ _ _ => ?_
    exact .bind (ih (number + 1) hpart) fun _ _ _ _ => .pure _

variable {logger}

/-- A plugin that does not describe itself fails with the command that it was started for. -/
theorem greet_failsOnlyWith {started : Started π} {command : List String} (h : command ∈ commands)
    (hcommand : command ≠ []) (hstarted : started.command = commandLine command) :
    (greet logger started : Work σ LoadError (Contact × Channel Reply π)).FailsOnlyWith
      (LoadError.Blames commands) := by
  intro journal error last hrun
  rw [run_greet logger started journal rfl] at hrun
  generalize (handshake logger).run started.channel = record at hrun
  obtain ⟨notes, channel, _ | fault | metadata⟩ := record
  · cases hrun
  · cases hrun
    rw [LoadError.Blames, LoadError.command?_ofFault]
    exact ⟨command, h, hcommand, hstarted⟩
  · cases hrun

/-- Plugins that are asked side by side fail with the command of one of them. -/
theorem greetAll_failsOnlyWith {startedAll : List (Started π)}
    (h : ∀ started ∈ startedAll, ∃ command ∈ commands, command ≠ [] ∧
      started.command = commandLine command) :
    (greetAll logger startedAll : Work σ LoadError (List (Contact × Channel Reply π))).FailsOnlyWith
      (LoadError.Blames commands) := by
  induction startedAll with
  | nil => exact .pure []
  | cons started startedAll ih =>
    obtain ⟨⟨command, hmem, hcommand, hstarted⟩, hrest⟩ := List.forall_mem_cons.1 h
    refine .bind (.both (greet_failsOnlyWith hmem hcommand hstarted) (ih hrest)) ?_
    exact fun _ _ _ _ => .pure _

variable (logger)

/-- **Loading.** To load plugins fails with one of their commands. -/
theorem loadAll_failsOnlyWith (commands : List (List String)) :
    (loadAll system logger commands :
      Work σ LoadError (List (Contact × Channel Reply π))).FailsOnlyWith
        (LoadError.Blames commands) := by
  refine .bind (startAll_failsOnlyWith system logger 1 (List.Subset.refl commands)) ?_
  intro journal startedAll between hrun
  refine greetAll_failsOnlyWith fun started hstarted => ?_
  obtain ⟨number, command, before, after, hmem, hstart⟩ := start_of_mem_startAll hrun hstarted
  obtain ⟨hcommand, peer, -, rfl, -⟩ := start_eq_ok_iff.1 hstart
  exact ⟨command, hmem, hcommand, rfl⟩

/-- Where every command has a program, none is found to have none. -/
theorem ne_emptyCommand_of_loadWithin {commands : List (List String)}
    (h : ∀ command ∈ commands, command ≠ []) {limit : Option Duration} {journal last : Journal σ}
    {error : LoadError}
    (hrun : (loadWithin system logger limit commands).run journal =
      (.error (.failed (.load error)), last)) :
    error ≠ .emptyCommand := by
  rintro rfl
  -- of the outcomes of loading only a failure is told as such
  have hload : (loadAll system logger commands).run journal =
      (.error (.failed .emptyCommand), last) := by
    rcases hresult : (loadAll system logger commands).run journal with
      ⟨(failure | _) | loaded, between⟩ <;>
      simp only [loadWithin, ExceptT.run] at hrun hresult <;> rw [hresult] at hrun
    · cases hrun
      rfl
    · cases limit <;> cases hrun
    · cases hrun
  have hempty : [] ∈ commands := loadAll_failsOnlyWith system logger commands hload
  exact h [] hempty rfl

end Loading

end SchemaForge
