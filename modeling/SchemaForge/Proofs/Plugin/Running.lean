import SchemaForge.Plugin.Work
set_option autoImplicit false

/-!
# Running work

Work is put together from small pieces. What each of them makes of a journal is said here, so that
no other proof has to open the monad.

## Main results

* `SchemaForge.Work.run_bind` — work that goes on with a result.
* `SchemaForge.Logger.run_forM_log` — records that are logged one after the other.
-/

namespace SchemaForge

namespace Work

variable {σ ε α β : Type}

/-- Work that is done has its result. -/
theorem run_pure (a : α) (journal : Journal σ) :
    (pure a : Work σ ε α).run journal = (.ok a, journal) := rfl

/-- Work that goes on with a result. -/
theorem run_bind (work : Work σ ε α) (next : α → Work σ ε β) (journal : Journal σ) :
    (work >>= next).run journal =
      match work.run journal with
      | (.ok a, journal) => (next a).run journal
      | (.error halt, journal) => (.error halt, journal) := by
  simp only [bind, ExceptT.run, ExceptT.bind, ExceptT.mk, StateT.bind]
  rcases work journal with ⟨_ | a, journal⟩ <;> rfl

/-- Work that goes on to change its result. -/
theorem run_bind_pure (work : Work σ ε α) (f : α → β) (journal : Journal σ) :
    (work >>= fun a => pure (f a)).run journal =
      ((work.run journal).1.map f, (work.run journal).2) := by
  rw [run_bind]
  rcases work.run journal with ⟨_ | a, journal⟩ <;> rfl

/-- Work that goes on with a result has a result itself if both parts have one. -/
theorem run_bind_eq_ok_iff {work : Work σ ε α} {next : α → Work σ ε β} {journal last : Journal σ}
    {b : β} :
    (work >>= next).run journal = (.ok b, last) ↔
      ∃ a between, work.run journal = (.ok a, between) ∧
        (next a).run between = (.ok b, last) := by
  rw [run_bind]
  rcases work.run journal with ⟨halt | a, between⟩
  · constructor
    · intro h
      cases h
    · rintro ⟨_, _, h, -⟩
      cases h
  · constructor
    · exact fun h => ⟨a, between, rfl, h⟩
    · rintro ⟨_, _, h, hnext⟩
      cases h
      exact hnext

/-- A result or a failure leaves the journal as it is. -/
theorem run_ofExcept (result : Except ε α) (journal : Journal σ) :
    (ofExcept result : Work σ ε α).run journal = (result.mapError .failed, journal) := by
  cases result <;> rfl

/-- The world is read. -/
theorem run_world (journal : Journal σ) :
    (world : Work σ ε σ).run journal = (.ok journal.world, journal) := rfl

/-- Another world is put in place. -/
theorem run_setWorld (next : σ) (journal : Journal σ) :
    (setWorld next : Work σ ε Unit).run journal = (.ok (), ⟨next, journal.entries⟩) := rfl

end Work

namespace Logger

variable {σ ε : Type}

/-- A record is written behind the entries of a journal. -/
theorem run_log (logger : Logger) (record : LogRecord) (journal : Journal σ) :
    (logger.log record : Work σ ε Unit).run journal =
      (.ok (), ⟨journal.world, journal.entries ++ [⟨logger.audience, record⟩]⟩) := rfl

/-- Records are written behind the entries of a journal, in order. -/
theorem run_forM_log (logger : Logger) (records : List LogRecord) (journal : Journal σ) :
    (records.forM logger.log : Work σ ε Unit).run journal =
      (.ok (), ⟨journal.world,
        journal.entries ++ records.map fun record => ⟨logger.audience, record⟩⟩) := by
  induction records generalizing journal with
  | nil => simp [List.forM, Work.run_pure]
  | cons record records ih =>
    change ((logger.log record : Work σ ε Unit) >>= fun _ =>
      records.forM logger.log).run journal = _
    rw [Work.run_bind, run_log]
    simp only [ih, List.append_assoc, List.singleton_append, List.map_cons]

end Logger

end SchemaForge
