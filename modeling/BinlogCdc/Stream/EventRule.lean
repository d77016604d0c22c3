import BinlogCdc.Stream.HandlerRules

/-!
# The rule of an event

The transactional handler performs the script of the event under some clock readings, or
stops inside it. The record of the target transaction stays valid, which the rule of the
next event needs.
-/

namespace BinlogCdc

/-! ## The transaction record stays valid -/

namespace TargetTransaction.Valid

variable {transaction : TargetTransaction}

/-- The record without a transaction is valid. -/
theorem empty : ({} : TargetTransaction).Valid :=
  ⟨fun h => absurd h (by decide), rfl⟩

/-- Counting a source transaction keeps the record valid. -/
theorem recordSourceTransaction (h : transaction.Valid) :
    transaction.recordSourceTransaction.Valid := by
  unfold TargetTransaction.recordSourceTransaction
  split
  · next hopen => exact ⟨fun _ => hopen, h.noFile⟩
  · exact h

/-- Remembering a checkpoint keeps the record valid. -/
theorem rememberTransactionCheckpoint (h : transaction.Valid) (checkpoint : Checkpoint) :
    (transaction.rememberTransactionCheckpoint checkpoint).Valid := ⟨h.counted, h.noFile⟩

end TargetTransaction.Valid

namespace StreamCore

variable {codec : RowCodec} {config : TargetTransactionGroupConfig} {c : StreamCore}
  {header : EventHeader} {event : BinlogEvent}

/-- Committing leaves a valid record. -/
theorem committed_valid : c.committed.targetTransaction.Valid := .empty

/-- Flushing keeps the record valid. -/
theorem flushed_valid (h : c.targetTransaction.Valid) : c.flushed.targetTransaction.Valid := by
  unfold flushed
  split
  · exact committed_valid
  · exact h

/-- Beginning a transaction keeps the record valid. -/
theorem begun_valid (h : c.targetTransaction.Valid) (now : Nat) :
    (c.begun now).targetTransaction.Valid := by
  unfold begun
  split
  · exact h
  · exact ⟨fun _ => rfl, h.noFile⟩

/-- A direct store does not touch the transaction record. -/
@[simp] theorem stored_targetTransaction (checkpoint : Checkpoint) :
    (c.stored checkpoint).targetTransaction = c.targetTransaction := by
  unfold stored
  split
  · rfl
  · split <;> rfl

/-- Saving a checkpoint keeps the record valid. -/
theorem saved_valid (event : BinlogEvent) (h : c.targetTransaction.Valid)
    (resume : Option BinlogCoordinate) :
    (c.saved event resume).targetTransaction.Valid := by
  unfold saved
  cases resume with
  | none => exact h
  | some coordinate =>
    dsimp only
    split
    · exact h.rememberTransactionCheckpoint _
    · rw [stored_targetTransaction]
      exact h

/-- The end of a source transaction keeps the record valid. -/
theorem finished_valid (h : c.targetTransaction.Valid) (resume : Option BinlogCoordinate)
    (now : Nat) : (c.finished config event resume now).targetTransaction.Valid := by
  unfold finished
  dsimp only
  split
  · exact committed_valid
  · exact saved_valid _ h.recordSourceTransaction resume

/-- Before the handlers the record is valid. -/
theorem ready_valid (h : c.targetTransaction.Valid) (now : Readings) :
    (c.ready config event now).targetTransaction.Valid := by
  have hsettled : (c.settled config event now.before).targetTransaction.Valid := by
    unfold settled
    split
    · exact flushed_valid h
    · exact h
  unfold ready entered
  split
  · exact begun_valid hsettled _
  · exact hsettled

/-- Handling an event keeps the record valid. -/
theorem applied_valid (h : c.targetTransaction.Valid) (now : Readings) :
    (c.applied codec config header event now).targetTransaction.Valid := by
  have hhandled : ((c.ready config event now).handled codec header event).targetTransaction.Valid :=
    ready_valid h now
  unfold applied closed
  dsimp only
  split
  · exact finished_valid hhandled _ _
  · exact saved_valid _ hhandled _

end StreamCore

/-! ## The transactional handler performs the script of the event -/

section Event

variable {world : World} {config : StreamConfig} {table name : String}
  {E : Stop ApplyBinlogError → Runtime → Prop} {s : Runtime} {header : EventHeader}
  {event : BinlogEvent}

/-- The end of a source transaction performs its script, and stops only inside it. -/
theorem wp_finishSourceTransaction (hmode : config.checkpoint = .targetTable table name)
    (hvalid : s.targetTransaction.Valid) (outcome : StructuredEventOutcome)
    {Q : Unit → Runtime → Prop}
    (hQ : ∀ now s', Performed s
        (s.core.finishScript config.groupConfig event outcome.resumeCoordinate now) s' →
      s'.core = s.core.finished config.groupConfig event outcome.resumeCoordinate now → Q () s')
    (hE : ∀ now stop s', Stopped s
        (s.core.finishScript config.groupConfig event outcome.resumeCoordinate now) s' →
      E stop s') :
    Prog.wp (finishSourceTransaction world config event outcome event.isQuery) Q E s := by
  unfold finishSourceTransaction
  have htable : config.checkpoint.table.isSome = true := by
    rw [hmode]
    rfl
  simp only [Prog.wp_bind, wp_updateTransaction, htable, if_true]
  refine wp_saveOutcomeCheckpoint hmode event outcome ?_ ?_
  · intro s₁ hs₁ hcore
    have hsaved : Performed s
        (s.core.counted.savedScript event outcome.resumeCoordinate) s₁ :=
      ⟨hs₁.trace, hs₁.durable⟩
    have hcore : s₁.core = s.core.counted.saved event outcome.resumeCoordinate := hcore
    simp only [wp_readClock, Prog.wp_reads]
    have htt : s₁.targetTransaction =
        (s.core.counted.saved event outcome.resumeCoordinate).targetTransaction :=
      congrArg StreamCore.targetTransaction hcore
    have hvalid₁ : s₁.targetTransaction.Valid := by
      rw [htt]
      exact StreamCore.saved_valid _ hvalid.recordSourceTransaction _
    specialize hQ (world.clock s₁.tick)
    specialize hE (world.clock s₁.tick)
    simp only [StreamCore.finishScript, StreamCore.finished, StreamCore.isDue, ← hcore] at hQ hE
    simp only [Runtime.core_targetTransaction] at hQ hE
    split
    · next hdue =>
      have hdue : s₁.targetTransaction.shouldFlush config.groupConfig event.isQuery
        (world.clock s₁.tick) = true := hdue
      simp only [hdue, if_true] at hQ hE
      have hopen : s₁.targetTransaction.isOpen = true :=
        hvalid₁.counted (by
          unfold TargetTransaction.shouldFlush at hdue
          exact (Bool.and_eq_true _ _ ▸ hdue).1)
      refine wp_commitTargetGroup hmode hopen ?_ ?_
      · intro s' hs' hcore'
        exact hQ s' (hsaved.trans ⟨hs'.trace, hs'.durable⟩) hcore'
      · intro stop s' hs'
        exact hE stop s' (hsaved.stopped ⟨hs'.trace, hs'.durable⟩)
    · next hdue =>
      have hdue : ¬s₁.targetTransaction.shouldFlush config.groupConfig event.isQuery
        (world.clock s₁.tick) = true := hdue
      simp only [hdue, Bool.false_eq_true, if_false, List.append_nil] at hQ
      exact hQ _ ⟨hsaved.trace, hsaved.durable⟩ rfl
  · intro stop s' hs'
    have hstop : Stopped s (s.core.counted.savedScript event outcome.resumeCoordinate) s' :=
      ⟨hs'.trace, hs'.durable⟩
    exact hE 0 stop s' (hstop.append _)

/-- An event performs its script under some clock readings, and stops only inside it. -/
theorem wp_applyStreamEventTransactionally
    (hmode : config.checkpoint = .targetTable table name) (hvalid : s.targetTransaction.Valid)
    {Q : StructuredEventOutcome → Runtime → Prop}
    (hQ : ∀ outcome now s', now.before = world.clock s.tick →
      Performed s (s.core.eventScript world.codec config.groupConfig header event now) s' →
      s'.core = s.core.applied world.codec config.groupConfig header event now → Q outcome s')
    (hE : ∀ now stop s', now.before = world.clock s.tick →
      Stopped s (s.core.eventScript world.codec config.groupConfig header event now) s' →
      E stop s') :
    Prog.wp (applyStreamEventTransactionally world config header event) Q E s := by
  unfold applyStreamEventTransactionally
  simp only [Prog.wp_bind, wp_readClock, Prog.wp_reads]
  set before := world.clock s.tick with hbefore
  set handle : Stream StructuredEventOutcome := do
    let outcome ← Prog.onError (handleStructuredEvent world header event) fun error => do
      rollbackIfOpen world
      stopWith error
    if outcome.policy = .commitTransaction then
      finishSourceTransaction world config event outcome event.isQuery
      pure outcome
    else
      saveOutcomeCheckpoint world config event outcome
      pure outcome with hhandle
  -- From the state in which the handlers find the event on.
  have hready : ∀ opened s₂, Performed s
      (s.core.readyScript config.groupConfig event ⟨before, opened, 0⟩) s₂ →
      s₂.core = s.core.ready config.groupConfig event ⟨before, opened, 0⟩ →
      Prog.wp handle Q E s₂ := by
    intro opened s₂ hs₂ hcore₂
    have hvalid₂ : s₂.core.targetTransaction.Valid := by
      rw [hcore₂]
      exact StreamCore.ready_valid hvalid _
    have hstate₂ : s₂.state =
        (s.core.ready config.groupConfig event ⟨before, opened, 0⟩).state := by
      rw [← hcore₂]
      rfl
    rw [hhandle, Prog.wp_bind, Prog.wp_onError]
    refine wp_handleStructuredEvent ?_ ?_
    · intro policy s₃ hpolicy hs₃ hcore₃
      have hvalid₃ : s₃.targetTransaction.Valid := by
        have htt := congrArg StreamCore.targetTransaction hcore₃
        rw [show s₃.targetTransaction = s₂.targetTransaction from htt]
        exact hvalid₂
      rw [hstate₂] at hpolicy
      rw [hcore₂] at hs₃ hcore₃ ⊢
      by_cases hcommit : policy = .commitTransaction
      · have hcompletes := hpolicy.mp hcommit
        rw [if_pos hcommit, Prog.wp_bind]
        refine wp_finishSourceTransaction hmode hvalid₃ _ ?_ ?_
        · intro after s' hs' hcore'
          rw [hcore₃] at hs' hcore'
          refine hQ _ ⟨before, opened, after⟩ s' rfl ?_ ?_
          · refine hs₂.trans (hs₃.trans ?_)
            simp only [StreamCore.closeScript]
            rw [if_pos (by exact hcompletes)]
            exact hs'
          · simp only [StreamCore.applied, StreamCore.closed]
            rw [if_pos (by exact hcompletes)]
            exact hcore'
        · intro after stop s' hs'
          rw [hcore₃] at hs'
          refine hE ⟨before, opened, after⟩ stop s' rfl (hs₂.stopped (hs₃.stopped ?_))
          simp only [StreamCore.closeScript]
          rw [if_pos (by exact hcompletes)]
          exact hs'
      · have hcompletes := fun h => hcommit (hpolicy.mpr h)
        rw [if_neg hcommit, Prog.wp_bind]
        refine wp_saveOutcomeCheckpoint hmode event _ ?_ ?_
        · intro s' hs' hcore'
          rw [hcore₃] at hs' hcore'
          refine hQ _ ⟨before, opened, 0⟩ s' rfl ?_ ?_
          · refine hs₂.trans (hs₃.trans ?_)
            simp only [StreamCore.closeScript]
            rw [if_neg hcompletes]
            exact hs'
          · simp only [StreamCore.applied, StreamCore.closed]
            rw [if_neg hcompletes]
            exact hcore'
        · intro stop s' hs'
          rw [hcore₃] at hs'
          refine hE ⟨before, opened, 0⟩ stop s' rfl (hs₂.stopped (hs₃.stopped ?_))
          simp only [StreamCore.closeScript]
          rw [if_neg hcompletes]
          exact hs'
    · intro stop s' hs'
      rw [hcore₂] at hs'
      have hstop : Stopped s
          (s.core.eventScript world.codec config.groupConfig header event ⟨before, opened, 0⟩) s' :=
        hs₂.stopped (hs'.append _)
      cases stop with
      | crash => exact hE ⟨before, opened, 0⟩ _ _ rfl hstop
      | error error =>
        simp only [rollbackIfOpen, finishIfOpen, Prog.wp_bind, Prog.wp_reads]
        split
        · simp only [Prog.wp_bind]
          refine wp_transition ?_ fun stop => hE ⟨before, opened, 0⟩ stop _ rfl hstop.advance
          have hrolled := hstop.rollback
          exact hE ⟨before, opened, 0⟩ _ _ rfl ⟨hrolled.trace, hrolled.durable⟩
        · exact hE ⟨before, opened, 0⟩ _ _ rfl hstop
  -- From a settled state on.
  have hsettled : ∀ s₁, Performed s
      (if s.core.flushesBefore config.groupConfig event before then s.core.flushScript else []) s₁ →
      s₁.core = s.core.settled config.groupConfig event before →
      Prog.wp (do
        let state ← Prog.reads Runtime.state
        if eventCanWriteTarget event state then do
          beginIfNeeded world
          handle
        else handle) Q E s₁ := by
    intro s₁ hs₁ hcore
    have hstate : s₁.state = (s.core.settled config.groupConfig event before).state :=
      congrArg StreamCore.state hcore
    have hscript : ∀ opened, s.core.readyScript config.groupConfig event ⟨before, opened, 0⟩ =
        (if s.core.flushesBefore config.groupConfig event before then s.core.flushScript
          else []) ++
          if eventCanWriteTarget event s₁.state then s₁.core.beginScript else [] := by
      intro opened
      simp only [StreamCore.readyScript, hcore, hstate]
    have hready' : ∀ opened, s.core.ready config.groupConfig event ⟨before, opened, 0⟩ =
        if eventCanWriteTarget event s₁.state then s₁.core.begun opened else s₁.core := by
      intro opened
      simp only [StreamCore.ready, StreamCore.entered, hcore, hstate]
    rw [Prog.wp_bind, Prog.wp_reads]
    by_cases hcan : eventCanWriteTarget event s₁.state = true
    · simp only [hcan, if_true] at hscript hready'
      rw [if_pos hcan, Prog.wp_bind]
      refine wp_beginIfNeeded ?_ ?_
      · intro opened s' hs' hcore'
        refine hready opened s' ?_ (by rw [hready', hcore'])
        rw [hscript]
        exact hs₁.trans hs'
      · intro stop s' hs'
        refine hE ⟨before, 0, 0⟩ stop s' rfl ?_
        unfold StreamCore.eventScript
        rw [hscript]
        exact (hs₁.stopped hs').append _
    · simp only [hcan] at hscript hready'
      rw [if_neg hcan]
      refine hready 0 s₁ ?_ (hready' 0).symm
      rw [hscript]
      simpa using hs₁
  split
  · next hflush =>
    have hflush : s.core.flushesBefore config.groupConfig event before = true := hflush
    rw [Prog.wp_bind]
    rw [if_pos hflush] at hsettled
    simp only [StreamCore.settled, hflush, if_true] at hsettled
    refine wp_flushGroupedTransaction hmode hvalid ?_ ?_
    · intro s₁ hs₁ hcore₁
      exact hsettled s₁ ⟨hs₁.trace, hs₁.durable⟩ hcore₁
    · intro stop s' hs'
      refine hE ⟨before, 0, 0⟩ stop s' rfl ?_
      have hstop : Stopped s s.core.flushScript s' := ⟨hs'.trace, hs'.durable⟩
      unfold StreamCore.eventScript StreamCore.readyScript
      simp only [hflush, if_true]
      exact (hstop.append _).append _
  · next hflush =>
    have hflush : ¬s.core.flushesBefore config.groupConfig event before = true := hflush
    rw [if_neg hflush] at hsettled
    simp only [StreamCore.settled, hflush] at hsettled
    exact hsettled _ (Performed.refl rfl rfl) rfl

end Event

end BinlogCdc
