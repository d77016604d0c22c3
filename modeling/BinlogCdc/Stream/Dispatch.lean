import BinlogCdc.Stream.DdlRules
import BinlogCdc.Stream.Reading

/-!
# The ledger over whole runs

An event goes to the DDL handler or to the transactional handler. Either way the view of
the stream's connection grows by the work of the event, and what is durable while the
event is handled stays within the bounds of the ledger. Runs over lists of events are
built from this.
-/

namespace BinlogCdc

/-! ## Routes -/

/-- How an event is handled. -/
inductive Route where
  /-- Inside the target transaction. -/
  | transactional
  /-- By the DDL handler. -/
  | automatic (query : QueryEvent)
  /-- As DDL without a translation. -/
  | manual (query : QueryEvent)
  deriving DecidableEq, Repr

/-- The route of an event. -/
def route (semantics : DdlSemantics) (state : StructuredEventState) (event : BinlogEvent) : Route :=
  match event with
  | .query query =>
    if handlesAutomatically semantics state query then .automatic query
    else if needsManualDdl semantics state query then .manual query
    else .transactional
  | _ => .transactional

namespace Reader

variable (semantics : DdlSemantics) (codec : RowCodec) (reader : Reader)
  (input : SourceStreamEvent)

/-- The route of an event of the source. -/
def routeOf : Route := route semantics (reader.located input.sourcePosition).state input.event

/-- The work of an event of the source; DDL events have none. -/
def dispatchWork : List TargetWork :=
  match reader.routeOf semantics input with
  | .transactional => reader.workOf codec input
  | _ => []

/-- What is known after an event of the source. -/
def dispatch : Reader :=
  match reader.routeOf semantics input with
  | .transactional => reader.read codec input
  | _ => reader.located input.sourcePosition

/-- Where an event of the source ends. -/
def endOf : BinlogCoordinate :=
  match input.event with
  | .rotate file position => ⟨file, position⟩
  | _ => ⟨reader.currentFile, input.header.nextEventPosition⟩

/-- Where an event of the source starts. -/
def startOf : BinlogCoordinate := ⟨reader.currentFile, input.sourcePosition⟩

/-- What is known after a list of events. -/
def dispatchAll (inputs : List SourceStreamEvent) : Reader :=
  inputs.foldl (fun reader input => reader.dispatch semantics codec input) reader

/-- The work of a list of events. -/
def dispatchWorks : Reader → List SourceStreamEvent → List TargetWork
  | _, [] => []
  | reader, input :: rest =>
    reader.dispatchWork semantics codec input ++
      dispatchWorks (reader.dispatch semantics codec input) rest

variable {semantics codec reader}

@[simp] theorem dispatchAll_nil : reader.dispatchAll semantics codec [] = reader := rfl

@[simp] theorem dispatchAll_append (xs ys : List SourceStreamEvent) :
    reader.dispatchAll semantics codec (xs ++ ys) =
      (reader.dispatchAll semantics codec xs).dispatchAll semantics codec ys :=
  List.foldl_append

@[simp] theorem dispatchWorks_nil : reader.dispatchWorks semantics codec [] = [] := rfl

@[simp] theorem dispatchWorks_singleton (input : SourceStreamEvent) :
    reader.dispatchWorks semantics codec [input] = reader.dispatchWork semantics codec input := by
  simp [dispatchWorks]

@[simp] theorem dispatchWorks_append (xs ys : List SourceStreamEvent) :
    reader.dispatchWorks semantics codec (xs ++ ys) = reader.dispatchWorks semantics codec xs ++
      (reader.dispatchAll semantics codec xs).dispatchWorks semantics codec ys := by
  induction xs generalizing reader with
  | nil => rfl
  | cons x xs ih =>
    have hall : reader.dispatchAll semantics codec (x :: xs) =
        (reader.dispatch semantics codec x).dispatchAll semantics codec xs := rfl
    simp [dispatchWorks, ih, hall]

end Reader

/-! ## The DDL handler and the ledger -/

/-- What a run of the DDL handler leaves of the ledger it found. -/
structure DdlLedger (event : DdlEvent) (before after : Target) : Prop where
  /-- The view has the same work. -/
  view : after.view.work = before.view.work
  /-- Nothing new is durable, or everything is. -/
  durable : after.db.work = before.db.work ∨ after.db.work = before.view.work
  /-- The checkpoint is the old one, or the event's with everything before it. -/
  checkpoint : after.db.checkpoint = before.db.checkpoint ∨
    (after.db.checkpoint = some event.checkpoint ∧ after.db.work = before.view.work)
  /-- An open transaction holds only work, or no work at all. -/
  transaction : after.OnlyWork ∨ ∃ changes, after.transaction = some changes ∧ changes.work = []

namespace DdlLedger

variable {event : DdlEvent} {before after after' : Target}

theorem refl (h : before.OnlyWork) : DdlLedger event before before :=
  ⟨rfl, Or.inl rfl, Or.inl rfl, Or.inl h⟩

/-- Writing a journal row does not touch the ledger. -/
theorem putRow (h : DdlLedger event before after) (row : JournalRow) :
    DdlLedger event before (after.putRow row) :=
  ⟨h.view, h.durable, h.checkpoint, h.transaction⟩

/-- A statement that commits the open work makes everything durable. -/
theorem committed (h : DdlLedger event before after) (hwork : after'.db.work = after.view.work)
    (hview : after'.view.work = after.view.work)
    (hcheckpoint : after'.db.checkpoint = after.db.checkpoint ∨
      after'.db.checkpoint = some event.checkpoint)
    (htransaction : after'.OnlyWork) : DdlLedger event before after' := by
  have hall : after'.db.work = before.view.work := hwork.trans h.view
  refine ⟨hview.trans h.view, Or.inr hall, ?_, Or.inl htransaction⟩
  rcases hcheckpoint with hold | hnew
  · rw [hold]
    rcases h.checkpoint with hc | ⟨hc, -⟩
    · exact Or.inl hc
    · exact Or.inr ⟨hc, hall⟩
  · exact Or.inr ⟨hnew, hall⟩

/-- A statement in a transaction without work does not touch the ledger. -/
theorem inside (h : DdlLedger event before after) {changes changes' : TargetChanges}
    (ht : after.transaction = some changes) (hwork : changes.work = [])
    (hwork' : changes'.work = []) : DdlLedger event before ⟨after.db, some changes'⟩ := by
  refine ⟨?_, h.durable, h.checkpoint, Or.inr ⟨changes', rfl, hwork'⟩⟩
  rw [← h.view, Target.view_of_some ht, Target.view_of_some rfl, TargetDb.apply_work,
    TargetDb.apply_work, hwork, hwork']

end DdlLedger

/-- Every operation of the DDL handler keeps the ledger. -/
theorem DdlAction.ledger {semantics : DdlSemantics} {entry : Option TargetChanges}
    {event : DdlEvent} {committing : Bool} {before target target' : Target} {trace : List TraceEntry} {op : TargetOp}
    (haction : DdlAction semantics entry event committing target trace op target')
    (h : DdlLedger event before target) : DdlLedger event before target' := by
  cases haction with
  | look => exact h
  | recordPending => exact h.putRow _
  | prepare => exact h.putRow _
  | markApplied => exact h.putRow _
  | markBlocked => exact h.putRow _
  | recover => exact h.putRow _
  | executeLegacy sql hfree =>
    exact h.committed rfl (target.executeDdl_view_work event sql)
      (Or.inl (hfree.onlyWork.executeDdl_checkpoint event sql)) (Target.onlyWork_of_none rfl)
  | begin hfree =>
    exact h.committed rfl (by rw [Target.begin_view]) (Or.inl hfree.onlyWork.view_checkpoint)
      target.onlyWork_begin
  | mark ht =>
    rw [show target.markCheckpointed event = ⟨target.db, some { checkpointed := [event] }⟩ from
      Target.change_of_some ht _]
    exact h.inside ht rfl rfl
  | save ht =>
    rw [show target.saveCheckpoint event.checkpoint = ⟨target.db,
        some { checkpoint := some event.checkpoint, checkpointed := [event] }⟩ from
      Target.change_of_some ht _]
    exact h.inside ht rfl rfl
  | commit _ ht =>
    refine h.committed rfl (by rw [Target.commit_view]) (Or.inr ?_) (Target.onlyWork_of_none rfl)
    rw [Target.commit_db, Target.view_of_some ht]
    rfl
  | rollback ht =>
    obtain ⟨changes, ht, hwork⟩ := ht
    refine ⟨?_, h.durable, h.checkpoint, Or.inl (Target.onlyWork_of_none rfl)⟩
    rw [← h.view, Target.view_of_none rfl, Target.view_of_some ht, TargetDb.apply_work, hwork,
      List.append_nil]
    rfl

/-- A run of the DDL handler keeps the ledger. -/
theorem DdlRun.ledger {semantics : DdlSemantics} {entry : Option TargetChanges}
    {event : DdlEvent} {committing : Bool} {s s' : Runtime}
    (hrun : DdlRun semantics entry event committing s s')
    (h : s.target.OnlyWork) : DdlLedger event s.target s'.target := by
  induction hrun with
  | refl => exact DdlLedger.refl h
  | tail _ step ih =>
    cases step with
    | quiet htarget => exact htarget ▸ ih
    | act haction => exact haction.ledger ih
    | prepareAndExecute evidence sql hfree =>
      exact (ih.putRow _).committed rfl (Target.executeDdl_view_work _ event sql)
        (Or.inl ((hfree.putRow _).onlyWork.executeDdl_checkpoint event sql))
        (Target.onlyWork_of_none rfl)

/-! ## The rule of an event -/

/-- The DDL event of a query at a state. -/
def StreamCore.ddlEvent (config : StreamConfig) (c : StreamCore) (input : SourceStreamEvent)
    (query : QueryEvent) : DdlEvent :=
  BinlogCdc.ddlEvent config.sourceIdentity c.currentFile input.header query

/-- Flushing before a DDL event leaves a sound state. -/
theorem StreamCore.Sound.flushed {c : StreamCore} (h : c.Sound) : c.flushed.Sound := by
  unfold StreamCore.flushed
  split
  · exact committed_sound
  · exact h

/-- An event of the source performs its script, or it is DDL: then the group is flushed and the
DDL handler runs. -/
theorem wp_processStreamEvent {world : World} {config : StreamConfig} {table name : String}
    (hmode : config.checkpoint = .targetTable table name) {s : Runtime} (hsound : s.core.Sound)
    {input : SourceStreamEvent} {Q : Unit → Runtime → Prop}
    {E : Stop ApplyBinlogError → Runtime → Prop}
    (hQ : ∀ now s', s.core.reader.routeOf world.semantics input = .transactional →
      now.before = world.clock s.tick →
      Performed s (s.core.inputScript world.codec config.groupConfig input now) s' →
      s'.core = s.core.consumed world.codec config.groupConfig input now → Q () s')
    (hE : ∀ now stop s', s.core.reader.routeOf world.semantics input = .transactional →
      now.before = world.clock s.tick →
      Stopped s (s.core.inputScript world.codec config.groupConfig input now) s' → E stop s')
    (hflush : ∀ stop s', s.core.reader.routeOf world.semantics input ≠ .transactional →
      Stopped s s.core.flushScript s' → E stop s')
    (hddl : ∀ query s₁ s', s.core.reader.routeOf world.semantics input = .automatic query →
      Performed s s.core.flushScript s₁ →
      s₁.core = (s.core.located input.sourcePosition).flushed →
      DdlRun world.semantics s₁.target.transaction (s.core.ddlEvent config input query) true s₁ s' →
      ((s'.target.transaction = none ∧
          ¬s₁.target.db.journal.Holds (s.core.ddlEvent config input query) .checkpointed) ∨
        (Looked s₁ s' ∧
          s₁.target.db.journal.Holds (s.core.ddlEvent config input query) .checkpointed)) → Q () s')
    (hstop : ∀ query s₁ stop s', s.core.reader.routeOf world.semantics input = .automatic query →
      Performed s s.core.flushScript s₁ →
      s₁.core = (s.core.located input.sourcePosition).flushed →
      DdlRun world.semantics s₁.target.transaction (s.core.ddlEvent config input query) false s₁ s' →
      E stop s')
    (hmanual : ∀ query s₁ stop s', s.core.reader.routeOf world.semantics input = .manual query →
      Performed s s.core.flushScript s₁ →
      s₁.core = (s.core.located input.sourcePosition).flushed →
      DdlRun world.semantics none (s.core.ddlEvent config input query) false s₁ s' → E stop s') :
    Prog.wp (processStreamEvent world config input) Q E s := by
  unfold processStreamEvent dispatchDdlOrTransactionalEvent
  simp only [Prog.wp_bind, wp_updateState, Prog.wp_pure]
  set s' : Runtime := { s with state := s.state.recordEventPosition input.sourcePosition } with hs'
  have hsound' : s'.core.Sound := hsound.located input.sourcePosition
  have hvalid' : s'.targetTransaction.Valid := hsound.valid
  have htransactional : s.core.reader.routeOf world.semantics input = .transactional →
      Prog.wp (applyStreamEventTransactionally world config input.header input.event)
        (fun _ s' => Q () s') E s' := by
    intro hroute
    refine wp_applyStreamEventTransactionally hmode hvalid' ?_ ?_
    · intro _ now s'' hnow hs'' hcore
      exact hQ now s'' hroute hnow ⟨hs''.trace, hs''.durable⟩ hcore
    · intro now stop s'' hnow hs''
      exact hE now stop s'' hroute hnow ⟨hs''.trace, hs''.durable⟩
  unfold handleDdlEvent
  cases hevent : input.event with
  | query query =>
    have hroute : s.core.reader.routeOf world.semantics input =
        if handlesAutomatically world.semantics s'.state query then .automatic query
        else if needsManualDdl world.semantics s'.state query then .manual query
        else .transactional := by
      simp only [Reader.routeOf, route, hevent]
      rfl
    have hstart : ∀ s₁ : Runtime, s₁.core = s'.core.flushed → s₁.target.Free s₁.target.transaction := by
      intro s₁ hcore
      have htarget : s₁.target = s'.core.flushed.target := congrArg StreamCore.target hcore
      refine ⟨?_, Or.inr rfl⟩
      rw [htarget]
      exact hsound'.flushed.onlyWork
    simp only [Prog.wp_bind, Prog.wp_reads, id]
    split
    · next hauto =>
      rw [if_pos hauto] at hroute
      have hnot : s.core.reader.routeOf world.semantics input ≠ .transactional := by simp [hroute]
      simp only [Prog.wp_bind, Prog.wp_pure, handleAutomaticDdlEvent]
      refine wp_flushGroupedTransaction hmode hvalid' ?_ ?_
      · intro s₁ hs₁ hcore
        have hperformed : Performed s s.core.flushScript s₁ := ⟨hs₁.trace, hs₁.durable⟩
        refine wp_resumeAutomaticDdl hmode .refl (hstart s₁ hcore) ?_ ?_ ?_
        · intro s₂ hrun hnone hholds
          exact hddl query s₁ s₂ hroute hperformed hcore hrun (Or.inl ⟨hnone, hholds⟩)
        · intro s₂ hrun hlooked hholds
          exact hddl query s₁ s₂ hroute hperformed hcore hrun.uncommitted (Or.inr ⟨hlooked, hholds⟩)
        · intro stop s₂ hrun
          exact hstop query s₁ stop s₂ hroute hperformed hcore hrun
      · intro stop s'' hs''
        exact hflush stop s'' hnot ⟨hs''.trace, hs''.durable⟩
    · next hauto =>
      rw [if_neg hauto] at hroute
      split
      · next hneeds =>
        rw [if_pos hneeds] at hroute
        have hnot : s.core.reader.routeOf world.semantics input ≠ .transactional := by
          simp [hroute]
        simp only [Prog.wp_bind, wp_stopWith, handleUntranslatedDdlEvent]
        refine wp_flushGroupedTransaction hmode hvalid' ?_ ?_
        · intro s₁ hs₁ hcore
          have hperformed : Performed s s.core.flushScript s₁ := ⟨hs₁.trace, hs₁.durable⟩
          refine wp_ensureTranslationPending none .refl ?_ ?_
          · intro s₂ hrun
            exact hmanual query s₁ _ s₂ hroute hperformed hcore hrun
          · intro stop s₂ hrun
            exact hmanual query s₁ stop s₂ hroute hperformed hcore hrun
        · intro stop s'' hs''
          exact hflush stop s'' hnot ⟨hs''.trace, hs''.durable⟩
      · next hneeds =>
        rw [if_neg hneeds] at hroute
        have hresult := htransactional hroute
        rw [hevent] at hresult
        exact hresult
  | _ =>
    have hroute : s.core.reader.routeOf world.semantics input = .transactional := by
      simp only [Reader.routeOf, route, hevent]
    have hresult := htransactional hroute
    rw [hevent] at hresult
    exact hresult

/-! ## The ledger of an event -/

/-- The checkpoint of an event of the source. -/
def StreamCore.dispatchCheckpoint (semantics : DdlSemantics) (config : StreamConfig)
    (c : StreamCore) (input : SourceStreamEvent) : Option Checkpoint :=
  match c.reader.routeOf semantics input with
  | .transactional => (c.located input.sourcePosition).nextCheckpoint input.header input.event
  | .automatic query => some (c.ddlEvent config input query).checkpoint
  | .manual query => some (c.ddlEvent config input query).checkpoint

/-- DDL events are query events. -/
theorem event_of_routeOf {semantics : DdlSemantics} {reader : Reader} {input : SourceStreamEvent}
    {query : QueryEvent} (h : reader.routeOf semantics input = .automatic query ∨
      reader.routeOf semantics input = .manual query) : input.event = .query query := by
  unfold Reader.routeOf route at h
  cases hevent : input.event with
  | query other =>
    rw [hevent] at h
    dsimp only at h
    split at h
    · rcases h with h | h <;> cases h
      rfl
    · split at h
      · rcases h with h | h <;> cases h
        rfl
      · rcases h with h | h <;> cases h
  | _ =>
    rw [hevent] at h
    rcases h with h | h <;> cases h

/-- Where the stream may resume after an event, the event ends. -/
theorem Reader.endOf_of_resume {reader : Reader} {input : SourceStreamEvent}
    {coordinate : BinlogCoordinate}
    (h : reader.resume input.header input.event = some coordinate) :
    coordinate = reader.endOf input := by
  obtain ⟨header, event, position⟩ := input
  unfold Reader.resume resumeCoordinate at h
  cases event with
  | rotate file target =>
    cases h
    rfl
  | xid xid =>
    dsimp only at h
    split at h
    · cases h
      rfl
    · cases h
  | query query =>
    dsimp only at h
    split at h
    · cases h
      rfl
    · cases h
  | _ => cases h

/-- The checkpoint of an event of the source is its end. -/
theorem StreamCore.dispatchCheckpoint_coordinate {semantics : DdlSemantics} {config : StreamConfig}
    {c : StreamCore} {input : SourceStreamEvent} {checkpoint : Checkpoint}
    (h : c.dispatchCheckpoint semantics config input = some checkpoint) :
    checkpoint.coordinate = c.reader.endOf input := by
  unfold dispatchCheckpoint at h
  split at h
  · simp only [nextCheckpoint, Option.map_eq_some_iff] at h
    obtain ⟨coordinate, hresume, rfl⟩ := h
    exact Reader.endOf_of_resume hresume
  · next query hroute =>
    cases h
    simp only [Reader.endOf, event_of_routeOf (Or.inl hroute)]
    rfl
  · next query hroute =>
    cases h
    simp only [Reader.endOf, event_of_routeOf (Or.inr hroute)]
    rfl

/-- The state after an event of the source was handled. -/
structure Consumed (semantics : DdlSemantics) (codec : RowCodec) (config : StreamConfig)
    (input : SourceStreamEvent) (c c' : StreamCore) : Prop where
  /-- The state is sound. -/
  sound : c'.Sound
  /-- The event was read. -/
  reader : c'.reader = c.reader.dispatch semantics codec input
  /-- The view has the event's work. -/
  view : c'.target.view.work = c.target.view.work ++ c.reader.dispatchWork semantics codec input
  /-- The durable contents are within the bounds of the event. -/
  within : c.Within (c.reader.dispatchWork semantics codec input)
    (c.dispatchCheckpoint semantics config input) c'.target.db
  /-- The pending checkpoint is gone, the one before or the event's own. -/
  pending : c'.pending = none ∨ c'.pending = c.pending ∨
    c'.pending = c.dispatchCheckpoint semantics config input

/-- What a performed script leaves durable. -/
theorem Performed.within {s s' : Runtime} {script : List TraceEntry} {work : List TargetWork}
    {next : Option Checkpoint} (h : Performed s script s')
    (hscript : ∀ x ∈ script, s.core.Within work next x.after.db) :
    s.core.Within work next s'.target.db := by
  rcases h.durable with hdb | ⟨x, hx, hdb⟩
  · rw [hdb]
    exact StreamCore.Within.refl s.core work next
  · rw [hdb]
    exact hscript x hx

/-- What a stopped script leaves durable. -/
theorem Stopped.within {s s' : Runtime} {script : List TraceEntry} {work : List TargetWork}
    {next : Option Checkpoint} (h : Stopped s script s')
    (hscript : ∀ x ∈ script, s.core.Within work next x.after.db) :
    s.core.Within work next s'.target.db := by
  rcases h.durable with hdb | ⟨x, hx, hdb⟩
  · rw [hdb]
    exact StreamCore.Within.refl s.core work next
  · rw [hdb]
    exact hscript x hx

/-- What a run of the DDL handler after the flush leaves durable. -/
theorem DdlLedger.within {c m : StreamCore} {event : DdlEvent} {target : Target}
    (h : DdlLedger event m.target target) (hm : c.Advanced [] m) :
    c.Within [] (some event.checkpoint) target.db := by
  have hview : m.target.view.work = c.target.view.work := by simpa using hm.view
  rcases h.checkpoint with hsame | ⟨hnew, hall⟩
  · exact hm.within [] h.durable (Or.inl hsame)
  · rw [hview] at hall
    refine ⟨Or.inr (hall ▸ List.prefix_refl _), ?_, Or.inr (Or.inr ⟨_, rfl, hnew, ?_⟩)⟩
    · rw [hall]
      exact List.prefix_append _ _
    · rw [hall, List.append_nil]

/-- Every event of the source keeps the ledger, whether its handling succeeds or stops. -/
theorem wp_processStreamEvent_ledger {world : World} {config : StreamConfig} {table name : String}
    (hmode : config.checkpoint = .targetTable table name) {s : Runtime} (hsound : s.core.Sound)
    (input : SourceStreamEvent) :
    Prog.wp (processStreamEvent world config input)
      (fun _ s' => Consumed world.semantics world.codec config input s.core s'.core)
      (fun _ s' => s.core.Within (s.core.reader.dispatchWork world.semantics world.codec input)
        (s.core.dispatchCheckpoint world.semantics config input) s'.target.db) s := by
  have hlocated := hsound.located input.sourcePosition
  -- What the transactional handler does.
  have hscript : s.core.reader.routeOf world.semantics input = .transactional → ∀ now, ∀ x ∈
      s.core.inputScript world.codec config.groupConfig input now,
      s.core.Within (s.core.reader.dispatchWork world.semantics world.codec input)
        (s.core.dispatchCheckpoint world.semantics config input) x.after.db := by
    intro hroute now x hx
    have hwithin := StreamCore.eventScript_within hlocated hx
    simp only [Reader.dispatchWork, StreamCore.dispatchCheckpoint, hroute]
    exact ⟨hwithin.durable, hwithin.bound, hwithin.checkpoint⟩
  -- What the flush before the DDL handler and the handler itself do.
  have hflushed : s.core.Advanced [] (s.core.located input.sourcePosition).flushed := by
    have hadvanced := StreamCore.flushed_advanced hlocated
    exact ⟨hadvanced.sound, hadvanced.view, hadvanced.durable, hadvanced.checkpoint,
      hadvanced.pending⟩
  have hddl : ∀ query entry committing s₁ s',
      (s.core.reader.routeOf world.semantics input = .automatic query ∨
        s.core.reader.routeOf world.semantics input = .manual query) →
      s₁.core = (s.core.located input.sourcePosition).flushed →
      DdlRun world.semantics entry (s.core.ddlEvent config input query) committing s₁ s' →
      s.core.Within (s.core.reader.dispatchWork world.semantics world.codec input)
        (s.core.dispatchCheckpoint world.semantics config input) s'.target.db := by
    intro query entry committing s₁ s' hroute hcore hrun
    have hledger : DdlLedger _ s₁.core.target s'.target := hrun.ledger (by
      rw [show s₁.target = s₁.core.target from rfl, hcore]
      exact hflushed.sound.onlyWork)
    rw [hcore] at hledger
    have hwithin := hledger.within hflushed
    rcases hroute with hroute | hroute
    · simp only [Reader.dispatchWork, StreamCore.dispatchCheckpoint, hroute]
      exact hwithin
    · simp only [Reader.dispatchWork, StreamCore.dispatchCheckpoint, hroute]
      exact hwithin
  refine wp_processStreamEvent hmode hsound ?_ ?_ ?_ ?_ ?_ ?_
  · intro now s' hroute _ hs' hcore
    rw [hcore]
    refine ⟨StreamCore.consumed_sound hsound now, ?_, ?_, ?_, ?_⟩
    · simp only [StreamCore.consumed_reader, Reader.dispatch, hroute]
    · simp only [StreamCore.consumed_view_work hsound, Reader.dispatchWork, hroute]
    · have hwithin := hs'.within (hscript hroute now)
      rw [show s'.target = s'.core.target from rfl, hcore] at hwithin
      exact hwithin
    · simp only [StreamCore.dispatchCheckpoint, hroute]
      exact StreamCore.applied_pending hlocated now
  · intro now stop s' hroute _ hs'
    exact hs'.within (hscript hroute now)
  · intro stop s' _ hs'
    exact hs'.within fun x hx => StreamCore.flushScript_within hsound hx
  · intro query s₁ s' hroute _ hcore hrun hend
    have hwithin := hddl query _ _ s₁ s' (Or.inl hroute) hcore hrun
    have htarget : s₁.target = s₁.core.target := rfl
    rw [hcore] at htarget
    have hledger := hrun.ledger (htarget ▸ hflushed.sound.onlyWork)
    obtain ⟨htransaction, hstate, hregistry, hfile⟩ := hrun.record
    have htt : s'.targetTransaction =
        (s.core.located input.sourcePosition).flushed.targetTransaction := by
      rw [htransaction, ← hcore]
      rfl
    have hreader : s₁.core.reader = s.core.reader.located input.sourcePosition := by
      rw [hcore]
      unfold StreamCore.flushed
      split <;> rfl
    refine ⟨⟨?_, ?_, ?_⟩, ?_, ?_, hwithin, ?_⟩
    · rw [Runtime.core_targetTransaction, htt]
      exact hflushed.sound.valid
    · rcases hend with ⟨hnone, -⟩ | ⟨hlooked, -⟩
      · exact Target.onlyWork_of_none hnone
      · rw [Runtime.core_target, hlooked.target, htarget]
        exact hflushed.sound.onlyWork
    · intro hclosed
      rcases hend with ⟨hnone, -⟩ | ⟨hlooked, -⟩
      · exact hnone
      · rw [Runtime.core_target, hlooked.target, htarget]
        exact hflushed.sound.closed (htt ▸ hclosed)
    · have hcurrent : s'.currentFile = s₁.currentFile := by
        rcases hfile with hfile | hfile
        · exact hfile
        · rw [hfile]
          exact (congrArg Reader.currentFile hreader).symm
      simp only [Reader.dispatch, hroute]
      rw [← hreader]
      simp only [StreamCore.reader, Runtime.core_currentFile, Runtime.core_state,
        Runtime.core_registry, hstate, hregistry, hcurrent]
    · simp only [Reader.dispatchWork, hroute, List.append_nil]
      rw [Runtime.core_target, hledger.view, htarget]
      simpa using hflushed.view
    · have hpending : s'.core.pending = (s.core.located input.sourcePosition).flushed.pending := by
        unfold StreamCore.pending
        rw [Runtime.core_targetTransaction, htt]
      rw [hpending]
      exact hflushed.pending.elim (fun h => Or.inr (Or.inl h)) Or.inl
  · intro query s₁ stop s' hroute _ hcore hrun
    exact hddl query _ _ s₁ s' (Or.inl hroute) hcore hrun
  · intro query s₁ stop s' hroute _ hcore hrun
    exact hddl query _ _ s₁ s' (Or.inr hroute) hcore hrun

end BinlogCdc
