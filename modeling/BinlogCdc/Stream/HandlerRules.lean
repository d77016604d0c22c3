import BinlogCdc.Stream.EventScript

/-!
# The handlers perform their scripts

One rule for every handler of the stream: it performs its script and leaves the state of
its description, or it stops inside the script.
-/

namespace BinlogCdc

/-! ## The handlers perform their scripts -/

section Apply

variable {world : World} {E : Stop ApplyBinlogError → Runtime → Prop} {s : Runtime}

/-- Applying planned rows performs the script of their changes, and stops only inside it. -/
theorem wp_applyPlannedRows (coordinate : BinlogCoordinate) (rows : List PlannedRow)
    {Q : Unit → Runtime → Prop}
    (hQ : ∀ s', Performed s
        (workScript s.target ((rowChanges rows).map (.rowChange coordinate))) s' →
      s'.core = { s.core with
        target := s.target.applyAll ((rowChanges rows).map (.rowChange coordinate)) } → Q () s')
    (hE : ∀ stop s', Stopped s
        (workScript s.target ((rowChanges rows).map (.rowChange coordinate))) s' → E stop s') :
    Prog.wp (Prog.forEach rows (applyPlannedRow world coordinate)) Q E s := by
  induction rows generalizing s with
  | nil => exact hQ s (Performed.refl rfl rfl) rfl
  | cons row rows ih =>
    simp only [Prog.forEach, Prog.wp_bind, applyPlannedRow]
    cases row with
    | error message => exact hE _ _ (Stopped.refl s _)
    | ok change =>
      cases change with
      | none => exact ih hQ hE
      | some change =>
        have hsingle := Performed.single s (.rowChange coordinate change)
          (s.target.applyWork [.rowChange coordinate change])
        refine wp_transition ?_ fun stop => hE stop _ (Stopped.refl s _).advance
        refine ih ?_ ?_
        · intro s' hs' hcore
          exact hQ s' (hsingle.trans hs') hcore
        · intro stop s' hs'
          exact hE stop s' (hsingle.stopped hs')

/-- Setting session variables performs its script, and stops only inside it. -/
theorem wp_applyIntvars (intvars : List PendingIntVar) {Q : Unit → Runtime → Prop}
    (hQ : ∀ s', Performed s
        (intvars.map fun intvar => ⟨.setInsertId intvar.value, s.target, s.target⟩) s' →
      s'.core = s.core → Q () s')
    (hE : ∀ stop s', Stopped s
        (intvars.map fun intvar => ⟨.setInsertId intvar.value, s.target, s.target⟩) s' →
      E stop s') :
    Prog.wp (Prog.forEach intvars (applyIntvar world)) Q E s := by
  induction intvars generalizing s with
  | nil => exact hQ s (Performed.refl rfl rfl) rfl
  | cons intvar intvars ih =>
    simp only [Prog.forEach, Prog.wp_bind, applyIntvar]
    split
    · exact hE _ _ (Stopped.refl s _)
    · have hsingle := Performed.single s (.setInsertId intvar.value) s.target
      refine wp_transition ?_ fun stop => hE stop _ (Stopped.refl s _).advance
      refine ih ?_ ?_
      · intro s' hs' hcore
        exact hQ s' (hsingle.trans hs') hcore
      · intro stop s' hs'
        exact hE stop s' (hsingle.stopped hs')

variable {Q : EventPolicy → Runtime → Prop}

/-- A row event performs the script of its rows, and stops only inside it. -/
theorem wp_applyRowEvent (coordinate : BinlogCoordinate)
    (plan : Except ApplyBinlogError (List PlannedRow)) {work : List TargetWork}
    (hwork : ∀ rows, plan = .ok rows → work = (rowChanges rows).map (.rowChange coordinate))
    (hQ : ∀ s', Performed s (workScript s.target work) s' →
      s'.core = { s.core with target := s.target.applyAll work } → Q .applyRows s')
    (hE : ∀ stop s', Stopped s (workScript s.target work) s' → E stop s') :
    Prog.wp (applyRowEvent world coordinate plan) Q E s := by
  unfold applyRowEvent
  simp only [Prog.wp_bind, wp_decided, Prog.wp_pure]
  refine ⟨?_, fun error _ => hE _ _ (Stopped.refl s _)⟩
  intro rows hrows
  rw [hwork rows hrows] at hQ hE
  exact wp_applyPlannedRows coordinate rows hQ hE

/-- A check that ends a query event ignores the event. -/
theorem queryEventPrecheck_eq_some {state : StructuredEventState} {query : QueryEvent}
    {policy : EventPolicy} (h : queryEventPrecheck state query = .ok (some policy)) :
    policy = .ignore := by
  simp only [queryEventPrecheck] at h
  split at h
  · cases h
  · split at h
    · cases h
      rfl
    · split at h
      · cases h
        rfl
      · cases h

/-- Setting the context of a statement performs the context script. -/
theorem wp_applyQueryContext {query : QueryEvent}
    (hcheck : queryEventPrecheck s.state query = .ok none) {Q : Unit → Runtime → Prop}
    (hQ : ∀ s', Performed s (contextScript s.target s.state (.query query)) s' →
      s'.core = s.core → Q () s')
    (hE : ∀ stop s', Stopped s (contextScript s.target s.state (.query query)) s' →
      E stop s') :
    Prog.wp (applyQueryContext world) Q E s := by
  simp only [contextScript, hcheck, beq_self_eq_true, if_true] at hQ hE
  unfold applyQueryContext
  simp only [Prog.wp_bind, Prog.wp_reads]
  split
  · exact hE _ _ (Stopped.refl s _)
  · exact wp_applyIntvars _ hQ hE

/-- Replaying or skipping a statement performs the script of its work. -/
theorem wp_applyQueryStatement (coordinate : BinlogCoordinate) (query : QueryEvent)
    {work : List TargetWork}
    (hwork : work =
      if classifyStatement (normalizeStatement query.sqlStatement.toList) == .replay then
        [.statement coordinate query.sqlStatement]
      else [])
    (hQ : ∀ s', Performed s (workScript s.target work) s' →
      s'.core = { s.core with target := s.target.applyAll work } → Q .commitTransaction s')
    (hE : ∀ stop s', Stopped s (workScript s.target work) s' → E stop s') :
    Prog.wp (applyQueryStatement world coordinate query) Q E s := by
  simp only [applyQueryStatement]
  cases hclass : classifyStatement (normalizeStatement query.sqlStatement.toList) with
  | replay =>
    have hreplay : work = [.statement coordinate query.sqlStatement] := by
      rw [hwork, hclass]
      rfl
    rw [hreplay] at hQ hE
    rw [Prog.wp_bind]
    refine wp_transition ?_ fun stop => hE stop _ (Stopped.refl s _).advance
    exact hQ _ (Performed.single s _ _) rfl
  | skip =>
    have hskip : work = [] := by
      rw [hwork, hclass]
      rfl
    rw [hskip] at hQ
    exact hQ s (Performed.refl rfl rfl) rfl
  | quarantine reason => exact hE _ _ (Stopped.refl s _)

variable {header : EventHeader}

/-- A query event performs its script, and stops only inside it. -/
theorem wp_applyQueryEvent (query : QueryEvent)
    (hQ : ∀ policy s',
      (policy = .commitTransaction ↔ completesTransaction s.state (.query query) = true) →
      Performed s (s.core.handleScript world.codec header (.query query)) s' →
      s'.core = s.core.handled world.codec header (.query query) → Q policy s')
    (hE : ∀ stop s', Stopped s (s.core.handleScript world.codec header (.query query)) s' →
      E stop s') :
    Prog.wp (applyQueryEvent world (s.core.reader.coordinate header (.query query)) query)
      Q E s := by
  unfold applyQueryEvent
  simp only [Prog.wp_bind, Prog.wp_reads]
  cases hcheck : queryEventPrecheck s.state query with
  | error error =>
    simp only [Prog.wp_bind, wp_updateState, wp_stopWith]
    exact hE _ _ (.start (by rfl) (by rfl) _)
  | ok decision =>
    cases decision with
    | some policy =>
      simp only [Prog.wp_bind, wp_updateState, Prog.wp_pure]
      obtain rfl := queryEventPrecheck_eq_some hcheck
      have hwork : s.core.reader.work world.codec header (.query query) = [] := by
        simp [Reader.work, replaysStatement, StreamCore.reader, hcheck]
      have hscript : s.core.handleScript world.codec header (.query query) = [] := by
        simp [StreamCore.handleScript, contextScript, hwork, workScript, hcheck]
      refine hQ _ _ ?_ (hscript ▸ Performed.refl rfl rfl) ?_
      · simp [completesTransaction, hcheck]
      · unfold StreamCore.handled
        rw [hwork]
        rfl
    | none =>
      have hwork : s.core.reader.work world.codec header (.query query) =
          if classifyStatement (normalizeStatement query.sqlStatement.toList) == .replay then
            [.statement (s.core.reader.coordinate header (.query query)) query.sqlStatement]
          else [] := by
        simp [Reader.work, replaysStatement, StreamCore.reader, hcheck]
      simp only [Prog.wp_bind, wp_decided]
      refine ⟨?_, fun error _ => hE _ _ (Stopped.refl s _)⟩
      intro _ _
      refine wp_applyQueryContext hcheck ?_ fun stop s' hs' => hE stop s' (hs'.append _)
      intro s₁ hs₁ hcore
      have htarget : s₁.target = s.target := congrArg StreamCore.target hcore
      rw [Prog.wp_andThen]
      refine wp_applyQueryStatement _ query hwork ?_ ?_
      · intro s' hs' hcore'
        rw [htarget] at hs' hcore'
        have hdone := hs₁.trans hs'
        refine hQ _ _ ?_ ⟨hdone.trace, hdone.durable⟩ ?_
        · simp [completesTransaction, hcheck]
        · have hrest := congrArg (fun c => { c with state := c.state.clearQueryContext }) hcore'
          rw [hcore] at hrest
          exact hrest
      · intro stop s' hs'
        rw [htarget] at hs'
        have hstop := hs₁.stopped hs'
        exact hE _ _ ⟨hstop.trace, hstop.durable⟩

/-- A table map performs nothing on the target; it is recorded or its rows are skipped. -/
theorem wp_applyTableMapEvent (tableMap : SourceTableMap)
    (hQ : ∀ policy s', policy ≠ .commitTransaction → Performed s [] s' →
      s'.core = s.core.handled world.codec header (.tableMap tableMap) → Q policy s')
    (hE : ∀ stop s', Stopped s [] s' → E stop s') :
    Prog.wp (applyTableMapEvent world (s.core.reader.coordinate header (.tableMap tableMap))
      tableMap) Q E s := by
  unfold applyTableMapEvent
  simp only [Prog.wp_bind, Prog.wp_reads]
  simp only [StreamCore.handled, Reader.handled] at hQ
  cases happly : s.state.shouldApplySchema tableMap.databaseName with
  | false =>
    simp only [StreamCore.reader_state, Runtime.core_state, happly] at hQ
    exact hQ _ _ (by decide) (Performed.refl rfl rfl) rfl
  | true =>
    simp only [StreamCore.reader_state, Runtime.core_state, happly, Bool.not_true,
      Bool.false_eq_true, if_false] at hQ
    simp only [Bool.not_true, Bool.false_eq_true, if_false, Prog.wp_bind, wp_updateState,
      wp_decided]
    refine ⟨?_, fun error _ => hE _ _ (.start (by rfl) (by rfl) _)⟩
    intro mapped hmapped
    rw [hmapped] at hQ
    cases mapped with
    | none => exact hQ _ _ (by decide) (Performed.refl rfl rfl) rfl
    | some table => exact hQ _ _ (by decide) (Performed.refl rfl rfl) rfl

namespace Reader

variable {codec : RowCodec} {reader : Reader} {header : EventHeader} {event : BinlogEvent}

/-- Skipped rows are no work. -/
theorem work_of_rowsIgnored (hquery : event.isQuery = false)
    (hignored : rowsIgnored reader.state event = true) : reader.work codec header event = [] := by
  cases event with
  | query query => cases hquery
  | _ =>
    simp only [work, hignored, if_true]

/-- The work of an event with rows are its changes. -/
theorem work_of_planRows (hquery : event.isQuery = false)
    (hignored : rowsIgnored reader.state event = false) (rows : List PlannedRow)
    (hrows : planRows codec reader.registry (reader.coordinate header event) event = .ok rows) :
    reader.work codec header event =
      (rowChanges rows).map (.rowChange (reader.coordinate header event)) := by
  cases event with
  | query query => cases hquery
  | _ =>
    simp only [work, hignored, Bool.false_eq_true, if_false]
    rw [hrows]

/-- Rows without a plan are no work. -/
theorem work_of_planRows_error (hquery : event.isQuery = false) {error : ApplyBinlogError}
    (hrows : planRows codec reader.registry (reader.coordinate header event) event = .error error) :
    reader.work codec header event = [] := by
  cases event with
  | query query => cases hquery
  | _ =>
    simp only [work, hrows]
    exact ite_self _

end Reader

/-- Handling an event performs its script and finds its resume coordinate. -/
theorem wp_handleStructuredEvent {event : BinlogEvent}
    {Q : StructuredEventOutcome → Runtime → Prop}
    (hQ : ∀ policy s',
      (policy = .commitTransaction ↔ completesTransaction s.state event = true) →
      Performed s (s.core.handleScript world.codec header event) s' →
      s'.core = s.core.handled world.codec header event →
      Q ⟨policy, s.core.reader.resume header event⟩ s')
    (hE : ∀ stop s', Stopped s (s.core.handleScript world.codec header event) s' → E stop s') :
    Prog.wp (handleStructuredEvent world header event) Q E s := by
  unfold handleStructuredEvent
  simp only [Prog.wp_bind, Prog.wp_reads, Prog.wp_pure, id]
  -- The handlers of row events differ only in the rows they plan.
  have hrows : ∀ (tableId : Nat) (plan : Except ApplyBinlogError (List PlannedRow)),
      completesTransaction s.state event = false →
      contextScript s.target s.state event = [] →
      event.isQuery = false → rowsIgnored s.core.reader.state event = s.state.isIgnoredTableId tableId →
      planRows world.codec s.core.reader.registry (s.core.reader.coordinate header event) event = plan →
      s.core.reader.handled world.codec header event = s.core.reader →
      Prog.wp (if s.state.isIgnoredTableId tableId then pure .ignore else
        applyRowEvent world (s.core.reader.coordinate header event) plan)
        (fun policy s' => Q ⟨policy, s.core.reader.resume header event⟩ s') E s := by
    intro tableId plan hcompletes hcontext hquery hsame hplanned hreader
    have hhandled : s.core.handled world.codec header event = { s.core with
        target := s.target.applyAll (s.core.reader.work world.codec header event) } := by
      unfold StreamCore.handled
      rw [hreader]
      rfl
    rw [hhandled] at hQ
    unfold StreamCore.handleScript at hQ hE
    rw [Runtime.core_target, Runtime.core_state, hcontext, List.nil_append] at hQ hE
    cases hignored : s.state.isIgnoredTableId tableId with
    | true =>
      rw [Reader.work_of_rowsIgnored hquery (hsame.trans hignored)] at hQ
      rw [if_pos rfl, Prog.wp_pure]
      exact hQ _ _ (by simp [hcompletes]) (Performed.refl rfl rfl) rfl
    | false =>
      rw [if_neg Bool.false_ne_true]
      refine wp_applyRowEvent _ plan ?_ (fun s' => hQ _ s' (by simp [hcompletes])) hE
      intro rows hrows
      exact Reader.work_of_planRows hquery (hsame.trans hignored) rows (hplanned.trans hrows)
  -- The events without work of their own change at most the state of the handlers.
  have hsilent : ∀ policy s', policy ≠ .commitTransaction →
      completesTransaction s.state event = false →
      s.core.handleScript world.codec header event = [] → Performed s [] s' →
      s'.core = s.core.handled world.codec header event →
      Q ⟨policy, s.core.reader.resume header event⟩ s' := by
    intro policy s' hpolicy hcompletes hscript hperformed hcore
    exact hQ policy s' (by simp [hpolicy, hcompletes]) (hscript ▸ hperformed) hcore
  cases event with
  | query query => exact wp_applyQueryEvent query hQ hE
  | tableMap tableMap =>
    refine wp_applyTableMapEvent tableMap ?_ hE
    intro policy s' hpolicy hperformed hcore
    exact hsilent policy s' hpolicy rfl rfl hperformed hcore
  | writeRows rows =>
    exact hrows rows.tableId (planWriteRows world.codec s.registry _ rows) rfl rfl rfl rfl rfl rfl
  | updateRows rows =>
    exact hrows rows.tableId (planUpdateRows world.codec s.registry _ rows) rfl rfl rfl rfl rfl rfl
  | deleteRows rows =>
    exact hrows rows.tableId (planDeleteRows world.codec s.registry _ rows) rfl rfl rfl rfl rfl rfl
  | xid xid => exact hQ _ _ (by simp [completesTransaction]) (Performed.refl rfl rfl) rfl
  | intVar intvarType value =>
    exact hsilent _ _ (by decide) rfl rfl (Performed.refl rfl rfl) rfl
  | userVar name => exact hsilent _ _ (by decide) rfl rfl (Performed.refl rfl rfl) rfl
  | rotate file position => exact hsilent _ _ (by decide) rfl rfl (Performed.refl rfl rfl) rfl
  | _ => exact hsilent _ _ (by decide) rfl rfl (Performed.refl rfl rfl) rfl

end Apply

/-! ## The checkpoint of an event -/

section Save

variable {world : World} {config : StreamConfig} {table name : String}
  {Q : Unit → Runtime → Prop} {E : Stop ApplyBinlogError → Runtime → Prop} {s : Runtime}

/-- Comparing a checkpoint with the known one reads the store at most once. -/
theorem wp_checkpointForSkip {Q : Option Checkpoint → Runtime → Prop}
    (hQ : ∀ s', Performed s
        (if s.lastCheckpoint.isNone then [⟨.loadStore, s.target, s.target⟩] else []) s' →
      s'.core = { s.core with lastCheckpoint := s.core.knownCheckpoint } →
      Q s.core.knownCheckpoint s')
    (hE : ∀ stop s', Stopped s
        (if s.lastCheckpoint.isNone then [⟨.loadStore, s.target, s.target⟩] else []) s' →
      E stop s') :
    Prog.wp (checkpointForSkip world) Q E s := by
  unfold checkpointForSkip
  simp only [Prog.wp_bind, Prog.wp_reads]
  cases hlast : s.lastCheckpoint with
  | some current =>
    have hknown : s.core.knownCheckpoint = some current := by
      simp [StreamCore.knownCheckpoint, hlast]
    rw [hlast] at hQ
    rw [hknown] at hQ
    exact hQ s (Performed.refl rfl rfl) (by rw [← hlast]; rfl)
  | none =>
    have hknown : s.core.knownCheckpoint = s.target.db.checkpoint := by
      simp [StreamCore.knownCheckpoint, hlast]
    rw [hlast] at hQ hE
    rw [hknown] at hQ
    simp only [loadCheckpoint, Prog.wp_bind]
    refine wp_operate ?_ fun stop => hE stop _ (Stopped.refl s _).advance
    intro current target h
    cases h
    have hsingle := Performed.single s .loadStore s.target
    exact hQ _ ⟨hsingle.trace, hsingle.durable⟩ rfl

/-- Storing a checkpoint directly performs its script, and stops only inside it. -/
theorem wp_saveCoordinateCheckpoint (hstore : config.checkpoint.store = true)
    (coordinate : BinlogCoordinate) (eventType : String)
    (hQ : ∀ s', Performed s (s.core.storeScript (coordinateCheckpoint coordinate eventType)) s' →
      s'.core = s.core.stored (coordinateCheckpoint coordinate eventType) → Q () s')
    (hE : ∀ stop s', Stopped s (s.core.storeScript (coordinateCheckpoint coordinate eventType)) s' →
      E stop s') :
    Prog.wp (saveCoordinateCheckpoint world config coordinate eventType) Q E s := by
  unfold saveCoordinateCheckpoint
  generalize coordinateCheckpoint coordinate eventType = checkpoint at hQ hE ⊢
  simp only [hstore, if_true, Prog.wp_bind, shouldSkipCheckpoint]
  by_cases hzero : checkpoint.sourcePosition = 0
  · simp only [StreamCore.storeScript, StreamCore.stored, hzero, if_true] at hQ
    simp only [hzero, if_true, Prog.wp_pure]
    exact hQ s (Performed.refl rfl rfl) rfl
  · simp only [StreamCore.storeScript, StreamCore.stored, hzero, if_false,
      Runtime.core_lastCheckpoint] at hQ hE
    simp only [hzero, if_false, Prog.wp_bind]
    refine wp_checkpointForSkip ?_ fun stop s' hs' => hE stop s' (hs'.append _)
    intro s₁ hs₁ hcore
    have htarget : s₁.target = s.target := congrArg StreamCore.target hcore
    -- The decision is the one that the core makes.
    let decided : Bool → Runtime → Prop := fun skip s' =>
      skip = StreamCore.skipsCheckpoint s.core.knownCheckpoint checkpoint ∧ s' = s₁
    refine Prog.wp_mono (?_ : Prog.wp _ decided _ _) ?_ fun _ _ h => h
    · cases hknown : s.core.knownCheckpoint with
      | none => simp [decided, hknown, StreamCore.skipsCheckpoint, hzero]
      | some current => simp [decided, hknown, StreamCore.skipsCheckpoint, hzero]
    rintro skip s₂ ⟨rfl, rfl⟩
    cases hskip : StreamCore.skipsCheckpoint s.core.knownCheckpoint checkpoint with
    | true =>
      simp only [hskip, if_true, List.append_nil] at hQ
      simp only [if_true, Prog.wp_pure]
      exact hQ _ hs₁ hcore
    | false =>
      simp only [hskip, Bool.false_eq_true, if_false] at hQ hE
      simp only [Bool.false_eq_true, if_false, saveCheckpoint, Prog.wp_bind]
      refine wp_transition ?_ fun stop => hE stop _ (hs₁.stopped (Stopped.refl _ _).advance)
      have hsingle := Performed.single s₂ (.saveStore checkpoint)
        (s₂.target.storeCheckpoint checkpoint)
      rw [htarget] at hsingle
      have hdone := hs₁.trans hsingle
      refine hQ _ ⟨?_, ?_⟩ ?_
      · rw [htarget]
        exact hdone.trace
      · rw [htarget]
        exact hdone.durable
      · have hrest := congrArg (fun c => { c with
          target := s.target.storeCheckpoint checkpoint
          lastCheckpoint := some checkpoint }) hcore
        rw [htarget]
        exact hrest

/-- Saving the checkpoint of an event performs its script, and stops only inside it. -/
theorem wp_saveOutcomeCheckpoint (hmode : config.checkpoint = .targetTable table name)
    (event : BinlogEvent) (outcome : StructuredEventOutcome)
    (hQ : ∀ s', Performed s (s.core.savedScript event outcome.resumeCoordinate) s' →
      s'.core = s.core.saved event outcome.resumeCoordinate → Q () s')
    (hE : ∀ stop s', Stopped s (s.core.savedScript event outcome.resumeCoordinate) s' →
      E stop s') :
    Prog.wp (saveOutcomeCheckpoint world config event outcome) Q E s := by
  unfold saveOutcomeCheckpoint
  cases hresume : outcome.resumeCoordinate with
  | none =>
    rw [hresume] at hQ
    exact hQ s (Performed.refl rfl rfl) rfl
  | some coordinate =>
    rw [hresume] at hQ hE
    simp only [Prog.wp_bind, Prog.wp_reads, hmode, StreamCheckpointContext.targetTable,
      Option.isSome_some, Bool.and_true]
    cases hopen : s.targetTransaction.isOpen with
    | true =>
      simp only [StreamCore.savedScript, StreamCore.saved, Runtime.core_targetTransaction, hopen,
        if_true] at hQ
      exact hQ _ (Performed.refl rfl rfl) rfl
    | false =>
      simp only [StreamCore.savedScript, StreamCore.saved, Runtime.core_targetTransaction, hopen,
        Bool.false_eq_true, if_false] at hQ hE
      simp only [Bool.false_eq_true, if_false, Prog.wp_bind]
      refine wp_saveCoordinateCheckpoint (by rw [hmode]; rfl) coordinate _ ?_ hE
      intro s' hs' hcore
      refine hQ _ ⟨hs'.trace, hs'.durable⟩ ?_
      exact congrArg (fun c => { c with currentFile := coordinate.file }) hcore

end Save

end BinlogCdc
