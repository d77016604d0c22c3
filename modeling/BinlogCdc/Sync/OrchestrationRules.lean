import BinlogCdc.Sync.Orchestration

/-!
# The order of the stages

Every event of a log was allowed by the events before it: the rows are started when the first schema
stage is complete for every table, the last schema stage when the rows of this execution are done,
and a stage is marked complete when its action in this execution returned. A stage that was marked
for some tables only is run again for the others, and a table that the store takes for two is marked
running for both before it is marked complete for both.
-/

namespace BinlogCdc

namespace Orchestration

/-! ## Logs -/

theorem SyncEvent.row?_saved (world : OrchestrationWorld) (stage : SyncStage) (table : Text)
    (row : SyncProgressRow) :
    (SyncEvent.saved row).row? world stage table =
      if row.stage = stage ∧ world.sameName row.tableName table then some row else none := rfl

/-- A stored row is the one of a save. -/
theorem SyncEvent.eq_saved {world : OrchestrationWorld} {stage : SyncStage} {table : Text}
    {event : SyncEvent} {row : SyncProgressRow} (h : event.row? world stage table = some row) :
    event = .saved row := by
  cases event with
  | saved found =>
    rw [SyncEvent.row?_saved] at h
    by_cases hrow : found.stage = stage ∧ world.sameName found.tableName table = true
    · rw [if_pos hrow] at h
      rw [Option.some.inj h]
    · rw [if_neg hrow] at h
      cases h
  | _ => cases h

/-- A save of another stage is no save of a row. -/
theorem SyncEvent.row?_saved_of_ne {world : OrchestrationWorld} {stage : SyncStage} {table : Text}
    {row : SyncProgressRow} (h : row.stage ≠ stage) :
    (SyncEvent.saved row).row? world stage table = none := by
  rw [SyncEvent.row?_saved, if_neg fun hrow => h hrow.1]

section Logs

variable (world : OrchestrationWorld) (tables : List Text)

/-- The events since the last execution began. -/
def currentExecution (log : List SyncEvent) : List SyncEvent := log.takeWhile (· ≠ .began)

/-- The stored row of a stage and a table is complete. -/
def CompleteFor (log : List SyncEvent) (stage : SyncStage) (table : Text) : Prop :=
  ∃ row, storedProgress world log stage table = some row ∧ row.status = .complete

/-- What must have happened before an event. -/
def Allowed : SyncEvent → List SyncEvent → Prop
  | .rowsStarted, log => ∀ table ∈ tables, CompleteFor world log .prerequisiteSchema table
  | .schemaStarted .finalConstraints, log => .rowsDone ∈ currentExecution log
  | .saved row, log =>
    row.stage ≠ .rows → row.status = .complete → .schemaDone row.stage ∈ currentExecution log
  | _, _ => True

/-- Every event was allowed by those before it. -/
def Sound : List SyncEvent → Prop
  | [] => True
  | event :: log => Allowed world tables event log ∧ Sound log

variable {world tables} {log events : List SyncEvent} {stage : SyncStage} {table : Text}

theorem Allowed.sound {event : SyncEvent} (h : Allowed world tables event log)
    (hlog : Sound world tables log) : Sound world tables (event :: log) := ⟨h, hlog⟩

/-- The current execution goes on with an event that begins no other one. -/
theorem currentExecution_cons {event : SyncEvent} (h : event ≠ .began) :
    currentExecution (event :: log) = event :: currentExecution log := by
  unfold currentExecution
  rw [List.takeWhile_cons_of_pos (by simpa using h)]

theorem mem_currentExecution_cons {event : SyncEvent} (h : event ≠ .began) :
    event ∈ currentExecution (event :: log) := by
  rw [currentExecution_cons h]
  apply List.mem_cons_self

/-- What happened in the current execution stays there until the next one begins. -/
theorem mem_currentExecution_append {event : SyncEvent} (hevents : .began ∉ events)
    (h : event ∈ currentExecution log) : event ∈ currentExecution (events ++ log) := by
  induction events with
  | nil => exact h
  | cons first events ih =>
    rw [List.mem_cons, not_or] at hevents
    rw [List.cons_append, currentExecution_cons (Ne.symm hevents.1)]
    apply List.mem_cons_of_mem
    exact ih hevents.2

theorem mem_currentExecution_saved {event : SyncEvent} {row : SyncProgressRow}
    (h : event ∈ currentExecution log) : event ∈ currentExecution (.saved row :: log) := by
  rw [currentExecution_cons (by simp)]
  apply List.mem_cons_of_mem
  exact h

/-- The last save of a row decides its status. -/
theorem completeFor_iff :
    CompleteFor world log stage table ↔
      ∃ row, (log.filterMap (SyncEvent.row? world stage table)).head? = some row ∧
        row.status = .complete := by
  unfold CompleteFor storedProgress
  dsimp only
  constructor
  · rintro ⟨stored, hstored, hstatus⟩
    obtain ⟨row, hrow, rfl⟩ := Option.map_eq_some_iff.mp hstored
    exact ⟨row, hrow, hstatus⟩
  · rintro ⟨row, hrow, hstatus⟩
    exact ⟨_, Option.map_eq_some_iff.mpr ⟨row, hrow, rfl⟩, hstatus⟩

/-- Events that save nothing of a row leave it as it is. -/
theorem storedProgress_append
    (h : ∀ event ∈ events, SyncEvent.row? world stage table event = none) :
    storedProgress world (events ++ log) stage table = storedProgress world log stage table := by
  have hnone : events.filterMap (SyncEvent.row? world stage table) = [] :=
    List.filterMap_eq_nil_iff.mpr h
  unfold storedProgress
  rw [List.filterMap_append, hnone, List.nil_append]

/-- An action saves nothing. -/
theorem storedProgress_action (acted : SyncStage) :
    storedProgress world (.schemaDone acted :: .schemaStarted acted :: log) stage table =
      storedProgress world log stage table := rfl

/-- A row is complete if its last saves are, or if there are none and it was complete before. -/
theorem CompleteFor.append
    (hcomplete : ∀ row, .saved row ∈ events → row.status = .complete)
    (hsaved : CompleteFor world log stage table ∨
      ∃ event ∈ events, SyncEvent.row? world stage table event ≠ none) :
    CompleteFor world (events ++ log) stage table := by
  by_cases hnone : ∀ event ∈ events, SyncEvent.row? world stage table event = none
  · rcases hsaved with hbefore | ⟨event, hmem, hrow⟩
    · unfold CompleteFor
      rw [storedProgress_append hnone]
      exact hbefore
    · exact absurd (hnone event hmem) hrow
  · rw [completeFor_iff, List.filterMap_append]
    cases hrows : events.filterMap (SyncEvent.row? world stage table) with
    | nil => exact absurd (List.filterMap_eq_nil_iff.mp hrows) hnone
    | cons row rows =>
      refine ⟨row, rfl, ?_⟩
      have hmem : row ∈ events.filterMap (SyncEvent.row? world stage table) := by
        rw [hrows]
        apply List.mem_cons_self
      obtain ⟨event, hevent, hrow⟩ := List.mem_filterMap.mp hmem
      exact hcomplete row (SyncEvent.eq_saved hrow ▸ hevent)

end Logs

/-! ## Operations -/

section Operations

variable {world : OrchestrationWorld} {runId : Text} {tables : List Text} {stage : SyncStage}
  {s : OrchestrationRuntime}

theorem wp_loadStage (table : Text) :
    Prog.wp (loadStage world stage table)
      (fun row s' => row = storedProgress world s.log stage table ∧ s'.log = s.log)
      (fun _ s' => s'.log = s.log) s := by
  unfold loadStage Prog.wp
  dsimp only
  cases world.store s.tick with
  | done => exact ⟨rfl, rfl⟩
  | _ => rfl

theorem wp_saveStage (row : SyncProgressRow) :
    Prog.wp (saveStage world row) (fun _ s' => s'.log = .saved row :: s.log)
      (fun _ s' => s'.log = s.log ∨ s'.log = .saved row :: s.log) s := by
  unfold saveStage Prog.wp
  dsimp only
  cases world.store s.tick with
  | done => rfl
  | refused message => exact .inl rfl
  | lost message => exact .inr rfl
  | crashed applied =>
    cases applied with
    | true => exact .inr rfl
    | false => exact .inl rfl

theorem wp_runSchemaStage :
    Prog.wp (runSchemaStage world stage)
      (fun _ s' => s'.log = .schemaDone stage :: .schemaStarted stage :: s.log)
      (fun _ s' => s'.log = .schemaStarted stage :: s.log) s := by
  unfold runSchemaStage Prog.wp
  dsimp only
  cases world.action s.tick <;> rfl

/-- The row stage saves rows of its own only. -/
theorem wp_runRows :
    Prog.wp (runRows world)
      (fun _ s' => ∃ saves : List SyncProgressRow, (∀ row ∈ saves, row.stage = .rows) ∧
        s'.log = .rowsDone :: (saves.map SyncEvent.saved ++ .rowsStarted :: s.log))
      (fun _ s' => ∃ saves : List SyncProgressRow, (∀ row ∈ saves, row.stage = .rows) ∧
        s'.log = saves.map SyncEvent.saved ++ .rowsStarted :: s.log) s := by
  have hstage : ∀ row ∈ (world.rowSaves s.tick).filter (·.stage = .rows), row.stage = .rows :=
    fun row hrow => of_decide_eq_true (List.mem_filter.mp hrow).2
  unfold runRows Prog.wp
  dsimp only
  cases world.action s.tick <;> exact ⟨_, hstage, rfl⟩

/-- A check leaves the state as it is. -/
theorem wp_checked (result : Except String Unit) :
    Prog.wp (checked result) (fun _ s' => s' = s) (fun _ s' => s' = s) s := by
  cases result <;> rfl

/-- An error with another text leaves the state as it is. -/
theorem wp_mapError_text {α : Type} {c : Orchestrated α} {text : String → String}
    {Q : α → OrchestrationRuntime → Prop} {R : OrchestrationRuntime → Prop}
    (h : Prog.wp c Q (fun _ => R) s) : Prog.wp (mapError c text) Q (fun _ => R) s := by
  unfold mapError
  rw [Prog.wp_onError]
  apply Prog.wp_mono h (fun _ _ ha => ha)
  intro e s' he
  cases e <;> exact he

/-- An error that is returned as a value. -/
theorem wp_attempt {α : Type} {c : Orchestrated α} {Q : Except String α → OrchestrationRuntime → Prop}
    {R : OrchestrationRuntime → Prop}
    (h : Prog.wp c (fun a => Q (.ok a)) (fun e s' => match e with
      | .error message => Q (.error message) s'
      | .crash => R s') s) : Prog.wp (attempt c) Q (fun _ => R) s := by
  unfold Prog.wp at h ⊢
  unfold attempt
  cases hc : c s with
  | mk r s' =>
    rw [hc] at h
    dsimp only at h ⊢
    cases r with
    | ok a => exact h
    | error e => cases e <;> exact h

end Operations

/-! ## The stages -/

section Stages

variable {world : OrchestrationWorld} {runId : Text} {tables : List Text} {stage : SyncStage}
  {s : OrchestrationRuntime}

/-- A row is loaded as it is stored. -/
theorem wp_loadTableProgress (table : Text) :
    Prog.wp (loadTableProgress world runId stage table)
      (fun row s' => row = storedProgress world s.log stage table ∧ s'.log = s.log)
      (fun _ s' => s'.log = s.log) s := by
  unfold loadTableProgress
  rw [Prog.wp_bind]
  refine Prog.wp_mono (wp_mapError_text (wp_loadStage table)) ?_ (fun _ _ h => h)
  rintro row s' ⟨hrow, hlog⟩
  cases row with
  | none => exact ⟨hrow, hlog⟩
  | some found =>
    dsimp only
    rw [Prog.wp_bind]
    refine Prog.wp_mono (wp_checked _) ?_ ?_
    · rintro _ s'' rfl
      exact ⟨hrow, hlog⟩
    · rintro _ s'' rfl
      exact hlog

/-- The rows of the tables are loaded as they are stored. -/
theorem wp_loadStageProgress (loaded : List Text) :
    Prog.wp (loadStageProgress world runId stage loaded)
      (fun rows s' => rows = loaded.map (storedProgress world s.log stage) ∧ s'.log = s.log)
      (fun _ s' => s'.log = s.log) s := by
  induction loaded generalizing s with
  | nil => exact ⟨rfl, rfl⟩
  | cons table loaded ih =>
    rw [loadStageProgress, Prog.wp_bind]
    refine Prog.wp_mono (wp_loadTableProgress table) ?_ (fun _ _ h => h)
    rintro row s' ⟨rfl, hlog⟩
    rw [Prog.wp_bind]
    rw [← hlog]
    refine Prog.wp_mono ih ?_ (fun _ _ h => h)
    rintro rows s'' ⟨rfl, hlog'⟩
    exact ⟨rfl, hlog'⟩

/-- A table is run again unless its row is complete. -/
theorem incompleteStageTables_map (row : Text → Option SyncProgressRow) :
    incompleteStageTables tables (tables.map row) =
      tables.filter fun table => !(row table).any fun found => found.status == .complete := by
  unfold incompleteStageTables
  induction tables with
  | nil => rfl
  | cons table tables ih =>
    rw [List.map_cons, List.zip_cons_cons, List.filter_cons, List.filter_cons]
    split_ifs with h
    · rw [List.map_cons, ih]
    · exact ih

/-- The condition for saving rows of a stage with a status. -/
structure MaySave (world : OrchestrationWorld) (tables : List Text) (stage : SyncStage)
    (status : SyncProgressStatus) (log : List SyncEvent) : Prop where
  sound : Sound world tables log
  done : status = .complete → .schemaDone stage ∈ currentExecution log

theorem MaySave.saved {status : SyncProgressStatus} {log : List SyncEvent}
    (h : MaySave world tables stage status log) (lastError : Option String) (table : Text) :
    MaySave world tables stage status
      (.saved (stageProgressRow runId stage table status lastError) :: log) where
  sound := Allowed.sound (fun _ => h.done) h.sound
  done := fun hstatus => mem_currentExecution_saved (h.done hstatus)

/-- The save of the row of a table. -/
def savedStatus (runId : Text) (stage : SyncStage) (status : SyncProgressStatus) (table : Text) :
    SyncEvent := .saved (stageProgressRow runId stage table status none)

theorem row?_savedStatus (other : SyncStage) (name table : Text) (status : SyncProgressStatus) :
    SyncEvent.row? world other table (savedStatus runId stage status name) =
      if stage = other ∧ world.sameName name table then
        some (stageProgressRow runId stage name status none)
      else none := rfl

/-- A save of another stage, or under a name that the store tells apart, is no save of a row. -/
theorem row?_savedStatus_eq_none {other : SyncStage} {table : Text} {status : SyncProgressStatus}
    {names : List Text} (h : stage ≠ other ∨ ∀ name ∈ names, world.sameName name table = false) :
    ∀ event ∈ (names.map (savedStatus runId stage status)).reverse,
      SyncEvent.row? world other table event = none := by
  intro event hevent
  obtain ⟨name, hname, rfl⟩ := List.mem_map.mp (List.mem_reverse.mp hevent)
  rw [row?_savedStatus, if_neg]
  rintro ⟨hstage, hsame⟩
  rcases h with hne | hnames
  · exact hne hstage
  · rw [hnames name hname] at hsame
    cases hsame

theorem wp_saveStageStatuses {status : SyncProgressStatus} (saved : List Text)
    (h : MaySave world tables stage status s.log) :
    Prog.wp (saveStageStatuses world runId stage saved status)
      (fun _ s' => s'.log = (saved.map (savedStatus runId stage status)).reverse ++ s.log ∧
        MaySave world tables stage status s'.log)
      (fun _ s' => Sound world tables s'.log) s := by
  unfold saveStageStatuses
  refine Prog.wp_forEach (fun done (s' : OrchestrationRuntime) =>
    s'.log = (done.map (savedStatus runId stage status)).reverse ++ s.log ∧
      MaySave world tables stage status s'.log) saved _ ?_ ⟨rfl, h⟩
  intro done table rest s' _ hdone
  obtain ⟨hlog, hmay⟩ := hdone
  unfold saveStageProgress
  apply wp_mapError_text
  refine Prog.wp_mono (wp_saveStage _) ?_ ?_
  · intro _ s'' hsaved
    refine ⟨?_, hsaved ▸ hmay.saved none table⟩
    rw [hsaved, hlog, List.map_append, List.reverse_append]
    rfl
  · rintro _ s'' (hkept | hsaved)
    · exact hkept ▸ hmay.sound
    · exact hsaved ▸ (hmay.saved none table).sound

/-- An error may be saved at any time. -/
theorem wp_saveStageErrors (primaryError : String) (failed : List Text)
    (h : Sound world tables s.log) :
    Prog.wp (saveStageErrors world runId stage primaryError failed)
      (fun _ s' => Sound world tables s'.log) (fun _ s' => Sound world tables s'.log) s := by
  induction failed generalizing s with
  | nil => exact h
  | cons table failed ih =>
    have hsaved : Sound world tables
        (.saved (stageProgressRow runId stage table .error (some primaryError)) :: s.log) :=
      Allowed.sound (fun _ hstatus => nomatch hstatus) h
    rw [saveStageErrors, Prog.wp_bind]
    apply wp_attempt
    refine Prog.wp_mono (wp_saveStage _) ?_ ?_
    · intro _ s' hlog
      rw [Prog.wp_bind]
      exact Prog.wp_mono (ih (hlog ▸ hsaved)) (fun _ _ h => h) (fun _ _ h => h)
    · intro e s' hlog
      have hsound : Sound world tables s'.log := by
        rcases hlog with hkept | hlost
        · exact hkept ▸ h
        · exact hlost ▸ hsaved
      cases e with
      | crash => exact hsound
      | error message =>
        dsimp only
        rw [Prog.wp_bind]
        exact Prog.wp_mono (ih hsound) (fun _ _ h => h) (fun _ _ h => h)

/-- After an error of its action a stage stops. -/
theorem wp_persistSchemaStageError (primaryError : String) (failed : List Text)
    (h : Sound world tables s.log) :
    Prog.wp (persistSchemaStageError world runId stage failed primaryError) (fun _ _ => False)
      (fun _ s' => Sound world tables s'.log) s := by
  unfold persistSchemaStageError
  rw [Prog.wp_bind]
  refine Prog.wp_mono (wp_saveStageErrors primaryError failed h) ?_ (fun _ _ h => h)
  intro errors s' hsound
  by_cases hempty : errors.isEmpty
  · rw [if_pos hempty]
    exact hsound
  · rw [if_neg hempty]
    exact hsound

/-- What a stage leaves when it returns: its rows are complete, those of the other stages as they
were. -/
structure StageComplete (world : OrchestrationWorld) (tables : List Text) (stage : SyncStage)
    (before after : List SyncEvent) : Prop where
  sound : Sound world tables after
  complete : ∀ table ∈ tables, CompleteFor world after stage table
  others : ∀ other ≠ stage, ∀ table,
    storedProgress world after other table = storedProgress world before other table

/-- The events of a stage that ran for some tables. -/
theorem stageComplete_of_saves {before after : List SyncEvent} {incomplete : List Text}
    (hsound : Sound world tables after)
    (hafter : after = (incomplete.map (savedStatus runId stage .complete)).reverse ++
      .schemaDone stage :: .schemaStarted stage ::
        ((incomplete.map (savedStatus runId stage .running)).reverse ++ before))
    (hrest : ∀ table ∈ tables, table ∉ incomplete → CompleteFor world before stage table) :
    StageComplete world tables stage before after := by
  subst hafter
  refine ⟨hsound, ?_, ?_⟩
  · intro table htable
    by_cases hsaved : ∀ name ∈ incomplete, world.sameName name table = false
    · -- No row of this table was saved, so it was complete before.
      have hnot : table ∉ incomplete := by
        intro hmem
        have hsame := hsaved table hmem
        rw [world.sameName_refl] at hsame
        cases hsame
      unfold CompleteFor
      rw [storedProgress_append (row?_savedStatus_eq_none (.inr hsaved)),
        storedProgress_action,
        storedProgress_append (row?_savedStatus_eq_none (.inr hsaved))]
      exact hrest table htable hnot
    · -- The last save of its row is one of those after the action.
      rw [not_forall] at hsaved
      obtain ⟨name, hname⟩ := hsaved
      rw [Classical.not_imp, Bool.not_eq_false] at hname
      obtain ⟨hmem, hsame⟩ := hname
      refine CompleteFor.append ?_ (.inr ⟨savedStatus runId stage .complete name, ?_, ?_⟩)
      · intro row hrow
        obtain ⟨_, _, heq⟩ := List.mem_map.mp (List.mem_reverse.mp hrow)
        obtain rfl := SyncEvent.saved.inj heq
        rfl
      · exact List.mem_reverse.mpr (List.mem_map_of_mem hmem)
      · rw [row?_savedStatus, if_pos ⟨rfl, hsame⟩]
        simp
  · intro other hother table
    rw [storedProgress_append (row?_savedStatus_eq_none (.inl (Ne.symm hother))),
      storedProgress_action,
      storedProgress_append (row?_savedStatus_eq_none (.inl (Ne.symm hother)))]

/-- A schema stage that returns is complete for every table. -/
theorem wp_runDurableSchemaStage (h : Sound world tables s.log)
    (hrows : stage = .finalConstraints → .rowsDone ∈ currentExecution s.log) :
    Prog.wp (runDurableSchemaStage world runId stage tables)
      (fun _ s' => StageComplete world tables stage s.log s'.log)
      (fun _ s' => Sound world tables s'.log) s := by
  unfold runDurableSchemaStage
  rw [Prog.wp_bind]
  refine Prog.wp_mono (wp_loadStageProgress tables) ?_ (fun _ s' hlog => hlog ▸ h)
  rintro rows s₁ ⟨rfl, hloaded⟩
  rw [incompleteStageTables_map]
  generalize hincomplete : (tables.filter fun table =>
    !(storedProgress world s.log stage table).any fun found => found.status == .complete) =
      incomplete
  have hrest : ∀ table ∈ tables, table ∉ incomplete → CompleteFor world s.log stage table := by
    intro table htable hnot
    rw [← hincomplete, List.mem_filter] at hnot
    simpa [htable, CompleteFor, Option.any_eq_true] using hnot
  by_cases hempty : incomplete.isEmpty
  · rw [if_pos hempty]
    rw [List.isEmpty_iff.mp hempty] at hrest
    exact ⟨hloaded ▸ h, fun table htable => hloaded ▸ hrest table htable (by simp),
      fun _ _ _ => by rw [hloaded]⟩
  · rw [if_neg hempty, Prog.wp_bind]
    have hrunning : MaySave world tables stage .running s₁.log := ⟨hloaded ▸ h, by simp⟩
    refine Prog.wp_mono (wp_saveStageStatuses incomplete hrunning) ?_ (fun _ _ h => h)
    rintro _ s₂ ⟨hsaved, hmay⟩
    -- The action may start here: for the last stage, the rows are done in this execution.
    have hstarted : Sound world tables (.schemaStarted stage :: s₂.log) := by
      refine Allowed.sound ?_ hmay.sound
      cases stage with
      | finalConstraints =>
        rw [hsaved, hloaded]
        refine mem_currentExecution_append ?_ (hrows rfl)
        simp [savedStatus]
      | _ => trivial
    rw [Prog.wp_bind]
    apply wp_attempt
    refine Prog.wp_mono wp_runSchemaStage ?_ ?_
    · intro _ s₃ hdone
      have hcomplete : MaySave world tables stage .complete s₃.log := by
        rw [hdone]
        refine ⟨Allowed.sound (by trivial) hstarted, fun _ => ?_⟩
        exact mem_currentExecution_cons (by simp)
      refine Prog.wp_mono (wp_saveStageStatuses incomplete hcomplete) ?_ (fun _ _ h => h)
      rintro _ s₄ ⟨hlog, hlast⟩
      rw [hdone, hsaved, hloaded] at hlog
      exact stageComplete_of_saves hlast.sound hlog hrest
    · intro e s₃ hfailed
      cases e with
      | crash => exact hfailed ▸ hstarted
      | error message =>
        refine Prog.wp_mono (wp_persistSchemaStageError message incomplete (hfailed ▸ hstarted)) ?_
          (fun _ _ h => h)
        intro _ _ hfalse
        exact hfalse.elim

end Stages

/-! ## Executions -/

section Executions

variable {world : OrchestrationWorld} {runId : Text} {tables : List Text} {s : OrchestrationRuntime}

/-- Saves of rows of the row stage are allowed at any time. -/
theorem sound_rowSaves {saves : List SyncProgressRow} {log : List SyncEvent}
    (hsaves : ∀ row ∈ saves, row.stage = .rows) (h : Sound world tables log) :
    Sound world tables (saves.map SyncEvent.saved ++ log) := by
  induction saves with
  | nil => exact h
  | cons row saves ih =>
    rw [List.forall_mem_cons] at hsaves
    obtain ⟨hrow, hsaves⟩ := hsaves
    exact Allowed.sound (fun hne => absurd hrow hne) (ih hsaves)

/-- Saves of rows of the row stage leave the rows of the schema stages as they are. -/
theorem storedProgress_rowSaves {saves : List SyncProgressRow} {log : List SyncEvent}
    {stage : SyncStage} (hsaves : ∀ row ∈ saves, row.stage = .rows) (hstage : stage ≠ .rows)
    (table : Text) :
    storedProgress world (saves.map SyncEvent.saved ++ log) stage table =
      storedProgress world log stage table := by
  apply storedProgress_append
  intro event hevent
  obtain ⟨row, hrow, rfl⟩ := List.mem_map.mp hevent
  apply SyncEvent.row?_saved_of_ne
  rw [hsaves row hrow]
  exact Ne.symm hstage

/-- Both schema stages are complete for every table. -/
def SchemaComplete (world : OrchestrationWorld) (tables : List Text) (log : List SyncEvent) : Prop :=
  ∀ table ∈ tables, CompleteFor world log .prerequisiteSchema table ∧
    CompleteFor world log .finalConstraints table

/-- One execution keeps the order of the stages, and completes both schema stages if it returns. -/
theorem wp_runSyncOrchestration (h : Sound world tables s.log) :
    Prog.wp (runSyncOrchestration world runId tables)
      (fun _ s' => Sound world tables s'.log ∧ SchemaComplete world tables s'.log)
      (fun _ s' => Sound world tables s'.log) s := by
  unfold runSyncOrchestration
  rw [Prog.wp_bind]
  refine Prog.wp_mono (wp_runDurableSchemaStage h nofun) ?_ (fun _ _ h => h)
  intro _ s₁ hschema
  have hstarted : Sound world tables (.rowsStarted :: s₁.log) :=
    Allowed.sound hschema.complete hschema.sound
  rw [Prog.wp_bind]
  refine Prog.wp_mono wp_runRows ?_ ?_
  · rintro rows s₂ ⟨saves, hsaves, hlog⟩
    have hdone : Sound world tables s₂.log := by
      rw [hlog]
      exact Allowed.sound trivial (sound_rowSaves hsaves hstarted)
    have hkept : ∀ table, storedProgress world s₂.log .prerequisiteSchema table =
        storedProgress world s₁.log .prerequisiteSchema table := by
      intro table
      have hne : SyncStage.prerequisiteSchema ≠ .rows := nofun
      rw [hlog]
      exact storedProgress_rowSaves hsaves hne table
    rw [Prog.wp_bind]
    refine Prog.wp_mono (wp_runDurableSchemaStage hdone ?_) ?_ (fun _ _ h => h)
    · intro _
      rw [hlog]
      exact mem_currentExecution_cons nofun
    · intro _ s₃ hfinal
      refine ⟨hfinal.sound, fun table htable => ⟨?_, hfinal.complete table htable⟩⟩
      unfold CompleteFor
      rw [hfinal.others .prerequisiteSchema nofun, hkept]
      exact hschema.complete table htable
  · rintro _ s₂ ⟨saves, hsaves, hlog⟩
    rw [hlog]
    exact sound_rowSaves hsaves hstarted

/-- An execution begins at any time. -/
theorem sound_began {log : List SyncEvent} (h : Sound world tables log) :
    Sound world tables (.began :: log) := Allowed.sound trivial h

/-- Every execution keeps the order of the stages. -/
theorem sound_executions (count : Nat) :
    Sound world tables (executions world runId tables count).log := by
  induction count with
  | zero => trivial
  | succ count ih =>
    exact Prog.wp_final (Prog.wp_mono (wp_runSyncOrchestration (sound_began ih))
      (fun _ _ h => h.1) (fun _ _ h => h))

/-- In every sequence of executions, whatever fails or stops, the rows are started only when the
first schema stage is complete for every table, the last schema stage only when the rows of the same
execution are done, and a stage is marked complete only when its action in the same execution
returned without an error. An execution that returns leaves both schema stages complete for every
table. -/
theorem executions_ordered (world : OrchestrationWorld) (runId : Text) (tables : List Text)
    (count : Nat) :
    Sound world tables (executions world runId tables count).log ∧
      ∀ rows s, execute world runId tables (executions world runId tables count) = (.ok rows, s) →
        SchemaComplete world tables s.log := by
  refine ⟨sound_executions count, ?_⟩
  intro rows s hreturned
  exact (Prog.wp_value (wp_runSyncOrchestration (sound_began (sound_executions count)))
    hreturned).2

/-- The process dies after the first schema stage was marked complete for one of two tables; the
next execution is left alone. -/
def interruptedWorld : OrchestrationWorld where
  store := fun tick => if tick = 6 then .crashed false else .done
  action := fun _ => .done
  rowSaves := fun _ => []
  rowResult := fun _ => []
  sameName := fun name other => name == other
  sameName_refl := fun name => beq_self_eq_true name

/-- The second execution runs the stage again for the table that was left running, and returns with
both stages complete. -/
theorem executions_ordered_interrupted :
    storedProgress interruptedWorld
        (executions interruptedWorld ['r'] [['a'], ['b']] 1).log .prerequisiteSchema ['b'] =
      some (stageProgressRow ['r'] .prerequisiteSchema ['b'] .running none) ∧
    SchemaComplete interruptedWorld [['a'], ['b']]
      (executions interruptedWorld ['r'] [['a'], ['b']] 2).log := by
  refine ⟨by decide +kernel, ?_⟩
  apply (executions_ordered interruptedWorld ['r'] [['a'], ['b']] 1).2 []
  decide +kernel

end Executions

end Orchestration

end BinlogCdc
