import BinlogCdc.Core.Program
import BinlogCdc.Sync.Model
import BinlogCdc.Sync.ProgressRow

/-!
# The stages of a sync

A sync brings the schema of the target up to what the rows need, copies the rows, and adds the
final constraints. The two schema stages keep one durable row for each table and are skipped for
the tables whose row is complete. Every operation may fail, may take effect without an answer,
or may be the last one of the process; the next execution starts from the rows that are stored.
-/

namespace BinlogCdc

namespace Orchestration

/-! ## The world and the log -/

/-- What becomes of an operation of the progress store. -/
inductive StoreOutcome where
  /-- The operation takes effect. -/
  | done
  /-- The operation fails without an effect. -/
  | refused (message : String)
  /-- The operation takes effect, but an error is reported. -/
  | lost (message : String)
  /-- The process dies, before or after the operation takes effect. -/
  | crashed (applied : Bool)
  deriving DecidableEq, Repr

/-- What happened so far. -/
inductive SyncEvent where
  /-- An execution began. -/
  | began
  /-- A progress row was stored. -/
  | saved (row : SyncProgressRow)
  /-- The action of a schema stage was started. -/
  | schemaStarted (stage : SyncStage)
  /-- The action of a schema stage returned without an error. -/
  | schemaDone (stage : SyncStage)
  /-- The row stage was started. -/
  | rowsStarted
  /-- The row stage returned without an error. -/
  | rowsDone
  deriving DecidableEq, Repr

/-- The state of all executions: the log has the newest event first, and the stored rows are those
that it tells of. -/
structure OrchestrationRuntime where
  /-- The operations so far. -/
  tick : Nat
  /-- What happened, the newest event first. -/
  log : List SyncEvent
  deriving DecidableEq, Repr

/-- The executor and the progress store; an operation is known by its tick. -/
structure OrchestrationWorld where
  /-- What becomes of a load or a save. -/
  store : Nat → StoreOutcome
  /-- What becomes of an action of the executor. -/
  action : Nat → Outcome
  /-- The progress rows that the row stage stores. -/
  rowSaves : Nat → List SyncProgressRow
  /-- The result of the row stage. -/
  rowResult : Nat → List SyncChunkProgress
  /-- The store takes two table names for one. -/
  sameName : Text → Text → Bool
  /-- A name is one with itself. -/
  sameName_refl : ∀ name, sameName name name = true

/-- A program of the orchestration. -/
abbrev Orchestrated (α : Type) : Type := Prog OrchestrationRuntime (Stop String) α

/-- The stored row that an event tells of, if it is of a stage and a table. -/
def SyncEvent.row? (world : OrchestrationWorld) (stage : SyncStage) (table : Text) :
    SyncEvent → Option SyncProgressRow
  | .saved row => if row.stage = stage ∧ world.sameName row.tableName table then some row else none
  | _ => none

/-- The progress row of a stage and a table: the last one saved, under the name that was saved
first. -/
def storedProgress (world : OrchestrationWorld) (log : List SyncEvent) (stage : SyncStage)
    (table : Text) : Option SyncProgressRow :=
  let saves := log.filterMap (SyncEvent.row? world stage table)
  saves.head?.map fun row => { row with tableName := (saves.getLast?.getD row).tableName }

section Operations

variable (world : OrchestrationWorld)

/-- Load the row of a stage and a table. -/
def loadStage (stage : SyncStage) (table : Text) : Orchestrated (Option SyncProgressRow) := fun s =>
  let next := { s with tick := s.tick + 1 }
  match world.store s.tick with
  | .done => (.ok (storedProgress world s.log stage table), next)
  | .refused message => (.error (.error message), next)
  | .lost message => (.error (.error message), next)
  | .crashed _ => (.error .crash, next)

/-- Save a row. -/
def saveStage (row : SyncProgressRow) : Orchestrated Unit := fun s =>
  let refused := { s with tick := s.tick + 1 }
  let saved := { s with tick := s.tick + 1, log := .saved row :: s.log }
  match world.store s.tick with
  | .done => (.ok (), saved)
  | .refused message => (.error (.error message), refused)
  | .lost message => (.error (.error message), saved)
  | .crashed applied => (.error .crash, if applied then saved else refused)

/-- The action of a schema stage. -/
def runSchemaStage (stage : SyncStage) : Orchestrated Unit := fun s =>
  let started := { s with tick := s.tick + 1, log := .schemaStarted stage :: s.log }
  match world.action s.tick with
  | .done => (.ok (), { started with log := .schemaDone stage :: started.log })
  | .refused message => (.error (.error message), started)
  | .crashed => (.error .crash, started)

/-- The row stage; it may store progress rows of its own. -/
def runRows : Orchestrated (List SyncChunkProgress) := fun s =>
  let saves := ((world.rowSaves s.tick).filter fun row => row.stage = .rows).map SyncEvent.saved
  let started := { s with tick := s.tick + 1, log := saves ++ .rowsStarted :: s.log }
  match world.action s.tick with
  | .done => (.ok (world.rowResult s.tick), { started with log := .rowsDone :: started.log })
  | .refused message => (.error (.error message), started)
  | .crashed => (.error .crash, started)

end Operations

/-- Add to the text of an error. -/
def mapError {α : Type} (c : Orchestrated α) (text : String → String) : Orchestrated α :=
  Prog.onError c fun message => Prog.fail (.error (text message))

/-- The result of a program that returned. -/
def attempt {α : Type} (c : Orchestrated α) : Orchestrated (Except String α) := fun s =>
  match c s with
  | (.ok a, s') => (.ok (.ok a), s')
  | (.error (.error message), s') => (.ok (.error message), s')
  | (.error .crash, s') => (.error .crash, s')

/-- Stop at an error found by a check. -/
def checked (result : Except String Unit) : Orchestrated Unit :=
  match result with
  | .ok () => pure ()
  | .error message => Prog.fail (.error message)

/-! ## The stages -/

/-- A progress row of a schema stage. -/
def stageProgressRow (runId : Text) (stage : SyncStage) (table : Text)
    (status : SyncProgressStatus) (lastError : Option String) : SyncProgressRow where
  runId := runId
  stage := stage
  tableName := table
  lastPrimaryKey := none
  counters := ⟨0, 0, 0, 0, 0⟩
  status := status
  lastError := lastError.map String.toList
  createdAt := []
  updatedAt := []
  completedAt := none

/-- A loaded row must be of its run, stage and table. -/
def validateStageProgress (runId : Text) (stage : SyncStage) (table : Text)
    (progress : SyncProgressRow) : Except String Unit :=
  let stageText := String.ofList stage.asStr
  if progress.runId ≠ runId then
    .error ("sync " ++ stageText ++ " progress run id mismatch for table `" ++
      String.ofList table ++ "`: expected `" ++ String.ofList runId ++ "`, found `" ++
      String.ofList progress.runId ++ "`")
  else if progress.stage ≠ stage then
    .error ("sync " ++ stageText ++ " progress stage mismatch for table `" ++
      String.ofList table ++ "`: found `" ++ String.ofList progress.stage.asStr ++ "`")
  else if progress.tableName ≠ table then
    .error ("sync " ++ stageText ++ " progress table mismatch: expected `" ++
      String.ofList table ++ "`, found `" ++ String.ofList progress.tableName ++ "`")
  else .ok ()

/-- The tables whose row is not complete. -/
def incompleteStageTables (tables : List Text) (existing : List (Option SyncProgressRow)) :
    List Text :=
  ((tables.zip existing).filter fun entry =>
    !(entry.2.any fun row => row.status == .complete)).map Prod.fst

section Stages

variable (world : OrchestrationWorld) (runId : Text) (stage : SyncStage)

/-- The row of a table, checked. -/
def loadTableProgress (table : Text) : Orchestrated (Option SyncProgressRow) := do
  let row ← mapError (loadStage world stage table) fun error =>
    "load sync " ++ String.ofList stage.asStr ++ " progress for table `" ++
      String.ofList table ++ "`: " ++ error
  match row with
  | none => pure row
  | some found =>
    checked (validateStageProgress runId stage table found)
    pure row

/-- The rows of the tables. -/
def loadStageProgress : List Text → Orchestrated (List (Option SyncProgressRow))
  | [] => pure []
  | table :: tables => do
    let row ← loadTableProgress world runId stage table
    let rows ← loadStageProgress tables
    pure (row :: rows)

/-- Save the row of a table. -/
def saveStageProgress (status : SyncProgressStatus) (lastError : Option String) (table : Text) :
    Orchestrated Unit :=
  mapError (saveStage world (stageProgressRow runId stage table status lastError)) fun error =>
    "save sync " ++ String.ofList stage.asStr ++ " progress for table `" ++
      String.ofList table ++ "`: " ++ error

/-- Save the rows of some tables. -/
def saveStageStatuses (tables : List Text) (status : SyncProgressStatus) : Orchestrated Unit :=
  Prog.forEach tables (saveStageProgress world runId stage status none)

/-- Save an error for each of some tables; what cannot be saved is collected. -/
def saveStageErrors (primaryError : String) : List Text → Orchestrated (List String)
  | [] => pure []
  | table :: tables => do
    let saved ← attempt
      (saveStage world (stageProgressRow runId stage table .error (some primaryError)))
    let errors ← saveStageErrors primaryError tables
    match saved with
    | .ok () => pure errors
    | .error error =>
      pure (("save sync " ++ String.ofList stage.asStr ++ " error progress for table `" ++
        String.ofList table ++ "`: " ++ error) :: errors)

/-- Save the error of an action, and stop with it. -/
def persistSchemaStageError (tables : List Text) (primaryError : String) : Orchestrated Unit := do
  let saveErrors ← saveStageErrors world runId stage primaryError tables
  if saveErrors.isEmpty then Prog.fail (.error primaryError)
  else
    Prog.fail (.error
      (primaryError ++ "; additionally " ++ "; additionally ".intercalate saveErrors))

/-- Save what became of an action. -/
def persistSchemaStageResult (incomplete : List Text) :
    Except String Unit → Orchestrated Unit
  | .ok () => saveStageStatuses world runId stage incomplete .complete
  | .error primaryError => persistSchemaStageError world runId stage incomplete primaryError

/-- A schema stage, for the tables that have not completed it. -/
def runDurableSchemaStage (tables : List Text) : Orchestrated Unit := do
  let existing ← loadStageProgress world runId stage tables
  let incomplete := incompleteStageTables tables existing
  if incomplete.isEmpty then pure ()
  else do
    saveStageStatuses world runId stage incomplete .running
    let result ← attempt (runSchemaStage world stage)
    persistSchemaStageResult world runId stage incomplete result

/-- The stages of one execution. -/
def runSyncOrchestration (tables : List Text) : Orchestrated (List SyncChunkProgress) := do
  runDurableSchemaStage world runId .prerequisiteSchema tables
  let rows ← runRows world
  runDurableSchemaStage world runId .finalConstraints tables
  pure rows

/-- One execution after the others. -/
def execute (tables : List Text) (s : OrchestrationRuntime) :
    Except (Stop String) (List SyncChunkProgress) × OrchestrationRuntime :=
  runSyncOrchestration world runId tables { s with log := .began :: s.log }

/-- The state after some executions of one run. -/
def executions (tables : List Text) : Nat → OrchestrationRuntime
  | 0 => ⟨0, []⟩
  | count + 1 => (execute world runId tables (executions tables count)).2

end Stages

end Orchestration

end BinlogCdc
