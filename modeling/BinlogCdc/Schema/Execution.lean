import BinlogCdc.Core.WorkerPoolRun

/-!
# Execution of schema plans

A plan has the statements that converge one table. The plans of the selected tables are executed
by a bounded number of workers, each on a session of its own; a table waits for the selected
tables that it depends on. Within a table the statements are executed in order, and a statement
is left out when one of its prerequisites has failed.
-/

namespace BinlogCdc.SyncSchema

inductive SchemaPhase where
  | create
  | columns
  | keys
  | constraints
deriving DecidableEq, Repr

inductive TableSchemaStatus where
  | planned
  | failed
  | skipped
  | converged
deriving DecidableEq, Repr

inductive OverallSchemaStatus where
  | converged
  | partially
  | failed
deriving DecidableEq, Repr

/-- A statement with the objects that it changes and those that it needs. -/
structure PlannedSchemaStatement where
  phase : SchemaPhase
  sql : String
  objects : List String
  prerequisites : List String
deriving DecidableEq, Repr

inductive PreflightStatus where
  | passed
  | blocked
  | error
deriving DecidableEq, Repr

/-- What the check of the stored values of a column has found. -/
structure CoercionPreflightEvent where
  column : String
  predicate : Option String
  count : Nat
  samplePrimaryKeys : List (List String)
  status : PreflightStatus
  error : Option String
deriving DecidableEq, Repr

structure TableSchemaPlan where
  table : String
  sourceFingerprint : String
  targetFingerprint : String
  dependencies : List String
  status : TableSchemaStatus
  blockers : List String
  preflights : List CoercionPreflightEvent
  statements : List PlannedSchemaStatement
deriving DecidableEq, Repr

inductive ExecutionStatus where
  | executed
  | failed
  | skipped
deriving DecidableEq, Repr

structure StatementExecution where
  phase : SchemaPhase
  sql : String
  status : ExecutionStatus
  error : Option String
deriving DecidableEq, Repr

structure TableSchemaReport where
  table : String
  sourceFingerprint : String
  targetFingerprint : String
  status : TableSchemaStatus
  blockers : List String
  preflights : List CoercionPreflightEvent
  skippedDependencies : List String
  plannedStatements : List PlannedSchemaStatement
  executions : List StatementExecution
deriving DecidableEq, Repr

/-- How the target answers the session of one table: an error of the connection, and an error of
the statement at each place of the plan. -/
structure SessionOutcomes where
  connect : Option String
  execute : Nat → Option String

/-! ## One table -/

/-- The dependencies that are known not to have converged. -/
def failedDependencies (table : TableSchemaPlan) (statuses : String → Option TableSchemaStatus) :
    List String :=
  table.dependencies.filter fun dependency =>
    (statuses dependency).any fun status => decide (status ≠ .converged)

def tableReport (table : TableSchemaPlan) (skippedDependencies : List String) :
    TableSchemaReport where
  table := table.table
  sourceFingerprint := table.sourceFingerprint
  targetFingerprint := table.targetFingerprint
  status := table.status
  blockers := table.blockers
  preflights := table.preflights
  skippedDependencies := skippedDependencies
  plannedStatements := table.statements
  executions := []

def failedStatementPrerequisites (statement : PlannedSchemaStatement)
    (failedObjects : List String) : List String :=
  statement.prerequisites.filter fun prerequisite => decide (prerequisite ∈ failedObjects)

def executePlannedStatement (error : Option String) (statement : PlannedSchemaStatement) :
    StatementExecution where
  phase := statement.phase
  sql := statement.sql
  status := if error.isNone then .executed else .failed
  error := error

def skippedStatementExecution (statement : PlannedSchemaStatement)
    (failedPrerequisites : List String) : StatementExecution where
  phase := statement.phase
  sql := statement.sql
  status := .skipped
  error := some ("failed prerequisites: " ++ ",".intercalate failedPrerequisites)

/-- The object name of a column. -/
def columnObject (table column : String) : String :=
  "column:" ++ table ++ "." ++ column

/-- The columns of a table whose values do not fit, or could not be checked. -/
def preflightFailedObjects (table : TableSchemaPlan) : List String :=
  (table.preflights.filter fun event => decide (event.status ≠ .passed)).map fun event =>
    columnObject table.table event.column

/-- Execute a statement, or leave it out when something that it needs has failed. -/
def attemptStatement (error : Option String) (statement : PlannedSchemaStatement)
    (failedObjects : List String) : StatementExecution :=
  let failedPrerequisites := failedStatementPrerequisites statement failedObjects
  if failedPrerequisites.isEmpty then executePlannedStatement error statement
  else skippedStatementExecution statement failedPrerequisites

/-- Execute or leave out the statements from a place on. -/
def executeStatementsFrom (execute : Nat → Option String) : List PlannedSchemaStatement → Nat →
    List String → TableSchemaReport → TableSchemaReport
  | [], _, _, report => report
  | statement :: statements, place, failedObjects, report =>
    let execution := attemptStatement (execute place) statement failedObjects
    let executions := report.executions ++ [execution]
    if execution.status ≠ .executed then
      executeStatementsFrom execute statements (place + 1) (failedObjects ++ statement.objects)
        { report with executions := executions, status := .failed }
    else
      executeStatementsFrom execute statements (place + 1) failedObjects
        { report with executions := executions }

def executeTableStatements (execute : Nat → Option String) (table : TableSchemaPlan)
    (report : TableSchemaReport) : TableSchemaReport :=
  executeStatementsFrom execute table.statements 0 (preflightFailedObjects table) report

def executeTablePlan (execute : Nat → Option String) (table : TableSchemaPlan)
    (statuses : String → Option TableSchemaStatus) : TableSchemaReport :=
  let failed := failedDependencies table statuses
  let report := tableReport table failed
  let mayExecute := decide (report.status ≠ .failed) && failed.isEmpty
  let report := if failed.isEmpty then report else { report with status := .skipped }
  let report := if mayExecute then executeTableStatements execute table report else report
  if report.status = .planned then { report with status := .converged } else report

def connectAndExecuteSchemaTable (outcomes : SessionOutcomes) (table : TableSchemaPlan)
    (statuses : String → Option TableSchemaStatus) : TableSchemaReport :=
  let failed := failedDependencies table statuses
  let report := tableReport table failed
  if !failed.isEmpty then { report with status := .skipped }
  else if report.status = .failed then report
  else if table.statements.isEmpty then { report with status := .converged }
  else
    match outcomes.connect with
    | none => executeTablePlan outcomes.execute table statuses
    | some error =>
      { report with
        status := .failed
        blockers := report.blockers ++
          ["connect target for schema table `" ++ table.table ++ "`: " ++ error] }

def rejectSchemaCycle (table : TableSchemaPlan) : TableSchemaReport :=
  let report := tableReport table []
  { report with
    status := .failed
    blockers := report.blockers ++
      ["selected schema dependency cycle blocks `" ++ table.table ++ "`"] }

/-- The statements that a session has sent. -/
def TableSchemaReport.sent (report : TableSchemaReport) : List String :=
  (report.executions.filter fun execution => decide (execution.status ≠ .skipped)).map (·.sql)

/-! ## What a table reports -/

/-- Executing statements changes the status and the executions, one for each statement. -/
theorem executeStatementsFrom_report (execute : Nat → Option String)
    (statements : List PlannedSchemaStatement) (place : Nat) (failedObjects : List String)
    (report : TableSchemaReport) :
    ∃ executions status,
      executeStatementsFrom execute statements place failedObjects report =
        { report with executions := report.executions ++ executions, status := status } ∧
      executions.length = statements.length ∧
      (status = if executions.all fun execution => decide (execution.status = .executed)
        then report.status else .failed) := by
  induction statements generalizing place failedObjects report with
  | nil => exact ⟨[], report.status, by simp [executeStatementsFrom], rfl, rfl⟩
  | cons statement statements ih =>
    unfold executeStatementsFrom
    dsimp only
    generalize attemptStatement (execute place) statement failedObjects = execution
    split
    case isTrue hfailed =>
      obtain ⟨executions, status, heq, hlength, hstatus⟩ := ih (place + 1)
        (failedObjects ++ statement.objects)
        { report with executions := report.executions ++ [execution], status := .failed }
      refine ⟨execution :: executions, .failed, ?_, by simp [hlength], ?_⟩
      · rw [heq, hstatus]
        simp
      · simp [hfailed]
    case isFalse hexecuted =>
      obtain ⟨executions, status, heq, hlength, hstatus⟩ := ih (place + 1) failedObjects
        { report with executions := report.executions ++ [execution] }
      refine ⟨execution :: executions, status, ?_, by simp [hlength], ?_⟩
      · rw [heq]
        simp
      · rw [not_not] at hexecuted
        simpa [hexecuted] using hstatus

theorem attemptStatement_text (error : Option String) (statement : PlannedSchemaStatement)
    (failedObjects : List String) :
    (attemptStatement error statement failedObjects).phase = statement.phase ∧
      (attemptStatement error statement failedObjects).sql = statement.sql := by
  unfold attemptStatement
  dsimp only
  split
  all_goals exact ⟨rfl, rfl⟩

/-- The executions are those of the statements, in order. -/
theorem map_executeStatementsFrom (execute : Nat → Option String)
    (statements : List PlannedSchemaStatement) (place : Nat) (failedObjects : List String)
    (report : TableSchemaReport) :
    (executeStatementsFrom execute statements place failedObjects report).executions.map
        (fun execution => (execution.phase, execution.sql)) =
      report.executions.map (fun execution => (execution.phase, execution.sql)) ++
        statements.map fun statement => (statement.phase, statement.sql) := by
  induction statements generalizing place failedObjects report with
  | nil => simp [executeStatementsFrom]
  | cons statement statements ih =>
    obtain ⟨hphase, hsql⟩ := attemptStatement_text (execute place) statement failedObjects
    unfold executeStatementsFrom
    dsimp only
    split
    all_goals
      rw [ih]
      simp [hphase, hsql]

/-- What the statements of a table come to when its plan may be executed. -/
def tableExecutions (execute : Nat → Option String) (table : TableSchemaPlan) :
    List StatementExecution :=
  (executeTableStatements execute table (tableReport table [])).executions

theorem executeTableStatements_report (execute : Nat → Option String) (table : TableSchemaPlan) :
    executeTableStatements execute table (tableReport table []) =
      { tableReport table [] with
        executions := tableExecutions execute table
        status := if (tableExecutions execute table).all fun execution =>
            decide (execution.status = .executed)
          then table.status else .failed } := by
  obtain ⟨executions, status, heq, -, hstatus⟩ := executeStatementsFrom_report execute
    table.statements 0 (preflightFailedObjects table) (tableReport table [])
  have hexecutions : tableExecutions execute table = executions := by
    rw [tableExecutions, executeTableStatements, heq]
    rfl
  rw [hexecutions, executeTableStatements, heq, hstatus]
  rfl

theorem length_tableExecutions (execute : Nat → Option String) (table : TableSchemaPlan) :
    (tableExecutions execute table).length = table.statements.length := by
  obtain ⟨executions, status, heq, hlength, -⟩ := executeStatementsFrom_report execute
    table.statements 0 (preflightFailedObjects table) (tableReport table [])
  rw [tableExecutions, executeTableStatements, heq, ← hlength]
  rfl

theorem map_tableExecutions (execute : Nat → Option String) (table : TableSchemaPlan) :
    (tableExecutions execute table).map (fun execution => (execution.phase, execution.sql)) =
      table.statements.map fun statement => (statement.phase, statement.sql) :=
  map_executeStatementsFrom execute table.statements 0 (preflightFailedObjects table)
    (tableReport table [])

/-- The status of a table whose statements were executed. -/
def executedStatus (execute : Nat → Option String) (table : TableSchemaPlan) :
    TableSchemaStatus :=
  if (tableExecutions execute table).all fun execution => decide (execution.status = .executed) then
    if table.status = .planned then .converged else table.status
  else .failed

/-- A plan that may be executed is executed without regard to the other tables. -/
theorem executeTablePlan_of_mayExecute {execute : Nat → Option String} {table : TableSchemaPlan}
    {statuses : String → Option TableSchemaStatus} (h : failedDependencies table statuses = [])
    (hplan : table.status ≠ .failed) :
    executeTablePlan execute table statuses =
      { tableReport table [] with
        executions := tableExecutions execute table
        status := executedStatus execute table } := by
  have hstatus : (tableReport table []).status = table.status := rfl
  simp only [executeTablePlan, h, hstatus, ne_eq, hplan, not_false_eq_true, decide_true,
    List.isEmpty_nil, Bool.and_self, if_true, executeTableStatements_report, executedStatus]
  split
  case isTrue =>
    split
    case isTrue => rfl
    case isFalse => rfl
  case isFalse => rfl

/-- All that the worker of a table can report. -/
inductive TableOutcome (outcomes : SessionOutcomes) (table : TableSchemaPlan)
    (failed : List String) : TableSchemaReport → Prop where
  | skipped (hfailed : failed ≠ []) :
      TableOutcome outcomes table failed { tableReport table failed with status := .skipped }
  | failedPlan (hfailed : failed = []) (hplan : table.status = .failed) :
      TableOutcome outcomes table failed (tableReport table [])
  | nothing (hfailed : failed = []) (hplan : table.status ≠ .failed)
      (hstatements : table.statements = []) :
      TableOutcome outcomes table failed { tableReport table [] with status := .converged }
  | unconnected (error : String) (hfailed : failed = []) (hplan : table.status ≠ .failed)
      (hstatements : table.statements ≠ []) (hconnect : outcomes.connect = some error) :
      TableOutcome outcomes table failed
        { tableReport table [] with
          status := .failed
          blockers := table.blockers ++
            ["connect target for schema table `" ++ table.table ++ "`: " ++ error] }
  | executed (hfailed : failed = []) (hplan : table.status ≠ .failed)
      (hstatements : table.statements ≠ []) (hconnect : outcomes.connect = none) :
      TableOutcome outcomes table failed
        { tableReport table [] with
          executions := tableExecutions outcomes.execute table
          status := executedStatus outcomes.execute table }

theorem connectAndExecuteSchemaTable_outcome (outcomes : SessionOutcomes) (table : TableSchemaPlan)
    (statuses : String → Option TableSchemaStatus) :
    TableOutcome outcomes table (failedDependencies table statuses)
      (connectAndExecuteSchemaTable outcomes table statuses) := by
  by_cases hfailed : failedDependencies table statuses = []
  · unfold connectAndExecuteSchemaTable
    simp only [hfailed, List.isEmpty_nil, Bool.not_true, Bool.false_eq_true, if_false]
    split
    case isTrue hplan => exact .failedPlan rfl hplan
    case isFalse hplan =>
      split
      case isTrue hstatements => exact .nothing rfl hplan (List.isEmpty_iff.mp hstatements)
      case isFalse hstatements =>
        have hstatements' : table.statements ≠ [] := fun h => hstatements (by simp [h])
        split
        case h_1 hconnect =>
          rw [executeTablePlan_of_mayExecute hfailed hplan]
          exact .executed rfl hplan hstatements' hconnect
        case h_2 error hconnect => exact .unconnected error rfl hplan hstatements' hconnect
  · have heq : connectAndExecuteSchemaTable outcomes table statuses =
        { tableReport table (failedDependencies table statuses) with status := .skipped } := by
      simp [connectAndExecuteSchemaTable, hfailed]
    rw [heq]
    exact .skipped hfailed

/-- The other tables matter only by the dependencies that have failed. -/
theorem connectAndExecuteSchemaTable_congr {outcomes : SessionOutcomes} {table : TableSchemaPlan}
    {statuses statuses' : String → Option TableSchemaStatus}
    (h : failedDependencies table statuses = failedDependencies table statuses') :
    connectAndExecuteSchemaTable outcomes table statuses =
      connectAndExecuteSchemaTable outcomes table statuses' := by
  simp only [connectAndExecuteSchemaTable, executeTablePlan, h]

section Outcome

variable {outcomes : SessionOutcomes} {table : TableSchemaPlan} {failed : List String}
  {report : TableSchemaReport}

theorem TableOutcome.table_eq (h : TableOutcome outcomes table failed report) :
    report.table = table.table := by
  cases h
  all_goals rfl

/-- A table executes at most its own statements. -/
theorem TableOutcome.length_sent_le (h : TableOutcome outcomes table failed report) :
    report.sent.length ≤ table.statements.length := by
  have hle : report.sent.length ≤ report.executions.length := by
    rw [TableSchemaReport.sent, List.length_map]
    exact List.length_filter_le _ _
  refine hle.trans ?_
  cases h with
  | executed => exact (length_tableExecutions outcomes.execute table).le
  | _ => exact Nat.zero_le _

/-- A table with a failed dependency, or with a failed plan, executes nothing. -/
theorem TableOutcome.of_blocked (h : TableOutcome outcomes table failed report)
    (hblocked : failed ≠ [] ∨ table.status = .failed) :
    (report.status = .skipped ∨ report.status = .failed) ∧ report.executions = [] := by
  cases h with
  | skipped => exact ⟨Or.inl rfl, rfl⟩
  | failedPlan _ hplan => exact ⟨Or.inr hplan, rfl⟩
  | nothing hfailed hplan => exact absurd hblocked (by simp [hfailed, hplan])
  | unconnected _ hfailed hplan => exact absurd hblocked (by simp [hfailed, hplan])
  | executed hfailed hplan => exact absurd hblocked (by simp [hfailed, hplan])

end Outcome

/-! ## All tables -/

/-- The schema tables as jobs: a table whose plan has failed does not wait. -/
def schemaJobs (outcomes : String → SessionOutcomes) :
    JobPool String TableSchemaStatus TableSchemaPlan TableSchemaReport String where
  name := TableSchemaPlan.table
  dependencies := TableSchemaPlan.dependencies
  immediate table := decide (table.status = .failed)
  run table statuses := connectAndExecuteSchemaTable (outcomes table.table) table statuses
  reject := rejectSchemaCycle
  key := TableSchemaReport.table
  status := TableSchemaReport.status
  calls := TableSchemaReport.sent
  bound table := table.statements.length
  key_run table statuses :=
    (connectAndExecuteSchemaTable_outcome (outcomes table.table) table statuses).table_eq
  key_reject _ := rfl
  calls_le table statuses :=
    (connectAndExecuteSchemaTable_outcome (outcomes table.table) table statuses).length_sent_le

/-- What is left of a run: the reports, and the statements and reports as they came. -/
structure SchemaRun where
  reports : List TableSchemaReport
  log : List (JobPool.Event String TableSchemaStatus String)
deriving DecidableEq

/-- Execute the plans of all tables; the schedule says which worker acts next. -/
def executeSchemaTables (outcomes : String → SessionOutcomes) (parallelism : Nat)
    (schedule : Nat → Nat) (tables : List TableSchemaPlan) : Option SchemaRun :=
  ((schemaJobs outcomes).execute parallelism schedule tables).map fun final =>
    ⟨final.output tables.length, final.log⟩

/-- A table with a plan that has not failed waits for a selected table. -/
def WaitsFor (tables : List TableSchemaPlan) (name dependency : String) : Prop :=
  dependency ∈ tables.map TableSchemaPlan.table ∧
    ∃ plan ∈ tables, plan.table = name ∧ plan.status ≠ .failed ∧ dependency ∈ plan.dependencies

/-- What holds of every run over some tables. -/
structure SchemaRun.Settles (tables : List TableSchemaPlan) (run : SchemaRun) : Prop where
  /-- There is one report for each table, in input order. -/
  reports : run.reports.map TableSchemaReport.table = tables.map TableSchemaPlan.table
  /-- A statement is executed for a plan that has not failed, after all selected dependencies of
  the table have been reported as converged. -/
  executed : ∀ (position : Nat) (plan : TableSchemaPlan) (sql : String)
    (before after : List (JobPool.Event String TableSchemaStatus String)),
    tables[position]? = some plan → run.log = before ++ .called position sql :: after →
      plan.status ≠ .failed ∧ ∀ dependency ∈ plan.dependencies,
        dependency ∈ tables.map TableSchemaPlan.table → .reported dependency .converged ∈ before
  /-- A table with a selected dependency that has not converged executes nothing. -/
  blocked : ∀ (position other : Nat) (plan otherPlan : TableSchemaPlan)
    (report otherReport : TableSchemaReport),
    tables[position]? = some plan → run.reports[position]? = some report →
    tables[other]? = some otherPlan → run.reports[other]? = some otherReport →
    otherPlan.table ∈ plan.dependencies → otherReport.status ≠ .converged →
      (report.status = .skipped ∨ report.status = .failed) ∧ report.executions = [] ∧
        ∀ sql, .called position sql ∉ run.log
  /-- The tables on a cycle of plans that have not failed, and those that wait for one, have
  failed. -/
  cycle : ∀ (position : Nat) (plan : TableSchemaPlan) (report : TableSchemaReport) (name : String),
    tables[position]? = some plan → run.reports[position]? = some report →
    Relation.ReflTransGen (WaitsFor tables) plan.table name →
    Relation.TransGen (WaitsFor tables) name name → report.status = .failed
  /-- A plan that has failed is reported as failed or skipped. -/
  failedPlan : ∀ (position : Nat) (plan : TableSchemaPlan) (report : TableSchemaReport),
    tables[position]? = some plan → run.reports[position]? = some report →
    plan.status = .failed → report.status = .failed ∨ report.status = .skipped

theorem any_ne_converged (status : Option TableSchemaStatus) :
    (status.any fun status => decide (status ≠ .converged)) =
      !(status.all fun status => decide (status = .converged)) := by
  cases status with
  | none => rfl
  | some status => simp

theorem schemaJobs_passing (outcomes : String → SessionOutcomes) :
    (schemaJobs outcomes).Passing fun status => decide (status = .converged) where
  run_eq table known known' hsame := by
    apply connectAndExecuteSchemaTable_congr
    apply List.filter_congr
    intro dependency hdep
    rw [any_ne_converged, any_ne_converged, hsame dependency hdep]
  immediate table known himmediate := by
    have hplan : table.status = .failed := by simpa [schemaJobs] using himmediate
    have hblocked := (connectAndExecuteSchemaTable_outcome (outcomes table.table) table
      known).of_blocked (Or.inr hplan)
    rcases hblocked.1 with h | h
    · simp [schemaJobs, h]
    · simp [schemaJobs, h]

section Run

variable {outcomes : String → SessionOutcomes} {tables : List TableSchemaPlan}
  {final : JobPool.State String TableSchemaStatus TableSchemaPlan TableSchemaReport String}

/-- A worker that was told of a dependency that has not converged has a failed dependency. -/
theorem failedDependencies_ne_nil {table : TableSchemaPlan}
    {statuses : String → Option TableSchemaStatus} {dependency : String}
    {status : TableSchemaStatus} (hdep : dependency ∈ table.dependencies)
    (hstatus : statuses dependency = some status) (hne : status ≠ .converged) :
    failedDependencies table statuses ≠ [] := by
  apply List.ne_nil_of_mem (a := dependency)
  rw [failedDependencies, List.mem_filter]
  exact ⟨hdep, by simp [hstatus, hne]⟩

/-- The worker of a table that executes a statement was told of no failed dependency. -/
theorem not_blocked_of_mem_sent {table : TableSchemaPlan}
    {statuses : String → Option TableSchemaStatus} {sql : String}
    (hsql : sql ∈ (connectAndExecuteSchemaTable (outcomes table.table) table statuses).sent) :
    table.status ≠ .failed ∧ failedDependencies table statuses = [] := by
  by_contra hnot
  have hblocked : failedDependencies table statuses ≠ [] ∨ table.status = .failed := by
    by_cases hplan : table.status = .failed
    · exact Or.inr hplan
    · exact Or.inl fun hfailed => hnot ⟨hplan, hfailed⟩
  have hnone := ((connectAndExecuteSchemaTable_outcome (outcomes table.table) table
    statuses).of_blocked hblocked).2
  rw [TableSchemaReport.sent, hnone] at hsql
  cases hsql

theorem executed_after_dependencies (h : (schemaJobs outcomes).Complete tables final)
    {position : Nat} {plan : TableSchemaPlan} {sql : String}
    {before after : List (JobPool.Event String TableSchemaStatus String)}
    (hplan : tables[position]? = some plan)
    (hlog : final.log = before ++ .called position sql :: after) :
    plan.status ≠ .failed ∧ ∀ dependency ∈ plan.dependencies,
      dependency ∈ tables.map TableSchemaPlan.table → .reported dependency .converged ∈ before := by
  obtain ⟨job, known, hjob, hcall, hinformed, hbefore⟩ := h.calls before after position sql hlog
  rw [hplan] at hjob
  cases hjob
  obtain ⟨hstatus, hfailed⟩ := not_blocked_of_mem_sent hcall
  refine ⟨hstatus, fun dependency hdep hselected => ?_⟩
  have himmediate : (schemaJobs outcomes).immediate plan = false := by
    simp [schemaJobs, hstatus]
  obtain ⟨status, hknown⟩ := Option.isSome_iff_exists.mp
    (hinformed.complete himmediate dependency hdep hselected)
  have hconverged : status = .converged := by
    by_contra hne
    exact failedDependencies_ne_nil hdep hknown hne hfailed
  rw [← hconverged]
  exact hbefore dependency status hknown

/-- A worker was told of every selected dependency that has not converged. -/
theorem failedDependencies_of_informed (h : (schemaJobs outcomes).Complete tables final)
    (hnames : (tables.map TableSchemaPlan.table).Nodup) {plan otherPlan : TableSchemaPlan}
    {known : String → Option TableSchemaStatus} {other : Nat} {otherReport : TableSchemaReport}
    (hinformed : (schemaJobs outcomes).Informed tables final.statuses plan known)
    (hfailed : plan.status ≠ .failed) (hother : tables[other]? = some otherPlan)
    (hotherReport : final.reports other = some otherReport)
    (hdep : otherPlan.table ∈ plan.dependencies) (hne : otherReport.status ≠ .converged) :
    failedDependencies plan known ≠ [] := by
  have himmediate : (schemaJobs outcomes).immediate plan = false := by
    simp [schemaJobs, hfailed]
  have hselected : otherPlan.table ∈ tables.map TableSchemaPlan.table :=
    List.mem_map_of_mem (List.mem_of_getElem? hother)
  obtain ⟨status, hknown⟩ := Option.isSome_iff_exists.mp
    (hinformed.complete himmediate otherPlan.table hdep hselected)
  have htold := (hinformed.told otherPlan.table status hknown).2
  obtain ⟨otherReport', heq, rfl⟩ := h.report_of_statuses hnames hother htold
  rw [hotherReport] at heq
  cases heq
  exact failedDependencies_ne_nil hdep hknown hne

/-- A table with a dependency that has not converged executes nothing. -/
theorem blocked_of_dependency (h : (schemaJobs outcomes).Complete tables final)
    (hnames : (tables.map TableSchemaPlan.table).Nodup) {position other : Nat}
    {plan otherPlan : TableSchemaPlan} {report otherReport : TableSchemaReport}
    (hplan : tables[position]? = some plan) (hreport : final.reports position = some report)
    (hother : tables[other]? = some otherPlan)
    (hotherReport : final.reports other = some otherReport)
    (hdep : otherPlan.table ∈ plan.dependencies) (hne : otherReport.status ≠ .converged) :
    (report.status = .skipped ∨ report.status = .failed) ∧ report.executions = [] := by
  rcases h.report hnames hplan with ⟨-, known, hreport', hinformed, -⟩ | ⟨-, -, hreport'⟩
  · rw [hreport] at hreport'
    cases hreport'
    apply (connectAndExecuteSchemaTable_outcome (outcomes plan.table) plan known).of_blocked
    by_cases hfailed : plan.status = .failed
    · exact Or.inr hfailed
    · exact Or.inl (failedDependencies_of_informed h hnames hinformed hfailed hother hotherReport
        hdep hne)
  · rw [hreport] at hreport'
    cases hreport'
    exact ⟨Or.inr rfl, rfl⟩

/-- A run of the workers settles all tables. -/
theorem settles_of_complete (h : (schemaJobs outcomes).Complete tables final)
    (hnames : (tables.map TableSchemaPlan.table).Nodup) :
    SchemaRun.Settles tables ⟨final.output tables.length, final.log⟩ := by
  obtain ⟨hkeys, hget⟩ := h.output hnames
  have hlt : ∀ {position plan}, tables[position]? = some plan → position < tables.length :=
    fun hplan => (List.getElem?_eq_some_iff.mp hplan).1
  refine ⟨hkeys, ?_, ?_, ?_, ?_⟩
  · intro position plan sql before after hplan hlog
    exact executed_after_dependencies h hplan hlog
  · intro position other plan otherPlan report otherReport hplan hreport hother hotherReport hdep
      hne
    dsimp only at hreport hotherReport
    rw [hget position (hlt hplan)] at hreport
    rw [hget other (hlt hother)] at hotherReport
    obtain ⟨hstatus, hnone⟩ := blocked_of_dependency h hnames hplan hreport hother hotherReport
      hdep hne
    refine ⟨hstatus, hnone, fun sql hcalled => ?_⟩
    obtain ⟨before, after, hlog⟩ := List.append_of_mem hcalled
    obtain ⟨job, known, hjob, hcall, hinformed, -⟩ := h.calls before after position sql hlog
    rw [hplan] at hjob
    cases hjob
    obtain ⟨hactive, hfailed⟩ := not_blocked_of_mem_sent hcall
    exact failedDependencies_of_informed h hnames hinformed hactive hother hotherReport hdep hne
      hfailed
  · intro position plan report name hplan hreport hbehind hcycle
    dsimp only at hreport
    rw [hget position (hlt hplan)] at hreport
    have hwaits : ∀ name dependency, WaitsFor tables name dependency →
        (schemaJobs outcomes).Waits tables name dependency := by
      rintro name dependency ⟨hselected, plan, hplan, hname, hstatus, hdep⟩
      exact ⟨hselected, plan, hplan, hname, by simp [schemaJobs, hstatus], hdep⟩
    have hnot : ¬ (schemaJobs outcomes).Grounded tables plan.table :=
      JobPool.not_grounded_of_cycle hnames (Relation.ReflTransGen.mono hwaits _ _ hbehind)
        (Relation.TransGen.mono hwaits _ _ hcycle)
    obtain ⟨-, -, hreport'⟩ := (h.report hnames hplan).resolve_left fun hyes => hnot hyes.1
    rw [hreport] at hreport'
    cases hreport'
    rfl
  · intro position plan report hplan hreport hstatus
    dsimp only at hreport
    rw [hget position (hlt hplan)] at hreport
    rcases h.report hnames hplan with ⟨-, known, hreport', -⟩ | ⟨-, -, hreport'⟩
    · rw [hreport] at hreport'
      cases hreport'
      exact ((connectAndExecuteSchemaTable_outcome (outcomes plan.table) plan known).of_blocked
        (Or.inr hstatus)).1.symm
    · rw [hreport] at hreport'
      cases hreport'
      exact Or.inl rfl

end Run

/-- Every run over tables with distinct names ends and settles them, and what it reports of a
table whose plan has not failed depends neither on the schedule nor on the number of workers. -/
theorem executeSchemaTables_settles {tables : List TableSchemaPlan}
    (hnames : (tables.map TableSchemaPlan.table).Nodup) {parallelism : Nat}
    (hparallelism : 0 < parallelism) (outcomes : String → SessionOutcomes)
    (schedule : Nat → Nat) :
    ∃ run, executeSchemaTables outcomes parallelism schedule tables = some run ∧
      run.Settles tables ∧
      ∀ (parallelism' : Nat) (schedule' : Nat → Nat) (run' : SchemaRun), 0 < parallelism' →
        executeSchemaTables outcomes parallelism' schedule' tables = some run' →
        ∀ (position : Nat) (plan : TableSchemaPlan), tables[position]? = some plan →
          plan.status ≠ .failed → run.reports[position]? = run'.reports[position]? := by
  obtain ⟨final, hrun, h⟩ :=
    (schemaJobs outcomes).execute_complete hparallelism hnames schedule
  refine ⟨⟨final.output tables.length, final.log⟩, by simp [executeSchemaTables, hrun],
    settles_of_complete h hnames, ?_⟩
  intro parallelism' schedule' run' hparallelism' hrun' position plan hplan hstatus
  obtain ⟨final', hrun'', h'⟩ :=
    (schemaJobs outcomes).execute_complete hparallelism' hnames schedule'
  have heq : run' = ⟨final'.output tables.length, final'.log⟩ := by
    rw [executeSchemaTables, hrun''] at hrun'
    exact (Option.some.inj hrun').symm
  subst heq
  have hlt := (List.getElem?_eq_some_iff.mp hplan).1
  dsimp only
  rw [(h.output hnames).2 position hlt, (h'.output hnames).2 position hlt]
  exact h.report_eq (schemaJobs_passing outcomes) h' hnames hplan (by simp [schemaJobs, hstatus])

/-- A plan with nothing to execute. -/
def idlePlan (table : String) (dependencies : List String) (status : TableSchemaStatus) :
    TableSchemaPlan :=
  ⟨table, "source", "target", dependencies, status, [], [], []⟩

/-- Three tables, one of them behind another. -/
theorem executeSchemaTables_settles_chain :
    let tables := [idlePlan "child" ["parent"] .planned, idlePlan "parent" [] .planned,
      idlePlan "other" [] .failed]
    ∃ run, executeSchemaTables (fun _ => ⟨none, fun _ => none⟩) 2 (fun _ => 0) tables = some run ∧
      run.Settles tables := by
  intro tables
  have hnames : (tables.map TableSchemaPlan.table).Nodup := by decide
  obtain ⟨run, hrun, hsettles, -⟩ := executeSchemaTables_settles hnames (Nat.succ_pos 1)
    (fun _ => ⟨none, fun _ => none⟩) (fun _ => 0)
  exact ⟨run, hrun, hsettles⟩

/-- A failed plan does not wait: it is reported as skipped when the failure of its dependency is
already known, and as failed otherwise. A table that waits for a failed plan is skipped, also when
that plan depends on a cycle. -/
theorem executeSchemaTables_order_matters :
    let tables := [idlePlan "a" [] .failed, idlePlan "b" [] .planned, idlePlan "c" ["a"] .failed]
    let cyclic := [idlePlan "x" ["x"] .planned, idlePlan "y" ["x"] .failed,
      idlePlan "z" ["y"] .planned]
    let outcomes : String → SessionOutcomes := fun _ => ⟨none, fun _ => none⟩
    (executeSchemaTables outcomes 2 (fun _ => 0) tables).map
        (fun run => run.reports.map (·.status)) = some [.failed, .converged, .skipped] ∧
    (executeSchemaTables outcomes 2 (fun _ => 1) tables).map
        (fun run => run.reports.map (·.status)) = some [.failed, .converged, .failed] ∧
    (executeSchemaTables outcomes 2 (fun _ => 0) cyclic).map
        (fun run => run.reports.map (·.status)) = some [.failed, .failed, .skipped] := by
  decide +kernel

end BinlogCdc.SyncSchema
