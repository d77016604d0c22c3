import BinlogCdc.Schema.StagePlan

/-!
# Execution of a stage

All drops of constraints are executed before anything else. A table whose drops have failed fails
as a whole; the reports of both parts are joined.
-/

namespace BinlogCdc.SyncSchema

/-- How the target answers the sessions of both parts, and which worker acts next. -/
structure StageOutcomes where
  drops : String → SessionOutcomes
  remaining : String → SessionOutcomes
  dropSchedule : Nat → Nat
  remainingSchedule : Nat → Nat

/-- The drops of constraints of a plan, which wait for nothing. -/
def constraintDropPlan (table : TableSchemaPlan) : TableSchemaPlan :=
  { table with
    dependencies := []
    statements := table.statements.filter isConstraintDropStatement }

def remainingPlan (table : TableSchemaPlan) : TableSchemaPlan :=
  { table with
    statements := table.statements.filter fun statement => !isConstraintDropStatement statement }

/-- The last report of a table. -/
def reportNamed (reports : List TableSchemaReport) (table : String) : Option TableSchemaReport :=
  reports.reverse.find? fun report => decide (report.table = table)

/-- A table whose drops have not converged fails. -/
def applyConstraintDropFailures (drops : List TableSchemaReport) (table : TableSchemaPlan) :
    TableSchemaPlan :=
  let dropFailed := (reportNamed drops table.table).any fun report =>
    decide (report.status ≠ .converged)
  if dropFailed && decide (table.status ≠ .failed) then
    { table with
      status := .failed
      blockers := table.blockers ++ ["constraint drop stage failed"] }
  else table

/-- Join the report of a table with that of its drops. -/
def mergeReport (drops : List TableSchemaReport) (report : TableSchemaReport) :
    TableSchemaReport :=
  match reportNamed drops report.table with
  | some drop =>
    { report with
      plannedStatements := drop.plannedStatements ++ report.plannedStatements
      executions := drop.executions ++ report.executions }
  | none => report

def overallSchemaStatus (reports : List TableSchemaReport) : OverallSchemaStatus :=
  let converged := (reports.filter fun report => decide (report.status = .converged)).length
  if converged = reports.length then .converged
  else if converged = 0 then .failed
  else .partially

/-- What a stage reports. -/
structure StageReport where
  overallStatus : OverallSchemaStatus
  error : Option String
  tables : List TableSchemaReport
deriving DecidableEq

def stageReport (tables : List TableSchemaReport) : StageReport where
  overallStatus := overallSchemaStatus tables
  error :=
    if overallSchemaStatus tables ≠ .converged then
      some "one or more selected tables remain divergent"
    else none
  tables := tables

/-- Execute the plans of a stage. -/
def executeSyncSchemaStagePlan (outcomes : StageOutcomes) (parallelism : Nat)
    (plans : List TableSchemaPlan) : Option StageReport := do
  let drops ← executeSchemaTables outcomes.drops parallelism outcomes.dropSchedule
    (plans.map constraintDropPlan)
  let remaining ← executeSchemaTables outcomes.remaining parallelism outcomes.remainingSchedule
    (plans.map fun plan => applyConstraintDropFailures drops.reports (remainingPlan plan))
  some (stageReport (remaining.reports.map (mergeReport drops.reports)))

/-! ## Statements of one table -/

/-- No statement needs one of the failed objects. -/
def NeedsNone (failedObjects : List String) (statements : List PlannedSchemaStatement) : Prop :=
  ∀ statement ∈ statements, ∀ prerequisite ∈ statement.prerequisites,
    prerequisite ∉ failedObjects

theorem failedStatementPrerequisites_eq_nil {statement : PlannedSchemaStatement}
    {failedObjects : List String} : failedStatementPrerequisites statement failedObjects = [] ↔
      ∀ prerequisite ∈ statement.prerequisites, prerequisite ∉ failedObjects := by
  simp [failedStatementPrerequisites, List.filter_eq_nil_iff]

/-- All statements were executed without an error. -/
def AllExecuted (executions : List StatementExecution) : Prop :=
  ∀ execution ∈ executions, execution.status = .executed

/-- A statement is executed when nothing that it needs has failed and the target accepts it. -/
theorem attemptStatement_executed {error : Option String} {statement : PlannedSchemaStatement}
    {failedObjects : List String} :
    (attemptStatement error statement failedObjects).status = .executed ↔
      (∀ prerequisite ∈ statement.prerequisites, prerequisite ∉ failedObjects) ∧ error = none := by
  rw [← failedStatementPrerequisites_eq_nil, attemptStatement]
  split
  case isTrue h => simp [executePlannedStatement, List.isEmpty_iff.mp h]
  case isFalse h =>
    have h' : failedStatementPrerequisites statement failedObjects ≠ [] :=
      fun heq => h (List.isEmpty_iff.mpr heq)
    simp [skippedStatementExecution, h']

/-- The statements all succeed exactly when none needs a failed object and the target accepts
each. -/
theorem executeStatementsFrom_allExecuted (execute : Nat → Option String)
    (statements : List PlannedSchemaStatement) (place : Nat) (failedObjects : List String)
    (report : TableSchemaReport) (hreport : AllExecuted report.executions) :
    AllExecuted (executeStatementsFrom execute statements place failedObjects report).executions ↔
      NeedsNone failedObjects statements ∧
        ∀ index, index < statements.length → execute (place + index) = none := by
  induction statements generalizing place report with
  | nil => simpa [executeStatementsFrom, NeedsNone] using hreport
  | cons statement statements ih =>
    unfold executeStatementsFrom
    dsimp only
    have hstatus := @attemptStatement_executed (execute place) statement failedObjects
    generalize attemptStatement (execute place) statement failedObjects = execution at hstatus
    split
    case isTrue hfailed =>
      -- An execution that has failed stays in the report.
      obtain ⟨executions, status, heq, -⟩ := executeStatementsFrom_report execute statements
        (place + 1) (failedObjects ++ statement.objects)
        { report with executions := report.executions ++ [execution], status := .failed }
      rw [heq]
      constructor
      · intro hall
        exact absurd (hall execution (by simp)) hfailed
      · rintro ⟨hneeds, haccepts⟩
        refine absurd (hstatus.mpr ⟨hneeds statement List.mem_cons_self, ?_⟩) hfailed
        simpa using haccepts 0 (by simp)
    case isFalse hexecuted =>
      rw [not_not] at hexecuted
      have hreport' : AllExecuted (report.executions ++ [execution]) := by
        intro other hother
        rcases List.mem_append.mp hother with hother | hother
        · exact hreport other hother
        · rw [List.mem_singleton.mp hother]
          exact hexecuted
      rw [ih (place + 1) { report with executions := report.executions ++ [execution] } hreport']
      obtain ⟨hhead, haccept⟩ := hstatus.mp hexecuted
      constructor
      · rintro ⟨hneeds, haccepts⟩
        refine ⟨List.forall_mem_cons.mpr ⟨hhead, hneeds⟩, fun index hindex => ?_⟩
        cases index with
        | zero => exact haccept
        | succ index =>
          have h := haccepts index (by simpa using hindex)
          rwa [Nat.add_assoc, Nat.add_comm 1] at h
      · rintro ⟨hneeds, haccepts⟩
        refine ⟨(List.forall_mem_cons.mp hneeds).2, fun index hindex => ?_⟩
        have h := haccepts (index + 1) (by simpa using hindex)
        rwa [← Nat.add_assoc, Nat.add_right_comm] at h

theorem tableExecutions_allExecuted (execute : Nat → Option String) (table : TableSchemaPlan) :
    AllExecuted (tableExecutions execute table) ↔
      NeedsNone (preflightFailedObjects table) table.statements ∧
        ∀ index, index < table.statements.length → execute index = none := by
  have h := executeStatementsFrom_allExecuted execute table.statements 0
    (preflightFailedObjects table) (tableReport table []) (by simp [AllExecuted, tableReport])
  simpa [tableExecutions, executeTableStatements] using h

/-- A table converges when its plan is not failed, no failed dependency is known, it is connected
if it has statements, and they all succeed. -/
theorem converged_iff {outcomes : SessionOutcomes} {table : TableSchemaPlan}
    {failed : List String} {report : TableSchemaReport}
    (h : TableOutcome outcomes table failed report)
    (hplan : table.status = .planned ∨ table.status = .failed) :
    report.status = .converged ↔
      failed = [] ∧ table.status ≠ .failed ∧
        (table.statements ≠ [] → outcomes.connect = none) ∧
        AllExecuted (tableExecutions outcomes.execute table) := by
  have hall : ∀ executions : List StatementExecution,
      (executions.all fun execution => decide (execution.status = .executed)) = true ↔
        AllExecuted executions := by
    intro executions
    simp [AllExecuted]
  cases h with
  | skipped hfailed => simp [hfailed]
  | failedPlan hfailed hstatus => simp [tableReport, hstatus]
  | nothing hfailed hstatus hstatements =>
    have hnone : AllExecuted (tableExecutions outcomes.execute table) := by
      have hlength := length_tableExecutions outcomes.execute table
      rw [hstatements, List.length_nil, List.length_eq_zero_iff] at hlength
      simp [AllExecuted, hlength]
    simp [hfailed, hstatus, hstatements, hnone]
  | unconnected error hfailed hstatus hstatements hconnect =>
    simp [hconnect, hstatements]
  | executed hfailed hstatus hstatements hconnect =>
    have hplanned : table.status = .planned := hplan.resolve_right hstatus
    simp [executedStatus, hfailed, hconnect, hplanned, ← hall]

/-! ## Runs that converge -/

/-- A table that converges when the target accepts everything: its plan has not failed, no
statement needs a column whose values do not fit, and all that it waits for converges. -/
inductive CanConverge (tables : List TableSchemaPlan) : String → Prop where
  | intro {plan : TableSchemaPlan} (hplan : plan ∈ tables) (hstatus : plan.status ≠ .failed)
      (hneeds : NeedsNone (preflightFailedObjects plan) plan.statements)
      (hdependencies : ∀ dependency ∈ plan.dependencies,
        dependency ∈ tables.map TableSchemaPlan.table → CanConverge tables dependency) :
      CanConverge tables plan.table

section Run

variable {outcomes : String → SessionOutcomes} {tables : List TableSchemaPlan} {parallelism : Nat}
  {schedule : Nat → Nat} {run : SchemaRun}

/-- A run is that of a complete pool. -/
theorem exists_complete (hnames : (tables.map TableSchemaPlan.table).Nodup)
    (hparallelism : 0 < parallelism)
    (hrun : executeSchemaTables outcomes parallelism schedule tables = some run) :
    ∃ final, (schemaJobs outcomes).Complete tables final ∧
      run = ⟨final.output tables.length, final.log⟩ ∧
      ∀ position plan, tables[position]? = some plan →
        run.reports[position]? = final.reports position := by
  obtain ⟨final, hfinal, h⟩ :=
    (schemaJobs outcomes).execute_complete hparallelism hnames schedule
  have heq : run = ⟨final.output tables.length, final.log⟩ := by
    rw [executeSchemaTables, hfinal] at hrun
    exact (Option.some.inj hrun).symm
  refine ⟨final, h, heq, fun position plan hplan => ?_⟩
  rw [heq]
  exact (h.output hnames).2 position (List.getElem?_eq_some_iff.mp hplan).1

/-- What is known of a table that has converged. -/
structure ConvergedTable (outcomes : String → SessionOutcomes) (plan : TableSchemaPlan)
    (report : TableSchemaReport) : Prop where
  status : plan.status ≠ .failed
  executions : report.executions = tableExecutions (outcomes plan.table).execute plan
  allExecuted : AllExecuted report.executions
  needsNone : NeedsNone (preflightFailedObjects plan) plan.statements

theorem convergedTable_of_outcome {plan : TableSchemaPlan} {failed : List String}
    {report : TableSchemaReport}
    (h : TableOutcome (outcomes plan.table) plan failed report)
    (hplan : plan.status = .planned ∨ plan.status = .failed) (hconverged : report.status = .converged) :
    ConvergedTable outcomes plan report := by
  obtain ⟨hfailed, hstatus, hconnect, hall⟩ := (converged_iff h hplan).mp hconverged
  have hneeds := ((tableExecutions_allExecuted _ _).mp hall).1
  have hexecutions : report.executions = tableExecutions (outcomes plan.table).execute plan := by
    cases h with
    | skipped hne => exact absurd hfailed hne
    | failedPlan _ hfailedPlan => exact absurd hfailedPlan hstatus
    | nothing _ _ hstatements =>
      have hlength := length_tableExecutions (outcomes plan.table).execute plan
      rw [hstatements, List.length_nil, List.length_eq_zero_iff] at hlength
      exact hlength.symm
    | unconnected => cases hconverged
    | executed => rfl
  exact ⟨hstatus, hexecutions, hexecutions ▸ hall, hneeds⟩

/-- What holds of a converged table when it holds of the converged tables that it waits for, holds
of all converged tables. -/
theorem converged_induction (hnames : (tables.map TableSchemaPlan.table).Nodup)
    (hparallelism : 0 < parallelism)
    (hrun : executeSchemaTables outcomes parallelism schedule tables = some run)
    (hplans : ∀ plan ∈ tables, plan.status = .planned ∨ plan.status = .failed) {Q : String → Prop}
    (step : ∀ (position : Nat) (plan : TableSchemaPlan) (report : TableSchemaReport),
      tables[position]? = some plan → run.reports[position]? = some report →
      report.status = .converged → ConvergedTable outcomes plan report →
      (∀ dependency ∈ plan.dependencies, dependency ∈ tables.map TableSchemaPlan.table →
        Q dependency) → Q plan.table)
    {position : Nat} {plan : TableSchemaPlan} {report : TableSchemaReport}
    (hplan : tables[position]? = some plan) (hreport : run.reports[position]? = some report)
    (hconverged : report.status = .converged) : Q plan.table := by
  obtain ⟨final, h, -, hget⟩ := exists_complete hnames hparallelism hrun
  have hconvergedTable : ∀ (position : Nat) (plan : TableSchemaPlan) (report : TableSchemaReport),
      tables[position]? = some plan → run.reports[position]? = some report →
      report.status = .converged →
      (schemaJobs outcomes).Grounded tables plan.table ∧
        ConvergedTable outcomes plan report := by
    intro position plan report hplan hreport hconverged
    rw [hget position plan hplan] at hreport
    rcases h.report hnames hplan with ⟨hgrounded, known, hreport', -⟩ | ⟨-, -, hreport'⟩
    · rw [hreport] at hreport'
      cases hreport'
      exact ⟨hgrounded, convergedTable_of_outcome
        (connectAndExecuteSchemaTable_outcome (outcomes plan.table) plan known)
        (hplans plan (List.mem_of_getElem? hplan)) hconverged⟩
    · rw [hreport] at hreport'
      cases hreport'
      cases hconverged
  -- Along the dependencies of the grounded tables: a converged table has converged dependencies.
  have hmain : ∀ name, (schemaJobs outcomes).Grounded tables name →
      ∀ (position : Nat) (plan : TableSchemaPlan) (report : TableSchemaReport),
        plan.table = name → tables[position]? = some plan →
        run.reports[position]? = some report → report.status = .converged → Q name := by
    intro name hgrounded
    induction hgrounded with
    | @immediate job hjob himmediate =>
      intro position plan report hname hplan hreport hconverged
      have hstatus := (hconvergedTable position plan report hplan hreport hconverged).2.status
      have heq : plan = job :=
        List.inj_on_of_nodup_map hnames (List.mem_of_getElem? hplan) hjob hname
      rw [heq] at hstatus
      exact absurd (by simpa [schemaJobs] using himmediate) hstatus
    | @waits job hjob _ ih =>
      intro position plan report hname hplan hreport hconverged
      have heq : plan = job :=
        List.inj_on_of_nodup_map hnames (List.mem_of_getElem? hplan) hjob hname
      subst heq
      refine step position plan report hplan hreport hconverged
        (hconvergedTable position plan report hplan hreport hconverged).2 ?_
      intro dependency hdep hselected
      obtain ⟨otherPlan, hmem, rfl⟩ := List.mem_map.mp hselected
      obtain ⟨other, hother⟩ := List.mem_iff_getElem?.mp hmem
      obtain ⟨otherReport, hotherReport, -⟩ := h.exists_report hnames hother
      rw [← hget other otherPlan hother] at hotherReport
      refine ih otherPlan.table hdep hselected other otherPlan otherReport rfl hother hotherReport ?_
      by_contra hne
      have hblocked := (blocked_of_dependency h hnames hplan (hget position plan hplan ▸ hreport)
        hother (hget other otherPlan hother ▸ hotherReport) hdep hne).1
      rw [hconverged] at hblocked
      simp at hblocked
  exact hmain plan.table (hconvergedTable position plan report hplan hreport hconverged).1 position
    plan report rfl hplan hreport hconverged

theorem CanConverge.grounded {name : String} (h : CanConverge tables name) :
    (schemaJobs outcomes).Grounded tables name := by
  induction h with
  | intro hplan _ _ _ ih => exact .waits hplan ih

/-- When the target accepts everything, all tables converge that can. -/
theorem converged_of_canConverge (hnames : (tables.map TableSchemaPlan.table).Nodup)
    (hparallelism : 0 < parallelism)
    (hrun : executeSchemaTables outcomes parallelism schedule tables = some run)
    (hplans : ∀ plan ∈ tables, plan.status = .planned ∨ plan.status = .failed)
    (haccepts : ∀ table, outcomes table = ⟨none, fun _ => none⟩) {name : String}
    (hcan : CanConverge tables name) {position : Nat} {plan : TableSchemaPlan}
    {report : TableSchemaReport} (hname : plan.table = name)
    (hplan : tables[position]? = some plan) (hreport : run.reports[position]? = some report) :
    report.status = .converged := by
  obtain ⟨final, h, -, hget⟩ := exists_complete hnames hparallelism hrun
  induction hcan generalizing position plan report with
  | @intro job hjob hstatus hneeds hdependencies ih =>
    have heq : plan = job :=
      List.inj_on_of_nodup_map hnames (List.mem_of_getElem? hplan) hjob hname
    subst heq
    have hgrounded : (schemaJobs outcomes).Grounded tables plan.table :=
      (CanConverge.intro hjob hstatus hneeds hdependencies).grounded
    obtain ⟨known, hreport', hinformed, -⟩ := h.worked hnames hplan hgrounded
    rw [hget position plan hplan, hreport'] at hreport
    cases hreport
    have houtcome := connectAndExecuteSchemaTable_outcome (outcomes plan.table) plan known
    refine (converged_iff houtcome (hplans plan hjob)).mpr ⟨?_, hstatus, ?_, ?_⟩
    · rw [failedDependencies, List.filter_eq_nil_iff]
      intro dependency hdep
      cases hknown : known dependency with
      | none => simp
      | some status =>
        have htold := (hinformed.told dependency status hknown).2
        obtain ⟨otherPlan, hmem, rfl⟩ := List.mem_map.mp (h.selected_of_statuses htold)
        obtain ⟨other, hother⟩ := List.mem_iff_getElem?.mp hmem
        obtain ⟨otherReport, hotherReport, rfl⟩ := h.report_of_statuses hnames hother htold
        have hconverged := ih _ hdep (List.mem_map_of_mem hmem) rfl hother
          ((hget other otherPlan hother).trans hotherReport)
        simpa [schemaJobs] using hconverged
    · simp [haccepts]
    · rw [tableExecutions_allExecuted]
      exact ⟨hneeds, by simp [haccepts]⟩

end Run

end BinlogCdc.SyncSchema
