import BinlogCdc.Schema.Stage

/-!
# Tables that a stage reports as converged

A column whose values do not fit is left out of the plan of its table, and only a statement that
needs the column fails then. A table that is reported as converged has executed all its
statements; that no column was left out follows only when every blocked column is needed.
-/

namespace BinlogCdc.SyncSchema

/-! ## Plans -/

theorem nodup_sortDedup (texts : List String) : (sortDedup texts).Nodup := by
  have h : ∀ set : List String, set.Nodup →
      (texts.foldl (fun set text => insertSorted text set) set).Nodup := by
    induction texts with
    | nil => exact fun set hset => hset
    | cons first texts ih => exact fun set hset => ih _ (nodup_insertSorted hset)
  exact h [] List.nodup_nil

/-- Every pending table is ordered once or left over once. -/
theorem dependencyRounds_perm (source : SchemaInventory) (selected : List String) (fuel : Nat)
    (ordered pending : List String) :
    ((dependencyRounds source selected fuel ordered pending).1 ++
      (dependencyRounds source selected fuel ordered pending).2).Perm (ordered ++ pending) := by
  induction fuel generalizing ordered pending with
  | zero => exact List.Perm.refl _
  | succ fuel ih =>
    unfold dependencyRounds
    dsimp only
    split
    case isTrue => exact List.Perm.refl _
    case isFalse =>
      refine (ih _ _).trans ?_
      rw [List.append_assoc]
      refine List.Perm.append_left ordered ?_
      have hrest : pending.filter (fun table =>
          decide (table ∉ pending.filter (dependencyReady source selected ordered))) =
          pending.filter fun table => !dependencyReady source selected ordered table := by
        apply List.filter_congr
        intro table htable
        simp [htable]
      rw [hrest]
      exact List.filter_append_perm _ _

theorem planTable_table {context : PlannerContext} {source target : SchemaInventory}
    {sourceTable : TableInventory} {targetTable : Option TableInventory}
    {preflight : CoercionPreflight} {plan : ModeledTablePlan}
    (h : planTable context source target sourceTable targetTable preflight = .ok plan) :
    plan.table = sourceTable.name ∧ plan.status = .planned := by
  unfold planTable at h
  cases targetTable with
  | none =>
    simp only [bind, Except.bind] at h
    split at h
    case h_1 => cases h
    case h_2 =>
      cases h
      exact ⟨rfl, rfl⟩
  | some targetTable =>
    simp only [bind, Except.bind] at h
    split at h
    case h_1 => cases h
    case h_2 =>
      cases h
      exact ⟨rfl, rfl⟩

theorem tableNamed_name {inventory : SchemaInventory} {name : String} {table : TableInventory}
    (h : tableNamed inventory name = some table) : table.name = name := by
  simpa using List.find?_some h

/-- The plan of a selected table has its name, and is planned or failed. -/
theorem planSelectedTable_table (context : PlannerContext) (expected target : SchemaInventory)
    (preflight : CoercionPreflight) (name : String) :
    (planSelectedTable context expected target preflight name).table = name ∧
      ((planSelectedTable context expected target preflight name).status = .planned ∨
        (planSelectedTable context expected target preflight name).status = .failed) := by
  unfold planSelectedTable
  split
  case h_1 => exact ⟨rfl, Or.inr rfl⟩
  case h_2 sourceTable hsource =>
    split
    case h_1 plan hplan =>
      obtain ⟨htable, hstatus⟩ := planTable_table hplan
      exact ⟨htable.trans (tableNamed_name hsource), Or.inl hstatus⟩
    case h_2 => exact ⟨rfl, Or.inr rfl⟩

/-- What every list of plans has in common. -/
structure SoundPlans (plans : List ModeledTablePlan) : Prop where
  names : (plans.map ModeledTablePlan.table).Nodup
  statuses : ∀ plan ∈ plans, plan.status = .planned ∨ plan.status = .failed

theorem soundPlans_planSchemaConvergence (context : PlannerContext)
    (source target : SchemaInventory) (selected : List String) (preflight : CoercionPreflight) :
    SoundPlans (planSchemaConvergence context source target selected preflight) := by
  unfold planSchemaConvergence dependencyOrder
  dsimp only
  have hperm := dependencyRounds_perm (expectedTargetInventory context.hexDigest source)
    (sortDedup selected) (sortDedup selected).length [] (sortDedup selected)
  generalize dependencyRounds (expectedTargetInventory context.hexDigest source)
    (sortDedup selected) (sortDedup selected).length [] (sortDedup selected) = order at hperm ⊢
  refine ⟨?_, ?_⟩
  · have hnames : ∀ expected : SchemaInventory,
        (order.1.map (planSelectedTable context expected target preflight)).map
          ModeledTablePlan.table = order.1 := by
      intro expected
      rw [List.map_map]
      conv_rhs => rw [← List.map_id order.1]
      apply List.map_congr_left
      intro name _
      exact (planSelectedTable_table context expected target preflight name).1
    rw [List.map_append, hnames, List.map_map]
    have hfailed : (ModeledTablePlan.table ∘ fun name =>
        failedTablePlan context name
          (tableNamed (expectedTargetInventory context.hexDigest source) name)
          (tableNamed target name)
          ("selected schema dependency cycle includes `" ++ name ++ "`")) = id := rfl
    rw [hfailed, List.map_id]
    exact hperm.nodup_iff.mpr (by simpa using nodup_sortDedup selected)
  · intro plan hplan
    rcases List.mem_append.mp hplan with hplan | hplan
    · obtain ⟨name, -, rfl⟩ := List.mem_map.mp hplan
      exact (planSelectedTable_table context _ target preflight name).2
    · obtain ⟨name, -, rfl⟩ := List.mem_map.mp hplan
      exact Or.inr rfl

/-- Changing plans one by one keeps them sound when each keeps its name and a sound status. -/
theorem SoundPlans.map {plans : List ModeledTablePlan} (h : SoundPlans plans)
    {f : ModeledTablePlan → ModeledTablePlan} (htable : ∀ plan, (f plan).table = plan.table)
    (hstatus : ∀ plan, (f plan).status = plan.status ∨ (f plan).status = .failed) :
    SoundPlans (plans.map f) := by
  refine ⟨?_, ?_⟩
  · have hnames : (plans.map f).map ModeledTablePlan.table = plans.map ModeledTablePlan.table := by
      rw [List.map_map]
      exact List.map_congr_left fun plan _ => htable plan
    rw [hnames]
    exact h.names
  · intro plan hplan
    obtain ⟨plan, hmem, rfl⟩ := List.mem_map.mp hplan
    rcases hstatus plan with heq | hfailed
    · rw [heq]
      exact h.statuses plan hmem
    · exact Or.inr hfailed

theorem translateForTable_table (context : PlannerContext)
    (objects prerequisites : SchemaAction → List String) (actions : List SchemaAction)
    (plan : ModeledTablePlan) :
    (translateForTable context objects prerequisites actions plan).2.table = plan.table ∧
      ((translateForTable context objects prerequisites actions plan).2.status = plan.status ∨
        (translateForTable context objects prerequisites actions plan).2.status = .failed) := by
  induction actions generalizing plan with
  | nil => exact ⟨rfl, Or.inl rfl⟩
  | cons action actions ih =>
    unfold translateForTable
    split
    case h_1 => exact ih plan
    case h_2 error _ =>
      obtain ⟨htable, hstatus⟩ := ih
        { plan with
          status := .failed
          blockers := plan.blockers ++ ["DDL translation failed: " ++ error] }
      exact ⟨htable, Or.inr (hstatus.elim id id)⟩

theorem surroundStatements_table (context : PlannerContext)
    (objects prerequisites : SchemaAction → List String) (drops additions : List SchemaAction)
    (plan : ModeledTablePlan) :
    (surroundStatements context objects prerequisites drops additions plan).table = plan.table ∧
      ((surroundStatements context objects prerequisites drops additions plan).status =
          plan.status ∨
        (surroundStatements context objects prerequisites drops additions plan).status =
          .failed) := by
  unfold surroundStatements
  dsimp only
  have hdrops := translateForTable_table context objects (fun _ => []) drops plan
  generalize (translateForTable context objects (fun _ => []) drops plan).2 = middle at hdrops ⊢
  obtain ⟨htable, hstatus⟩ := translateForTable_table context objects prerequisites additions middle
  refine ⟨htable.trans hdrops.1, ?_⟩
  rcases hstatus with heq | hfailed
  · rcases hdrops.2 with heq' | hfailed'
    · exact Or.inl (heq.trans heq')
    · exact Or.inr (heq.trans hfailed')
  · exact Or.inr hfailed

theorem soundPlans_planAll (context : PlannerContext) (evidence target : SchemaEvidence)
    (selected : List String) (preflight : CoercionPreflight) :
    SoundPlans (planAll context evidence target selected preflight) := by
  have hconvergence := soundPlans_planSchemaConvergence context evidence.inventory target.inventory
    selected preflight
  have hchecks := hconvergence.map (f := appendCheckConstraints context evidence.inventory
    evidence.checks target.checks)
    (fun plan => (surroundStatements_table context _ _ _ _ plan).1)
    (fun plan => (surroundStatements_table context _ _ _ _ plan).2)
  have hkeys := hchecks.map (f := appendCanonicalForeignKeys context evidence.inventory
    evidence.canonicalForeignKeys target.canonicalForeignKeys target.inventory.schema)
    (fun _ => (surroundStatements_table context _ _ _ _ _).1)
    (fun _ => (surroundStatements_table context _ _ _ _ _).2)
  rw [List.map_map] at hkeys
  exact hkeys

/-- The plans that a stage can be executed with. -/
inductive StagePlans (context : PlannerContext) (evidence target : SchemaEvidence)
    (selected : List String) (preflight : CoercionPreflight) : List ModeledTablePlan → Prop where
  | convergence : StagePlans context evidence target selected preflight
      (planSchemaConvergence context evidence.inventory target.inventory selected preflight)
  | prerequisite {plans : List ModeledTablePlan}
      (h : planSyncPrerequisiteSchema context evidence target selected preflight = .ok plans) :
      StagePlans context evidence target selected preflight plans
  | finalConstraints {plans : List ModeledTablePlan}
      (h : planSyncFinalConstraints context evidence target selected preflight = .ok plans) :
      StagePlans context evidence target selected preflight plans

theorem StagePlans.sound {context : PlannerContext} {evidence target : SchemaEvidence}
    {selected : List String} {preflight : CoercionPreflight} {plans : List ModeledTablePlan}
    (h : StagePlans context evidence target selected preflight plans) : SoundPlans plans := by
  have hall := soundPlans_planAll context evidence target selected preflight
  cases h with
  | convergence => exact soundPlans_planSchemaConvergence ..
  | prerequisite h =>
    simp only [planSyncPrerequisiteSchema, bind, Except.bind] at h
    split at h
    case h_1 => cases h
    case h_2 =>
      cases h
      exact hall.map (fun _ => rfl) (fun _ => Or.inl rfl)
  | finalConstraints h =>
    simp only [planSyncFinalConstraints, bind, Except.bind] at h
    split at h
    case h_1 => cases h
    case h_2 =>
      split at h
      case h_1 => cases h
      case h_2 =>
        cases h
        exact hall.map (fun _ => rfl) (fun _ => Or.inl rfl)

/-! ## Both parts of a stage -/

section Parts

variable {outcomes : StageOutcomes} {parallelism : Nat} {tables : List TableSchemaPlan}

/-- The report at the position of a table is the one with its name. -/
theorem reportNamed_eq {reports : List TableSchemaReport} {position : Nat}
    {report : TableSchemaReport} (hnodup : (reports.map TableSchemaReport.table).Nodup)
    (hreport : reports[position]? = some report) :
    reportNamed reports report.table = some report := by
  have hmem : report ∈ reports := List.mem_of_getElem? hreport
  cases hfind : reportNamed reports report.table with
  | none =>
    have hnot := List.find?_eq_none.mp hfind report (List.mem_reverse.mpr hmem)
    simp at hnot
  | some other =>
    have hother : other ∈ reports := List.mem_reverse.mp (List.mem_of_find?_eq_some hfind)
    have hname : other.table = report.table := by simpa using List.find?_some hfind
    rw [List.inj_on_of_nodup_map hnodup hother hmem hname]

/-- The runs of both parts, and the report that joins them. -/
structure StageRun (outcomes : StageOutcomes) (parallelism : Nat) (tables : List TableSchemaPlan)
    (drops remaining : SchemaRun) (report : StageReport) : Prop where
  positive : 0 < parallelism
  names : (tables.map TableSchemaPlan.table).Nodup
  statuses : ∀ plan ∈ tables, plan.status = .planned ∨ plan.status = .failed
  dropRun : executeSchemaTables outcomes.drops parallelism outcomes.dropSchedule
    (tables.map constraintDropPlan) = some drops
  remainingRun : executeSchemaTables outcomes.remaining parallelism outcomes.remainingSchedule
    (tables.map fun plan => applyConstraintDropFailures drops.reports (remainingPlan plan)) =
      some remaining
  joined : report = stageReport (remaining.reports.map (mergeReport drops.reports))

theorem names_constraintDropPlan (tables : List TableSchemaPlan) :
    (tables.map constraintDropPlan).map TableSchemaPlan.table =
      tables.map TableSchemaPlan.table := by
  rw [List.map_map]
  rfl

theorem applyConstraintDropFailures_table (drops : List TableSchemaReport)
    (table : TableSchemaPlan) :
    (applyConstraintDropFailures drops table).table = table.table ∧
      (applyConstraintDropFailures drops table).dependencies = table.dependencies ∧
      ((applyConstraintDropFailures drops table).status = table.status ∨
        (applyConstraintDropFailures drops table).status = .failed) := by
  unfold applyConstraintDropFailures
  dsimp only
  split
  case isTrue => exact ⟨rfl, rfl, Or.inr rfl⟩
  case isFalse => exact ⟨rfl, rfl, Or.inl rfl⟩

theorem names_remaining (drops : List TableSchemaReport) (tables : List TableSchemaPlan) :
    (tables.map fun plan => applyConstraintDropFailures drops (remainingPlan plan)).map
        TableSchemaPlan.table = tables.map TableSchemaPlan.table := by
  rw [List.map_map]
  exact List.map_congr_left fun plan _ =>
    (applyConstraintDropFailures_table drops (remainingPlan plan)).1

/-- Every execution of a stage has its two runs. -/
theorem exists_stageRun {report : StageReport} (hparallelism : 0 < parallelism)
    (hnames : (tables.map TableSchemaPlan.table).Nodup)
    (hstatuses : ∀ plan ∈ tables, plan.status = .planned ∨ plan.status = .failed)
    (h : executeSyncSchemaStagePlan outcomes parallelism tables = some report) :
    ∃ drops remaining, StageRun outcomes parallelism tables drops remaining report := by
  simp only [executeSyncSchemaStagePlan, Option.bind_eq_bind, Option.bind_eq_some_iff] at h
  obtain ⟨drops, hdrops, remaining, hremaining, hreport⟩ := h
  exact ⟨drops, remaining, hparallelism, hnames, hstatuses, hdrops, hremaining,
    (Option.some.inj hreport).symm⟩

/-- A stage always gives a report. -/
theorem exists_stageReport (outcomes : StageOutcomes) (hparallelism : 0 < parallelism)
    (hnames : (tables.map TableSchemaPlan.table).Nodup) :
    ∃ report, executeSyncSchemaStagePlan outcomes parallelism tables = some report := by
  have hdropNames : ((tables.map constraintDropPlan).map TableSchemaPlan.table).Nodup := by
    rw [names_constraintDropPlan]
    exact hnames
  obtain ⟨final, hdrops, -⟩ := (schemaJobs outcomes.drops).execute_complete hparallelism hdropNames
    outcomes.dropSchedule
  have hremainingNames : ((tables.map fun plan => applyConstraintDropFailures
      (final.output (tables.map constraintDropPlan).length) (remainingPlan plan)).map
        TableSchemaPlan.table).Nodup := by
    rw [names_remaining]
    exact hnames
  obtain ⟨final', hremaining, -⟩ := (schemaJobs outcomes.remaining).execute_complete hparallelism
    hremainingNames outcomes.remainingSchedule
  simp only [executeSyncSchemaStagePlan, executeSchemaTables, hdrops, Option.map_some, bind,
    Option.bind, hremaining]
  exact ⟨_, rfl⟩

variable {drops remaining : SchemaRun} {report : StageReport}

theorem StageRun.dropNames (h : StageRun outcomes parallelism tables drops remaining report) :
    ((tables.map constraintDropPlan).map TableSchemaPlan.table).Nodup := by
  rw [names_constraintDropPlan]
  exact h.names

theorem StageRun.remainingNames (h : StageRun outcomes parallelism tables drops remaining report) :
    ((tables.map fun plan => applyConstraintDropFailures drops.reports (remainingPlan plan)).map
      TableSchemaPlan.table).Nodup := by
  rw [names_remaining]
  exact h.names

theorem StageRun.remainingStatuses
    (h : StageRun outcomes parallelism tables drops remaining report) :
    ∀ plan ∈ tables.map fun plan => applyConstraintDropFailures drops.reports (remainingPlan plan),
      plan.status = .planned ∨ plan.status = .failed := by
  intro plan hplan
  obtain ⟨plan, hmem, rfl⟩ := List.mem_map.mp hplan
  rcases (applyConstraintDropFailures_table drops.reports (remainingPlan plan)).2.2 with heq | heq
  · rw [heq]
    exact h.statuses plan hmem
  · exact Or.inr heq

theorem StageRun.dropStatuses (h : StageRun outcomes parallelism tables drops remaining report) :
    ∀ plan ∈ tables.map constraintDropPlan, plan.status = .planned ∨ plan.status = .failed := by
  intro plan hplan
  obtain ⟨plan, hmem, rfl⟩ := List.mem_map.mp hplan
  exact h.statuses plan hmem

/-- The drops of every table have a report, which is the one with its name. -/
theorem StageRun.dropReport (h : StageRun outcomes parallelism tables drops remaining report)
    {position : Nat} {plan : TableSchemaPlan} (hplan : tables[position]? = some plan) :
    ∃ drop, drops.reports[position]? = some drop ∧
      reportNamed drops.reports plan.table = some drop := by
  obtain ⟨final, hcomplete, hrun, hget⟩ := exists_complete h.dropNames h.positive h.dropRun
  have hdrop : (tables.map constraintDropPlan)[position]? = some (constraintDropPlan plan) := by
    rw [List.getElem?_map, hplan]
    rfl
  obtain ⟨drop, hreport, hkey⟩ := hcomplete.exists_report h.dropNames hdrop
  rw [← hget position _ hdrop] at hreport
  have hnodup : (drops.reports.map TableSchemaReport.table).Nodup := by
    rw [hrun]
    exact (hcomplete.output h.dropNames).1 ▸ h.dropNames
  refine ⟨drop, hreport, ?_⟩
  have hname : drop.table = plan.table := hkey
  rw [← hname]
  exact reportNamed_eq hnodup hreport

/-- A plan that is unchanged by the drops has converged drops. -/
theorem drop_converged_of_status {table : TableSchemaPlan} {reports : List TableSchemaReport}
    {drop : TableSchemaReport} (hdrop : reportNamed reports table.table = some drop)
    (hstatus : (applyConstraintDropFailures reports table).status ≠ .failed) :
    drop.status = .converged ∧ applyConstraintDropFailures reports table = table := by
  have hplan : table.status ≠ .failed := by
    intro hfailed
    rcases (applyConstraintDropFailures_table reports table).2.2 with heq | heq
    · exact hstatus (heq.trans hfailed)
    · exact hstatus heq
  by_cases hconverged : drop.status = .converged
  · exact ⟨hconverged, by simp [applyConstraintDropFailures, hdrop, hconverged]⟩
  · refine absurd ?_ hstatus
    simp [applyConstraintDropFailures, hdrop, hconverged, hplan]

/-- A table that both parts have converged. -/
structure ConvergedParts (outcomes : StageOutcomes) (plan : TableSchemaPlan)
    (drop report : TableSchemaReport) : Prop where
  drop : ConvergedTable outcomes.drops (constraintDropPlan plan) drop
  remaining : ConvergedTable outcomes.remaining (remainingPlan plan) report

theorem ConvergedParts.needsNone {plan : TableSchemaPlan} {drop report : TableSchemaReport}
    (h : ConvergedParts outcomes plan drop report) :
    NeedsNone (preflightFailedObjects plan) plan.statements := by
  intro statement hstatement
  by_cases hdrop : isConstraintDropStatement statement = true
  · exact h.drop.needsNone statement (List.mem_filter.mpr ⟨hstatement, hdrop⟩)
  · exact h.remaining.needsNone statement (List.mem_filter.mpr ⟨hstatement, by simpa using hdrop⟩)

/-- A table that the second part has converged has also converged in the first. -/
theorem StageRun.convergedParts (h : StageRun outcomes parallelism tables drops remaining report)
    {position : Nat} {plan : TableSchemaPlan} {tableReport : TableSchemaReport}
    (hplan : tables[position]? = some plan)
    (hconverged : ConvergedTable outcomes.remaining
      (applyConstraintDropFailures drops.reports (remainingPlan plan)) tableReport) :
    ∃ drop, drops.reports[position]? = some drop ∧
      reportNamed drops.reports plan.table = some drop ∧
      ConvergedParts outcomes plan drop tableReport := by
  obtain ⟨drop, hdrop, hnamed⟩ := h.dropReport hplan
  have hnamed' : reportNamed drops.reports (remainingPlan plan).table = some drop := hnamed
  obtain ⟨hdropConverged, hsame⟩ := drop_converged_of_status hnamed' hconverged.status
  rw [hsame] at hconverged
  refine ⟨drop, hdrop, hnamed, ?_, hconverged⟩
  have hdropPlan : (tables.map constraintDropPlan)[position]? = some (constraintDropPlan plan) := by
    rw [List.getElem?_map, hplan]
    rfl
  obtain ⟨final, hcomplete, -, hget⟩ := exists_complete h.dropNames h.positive h.dropRun
  rw [hget position _ hdropPlan] at hdrop
  rcases hcomplete.report h.dropNames hdropPlan with ⟨-, known, hreport, -⟩ | ⟨-, -, hreport⟩
  · rw [hdrop] at hreport
    cases hreport
    exact convergedTable_of_outcome
      (connectAndExecuteSchemaTable_outcome _ (constraintDropPlan plan) known)
      (h.dropStatuses _ (List.mem_of_getElem? hdropPlan)) hdropConverged
  · rw [hdrop] at hreport
    cases hreport
    cases hdropConverged

/-- A table that is reported as converged could converge. -/
theorem StageRun.canConverge (h : StageRun outcomes parallelism tables drops remaining report)
    {position : Nat} {plan : TableSchemaPlan} {tableReport : TableSchemaReport}
    (hplan : tables[position]? = some plan)
    (hreport : remaining.reports[position]? = some tableReport)
    (hconverged : tableReport.status = .converged) : CanConverge tables plan.table := by
  have hname : (applyConstraintDropFailures drops.reports (remainingPlan plan)).table =
      plan.table := (applyConstraintDropFailures_table drops.reports (remainingPlan plan)).1
  rw [← hname]
  refine converged_induction h.remainingNames h.positive h.remainingRun h.remainingStatuses ?_
    (by rw [List.getElem?_map, hplan]; rfl) hreport hconverged
  intro position plan' tableReport hplan' _ _ htable hdependencies
  rw [List.getElem?_map, Option.map_eq_some_iff] at hplan'
  obtain ⟨plan, hplan, rfl⟩ := hplan'
  obtain ⟨hname, hdeps, -⟩ := applyConstraintDropFailures_table drops.reports (remainingPlan plan)
  obtain ⟨drop, -, -, hparts⟩ := h.convergedParts hplan htable
  rw [hname]
  change CanConverge tables plan.table
  refine .intro (List.mem_of_getElem? hplan) hparts.remaining.status hparts.needsNone ?_
  intro dependency hdep hselected
  apply hdependencies
  · rw [hdeps]
    exact hdep
  · rw [names_remaining]
    exact hselected

theorem NeedsNone.filter {failedObjects : List String} {statements : List PlannedSchemaStatement}
    (h : NeedsNone failedObjects statements) (p : PlannedSchemaStatement → Bool) :
    NeedsNone failedObjects (statements.filter p) :=
  fun statement hstatement => h statement (List.mem_of_mem_filter hstatement)

/-- When the target accepts everything, a table that can converge is reported as converged. -/
theorem StageRun.converged (h : StageRun outcomes parallelism tables drops remaining report)
    (hdrops : ∀ table, outcomes.drops table = ⟨none, fun _ => none⟩)
    (hremaining : ∀ table, outcomes.remaining table = ⟨none, fun _ => none⟩)
    {position : Nat} {plan : TableSchemaPlan} {tableReport : TableSchemaReport}
    (hcan : CanConverge tables plan.table) (hplan : tables[position]? = some plan)
    (hreport : remaining.reports[position]? = some tableReport) :
    tableReport.status = .converged := by
  have hdropConverged : ∀ (position : Nat) (plan : TableSchemaPlan) (drop : TableSchemaReport),
      tables[position]? = some plan → plan.status ≠ .failed →
      NeedsNone (preflightFailedObjects plan) plan.statements →
      drops.reports[position]? = some drop → drop.status = .converged := by
    intro position plan drop hplan hstatus hneeds hdrop
    have hdropPlan : (tables.map constraintDropPlan)[position]? =
        some (constraintDropPlan plan) := by
      rw [List.getElem?_map, hplan]
      rfl
    refine converged_of_canConverge h.dropNames h.positive h.dropRun h.dropStatuses hdrops
      ?_ rfl hdropPlan hdrop
    exact .intro (List.mem_of_getElem? hdropPlan) hstatus
      (hneeds.filter isConstraintDropStatement) (fun dependency hdep => by cases hdep)
  have hcan' : ∀ name, CanConverge tables name → CanConverge
      (tables.map fun plan => applyConstraintDropFailures drops.reports (remainingPlan plan))
      name := by
    intro name hcan
    induction hcan with
    | @intro plan hmem hstatus hneeds _ ih =>
      obtain ⟨position, hplan⟩ := List.mem_iff_getElem?.mp hmem
      obtain ⟨drop, hdrop, hnamed⟩ := h.dropReport hplan
      have hconverged := hdropConverged position plan drop hplan hstatus hneeds hdrop
      have hnamed' : reportNamed drops.reports (remainingPlan plan).table = some drop := hnamed
      have hsame : applyConstraintDropFailures drops.reports (remainingPlan plan) =
          remainingPlan plan := by
        simp [applyConstraintDropFailures, hnamed', hconverged]
      have hmem' : remainingPlan plan ∈
          tables.map fun plan => applyConstraintDropFailures drops.reports (remainingPlan plan) :=
        List.mem_map.mpr ⟨plan, hmem, hsame⟩
      change CanConverge _ (remainingPlan plan).table
      refine CanConverge.intro hmem' hstatus (hneeds.filter _) ?_
      intro dependency hdep hselected
      rw [names_remaining] at hselected
      exact ih dependency hdep hselected
  have hname := (applyConstraintDropFailures_table drops.reports (remainingPlan plan)).1
  refine converged_of_canConverge h.remainingNames h.positive h.remainingRun h.remainingStatuses
    hremaining (hcan' _ hcan) hname ?_ hreport
  rw [List.getElem?_map, hplan]
  rfl

/-- The joined report of a converged table has an execution of each of its statements. -/
theorem ConvergedParts.executions {plan : TableSchemaPlan} {drop tableReport : TableSchemaReport}
    (h : ConvergedParts outcomes plan drop tableReport) :
    AllExecuted (drop.executions ++ tableReport.executions) ∧
      (drop.executions ++ tableReport.executions).map
        (fun execution => (execution.phase, execution.sql)) =
      (plan.statements.filter isConstraintDropStatement ++
        plan.statements.filter fun statement => !isConstraintDropStatement statement).map
          fun statement => (statement.phase, statement.sql) := by
  refine ⟨?_, ?_⟩
  · intro execution hexecution
    rcases List.mem_append.mp hexecution with hdrop | hremaining
    · exact h.drop.allExecuted execution hdrop
    · exact h.remaining.allExecuted execution hremaining
  · rw [List.map_append, List.map_append, h.drop.executions, h.remaining.executions,
      map_tableExecutions, map_tableExecutions]
    rfl

end Parts

/-! ## The reports of a stage -/

/-- The executions are those of all statements, drops of constraints first, and all succeeded. -/
def ExecutedAll (plan : TableSchemaPlan) (executions : List StatementExecution) : Prop :=
  AllExecuted executions ∧
    executions.map (fun execution => (execution.phase, execution.sql)) =
      (plan.statements.filter isConstraintDropStatement ++
        plan.statements.filter fun statement => !isConstraintDropStatement statement).map
          fun statement => (statement.phase, statement.sql)

/-- The values of all columns of a table fit. -/
def PreflightsPassed (plan : TableSchemaPlan) : Prop :=
  ∀ event ∈ plan.preflights, event.status = .passed

/-- A table that is reported as converged has executed its statements and left no column out, and
all tables have when the stage is reported as converged. -/
structure TrulyConverged (plans : List TableSchemaPlan) (report : StageReport) : Prop where
  tables : ∀ (position : Nat) (plan : TableSchemaPlan) (tableReport : TableSchemaReport),
    plans[position]? = some plan → report.tables[position]? = some tableReport →
    tableReport.status = .converged →
      ExecutedAll plan tableReport.executions ∧ PreflightsPassed plan
  stage : report.overallStatus = .converged →
    ∀ (position : Nat) (plan : TableSchemaPlan), plans[position]? = some plan →
      PreflightsPassed plan ∧
        ∃ tableReport, report.tables[position]? = some tableReport ∧
          ExecutedAll plan tableReport.executions

/-- A stage that is reported as converged has converged tables only. -/
theorem status_of_overall {reports : List TableSchemaReport}
    (h : overallSchemaStatus reports = .converged) :
    ∀ report ∈ reports, report.status = .converged := by
  have hlength : (reports.filter fun report => decide (report.status = .converged)).length =
      reports.length := by
    unfold overallSchemaStatus at h
    dsimp only at h
    split at h
    case isTrue heq => exact heq
    case isFalse =>
      split at h
      case isTrue => cases h
      case isFalse => cases h
  intro report hreport
  have hfilter := List.length_filter_eq_length_iff.mp hlength report hreport
  simpa using hfilter

/-- The joined report at a position, with its parts when it is converged. -/
theorem StageRun.report_cases {outcomes : StageOutcomes} {parallelism : Nat}
    {tables : List TableSchemaPlan} {drops remaining : SchemaRun} {report : StageReport}
    (h : StageRun outcomes parallelism tables drops remaining report) {position : Nat}
    {plan : TableSchemaPlan} (hplan : tables[position]? = some plan) :
    ∃ tableReport, remaining.reports[position]? = some tableReport ∧
      ∃ joined, report.tables[position]? = some joined ∧ joined.status = tableReport.status ∧
        (tableReport.status = .converged → ExecutedAll plan joined.executions) := by
  obtain ⟨final, hcomplete, -, hget⟩ := exists_complete h.remainingNames h.positive h.remainingRun
  have hremaining : (tables.map fun plan => applyConstraintDropFailures drops.reports
      (remainingPlan plan))[position]? =
        some (applyConstraintDropFailures drops.reports (remainingPlan plan)) := by
    rw [List.getElem?_map, hplan]
    rfl
  obtain ⟨tableReport, hreport, hkey⟩ := hcomplete.exists_report h.remainingNames hremaining
  have hname : tableReport.table = plan.table :=
    hkey.trans (applyConstraintDropFailures_table drops.reports (remainingPlan plan)).1
  have hreport' := (hget position _ hremaining).trans hreport
  obtain ⟨drop, -, hnamed⟩ := h.dropReport hplan
  have hjoined : report.tables[position]? = some (mergeReport drops.reports tableReport) := by
    rw [h.joined, stageReport, List.getElem?_map, hreport']
    rfl
  have hmerged : mergeReport drops.reports tableReport =
      { tableReport with
        plannedStatements := drop.plannedStatements ++ tableReport.plannedStatements
        executions := drop.executions ++ tableReport.executions } := by
    simp [mergeReport, hname, hnamed]
  refine ⟨tableReport, hreport', mergeReport drops.reports tableReport, hjoined, by rw [hmerged], ?_⟩
  intro hconverged
  rw [hmerged]
  rcases hcomplete.report h.remainingNames hremaining with
    ⟨-, known, hworker, -⟩ | ⟨-, -, hrejected⟩
  · rw [hreport] at hworker
    cases hworker
    obtain ⟨drop', -, hnamed', hparts⟩ := h.convergedParts hplan (convergedTable_of_outcome
      (connectAndExecuteSchemaTable_outcome _ _ known)
      (h.remainingStatuses _ (List.mem_of_getElem? hremaining)) hconverged)
    rw [hnamed] at hnamed'
    cases hnamed'
    exact hparts.executions
  · rw [hreport] at hrejected
    cases hrejected
    cases hconverged

/-- What a stage reports as converged has converged, in every run, exactly when no column is
blocked in a table that can converge. -/
theorem stage_trulyConverged_iff {context : PlannerContext} {evidence target : SchemaEvidence}
    {selected : List String} {preflight : CoercionPreflight} {plans : List ModeledTablePlan}
    (hplans : StagePlans context evidence target selected preflight plans) :
    (∀ (outcomes : StageOutcomes) (parallelism : Nat) (report : StageReport), 0 < parallelism →
      executeSyncSchemaStagePlan outcomes parallelism (plans.map ModeledTablePlan.toPlan) =
        some report → TrulyConverged (plans.map ModeledTablePlan.toPlan) report) ↔
    ∀ plan ∈ plans, CanConverge (plans.map ModeledTablePlan.toPlan) plan.table →
      PreflightsPassed plan.toPlan := by
  have hsound := hplans.sound
  have hnames : ((plans.map ModeledTablePlan.toPlan).map TableSchemaPlan.table).Nodup := by
    rw [List.map_map]
    exact hsound.names
  have hstatuses : ∀ plan ∈ plans.map ModeledTablePlan.toPlan,
      plan.status = .planned ∨ plan.status = .failed := by
    intro plan hplan
    obtain ⟨plan, hmem, rfl⟩ := List.mem_map.mp hplan
    exact hsound.statuses plan hmem
  constructor
  · intro hall plan hplan hcan
    obtain ⟨report, hreport⟩ := exists_stageReport
      ⟨fun _ => ⟨none, fun _ => none⟩, fun _ => ⟨none, fun _ => none⟩, fun _ => 0, fun _ => 0⟩
      Nat.one_pos hnames
    obtain ⟨drops, remaining, hrun⟩ := exists_stageRun Nat.one_pos hnames hstatuses hreport
    obtain ⟨position, hposition⟩ := List.mem_iff_getElem?.mp
      (List.mem_map_of_mem (f := ModeledTablePlan.toPlan) hplan)
    obtain ⟨tableReport, hremaining, joined, hjoined, hstatus, -⟩ := hrun.report_cases hposition
    have hconverged := hrun.converged (fun _ => rfl) (fun _ => rfl) hcan hposition hremaining
    exact ((hall _ 1 report Nat.one_pos hreport).tables position plan.toPlan joined hposition hjoined
      (hstatus.trans hconverged)).2
  · intro hpassed outcomes parallelism report hparallelism hreport
    obtain ⟨drops, remaining, hrun⟩ := exists_stageRun hparallelism hnames hstatuses hreport
    have htable : ∀ (position : Nat) (plan : TableSchemaPlan) (tableReport : TableSchemaReport),
        (plans.map ModeledTablePlan.toPlan)[position]? = some plan →
        report.tables[position]? = some tableReport → tableReport.status = .converged →
        ExecutedAll plan tableReport.executions ∧ PreflightsPassed plan := by
      intro position plan tableReport hplan hget hconverged
      obtain ⟨part, hremaining, joined, hjoined, hstatus, hexecuted⟩ := hrun.report_cases hplan
      rw [hget] at hjoined
      cases hjoined
      have hpart := hstatus.symm.trans hconverged
      refine ⟨hexecuted hpart, ?_⟩
      obtain ⟨plan, hmem, rfl⟩ := List.mem_map.mp (List.mem_of_getElem? hplan)
      exact hpassed plan hmem (hrun.canConverge hplan hremaining hpart)
    refine ⟨htable, fun hoverall position plan hplan => ?_⟩
    obtain ⟨part, -, joined, hjoined, -⟩ := hrun.report_cases hplan
    have hoverall' : overallSchemaStatus report.tables = .converged := by
      rw [hrun.joined] at hoverall ⊢
      exact hoverall
    obtain ⟨hexecuted, hpassed'⟩ := htable position plan joined hplan hjoined
      (status_of_overall hoverall' joined (List.mem_of_getElem? hjoined))
    exact ⟨hpassed', joined, hjoined, hexecuted⟩

/-- A schema with one table of one text column. -/
def usersSchema (columnType : String) : SchemaInventory where
  schema := "shop"
  tables :=
    [{ name := "users"
       tableType := "BASE TABLE"
       engine := some "InnoDB"
       collation := none
       primaryKey := []
       columns := [⟨"name", 1, columnType, "varchar", true, none, none, none, "", "", none⟩] }]
  indexes := []
  foreignKeys := []

/-- A translation that keeps every statement. -/
def keepingContext : PlannerContext where
  translateModeledDdl sql _ := .ok ⟨ddlTransformationVersion, some sql⟩
  hexDigest identity := identity
  fingerprintTable _ := ""

/-- Nothing but what the sessions of a stage need when all goes well. -/
def acceptingOutcomes : StageOutcomes :=
  ⟨fun _ => ⟨none, fun _ => none⟩, fun _ => ⟨none, fun _ => none⟩, fun _ => 0, fun _ => 0⟩

/-- A target column that is widened is changed and reported. -/
theorem stage_trulyConverged_widened :
    let source : SchemaEvidence := ⟨usersSchema "varchar(20)", [], []⟩
    let target : SchemaEvidence := ⟨usersSchema "varchar(10)", [], []⟩
    let preflight : CoercionPreflight := fun _ _ _ => .error "unreachable"
    let plans := planSchemaConvergence keepingContext source.inventory target.inventory ["users"]
      preflight
    ∀ report, executeSyncSchemaStagePlan acceptingOutcomes 1 (plans.map ModeledTablePlan.toPlan) =
      some report → TrulyConverged (plans.map ModeledTablePlan.toPlan) report := by
  intro source target preflight plans report hreport
  have hplans : StagePlans keepingContext source target ["users"] preflight plans := .convergence
  refine (stage_trulyConverged_iff hplans).mpr ?_ acceptingOutcomes 1 report Nat.one_pos hreport
  have hnone : ∀ plan ∈ plans, plan.preflights = [] := by decide +kernel
  intro plan hplan _ event hevent
  rw [show plan.toPlan.preflights = [] from hnone plan hplan] at hevent
  cases hevent

/-- A stored name is too long for the new type, and the table has nothing else to change: its
change is left out and the table is reported as converged. -/
theorem stage_reports_blocked_column_converged :
    let plans := planSchemaConvergence keepingContext (usersSchema "varchar(10)")
      (usersSchema "varchar(20)") ["users"] fun _ _ _ => .ok ⟨none, 1, [["7"]], none⟩
    let report :=
      executeSyncSchemaStagePlan acceptingOutcomes 1 (plans.map ModeledTablePlan.toPlan)
    report.map (·.overallStatus) = some .converged ∧
      report.map (·.tables.map (·.status)) = some [.converged] ∧
      plans.map (fun plan => (plan.table, plan.preflights.map (·.column),
        plan.preflights.map (·.status))) = [("users", ["name"], [.blocked])] := by
  dsimp only
  decide +kernel

end BinlogCdc.SyncSchema
