import BinlogCdc.Schema.Planner

/-!
# Stages of a synchronization

Tables, columns and keys converge before the rows are copied, constraints afterwards. Both stages
plan everything, with the check constraints and the rules of foreign keys, and keep their part: the
first the statements that are no constraints and the drops of constraints, the last the constraints.
-/

namespace BinlogCdc.SyncSchema

/-- What is known of the source, or of the target. -/
structure SchemaEvidence where
  inventory : SchemaInventory
  checks : List CheckConstraint
  canonicalForeignKeys : List CanonicalForeignKey
deriving DecidableEq

/-- The statements of a list that can be translated; a failed translation fails the table. -/
def translateForTable (context : PlannerContext) (objects : SchemaAction → List String)
    (prerequisites : SchemaAction → List String) :
    List SchemaAction → ModeledTablePlan → List ModeledStatement × ModeledTablePlan
  | [], plan => ([], plan)
  | action :: rest, plan =>
    match translateStatement context .constraints action (objects action) [] with
    | .ok statement =>
      let (statements, plan) := translateForTable context objects prerequisites rest plan
      (withPrerequisites statement (prerequisites action) :: statements, plan)
    | .error error =>
      translateForTable context objects prerequisites rest
        { plan with
          status := .failed
          blockers := plan.blockers ++ ["DDL translation failed: " ++ error] }

/-- Drops come first, additions last. -/
def surroundStatements (context : PlannerContext) (objects prerequisites : SchemaAction → List String)
    (drops additions : List SchemaAction) (plan : ModeledTablePlan) : ModeledTablePlan :=
  let (drops, plan) := translateForTable context objects (fun _ => []) drops plan
  let (additions, plan) := translateForTable context objects prerequisites additions plan
  { plan with statements := drops ++ plan.statements ++ additions }

/-! ## Check constraints -/

def checkObject (table name : String) : String := "check:" ++ table ++ "." ++ name

/-- The order of the checks of a table: by name, then by canonical clause. -/
def checkLe (left right : CheckConstraint) : Bool :=
  decide (left.name < right.name) || (decide (left.name = right.name) &&
    decide (canonicalSqlExpression left.clause ≤ canonicalSqlExpression right.clause))

/-- The checks of a table. -/
def checksFor (checks : List CheckConstraint) (table : String) : List CheckConstraint :=
  (checks.filter fun check => decide (check.table = table)).mergeSort checkLe

def checkConstraintsSemanticallyEqual (left right : CheckConstraint) : Bool :=
  decide (left.table = right.table) &&
    decide (canonicalSqlExpression left.clause = canonicalSqlExpression right.clause)

def targetCheckConstraints (context : PlannerContext) (source : List CheckConstraint) :
    List CheckConstraint :=
  source.map fun check =>
    { check with name := targetConstraintName context.hexDigest .check check.table check.name }

def sameTableForeignKeyDropPrerequisites (plan : ModeledTablePlan) : List String :=
  ((plan.statements.filter fun statement =>
      isDropStatement statement.toPlannedSchemaStatement).flatMap (·.objects)).filter fun object =>
    ("foreign_key:" ++ plan.table ++ ".").toList.isPrefixOf object.toList

/-- An occurrence of the column that no word continues; occurrences do not overlap. -/
def referencesUnquotedFrom (column : Text) (before : Option Char) : Nat → Text → Bool
  | _, [] => false
  | skip + 1, character :: rest => referencesUnquotedFrom column (some character) skip rest
  | 0, character :: rest =>
    if column.isPrefixOf (character :: rest) then
      (!(before.any isSqlWordByte) &&
        !(((character :: rest).drop column.length).head?.any isSqlWordByte)) ||
        referencesUnquotedFrom column (some character) (column.length - 1) rest
    else referencesUnquotedFrom column (some character) 0 rest

def checkClauseReferencesColumn (clause column : String) : Bool :=
  Text.contains (quoted column).toList clause.toList ||
    referencesUnquotedFrom column.toList none 0 clause.toList

def checkConstraintPrerequisites (source : SchemaInventory) (check : CheckConstraint) :
    List String :=
  match source.tables.find? fun table => decide (table.name = check.table) with
  | some table =>
    sortDedup (((sortDedup (table.columns.map (·.name))).filter
      (checkClauseReferencesColumn check.clause)).map (columnObject check.table))
  | none => []

/-- The objects and prerequisites of a statement about a check. -/
def checkObjects : SchemaAction → List String
  | .dropCheck table name => [checkObject table name]
  | .addCheck check => [checkObject check.table check.name]
  | _ => []

def checkPrerequisites (source : SchemaInventory) (foreignKeyDrops : List String) :
    SchemaAction → List String
  | .addCheck check => sortDedup (checkConstraintPrerequisites source check ++ foreignKeyDrops)
  | _ => []

/-- Plan the checks of one table. -/
def appendCheckConstraints (context : PlannerContext) (inventory : SchemaInventory)
    (source target : List CheckConstraint) (plan : ModeledTablePlan) : ModeledTablePlan :=
  let sourceChecks := checksFor (targetCheckConstraints context source) plan.table
  let targetChecks := checksFor target plan.table
  let drops := (targetChecks.filter fun targetCheck =>
      !(sourceChecks.any fun sourceCheck =>
        checkConstraintsSemanticallyEqual sourceCheck targetCheck)).map fun check =>
    SchemaAction.dropCheck plan.table check.name
  let additions := (sourceChecks.filter fun sourceCheck =>
      !(targetChecks.any fun targetCheck =>
        checkConstraintsSemanticallyEqual sourceCheck targetCheck)).map SchemaAction.addCheck
  surroundStatements context checkObjects
    (checkPrerequisites inventory (sameTableForeignKeyDropPrerequisites plan)) drops additions plan

/-! ## Foreign keys -/

def targetCanonicalForeignKey (context : PlannerContext) (source : CanonicalForeignKey) :
    CanonicalForeignKey :=
  { source with
    constraintName := targetConstraintName context.hexDigest .foreignKey source.childTable
      source.constraintName }

/-- The foreign key with every database name relative to the endpoint that reported it. -/
def relativeCanonicalForeignKey (schema : String) (key : CanonicalForeignKey) :
    CanonicalForeignKey :=
  { key with
    constraintSchema := relativeSchema schema key.constraintSchema
    childSchema := relativeSchema schema key.childSchema
    parentSchema := relativeSchema schema key.parentSchema }

def canonicalForeignKeysFor (keys : List CanonicalForeignKey) (table : String) :
    List CanonicalForeignKey :=
  keys.filter fun key => decide (key.childTable = table)

/-- Equality of all but the name and the schema of the constraint. -/
def canonicalForeignKeysSemanticallyEqual (left right : CanonicalForeignKey) : Bool :=
  decide ({ left with constraintSchema := "", constraintName := "" } =
    ({ right with constraintSchema := "", constraintName := "" } : CanonicalForeignKey))

def canonicalForeignKeyPrerequisites (source : SchemaInventory) (key : CanonicalForeignKey) :
    List String :=
  foreignKeyPrerequisites source
    { table := key.childTable
      name := key.constraintName
      columns := key.childColumns
      referencedSchema := key.parentSchema
      referencedTable := key.parentTable
      referencedColumns := key.parentColumns }

def isForeignKeyObject (object : String) : Bool :=
  "foreign_key:".toList.isPrefixOf object.toList

/-- The prerequisites that the last statement about a foreign key has. -/
def plannedPrerequisites (statements : List ModeledStatement) (object : String) :
    Option (List String) :=
  (statements.reverse.find? fun statement =>
    statement.objects.any fun other => isForeignKeyObject other && decide (other = object)).map
      (·.prerequisites)

/-- The objects and prerequisites of a statement about a foreign key of a table. -/
def canonicalForeignKeyObjects (table : String) : SchemaAction → List String
  | .dropForeignKey _ name => [foreignKeyObject table name]
  | .addCanonicalForeignKey _ key => [foreignKeyObject table key.constraintName]
  | _ => []

def canonicalPrerequisites (source : SchemaInventory) (statements : List ModeledStatement)
    (table : String) : SchemaAction → List String
  | .addCanonicalForeignKey _ key =>
    (plannedPrerequisites statements (foreignKeyObject table key.constraintName)).getD
      (canonicalForeignKeyPrerequisites source key)
  | _ => []

/-- Plan the foreign keys of one table in place of those that were compared by name. -/
def appendCanonicalForeignKeys (context : PlannerContext) (inventory : SchemaInventory)
    (source target : List CanonicalForeignKey) (targetSchema : String) (plan : ModeledTablePlan) :
    ModeledTablePlan :=
  let sourceKeys := ((canonicalForeignKeysFor source plan.table).map
    (targetCanonicalForeignKey context)).map (relativeCanonicalForeignKey inventory.schema)
  let targetKeys :=
    (canonicalForeignKeysFor target plan.table).map (relativeCanonicalForeignKey targetSchema)
  let drops := (targetKeys.filter fun targetKey =>
      !(sourceKeys.any fun sourceKey =>
        canonicalForeignKeysSemanticallyEqual sourceKey targetKey)).map fun key =>
    SchemaAction.dropForeignKey plan.table key.constraintName
  let additions := (sourceKeys.filter fun sourceKey =>
      !(targetKeys.any fun targetKey =>
        canonicalForeignKeysSemanticallyEqual sourceKey targetKey)).map
    (SchemaAction.addCanonicalForeignKey inventory.schema)
  surroundStatements context (canonicalForeignKeyObjects plan.table)
    (canonicalPrerequisites inventory plan.statements plan.table) drops additions
    { plan with
      statements := plan.statements.filter fun statement =>
        !statement.objects.any isForeignKeyObject }

/-! ## Stages -/

/-- The plan of everything. -/
def planAll (context : PlannerContext) (evidence target : SchemaEvidence) (selected : List String)
    (preflight : CoercionPreflight) : List ModeledTablePlan :=
  (planSchemaConvergence context evidence.inventory target.inventory selected preflight).map
    fun plan =>
      appendCanonicalForeignKeys context evidence.inventory evidence.canonicalForeignKeys
        target.canonicalForeignKeys target.inventory.schema
        (appendCheckConstraints context evidence.inventory evidence.checks target.checks plan)

def validateSelectionFrom (source : SchemaInventory) : List String → List String →
    Except String Unit
  | _, [] => .ok ()
  | seen, table :: rest =>
    if table ∈ seen then .error ("unified sync selected table `" ++ table ++ "` is duplicated")
    else if source.tables.any fun source => decide (source.name = table) then
      validateSelectionFrom source (table :: seen) rest
    else .error ("unified sync selected source table `" ++ table ++ "` is missing")

def validateSyncStageSelection (source : SchemaInventory) (selected : List String) :
    Except String Unit :=
  if selected.isEmpty then
    .error "unified sync schema stage requires at least one selected table"
  else validateSelectionFrom source [] selected

def planSyncPrerequisiteSchema (context : PlannerContext) (evidence target : SchemaEvidence)
    (selected : List String) (preflight : CoercionPreflight) :
    Except String (List ModeledTablePlan) := do
  validateSyncStageSelection evidence.inventory selected
  .ok ((planAll context evidence target selected preflight).map fun plan =>
    { plan with
      statements := plan.statements.filter fun statement =>
        decide (statement.phase ≠ .constraints) ||
          isConstraintDropStatement statement.toPlannedSchemaStatement })

/-- The first reason that keeps a table from its final constraints. -/
def finalDrift (plan : ModeledTablePlan) : Option String :=
  match plan.blockers with
  | blocker :: _ =>
    some ("final constraints require prerequisite schema convergence for `" ++ plan.table ++
      "`: " ++ blocker)
  | [] =>
    (plan.statements.find? fun statement => decide (statement.phase ≠ .constraints)).map
      fun statement =>
        "final constraints require prerequisite schema convergence for `" ++ plan.table ++
          "` before `" ++ statement.sql ++ "`"

def rejectFinalNonconstraintDrift (plans : List ModeledTablePlan) : Except String Unit :=
  match plans.findSome? finalDrift with
  | some error => .error error
  | none => .ok ()

def planSyncFinalConstraints (context : PlannerContext) (evidence target : SchemaEvidence)
    (selected : List String) (preflight : CoercionPreflight) :
    Except String (List ModeledTablePlan) := do
  validateSyncStageSelection evidence.inventory selected
  let plans := planAll context evidence target selected preflight
  rejectFinalNonconstraintDrift plans
  .ok (plans.map fun plan =>
    { plan with
      statements := plan.statements.filter fun statement =>
        decide (statement.phase = .constraints) })

end BinlogCdc.SyncSchema
