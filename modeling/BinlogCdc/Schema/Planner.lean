import BinlogCdc.Core.BatchOrder
import BinlogCdc.Core.Result
import BinlogCdc.Schema.Coercion
import BinlogCdc.Schema.ParentIndex
import BinlogCdc.Schema.Render

/-!
# Planning of schema convergence

The planner compares the schema that the target must hold with the schema that it has and emits,
table by table, the statements that remove the differences: drops of constraints and keys, columns,
keys, and constraints at the end. Translation of the statements, digests and the check of the stored
values are parameters.
-/

namespace BinlogCdc.SyncSchema

/-- What the translation of a statement gives. -/
structure DdlTransformation where
  version : String
  targetSql : Option String

def ddlTransformationVersion : String := "mariadb-mysql8-v1"

structure CoercionBlockers where
  predicate : Option String
  count : Nat
  samplePrimaryKeys : List (List String)
  sampleError : Option String

/-- What the planner is given besides the inventories. -/
structure PlannerContext where
  /-- The translation of a statement, with the columns of the target table. -/
  translateModeledDdl : String → List String → Except String DdlTransformation
  hexDigest : String → String
  fingerprintTable : TableInventory → String

/-- The check of the stored values of a column. -/
abbrev CoercionPreflight : Type :=
  TableInventory → ColumnInventory → ColumnInventory → Except String CoercionBlockers

/-- A planned statement with what it was rendered from. -/
structure ModeledStatement extends PlannedSchemaStatement where
  action : SchemaAction
deriving DecidableEq

/-- The plan of a table. -/
structure ModeledTablePlan where
  table : String
  sourceFingerprint : String
  targetFingerprint : String
  dependencies : List String
  status : TableSchemaStatus
  blockers : List String
  preflights : List CoercionPreflightEvent
  statements : List ModeledStatement
deriving DecidableEq

/-- The plan as it is executed. -/
def ModeledTablePlan.toPlan (plan : ModeledTablePlan) : TableSchemaPlan where
  table := plan.table
  sourceFingerprint := plan.sourceFingerprint
  targetFingerprint := plan.targetFingerprint
  dependencies := plan.dependencies
  status := plan.status
  blockers := plan.blockers
  preflights := plan.preflights
  statements := plan.statements.map (·.toPlannedSchemaStatement)

/-- The texts in order, each once. -/
def sortDedup (texts : List String) : List String :=
  texts.foldl (fun set text => insertSorted text set) []

def isDropSql (sql : String) : Bool :=
  let normalized := Text.toAsciiUppercase (Text.trimStart sql.toList)
  "DROP ".toList.isPrefixOf normalized || Text.contains " DROP ".toList normalized

def isDropStatement (statement : PlannedSchemaStatement) : Bool := isDropSql statement.sql

def isConstraintDropStatement (statement : PlannedSchemaStatement) : Bool :=
  decide (statement.phase = .constraints) && isDropStatement statement

def keyDropPrecedesColumns (statement : PlannedSchemaStatement) : Bool :=
  isDropStatement statement && statement.prerequisites.isEmpty

def withPrerequisites (statement : ModeledStatement) (prerequisites : List String) :
    ModeledStatement :=
  { statement with prerequisites := prerequisites }

def requireCurrentTranslationVersion (translated : DdlTransformation) : Except String Unit :=
  if translated.version = ddlTransformationVersion then .ok ()
  else
    .error ("schema DDL translation version mismatch: expected " ++ ddlTransformationVersion ++
      ", got " ++ translated.version)

def translateStatement (context : PlannerContext) (phase : SchemaPhase) (action : SchemaAction)
    (objects targetColumns : List String) : Except String ModeledStatement := do
  let translated ← context.translateModeledDdl action.sql targetColumns
  requireCurrentTranslationVersion translated
  match translated.targetSql with
  | some sql => .ok ⟨⟨phase, sql, objects, []⟩, action⟩
  | none => .error ("schema DDL translated to no-op: " ++ action.sql)

def modeledTableOptionsStatement (context : PlannerContext) (table : TableInventory) :
    Except String ModeledStatement := do
  let probe := "CREATE TABLE `sync_schema_options_probe` (`id` BIGINT) " ++ renderTableOptions table
  let translated ←
    match context.translateModeledDdl probe [] with
    | .ok translated => .ok translated
    | .error error => .error ("table option DDL is not modeled: " ++ error)
  requireCurrentTranslationVersion translated
  let action := SchemaAction.tableOptions table
  .ok ⟨⟨.columns, action.sql, ["table:" ++ table.name ++ ".options"], []⟩, action⟩

/-! ## Keys -/

def indexDefinitionsEqual (left right : IndexInventory) : Bool :=
  decide (left.unique = right.unique) &&
    Text.eqIgnoreAsciiCase left.indexType.toList right.indexType.toList &&
    decide (left.visible = right.visible) && decide (left.comment = right.comment) &&
    decide (left.columns = right.columns)

def indexesEqual (left right : IndexInventory) : Bool :=
  decide (left.name = right.name) && indexDefinitionsEqual left right

def indexObject (table index : String) : String := "index:" ++ table ++ "." ++ index

def primaryKeyObject (table : String) : String := "primary_key:" ++ table

def columnPrerequisites (table : String) (columns : List String) : List String :=
  columns.map (columnObject table)

/-- The index of the source that replaces a target index under a new name. -/
def renamedIndexReplacement (old : IndexInventory) (source target : List IndexInventory) :
    Option IndexInventory :=
  if source.any fun index => decide (index.name = old.name) then none
  else
    source.find? fun candidate =>
      !(target.any fun index => decide (index.name = candidate.name)) &&
        indexDefinitionsEqual candidate old

/-- The drops of the target indexes that the source does not have: at once, or after the index
that replaces it. -/
def planIndexDrops (context : PlannerContext) (table : String)
    (sourceIndexes targetIndexes : List IndexInventory) :
    List IndexInventory → Except String (List ModeledStatement × List ModeledStatement)
  | [] => .ok ([], [])
  | targetIndex :: rest => do
    if sourceIndexes.any fun sourceIndex => indexesEqual sourceIndex targetIndex then
      planIndexDrops context table sourceIndexes targetIndexes rest
    else
      let statement ← translateStatement context .keys (.dropIndex table targetIndex.name)
        [indexObject table targetIndex.name] []
      let (statements, renamed) ← planIndexDrops context table sourceIndexes targetIndexes rest
      match renamedIndexReplacement targetIndex sourceIndexes targetIndexes with
      | some replacement =>
        .ok (statements,
          withPrerequisites statement [indexObject replacement.table replacement.name] :: renamed)
      | none => .ok (statement :: statements, renamed)

def planPrimaryKey (context : PlannerContext) (sourceTable targetTable : TableInventory) :
    Except String (List ModeledStatement) := do
  if sourceTable.primaryKey = targetTable.primaryKey then .ok []
  else
    let object := primaryKeyObject sourceTable.name
    let drops ←
      if targetTable.primaryKey.isEmpty then .ok []
      else do
        let statement ← translateStatement context .keys (.dropPrimaryKey sourceTable.name)
          [object] []
        .ok [statement]
    let additions ←
      if sourceTable.primaryKey.isEmpty then .ok []
      else do
        let statement ← translateStatement context .keys
          (.addPrimaryKey sourceTable.name sourceTable.primaryKey) [object] []
        .ok [withPrerequisites statement
          (columnPrerequisites sourceTable.name sourceTable.primaryKey)]
    .ok (drops ++ additions)

/-- The source indexes that the target does not have. -/
def planIndexAdditions (context : PlannerContext) (targetIndexes : List IndexInventory) :
    List IndexInventory → Except String (List ModeledStatement)
  | [] => .ok []
  | sourceIndex :: rest => do
    if targetIndexes.any fun targetIndex => indexesEqual sourceIndex targetIndex then
      planIndexAdditions context targetIndexes rest
    else
      let object := indexObject sourceIndex.table sourceIndex.name
      let statement ← translateStatement context .keys (.createIndex sourceIndex) [object] []
      let prerequisites :=
        columnPrerequisites sourceIndex.table (sourceIndex.columns.map (·.name)) ++
          if targetIndexes.any fun targetIndex =>
            decide (targetIndex.name = sourceIndex.name) && !indexesEqual sourceIndex targetIndex
          then [object] else []
      let statements ← planIndexAdditions context targetIndexes rest
      .ok (withPrerequisites statement prerequisites :: statements)

def planKeys (context : PlannerContext) (source target : SchemaInventory)
    (sourceTable targetTable : TableInventory) : Except String (List ModeledStatement) := do
  let sourceIndexes := indexesFor source sourceTable.name
  let targetIndexes := indexesFor target targetTable.name
  let (drops, renamed) ←
    planIndexDrops context targetTable.name sourceIndexes targetIndexes targetIndexes
  let primaryKey ← planPrimaryKey context sourceTable targetTable
  let additions ← planIndexAdditions context targetIndexes sourceIndexes
  .ok (drops ++ primaryKey ++ additions ++ renamed)

/-! ## Foreign keys -/

def relativeSchema (inventorySchema schema : String) : String :=
  if schema = inventorySchema then ownSchema else schema

def foreignKeysEqual (left : ForeignKeyInventory) (leftSchema : String)
    (right : ForeignKeyInventory) (rightSchema : String) : Bool :=
  decide (left.name = right.name) && decide (left.columns = right.columns) &&
    decide (relativeSchema leftSchema left.referencedSchema =
      relativeSchema rightSchema right.referencedSchema) &&
    decide (left.referencedTable = right.referencedTable) &&
    decide (left.referencedColumns = right.referencedColumns)

def foreignKeyObject (table name : String) : String := "foreign_key:" ++ table ++ "." ++ name

def tableObject (table : String) : String := "table:" ++ table

def indexPrerequisites (source : SchemaInventory) (tableName : String)
    (requiredColumns : List String) : List String :=
  let primaryKey :=
    match source.tables.find? fun table => decide (table.name = tableName) with
    | some table =>
      if table.primaryKey = requiredColumns then [primaryKeyObject tableName] else []
    | none => []
  primaryKey ++
    ((indexesFor source tableName).filter fun index =>
      decide (requiredColumns.length ≤ index.columns.length) &&
        ((index.columns.map (·.name)).zip requiredColumns).all fun pair =>
          decide (pair.1 = pair.2)).map fun index => indexObject index.table index.name

def foreignKeyPrerequisites (source : SchemaInventory) (key : ForeignKeyInventory) : List String :=
  sortDedup (columnPrerequisites key.table key.columns ++
    indexPrerequisites source key.table key.columns ++ [tableObject key.referencedTable] ++
    columnPrerequisites key.referencedTable key.referencedColumns ++
    indexPrerequisites source key.referencedTable key.referencedColumns)

/-- The statement that adds a foreign key. -/
def addForeignKeyStatement (context : PlannerContext) (source : SchemaInventory) (table : String)
    (key : ForeignKeyInventory) : Except String ModeledStatement := do
  let statement ← translateStatement context .constraints (.addForeignKey source.schema key)
    [foreignKeyObject table key.name] []
  .ok (withPrerequisites statement (foreignKeyPrerequisites source key))

def renderForeignKeys (context : PlannerContext) (source : SchemaInventory)
    (table : TableInventory) : Except String (List ModeledStatement) :=
  (source.foreignKeys.filter fun key => decide (key.table = table.name)).mapM
    (addForeignKeyStatement context source table.name)

def planForeignKeys (context : PlannerContext) (source target : SchemaInventory)
    (table : TableInventory) : Except String (List ModeledStatement) := do
  let sourceKeys := source.foreignKeys.filter fun key => decide (key.table = table.name)
  let targetKeys := target.foreignKeys.filter fun key => decide (key.table = table.name)
  let drops ← (targetKeys.filter fun targetKey =>
      !(sourceKeys.any fun sourceKey =>
        foreignKeysEqual sourceKey source.schema targetKey target.schema)).mapM fun targetKey =>
    translateStatement context .constraints (.dropForeignKey table.name targetKey.name)
      [foreignKeyObject table.name targetKey.name] []
  let additions ← (sourceKeys.filter fun sourceKey =>
      !(targetKeys.any fun targetKey =>
        foreignKeysEqual sourceKey source.schema targetKey target.schema)).mapM
    (addForeignKeyStatement context source table.name)
  .ok (drops ++ additions)

/-! ## Columns -/

/-- The columns of a table by name. -/
def columnMap (table : TableInventory) : KeyedTable ColumnInventory.name :=
  KeyedTable.putAll ⟨[], List.Pairwise.nil⟩ table.columns

def preflightEvent (column : String) (blockers : CoercionBlockers) : CoercionPreflightEvent where
  column := column
  predicate := blockers.predicate
  count := blockers.count
  samplePrimaryKeys := blockers.samplePrimaryKeys
  status :=
    if 0 < blockers.count then .blocked
    else if blockers.sampleError.isSome then .error
    else .passed
  error := blockers.sampleError

/-- The check of one column. -/
def inspectColumn (preflight : CoercionPreflight) (targetTable : TableInventory)
    (source target : ColumnInventory) : CoercionPreflightEvent :=
  match preflight targetTable source target with
  | .ok blockers => preflightEvent source.name blockers
  | .error error => ⟨source.name, none, 0, [], .error, some error⟩

/-- The checks that the changed columns need. -/
def planPreflights (preflight : CoercionPreflight) (sourceTable targetTable : TableInventory) :
    List CoercionPreflightEvent :=
  (columnMap sourceTable).rows.filterMap fun source =>
    match (columnMap targetTable).find source.name with
    | some target =>
      if columnChangeRequiresDataPreflight source target then
        some (inspectColumn preflight targetTable source target)
      else none
    | none => none

def targetColumnDropPrerequisites (target : SchemaInventory) (table : TableInventory)
    (column : String) : List String :=
  sortDedup (((indexesFor target table.name).filter fun index =>
      index.columns.any fun part => decide (part.name = column)).map
        (fun index => indexObject table.name index.name) ++
    (target.foreignKeys.filter fun key =>
      decide (key.table = table.name) && key.columns.any fun name => decide (name = column)).map
        fun key => foreignKeyObject table.name key.name)

/-- The drops of the target columns that the source does not have. -/
def planColumnDrops (context : PlannerContext) (target : SchemaInventory)
    (sourceTable targetTable : TableInventory) : Except String (List ModeledStatement) :=
  (targetTable.columns.reverse.filter fun column =>
      ((columnMap sourceTable).find column.name).isNone).mapM fun column => do
    let statement ← translateStatement context .columns
      (.dropColumn sourceTable.name column.name) [columnObject sourceTable.name column.name]
      (targetTable.columns.map (·.name))
    .ok (withPrerequisites statement
      (targetColumnDropPrerequisites target targetTable column.name))

/-- What a source column needs: an addition, a change, or nothing. -/
def columnAction (table : String) (target : Option ColumnInventory) (source : ColumnInventory)
    (previous : Option String) : Option SchemaAction :=
  match target with
  | none => some (.addColumn table source previous)
  | some target =>
    if columnsEqual source target then none else some (.modifyColumn table source previous)

/-- The additions and changes of columns, in source order. A column whose values do not fit is
left out. -/
def planColumnChanges (context : PlannerContext) (preflights : List CoercionPreflightEvent)
    (sourceTable targetTable : TableInventory) : Option String → List String →
    List ColumnInventory → Except String (List ModeledStatement)
  | _, _, [] => .ok []
  | previous, planned, source :: rest => do
    if preflights.any fun event =>
        decide (event.column = source.name) && decide (event.status ≠ .passed) then
      planColumnChanges context preflights sourceTable targetTable (some source.name) planned rest
    else
      match columnAction sourceTable.name ((columnMap targetTable).find source.name) source
          previous with
      | none =>
        planColumnChanges context preflights sourceTable targetTable (some source.name) planned rest
      | some action =>
        let object := columnObject sourceTable.name source.name
        let prerequisites := (previous.map (columnObject sourceTable.name)).toList.filter
          fun object => decide (object ∈ planned)
        let statement ← translateStatement context .columns action [object]
          (targetTable.columns.map (·.name))
        let statements ← planColumnChanges context preflights sourceTable targetTable
          (some source.name) (object :: planned) rest
        .ok (withPrerequisites statement prerequisites :: statements)

/-! ## Tables -/

/-- The tables that a table refers to. -/
def planDependencies (source : SchemaInventory) (table : TableInventory) : List String :=
  sortDedup (((source.foreignKeys.filter fun key => decide (key.table = table.name)).map
    (·.referencedTable)).filter fun parent => decide (parent ≠ table.name))

def semanticTable (table : TableInventory) : TableInventory :=
  { table with
    columns := table.columns.map observedTargetColumn
    collation := table.collation.map canonicalCollation }

/-- A plan without statements. -/
def emptyTablePlan (context : PlannerContext) (name : String) (source target : Option TableInventory) :
    ModeledTablePlan where
  table := name
  sourceFingerprint := (source.map fun table => context.fingerprintTable (semanticTable table)).getD ""
  targetFingerprint := (target.map fun table => context.fingerprintTable (semanticTable table)).getD ""
  dependencies := []
  status := .planned
  blockers := []
  preflights := []
  statements := []

def failedTablePlan (context : PlannerContext) (name : String)
    (source target : Option TableInventory) (error : String) : ModeledTablePlan :=
  { emptyTablePlan context name source target with status := .failed, blockers := [error] }

/-- The statements of a table that the target does not have. -/
def planMissingTable (context : PlannerContext) (source : SchemaInventory)
    (sourceTable : TableInventory) : Except String (List ModeledStatement) := do
  let object := tableObject sourceTable.name
  let create ← translateStatement context .create
    (.createTable sourceTable (indexesFor source sourceTable.name)) [object] []
  let keys ← renderForeignKeys context source sourceTable
  .ok (create :: keys.map fun statement =>
    withPrerequisites statement (sortDedup (statement.prerequisites ++ [object])))

/-- The statements of a table that the target has. -/
def planPresentTable (context : PlannerContext) (source target : SchemaInventory)
    (sourceTable targetTable : TableInventory) (preflights : List CoercionPreflightEvent) :
    Except String (List ModeledStatement) := do
  let options ←
    if sourceTable.engine ≠ targetTable.engine ∨
        sourceTable.collation.map canonicalCollation ≠
          targetTable.collation.map canonicalCollation then do
      let statement ← modeledTableOptionsStatement context sourceTable
      .ok [statement]
    else .ok []
  let keyActions ← planKeys context source target sourceTable targetTable
  let constraintActions ← planForeignKeys context source target sourceTable
  let columnDrops ← planColumnDrops context target sourceTable targetTable
  let columnChanges ← planColumnChanges context preflights sourceTable targetTable none []
    sourceTable.columns
  .ok (options ++
    (constraintActions.filter fun statement =>
      isDropStatement statement.toPlannedSchemaStatement) ++
    (keyActions.filter fun statement =>
      keyDropPrecedesColumns statement.toPlannedSchemaStatement) ++
    columnDrops ++ columnChanges ++
    (keyActions.filter fun statement =>
      !keyDropPrecedesColumns statement.toPlannedSchemaStatement) ++
    constraintActions.filter fun statement =>
      !isDropStatement statement.toPlannedSchemaStatement)

def preflightBlockers (preflights : List CoercionPreflightEvent) : List String :=
  (preflights.filter fun event => decide (event.status ≠ .passed)).map fun event =>
    "column " ++ event.column ++ " coercion preflight did not pass"

def planTable (context : PlannerContext) (source target : SchemaInventory)
    (sourceTable : TableInventory) (targetTable : Option TableInventory)
    (preflight : CoercionPreflight) : Except String ModeledTablePlan := do
  let plan :=
    { emptyTablePlan context sourceTable.name (some sourceTable) targetTable with
      dependencies := planDependencies source sourceTable }
  match targetTable with
  | none =>
    let statements ← planMissingTable context source sourceTable
    .ok { plan with statements := statements }
  | some targetTable =>
    let preflights := planPreflights preflight sourceTable targetTable
    let statements ← planPresentTable context source target sourceTable targetTable preflights
    .ok { plan with
      blockers := preflightBlockers preflights
      preflights := preflights
      statements := statements }

/-! ## Schemas -/

/-- A table whose selected parents are all ordered. -/
def dependencyReady (source : SchemaInventory) (selected ordered : List String) (table : String) :
    Bool :=
  (source.foreignKeys.filter fun key =>
      decide (key.table = table) && decide (key.referencedTable ≠ key.table) &&
        decide (key.referencedTable ∈ selected)).all fun key =>
    decide (key.referencedTable ∈ ordered)

/-- Order the pending tables behind their parents; what is left is on cycles or behind them. Every
round orders a table, so that there are at most as many rounds as tables. -/
def dependencyRounds (source : SchemaInventory) (selected : List String) :
    Nat → List String → List String → List String × List String
  | 0, ordered, pending => (ordered, pending)
  | fuel + 1, ordered, pending =>
    let ready := pending.filter (dependencyReady source selected ordered)
    if ready.isEmpty then (ordered, pending)
    else
      dependencyRounds source selected fuel (ordered ++ ready)
        (pending.filter fun table => decide (table ∉ ready))

def dependencyOrder (source : SchemaInventory) (selected : List String) :
    List String × List String :=
  let selected := sortDedup selected
  dependencyRounds source selected selected.length [] selected

/-- The last table of a name. -/
def tableNamed (inventory : SchemaInventory) (name : String) : Option TableInventory :=
  inventory.tables.reverse.find? fun table => decide (table.name = name)

/-- The plan of one selected table. -/
def planSelectedTable (context : PlannerContext) (expected target : SchemaInventory)
    (preflight : CoercionPreflight) (name : String) : ModeledTablePlan :=
  match tableNamed expected name with
  | none =>
    failedTablePlan context name none (tableNamed target name)
      ("selected source table `" ++ name ++ "` is missing")
  | some sourceTable =>
    match planTable context expected target sourceTable (tableNamed target name) preflight with
    | .ok plan => plan
    | .error error =>
      failedTablePlan context name (some sourceTable) (tableNamed target name) error

def planSchemaConvergence (context : PlannerContext) (source target : SchemaInventory)
    (selected : List String) (preflight : CoercionPreflight) : List ModeledTablePlan :=
  let expected := expectedTargetInventory context.hexDigest source
  let (ordered, cyclic) := dependencyOrder expected selected
  ordered.map (planSelectedTable context expected target preflight) ++
    cyclic.map fun name =>
      failedTablePlan context name (tableNamed expected name) (tableNamed target name)
        ("selected schema dependency cycle includes `" ++ name ++ "`")

end BinlogCdc.SyncSchema
