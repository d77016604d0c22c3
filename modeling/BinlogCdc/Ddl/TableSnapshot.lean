import BinlogCdc.Ddl.TableOperation
import BinlogCdc.Schema.Inventory

/-!
# The state that a table operation leaves

Before DROP, RENAME or TRUNCATE is executed its effect is computed on a snapshot of the target,
which must be found afterwards. The computation edits the tables, their indexes, triggers, foreign
keys and runtime data one collection after the other.
-/

namespace BinlogCdc

namespace Ddl

open Text SyncSchema

/-! ## Snapshots -/

structure ViewInventory where
  name : String
  definition : String
  deriving DecidableEq, Repr

structure TriggerInventory where
  name : String
  table : String
  timing : String
  event : String
  statement : String
  deriving DecidableEq, Repr

/-- The inventory of a schema with its views and triggers. -/
structure SemanticInventory extends SyncSchema.SchemaInventory where
  views : List ViewInventory
  triggers : List TriggerInventory
  deriving DecidableEq

structure TableRuntimeState where
  rowCount : Nat
  autoIncrement : Option Nat
  deriving DecidableEq, Repr

structure SemanticSchemaSnapshot where
  inventory : SemanticInventory
  /-- The runtime data of the tables for which they were read. -/
  tableRuntime : String → Option TableRuntimeState

/-- The names of the tables. -/
def SemanticSchemaSnapshot.tableNames (snapshot : SemanticSchemaSnapshot) : List String :=
  snapshot.inventory.tables.map SyncSchema.TableInventory.name

/-! ## What is observed of a snapshot -/

/-- What is compared after the statement was executed. -/
structure TableOperationState where
  tables : List (String × Option SyncSchema.TableInventory × Option TableRuntimeState)
  indexes : List IndexInventory
  foreignKeys : List ForeignKeyInventory
  triggers : List TriggerInventory
  deriving DecidableEq

def affectedTables (operation : DdlOperation) : List String :=
  match operation.family with
  | .rename =>
    [String.ofList operation.primaryObject, String.ofList (operation.secondaryObject.getD [])]
  | .index => (operation.secondaryObject.map String.ofList).toList
  | _ =>
    if operation.objectKind = .table then [String.ofList operation.primaryObject] else []

/-- The order of objects by their table and their name. -/
def byTableAndName {α : Type} (table name : α → String) (left right : α) : Bool :=
  decide (table left < table right) ||
    (table left == table right && !decide (name right < name left))

def observe (snapshot : SemanticSchemaSnapshot) (operation : DdlOperation) :
    TableOperationState where
  tables := (affectedTables operation).map fun name =>
    (name, snapshot.inventory.tables.find? fun table => table.name == name,
      snapshot.tableRuntime name)
  indexes := (snapshot.inventory.indexes.filter fun index =>
    (affectedTables operation).contains index.table).mergeSort
      (byTableAndName IndexInventory.table IndexInventory.name)
  foreignKeys := (snapshot.inventory.foreignKeys.filter fun key =>
    (affectedTables operation).contains key.table ||
      (key.referencedSchema == snapshot.inventory.schema &&
        (affectedTables operation).contains key.referencedTable)).mergeSort
      (byTableAndName ForeignKeyInventory.table ForeignKeyInventory.name)
  triggers := (snapshot.inventory.triggers.filter fun trigger =>
    (affectedTables operation).contains trigger.table).mergeSort
      (byTableAndName TriggerInventory.table TriggerInventory.name)

/-! ## The computed effect -/

def validateSourceTable (snapshot : SemanticSchemaSnapshot) (name : String) :
    Except String Unit :=
  match snapshot.inventory.tables.find? fun table => table.name == name with
  | none => .error ("table operation source `" ++ name ++ "` is missing")
  | some table =>
    if table.tableType ≠ "BASE TABLE" ∨ table.engine ≠ some "InnoDB" then
      .error "table lifecycle requires an InnoDB base table"
    else if (snapshot.tableRuntime name).isNone then
      .error ("table `" ++ name ++ "` lacks exact runtime metadata")
    else .ok ()

/-- A foreign key of this schema that references a table. -/
def references (snapshot : SemanticSchemaSnapshot) (name : String) (key : ForeignKeyInventory) :
    Bool :=
  key.referencedSchema == snapshot.inventory.schema && key.referencedTable == name

def ensureNoExternalReferences (snapshot : SemanticSchemaSnapshot) (name : String) :
    Except String Unit :=
  if snapshot.inventory.foreignKeys.any fun key =>
      key.table != name && references snapshot name key then
    .error ("table `" ++ name ++ "` is referenced by another table's foreign key")
  else .ok ()

/-- The snapshot without a table and what belongs to it. -/
def withoutTable (snapshot : SemanticSchemaSnapshot) (name : String) : SemanticSchemaSnapshot where
  inventory := { snapshot.inventory with
    tables := snapshot.inventory.tables.filter fun table => table.name ≠ name
    indexes := snapshot.inventory.indexes.filter fun index => index.table ≠ name
    foreignKeys := snapshot.inventory.foreignKeys.filter fun key => key.table ≠ name
    triggers := snapshot.inventory.triggers.filter fun trigger => trigger.table ≠ name }
  tableRuntime := fun table => if table = name then none else snapshot.tableRuntime table

def dropTable (snapshot : SemanticSchemaSnapshot) (name : String) :
    Except String SemanticSchemaSnapshot := do
  ensureNoExternalReferences snapshot name
  return withoutTable snapshot name

def truncatedRuntime (runtime : TableRuntimeState) : TableRuntimeState where
  rowCount := 0
  autoIncrement := runtime.autoIncrement.map fun _ => 1

def truncateTable (snapshot : SemanticSchemaSnapshot) (name : String) :
    Except String SemanticSchemaSnapshot := do
  ensureNoExternalReferences snapshot name
  match snapshot.tableRuntime name with
  | none => .error "missing truncate runtime"
  | some runtime =>
    return { snapshot with
      tableRuntime := fun table =>
        if table = name then some (truncatedRuntime runtime) else snapshot.tableRuntime table }

/-- Change the first element that has a property. -/
def modifyFirst {α : Type} (p : α → Bool) (f : α → α) : List α → Option (List α)
  | [] => none
  | x :: list => if p x then some (f x :: list) else (modifyFirst p f list).map (x :: ·)

/-- The start of the names that the server generates for the foreign keys of a table. -/
def generatedKeyPrefix (table : String) : String := table ++ "_ibfk_"

/-- The name of a foreign key of a renamed table. -/
def renamedKeyName (old new name : String) : String :=
  match stripPrefix? (generatedKeyPrefix old).toList name.toList with
  | some suffix => generatedKeyPrefix new ++ String.ofList suffix
  | none => name

/-- A foreign key whose own table is renamed. -/
def renamedChild (old new : String) (key : ForeignKeyInventory) : ForeignKeyInventory :=
  if key.table = old then { key with table := new, name := renamedKeyName old new key.name }
  else key

/-- A foreign key whose parent is renamed. -/
def renamedParent (schema old new : String) (key : ForeignKeyInventory) : ForeignKeyInventory :=
  if key.referencedSchema = schema ∧ key.referencedTable = old then
    { key with referencedTable := new }
  else key

def renamedForeignKey (schema old new : String) (key : ForeignKeyInventory) :
    ForeignKeyInventory :=
  renamedParent schema old new (renamedChild old new key)

def renameDependentMetadata (inventory : SemanticInventory) (old new : String) :
    SemanticInventory :=
  { inventory with
    indexes := inventory.indexes.map fun index =>
      if index.table = old then { index with table := new } else index
    triggers := inventory.triggers.map fun trigger =>
      if trigger.table = old then { trigger with table := new } else trigger
    foreignKeys := inventory.foreignKeys.map (renamedForeignKey inventory.schema old new) }

/-- A table or view has the name, up to case. -/
def destinationExists (inventory : SemanticInventory) (new : String) : Bool :=
  (inventory.tables.any fun table => eqIgnoreAsciiCase table.name.toList new.toList) ||
    inventory.views.any fun view => eqIgnoreAsciiCase view.name.toList new.toList

def renameTable (snapshot : SemanticSchemaSnapshot) (old new : String) :
    Except String SemanticSchemaSnapshot :=
  if destinationExists snapshot.inventory new then
    .error ("rename destination `" ++ new ++ "` already exists")
  else
    match modifyFirst (fun table : SyncSchema.TableInventory => table.name == old)
        (fun table => { table with name := new }) snapshot.inventory.tables with
    | none => .error "missing rename table"
    | some tables =>
      match snapshot.tableRuntime old with
      | none => .error "missing rename runtime"
      | some runtime =>
        .ok {
          inventory :=
            renameDependentMetadata { snapshot.inventory with tables := tables } old new
          tableRuntime := fun table =>
            if table = new then some runtime
            else if table = old then none
            else snapshot.tableRuntime table }

def applyOperation (snapshot : SemanticSchemaSnapshot) (operation : DdlOperation)
    (ast : TableOperation) : Except String SemanticSchemaSnapshot :=
  let name := String.ofList operation.primaryObject
  match ast with
  | .drop _ => dropTable snapshot name
  | .rename =>
    match operation.secondaryObject with
    | none => .error "missing rename destination"
    | some destination => renameTable snapshot name (String.ofList destination)
  | .truncate => truncateTable snapshot name

/-- The snapshot that an operation leaves. -/
def predicted (target : SemanticSchemaSnapshot) (operation : DdlOperation)
    (ast : TableOperation) : Except String SemanticSchemaSnapshot :=
  let name := String.ofList operation.primaryObject
  if target.inventory.tables.any fun table => table.name == name then do
    validateSourceTable target name
    applyOperation target operation ast
  else
    match ast with
    | .drop true => .ok target
    | _ => .error ("table operation source `" ++ name ++ "` is missing")

def expected (target : SemanticSchemaSnapshot) (operation : DdlOperation) :
    Except String TableOperationState :=
  match operation.tableOperationAst with
  | none => .error "missing table operation AST"
  | some ast => do
    let after ← predicted target operation ast
    return observe after operation

end Ddl

end BinlogCdc
