import BinlogCdc.Sync.DependencyOrder
import BinlogCdc.Sync.Model
import BinlogCdc.Binlog.Coordinate

/-!
# The table catalog

A catalog lists the tables that can be synced: base tables with a primary key whose target
table is compatible, and whose parents can be synced too. The parents of a table come from
the foreign keys of the source and of the target; a foreign key of a table to itself is
not counted.
-/

namespace BinlogCdc

/-! ## Inventories -/

/-- The expression of a generated column. -/
structure GeneratedColumn where
  expression : String
  generationKind : String
deriving DecidableEq, Repr

/-- A column of an inventory. -/
structure ColumnInventory where
  name : String
  columnType : String
  dataType : String
  isNullable : Bool
  characterSet : Option String
  collation : Option String
  generated : Option GeneratedColumn
deriving DecidableEq, Repr

/-- A table of an inventory. -/
structure TableInventory where
  name : String
  tableType : String
  collation : Option String
  primaryKey : List String
  columns : List ColumnInventory
deriving DecidableEq, Repr

/-- The tables and foreign keys of a schema. -/
structure SchemaInventory where
  schema : String
  tables : List TableInventory
  foreignKeys : List ForeignKeyInventory
deriving DecidableEq, Repr

/-- How the values of a primary key column are ordered. -/
inductive PrimaryKeyOrdering where
  | native
  | enum (labels : List String)
deriving DecidableEq, Repr

/-- The rest of a quoted text after its opening quote: the text, and what follows it. -/
def parseSqlStringValue : List Char → List Char × List Char
  | [] => ([], [])
  | '\'' :: '\'' :: rest =>
    let (value, rest) := parseSqlStringValue rest
    ('\'' :: value, rest)
  | '\'' :: rest => ([], rest)
  | '\\' :: escaped :: rest =>
    let (value, rest) := parseSqlStringValue rest
    (escaped :: value, rest)
  | ['\\'] => ([], [])
  | character :: rest =>
    let (value, rest) := parseSqlStringValue rest
    (character :: value, rest)

/-- The quoted texts of a list; every step reads at least one character. -/
def parseSqlStringList : Nat → List Char → List String
  | 0, _ => []
  | _ + 1, [] => []
  | fuel + 1, character :: rest =>
    if character = '\'' then
      let (value, rest) := parseSqlStringValue rest
      String.ofList value :: parseSqlStringList fuel rest
    else parseSqlStringList fuel rest

/-- The labels of an enumeration type. -/
def parseEnumColumnType (columnType : String) : Option (List String) := do
  let start := "enum(".toList
  let text := columnType.toList
  if start.isPrefixOf text then
    let values := text.drop start.length
    if values.getLast? = some ')' then
      some (parseSqlStringList values.length values.dropLast)
    else none
  else none

/-- The ordering of a primary key column, if the table has the column. -/
def primaryKeyColumnOrdering (table : TableInventory) (name : String) : Option PrimaryKeyOrdering :=
  (table.columns.find? fun column => column.name == name).map fun column =>
    match parseEnumColumnType column.columnType with
    | some labels => .enum labels
    | none => .native

/-- The orderings of the primary key columns. -/
def primaryKeyOrderingFromInventory (table : TableInventory) : Option (List PrimaryKeyOrdering) :=
  table.primaryKey.mapM (primaryKeyColumnOrdering table)

/-! ## Compatible tables -/

/-- The columns that can be written. -/
def writableColumns (table : TableInventory) : List String :=
  (table.columns.filter fun column => column.generated.isNone).map ColumnInventory.name

/-- The character set of a collation. -/
def collationCharacterSet (collation : String) : List Char := collation.toList.takeWhile (· != '_')

def compatibleCharacterSet (source target : Option String) : Bool :=
  source.map collationCharacterSet == target.map collationCharacterSet

/-- The collation of MySQL for a collation. -/
def canonicalCollation (collation : String) : String :=
  let lowered := String.ofList (collation.toList.map Char.toLower)
  if lowered = "utf8mb4_uca1400_ai_ci" then "utf8mb4_0900_ai_ci"
  else if lowered = "utf8mb4_uca1400_as_cs" then "utf8mb4_0900_as_cs"
  else if lowered = "utf8mb3_uca1400_ai_ci" then "utf8mb3_general_ci"
  else lowered

/-- Whether two column collations name the same converged collation. -/
def collationsAreEquivalent : Option String → Option String → Bool
  | some source, some target => canonicalCollation source == canonicalCollation target
  | source, target => source == target

/-- The length in the parentheses of a type. -/
def variableLengthCapacity (columnType : String) : Nat :=
  match columnType.toList.dropWhile (· != '(') with
  | [] => usizeMax
  | _ :: suffix =>
    (parseU64 ((suffix.takeWhile (· != ')')).takeWhile (· != ','))).getD usizeMax

def integerRank (dataType : String) : Nat :=
  if dataType = "tinyint" then 1
  else if dataType = "smallint" then 2
  else if dataType = "mediumint" then 3
  else if dataType = "int" ∨ dataType = "integer" then 4
  else if dataType = "bigint" then 5
  else 0

def isUnsigned (columnType : String) : Bool := decide ("unsigned".toList <:+: columnType.toList)

def columnTypeIsCompatible (source target : ColumnInventory) : Bool :=
  if source.isNullable && !target.isNullable then false
  else if source.characterSet ≠ target.characterSet ∨
      collationsAreEquivalent source.collation target.collation = false then false
  else if source.dataType = target.dataType then
    if integerRank source.dataType > 0 then
      isUnsigned source.columnType == isUnsigned target.columnType
    else if source.dataType ∈ ["char", "varchar", "binary", "varbinary"] then
      decide (variableLengthCapacity source.columnType ≤ variableLengthCapacity target.columnType)
    else source.columnType == target.columnType
  else
    decide (integerRank source.dataType ≤ integerRank target.dataType) &&
      decide (0 < integerRank source.dataType) &&
      isUnsigned source.columnType == isUnsigned target.columnType

/-- The rows of a source table can be written to a target table. -/
def schemasAreCompatible (source target : TableInventory) : Bool :=
  source.primaryKey == target.primaryKey &&
    compatibleCharacterSet source.collation target.collation &&
    writableColumns source == writableColumns target &&
    (List.zip (source.columns.filter fun column => column.generated.isNone)
      (target.columns.filter fun column => column.generated.isNone)).all fun (source, target) =>
        columnTypeIsCompatible source target

/-! ## Entries -/

/-- Why a table cannot be synced. -/
inductive NonSyncableReason where
  | missingPrimaryKey
  | missingTargetTable
  | incompatibleSchema
  | unsupportedGeneratedColumns
  | crossSchemaDependency
  | dependencyOnNonSyncable
deriving DecidableEq, Repr

/-- The place of a reason among the reasons. -/
def NonSyncableReason.place : NonSyncableReason → Nat
  | .missingPrimaryKey => 0
  | .missingTargetTable => 1
  | .incompatibleSchema => 2
  | .unsupportedGeneratedColumns => 3
  | .crossSchemaDependency => 4
  | .dependencyOnNonSyncable => 5

instance : LinearOrder NonSyncableReason :=
  LinearOrder.lift' NonSyncableReason.place fun a b h => by
    cases a <;> cases b <;> first | rfl | cases h

/-- A table that can be synced. -/
structure SyncableTableEntry where
  name : String
  primaryKey : List String
  primaryKeyOrdering : List PrimaryKeyOrdering
  columns : List String
  estimatedSourceRows : Nat
  parentDependencies : List String
deriving DecidableEq, Repr

/-- A table that cannot be synced. -/
structure NonSyncableTableEntry where
  name : String
  estimatedSourceRows : Nat
  reasons : List NonSyncableReason
deriving DecidableEq, Repr

/-- All tables of the source. -/
structure Catalogs where
  syncable : List SyncableTableEntry
  nonSyncable : List NonSyncableTableEntry
deriving DecidableEq, Repr

/-- The reasons of a table itself, with its target table. -/
def exclusionReasons (source : TableInventory) (target : Option TableInventory) :
    List NonSyncableReason :=
  let reasons := if source.primaryKey.isEmpty then insertSorted .missingPrimaryKey [] else []
  let reasons :=
    if source.columns.any fun column => column.generated.isSome then
      insertSorted .unsupportedGeneratedColumns reasons
    else reasons
  match target with
  | none => insertSorted .missingTargetTable reasons
  | some target =>
    if schemasAreCompatible source target then reasons
    else insertSorted .incompatibleSchema reasons

/-! ## Dependencies -/

attribute [local instance] lawfulBEq_of_linearOrder

/-- Keep the first of several values with a key, in the order of the keys. -/
def entryOrInsert {κ β : Type} [LinearOrder κ] (key : κ) (value : β) (map : List (κ × β)) :
    List (κ × β) :=
  if key ∈ map.map Prod.fst then map
  else List.orderedInsert (fun a b => a.1 ≤ b.1) (key, value) map

/-- The dependencies of one inventory: those to other schemas, and one for each pair of tables of
the schema. -/
def collectDependencies (sourceSchema schema : String) :
    List ForeignKeyInventory → List (Lex (String × String) × ForeignKeyInventory) × List String →
      List (Lex (String × String) × ForeignKeyInventory) × List String
  | [], found => found
  | foreignKey :: foreignKeys, (localDependencies, crossSchemaTables) =>
    if foreignKey.referencedSchema ≠ schema then
      collectDependencies sourceSchema schema foreignKeys
        (localDependencies, insertSorted foreignKey.table crossSchemaTables)
    else
      collectDependencies sourceSchema schema foreignKeys
        (entryOrInsert (toLex (foreignKey.table, foreignKey.referencedTable))
          { foreignKey with referencedSchema := sourceSchema } localDependencies, crossSchemaTables)

/-- The source inventory with the dependencies of both inventories, and the tables that depend on
another schema. -/
def dependencyInventory (source target : SchemaInventory) : SchemaInventory × List String :=
  let found := collectDependencies source.schema source.schema source.foreignKeys ([], [])
  let found := collectDependencies source.schema target.schema target.foreignKeys found
  ({ source with foreignKeys := found.1.map Prod.snd }, found.2)

/-- The entry of a table; the source has the columns of its primary keys. -/
def syncableEntry (inventory : SchemaInventory) (table : TableInventory)
    (estimatedRows : String → Option Nat) : Option SyncableTableEntry := do
  let ordering ← primaryKeyOrderingFromInventory table
  pure
    { name := table.name
      primaryKey := table.primaryKey
      primaryKeyOrdering := ordering
      columns := writableColumns table
      estimatedSourceRows := (estimatedRows table.name).getD 0
      parentDependencies :=
        ((inventory.foreignKeys.filter fun foreignKey =>
          foreignKey.table = table.name ∧ foreignKey.referencedSchema = inventory.schema ∧
            foreignKey.referencedTable ≠ table.name).map
          ForeignKeyInventory.referencedTable).foldl (fun set name => insertSorted name set) [] }

/-- Insert or replace the value of a key. -/
def insertEntry {κ β : Type} [LinearOrder κ] (key : κ) (value : β) (map : List (κ × β)) :
    List (κ × β) :=
  entryOrInsert key value (map.filter fun entry => entry.1 ≠ key)

/-- The tables with and without reasons of their own. -/
structure Classified where
  candidates : List (String × SyncableTableEntry)
  excluded : List (String × List NonSyncableReason)
deriving DecidableEq, Repr

/-- The last table with a name. -/
def targetTable (target : SchemaInventory) (name : String) : Option TableInventory :=
  target.tables.reverse.find? fun table => table.name == name

/-- The reasons of a source table, with those from its foreign keys. -/
def sourceReasons (target : SchemaInventory) (crossSchemaTables : List String)
    (table : TableInventory) : List NonSyncableReason :=
  let reasons := exclusionReasons table (targetTable target table.name)
  if table.name ∈ crossSchemaTables then insertSorted .crossSchemaDependency reasons else reasons

/-- Classify the base tables one after the other. -/
def classifyTables (source target : SchemaInventory) (estimatedRows : String → Option Nat)
    (crossSchemaTables : List String) :
    List TableInventory → Classified → Option Classified
  | [], classified => some classified
  | table :: tables, classified =>
    if table.tableType ≠ "BASE TABLE" then
      classifyTables source target estimatedRows crossSchemaTables tables classified
    else
      match sourceReasons target crossSchemaTables table with
      | [] => do
        let entry ← syncableEntry source table estimatedRows
        classifyTables source target estimatedRows crossSchemaTables tables
          { classified with candidates := insertEntry table.name entry classified.candidates }
      | reasons =>
        classifyTables source target estimatedRows crossSchemaTables tables
          { classified with excluded := insertEntry table.name reasons classified.excluded }

def classifySourceTables (source target : SchemaInventory) (estimatedRows : String → Option Nat)
    (crossSchemaTables : List String) : Option Classified :=
  classifyTables source target estimatedRows crossSchemaTables source.tables ⟨[], []⟩

/-! ## Propagation -/

/-- The names of the base tables. -/
def baseTables (inventory : SchemaInventory) : List String :=
  (inventory.tables.filter fun table => table.tableType = "BASE TABLE").map TableInventory.name

/-- The foreign keys of base tables to other tables of the schema. -/
def tableDependencies (inventory : SchemaInventory) : List ForeignKeyInventory :=
  inventory.foreignKeys.filter fun foreignKey =>
    foreignKey.table ∈ baseTables inventory ∧ foreignKey.referencedSchema = inventory.schema ∧
      foreignKey.table ≠ foreignKey.referencedTable

/-- The tables with a parent that is not a base table or is excluded. -/
def dependentTables (inventory : SchemaInventory) (excluded : List (String × List NonSyncableReason)) :
    List String :=
  ((tableDependencies inventory).filter fun foreignKey =>
    foreignKey.referencedTable ∉ baseTables inventory ∨
      foreignKey.referencedTable ∈ excluded.map Prod.fst).foldl
    (fun set foreignKey => insertSorted foreignKey.table set) []

/-- Exclude a table because of a parent; tells whether the reason is new. -/
def excludeDependent (classified : Classified) (name : String) : Classified × Bool :=
  let reasons := (classified.excluded.lookup name).getD []
  ({ candidates := classified.candidates.filter fun entry => entry.1 ≠ name
     excluded := insertEntry name (insertSorted .dependencyOnNonSyncable reasons)
       classified.excluded },
    decide (NonSyncableReason.dependencyOnNonSyncable ∉ reasons))

/-- Exclude some tables; tells whether a reason is new. -/
def excludeDependents : Classified → List String → Classified × Bool
  | classified, [] => (classified, false)
  | classified, name :: names =>
    let (classified, changed) := excludeDependent classified name
    let (classified, changed') := excludeDependents classified names
    (classified, changed || changed')

/-- Exclude dependent tables until nothing changes. -/
def propagateLoop (inventory : SchemaInventory) : Nat → Classified → Classified
  | 0, classified => classified
  | fuel + 1, classified =>
    match excludeDependents classified (dependentTables inventory classified.excluded) with
    | (classified, true) => propagateLoop inventory fuel classified
    | (classified, false) => classified

/-- Every pass but the last gives a table a new reason. -/
def propagateNonSyncableDependencies (inventory : SchemaInventory) (classified : Classified) :
    Classified :=
  propagateLoop inventory ((tableDependencies inventory).length + 1) classified

/-! ## Catalogs -/

def sortedSyncableEntries (candidates : List (String × SyncableTableEntry)) :
    List SyncableTableEntry :=
  (candidates.map Prod.snd).insertionSort fun a b =>
    toLex (a.estimatedSourceRows, a.name) ≤ toLex (b.estimatedSourceRows, b.name)

def sortedNonSyncableEntries (excluded : List (String × List NonSyncableReason))
    (estimatedRows : String → Option Nat) : List NonSyncableTableEntry :=
  (excluded.map fun (name, reasons) =>
    (⟨name, (estimatedRows name).getD 0, reasons⟩ : NonSyncableTableEntry)).insertionSort fun a b =>
      toLex (a.estimatedSourceRows, a.name) ≤ toLex (b.estimatedSourceRows, b.name)

/-- The catalogs of a source and a target; there are none when a primary key names a column that
its table does not have. -/
def buildCatalogs (source target : SchemaInventory) (estimatedRows : String → Option Nat) :
    Option Catalogs := do
  let (dependencyInventory, crossSchemaTables) := dependencyInventory source target
  let classified ← classifySourceTables dependencyInventory target estimatedRows crossSchemaTables
  let classified := propagateNonSyncableDependencies dependencyInventory classified
  pure ⟨sortedSyncableEntries classified.candidates,
    sortedNonSyncableEntries classified.excluded estimatedRows⟩

/-! ## Validation -/

/-- Every parent is in the catalog. -/
def validateCatalogDependenciesExist (names : List String) :
    List SyncableTableEntry → Except String Unit
  | [] => .ok ()
  | entry :: entries =>
    match entry.parentDependencies.find? fun parent => parent ∉ names with
    | some parent =>
      .error s!"catalog table `{entry.name}` depends on missing parent `{parent}`"
    | none => validateCatalogDependenciesExist names entries

/-- The parents of a table of the catalog. -/
def catalogParents (tables : List SyncableTableEntry) (name : String) : List String :=
  ((tables.reverse.find? fun entry => entry.name == name).map
    SyncableTableEntry.parentDependencies).getD []

/-- Remove the tables without a remaining parent until none remains. -/
def validateCatalogLayers (tables : List SyncableTableEntry) :
    Nat → List String → Except String Unit
  | 0, _ => .ok ()
  | fuel + 1, remaining =>
    if remaining.isEmpty then .ok ()
    else
      let ready := remaining.filter fun name =>
        (catalogParents tables name).all fun parent => parent ∉ remaining
      if ready.isEmpty then .error "catalog has unresolved or cyclic dependencies"
      else validateCatalogLayers tables fuel (remaining.filter (· ∉ ready))

/-- Every layer has at least one table. -/
def validateCatalogDependenciesAreAcyclic (tables : List SyncableTableEntry)
    (names : List String) : Except String Unit :=
  validateCatalogLayers tables (names.length + 1) names

/-- The catalog can be synced. -/
def validateCatalog (tables : List SyncableTableEntry) : Except String Unit := do
  let names := (tables.map SyncableTableEntry.name).foldl (fun set name => insertSorted name set) []
  if names.length ≠ tables.length then throw "catalog contains duplicate table names"
  validateCatalogDependenciesExist names tables
  validateCatalogDependenciesAreAcyclic tables names

/-- Every parent of a selected table in its schema is selected. -/
def requireSelectedSameSchemaParents (inventory : SchemaInventory) (selected : List String) :
    Except String Unit :=
  match inventory.foreignKeys.find? fun foreignKey =>
    foreignKey.table ∈ selected ∧ foreignKey.referencedSchema = inventory.schema ∧
      foreignKey.referencedTable ∉ selected with
  | some foreignKey =>
    .error (s!"selected source table `{foreignKey.table}` depends on unselected source table " ++
      s!"`{foreignKey.referencedTable}`")
  | none => .ok ()

end BinlogCdc
