import BinlogCdc.Sync.TableCatalog

/-!
# Schema inventories

What the schema planner knows of a schema: its tables with their columns, and the indexes
and foreign keys. The primary key of a table is listed with the table and not among the
indexes.
-/

namespace BinlogCdc.SyncSchema

/-- A column with everything that its definition says. -/
structure ColumnInventory where
  name : String
  ordinalPosition : Nat
  columnType : String
  dataType : String
  isNullable : Bool
  characterSet : Option String
  collation : Option String
  defaultValue : Option String
  extra : String
  comment : String
  generated : Option GeneratedColumn
deriving DecidableEq, Repr

structure TableInventory where
  name : String
  tableType : String
  engine : Option String
  collation : Option String
  primaryKey : List String
  columns : List ColumnInventory
deriving DecidableEq, Repr

structure IndexColumnInventory where
  name : String
  sequence : Nat
  prefixLength : Option Nat
  collation : Option String
  order : String
deriving DecidableEq, Repr

structure IndexInventory where
  table : String
  name : String
  unique : Bool
  indexType : String
  visible : Bool
  comment : Option String
  columns : List IndexColumnInventory
deriving DecidableEq, Repr

/-- The parts of a schema that the planner converges. -/
structure SchemaInventory where
  schema : String
  tables : List TableInventory
  indexes : List IndexInventory
  foreignKeys : List ForeignKeyInventory
deriving DecidableEq, Repr

/-- The indexes of a table. -/
def indexesFor (inventory : SchemaInventory) (table : String) : List IndexInventory :=
  inventory.indexes.filter fun index => decide (index.table = table)

theorem mem_indexesFor {inventory : SchemaInventory} {table : String} {index : IndexInventory} :
    index ∈ indexesFor inventory table ↔ index ∈ inventory.indexes ∧ index.table = table := by
  simp [indexesFor]

end BinlogCdc.SyncSchema
