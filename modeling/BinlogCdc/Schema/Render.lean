import BinlogCdc.Schema.Canonical
import BinlogCdc.Schema.Execution

/-!
# Schema statements

The statements that the planner can emit, with the text that each is rendered to before it is
translated for the target.
-/

namespace BinlogCdc.SyncSchema

/-- A foreign key with its rules, as both endpoints report it. -/
structure CanonicalForeignKey where
  constraintSchema : String
  constraintName : String
  childSchema : String
  childTable : String
  childColumns : List String
  parentSchema : String
  parentTable : String
  parentColumns : List String
  updateRule : String
  deleteRule : String
  matchOption : String
  enforced : Bool
deriving DecidableEq, Repr

structure CheckConstraint where
  table : String
  name : String
  clause : String
deriving DecidableEq, Repr

/-- A statement before its translation. A column is added or moved first, or after another. -/
inductive SchemaAction where
  | createTable (table : TableInventory) (indexes : List IndexInventory)
  | tableOptions (table : TableInventory)
  | dropColumn (table column : String)
  | addColumn (table : String) (column : ColumnInventory) (previous : Option String)
  | modifyColumn (table : String) (column : ColumnInventory) (previous : Option String)
  | dropIndex (table index : String)
  | createIndex (index : IndexInventory)
  | dropPrimaryKey (table : String)
  | addPrimaryKey (table : String) (columns : List String)
  | dropForeignKey (table name : String)
  | addForeignKey (schema : String) (key : ForeignKeyInventory)
  | addCanonicalForeignKey (schema : String) (key : CanonicalForeignKey)
  | dropCheck (table name : String)
  | addCheck (check : CheckConstraint)
deriving DecidableEq, Repr

/-! ## Texts -/

def quoted (name : String) : String := "`" ++ name ++ "`"

def quotedList (columns : List String) : String := ",".intercalate (columns.map quoted)

def replaceText (pattern replacement text : String) : String :=
  String.ofList (Text.replace pattern.toList replacement.toList text.toList)

def doubleQuotes (text : String) : String := replaceText "'" "''" text

def escapeMysqlString (value : String) : String := doubleQuotes (replaceText "\\" "\\\\" value)

def isBitLiteral (default : Text) : Bool :=
  decide (3 < default.length) && "b'".toList.isPrefixOf default &&
    decide (default.getLast? = some singleQuote) &&
    (default.drop 2).dropLast.all fun character => character == '0' || character == '1'

def isSqlLiteral (default : Text) : Bool := isBitLiteral default || (quotedLiteralBody default).isSome

def renderDefault (default : String) : String :=
  let text := default.toList
  if Text.eqIgnoreAsciiCase text "current_timestamp".toList ||
      "current_timestamp(".toList.isPrefixOf (Text.toAsciiLowercase text) ||
      Text.eqIgnoreAsciiCase text "null".toList then
    String.ofList (Text.toAsciiUppercase text)
  else if isSqlLiteral text then default
  else "'" ++ doubleQuotes default ++ "'"

/-- The part of an extra text that updates the column with its row. -/
def onUpdatePart (extra : String) : Option String :=
  let lowered := Text.toAsciiLowercase extra.toList
  (Text.splitOnce "on update".toList lowered).map fun (before, _) =>
    String.ofList (extra.toList.drop before.length)

def isAutoIncrement (extra : String) : Bool :=
  Text.contains "auto_increment".toList (Text.toAsciiLowercase extra.toList)

/-- The definition of a column; that of a generated column ends with its expression. -/
def renderColumn (column : ColumnInventory) : String :=
  let rendered := quoted column.name ++ " " ++
    String.ofList (uppercaseTypeName column.columnType.toList)
  let rendered := rendered ++ (column.characterSet.elim "" fun set => " CHARACTER SET " ++ set)
  let rendered := rendered ++
    (column.collation.elim "" fun collation => " COLLATE " ++ canonicalCollation collation)
  match column.generated with
  | some generated =>
    rendered ++ " GENERATED ALWAYS AS (" ++ generated.expression ++ ") " ++
      String.ofList (Text.toAsciiUppercase generated.generationKind.toList)
  | none =>
    let rendered := rendered ++ if column.isNullable then " NULL" else " NOT NULL"
    let rendered := rendered ++
      match column.defaultValue with
      | some default => " DEFAULT " ++ renderDefault default
      | none => if column.isNullable then " DEFAULT NULL" else ""
    let rendered := rendered ++ if isAutoIncrement column.extra then " AUTO_INCREMENT" else ""
    let rendered := rendered ++ ((onUpdatePart column.extra).elim "" fun part => " " ++ part)
    if column.comment.toList.isEmpty then rendered
    else rendered ++ " COMMENT '" ++ doubleQuotes column.comment ++ "'"

def renderIndexColumn (column : IndexColumnInventory) : String :=
  let length := column.prefixLength.elim "" fun length => "(" ++ toString length ++ ")"
  let order := if column.order.toList.isEmpty then "" else " " ++ column.order
  quoted column.name ++ length ++ order

/-- The visibility and the comment of an index. -/
def renderIndexOptions (index : IndexInventory) : String :=
  let comment :=
    match index.comment with
    | some comment =>
      if comment.toList.isEmpty then "" else " COMMENT '" ++ escapeMysqlString comment ++ "'"
    | none => ""
  " USING " ++ index.indexType ++ (if index.visible then "" else " INVISIBLE") ++ comment

def renderCreateIndex (index : IndexInventory) : String :=
  "CREATE " ++ (if index.unique then "UNIQUE " else "") ++ "INDEX " ++ quoted index.name ++ " ON " ++
    quoted index.table ++ " (" ++ ",".intercalate (index.columns.map renderIndexColumn) ++ ")" ++
    renderIndexOptions index

def renderInlineIndex (index : IndexInventory) : String :=
  (if index.unique then "UNIQUE " else "") ++ "KEY " ++ quoted index.name ++ " (" ++
    ",".intercalate (index.columns.map renderIndexColumn) ++ ")" ++ renderIndexOptions index

/-- The default character set and collation of a table. -/
def renderCollation (collation : Option String) : String :=
  collation.elim "" fun collation =>
    let collation := canonicalCollation collation
    " DEFAULT CHARACTER SET=" ++ String.ofList (collation.toList.takeWhile (· != '_')) ++
      " COLLATE=" ++ collation

def renderTableOptions (table : TableInventory) : String :=
  "ENGINE=" ++ table.engine.getD "InnoDB" ++ renderCollation table.collation

def renderCreateTable (table : TableInventory) (indexes : List IndexInventory) : String :=
  let definitions := table.columns.map renderColumn
  let definitions := definitions ++
    if table.primaryKey.isEmpty then []
    else ["PRIMARY KEY (" ++ quotedList table.primaryKey ++ ")"]
  let definitions := definitions ++ indexes.map renderInlineIndex
  "CREATE TABLE " ++ quoted table.name ++ " (" ++ ", ".intercalate definitions ++ ") " ++
    renderTableOptions table

/-- Where a column goes. -/
def renderPosition (previous : Option String) : String :=
  previous.elim " FIRST" fun previous => " AFTER " ++ quoted previous

/-- Stands for the database of the endpoint itself. -/
def ownSchema : String := "<own schema>"

def referencedTableReference (schema referencedSchema referencedTable : String) : String :=
  if referencedSchema = schema ∨ referencedSchema = ownSchema then quoted referencedTable
  else quoted referencedSchema ++ "." ++ quoted referencedTable

def renderForeignKey (schema : String) (key : ForeignKeyInventory) : String :=
  "ALTER TABLE " ++ quoted key.table ++ " ADD CONSTRAINT " ++ quoted key.name ++
    " FOREIGN KEY (" ++ quotedList key.columns ++ ") REFERENCES " ++
    referencedTableReference schema key.referencedSchema key.referencedTable ++ " (" ++
    quotedList key.referencedColumns ++ ")"

def renderCanonicalForeignKey (schema : String) (key : CanonicalForeignKey) : String :=
  "ALTER TABLE " ++ quoted key.childTable ++ " ADD CONSTRAINT " ++ quoted key.constraintName ++
    " FOREIGN KEY (" ++ quotedList key.childColumns ++ ") REFERENCES " ++
    referencedTableReference schema key.parentSchema key.parentTable ++ " (" ++
    quotedList key.parentColumns ++ ") ON UPDATE " ++ key.updateRule ++ " ON DELETE " ++
    key.deleteRule

/-- The text of a statement before its translation. -/
def SchemaAction.sql : SchemaAction → String
  | .createTable table indexes => renderCreateTable table indexes
  | .tableOptions table => "ALTER TABLE " ++ quoted table.name ++ " " ++ renderTableOptions table
  | .dropColumn table column =>
    "ALTER TABLE " ++ quoted table ++ " DROP COLUMN IF EXISTS " ++ quoted column
  | .addColumn table column previous =>
    "ALTER TABLE " ++ quoted table ++ " ADD COLUMN " ++ renderColumn column ++
      renderPosition previous
  | .modifyColumn table column previous =>
    "ALTER TABLE " ++ quoted table ++ " MODIFY COLUMN " ++ renderColumn column ++
      renderPosition previous
  | .dropIndex table index => "DROP INDEX " ++ quoted index ++ " ON " ++ quoted table
  | .createIndex index => renderCreateIndex index
  | .dropPrimaryKey table => "ALTER TABLE " ++ quoted table ++ " DROP PRIMARY KEY"
  | .addPrimaryKey table columns =>
    "ALTER TABLE " ++ quoted table ++ " ADD PRIMARY KEY (" ++ quotedList columns ++ ")"
  | .dropForeignKey table name =>
    "ALTER TABLE " ++ quoted table ++ " DROP FOREIGN KEY " ++ quoted name
  | .addForeignKey schema key => renderForeignKey schema key
  | .addCanonicalForeignKey schema key => renderCanonicalForeignKey schema key
  | .dropCheck table name => "ALTER TABLE " ++ quoted table ++ " DROP CHECK " ++ quoted name
  | .addCheck check =>
    "ALTER TABLE " ++ quoted check.table ++ " ADD CONSTRAINT " ++ quoted check.name ++
      " CHECK (" ++ check.clause ++ ")"

end BinlogCdc.SyncSchema
