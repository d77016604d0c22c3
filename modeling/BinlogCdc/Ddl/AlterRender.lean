import BinlogCdc.Ddl.AlterGrammar

/-!
# Rendering ALTER TABLE for the target

The clauses of a tree as the target reads them: identifiers in back quotes, no guards, and the
JSON type as a long text with a check.
-/

namespace BinlogCdc

namespace Ddl

open Text

/-- A type text for the target; the labels of an enumeration keep their case. -/
def renderColumnType (columnType : Text) : Text :=
  match stripPrefix? "enum(".toList columnType with
  | some labels => "ENUM(".toList ++ labels
  | none => toAsciiUppercase columnType

/-- The character set and collation of a column, if both are known. -/
def renderColumnEncoding (characterSet collation : Option Text) : Text :=
  match characterSet, collation with
  | some characterSet, some collation =>
    " CHARACTER SET ".toList ++ characterSet ++ " COLLATE ".toList ++ collation
  | _, _ => []

/-- The expression default of a text column. -/
def textExpressionDefault (value : Text) : Text :=
  "(_utf8mb4".toList ++ quoteStringLiteral value ++ [')']

/-- The data types whose defaults are string literals. -/
def takesStringDefault (dataType : Text) : Bool :=
  (["char", "varchar", "binary", "varbinary", "date", "datetime", "time", "timestamp",
    "year"].map (·.toList)).contains dataType

/-- A default value in a column definition. -/
def renderDefaultValue (dataType : Text) : Option Text → Text
  | none => "NULL".toList
  | some value =>
    if isTextType dataType then textExpressionDefault value
    else if takesStringDefault dataType then quoteStringLiteral value
    else value

/-- The nullability and default of a column, or its generation. -/
def renderColumnAttributes (column : ParsedAddColumnAst) (dataType : Text) : Text :=
  let nullability := if column.nullable then "NULL".toList else "NOT NULL".toList
  match column.generated with
  | some expression =>
    "GENERATED ALWAYS AS (".toList ++ renderGenerationSql expression ++ ") STORED".toList
  | none =>
    if !column.nullable && column.defaultValue.isNone then nullability
    else nullability ++ " DEFAULT ".toList ++ renderDefaultValue dataType column.defaultValue

/-- The comment of a column, if it has one. -/
def renderColumnComment (comment : Text) : Text :=
  if comment.isEmpty then [] else " COMMENT ".toList ++ quoteStringLiteral comment

/-- The position of a column, if it has one. -/
def renderColumnPosition (column : ParsedAddColumnAst) : Text :=
  if column.first then " FIRST".toList
  else
    match column.after with
    | some after => " AFTER ".toList ++ quoteIdentifier after
    | none => []

/-- A column definition after its verb. -/
def renderAddColumn (verb : Text) (column : ParsedAddColumnAst) : Text :=
  let json := column.dataType == "json".toList
  let dataType := if json then "longtext".toList else column.dataType
  let columnType := if json then "longtext".toList else column.columnType
  verb ++ ' ' :: quoteIdentifier column.name ++ ' ' :: renderColumnType columnType ++
    renderColumnEncoding column.characterSet column.collation ++
    ' ' :: renderColumnAttributes column dataType ++ renderColumnComment column.comment ++
    renderColumnPosition column ++
    if json then ", ADD CHECK (JSON_VALID(".toList ++ quoteIdentifier column.name ++ "))".toList
    else []

/-- A key column with its order. -/
def renderKeyPart (part : ParsedIndexKeyPart) : Text :=
  quoteIdentifier part.column ++ if part.order == "DESC".toList then " DESC".toList else []

/-- A key. -/
def renderAddKey (index : ParsedIndexAst) : Text :=
  "ADD ".toList ++ (if index.unique then "UNIQUE KEY".toList else "KEY".toList) ++
    ' ' :: quoteIdentifier index.name ++ " (".toList ++
    ", ".toList.intercalate (index.keyParts.map renderKeyPart) ++ [')']

/-- A foreign key. -/
def renderCreateForeignKey (key : ParsedCreateForeignKeyAst) : Text :=
  "CONSTRAINT ".toList ++ quoteIdentifier key.name ++ " FOREIGN KEY (".toList ++
    ", ".toList.intercalate (key.columns.map quoteIdentifier) ++ ") REFERENCES ".toList ++
    quoteIdentifier key.referencedTable ++ " (".toList ++
    ", ".toList.intercalate (key.referencedColumns.map quoteIdentifier) ++
    ") ON DELETE ".toList ++ key.deleteRule

/-- The literal of an ALTER COLUMN default. -/
def renderAlterDefault : ParsedColumnDefault → Text
  | .string value => quoteStringLiteral value
  | .number value => value
  | .null => "NULL".toList

/-- One clause. -/
def renderProductionAlterClause : ParsedAlterClause → Text
  | .addColumn column => renderAddColumn "ADD COLUMN".toList column
  | .modifyColumn column => renderAddColumn "MODIFY COLUMN".toList column
  | .changeColumn oldName column =>
    renderAddColumn ("CHANGE COLUMN ".toList ++ quoteIdentifier oldName) column
  | .alterColumnDefault name default =>
    "ALTER COLUMN ".toList ++ quoteIdentifier name ++ ' ' ::
      match default with
      | none => "DROP DEFAULT".toList
      | some value => "SET DEFAULT ".toList ++ renderAlterDefault value
  | .renameColumn oldName newName =>
    "RENAME COLUMN ".toList ++ quoteIdentifier oldName ++ " TO ".toList ++ quoteIdentifier newName
  | .addKey index _ => renderAddKey index
  | .addCheck constraint _ => "ADD ".toList ++ renderCheckConstraint constraint
  | .addForeignKey key => "ADD ".toList ++ renderCreateForeignKey key
  | .dropColumn column => "DROP COLUMN ".toList ++ quoteIdentifier column.name
  | .dropIndex index => "DROP INDEX ".toList ++ quoteIdentifier index.name

/-- The name of an algorithm. -/
def ParsedAlterAlgorithm.asStr : ParsedAlterAlgorithm → String
  | .inplace => "inplace"
  | .instant => "instant"
  | .copy => "copy"

/-- The name of a lock. -/
def ParsedAlterLock.asStr : ParsedAlterLock → String
  | .none => "none"
  | .shared => "shared"

/-- A statement with rendered clauses and the options of a tree. -/
def renderAlterTableClauses (ast : ParsedAlterTableAst) (clauses : List Text) : Text :=
  let algorithm := ast.algorithm.toList.map fun algorithm =>
    "ALGORITHM=".toList ++ toAsciiUppercase algorithm.asStr.toList
  let lock := ast.lock.toList.map fun lock => "LOCK=".toList ++ toAsciiUppercase lock.asStr.toList
  "ALTER TABLE ".toList ++ quoteIdentifier ast.table ++ ' ' ::
    ", ".toList.intercalate (clauses ++ algorithm ++ lock)

/-- The statement of a tree. -/
def renderProductionAlterTable (ast : ParsedAlterTableAst) : Text :=
  renderAlterTableClauses ast (ast.clauses.map renderProductionAlterClause)

end Ddl

end BinlogCdc
