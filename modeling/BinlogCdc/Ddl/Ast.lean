import BinlogCdc.Sql.Statement

/-!
# Syntax trees of the DDL statements

The trees the parsers of the DDL grammar return, the renderers print and the state prediction
interprets. Names, types and literals are texts as the source spells them.
-/

namespace BinlogCdc

namespace Ddl

/-- A column of an index, with its order as words and as the letter of the server's metadata. -/
structure ParsedIndexKeyPart where
  column : Text
  prefixLength : Option Nat
  order : Text
  collation : Option Text
  deriving DecidableEq, Repr

/-- An index of a table. -/
structure ParsedIndexAst where
  create : Bool
  name : Text
  table : Text
  unique : Bool
  indexType : Text
  visible : Bool
  comment : Option Text
  keyParts : List ParsedIndexKeyPart
  deriving DecidableEq, Repr

/-- A right-hand side in a generation expression. -/
inductive GeneratedOperand where
  | string (value : Text)
  | integer (value : Nat)
  deriving DecidableEq, Repr

/-- The conditional generation expression: a value if all equalities hold, else null. -/
structure ParsedStoredIfExpression where
  equalities : List (Text × GeneratedOperand)
  thenValue : Nat
  deriving DecidableEq, Repr

/-- The stored generation expressions that are modeled. -/
inductive ParsedStoredGeneration where
  | condition (expression : ParsedStoredIfExpression)
  | coalesceEmpty (column : Text)
  deriving DecidableEq, Repr

/-- A bounded CHECK predicate. -/
inductive CheckPredicate where
  | isNull (column : Text)
  | jsonValid (column : Text)
  | octetLengthAtMost (column : Text) (limit : Nat)
  | inStrings (column : Text) (values : List Text)
  | stringEquals (column value : Text)
  | and (left right : CheckPredicate)
  | or (left right : CheckPredicate)
  | booleanEquals (left right : CheckPredicate)
  deriving DecidableEq, Repr

/-- A named CHECK, a disjunction of its predicates. -/
structure ParsedCheckConstraintAst where
  name : Text
  disjuncts : List CheckPredicate
  deriving DecidableEq, Repr

/-- A foreign key within the schema. -/
structure ParsedCreateForeignKeyAst where
  name : Text
  columns : List Text
  referencedTable : Text
  referencedColumns : List Text
  deleteRule : Text
  deriving DecidableEq, Repr

/-- A column definition of an ALTER clause. -/
structure ParsedAddColumnAst where
  name : Text
  ifNotExists : Bool
  columnType : Text
  dataType : Text
  nullable : Bool
  defaultValue : Option Text
  comment : Text
  after : Option Text
  first : Bool
  characterSet : Option Text
  collation : Option Text
  generated : Option ParsedStoredGeneration
  deriving DecidableEq, Repr

/-- A dropped column or index. -/
structure ParsedDropAst where
  name : Text
  ifExists : Bool
  deriving DecidableEq, Repr

/-- The algorithm option of an ALTER. -/
inductive ParsedAlterAlgorithm where
  | inplace
  | instant
  | copy
  deriving DecidableEq, Repr

/-- The lock option of an ALTER. -/
inductive ParsedAlterLock where
  | none
  | shared
  deriving DecidableEq, Repr

/-- A default that an ALTER COLUMN sets. -/
inductive ParsedColumnDefault where
  | string (value : Text)
  | number (value : Text)
  | null
  deriving DecidableEq, Repr

/-- One clause of an ALTER TABLE. -/
inductive ParsedAlterClause where
  | addColumn (column : ParsedAddColumnAst)
  | modifyColumn (column : ParsedAddColumnAst)
  | changeColumn (oldName : Text) (column : ParsedAddColumnAst)
  | alterColumnDefault (name : Text) (default : Option ParsedColumnDefault)
  | renameColumn (oldName newName : Text)
  | addKey (index : ParsedIndexAst) (ifNotExists : Bool)
  | addCheck (constraint : ParsedCheckConstraintAst) (ifNotExists : Bool)
  | addForeignKey (key : ParsedCreateForeignKeyAst)
  | dropColumn (column : ParsedDropAst)
  | dropIndex (index : ParsedDropAst)
  deriving DecidableEq, Repr

/-- An ALTER TABLE. -/
structure ParsedAlterTableAst where
  table : Text
  clauses : List ParsedAlterClause
  algorithm : Option ParsedAlterAlgorithm
  lock : Option ParsedAlterLock
  deriving DecidableEq, Repr

end Ddl

end BinlogCdc
