import BinlogCdc.Schema.Inventory
import BinlogCdc.Sql.Statement

/-!
# Canonical columns

Source and target describe an identical column differently: display widths of integers, the
spelling of defaults and of the current timestamp, markers in the extra text, collation names and
the parentheses of expressions. Columns are compared by a form that leaves these out.
-/

namespace BinlogCdc

namespace Text

def toAsciiLowercase (text : Text) : Text := text.map Char.toLower

theorem toAsciiLowercase_append (front back : Text) :
    toAsciiLowercase (front ++ back) = toAsciiLowercase front ++ toAsciiLowercase back :=
  List.map_append

/-- Replace all occurrences of a pattern, from the left; a match takes the given number of further
characters. -/
def replaceFrom (pattern replacement : Text) : Nat → Text → Text
  | _, [] => []
  | skip + 1, _ :: rest => replaceFrom pattern replacement skip rest
  | 0, character :: rest =>
    if pattern.isPrefixOf (character :: rest) then
      replacement ++ replaceFrom pattern replacement (pattern.length - 1) rest
    else character :: replaceFrom pattern replacement 0 rest

def replace (pattern replacement text : Text) : Text := replaceFrom pattern replacement 0 text

/-- The pattern occurs in the text. -/
def contains (pattern : Text) : Text → Bool
  | [] => pattern.isEmpty
  | character :: rest => pattern.isPrefixOf (character :: rest) || contains pattern rest

end Text

namespace SyncSchema

/-! ## Expressions -/

/-- The characters that the canonical form of an expression leaves out. -/
def isFormatting (character : Char) : Bool :=
  character == '(' || character == ')' || character == ' ' || character == '\t' ||
    character == '\n' || character == backslash

/-- A character set introducer starts here. -/
def isIntroducer (text : Text) : Bool :=
  "_utf8mb4".toList.isPrefixOf text || "_utf8mb3".toList.isPrefixOf text

/-- The canonical form of a lowercase expression; an introducer takes seven further characters. -/
def canonicalExpressionFrom : Nat → Text → Text
  | _, [] => []
  | skip + 1, _ :: rest => canonicalExpressionFrom skip rest
  | 0, character :: rest =>
    if isIntroducer (character :: rest) then canonicalExpressionFrom 7 rest
    else if isFormatting character then canonicalExpressionFrom 0 rest
    else character :: canonicalExpressionFrom 0 rest

def canonicalSqlExpression (expression : String) : String :=
  String.ofList (canonicalExpressionFrom 0 (Text.toAsciiLowercase expression.toList))

/-! ## Types -/

/-- A type around its parameters: the text before the first opening parenthesis, the parameters
with their parentheses, and the text after the last closing parenthesis. -/
def typeParameterSpan (columnType : Text) : Option (Text × Text × Text) := do
  let start ← columnType.findIdx? (· == '(')
  let fromEnd ← columnType.reverse.findIdx? (· == ')')
  let close := columnType.length - 1 - fromEnd
  if start < close then
    some (columnType.take start, (columnType.take (close + 1)).drop start,
      columnType.drop (close + 1))
  else none

/-- Change the case of a type, but not of its parameters. -/
def recaseTypeName (columnType : Text) (recase : Text → Text) : Text :=
  match typeParameterSpan columnType with
  | some (before, parameters, after) => recase before ++ parameters ++ recase after
  | none => recase columnType

def uppercaseTypeName (columnType : Text) : Text := recaseTypeName columnType Text.toAsciiUppercase

def integerTypes : List String := ["tinyint", "smallint", "mediumint", "int", "integer", "bigint"]

/-- Integer types lose their display width. -/
def canonicalColumnType (columnType : String) : String :=
  let lowered := recaseTypeName columnType.toList Text.toAsciiLowercase
  match typeParameterSpan lowered with
  | none => String.ofList lowered
  | some (before, _, after) =>
    let base := Text.trimEndMatches Text.isWhitespace before
    if String.ofList base ∈ integerTypes then
      let suffix := Text.trimStart after
      if suffix.isEmpty then String.ofList base else String.ofList (base ++ ' ' :: suffix)
    else String.ofList lowered

/-! ## Defaults and the extra text -/

/-- The characters of a quoted literal up to its closing quote, with doubled quotes as one. -/
def quotedBody : Text → Option Text
  | [] => some []
  | character :: rest =>
    if character = singleQuote then
      match rest with
      | [] => none
      | next :: rest =>
        if next = singleQuote then (quotedBody rest).map (singleQuote :: ·) else none
    else if character = backslash then
      match rest with
      | [] => none
      | next :: rest => (quotedBody rest).map fun body => backslash :: next :: body
    else (quotedBody rest).map (character :: ·)

/-- The body of a text that is one quoted literal. -/
def quotedLiteralBody (value : Text) : Option Text :=
  match value with
  | [] => none
  | character :: rest =>
    if character = singleQuote ∧ rest.getLast? = some singleQuote then quotedBody rest.dropLast
    else none

def canonicalCurrentTimestamp (value : Text) : Text :=
  let lowered := Text.toAsciiLowercase value
  if "current_timestamp".toList.isPrefixOf lowered then
    if lowered = "current_timestamp()".toList then "current_timestamp".toList else lowered
  else value

def canonicalDefault (default : Option String) : Option String :=
  match default with
  | none => none
  | some default =>
    if Text.eqIgnoreAsciiCase default.toList "null".toList then none
    else
      match quotedLiteralBody default.toList with
      | some body => some (String.ofList body)
      | none => some (String.ofList (canonicalCurrentTimestamp default.toList))

def canonicalExtra (extra : String) : String :=
  let lowered := Text.toAsciiLowercase extra.toList
  let unmarked := Text.replace "default_generated".toList [] lowered
  let stamped :=
    Text.replace "current_timestamp()".toList "current_timestamp".toList unmarked
  String.ofList ([' '].intercalate (Text.splitWhitespace stamped))

/-! ## Columns -/

/-- The column as the target describes it. -/
def observedTargetColumn (column : ColumnInventory) : ColumnInventory :=
  { column with
    columnType := canonicalColumnType column.columnType
    dataType := String.ofList (Text.toAsciiLowercase column.dataType.toList)
    defaultValue := canonicalDefault column.defaultValue
    extra := canonicalExtra column.extra
    collation := column.collation.map canonicalCollation
    generated := column.generated.map fun generated =>
      { expression := canonicalSqlExpression generated.expression
        generationKind :=
          String.ofList (Text.toAsciiLowercase generated.generationKind.toList) } }

/-- The column that the translated definition produces. -/
def expectedTargetColumn (source : ColumnInventory) : ColumnInventory := observedTargetColumn source

def columnsEqual (source target : ColumnInventory) : Bool :=
  decide (expectedTargetColumn source = observedTargetColumn target)

end SyncSchema

end BinlogCdc
