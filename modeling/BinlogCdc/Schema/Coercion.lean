import BinlogCdc.Schema.Canonical

/-!
# Coercion of stored values

Before a column of the target is changed, the planner decides whether its stored values must be
checked, and builds the predicate that finds the values that do not fit the new type.
-/

namespace BinlogCdc.SyncSchema

/-- The text after a start and before an end. -/
def stripAround (start finish text : Text) : Option Text :=
  if start.isPrefixOf text then
    let rest := text.drop start.length
    if finish.isSuffixOf rest then some (rest.take (rest.length - finish.length)) else none
  else none

def isAsciiWhitespace (character : Char) : Bool :=
  character == ' ' || character == '\t' || character == '\n' || character == '\r' ||
    character == Char.ofNat 12

/-- The data type in lowercase, with the timestamp as a datetime. -/
def normalizedDataType (column : ColumnInventory) : String :=
  if Text.eqIgnoreAsciiCase column.dataType.toList "timestamp".toList then "datetime"
  else String.ofList (Text.toAsciiLowercase column.dataType.toList)

def varcharLength (column : ColumnInventory) : Option Nat := do
  let length ← stripAround "varchar(".toList [')'] (Text.toAsciiLowercase column.columnType.toList)
  parseU64 length

def isUnsigned (column : ColumnInventory) : Bool :=
  (column.columnType.toList.splitOnP isAsciiWhitespace).any fun part =>
    Text.eqIgnoreAsciiCase part "unsigned".toList

/-- The precision and the scale of a decimal type. -/
def decimalShape (column : ColumnInventory) : Option (Nat × Nat) := do
  let shape ← stripAround "decimal(".toList [')'] (Text.toAsciiLowercase column.columnType.toList)
  match shape.splitOn ',' with
  | precision :: scale :: _ =>
    let precision ← parseU64 (Text.trim precision)
    let scale ← parseU64 (Text.trim scale)
    some (precision, scale)
  | _ => none

def integerRank (dataType : String) : Option Nat :=
  if dataType = "tinyint" then some 1
  else if dataType = "smallint" then some 2
  else if dataType = "mediumint" then some 3
  else if dataType = "int" ∨ dataType = "integer" then some 4
  else if dataType = "bigint" then some 5
  else none

/-- The labels of the target come first, and there are more. -/
def enumLabelsAreAppended (source target : ColumnInventory) : Bool :=
  match parseEnumColumnType source.columnType, parseEnumColumnType target.columnType with
  | some sourceLabels, some targetLabels =>
    decide (targetLabels.length < sourceLabels.length) && targetLabels.isPrefixOf sourceLabels
  | _, _ => false

/-- Subtraction of 64-bit numbers, which wraps. -/
def wrappingSub (a b : Nat) : Nat := (a + 2 ^ 64 - b) % 2 ^ 64

/-- The digits before the point, or those after it, become fewer. -/
def decimalNarrows (source target : Nat × Nat) : Bool :=
  decide (wrappingSub source.1 source.2 < wrappingSub target.1 target.2) ||
    decide (source.2 < target.2)

/-- Whether the stored values must be checked when the normalized types agree. -/
def sameTypeRequiresPreflight (source target : ColumnInventory) (dataType : String) : Bool :=
  if source.characterSet ≠ target.characterSet ∨
      source.collation.map canonicalCollation ≠ target.collation.map canonicalCollation then true
  else if dataType = "enum" ∧ enumLabelsAreAppended source target then false
  else
    match varcharLength source, varcharLength target with
    | some sourceLength, some targetLength => decide (sourceLength < targetLength)
    | _, _ =>
      if (integerRank dataType).isSome then isUnsigned source != isUnsigned target
      else if dataType = "decimal" then
        match decimalShape source, decimalShape target with
        | some sourceShape, some targetShape => decimalNarrows sourceShape targetShape
        | _, _ => true
      else
        let isTimestampMapping :=
          Text.eqIgnoreAsciiCase source.dataType.toList "timestamp".toList &&
            Text.eqIgnoreAsciiCase target.dataType.toList "datetime".toList
        !isTimestampMapping &&
          !Text.eqIgnoreAsciiCase source.columnType.toList target.columnType.toList

/-- Whether the stored values must be checked before a column is changed. -/
def columnChangeRequiresDataPreflight (source target : ColumnInventory) : Bool :=
  if columnsEqual source target then false
  else if source.generated ≠ target.generated then true
  else if target.isNullable && !source.isNullable then true
  else
    let sourceType := normalizedDataType source
    let targetType := normalizedDataType target
    if sourceType = targetType then sameTypeRequiresPreflight source target sourceType
    else
      match integerRank sourceType, integerRank targetType with
      | some sourceRank, some targetRank =>
        (isUnsigned source != isUnsigned target) || decide (sourceRank < targetRank)
      | _, _ => true

/-- Conversions that no stored value can violate. -/
def conversionIsProvablySafe (source target : ColumnInventory) : Bool :=
  Text.eqIgnoreAsciiCase target.dataType.toList "json".toList &&
    Text.eqIgnoreAsciiCase source.dataType.toList "longtext".toList &&
    decide (source.generated = target.generated) && (source.isNullable || !target.isNullable)

/-! ## Predicates -/

/-- A condition on a stored value that does not fit. -/
inductive BlockerPredicate where
  | isNull
  | charLengthAbove (length : Nat)
  | outside (minimum maximum : Int)
  | decimalOutside (integerDigits scale : Nat)
deriving DecidableEq, Repr

def decimalMaximum (integerDigits scale : Nat) : String :=
  if scale = 0 then String.ofList (List.replicate integerDigits '9')
  else String.ofList (List.replicate integerDigits '9' ++ '.' :: List.replicate scale '9')

def BlockerPredicate.render (column : String) : BlockerPredicate → String
  | .isNull => column ++ " IS NULL"
  | .charLengthAbove length => "CHAR_LENGTH(" ++ column ++ ") > " ++ toString length
  | .outside minimum maximum =>
    column ++ " < " ++ toString minimum ++ " OR " ++ column ++ " > " ++ toString maximum
  | .decimalOutside integerDigits scale =>
    let maximum := decimalMaximum integerDigits scale
    column ++ " < -" ++ maximum ++ " OR " ++ column ++ " > " ++ maximum ++ " OR " ++ column ++
      " <> ROUND(" ++ column ++ ", " ++ toString scale ++ ")"

def validatePredicateMetadata (source target : ColumnInventory) : Except String Unit :=
  if source.generated ≠ target.generated then
    .error "generated-column conversion has no safe target-data predicate"
  else if source.characterSet ≠ target.characterSet ∨ source.collation ≠ target.collation then
    .error "character set or collation conversion requires explicit validation"
  else .ok ()

def nullabilityPredicates (source target : ColumnInventory) : List BlockerPredicate :=
  if target.isNullable && !source.isNullable then [.isNull] else []

def varcharCoercionPredicates (source target : ColumnInventory) :
    Except String (List BlockerPredicate) :=
  match varcharLength source, varcharLength target with
  | some sourceLength, some targetLength =>
    .ok (if sourceLength < targetLength then [.charLengthAbove sourceLength] else [])
  | _, _ => .error "VARCHAR length metadata is incomplete"

def decimalCoercionPredicates (source : ColumnInventory) :
    Except String (List BlockerPredicate) :=
  match decimalShape source with
  | some (precision, scale) => .ok [.decimalOutside (precision - scale) scale]
  | none => .error "DECIMAL shape metadata is incomplete"

def integerBounds (column : ColumnInventory) : Except String (Int × Int) :=
  let unsigned := isUnsigned column
  let dataType := normalizedDataType column
  if dataType = "tinyint" then .ok (if unsigned then (0, 255) else (-128, 127))
  else if dataType = "smallint" then .ok (if unsigned then (0, 65535) else (-32768, 32767))
  else if dataType = "mediumint" then
    .ok (if unsigned then (0, 16777215) else (-8388608, 8388607))
  else if dataType = "int" ∨ dataType = "integer" then
    .ok (if unsigned then (0, 4294967295) else (-2147483648, 2147483647))
  else if dataType = "bigint" then
    .ok (if unsigned then (0, 18446744073709551615)
      else (-9223372036854775808, 9223372036854775807))
  else .error ("unsupported integer type " ++ column.columnType)

def typeCoercionPredicates (source target : ColumnInventory) :
    Except String (List BlockerPredicate) :=
  let sourceType := normalizedDataType source
  let targetType := normalizedDataType target
  if sourceType = "varchar" ∧ targetType = "varchar" then varcharCoercionPredicates source target
  else if (integerRank sourceType).isSome ∧ (integerRank targetType).isSome then
    (integerBounds source).map fun (minimum, maximum) => [.outside minimum maximum]
  else if sourceType = "decimal" ∧ targetType = "decimal" then decimalCoercionPredicates source
  else if sourceType = targetType then .ok []
  else
    .error ("unsupported target-data predicate for " ++ target.columnType ++ " to " ++
      source.columnType ++ " conversion")

/-- A name of ASCII letters, digits and underscores. -/
def validIdentifier (value : String) : Bool :=
  !value.toList.isEmpty && value.toList.all fun character =>
    character.isAlphanum || character == '_'

def quotedIdentifier (identifier : String) : Except String String :=
  if validIdentifier identifier then .ok ("`" ++ identifier ++ "`")
  else .error ("invalid MySQL identifier " ++ identifier)

/-- The conditions of which a value that does not fit meets one, with the column they are about. -/
def coercionBlockerPredicate (source target : ColumnInventory) :
    Except String (String × List BlockerPredicate) := do
  validatePredicateMetadata source target
  let column ← quotedIdentifier source.name
  let typePredicates ← typeCoercionPredicates source target
  let predicates := nullabilityPredicates source target ++ typePredicates
  if predicates.isEmpty then
    .error ("no target-data predicate for " ++ target.columnType ++ " to " ++ source.columnType ++
      " conversion")
  else .ok (column, predicates)

/-- The text of a predicate. -/
def renderPredicate (column : String) (predicates : List BlockerPredicate) : String :=
  "(" ++ ") OR (".intercalate (predicates.map (BlockerPredicate.render column)) ++ ")"

end BinlogCdc.SyncSchema
