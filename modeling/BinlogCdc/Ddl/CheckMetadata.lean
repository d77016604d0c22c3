import BinlogCdc.Ddl.ExpressionGrammar
import BinlogCdc.Sql.Expression

/-!
# CHECK metadata

The target reports a CHECK clause with its own parentheses, keywords and character set introducers.
Clauses are compared by a structural value of the predicate that is read from them: redundant
parentheses do not change it, the grouping of operators does.
-/

namespace BinlogCdc

namespace Ddl

open Text

/-! ## Canonical values -/

/-- A JSON value; the fields of an object are in the order of their names. -/
inductive JsonValue where
  | string (value : String)
  | number (value : Nat)
  | strings (values : List String)
  | object (fields : List (String × JsonValue))

/-- The canonical value of a predicate. -/
def canonicalPredicate : CheckPredicate → JsonValue
  | .and left right => .object [("kind", .string "and"), ("left", canonicalPredicate left),
      ("right", canonicalPredicate right)]
  | .or left right => .object [("kind", .string "or"), ("left", canonicalPredicate left),
      ("right", canonicalPredicate right)]
  | .booleanEquals left right => .object [("kind", .string "boolean_equals"),
      ("left", canonicalPredicate left), ("right", canonicalPredicate right)]
  | .stringEquals column value => .object [("column", .string (String.ofList column)),
      ("kind", .string "string_equals"), ("value", .string (String.ofList value))]
  | .isNull column =>
    .object [("column", .string (String.ofList column)), ("kind", .string "is_null")]
  | .jsonValid column =>
    .object [("column", .string (String.ofList column)), ("kind", .string "json_valid")]
  | .octetLengthAtMost column limit => .object [("column", .string (String.ofList column)),
      ("kind", .string "octet_length_at_most"), ("limit", .number limit)]
  | .inStrings column values => .object [("column", .string (String.ofList column)),
      ("kind", .string "in_strings"), ("values", .strings (values.map String.ofList))]

/-! ## Clauses -/

/-- The expression of a CHECK as it is rendered for the target: what follows the keyword. -/
def mysqlCheckExpression (constraint : ParsedCheckConstraintAst) : Option Text :=
  (splitOnce " CHECK ".toList (renderCheckConstraint constraint)).map Prod.snd

/-- The tokens of a reported clause without its introducers, and with the source's name of the
length in bytes. -/
def normalizeMetadataTokens : List DdlToken → Except String (List DdlToken)
  | [] => .ok []
  | token :: rest =>
    if eqIgnoreAsciiCase token.text "_utf8mb4".toList && !token.quoted then do
      requireUnquotedKeyword rest 0 "<string>"
      normalizeMetadataTokens rest
    else do
      let retained ← normalizeMetadataTokens rest
      if !token.quoted && (eqIgnoreAsciiCase token.text "LENGTH".toList && tokensMatch rest 0 "(")
      then return ⟨"OCTET_LENGTH".toList, false⟩ :: retained
      else return token :: retained

/-- A reported clause with its quotes as they were before they were escaped. -/
def unescapedClause (clause : Text) : Text := replace [backslash, singleQuote] [singleQuote] clause

/-- The clause as a named CHECK. -/
def metadataCheck (clause : Text) : Text :=
  "CONSTRAINT metadata_check CHECK (".toList ++ clause ++ [')']

/-- The predicate read from a clause. -/
def metadataPredicate (clause : Text) : Except String CheckPredicate := do
  let clause := unescapedClause clause
  refuseIf (ddlContainsCommentsWithMode clause false) "comments are unmodeled in CHECK metadata"
  let tokens ← tokenizeDdl (metadataCheck clause) false
  let tokens ← normalizeMetadataTokens tokens
  let literals ← extractSingleQuotedLiteralsWithMode clause (some 0)
  let (constraint, rest, left) ← parseNamedCheck tokens literals
  refuseIf (!rest.isEmpty || !left.isEmpty) "unexpected trailing CHECK metadata"
  match constraint.disjuncts with
  | [] => .error "empty CHECK metadata"
  | first :: disjuncts => .ok (disjuncts.foldl .or first)

/-- The canonical value of a clause. -/
def canonicalCheckExpression (clause : Text) : Except String JsonValue :=
  (metadataPredicate clause).map canonicalPredicate

/-! ## Truth -/

/-- A row, and how the server compares and measures its values. -/
structure CheckRow where
  /-- The value of a column; none is NULL. -/
  value : Text → Option Text
  /-- Two strings are equal in the collation of a column. -/
  equal : Text → Text → Text → Bool
  /-- A value of a column is a JSON document. -/
  validJson : Text → Text → Bool
  /-- The number of bytes of a value of a column. -/
  octetLength : Text → Text → Nat

/-- Equality of truth values; it is unknown if one of them is. -/
def ternaryEq : Option Bool → Option Bool → Option Bool
  | some left, some right => some (left == right)
  | _, _ => none

/-- The value of a predicate on a row. An IN list is a disjunction of equalities. -/
def CheckPredicate.eval (row : CheckRow) : CheckPredicate → Option Bool
  | .isNull column => some (row.value column).isNone
  | .jsonValid column => (row.value column).map (row.validJson column)
  | .octetLengthAtMost column limit =>
    (row.value column).map fun value => decide (row.octetLength column value ≤ limit)
  | .stringEquals column text => (row.value column).map fun value => row.equal column value text
  | .inStrings column texts => (row.value column).map fun value =>
      texts.any fun text => row.equal column value text
  | .and left right => ternaryAnd (left.eval row) (right.eval row)
  | .or left right => ternaryOr (left.eval row) (right.eval row)
  | .booleanEquals left right => ternaryEq (left.eval row) (right.eval row)

/-- The value of a disjunction; without disjuncts it is false. -/
def evalDisjuncts (row : CheckRow) (disjuncts : List CheckPredicate) : Option Bool :=
  disjuncts.foldr (fun predicate value => ternaryOr (predicate.eval row) value) (some false)

end Ddl

end BinlogCdc
