import BinlogCdc.Ddl.Ast
import BinlogCdc.Ddl.TypeGrammar

/-!
# CHECK predicates and generation expressions

The bounded grammars of the expressions a table definition carries, and their renderings for the
target. Every recursive call of the CHECK grammar is charged one unit of fuel.
-/

namespace BinlogCdc

namespace Ddl

open Text

/-! ## CHECK predicates -/

/-- Some unquoted closing parentheses. -/
def requireClosings : Nat → List DdlToken → Except String (List DdlToken)
  | 0, tokens => .ok tokens
  | count + 1, tokens => do
    requireUnquotedKeyword tokens 0 ")"
    requireClosings count (tokens.drop 1)

/-- The number of unquoted opening parentheses at the head. -/
def openingDepth (tokens : List DdlToken) : Nat :=
  (tokens.takeWhile fun token =>
    eqIgnoreAsciiCase token.text "(".toList && !token.quoted).length

/-- A column, within any number of parentheses. -/
def parseFunctionArgument (tokens : List DdlToken) : Except String (Text × List DdlToken) := do
  let parentheses := openingDepth tokens
  let column ← requireIdentifier tokens parentheses "CHECK function column"
  let rest ← requireClosings parentheses (tokens.drop (parentheses + 1))
  return (column, rest)

/-- The column a function is applied to, from the name of the function on. -/
def parseFunctionColumn (tokens : List DdlToken) : Except String (Text × List DdlToken) := do
  requireUnquotedKeyword tokens 1 "("
  let (column, next) ← parseFunctionArgument (tokens.drop 2)
  requireUnquotedKeyword next 0 ")"
  return (column, next.drop 1)

/-- A string literal of a CHECK. -/
def parseCheckString (tokens : List DdlToken) (literals : List Text) :
    Except String (Text × List DdlToken × List Text) := do
  requireUnquotedKeyword tokens 0 "<string>"
  match literals with
  | [] => .error "CHECK literal is missing"
  | value :: literals =>
    if isWordLiteral value then .ok (value, tokens.drop 1, literals)
    else .error "unmodeled CHECK literal"

/-- The strings of an IN list, as many as the fuel allows, and the tokens after it. -/
def parseCheckStrings (fuel : Nat) (tokens : List DdlToken) (literals : List Text) :
    Except String (List Text × List DdlToken × List Text) :=
  match fuel with
  | 0 => .error "CHECK literal is missing"
  | fuel + 1 => do
    let (value, next, literals) ← parseCheckString tokens literals
    if tokensMatch next 0 ")" && !isQuoted next 0 then return ([value], next.drop 1, literals)
    requireUnquotedKeyword next 0 ","
    let (values, rest) ← parseCheckStrings fuel (next.drop 1) literals
    return (value :: values, rest)

/-- The canonical limit of an OCTET_LENGTH comparison. -/
def parseOctetLimit (tokens : List DdlToken) : Except String Nat :=
  match tokens[0]? with
  | none => .error "OCTET_LENGTH limit is missing"
  | some token =>
    match parseU64 token.text with
    | none => .error "OCTET_LENGTH limit is not an integer"
    | some limit =>
      if limit == 0 || Nat.toDigits 10 limit != token.text || token.quoted then
        .error "OCTET_LENGTH limit is not canonical"
      else .ok limit

/-- An atomic predicate. -/
def parsePredicate (tokens : List DdlToken) (literals : List Text) :
    Except String (CheckPredicate × List DdlToken × List Text) :=
  if tokensMatch tokens 0 "JSON_VALID" && !isQuoted tokens 0 then do
    let (column, next) ← parseFunctionColumn tokens
    return (.jsonValid column, next, literals)
  else if tokensMatch tokens 0 "OCTET_LENGTH" && !isQuoted tokens 0 then do
    let (column, next) ← parseFunctionColumn tokens
    requireUnquotedKeyword next 0 "<"
    requireUnquotedKeyword next 1 "="
    let limit ← parseOctetLimit (next.drop 2)
    return (.octetLengthAtMost column limit, next.drop 3, literals)
  else do
    let column ← requireIdentifier tokens 0 "CHECK column"
    if tokensMatch tokens 1 "IS" && !isQuoted tokens 1 then
      requireUnquotedKeyword tokens 2 "NULL"
      return (.isNull column, tokens.drop 3, literals)
    if tokensMatch tokens 1 "=" && !isQuoted tokens 1 then
      let (value, rest) ← parseCheckString (tokens.drop 2) literals
      return (.stringEquals column value, rest)
    requireUnquotedKeyword tokens 1 "IN"
    requireUnquotedKeyword tokens 2 "("
    let (values, rest) ← parseCheckStrings tokens.length (tokens.drop 3) literals
    return (.inStrings column values, rest)

/-- The operands between which equality of truth values is modeled. -/
def isModeledEquality : CheckPredicate → CheckPredicate → Bool
  | .stringEquals _ _, .isNull _ => true
  | .isNull _, .stringEquals _ _ => true
  | _, _ => false

mutual

/-- Boolean terms joined by AND. -/
def parseConjunction (fuel : Nat) (tokens : List DdlToken) (literals : List Text) :
    Except String (CheckPredicate × List DdlToken × List Text) :=
  match fuel with
  | 0 => .error "CHECK predicate is too deep"
  | fuel + 1 => do
    let (left, next, literals) ← parseBooleanTerm fuel tokens literals
    parseFurtherConjuncts fuel left next literals

/-- The terms after a conjunction so far. -/
def parseFurtherConjuncts (fuel : Nat) (left : CheckPredicate) (tokens : List DdlToken)
    (literals : List Text) : Except String (CheckPredicate × List DdlToken × List Text) :=
  match fuel with
  | 0 => .error "CHECK predicate is too deep"
  | fuel + 1 =>
    if tokensMatch tokens 0 "AND" && !isQuoted tokens 0 then do
      let (right, next, literals) ← parseBooleanTerm fuel (tokens.drop 1) literals
      parseFurtherConjuncts fuel (.and left right) next literals
    else .ok (left, tokens, literals)

/-- A group or an atom, or the equality of two groups. -/
def parseBooleanTerm (fuel : Nat) (tokens : List DdlToken) (literals : List Text) :
    Except String (CheckPredicate × List DdlToken × List Text) :=
  match fuel with
  | 0 => .error "CHECK predicate is too deep"
  | fuel + 1 => do
    let (left, next, literals) ← parseGroupOrAtom fuel tokens literals
    if tokensMatch next 0 "=" && !isQuoted next 0 then
      requireUnquotedKeyword tokens 0 "("
      requireUnquotedKeyword next 1 "("
      let (right, rest) ← parseGroupOrAtom fuel (next.drop 1) literals
      if isModeledEquality left right then return (.booleanEquals left right, rest)
      throw "unmodeled CHECK boolean equality operands"
    return (left, next, literals)

/-- A predicate in parentheses, or an atom. -/
def parseGroupOrAtom (fuel : Nat) (tokens : List DdlToken) (literals : List Text) :
    Except String (CheckPredicate × List DdlToken × List Text) :=
  match fuel with
  | 0 => .error "CHECK predicate is too deep"
  | fuel + 1 =>
    if tokensMatch tokens 0 "(" && !isQuoted tokens 0 then do
      let (left, next, literals) ← parseConjunction fuel (tokens.drop 1) literals
      let (predicate, next, literals) ← parseFurtherDisjuncts fuel left next literals
      requireUnquotedKeyword next 0 ")"
      return (predicate, next.drop 1, literals)
    else parsePredicate tokens literals

/-- The conjunctions after a disjunction so far. -/
def parseFurtherDisjuncts (fuel : Nat) (left : CheckPredicate) (tokens : List DdlToken)
    (literals : List Text) : Except String (CheckPredicate × List DdlToken × List Text) :=
  match fuel with
  | 0 => .error "CHECK predicate is too deep"
  | fuel + 1 =>
    if tokensMatch tokens 0 "OR" && !isQuoted tokens 0 then do
      let (right, next, literals) ← parseConjunction fuel (tokens.drop 1) literals
      parseFurtherDisjuncts fuel (.or left right) next literals
    else .ok (left, tokens, literals)

end

/-- The disjuncts of a CHECK up to its closing parenthesis, as many as the fuel allows. -/
def parseDisjuncts (fuel : Nat) (tokens : List DdlToken) (literals : List Text) :
    Except String (List CheckPredicate × List DdlToken × List Text) :=
  match fuel with
  | 0 => .error "CHECK predicate is too deep"
  | fuel + 1 => do
    let (predicate, next, literals) ← parseConjunction (4 * tokens.length + 4) tokens literals
    if tokensMatch next 0 ")" && !isQuoted next 0 then return ([predicate], next.drop 1, literals)
    requireUnquotedKeyword next 0 "OR"
    let (disjuncts, rest) ← parseDisjuncts fuel (next.drop 1) literals
    return (predicate :: disjuncts, rest)

/-- A named CHECK. -/
def parseNamedCheck (tokens : List DdlToken) (literals : List Text) :
    Except String (ParsedCheckConstraintAst × List DdlToken × List Text) := do
  requireUnquotedKeyword tokens 0 "CONSTRAINT"
  let name ← requireIdentifier tokens 1 "CHECK constraint name"
  requireUnquotedKeyword tokens 2 "CHECK"
  requireUnquotedKeyword tokens 3 "("
  let (disjuncts, rest) ← parseDisjuncts tokens.length (tokens.drop 4) literals
  return (⟨name, disjuncts⟩, rest)

/-- A predicate for the target. -/
def renderPredicate : CheckPredicate → Text
  | .and left right =>
    '(' :: renderPredicate left ++ ") AND (".toList ++ renderPredicate right ++ [')']
  | .or left right =>
    '(' :: renderPredicate left ++ ") OR (".toList ++ renderPredicate right ++ [')']
  | .booleanEquals left right =>
    '(' :: renderPredicate left ++ ") = (".toList ++ renderPredicate right ++ [')']
  | .stringEquals column value => quoteIdentifier column ++ " = ".toList ++ quoteStringLiteral value
  | .isNull column => quoteIdentifier column ++ " IS NULL".toList
  | .jsonValid column => "JSON_VALID(".toList ++ quoteIdentifier column ++ [')']
  | .octetLengthAtMost column limit =>
    "OCTET_LENGTH(".toList ++ quoteIdentifier column ++ ") <= ".toList ++ Nat.toDigits 10 limit
  | .inStrings column values =>
    quoteIdentifier column ++ " IN (".toList ++
      [','].intercalate (values.map quoteStringLiteral) ++ [')']

/-- A named CHECK for the target. -/
def renderCheckConstraint (constraint : ParsedCheckConstraintAst) : Text :=
  "CONSTRAINT ".toList ++ quoteIdentifier constraint.name ++ " CHECK (".toList ++
    " OR ".toList.intercalate (constraint.disjuncts.map renderPredicate) ++ [')']

/-! ## Generation expressions -/

/-- A canonical unsigned integer. -/
def parseGeneratedInteger (tokens : List DdlToken) (offset : Nat) : Except String Nat :=
  match tokens[offset]? with
  | none => .error "generated expression integer is missing"
  | some token =>
    match parseU64 token.text with
    | none => .error "generated expression operand is not an integer"
    | some value =>
      if Nat.toDigits 10 value != token.text || token.quoted then
        .error "generated expression integer is not canonical"
      else .ok value

/-- The right-hand side of an equality. -/
def parseGeneratedOperand (tokens : List DdlToken) (literals : List Text) :
    Except String (GeneratedOperand × List DdlToken × List Text) :=
  if tokensMatch tokens 0 "<string>" && !isQuoted tokens 0 then
    match literals with
    | [] => .error "generated expression literal is missing"
    | value :: literals =>
      if isWordLiteral value then .ok (.string value, tokens.drop 1, literals)
      else .error "unmodeled generated expression literal"
  else do
    let value ← parseGeneratedInteger tokens 0
    return (.integer value, tokens.drop 1, literals)

/-- The equalities of a condition, as many as the fuel allows. -/
def parseGeneratedEqualities (fuel : Nat) (tokens : List DdlToken) (literals : List Text) :
    Except String (List (Text × GeneratedOperand) × List DdlToken × List Text) :=
  match fuel with
  | 0 => .error "generated expression is too long"
  | fuel + 1 => do
    let column ← requireIdentifier tokens 0 "generated expression column"
    requireUnquotedKeyword tokens 1 "="
    let (operand, next, literals) ← parseGeneratedOperand (tokens.drop 2) literals
    if tokensMatch next 0 "AND" && !isQuoted next 0 then
      let (equalities, rest) ← parseGeneratedEqualities fuel (next.drop 1) literals
      return ((column, operand) :: equalities, rest)
    return ([(column, operand)], next, literals)

/-- The conditional expression. -/
def parseGeneratedIf (tokens : List DdlToken) (literals : List Text) :
    Except String (ParsedStoredGeneration × List DdlToken × List Text) := do
  requireUnquotedKeyword tokens 0 "IF"
  requireUnquotedKeyword tokens 1 "("
  let (equalities, next, literals) ←
    parseGeneratedEqualities tokens.length (tokens.drop 2) literals
  requireUnquotedKeyword next 0 ","
  let thenValue ← parseGeneratedInteger next 1
  refuseIf (thenValue > 255) "generated IF value exceeds TINYINT UNSIGNED"
  requireUnquotedKeyword next 2 ","
  requireUnquotedKeyword next 3 "NULL"
  requireUnquotedKeyword next 4 ")"
  return (.condition ⟨equalities, thenValue⟩, next.drop 5, literals)

/-- The expression that replaces null by the empty string. -/
def parseCoalesceEmpty (tokens : List DdlToken) (literals : List Text) :
    Except String (ParsedStoredGeneration × List DdlToken × List Text) := do
  requireUnquotedKeyword tokens 0 "COALESCE"
  requireUnquotedKeyword tokens 1 "("
  requireUnquotedKeyword tokens 3 ","
  requireUnquotedKeyword tokens 4 "<string>"
  requireUnquotedKeyword tokens 5 ")"
  let column ← requireIdentifier tokens 2 "COALESCE column"
  match literals with
  | [] => .error "COALESCE literal is missing"
  | literal :: literals =>
    if literal.isEmpty then .ok (.coalesceEmpty column, tokens.drop 6, literals)
    else .error "stored COALESCE admits only the empty literal"

/-- The tokens after the words GENERATED ALWAYS. -/
def skipGeneratedAlways (tokens : List DdlToken) : Except String (List DdlToken) := do
  if tokensMatch tokens 0 "GENERATED" && !isQuoted tokens 0 then
    requireUnquotedKeyword tokens 1 "ALWAYS"
    return tokens.drop 2
  return tokens

/-- A generation expression of either form. -/
def parseGeneratedExpression (tokens : List DdlToken) (literals : List Text) :
    Except String (ParsedStoredGeneration × List DdlToken × List Text) :=
  if tokensMatch tokens 0 "COALESCE" && !isQuoted tokens 0 then parseCoalesceEmpty tokens literals
  else parseGeneratedIf tokens literals

/-- A generation clause up to its storage keyword. -/
def parseStoredGeneration (tokens : List DdlToken) (literals : List Text) :
    Except String (ParsedStoredGeneration × List DdlToken × List Text) := do
  let tokens ← skipGeneratedAlways tokens
  requireUnquotedKeyword tokens 0 "AS"
  requireUnquotedKeyword tokens 1 "("
  let (expression, next, literals) ← parseGeneratedExpression (tokens.drop 2) literals
  requireUnquotedKeyword next 0 ")"
  if (tokensMatch next 1 "PERSISTENT" || tokensMatch next 1 "STORED") && !isQuoted next 1 then
    return (expression, next.drop 2, literals)
  throw "generated column must be PERSISTENT or STORED"

/-- A right-hand side for the target; strings name their character set. -/
def renderGeneratedOperand : GeneratedOperand → Text
  | .string value => "_utf8mb4".toList ++ singleQuote :: value ++ [singleQuote]
  | .integer value => Nat.toDigits 10 value

/-- A generation expression for the target. -/
def renderGenerationSql : ParsedStoredGeneration → Text
  | .condition expression =>
    "IF(".toList ++ " AND ".toList.intercalate (expression.equalities.map fun (column, operand) =>
      quoteIdentifier column ++ " = ".toList ++ renderGeneratedOperand operand) ++
    ", ".toList ++ Nat.toDigits 10 expression.thenValue ++ ", NULL)".toList
  | .coalesceEmpty column =>
    "COALESCE(".toList ++ quoteIdentifier column ++ ", _utf8mb4".toList ++
      [singleQuote, singleQuote, ')']

end Ddl

end BinlogCdc
