import BinlogCdc.Ddl.ExpressionGrammar

/-!
# The grammar of ALTER TABLE

The clauses of an ALTER TABLE, each from its first token on, and the options that may end it. A
guard is read by its keyword alone in most clauses, quoted or not; only a named CHECK looks at the
quotes first.
-/

namespace BinlogCdc

namespace Ddl

open Text

section

variable (format : FloatFormat)

/-! ## Column definitions -/

/-- The text types, whose defaults are expressions on the target. -/
def isTextType (dataType : Text) : Bool :=
  (["tinytext", "text", "mediumtext", "longtext"].map (·.toList)).contains dataType

/-- The first word of a column type. -/
def columnKind (columnType : Text) : Text := columnType.takeWhile fun c => c != '(' && c != ' '

/-- A column type; an enumeration takes its labels from the literals. -/
def parseObservedColumnType (tokens : List DdlToken) (literals : List Text) :
    Except String (Text × Text × List DdlToken × List Text) :=
  if tokensMatch tokens 0 "ENUM" then do
    let (columnType, rest) ← parseEnumType tokens literals
    return (columnType, "enum".toList, rest)
  else do
    let (columnType, dataType, next) ← parseColumnType tokens
    return (columnType, dataType, next, literals)

/-- The data types that take a character set. -/
def takesCharacterSet (dataType : Text) : Bool :=
  (["char", "varchar", "enum"].map (·.toList)).contains dataType || isTextType dataType

/-- The character set and collation of a column, both or none. -/
def parseColumnEncoding (tokens : List DdlToken) (dataType : Text) :
    Except String (Option Text × Option Text × List DdlToken) := do
  if !tokensMatch tokens 0 "CHARACTER" then return (none, none, tokens)
  refuseIf (!takesCharacterSet dataType) "CHARACTER SET is unsupported"
  requireUnquotedKeyword tokens 0 "CHARACTER"
  requireUnquotedKeyword tokens 1 "SET"
  requireUnquotedKeyword tokens 3 "COLLATE"
  let characterSet ← requireIdentifier tokens 2 "column character set"
  let collation ← requireIdentifier tokens 4 "column collation"
  refuseIf (!(characterSet ++ ['_']).isPrefixOf collation)
    "column collation does not belong to the character set"
  return (some characterSet, some collation, tokens.drop 5)

/-- The column types a generation expression is modeled for. -/
def isCompatibleGeneration (columnType : Text) : ParsedStoredGeneration → Bool
  | .condition _ => columnType == "tinyint unsigned".toList
  | .coalesceEmpty _ => "varchar(".toList.isPrefixOf columnType

/-- A generation clause, if one starts here. -/
def parseOptionalStoredGeneration (tokens : List DdlToken) (literals : List Text)
    (columnType : Text) :
    Except String (Option ParsedStoredGeneration × List DdlToken × List Text) := do
  if !tokenIsOneOf tokens 0 ["AS", "GENERATED"] then return (none, tokens, literals)
  let (expression, rest) ← parseStoredGeneration tokens literals
  refuseIf (!isCompatibleGeneration columnType expression) "stored generation is unsupported"
  return (some expression, rest)

/-- A string default, which must be ASCII. -/
def parseStringDefaultLiteral (literals : List Text) : Except String (Text × List Text) :=
  match literals with
  | [] => .error "string DEFAULT literal is missing"
  | value :: literals =>
    if value.all isAsciiCharacter then .ok (value, literals)
    else .error "unmodeled string default literal"

/-- The sign of a numeric literal and the tokens after it. -/
def numericSign (tokens : List DdlToken) : Text × List DdlToken :=
  match tokens[0]? with
  | some token =>
    if token.text == ['-'] || token.text == ['+'] then (token.text, tokens.drop 1)
    else ([], tokens)
  | none => ([], tokens)

/-- A numeric literal, its sign and its fraction joined to one text. -/
def numericDefaultLiteral (tokens : List DdlToken) : Except String (Text × List DdlToken) := do
  requireUnquotedToken tokens 0 "numeric default"
  let (sign, next) := numericSign tokens
  requireUnquotedToken next 0 "numeric digits"
  match next[0]? with
  | none => .error "missing numeric default"
  | some integer =>
    if next[1]?.map (·.text) != some ['.'] then return (sign ++ integer.text, next.drop 1)
    requireUnquotedToken next 1 "decimal point"
    requireUnquotedToken next 2 "decimal fraction"
    match next[2]? with
    | none => .error "missing decimal fraction"
    | some fraction => return (sign ++ integer.text ++ '.' :: fraction.text, next.drop 3)

/-- The value of a DEFAULT option. -/
def parseBasicDefault (tokens : List DdlToken) (literals : List Text) (columnType : Text) :
    Except String (Option Text × List DdlToken × List Text) := do
  match tokens[0]? with
  | none => .error "missing DEFAULT value"
  | some value =>
    if eqIgnoreAsciiCase value.text "NULL".toList then return (none, tokens.drop 1, literals)
    let kind := columnKind columnType
    if isTextType kind || kind == "char".toList || kind == "varchar".toList then
      requireKeyword tokens 0 "<string>"
      let (value, literals) ← parseStringDefaultLiteral literals
      return (some value, tokens.drop 1, literals)
    let (literal, next) ← numericDefaultLiteral tokens
    let value ← normalizeNumericDefault format columnType literal
    return (some value, next, literals)

/-- The options of a column definition. -/
structure ParsedColumnOptions where
  nullable : Bool
  defaultValue : Option Text
  comment : Text
  after : Option Text
  first : Bool
  deriving DecidableEq, Repr

/-- One option of a column definition. -/
def parseObservedColumnOption (tokens : List DdlToken) (literals : List Text) (columnType : Text)
    (options : ParsedColumnOptions) :
    Except String (ParsedColumnOptions × List DdlToken × List Text) :=
  if tokensMatch tokens 0 "NULL" then
    .ok ({ options with nullable := true }, tokens.drop 1, literals)
  else if tokensMatch tokens 0 "NOT" then do
    requireUnquotedToken tokens 1 "NOT NULL"
    requireKeyword tokens 1 "NULL"
    return ({ options with nullable := false }, tokens.drop 2, literals)
  else if tokensMatch tokens 0 "DEFAULT" then do
    requireUnquotedToken tokens 1 "DEFAULT value"
    let (value, rest) ← parseBasicDefault format (tokens.drop 1) literals columnType
    return ({ options with defaultValue := value }, rest)
  else if tokensMatch tokens 0 "COMMENT" then do
    requireKeyword tokens 1 "<string>"
    match literals with
    | [] => .error "missing COMMENT literal"
    | comment :: literals => return ({ options with comment }, tokens.drop 2, literals)
  else if tokensMatch tokens 0 "AFTER" then do
    refuseIf options.first "FIRST and AFTER are mutually exclusive"
    let column ← requireIdentifier tokens 1 "AFTER column"
    return ({ options with after := some column }, tokens.drop 2, literals)
  else if tokensMatch tokens 0 "FIRST" then
    if options.after.isSome then .error "FIRST and AFTER are mutually exclusive"
    else .ok ({ options with first := true }, tokens.drop 1, literals)
  else .error "unsupported column option"

/-- The name under which an option may occur once; both nullabilities share one. -/
def optionKey (token : Text) : Text :=
  let option := toAsciiUppercase token
  if option == "NOT".toList then "NULL".toList else option

/-- The options up to a comma or the end, as many as the fuel allows, with the names seen so far
and whether the default is an explicit null. -/
def parseColumnOptionsFrom (columnType : Text) (fuel : Nat) (seen : List Text)
    (explicitNullDefault : Bool) (options : ParsedColumnOptions) (tokens : List DdlToken)
    (literals : List Text) :
    Except String (ParsedColumnOptions × Bool × List DdlToken × List Text) :=
  match fuel, tokens with
  | _, [] => .ok (options, explicitNullDefault, [], literals)
  | 0, _ :: _ => .error "too many column options"
  | fuel + 1, token :: rest =>
    if token.text == [','] then .ok (options, explicitNullDefault, token :: rest, literals)
    else do
      requireUnquotedToken (token :: rest) 0 "column option"
      refuseIf (seen.contains (optionKey token.text)) "duplicate column option"
      let explicitNullDefault :=
        if eqIgnoreAsciiCase token.text "DEFAULT".toList then tokensMatch rest 0 "NULL"
        else explicitNullDefault
      let (options, next, literals) ←
        parseObservedColumnOption format (token :: rest) literals columnType options
      parseColumnOptionsFrom columnType fuel (optionKey token.text :: seen) explicitNullDefault
        options next literals

/-- The options of a column definition. Every option takes a token, so their number is fuel
enough. -/
def parseObservedColumnOptions (tokens : List DdlToken) (literals : List Text)
    (columnType : Text) : Except String (ParsedColumnOptions × List DdlToken × List Text) := do
  let (options, explicitNullDefault, rest) ←
    parseColumnOptionsFrom format columnType tokens.length [] false
      ⟨true, none, [], none, false⟩ tokens literals
  refuseIf (!options.nullable && explicitNullDefault) "NOT NULL column cannot have DEFAULT NULL"
  refuseIf (columnKind columnType == "json".toList && options.defaultValue.isSome)
    "JSON literal defaults are not modeled"
  return (options, rest)

/-- The words of a guard after its first, from an offset on. -/
def requireIfNotExists (guarded : Bool) (tokens : List DdlToken) (offset : Nat) :
    Except String Unit :=
  if guarded then do
    requireKeyword tokens offset "NOT"
    requireKeyword tokens (offset + 1) "EXISTS"
  else .ok ()

/-- The nullability or default of a column among the tokens of its options. -/
def hasValueOption (tokens : List DdlToken) : Bool :=
  tokens.any fun token =>
    ["NOT", "NULL", "DEFAULT"].any fun keyword => eqIgnoreAsciiCase token.text keyword.toList

/-- A column definition from its optional guard on. -/
def parseColumnDefinitionClause (tokens : List DdlToken) (literals : List Text) :
    Except String (ParsedAddColumnAst × List DdlToken × List Text) := do
  let ifNotExists := tokensMatch tokens 0 "IF"
  requireIfNotExists ifNotExists tokens 1
  let tokens := if ifNotExists then tokens.drop 3 else tokens
  let name ← requireIdentifier tokens 0 "added column"
  let (columnType, dataType, next, literals) ←
    parseObservedColumnType (tokens.drop 1) literals
  let (characterSet, collation, next) ← parseColumnEncoding next dataType
  let (generated, start, literals) ← parseOptionalStoredGeneration next literals columnType
  let (options, rest, literals) ← parseObservedColumnOptions format start literals columnType
  -- a generated column admits neither nullability nor a default
  refuseIf (generated.isSome && hasValueOption (start.take (start.length - rest.length)))
    "generated ADD COLUMN admits only COMMENT and AFTER options"
  let json := dataType == "json".toList
  return ({ name, ifNotExists, columnType, dataType, nullable := options.nullable,
            defaultValue := options.defaultValue, comment := options.comment,
            after := options.after, first := options.first,
            characterSet := if json then some "utf8mb4".toList else characterSet,
            collation := if json then some "utf8mb4_bin".toList else collation,
            generated }, rest, literals)

/-- A column definition after its verb and the optional word COLUMN. -/
def parseAddColumnClause (tokens : List DdlToken) (literals : List Text) :
    Except String (ParsedAddColumnAst × List DdlToken × List Text) := do
  if tokensMatch tokens 1 "COLUMN" then
    requireUnquotedToken tokens 1 "ADD COLUMN"
    parseColumnDefinitionClause format (tokens.drop 2) literals
  else parseColumnDefinitionClause format (tokens.drop 1) literals

/-- Neither guarded nor generated nor JSON. -/
def isOrdinaryColumn (column : ParsedAddColumnAst) : Bool :=
  !column.ifNotExists && column.generated.isNone && column.dataType != "json".toList

/-- A MODIFY clause. -/
def parseModifyColumnClause (tokens : List DdlToken) (literals : List Text) :
    Except String (ParsedAlterClause × List DdlToken × List Text) := do
  let (column, rest) ← parseAddColumnClause format tokens literals
  refuseIf (!isOrdinaryColumn column) "MODIFY requires an ordinary unguarded non-JSON column"
  return (.modifyColumn column, rest)

/-- A CHANGE clause. -/
def parseChangeColumnClause (tokens : List DdlToken) (literals : List Text) :
    Except String (ParsedAlterClause × List DdlToken × List Text) := do
  refuseIf (tokensMatch tokens 1 "COLUMN" && isQuoted tokens 1)
    "quoted token is unsupported for CHANGE COLUMN"
  let tokens := if tokensMatch tokens 1 "COLUMN" then tokens.drop 2 else tokens.drop 1
  let oldName ← requireIdentifier tokens 0 "changed column"
  let (column, rest) ← parseColumnDefinitionClause format (tokens.drop 1) literals
  refuseIf (!isOrdinaryColumn column) "CHANGE requires an ordinary unguarded non-JSON column"
  return (.changeColumn oldName column, rest)

/-! ## Defaults, names, keys and constraints -/

/-- The characters of a number in ALTER COLUMN. -/
def isNumberText (value : Text) : Bool :=
  value.any Char.isDigit &&
    value.all fun c => c.isDigit || c == '-' || c == '+' || c == '.'

/-- The literal of an ALTER COLUMN default. -/
def parseAlterDefaultLiteral (tokens : List DdlToken) (literals : List Text) :
    Except String (ParsedColumnDefault × List DdlToken × List Text) := do
  requireUnquotedToken tokens 0 "DEFAULT literal"
  if tokensMatch tokens 0 "NULL" then return (.null, tokens.drop 1, literals)
  if tokensMatch tokens 0 "<string>" then
    let (value, literals) ← parseStringDefaultLiteral literals
    return (.string value, tokens.drop 1, literals)
  let (value, next) ← numericDefaultLiteral tokens
  refuseIf (!isNumberText value) "DEFAULT must be a numeric or string literal"
  return (.number value, next, literals)

/-- The action of an ALTER COLUMN. -/
def parseAlterDefaultAction (tokens : List DdlToken) (literals : List Text) :
    Except String (Option ParsedColumnDefault × List DdlToken × List Text) := do
  if tokensMatch tokens 0 "DROP" then
    requireUnquotedToken tokens 0 "DROP DEFAULT"
    requireKeyword tokens 1 "DEFAULT"
    requireUnquotedToken tokens 1 "DROP DEFAULT"
    return (none, tokens.drop 2, literals)
  requireKeyword tokens 0 "SET"
  requireUnquotedToken tokens 0 "SET DEFAULT"
  requireKeyword tokens 1 "DEFAULT"
  requireUnquotedToken tokens 1 "SET DEFAULT"
  let (value, rest) ← parseAlterDefaultLiteral (tokens.drop 2) literals
  return (some value, rest)

/-- An ALTER COLUMN clause. -/
def parseAlterColumnDefaultClause (tokens : List DdlToken) (literals : List Text) :
    Except String (ParsedAlterClause × List DdlToken × List Text) := do
  requireKeyword tokens 1 "COLUMN"
  requireUnquotedToken tokens 1 "ALTER COLUMN"
  let name ← requireIdentifier tokens 2 "altered column"
  let (default, rest) ← parseAlterDefaultAction (tokens.drop 3) literals
  return (.alterColumnDefault name default, rest)

/-- A RENAME COLUMN clause. -/
def parseRenameColumnClause (tokens : List DdlToken) :
    Except String (ParsedAlterClause × List DdlToken) := do
  requireUnquotedKeyword tokens 0 "RENAME"
  requireUnquotedKeyword tokens 1 "COLUMN"
  requireUnquotedKeyword tokens 3 "TO"
  let oldName ← requireIdentifier tokens 2 "renamed column"
  let newName ← requireIdentifier tokens 4 "new column name"
  return (.renameColumn oldName newName, tokens.drop 5)

/-- The order of a key column, ascending by default. -/
def parseKeyPartOrder (tokens : List DdlToken) : Text × List DdlToken :=
  if tokensMatch tokens 0 "ASC" then ("ASC".toList, tokens.drop 1)
  else if tokensMatch tokens 0 "DESC" then ("DESC".toList, tokens.drop 1)
  else ("ASC".toList, tokens)

/-- A key column in an order. -/
def keyPart (column order : Text) : ParsedIndexKeyPart where
  column := column
  prefixLength := none
  order := order
  collation := some (if order == "DESC".toList then ['D'] else ['A'])

/-- The key columns up to the closing parenthesis, as many as the fuel allows. -/
def parseKeyParts (fuel : Nat) (tokens : List DdlToken) :
    Except String (List ParsedIndexKeyPart × List DdlToken) :=
  match fuel with
  | 0 => .error "missing added key column"
  | fuel + 1 => do
    let column ← requireIdentifier tokens 0 "added key column"
    let (order, next) := parseKeyPartOrder (tokens.drop 1)
    match next with
    | [] => .error "expected comma or closing parenthesis in ADD KEY"
    | token :: next =>
      if token.text == [','] then
        let (parts, rest) ← parseKeyParts fuel next
        return (keyPart column order :: parts, rest)
      else if token.text == [')'] then return ([keyPart column order], next)
      else .error "expected comma or closing parenthesis in ADD KEY"

/-- An ADD KEY clause from the word KEY on. -/
def parseAddKeyClause (tokens : List DdlToken) (table : Text) (unique : Bool) :
    Except String (ParsedAlterClause × List DdlToken) := do
  let ifNotExists := tokensMatch tokens 1 "IF"
  requireIfNotExists ifNotExists tokens 2
  let tokens := if ifNotExists then tokens.drop 4 else tokens.drop 1
  let name ← requireIdentifier tokens 0 "added key name"
  requireKeyword tokens 1 "("
  let (keyParts, rest) ← parseKeyParts tokens.length (tokens.drop 2)
  return (.addKey { create := true, name, table, unique, indexType := "BTREE".toList,
                    visible := true, comment := none, keyParts } ifNotExists, rest)

/-- An ADD FOREIGN KEY clause from the word ADD on. -/
def parseAddForeignKeyClause (tokens : List DdlToken) :
    Except String (ParsedAlterClause × List DdlToken) := do
  let name ← requireIdentifier tokens 2 "foreign key name"
  let child ← requireIdentifier tokens 6 "foreign key column"
  let parentTable ← requireIdentifier tokens 9 "referenced table"
  let parent ← requireIdentifier tokens 11 "referenced column"
  requireUnquotedKeyword tokens 1 "CONSTRAINT"
  requireUnquotedKeyword tokens 3 "FOREIGN"
  requireUnquotedKeyword tokens 4 "KEY"
  requireUnquotedKeyword tokens 5 "("
  requireUnquotedKeyword tokens 7 ")"
  requireUnquotedKeyword tokens 8 "REFERENCES"
  requireUnquotedKeyword tokens 10 "("
  requireUnquotedKeyword tokens 12 ")"
  requireUnquotedKeyword tokens 13 "ON"
  requireUnquotedKeyword tokens 14 "DELETE"
  match ["CASCADE", "RESTRICT"].find? fun rule => tokensMatch tokens 15 rule with
  | none => .error "ADD FOREIGN KEY requires ON DELETE CASCADE or RESTRICT"
  | some rule =>
    requireUnquotedToken tokens 15 "ON DELETE action"
    return (.addForeignKey ⟨name, [child], parentTable, [parent], rule.toList⟩, tokens.drop 16)

/-- An ADD CONSTRAINT clause that is not a foreign key. -/
def parseAddCheckClause (tokens : List DdlToken) (literals : List Text) :
    Except String (ParsedAlterClause × List DdlToken × List Text) := do
  let ifNotExists := tokensMatch tokens 2 "IF" && !isQuoted tokens 2
  requireIfNotExists ifNotExists tokens 3
  refuseIf (ifNotExists && (isQuoted tokens 3 || isQuoted tokens 4)) "quoted CHECK guard keyword"
  -- the named CHECK is read without the guard
  let checkTokens :=
    if ifNotExists then (tokens.drop 1).take 1 ++ tokens.drop 5 else tokens.drop 1
  let (constraint, rest) ← parseNamedCheck checkTokens literals
  return (.addCheck constraint ifNotExists, rest)

/-- An ADD clause. -/
def parseProductionAddClause (tokens : List DdlToken) (table : Text) (literals : List Text) :
    Except String (ParsedAlterClause × List DdlToken × List Text) :=
  if tokens.length < 2 then .error "unsupported production ALTER TABLE clause"
  else if tokensMatch tokens 1 "KEY" || tokensMatch tokens 1 "INDEX" then do
    let (clause, rest) ← parseAddKeyClause (tokens.drop 1) table false
    return (clause, rest, literals)
  else if tokensMatch tokens 1 "UNIQUE" then do
    requireKeyword tokens 2 "KEY"
    let (clause, rest) ← parseAddKeyClause (tokens.drop 2) table true
    return (clause, rest, literals)
  else if tokensMatch tokens 1 "CONSTRAINT" then
    if tokensMatch tokens 3 "FOREIGN" then do
      let (clause, rest) ← parseAddForeignKeyClause tokens
      return (clause, rest, literals)
    else parseAddCheckClause tokens literals
  else do
    let (column, rest) ← parseAddColumnClause format tokens literals
    return (.addColumn column, rest)

/-- The dropped name after its optional guard, from the word after DROP on. -/
def parseDroppedName (tokens : List DdlToken) (context : String) :
    Except String (ParsedDropAst × List DdlToken) := do
  let ifExists := tokensMatch tokens 1 "IF"
  refuseIf (ifExists && !tokensMatch tokens 2 "EXISTS") "expected EXISTS"
  let tokens := if ifExists then tokens.drop 3 else tokens.drop 1
  let name ← requireIdentifier tokens 0 context
  return (⟨name, ifExists⟩, tokens.drop 1)

/-- A DROP clause. -/
def parseDropAlterClause (tokens : List DdlToken) :
    Except String (ParsedAlterClause × List DdlToken) := do
  if tokensMatch tokens 1 "COLUMN" then
    let (column, rest) ← parseDroppedName (tokens.drop 1) "dropped column"
    return (.dropColumn column, rest)
  if tokensMatch tokens 1 "INDEX" || tokensMatch tokens 1 "KEY" then
    let (index, rest) ← parseDroppedName (tokens.drop 1) "dropped index"
    return (.dropIndex index, rest)
  throw "unsupported DROP ALTER TABLE clause"

/-! ## The statement -/

/-- One clause of an ALTER TABLE. -/
def parseProductionAlterClause (tokens : List DdlToken) (table : Text) (literals : List Text) :
    Except String (ParsedAlterClause × List DdlToken × List Text) := do
  requireUnquotedToken tokens 0 "ALTER clause"
  if tokensMatch tokens 0 "ADD" then parseProductionAddClause format tokens table literals
  else if tokensMatch tokens 0 "DROP" then
    let (clause, rest) ← parseDropAlterClause tokens
    return (clause, rest, literals)
  else if tokensMatch tokens 0 "MODIFY" then parseModifyColumnClause format tokens literals
  else if tokensMatch tokens 0 "CHANGE" then parseChangeColumnClause format tokens literals
  else if tokensMatch tokens 0 "ALTER" then parseAlterColumnDefaultClause tokens literals
  else if tokensMatch tokens 0 "RENAME" then
    let (clause, rest) ← parseRenameColumnClause tokens
    return (clause, rest, literals)
  else throw "unsupported production ALTER TABLE clause"

/-- The algorithm named at the third token. -/
def parseAlgorithm (tokens : List DdlToken) : Except String ParsedAlterAlgorithm :=
  if tokensMatch tokens 2 "INSTANT" then .ok .instant
  else if tokensMatch tokens 2 "INPLACE" then .ok .inplace
  else if tokensMatch tokens 2 "COPY" then .ok .copy
  else .error "unsupported ALTER TABLE algorithm"

/-- The lock named at the seventh token. -/
def parseLock (tokens : List DdlToken) : Except String ParsedAlterLock :=
  if tokensMatch tokens 6 "NONE" then .ok .none
  else if tokensMatch tokens 6 "SHARED" then .ok .shared
  else .error "unsupported ALTER TABLE lock"

/-- The options that end an ALTER TABLE, if they start here. -/
def parseAlterOptions (tokens : List DdlToken) :
    Except String (Option (ParsedAlterAlgorithm × Option ParsedAlterLock)) := do
  if !tokensMatch tokens 0 "ALGORITHM" then return none
  requireKeyword tokens 1 "="
  let algorithm ← parseAlgorithm tokens
  if tokens.length == 3 then return some (algorithm, none)
  requireKeyword tokens 3 ","
  requireKeyword tokens 4 "LOCK"
  requireKeyword tokens 5 "="
  let lock ← parseLock tokens
  refuseIf (tokens.length != 7) "ALTER TABLE options must be final"
  return some (algorithm, some lock)

/-- At least one clause. -/
def requireAlterClauses (clauses : List ParsedAlterClause) :
    Except String (List ParsedAlterClause) :=
  if clauses.isEmpty then .error "ALTER TABLE has no supported clauses" else .ok clauses

/-- The clauses and options after the table name, as many as the fuel allows. -/
def parseProductionAlterBody (table : Text) (fuel : Nat) (clauses : List ParsedAlterClause)
    (tokens : List DdlToken) (literals : List Text) :
    Except String
      (List ParsedAlterClause × Option ParsedAlterAlgorithm × Option ParsedAlterLock) :=
  match fuel, tokens with
  | _, [] => do
    let clauses ← requireAlterClauses clauses
    return (clauses, none, none)
  | 0, _ :: _ => .error "too many ALTER TABLE clauses"
  | fuel + 1, token :: rest => do
    match ← parseAlterOptions (token :: rest) with
    | some (algorithm, lock) =>
      let clauses ← requireAlterClauses clauses
      return (clauses, some algorithm, lock)
    | none =>
      let (clause, next, literals) ←
        parseProductionAlterClause format (token :: rest) table literals
      if next.isEmpty then return (clauses ++ [clause], none, none)
      requireKeyword next 0 ","
      parseProductionAlterBody table fuel (clauses ++ [clause]) (next.drop 1) literals

/-- The clauses that may stand in a statement with comments. -/
def admitsComments (leadingCommentsOnly : Bool) : ParsedAlterClause → Bool
  | .modifyColumn _ | .changeColumn _ _ | .alterColumnDefault _ _ | .addColumn _
  | .renameColumn _ _ | .dropIndex _ => true
  | .dropColumn _ => leadingCommentsOnly
  | _ => false

/-- The statement without its comments, if it has any. -/
def withoutComments (ordinaryComments : Bool) (sourceSql statementSql : Text)
    (mode : Option Nat) : Except String Text :=
  if ordinaryComments then removeOrdinaryCommentsWithMode sourceSql mode else .ok statementSql

/-- The syntax tree of an ALTER TABLE under an SQL mode. -/
def parseProductionAlterTableAstWithMode (sourceSql : Text) (mode : Option Nat) :
    Except String ParsedAlterTableAst := do
  let statementSql := (splitLeadingMysqlLineComments sourceSql).2
  let noEscapes := (noBackslashEscapes mode).getD false
  let ordinaryComments := ddlContainsCommentsWithMode statementSql noEscapes
  let stripped ← stripLeadingOrdinaryDdlComments statementSql
  let leadingCommentsOnly := !ddlContainsCommentsWithMode stripped noEscapes
  let sql ← withoutComments ordinaryComments sourceSql statementSql mode
  let tokens ← tokenizeDdl sql noEscapes
  requireKeyword tokens 0 "ALTER"
  requireKeyword tokens 1 "TABLE"
  let table ← requireIdentifier tokens 2 "ALTER TABLE name"
  let literals ← extractSingleQuotedLiteralsWithMode sql mode
  let (clauses, algorithm, lock) ←
    parseProductionAlterBody format table tokens.length [] (tokens.drop 3) literals
  refuseIf (ordinaryComments && (algorithm.isSome || lock.isSome ||
    !clauses.all (admitsComments leadingCommentsOnly)))
    "ordinary ALTER comments require modeled clauses"
  return ⟨table, clauses, algorithm, lock⟩

end

end Ddl

end BinlogCdc
