import BinlogCdc.Binlog.Coordinate

/-!
# Statement texts and the replay policy

The classifiers the stream applies to the text of a query event: normalization,
multi-statement and pattern scans, the prefix lists, and the decision to replay,
skip or quarantine. Texts are lists of characters. Case folding by prefixes is ASCII
only; the pattern scans use the full uppercase mapping, of which only the part with
ASCII images matters, since every pattern and every word boundary is ASCII.
-/

namespace BinlogCdc

/-- A statement text as its sequence of characters. -/
abbrev Text := List Char

theorem Text.lawfulBEq : LawfulBEq Text := inferInstance

/-- A property of all characters of a text is decided along the text, not over all characters
there are. -/
instance (priority := 2000) Text.decidableForallMem (p : Char → Prop) [DecidablePred p]
    (text : Text) : Decidable (∀ c ∈ text, p c) :=
  List.decidableBAll p text

/-- The single quote. -/
def singleQuote : Char := Char.ofNat 39

/-- The double quote. -/
def doubleQuote : Char := Char.ofNat 34

/-- The backquote. -/
def backQuote : Char := Char.ofNat 96

/-- The backslash. -/
def backslash : Char := Char.ofNat 92

namespace Text

/-- The Unicode White_Space property. -/
def isWhitespace (c : Char) : Bool :=
  let code := c.toNat
  (0x09 ≤ code && code ≤ 0x0D) || code == 0x20 || code == 0x85 || code == 0xA0 ||
    code == 0x1680 || (0x2000 ≤ code && code ≤ 0x200A) || code == 0x2028 || code == 0x2029 ||
    code == 0x202F || code == 0x205F || code == 0x3000

/-- The control characters of Unicode. -/
def isControl (c : Char) : Bool :=
  let code := c.toNat
  code ≤ 0x1F || (0x7F ≤ code && code ≤ 0x9F)

/-- Drop leading whitespace. -/
def trimStart (text : Text) : Text := text.dropWhile isWhitespace

/-- Drop trailing characters. -/
def trimEndMatches (drop : Char → Bool) (text : Text) : Text :=
  (text.reverse.dropWhile drop).reverse

/-- Drop whitespace on both sides. -/
def trim (text : Text) : Text := trimEndMatches isWhitespace (trimStart text)

/-- The maximal runs without whitespace. -/
def splitWhitespace (text : Text) : List Text :=
  (text.splitOnP isWhitespace).filter fun word => !word.isEmpty

/-- The text before and after the first occurrence of a pattern. -/
def splitOnce (pattern : Text) : Text → Option (Text × Text)
  | [] => if pattern.isEmpty then some ([], []) else none
  | c :: rest =>
    if pattern.isPrefixOf (c :: rest) then some ([], (c :: rest).drop pattern.length)
    else (splitOnce pattern rest).map fun (before, after) => (c :: before, after)

/-- ASCII uppercase. -/
def toAsciiUppercase (text : Text) : Text := text.map Char.toUpper

/-- Equality up to ASCII case. -/
def eqIgnoreAsciiCase (left right : Text) : Bool :=
  toAsciiUppercase left == toAsciiUppercase right

/-- The characters outside ASCII whose uppercase contains an ASCII letter. -/
def uppercaseIntoAscii : List (Nat × Text) :=
  [(0xDF, "SS".toList), (0x131, "I".toList), (0x149, [Char.ofNat 0x2BC, 'N']),
    (0x17F, "S".toList), (0x1F0, ['J', Char.ofNat 0x30C]), (0x1E96, ['H', Char.ofNat 0x331]),
    (0x1E97, ['T', Char.ofNat 0x308]), (0x1E98, ['W', Char.ofNat 0x30A]),
    (0x1E99, ['Y', Char.ofNat 0x30A]), (0x1E9A, ['A', Char.ofNat 0x2BE]),
    (0xFB00, "FF".toList), (0xFB01, "FI".toList), (0xFB02, "FL".toList),
    (0xFB03, "FFI".toList), (0xFB04, "FFL".toList), (0xFB05, "ST".toList),
    (0xFB06, "ST".toList)]

/-- The uppercase mapping of one character. A character outside ASCII that is not listed has an
uppercase outside ASCII, which no pattern and no word boundary can distinguish from itself. -/
def toUppercase (c : Char) : Text :=
  if c.toNat < 0x80 then [c.toUpper] else (uppercaseIntoAscii.lookup c.toNat).getD [c]

end Text

/-! ## Normalization -/

/-- Remove one leading comment; a version comment is not one. -/
def stripOneLeadingComment (sql : Text) : Option Text :=
  if "--".toList.isPrefixOf sql then
    some (((Text.splitOnce ['\n'] (sql.drop 2)).map Prod.snd).getD [])
  else if "#".toList.isPrefixOf sql then
    some (((Text.splitOnce ['\n'] (sql.drop 1)).map Prod.snd).getD [])
  else if "/*".toList.isPrefixOf sql && !"/*!".toList.isPrefixOf sql then
    (Text.splitOnce "*/".toList sql).map Prod.snd
  else none

/-- Remove leading comments, at most as many as the fuel allows. -/
def stripLeadingCommentsFrom (fuel : Nat) (remaining : Text) : Text :=
  match fuel with
  | 0 => remaining
  | fuel + 1 =>
    match stripOneLeadingComment remaining with
    | some stripped => stripLeadingCommentsFrom fuel (Text.trimStart stripped)
    | none => remaining

/-- Remove all leading comments and the whitespace around them. Every comment removed shortens
the text, so its length is fuel enough. -/
def stripLeadingComments (sql : Text) : Text :=
  stripLeadingCommentsFrom sql.length (Text.trimStart sql)

/-- The statement without leading comments, outer whitespace and trailing semicolons. -/
@[irreducible] def normalizeStatement (sql : Text) : Text :=
  Text.trim (Text.trimEndMatches (· == ';') (Text.trim (stripLeadingComments sql)))

/-- The normalized statement with every run of whitespace replaced by one blank. -/
def normalizePolicyWhitespace (sql : Text) : Text :=
  [' '].intercalate (Text.splitWhitespace (normalizeStatement sql))

/-- The first word of a text. -/
def firstKeyword (sql : Text) : Option Text := (Text.splitWhitespace sql).head?

/-! ## Scans -/

/-- Where the multi-statement scan stands. -/
inductive ScanMode where
  /-- Outside quotes and comments. -/
  | plain
  /-- Inside a quoted text, possibly right after a backslash. -/
  | quoted (quote : Char) (escaped : Bool)
  /-- Inside a line comment. -/
  | lineComment
  /-- Inside a block comment, possibly right after a star. -/
  | blockComment (star : Bool)
  deriving DecidableEq, Repr

/-- Scan for a semicolon followed by more than whitespace. -/
def containsMultiStatementFrom (mode : ScanMode) : Text → Bool
  | [] => false
  | c :: rest =>
    match mode with
    | .quoted quote escaped =>
      if escaped then containsMultiStatementFrom (.quoted quote false) rest
      else if c == backslash then containsMultiStatementFrom (.quoted quote true) rest
      else if c == quote then containsMultiStatementFrom .plain rest
      else containsMultiStatementFrom (.quoted quote false) rest
    | .lineComment =>
      containsMultiStatementFrom (if c == '\n' || c == '\r' then .plain else .lineComment) rest
    | .blockComment star =>
      if star && c == '/' then containsMultiStatementFrom .plain rest
      else containsMultiStatementFrom (.blockComment (c == '*')) rest
    | .plain =>
      if c == singleQuote || c == doubleQuote then
        containsMultiStatementFrom (.quoted c false) rest
      else
        match c, rest with
        | '-', '-' :: rest => containsMultiStatementFrom .lineComment rest
        | '/', '*' :: rest => containsMultiStatementFrom (.blockComment false) rest
        | c, rest =>
          (c == ';' && !(Text.trim rest).isEmpty) || containsMultiStatementFrom .plain rest

/-- The text holds more than one statement. -/
def containsMultiStatement (sql : Text) : Bool := containsMultiStatementFrom .plain sql

/-- Uppercase outside quotes, with a blank for every character of a quoted text. -/
def uppercaseOutsideStringLiteralsFrom (quote : Option Char) (escaped : Bool) : Text → Text
  | [] => []
  | c :: rest =>
    match quote with
    | some q =>
      if escaped then ' ' :: uppercaseOutsideStringLiteralsFrom quote false rest
      else if c == backslash then ' ' :: uppercaseOutsideStringLiteralsFrom quote true rest
      else
        match rest with
        | next :: rest' =>
          if q == singleQuote && c == singleQuote && next == singleQuote then
            ' ' :: ' ' :: uppercaseOutsideStringLiteralsFrom quote false rest'
          else
            ' ' :: uppercaseOutsideStringLiteralsFrom (if c == q then none else quote) false
              (next :: rest')
        | [] => [' ']
    | none =>
      if c == singleQuote || c == doubleQuote then
        ' ' :: uppercaseOutsideStringLiteralsFrom (some c) false rest
      else Text.toUppercase c ++ uppercaseOutsideStringLiteralsFrom none false rest

/-- Uppercase outside quotes, with a blank for every character of a quoted text. -/
def uppercaseOutsideStringLiterals (sql : Text) : Text :=
  uppercaseOutsideStringLiteralsFrom none false sql

/-- The characters of an SQL word. -/
def isSqlWordByte (c : Char) : Bool := c.isAlphanum || c == '_'

/-- An occurrence is bounded when no word continues across its ends. -/
def patternHasValidBounds (pattern : Text) (before after : Option Char) : Bool :=
  (!(pattern.head?.any isSqlWordByte) || !(before.any isSqlWordByte)) &&
    (!(pattern.getLast?.any isSqlWordByte) || !(after.any isSqlWordByte))

/-- Scan for a bounded occurrence of a pattern; occurrences do not overlap, so the scan skips
the rest of an occurrence. -/
def containsBoundedPatternFrom (pattern : Text) (before : Option Char) (skip : Nat) :
    Text → Bool
  | [] => false
  | c :: rest =>
    match skip with
    | skip + 1 => containsBoundedPatternFrom pattern (some c) skip rest
    | 0 =>
      if pattern.isPrefixOf (c :: rest) then
        patternHasValidBounds pattern before ((c :: rest).drop pattern.length).head? ||
          containsBoundedPatternFrom pattern (some c) (pattern.length - 1) rest
      else containsBoundedPatternFrom pattern (some c) 0 rest

/-- The text contains the pattern between word boundaries. -/
def containsBoundedPattern (sql : Text) (pattern : String) : Bool :=
  containsBoundedPatternFrom pattern.toList none 0 sql

/-- The first listed pattern the text contains. -/
def findPattern (upperSql : Text) (patterns : List String) : Option String :=
  patterns.find? (containsBoundedPattern upperSql)

/-- The first MariaDB-only construct in the text. -/
def findMariadbOnlyPattern (sql : Text) : Option String :=
  findPattern (uppercaseOutsideStringLiterals sql)
    ["RETURNING", "SEQUENCE", "SYSTEM VERSIONING", "VERSIONING", "DELETE HISTORY",
      "INSERT DELAYED"]

/-- The first construct whose replay is unsafe. -/
def findUnsafePattern (sql : Text) : Option String :=
  findPattern (uppercaseOutsideStringLiterals sql)
    ["LOAD_FILE(", "INTO OUTFILE", "INTO DUMPFILE", "LOAD DATA", "DEFINER",
      "SQL SECURITY DEFINER"]

/-- The first existence guard the target does not accept on table and index DDL. -/
def findDdlIfExistsPattern (sql : Text) : Option String :=
  let upper := uppercaseOutsideStringLiterals sql
  let guarded := "ALTER TABLE ".toList.isPrefixOf upper || "CREATE INDEX ".toList.isPrefixOf upper
    || "CREATE UNIQUE INDEX ".toList.isPrefixOf upper || "DROP INDEX ".toList.isPrefixOf upper
  if guarded then findPattern upper ["IF NOT EXISTS", "IF EXISTS"] else none

/-! ## Prefix lists -/

/-- The text starts with one of the prefixes, up to ASCII case. -/
def startsWithAnyCi (sql : Text) (prefixes : List String) : Bool :=
  let upper := Text.toAsciiUppercase sql
  prefixes.any fun start => start.toList.isPrefixOf upper

/-- The statement starts of replayable data changes. -/
def compatibleDmlPrefixes : List String :=
  ["DELETE FROM ", "INSERT INTO ", "REPLACE INTO ", "UPDATE "]

/-- The statement starts of replayable schema changes. -/
def compatibleDdlPrefixes : List String :=
  ["ALTER DATABASE ", "ALTER EVENT ", "ALTER FUNCTION ", "ALTER PROCEDURE ", "ALTER SCHEMA ",
    "ALTER TABLE ", "ALTER VIEW ", "CREATE DATABASE ", "CREATE EVENT ", "CREATE FUNCTION ",
    "CREATE INDEX ", "CREATE OR REPLACE VIEW ", "CREATE PROCEDURE ", "CREATE SCHEMA ",
    "CREATE TABLE ", "CREATE TRIGGER ", "CREATE UNIQUE INDEX ", "CREATE VIEW ",
    "DROP DATABASE ", "DROP EVENT ", "DROP FUNCTION ", "DROP INDEX ", "DROP PROCEDURE ",
    "DROP SCHEMA ", "DROP TABLE ", "DROP TRIGGER ", "DROP VIEW ", "RENAME TABLE ", "TRUNCATE "]

/-- The statement starts of database DDL. -/
def databaseDdlPrefixes : List String :=
  ["ALTER DATABASE ", "ALTER SCHEMA ", "CREATE DATABASE ", "CREATE SCHEMA ", "DROP DATABASE ",
    "DROP SCHEMA "]

/-- The statement starts of DDL whose body may hold semicolons. -/
def compoundBodyDdlPrefixes : List String :=
  ["ALTER EVENT ", "CREATE EVENT ", "CREATE FUNCTION ", "CREATE PROCEDURE ", "CREATE TRIGGER "]

/-- The statement starts of administrative DDL. -/
def skippedAdministrativeDdlPrefixes : List String :=
  ["ALTER RESOURCE GROUP ", "ALTER ROLE ", "ALTER SERVER ", "ALTER TABLESPACE ", "ALTER USER ",
    "CREATE RESOURCE GROUP ", "CREATE ROLE ", "CREATE SERVER ", "CREATE TABLESPACE ",
    "CREATE USER ", "DROP RESOURCE GROUP ", "DROP ROLE ", "DROP SERVER ", "DROP TABLESPACE ",
    "DROP USER ", "GRANT ", "RENAME USER ", "REVOKE "]

/-- A data change the target accepts as it is. -/
def isKnownCompatibleDml (sql : Text) : Bool := startsWithAnyCi sql compatibleDmlPrefixes

/-- A schema change the target accepts as it is. -/
@[irreducible] def isKnownCompatibleDdl (sql : Text) : Bool := startsWithAnyCi sql compatibleDdlPrefixes

/-- A schema change whose body may hold semicolons. -/
def isCompoundBodyDdl (sql : Text) : Bool := startsWithAnyCi sql compoundBodyDdlPrefixes

/-- An administrative statement that is not replayed. -/
def isSkippedAdministrativeDdl (sql : Text) : Bool :=
  startsWithAnyCi sql skippedAdministrativeDdlPrefixes

/-! ## Decisions -/

/-- What the statement applier does with a statement. -/
inductive StatementDecision where
  /-- Execute the source text on the target. -/
  | replay
  /-- Do nothing. -/
  | skip
  /-- Set the statement aside. -/
  | quarantine (reason : QuarantineReason)
  deriving DecidableEq, Repr

/-- The decision about a normalized statement. -/
@[irreducible] def classifyStatement (sql : Text) : StatementDecision :=
  if sql.isEmpty then .quarantine .emptyStatement
  else if containsMultiStatement sql && !isCompoundBodyDdl sql then .quarantine .multiStatement
  else
    match findMariadbOnlyPattern sql with
    | some pattern => .quarantine (.mariaDbOnlySyntax pattern)
    | none =>
      match findUnsafePattern sql with
      | some pattern => .quarantine (.unsafePattern pattern)
      | none =>
        match findDdlIfExistsPattern sql with
        | some pattern => .quarantine (.mariaDbOnlySyntax pattern)
        | none =>
          if isKnownCompatibleDml sql || isKnownCompatibleDdl sql then .replay
          else if isSkippedAdministrativeDdl sql then .skip
          else
            .quarantine (.unsupportedStatementType
              (String.ofList ((firstKeyword sql).getD "unknown".toList)))

/-- The statement changes the schema: its first word, in this exact case, is a DDL verb. -/
@[irreducible] def isSchemaChangingStatement (sql : Text) : Bool :=
  match firstKeyword (normalizePolicyWhitespace sql) with
  | some keyword =>
    ["ALTER", "CREATE", "DROP", "RENAME", "TRUNCATE"].any fun verb => keyword == verb.toList
  | none => false

/-- A schema change the translator may handle without an operator. -/
@[irreducible] def isAutomaticallyHandledSchemaChange (sql : Text) : Bool :=
  if !isSchemaChangingStatement sql then false
  else
    let normalizedSql := normalizeStatement sql
    if startsWithAnyCi normalizedSql databaseDdlPrefixes then false
    else
      match classifyStatement normalizedSql with
      | .replay => true
      | .skip => true
      | .quarantine _ => false

/-- The statement starts like a replayable data change. -/
@[irreducible] def isDataChangingStatement (sql : Text) : Bool :=
  isKnownCompatibleDml (normalizePolicyWhitespace sql)

end BinlogCdc
