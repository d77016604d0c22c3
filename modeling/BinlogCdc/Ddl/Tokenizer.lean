import BinlogCdc.Sql.Token

/-!
# Tokens and string literals of a DDL text

The grammar of the DDL statements reads a list of tokens, each with a flag that tells a
quoted identifier from a bare word. A string literal is one anonymous token: its value
travels in a second list, which another scanner collects from the same text. Comments
are detected, stripped from the head of a text, or removed from all of it.
-/

namespace BinlogCdc

namespace Ddl

open Text

/-! ## Comments -/

/-- The text starts with a line comment of two dashes. -/
def isMysqlLineCommentText (sql : Text) : Bool :=
  match sql with
  | [] => false
  | c :: rest => isMysqlLineCommentStart c rest.head? (rest.drop 1).head?

/-- The text after the line of a comment, from after its marker. -/
def afterLineComment (rest : Text) : Text := (rest.dropWhile (· != '\n')).drop 1

/-- The text before and after a leading line comment. -/
def splitOneLeadingMysqlLineComment (sql : Text) : Option Text × Text :=
  let trimmed := trimStart sql
  if isMysqlLineCommentText trimmed then
    let statement := trimStart (afterLineComment (trimmed.drop 2))
    (some (sql.take (sql.length - statement.length)), statement)
  else (none, trimmed)

/-- The text after all leading line comments, as many as the fuel allows. -/
def afterLeadingLineComments (fuel : Nat) (sql : Text) : Text :=
  match fuel with
  | 0 => sql
  | fuel + 1 =>
    match splitOneLeadingMysqlLineComment sql with
    | (some _, rest) => afterLeadingLineComments fuel rest
    | (none, _) => sql

/-- The text before and after all leading line comments. Every comment has two characters,
so the length is fuel enough. -/
def splitLeadingMysqlLineComments (sql : Text) : Option Text × Text :=
  match splitOneLeadingMysqlLineComment sql with
  | (none, statement) => (none, statement)
  | (some _, rest) =>
    let statement := afterLeadingLineComments sql.length rest
    (some (sql.take (sql.length - statement.length)), statement)

/-- A block comment the server reads: a version comment, a hint or a MariaDB comment. -/
def startsSemanticallyActiveBlockComment (sql : Text) : Bool :=
  "/*!".toList.isPrefixOf sql || "/*+".toList.isPrefixOf sql ||
    eqIgnoreAsciiCase (sql.take 4) "/*M!".toList

/-- The text after the block comment it starts with. -/
def afterBlockComment (sql : Text) : Except String Text :=
  match splitOnce "*/".toList (sql.drop 2) with
  | some (_, rest) => .ok rest
  | none => .error "unterminated DDL block comment"

/-- The text after its leading ordinary comments, as many as the fuel allows. -/
def stripLeadingOrdinaryFrom (fuel : Nat) (sql : Text) : Except String Text :=
  match fuel with
  | 0 => .ok sql
  | fuel + 1 =>
    let remaining := trimStart sql
    if isMysqlLineCommentText remaining then
      stripLeadingOrdinaryFrom fuel (afterLineComment (remaining.drop 2))
    else if remaining.head? == some '#' then
      stripLeadingOrdinaryFrom fuel (afterLineComment (remaining.drop 1))
    else if "/*".toList.isPrefixOf remaining &&
        !startsSemanticallyActiveBlockComment remaining then do
      let rest ← afterBlockComment remaining
      stripLeadingOrdinaryFrom fuel rest
    else .ok remaining

/-- The text after its leading ordinary comments. Every comment consumes a character and the
last step none, so one more than the length is fuel enough. -/
def stripLeadingOrdinaryDdlComments (sql : Text) : Except String Text :=
  stripLeadingOrdinaryFrom (sql.length + 1) sql

/-- The three characters that open a quoted part. -/
def isDdlQuote (c : Char) : Bool := c == backQuote || c == doubleQuote || c == singleQuote

/-- A comment starts at the head of the text. -/
def startsDdlComment (characters : Text) : Bool :=
  characters.head? == some '#' || isMysqlLineCommentText characters ||
    "/*".toList.isPrefixOf characters

/-- The scan for a comment outside quotes, within an open quote or none. -/
def containsCommentsFrom (noEscapes : Bool) : Option Char → Text → Bool
  | _, [] => false
  | none, c :: rest =>
    if isDdlQuote c then containsCommentsFrom noEscapes (some c) rest
    else if startsDdlComment (c :: rest) then true
    else containsCommentsFrom noEscapes none rest
  | some quote, c :: rest =>
    if c == quote then
      match rest with
      | [] => false
      | next :: rest =>
        if next == quote then containsCommentsFrom noEscapes (some quote) rest
        else containsCommentsFrom noEscapes none (next :: rest)
    else if c == backslash && quote == singleQuote && !noEscapes then
      match rest with
      | [] => false
      | _ :: rest => containsCommentsFrom noEscapes (some quote) rest
    else containsCommentsFrom noEscapes (some quote) rest

/-- The text contains a comment outside quotes. -/
def ddlContainsCommentsWithMode (sql : Text) (noEscapes : Bool) : Bool :=
  containsCommentsFrom noEscapes none sql

/-- Where the removal of comments stands: outside, within a quote, or within a comment. -/
inductive RemovalMode where
  | plain
  | quoted (delimiter : Char)
  | comment
  deriving DecidableEq, Repr

/-- The text without its line comments; any other comment is refused, and so is a double quote.
A comment leaves one blank. -/
def removeCommentsFrom (mode : Option Nat) : RemovalMode → Text → Except String Text
  | .plain, [] => .ok []
  | .quoted _, [] => .error "unclosed CREATE quote"
  | .comment, [] => .ok [' ']
  | .comment, c :: rest =>
    if c == '\n' then do
      let result ← removeCommentsFrom mode .plain rest
      return ' ' :: '\n' :: result
    else removeCommentsFrom mode .comment rest
  | .quoted delimiter, c :: rest =>
    if c == backslash && delimiter == singleQuote then
      match noBackslashEscapes mode with
      | none => .error "backslash-bearing DDL requires QueryEvent SQL_MODE"
      | some true => do
        let result ← removeCommentsFrom mode (.quoted delimiter) rest
        return c :: result
      | some false =>
        match rest with
        | [] => .error "unterminated CREATE string escape"
        | escaped :: rest => do
          let result ← removeCommentsFrom mode (.quoted delimiter) rest
          return c :: escaped :: result
    else if c == delimiter then
      match rest with
      | [] => .ok [c]
      | next :: rest =>
        if next == delimiter then do
          let result ← removeCommentsFrom mode (.quoted delimiter) rest
          return c :: delimiter :: result
        else do
          let result ← removeCommentsFrom mode .plain (next :: rest)
          return c :: result
    else do
      let result ← removeCommentsFrom mode (.quoted delimiter) rest
      return c :: result
  | .plain, c :: rest =>
    if c == backQuote || c == singleQuote then do
      let result ← removeCommentsFrom mode (.quoted c) rest
      return c :: result
    else if c == doubleQuote || c == '#' then .error "unmodeled CREATE quoting/comment"
    else if c == '/' && rest.head? == some '*' then
      .error "embedded or executable CREATE block comment"
    else if isMysqlLineCommentText (c :: rest) then removeCommentsFrom mode .comment rest
    else do
      let result ← removeCommentsFrom mode .plain rest
      return c :: result

/-- The text without its ordinary comments. -/
def removeOrdinaryCommentsWithMode (sql : Text) (mode : Option Nat) : Except String Text := do
  let sql ← stripLeadingOrdinaryDdlComments sql
  removeCommentsFrom mode .plain sql

/-! ## Tokens -/

/-- A token and whether it was a quoted identifier. -/
structure DdlToken where
  /-- The text of the token, without its quotes. -/
  text : Text
  /-- Written in back quotes or double quotes. -/
  quoted : Bool
  deriving DecidableEq, Repr

/-- The token that stands for a string literal. -/
def stringToken : Text := "<string>".toList

/-- The quoted identifier after its opening quote, and the text after its closing quote. -/
def quotedToken (quote : Char) : Text → Except String (Text × Text)
  | [] => .error "unterminated quoted DDL identifier"
  | c :: rest =>
    if c == quote then
      match rest with
      | [] => .ok ([], [])
      | next :: rest =>
        if next == quote then do
          let (value, rest) ← quotedToken quote rest
          return (quote :: value, rest)
        else .ok ([], next :: rest)
    else do
      let (value, rest) ← quotedToken quote rest
      return (c :: value, rest)

/-- The text after a string literal, from after its opening quote. -/
def skipQuotedString (noEscapes : Bool) (escaped : Bool) : Text → Except String Text
  | [] => .error "unterminated DDL string literal"
  | c :: rest =>
    if escaped then skipQuotedString noEscapes false rest
    else if c == backslash && !noEscapes then skipQuotedString noEscapes true rest
    else if c == singleQuote then
      match rest with
      | [] => .ok []
      | next :: rest =>
        if next == singleQuote then skipQuotedString noEscapes false rest
        else .ok (next :: rest)
    else skipQuotedString noEscapes false rest

/-- The token that starts with a character, if any, and the text after it. -/
def tokenizeDdlStep (noEscapes : Bool) (character : Char) (rest : Text) :
    Except String (Option Text × Text) :=
  if isWhitespace character then .ok (none, rest)
  else if isMysqlLineCommentStart character rest.head? (rest.drop 1).head? then
    .ok (none, (rest.drop 1).dropWhile (· != '\n'))
  else if character == '#' then .ok (none, rest.dropWhile (· != '\n'))
  else if character == '/' && rest.head? == some '*' then do
    let rest ← afterBlockComment (character :: rest)
    return (none, rest)
  else if character == backQuote || character == doubleQuote then do
    let (value, rest) ← quotedToken character rest
    return (some value, rest)
  else if character == singleQuote then do
    let rest ← skipQuotedString noEscapes false rest
    return (some stringToken, rest)
  else if isIdentifierCharacter character then
    .ok (some (character :: rest.takeWhile isIdentifierCharacter),
      rest.dropWhile isIdentifierCharacter)
  else .ok (some [character], rest)

/-- The tokens of a text, as many steps as the fuel allows. -/
def tokenizeDdlFrom (noEscapes : Bool) (fuel : Nat) (characters : Text) :
    Except String (List DdlToken) :=
  match fuel, characters with
  | fuel + 1, character :: rest => do
    let quoted := character == backQuote || character == doubleQuote
    let (token, rest) ← tokenizeDdlStep noEscapes character rest
    let tokens ← tokenizeDdlFrom noEscapes fuel rest
    return (token.map fun text => ⟨text, quoted⟩).toList ++ tokens
  | _, _ => .ok []

/-- The tokens of a DDL text. Every step consumes a character, so the length is fuel
enough. -/
def tokenizeDdl (sql : Text) (noEscapes : Bool) : Except String (List DdlToken) :=
  tokenizeDdlFrom noEscapes sql.length sql

/-! ## String literals -/

/-- What a backslash and a character stand for in a literal. -/
def decodedEscape (escaped : Char) : Text :=
  if escaped == '0' then [Char.ofNat 0]
  else if escaped == 'n' then ['\n']
  else if escaped == 'r' then ['\r']
  else if escaped == 't' then ['\t']
  else if escaped == 'b' then [Char.ofNat 8]
  else if escaped == 'Z' then [Char.ofNat 26]
  else if escaped == '%' || escaped == '_' then [backslash, escaped]
  else [escaped]

/-- A character of ASCII. -/
def isAsciiCharacter (c : Char) : Bool := c.toNat < 128

/-- The end of a literal: an escape beside a character outside ASCII is refused. -/
def finishedLiteral (hasSourceEscape hasNonAscii : Bool) (literal rest : Text) :
    Except String (Text × Text) :=
  if hasSourceEscape && hasNonAscii then
    .error "escaped non-ASCII source literal requires proven client charset"
  else .ok (literal, rest)

/-- The value of a literal after its opening quote, and the text after its closing quote. -/
def decodeLiteralFrom (mode : Option Nat) (hasSourceEscape hasNonAscii : Bool) (literal : Text) :
    Text → Except String (Text × Text)
  | [] => .error "unterminated DDL string literal"
  | c :: rest =>
    if c == singleQuote then
      match rest with
      | [] => finishedLiteral hasSourceEscape hasNonAscii literal []
      | next :: rest =>
        if next == singleQuote then
          decodeLiteralFrom mode hasSourceEscape hasNonAscii (literal ++ [c]) rest
        else finishedLiteral hasSourceEscape hasNonAscii literal (next :: rest)
    else if c == backslash then
      match noBackslashEscapes mode with
      | none => .error "backslash-bearing DDL requires QueryEvent SQL_MODE"
      | some true => decodeLiteralFrom mode true hasNonAscii (literal ++ [c]) rest
      | some false =>
        match rest with
        | [] => .error "unterminated DDL string escape"
        | escaped :: rest =>
          decodeLiteralFrom mode true hasNonAscii (literal ++ decodedEscape escaped) rest
    else
      decodeLiteralFrom mode hasSourceEscape (hasNonAscii || !isAsciiCharacter c)
        (literal ++ [c]) rest

/-- The value of a literal after its opening quote. -/
def decodeSingleQuotedLiteral (characters : Text) (mode : Option Nat) :
    Except String (Text × Text) :=
  decodeLiteralFrom mode false false [] characters

/-- The literals of a text, as many steps as the fuel allows. -/
def extractLiteralsFrom (mode : Option Nat) (fuel : Nat) (characters : Text) :
    Except String (List Text) :=
  match fuel, characters with
  | fuel + 1, c :: rest =>
    if c == singleQuote then do
      let (literal, rest) ← decodeSingleQuotedLiteral rest mode
      let literals ← extractLiteralsFrom mode fuel rest
      return literal :: literals
    else extractLiteralsFrom mode fuel rest
  | _, _ => .ok []

/-- The values of the string literals of a text. The scan ignores the other quotes. -/
def extractSingleQuotedLiteralsWithMode (sql : Text) (mode : Option Nat) :
    Except String (List Text) :=
  extractLiteralsFrom mode sql.length sql

end Ddl

end BinlogCdc
