import BinlogCdc.Sql.Statement

/-!
# The query tokenizer

The tokenizer that finds qualified names in the text of a query event. It skips
whitespace and comments, keeps quoted and bare identifiers, and reduces strings,
numbers and other characters to their kind.
-/

namespace BinlogCdc

/-- The tokens of a query text. -/
inductive QueryToken where
  /-- A bare or quoted identifier. -/
  | identifier (name : Text)
  /-- A number. -/
  | number
  /-- A dot. -/
  | dot
  /-- A string literal. -/
  | string
  /-- Any other character. -/
  | other
  deriving DecidableEq, Repr

/-- The no-backslash-escapes bit of an SQL mode. -/
def noBackslashEscapes (mode : Option Nat) : Option Bool := mode.map fun bits => bits.testBit 20

/-- A double dash starts a comment at the end of the text or before a blank or a control. -/
def isMysqlLineCommentStart (character : Char) (next nextNext : Option Char) : Bool :=
  character == '-' && next == some '-' &&
    match nextNext with
    | none => true
    | some afterDash => Text.isWhitespace afterDash || Text.isControl afterDash

/-- The text from the end of the line on. -/
def skipQueryLineComment (characters : Text) : Text := characters.dropWhile (· != '\n')

/-- The text after the block comment, empty if the comment does not end. -/
def skipQueryBlockComment : Text → Text
  | [] => []
  | c :: rest =>
    match c, rest with
    | '*', '/' :: rest => rest
    | _, rest => skipQueryBlockComment rest

/-- The quoted identifier after its opening quote, and the text after its closing quote; a
doubled quote is one quote of the name. -/
def queryQuotedIdentifier (quote : Char) : Text → Text × Text
  | [] => ([], [])
  | c :: rest =>
    if c == quote then
      match rest with
      | next :: rest =>
        if next == quote then
          let (value, rest) := queryQuotedIdentifier quote rest
          (quote :: value, rest)
        else ([], next :: rest)
      | [] => ([], [])
    else
      let (value, rest) := queryQuotedIdentifier quote rest
      (c :: value, rest)

/-- The text after a string literal, from after its opening quote. -/
def skipQueryString (noBackslashEscapes : Bool) (escaped : Bool) : Text → Text
  | [] => []
  | c :: rest =>
    if escaped then skipQueryString noBackslashEscapes false rest
    else if c == backslash && !noBackslashEscapes then
      skipQueryString noBackslashEscapes true rest
    else if c == singleQuote then
      match rest with
      | next :: rest =>
        if next == singleQuote then skipQueryString noBackslashEscapes false rest
        else next :: rest
      | [] => []
    else skipQueryString noBackslashEscapes false rest

/-- The characters that continue a bare identifier. -/
def isIdentifierCharacter (c : Char) : Bool := c.isAlphanum || c == '_' || c == '$'

/-- The characters that continue a number. -/
def isNumberCharacter (c : Char) : Bool := c.isAlphanum || c == '_'

/-- The token that starts with a character, and the text after it. -/
def nextQueryToken (noBackslashEscapes : Bool) (character : Char) (rest : Text) :
    Option QueryToken × Text :=
  if Text.isWhitespace character then (none, rest)
  else if character == '#' then (none, skipQueryLineComment rest)
  else if isMysqlLineCommentStart character rest.head? (rest.drop 1).head? then
    (none, skipQueryLineComment (rest.drop 1))
  else if character == '/' && rest.head? == some '*' then
    (none, skipQueryBlockComment (rest.drop 1))
  else if character == backQuote || character == doubleQuote then
    let (name, rest) := queryQuotedIdentifier character rest
    (some (.identifier name), rest)
  else if character == singleQuote then
    (some .string, skipQueryString noBackslashEscapes false rest)
  else if character == '.' then (some .dot, rest)
  else if character.isAlpha || character == '_' || character == '$' then
    (some (.identifier (character :: rest.takeWhile isIdentifierCharacter)),
      rest.dropWhile isIdentifierCharacter)
  else if character.isDigit then (some .number, rest.dropWhile isNumberCharacter)
  else (some .other, rest)

/-- The tokens of a text, as many steps as the fuel allows. -/
def queryTokensFrom (noBackslashEscapes : Bool) (fuel : Nat) (characters : Text) :
    List QueryToken :=
  match fuel, characters with
  | fuel + 1, character :: rest =>
    let (token, rest) := nextQueryToken noBackslashEscapes character rest
    token.toList ++ queryTokensFrom noBackslashEscapes fuel rest
  | _, _ => []

/-- The tokens of a query text. Every step consumes a character, so the length is fuel
enough. -/
def queryTokensWithMode (sql : Text) (noBackslashEscapes : Bool) : List QueryToken :=
  queryTokensFrom noBackslashEscapes sql.length sql

/-- Some identifier with the schema's name, up to ASCII case, is followed by a dot. -/
def tokensReferenceSchema (schema : Text) : List QueryToken → Bool
  | .identifier name :: .dot :: rest =>
    Text.eqIgnoreAsciiCase name schema || tokensReferenceSchema schema rest
  | _ :: rest => tokensReferenceSchema schema rest
  | [] => false

/-- The query names an object qualified by the schema. -/
@[irreducible] def queryReferencesSchemaWithMode (sql schema : Text) (noBackslashEscapes : Bool) : Bool :=
  tokensReferenceSchema schema (queryTokensWithMode sql noBackslashEscapes)

/-- Two identifiers are joined by a dot. -/
def tokensContainQualifiedIdentifier : List QueryToken → Bool
  | .identifier _ :: .dot :: .identifier _ :: _ => true
  | _ :: rest => tokensContainQualifiedIdentifier rest
  | [] => false

/-- The query contains a qualified name. -/
@[irreducible] def queryContainsQualifiedIdentifierWithMode (sql : Text) (noBackslashEscapes : Bool) : Bool :=
  tokensContainQualifiedIdentifier (queryTokensWithMode sql noBackslashEscapes)

end BinlogCdc
