import BinlogCdc.Ddl.Tokenizer
import BinlogCdc.Schema.Canonical

/-!
# Reading tokens, column types and numeric defaults

A parser reads the list of the tokens from its position on, looks at a token by its offset, and
returns the tokens that are left. Messages leave out the position and the token found there.
-/

namespace BinlogCdc

namespace Ddl

open Text

/-! ## Looking at tokens -/

/-- The token at an offset is a keyword, quoted or not. -/
def tokensMatch (tokens : List DdlToken) (offset : Nat) (expected : String) : Bool :=
  match tokens[offset]? with
  | some token => eqIgnoreAsciiCase token.text expected.toList
  | none => false

/-- The token at an offset is one of some keywords. -/
def tokenIsOneOf (tokens : List DdlToken) (offset : Nat) (expected : List String) : Bool :=
  expected.any fun keyword => tokensMatch tokens offset keyword

/-- The token at an offset is quoted. -/
def isQuoted (tokens : List DdlToken) (offset : Nat) : Bool :=
  match tokens[offset]? with
  | some token => token.quoted
  | none => false

/-- Refuse with a message. -/
def refuseIf (condition : Bool) (message : String) : Except String Unit :=
  if condition then .error message else .ok ()

/-- The token at an offset must be a keyword. -/
def requireKeyword (tokens : List DdlToken) (offset : Nat) (expected : String) :
    Except String Unit :=
  if tokensMatch tokens offset expected then .ok () else .error ("expected " ++ expected)

/-- The token at an offset must not be quoted; a missing token passes. -/
def requireUnquotedToken (tokens : List DdlToken) (offset : Nat) (context : String) :
    Except String Unit :=
  if isQuoted tokens offset then .error ("quoted token is unsupported for " ++ context)
  else .ok ()

/-- The token at an offset must be a keyword outside quotes. -/
def requireUnquotedKeyword (tokens : List DdlToken) (offset : Nat) (keyword : String) :
    Except String Unit :=
  if tokensMatch tokens offset keyword && !isQuoted tokens offset then .ok ()
  else .error ("expected " ++ keyword)

/-- A letter or an underscore, then letters, digits and underscores. -/
def isIdentifier : Text → Bool
  | [] => false
  | first :: rest => (first.isAlpha || first == '_') && rest.all fun c => c.isAlphanum || c == '_'

/-- The token at an offset as an identifier, quoted or not. -/
def requireIdentifier (tokens : List DdlToken) (offset : Nat) (context : String) :
    Except String Text :=
  match tokens[offset]? with
  | none => .error ("missing " ++ context)
  | some token =>
    if isIdentifier token.text then .ok token.text else .error ("invalid " ++ context)

/-- The token at an offset, which must exist and be unquoted. -/
def unquotedToken (tokens : List DdlToken) (offset : Nat) : Except String Text :=
  match tokens[offset]? with
  | none => .error "missing or quoted type token"
  | some token => if token.quoted then .error "missing or quoted type token" else .ok token.text

/-- Letters, digits and underscores, and at least one: the literals of enumerations, checks and
generation expressions. -/
def isWordLiteral (value : Text) : Bool :=
  !value.isEmpty && value.all fun c => c.isAlphanum || c == '_'

/-- An identifier in back quotes, a back quote within it doubled. -/
def quoteIdentifier (identifier : Text) : Text :=
  backQuote :: (identifier.flatMap fun c => if c == backQuote then [c, c] else [c]) ++ [backQuote]

/-- A character within a rendered string literal. -/
def escapedCharacter (c : Char) : Text :=
  if c == Char.ofNat 0 then [backslash, '0']
  else if c == '\n' then [backslash, 'n']
  else if c == '\r' then [backslash, 'r']
  else if c == '\t' then [backslash, 't']
  else if c == Char.ofNat 8 then [backslash, 'b']
  else if c == Char.ofNat 26 then [backslash, 'Z']
  else if c == backslash then [backslash, backslash]
  else if c == singleQuote then [singleQuote, singleQuote]
  else if c == doubleQuote then [backslash, doubleQuote]
  else [c]

/-- A string literal for a target that reads backslash escapes. -/
def quoteStringLiteral (value : Text) : Text :=
  singleQuote :: value.flatMap escapedCharacter ++ [singleQuote]

/-! ## Column types -/

/-- The token must not open parameters. -/
def rejectParameters (tokens : List DdlToken) : Except String Unit :=
  if tokensMatch tokens 0 "(" then .error "parameters are unsupported" else .ok ()

/-- A number in its canonical spelling, up to a maximum. -/
def parseCanonicalNumber (tokens : List DdlToken) (offset max : Nat) : Except String Nat := do
  let token ← unquotedToken tokens offset
  match parseU64 token with
  | none => .error "invalid type number"
  | some value =>
    if value > max || token != Nat.toDigits 10 value then .error "invalid type number"
    else .ok value

/-- A number in parentheses. -/
def parseOneNumber (tokens : List DdlToken) (max : Nat) : Except String (Nat × List DdlToken) := do
  let opening ← unquotedToken tokens 0
  refuseIf (opening != "(".toList) "expected type length or precision"
  let number ← parseCanonicalNumber tokens 1 max
  let closing ← unquotedToken tokens 2
  refuseIf (closing != ")".toList) "expected closing type parenthesis"
  return (number, tokens.drop 3)

/-- The scale of a decimal after its precision, and the offset of the closing parenthesis. -/
def parseDecimalScale (tokens : List DdlToken) : Except String (Nat × Nat) := do
  let separator ← unquotedToken tokens 2
  if separator == ",".toList then
    let scale ← parseCanonicalNumber tokens 3 30
    return (scale, 4)
  return (0, 2)

/-- The precision and scale of a decimal. -/
def parseDecimalSize (tokens : List DdlToken) : Except String (Nat × Nat × List DdlToken) := do
  if !tokensMatch tokens 0 "(" then return (10, 0, tokens)
  let opening ← unquotedToken tokens 0
  refuseIf (opening != "(".toList) "expected decimal precision"
  let precision ← parseCanonicalNumber tokens 1 65
  refuseIf (precision == 0) "decimal precision must be positive"
  let (scale, close) ← parseDecimalScale tokens
  refuseIf (scale > precision) "invalid decimal scale or closing parenthesis"
  let closing ← unquotedToken tokens close
  refuseIf (closing != ")".toList) "invalid decimal scale or closing parenthesis"
  return (precision, scale, tokens.drop (close + 1))

/-- The signedness of an integer. -/
def parseSignedness (tokens : List DdlToken) : Except String (Bool × List DdlToken) := do
  if tokensMatch tokens 0 "UNSIGNED" || tokensMatch tokens 0 "SIGNED" then
    let token ← unquotedToken tokens 0
    return (eqIgnoreAsciiCase token "UNSIGNED".toList, tokens.drop 1)
  return (false, tokens)

/-- The type text of a numeric kind. -/
def signedType (kind : Text) (unsigned : Bool) : Text :=
  kind ++ if unsigned then " unsigned".toList else []

/-- The tokens after a display width, which is read and forgotten. -/
def skipDisplayWidth (tokens : List DdlToken) : Except String (List DdlToken) := do
  if !tokensMatch tokens 0 "(" then return tokens
  let (width, next) ← parseOneNumber tokens 255
  refuseIf (width == 0) "integer display width must be positive"
  return next

/-- An integer type. -/
def parseIntegerType (tokens : List DdlToken) (kind : Text) :
    Except String (Text × List DdlToken) := do
  let next ← skipDisplayWidth tokens
  let (unsigned, next) ← parseSignedness next
  return (signedType kind unsigned, next)

/-- The tokens after the second word of a double precision. -/
def skipPrecisionWord (tokens : List DdlToken) (kind : Text) : Except String (List DdlToken) := do
  if kind == "double".toList && tokensMatch tokens 0 "PRECISION" then
    let _ ← unquotedToken tokens 0
    return tokens.drop 1
  return tokens

/-- A floating-point type. -/
def parseFloatType (tokens : List DdlToken) (kind : Text) :
    Except String (Text × List DdlToken) := do
  let next ← skipPrecisionWord tokens kind
  rejectParameters next
  if tokensMatch next 0 "UNSIGNED" then
    let _ ← unquotedToken next 0
    return (signedType kind true, next.drop 1)
  return (signedType kind false, next)

/-- The greatest length of a type with a length. -/
def maximumLength (kind : Text) : Nat :=
  if kind == "char".toList || kind == "binary".toList then 255 else 65535

/-- The type text of a kind with one parameter. -/
def sizedType (kind : Text) (size : Nat) : Text := kind ++ '(' :: Nat.toDigits 10 size ++ [')']

/-- A type with a length. -/
def parseLengthType (tokens : List DdlToken) (kind : Text) :
    Except String (Text × List DdlToken) := do
  let (length, next) ← parseOneNumber tokens (maximumLength kind)
  refuseIf (length == 0) "character or binary length must be positive"
  return (sizedType kind length, next)

/-- The type text of a temporal kind; precision zero is left out. -/
def temporalType (kind : Text) (precision : Nat) : Text :=
  if precision == 0 then kind else sizedType kind precision

/-- The type text of a decimal. -/
def decimalType (precision scale : Nat) : Text :=
  "decimal(".toList ++ Nat.toDigits 10 precision ++ ',' :: Nat.toDigits 10 scale ++ [')']

/-- The kinds of integers. -/
def integerKinds : List Text := ["tinyint", "smallint", "mediumint", "int", "bigint"].map (·.toList)

/-- The kinds of floating-point numbers. -/
def floatKinds : List Text := ["float", "double"].map (·.toList)

/-- The kinds with a length. -/
def lengthKinds : List Text := ["char", "varchar", "binary", "varbinary"].map (·.toList)

/-- The temporal kinds with a precision. -/
def temporalKinds : List Text := ["time", "datetime", "timestamp"].map (·.toList)

/-- The kinds without parameters. -/
def plainKinds : List Text :=
  ["tinytext", "text", "mediumtext", "longtext", "tinyblob", "blob", "mediumblob", "longblob",
    "date", "year", "json"].map (·.toList)

/-- The data type a type name stands for. -/
def dataTypeOf (kind : Text) : Option Text :=
  if kind == "integer".toList then some "int".toList
  else if kind == "bool".toList || kind == "boolean".toList then some "tinyint".toList
  else if kind == "numeric".toList then some "decimal".toList
  else if integerKinds.contains kind || kind == "decimal".toList || floatKinds.contains kind ||
      lengthKinds.contains kind || temporalKinds.contains kind || plainKinds.contains kind then
    some kind
  else none

/-- The parameters and the signedness of a type. -/
def parseTypeDetails (tokens : List DdlToken) (sourceKind dataType : Text) :
    Except String (Text × List DdlToken) :=
  if integerKinds.contains dataType then
    if sourceKind == "bool".toList || sourceKind == "boolean".toList then do
      rejectParameters tokens
      return ("tinyint".toList, tokens)
    else parseIntegerType tokens dataType
  else if dataType == "decimal".toList then do
    let (precision, scale, next) ← parseDecimalSize tokens
    return (decimalType precision scale, next)
  else if floatKinds.contains dataType then parseFloatType tokens dataType
  else if lengthKinds.contains dataType then parseLengthType tokens dataType
  else if temporalKinds.contains dataType then
    if tokensMatch tokens 0 "(" then do
      let (precision, next) ← parseOneNumber tokens 6
      return (temporalType dataType precision, next)
    else .ok (dataType, tokens)
  else do
    rejectParameters tokens
    return (dataType, tokens)

/-- A column type other than an enumeration: its text, its data type and the tokens left. -/
def parseColumnType (tokens : List DdlToken) : Except String (Text × Text × List DdlToken) := do
  let token ← unquotedToken tokens 0
  let kind := toAsciiLowercase token
  match dataTypeOf kind with
  | none => .error "unsupported column type"
  | some dataType =>
    let (columnType, next) ← parseTypeDetails (tokens.drop 1) kind dataType
    refuseIf (tokenIsOneOf next 0 ["UNSIGNED", "SIGNED", "ZEROFILL"])
      "unsupported column type qualifier"
    return (columnType, dataType, next)

/-! ## Enumerations -/

/-- The token at an offset must be a keyword outside quotes. -/
def requireEnumToken (tokens : List DdlToken) (offset : Nat) (keyword : String) :
    Except String Unit := do
  requireUnquotedToken tokens offset "ENUM"
  requireKeyword tokens offset keyword

/-- The labels of an enumeration from the next literal on, rendered, as many as the fuel allows;
the tokens left start with the closing parenthesis. -/
def parseEnumMembers (fuel : Nat) (tokens : List DdlToken) (literals : List Text) :
    Except String (List Text × List DdlToken × List Text) :=
  match fuel with
  | 0 => .error "missing ENUM literal"
  | fuel + 1 => do
    requireEnumToken tokens 0 "<string>"
    match literals with
    | [] => .error "missing ENUM literal"
    | value :: literals =>
      refuseIf (!isWordLiteral value) "unmodeled ENUM member"
      if tokensMatch tokens 1 "," then
        requireEnumToken tokens 1 ","
        let (members, rest) ← parseEnumMembers fuel (tokens.drop 2) literals
        return (quoteStringLiteral value :: members, rest)
      return ([quoteStringLiteral value], tokens.drop 1, literals)

/-- The type text of an enumeration with rendered labels. -/
def enumType (members : List Text) : Text :=
  "enum(".toList ++ [','].intercalate members ++ [')']

/-- An enumeration. Every label takes a token, so their number is fuel enough. -/
def parseEnumType (tokens : List DdlToken) (literals : List Text) :
    Except String (Text × List DdlToken × List Text) := do
  requireEnumToken tokens 0 "ENUM"
  requireEnumToken tokens 1 "("
  let (members, next, literals) ← parseEnumMembers tokens.length (tokens.drop 2) literals
  requireEnumToken next 0 ")"
  return (enumType members, next.drop 1, literals)

/-! ## Numeric defaults -/

/-- The texts of the double-precision numbers, as the standard library reads and prints them. -/
structure FloatFormat where
  /-- The numbers, the infinite ones and the undefined ones included. -/
  Value : Type
  /-- The number a text reads as. -/
  parse : Text → Option Value
  /-- Neither infinite nor undefined. -/
  isFinite : Value → Bool
  /-- Below zero; a negative zero is not. -/
  isNegative : Value → Bool
  /-- The shortest decimal text that reads as the number. -/
  display : Value → Text

/-- Digits with an optional fraction and an optional minus sign. -/
def IsDecimalText (text : Text) : Prop :=
  ∃ (negative : Bool) (whole : Text) (fraction : Option Text),
    whole ≠ [] ∧ (∀ c ∈ whole, c.isDigit = true) ∧
    (∀ digits ∈ fraction, digits ≠ [] ∧ ∀ c ∈ digits, c.isDigit = true) ∧
    text = (if negative then ['-'] else []) ++ whole ++
      (match fraction with | none => [] | some digits => '.' :: digits)

/-- What the standard library documents about its numbers: a finite number is printed in decimal
notation without an exponent, and its text reads as the number again. -/
structure FloatFormat.Documented (format : FloatFormat) : Prop where
  display_decimal : ∀ value, format.isFinite value = true → IsDecimalText (format.display value)
  parse_display : ∀ value, format.isFinite value = true →
    format.parse (format.display value) = some value

/-- A format without any numbers. -/
def emptyFormat : FloatFormat where
  Value := Empty
  parse _ := none
  isFinite value := nomatch value
  isNegative value := nomatch value
  display value := nomatch value

/-- The text of an integer. -/
def integerText (value : Int) : Text :=
  (if value < 0 then ['-'] else []) ++ Nat.toDigits 10 value.natAbs

/-- The value of digits. -/
def digitsValue (digits : Text) : Option Nat :=
  if digits.isEmpty || !digits.all Char.isDigit then none
  else some (digits.foldl (fun value d => 10 * value + decimalDigit d) 0)

/-- The value of a text as a signed integer of 128 bits. -/
def parseI128 (literal : Text) : Option Int :=
  let value : Option Int :=
    match literal with
    | [] => none
    | c :: digits =>
      if c == '-' then (digitsValue digits).map fun value => -value
      else if c == '+' then (digitsValue digits).map fun value => value
      else (digitsValue (c :: digits)).map fun value => value
  value.filter fun value => -(2 ^ 127) ≤ value && value < 2 ^ 127

/-- The width of an integer kind. -/
def integerBits (kind : Text) : Nat :=
  if kind == "tinyint".toList then 8
  else if kind == "smallint".toList then 16
  else if kind == "mediumint".toList then 24
  else if kind == "int".toList then 32
  else 64

/-- The least value of an integer column. -/
def integerLower (kind : Text) (unsigned : Bool) : Int :=
  if unsigned then 0 else -(2 ^ (integerBits kind - 1))

/-- The greatest value of an integer column. -/
def integerUpper (kind : Text) (unsigned : Bool) : Int :=
  if unsigned then 2 ^ integerBits kind - 1 else 2 ^ (integerBits kind - 1) - 1

/-- A default of an integer column. -/
def normalizeInteger (kind : Text) (unsigned : Bool) (literal : Text) : Except String Text :=
  match parseI128 literal with
  | none => .error "invalid integer default"
  | some value =>
    if integerLower kind unsigned ≤ value && value ≤ integerUpper kind unsigned then
      .ok (integerText value)
    else .error "integer default out of range"

/-- A default of a floating-point column. -/
def normalizeFloat (format : FloatFormat) (unsigned : Bool) (literal : Text) :
    Except String Text :=
  match format.parse literal with
  | none => .error "invalid floating default"
  | some value =>
    if !format.isFinite value || (unsigned && format.isNegative value) then
      .error "floating default is nonfinite or negative"
    else .ok (format.display value)

/-- The text after a prefix. -/
def stripPrefix? (start text : Text) : Option Text :=
  if start.isPrefixOf text then some (text.drop start.length) else none

/-- The text before a suffix. -/
def stripSuffix? (ending text : Text) : Option Text :=
  if ending.isSuffixOf text then some (text.take (text.length - ending.length)) else none

theorem stripPrefix_append (start rest : Text) : stripPrefix? start (start ++ rest) = some rest := by
  unfold stripPrefix?
  have hprefix : start.isPrefixOf (start ++ rest) = true :=
    List.isPrefixOf_iff_prefix.mpr (List.prefix_append start rest)
  rw [if_pos hprefix, List.drop_left]

theorem stripSuffix_append (ending rest : Text) :
    stripSuffix? ending (rest ++ ending) = some rest := by
  unfold stripSuffix?
  have hsuffix : ending.isSuffixOf (rest ++ ending) = true :=
    List.isSuffixOf_iff_suffix.mpr (List.suffix_append rest ending)
  rw [if_pos hsuffix, List.length_append, Nat.add_sub_cancel, List.take_left]

/-- The precision and scale of a decimal type text. -/
def parseDecimalDimensions (kind : Text) : Except String (Nat × Nat) :=
  let dimensions := do
    let inner ← stripPrefix? "decimal(".toList kind
    let inner ← stripSuffix? [')'] inner
    let (precision, scale) ← splitOnce [','] inner
    let precision ← parseU64 precision
    let scale ← parseU64 scale
    return (precision, scale)
  match dimensions with
  | none => .error "invalid decimal type"
  | some (precision, scale) =>
    if precision == 0 || precision > 65 || scale > 30 || scale > precision then
      .error "invalid decimal type"
    else .ok (precision, scale)

/-- The sign and the digits of a decimal literal. -/
def decimalSign (unsigned : Bool) (literal : Text) : Except String (Bool × Text) :=
  match literal with
  | [] => .ok (false, [])
  | c :: digits =>
    if c == '-' then
      if unsigned then .error "negative unsigned decimal default" else .ok (true, digits)
    else if c == '+' then .ok (false, digits)
    else .ok (false, c :: digits)

/-- The digits before the point without leading zeros. -/
def trimmedWhole (whole : Text) : Text :=
  let trimmed := whole.dropWhile (· == '0')
  if trimmed.isEmpty then ['0'] else trimmed

/-- A default of a decimal column: no leading zeros, the fraction padded to the scale. -/
def normalizeDecimal (kind : Text) (unsigned : Bool) (literal : Text) : Except String Text := do
  let (precision, scale) ← parseDecimalDimensions kind
  let (negative, digits) ← decimalSign unsigned literal
  let (whole, fraction) := (splitOnce ['.'] digits).getD (digits, [])
  refuseIf (whole.isEmpty || ['.'].isSuffixOf digits || !whole.all Char.isDigit ||
    !fraction.all Char.isDigit) "invalid decimal default"
  let whole := trimmedWhole whole
  let fraction := trimEndMatches (· == '0') fraction
  let significantWholeDigits := if whole == ['0'] then 0 else whole.length
  refuseIf (fraction.length > scale || significantWholeDigits > precision - scale)
    "decimal default out of range"
  let sign := if negative && (whole != ['0'] || !fraction.isEmpty) then ['-'] else []
  if scale == 0 then return sign ++ whole
  return sign ++ whole ++ '.' :: fraction ++ List.replicate (scale - fraction.length) '0'

/-- A numeric default as the server reports it. -/
def normalizeNumericDefault (format : FloatFormat) (columnType literal : Text) :
    Except String Text :=
  let unsigned := " unsigned".toList.isSuffixOf columnType
  let kind := (stripSuffix? " unsigned".toList columnType).getD columnType
  if integerKinds.contains kind then normalizeInteger kind unsigned literal
  else if floatKinds.contains kind then normalizeFloat format unsigned literal
  else if "decimal(".toList.isPrefixOf kind then normalizeDecimal kind unsigned literal
  else .error "not a numeric column type"

end Ddl

end BinlogCdc
