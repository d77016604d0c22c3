import BinlogCdc.Core.PrefixCode
import BinlogCdc.Ddl.AlterRender
import BinlogCdc.Ddl.Lexeme

/-!
# The default the target reports for a column

A text column keeps its default as the source text of an expression, with an introducer and
two layers of backslashes. Creating a column predicts that text by decoding the literal it
rendered; adding a column and altering its default encode the value itself. The predictions
agree for every ASCII value, and they tell different values apart.
-/

namespace BinlogCdc

namespace Ddl

open Text

/-! ## Predictions -/

/-- A character in the default a text column reports. -/
def textDefaultCharacter (c : Char) : Text :=
  if c == Char.ofNat 0 then [backslash, backslash, '0']
  else if c == '\n' then [backslash, backslash, 'n']
  else if c == '\r' then [backslash, backslash, 'r']
  else if c == Char.ofNat 26 then [backslash, backslash, 'Z']
  else if c == backslash then [backslash, backslash, backslash, backslash]
  else if c == singleQuote then [backslash, backslash, backslash, singleQuote]
  else [c]

/-- The default a text column reports for a value. -/
def mysqlTextDefaultMetadata (value : Text) : Text :=
  "_utf8mb4\\'".toList ++ value.flatMap textDefaultCharacter ++ "\\'".toList

/-- A column of a CREATE TABLE. -/
structure ParsedCreateColumnAst where
  name : Text
  columnType : Text
  nullable : Bool
  defaultSql : Option Text
  autoIncrement : Bool
  onUpdateCurrentTimestamp : Bool
  characterSet : Option Text
  collation : Option Text
  comment : Text
  generated : Option ParsedStoredGeneration
  deriving DecidableEq, Repr

/-- The default CREATE TABLE renders for a string literal of a column kind. -/
def createStringDefault (kind value : Text) : Text :=
  if isTextType kind then textExpressionDefault value else quoteStringLiteral value

/-- The first literal of a text between single quotes, read with backslash escapes. -/
def rereadLiteral (literal : Text) : Except String Text := do
  let literals ←
    extractSingleQuotedLiteralsWithMode (singleQuote :: literal ++ [singleQuote]) (some 0)
  match literals with
  | [] => .error "no literal"
  | value :: _ => return value

/-- The literal of the expression default of a text column. -/
def textExpressionLiteral? (sql : Text) : Option Text := do
  let rest ← stripPrefix? "(_utf8mb4'".toList sql
  stripSuffix? "')".toList rest

/-- The literal of a quoted default. -/
def quotedLiteral? (sql : Text) : Option Text := do
  let rest ← stripPrefix? [singleQuote] sql
  stripSuffix? [singleQuote] rest

/-- The default a created column reports, and whether it is marked as generated. -/
def expectedCreateColumnDefault : Option Text → Except String (Option Text × Bool)
  | none => .ok (none, false)
  | some sql =>
    if eqIgnoreAsciiCase sql "NULL".toList then .ok (none, false)
    else if eqIgnoreAsciiCase (sql.take 17) "CURRENT_TIMESTAMP".toList then .ok (some sql, true)
    else
      match textExpressionLiteral? sql with
      | some literal => do
        let value ← rereadLiteral literal
        return (some (mysqlTextDefaultMetadata value), true)
      | none =>
        match quotedLiteral? sql with
        | some literal => do
          let value ← rereadLiteral literal
          return (some value, false)
        | none => .ok (some sql, false)

/-- The spelling of CURRENT_TIMESTAMP with the precision of a column type. -/
def currentTimestampFor (columnType : Text) : Text :=
  match stripSuffix? [')'] columnType with
  | none => "CURRENT_TIMESTAMP".toList
  | some kind =>
    if '(' ∈ kind then
      "CURRENT_TIMESTAMP(".toList ++ (kind.reverse.takeWhile (· != '(')).reverse ++ [')']
    else "CURRENT_TIMESTAMP".toList

/-- The extra attributes a created column reports. -/
def expectedCreateColumnExtra (column : ParsedCreateColumnAst) (generatedDefault : Bool) : Text :=
  if column.autoIncrement then "auto_increment".toList
  else if column.generated.isSome then "STORED GENERATED".toList
  else
    let onUpdate := currentTimestampFor column.columnType
    match generatedDefault, column.onUpdateCurrentTimestamp with
    | true, true => "DEFAULT_GENERATED on update ".toList ++ onUpdate
    | true, false => "DEFAULT_GENERATED".toList
    | false, true => "on update ".toList ++ onUpdate
    | false, false => []

/-- The default and the extra attributes an added column reports. -/
def expectedAddedColumnDefault (dataType : Text) (default : Option Text) : Option Text × Text :=
  match default with
  | some value =>
    if isTextType dataType then
      (some (mysqlTextDefaultMetadata value), "DEFAULT_GENERATED".toList)
    else (some value, [])
  | none => (none, [])

/-- The data types whose defaults are numeric literals. -/
def takesNumericDefault (dataType : Text) : Bool :=
  (["tinyint", "smallint", "mediumint", "int", "bigint", "decimal", "float",
    "double"].map (·.toList)).contains dataType

/-- The default a column reports after ALTER COLUMN, and whether it is marked as generated. -/
def normalizeAlterColumnDefault (format : FloatFormat) (columnType dataType : Text)
    (nullable : Bool) : Option ParsedColumnDefault → Except String (Option Text × Bool)
  | none => .ok (none, false)
  | some .null =>
    if nullable then .ok (none, false) else .error "NOT NULL column cannot have DEFAULT NULL"
  | some (.string value) =>
    if isTextType dataType then .ok (some (mysqlTextDefaultMetadata value), true)
    else if takesStringDefault dataType then .ok (some value, false)
    else .error ("unsupported literal default for " ++ String.ofList columnType)
  | some (.number value) =>
    if takesNumericDefault dataType then do
      let normalized ← normalizeNumericDefault format columnType value
      return (some normalized, false)
    else .error ("unsupported literal default for " ++ String.ofList columnType)

/-- The extra attributes of a column after its default is set. -/
def replaceDefaultGeneratedExtra (extra : Text) (generated : Bool) : Text :=
  let remaining := trimStart ((stripPrefix? "DEFAULT_GENERATED".toList extra).getD extra)
  match generated, remaining.isEmpty with
  | true, true => "DEFAULT_GENERATED".toList
  | true, false => "DEFAULT_GENERATED ".toList ++ remaining
  | false, _ => remaining

/-! ## Reading a rendered literal back -/

variable {value : Text}

/-- The characters of a text are ASCII. -/
def IsAsciiText (text : Text) : Prop := ∀ c ∈ text, isAsciiCharacter c = true

theorem rereadLiteral_escaped (hascii : IsAsciiText value) :
    rereadLiteral (value.flatMap escapedCharacter) = .ok value := by
  have hdecode : decodeSingleQuotedLiteral (value.flatMap escapedCharacter ++ [singleQuote])
      (some 0) = .ok (value, []) := by
    apply decodeLiteralFrom_escaped hascii
    simp
  have hliterals : extractSingleQuotedLiteralsWithMode
      (singleQuote :: value.flatMap escapedCharacter ++ [singleQuote]) (some 0) = .ok [value] := by
    unfold extractSingleQuotedLiteralsWithMode
    rw [List.cons_append, List.length_cons, extractLiteralsFrom, if_pos (beq_self_eq_true _),
      hdecode]
    cases (value.flatMap escapedCharacter ++ [singleQuote]).length <;> rfl
  rw [rereadLiteral, hliterals]
  rfl

theorem append_quoteStringLiteral (start value : Text) :
    start ++ quoteStringLiteral value ++ [')'] =
      (start ++ [singleQuote]) ++ (value.flatMap escapedCharacter ++ [singleQuote, ')']) := by
  simp [quoteStringLiteral]

theorem textExpressionLiteral?_rendered (value : Text) :
    textExpressionLiteral? (textExpressionDefault value) =
      some (value.flatMap escapedCharacter) := by
  have hsplit : textExpressionDefault value =
      "(_utf8mb4'".toList ++ (value.flatMap escapedCharacter ++ "')".toList) :=
    append_quoteStringLiteral "(_utf8mb4".toList value
  rw [hsplit, textExpressionLiteral?, stripPrefix_append]
  exact stripSuffix_append _ _

theorem textExpressionLiteral?_quoted (value : Text) :
    textExpressionLiteral? (quoteStringLiteral value) = none := by
  have hstart : "(_utf8mb4'".toList.isPrefixOf (quoteStringLiteral value) = false := rfl
  rw [textExpressionLiteral?, stripPrefix?, hstart]
  rfl

theorem quotedLiteral?_rendered (value : Text) :
    quotedLiteral? (quoteStringLiteral value) = some (value.flatMap escapedCharacter) := by
  have hsplit : quoteStringLiteral value =
      [singleQuote] ++ (value.flatMap escapedCharacter ++ [singleQuote]) := rfl
  rw [hsplit, quotedLiteral?, stripPrefix_append]
  exact stripSuffix_append _ _

/-- The rendered expression of a text default is reported with its value encoded again. -/
theorem expectedCreateColumnDefault_expression (hascii : IsAsciiText value) :
    expectedCreateColumnDefault (some (textExpressionDefault value)) =
      .ok (some (mysqlTextDefaultMetadata value), true) := by
  have hnull : eqIgnoreAsciiCase (textExpressionDefault value) "NULL".toList = false := rfl
  have htimestamp : eqIgnoreAsciiCase ((textExpressionDefault value).take 17)
      "CURRENT_TIMESTAMP".toList = false := rfl
  rw [expectedCreateColumnDefault, hnull, htimestamp, textExpressionLiteral?_rendered]
  simp only [Bool.false_eq_true, if_false, rereadLiteral_escaped hascii]
  rfl

/-- A rendered string literal is reported as its value. -/
theorem expectedCreateColumnDefault_quoted (hascii : IsAsciiText value) :
    expectedCreateColumnDefault (some (quoteStringLiteral value)) = .ok (some value, false) := by
  have hnull : eqIgnoreAsciiCase (quoteStringLiteral value) "NULL".toList = false := rfl
  have htimestamp : eqIgnoreAsciiCase ((quoteStringLiteral value).take 17)
      "CURRENT_TIMESTAMP".toList = false := rfl
  rw [expectedCreateColumnDefault, hnull, htimestamp, textExpressionLiteral?_quoted,
    quotedLiteral?_rendered]
  simp only [Bool.false_eq_true, if_false, rereadLiteral_escaped hascii]
  rfl

/-! ## Different values are reported differently -/

theorem textDefaultCharacter_ne_nil (c : Char) : textDefaultCharacter c ≠ [] := by
  unfold textDefaultCharacter
  split_ifs <;> simp

/-- The character whose report begins a text. -/
def leadingCharacter : Text → Option Char
  | [] => none
  | c :: rest =>
    if c == backslash then
      match rest with
      | _ :: e :: rest =>
        if e == '0' then some (Char.ofNat 0)
        else if e == 'n' then some '\n'
        else if e == 'r' then some '\r'
        else if e == 'Z' then some (Char.ofNat 26)
        else rest.head?
      | _ => none
    else some c

theorem leadingCharacter_report (c : Char) (rest : Text) :
    leadingCharacter (textDefaultCharacter c ++ rest) = some c := by
  unfold textDefaultCharacter
  split_ifs with h0 hn hr hz hbackslash hquote
  · rw [eq_of_beq h0]; rfl
  · rw [eq_of_beq hn]; rfl
  · rw [eq_of_beq hr]; rfl
  · rw [eq_of_beq hz]; rfl
  · rw [eq_of_beq hbackslash]; rfl
  · rw [eq_of_beq hquote]; rfl
  · simp [leadingCharacter, hbackslash]

/-- No character is reported as the start of another. -/
theorem textDefaultCharacter_prefixFree : Core.PrefixFree textDefaultCharacter :=
  Core.PrefixFree.of_lead leadingCharacter_report

theorem mysqlTextDefaultMetadata_injective : Function.Injective mysqlTextDefaultMetadata := by
  intro left right h
  apply textDefaultCharacter_prefixFree.flatMap_injective textDefaultCharacter_ne_nil
  exact List.append_cancel_left (List.append_cancel_right h)

/-! ## Agreement of the predictions -/

/-- The extra attributes of a column whose only one may be its generated default. -/
def generatedExtra (generated : Bool) : Text :=
  if generated then "DEFAULT_GENERATED".toList else []

/-- A column without the attributes that replace or follow its default. -/
structure ParsedCreateColumnAst.Plain (column : ParsedCreateColumnAst) : Prop where
  autoIncrement : column.autoIncrement = false
  generated : column.generated = none
  onUpdate : column.onUpdateCurrentTimestamp = false

/-- Creating, adding and altering a column of a data type predict one default for a value. -/
structure PredictsDefault (format : FloatFormat) (dataType value default : Text)
    (generated : Bool) : Prop where
  create : expectedCreateColumnDefault (some (createStringDefault dataType value)) =
    .ok (some default, generated)
  createExtra : ∀ column : ParsedCreateColumnAst, column.Plain →
    expectedCreateColumnExtra column generated = generatedExtra generated
  add : expectedAddedColumnDefault dataType (some value) =
    (some default, generatedExtra generated)
  alter : ∀ columnType nullable,
    normalizeAlterColumnDefault format columnType dataType nullable (some (.string value)) =
      .ok (some default, generated)
  alterExtra : ∀ before,
    replaceDefaultGeneratedExtra (generatedExtra before) generated = generatedExtra generated

theorem expectedCreateColumnExtra_plain {column : ParsedCreateColumnAst} (h : column.Plain)
    (generated : Bool) : expectedCreateColumnExtra column generated = generatedExtra generated := by
  simp only [expectedCreateColumnExtra, h.autoIncrement, h.generated, h.onUpdate]
  cases generated <;> rfl

theorem replaceDefaultGeneratedExtra_generatedExtra (before generated : Bool) :
    replaceDefaultGeneratedExtra (generatedExtra before) generated = generatedExtra generated := by
  cases before <;> cases generated <;> decide +kernel

variable (format : FloatFormat) {dataType : Text}

theorem predictsDefault_text (htype : isTextType dataType = true) (hascii : IsAsciiText value) :
    PredictsDefault format dataType value (mysqlTextDefaultMetadata value) true where
  create := by
    rw [createStringDefault, if_pos htype]
    exact expectedCreateColumnDefault_expression hascii
  createExtra _ hplain := expectedCreateColumnExtra_plain hplain true
  add := by
    rw [expectedAddedColumnDefault, if_pos htype]
    rfl
  alter columnType nullable := by
    rw [normalizeAlterColumnDefault, if_pos htype]
  alterExtra before := replaceDefaultGeneratedExtra_generatedExtra before true

theorem predictsDefault_string (htype : isTextType dataType = false)
    (hstring : takesStringDefault dataType = true) (hascii : IsAsciiText value) :
    PredictsDefault format dataType value value false where
  create := by
    rw [createStringDefault, htype]
    exact expectedCreateColumnDefault_quoted hascii
  createExtra _ hplain := expectedCreateColumnExtra_plain hplain false
  add := by
    rw [expectedAddedColumnDefault, htype]
    rfl
  alter columnType nullable := by
    rw [normalizeAlterColumnDefault, htype, hstring]
    rfl
  alterExtra before := replaceDefaultGeneratedExtra_generatedExtra before false

/-- Every way to give a column an ASCII string default predicts the same report, the encoded
value for the text types and the value itself for the character types. Different values of a
text column are reported differently. -/
theorem stringDefault_predictions (format : FloatFormat) :
    (∀ dataType value, isTextType dataType = true → IsAsciiText value →
      PredictsDefault format dataType value (mysqlTextDefaultMetadata value) true) ∧
    (∀ dataType value, dataType = "char".toList ∨ dataType = "varchar".toList →
      IsAsciiText value → PredictsDefault format dataType value value false) ∧
    Function.Injective mysqlTextDefaultMetadata := by
  refine ⟨?_, ?_, mysqlTextDefaultMetadata_injective⟩
  · intro dataType value htype hascii
    exact predictsDefault_text format htype hascii
  · intro dataType value hkind hascii
    rcases hkind with rfl | rfl
    · exact predictsDefault_string format rfl rfl hascii
    · exact predictsDefault_string format rfl rfl hascii

theorem stringDefault_predictions_quote :
    PredictsDefault emptyFormat "text".toList "it's\\".toList
        "_utf8mb4\\'it\\\\\\'s\\\\\\\\\\'".toList true ∧
      PredictsDefault emptyFormat "varchar".toList "it's\\".toList "it's\\".toList false := by
  have hascii : IsAsciiText "it's\\".toList := by
    unfold IsAsciiText
    decide
  have hmetadata : mysqlTextDefaultMetadata "it's\\".toList =
      "_utf8mb4\\'it\\\\\\'s\\\\\\\\\\'".toList := by
    decide
  obtain ⟨htext, hstring, -⟩ := stringDefault_predictions emptyFormat
  exact ⟨hmetadata ▸ htext _ _ rfl hascii, hstring _ _ (.inr rfl) hascii⟩

end Ddl

end BinlogCdc
