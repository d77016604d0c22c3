import BinlogCdc.Schema.Coercion

/-!
# Column types and their texts

The types of columns as the endpoints write them, and what the planner reads back: lengths,
precision and scale, signs and labels.
-/

namespace BinlogCdc.SyncSchema

inductive IntegerKind where
  | tinyint
  | smallint
  | mediumint
  | int
  | integer
  | bigint
deriving DecidableEq, Repr

/-- The type of a column. Integers can have a display width. -/
inductive ColumnKind where
  | integer (kind : IntegerKind) (width : Option Nat) (unsigned zerofill : Bool)
  | decimal (precision scale : Nat) (unsigned zerofill : Bool)
  | char (length : Nat)
  | varchar (length : Nat)
  | enum (labels : List String)
  | datetime (digits : Nat)
  | timestamp (digits : Nat)
deriving DecidableEq, Repr

def IntegerKind.name : IntegerKind → String
  | .tinyint => "tinyint"
  | .smallint => "smallint"
  | .mediumint => "mediumint"
  | .int => "int"
  | .integer => "integer"
  | .bigint => "bigint"

def ColumnKind.dataType : ColumnKind → String
  | .integer kind _ _ _ => kind.name
  | .decimal _ _ _ _ => "decimal"
  | .char _ => "char"
  | .varchar _ => "varchar"
  | .enum _ => "enum"
  | .datetime _ => "datetime"
  | .timestamp _ => "timestamp"

/-- A number in parentheses. -/
def parenthesized (number : Nat) : Text := '(' :: (Nat.toDigits 10 number ++ [')'])

/-- The attributes after a numeric type. -/
def numericAttributes (unsigned zerofill : Bool) : Text :=
  (if unsigned then " unsigned".toList else []) ++ if zerofill then " zerofill".toList else []

/-- A character of a label as the endpoints write it: quotes are doubled, and the backslash and
three control characters are escaped. -/
def labelCharacter (character : Char) : Text :=
  if character = singleQuote then [singleQuote, singleQuote]
  else if character = backslash then [backslash, backslash]
  else if character = Char.ofNat 0 then [backslash, '0']
  else if character = '\n' then [backslash, 'n']
  else if character = '\r' then [backslash, 'r']
  else [character]

def renderLabel (label : String) : Text :=
  singleQuote :: (label.toList.flatMap labelCharacter ++ [singleQuote])

/-- The fractional digits of a moment; none are written for whole seconds. -/
def fractionalDigits (digits : Nat) : Text := if digits = 0 then [] else parenthesized digits

/-- What follows the name of a type. -/
def ColumnKind.parameters : ColumnKind → Text
  | .integer _ width unsigned zerofill =>
    width.elim [] parenthesized ++ numericAttributes unsigned zerofill
  | .decimal precision scale unsigned zerofill =>
    '(' :: (Nat.toDigits 10 precision ++ ',' :: (Nat.toDigits 10 scale ++
      ')' :: numericAttributes unsigned zerofill))
  | .char length => parenthesized length
  | .varchar length => parenthesized length
  | .enum labels => '(' :: ([','].intercalate (labels.map renderLabel) ++ [')'])
  | .datetime digits => fractionalDigits digits
  | .timestamp digits => fractionalDigits digits

def ColumnKind.text (kind : ColumnKind) : Text := kind.dataType.toList ++ kind.parameters

/-- A decimal has at least one digit and no more digits after the point than it has digits; a
moment has at most microseconds. -/
def ColumnKind.WellFormed : ColumnKind → Prop
  | .decimal precision scale _ _ => 0 < precision ∧ scale ≤ precision ∧ precision < 2 ^ 64
  | .varchar length => length < 2 ^ 64
  | .datetime digits => digits ≤ 6
  | .timestamp digits => digits ≤ 6
  | _ => True

/-- The column has the type. -/
structure ColumnInventory.HasKind (column : ColumnInventory) (kind : ColumnKind) : Prop where
  dataType : column.dataType = kind.dataType
  columnType : column.columnType = String.ofList kind.text
  wellFormed : kind.WellFormed

/-! ## Numbers -/

theorem parseU64_toDigits {number : Nat} (h : number < 2 ^ 64) :
    parseU64 (Nat.toDigits 10 number) = some number := by
  have hdigits : ∀ c ∈ Nat.toDigits 10 number, c.isDigit = true :=
    fun c hc => Nat.isDigit_of_mem_toDigits (by decide) (by decide) hc
  have hfold : (Nat.toDigits 10 number).foldl (fun value d => 10 * value + decimalDigit d) 0 =
      number := by
    have h := Nat.ofDigitChars_ten_toDigits (n := number)
    rwa [Nat.ofDigitChars_eq_foldl] at h
  have hall : (Nat.toDigits 10 number).all Char.isDigit = true := List.all_eq_true.mpr hdigits
  have hne : (Nat.toDigits 10 number).isEmpty = false := by simp [Nat.toDigits_ne_nil]
  unfold parseU64
  dsimp only
  split
  case h_1 rest heq =>
    have hplus := hdigits '+' (by rw [heq]; exact List.mem_cons_self)
    simp at hplus
  case h_2 =>
    rw [hall, hne, hfold]
    simpa using h

/-- A digit has no case. -/
theorem toLower_of_isDigit {c : Char} (h : c.isDigit = true) : c.toLower = c := by
  obtain ⟨hlow, hhigh⟩ := Char.isDigit_iff_toNat.mp h
  unfold Char.toLower
  rw [dif_neg]
  rintro ⟨hupper, -⟩
  have hcode : 65 ≤ c.toNat := hupper
  have hnine : c.toNat ≤ 57 := hhigh
  omega

theorem toUpper_of_isDigit {c : Char} (h : c.isDigit = true) : c.toUpper = c := by
  obtain ⟨hlow, hhigh⟩ := Char.isDigit_iff_toNat.mp h
  unfold Char.toUpper
  rw [dif_neg]
  rintro ⟨hlower, -⟩
  have hcode : 97 ≤ c.toNat := hlower
  have hnine : c.toNat ≤ 57 := hhigh
  omega

theorem map_toDigits {f : Char → Char} (hf : ∀ c : Char, c.isDigit = true → f c = c)
    (number : Nat) : (Nat.toDigits 10 number).map f = Nat.toDigits 10 number := by
  conv_rhs => rw [← List.map_id (Nat.toDigits 10 number)]
  apply List.map_congr_left
  intro c hc
  exact hf c (Nat.isDigit_of_mem_toDigits (by decide) (by decide) hc)

/-- The number of a text is unique. -/
theorem toDigits_injective {a b : Nat} (h : Nat.toDigits 10 a = Nat.toDigits 10 b) : a = b := by
  rw [← Nat.ofDigitChars_ten_toDigits (n := a), h, Nat.ofDigitChars_ten_toDigits]

/-! ## Reading types back -/

theorem toAsciiLowercase_toDigits (number : Nat) :
    Text.toAsciiLowercase (Nat.toDigits 10 number) = Nat.toDigits 10 number :=
  map_toDigits (fun _ hc => toLower_of_isDigit hc) number

theorem toAsciiLowercase_parenthesized (number : Nat) :
    Text.toAsciiLowercase (parenthesized number) = parenthesized number := by
  have hcons : parenthesized number = ['('] ++ Nat.toDigits 10 number ++ [')'] := rfl
  rw [hcons, Text.toAsciiLowercase_append, Text.toAsciiLowercase_append, toAsciiLowercase_toDigits]
  rfl

/-- The names of types. -/
def typeNames : List String :=
  integerTypes ++ ["decimal", "char", "varchar", "enum", "datetime", "timestamp"]

theorem dataType_mem_typeNames (kind : ColumnKind) : kind.dataType ∈ typeNames := by
  cases kind with
  | integer kind width unsigned zerofill =>
    cases kind <;> simp [ColumnKind.dataType, IntegerKind.name, typeNames, integerTypes]
  | _ => simp [ColumnKind.dataType, typeNames]

/-- The name of a type is in lowercase. -/
theorem toAsciiLowercase_dataType (kind : ColumnKind) :
    Text.toAsciiLowercase kind.dataType.toList = kind.dataType.toList := by
  have hlower : ∀ name ∈ typeNames, Text.toAsciiLowercase name.toList = name.toList := by decide
  exact hlower kind.dataType (dataType_mem_typeNames kind)

theorem stripAround_append (start finish body : Text) :
    stripAround start finish (start ++ (body ++ finish)) = some body := by
  unfold stripAround
  have hprefix : start.isPrefixOf (start ++ (body ++ finish)) = true := by
    rw [List.isPrefixOf_iff_prefix]
    exact List.prefix_append _ _
  have hsuffix : finish.isSuffixOf (body ++ finish) = true := by
    rw [List.isSuffixOf_iff_suffix]
    exact List.suffix_append _ _
  rw [if_pos hprefix, List.drop_left]
  simp [hsuffix]

/-- A text that starts with another name has no match. -/
theorem stripAround_eq_none {start name : Text} (finish rest : Text) (hname : ¬ name <+: start)
    (hstart : ¬ start <+: name) : stripAround start finish (name ++ rest) = none := by
  unfold stripAround
  rw [if_neg]
  rw [List.isPrefixOf_iff_prefix]
  intro hprefix
  obtain h | h := List.prefix_or_prefix_of_prefix hprefix (List.prefix_append name rest)
  · exact hstart h
  · exact hname h

/-- A text with a match ends with the last character. -/
theorem getLast?_of_stripAround {start text : Text} {c : Char}
    (h : stripAround start [c] text ≠ none) : text.getLast? = some c := by
  unfold stripAround at h
  dsimp only at h
  split at h
  case isFalse => exact absurd rfl h
  case isTrue =>
    split at h
    case isFalse => exact absurd rfl h
    case isTrue hsuffix =>
      rw [List.isSuffixOf_iff_suffix] at hsuffix
      obtain ⟨front, hfront⟩ := hsuffix.trans (List.drop_suffix _ _)
      rw [← hfront, List.getLast?_append]
      rfl

section Kind

variable {column : ColumnInventory} {kind : ColumnKind}

theorem ColumnInventory.HasKind.lowercase_columnType (h : column.HasKind kind) :
    Text.toAsciiLowercase column.columnType.toList =
      kind.dataType.toList ++ Text.toAsciiLowercase kind.parameters := by
  rw [h.columnType, String.toList_ofList, ColumnKind.text, Text.toAsciiLowercase_append,
    toAsciiLowercase_dataType]

theorem varcharLength_varchar {length : Nat} (h : column.HasKind (.varchar length)) :
    varcharLength column = some length := by
  have hstrip : stripAround "varchar(".toList [')']
      (Text.toAsciiLowercase column.columnType.toList) = some (Nat.toDigits 10 length) := by
    have hname : ColumnKind.dataType (.varchar length) = "varchar" := rfl
    have htext : "varchar".toList ++ parenthesized length =
        "varchar(".toList ++ (Nat.toDigits 10 length ++ [')']) := by simp [parenthesized]
    rw [h.lowercase_columnType, ColumnKind.parameters, toAsciiLowercase_parenthesized, hname,
      htext]
    exact stripAround_append _ _ _
  unfold varcharLength
  rw [hstrip]
  exact parseU64_toDigits h.wellFormed

/-- Only a varchar has a varchar length. -/
theorem varcharLength_eq_none (h : column.HasKind kind) (hkind : kind.dataType ≠ "varchar") :
    varcharLength column = none := by
  have hstrip : stripAround "varchar(".toList [')']
      (Text.toAsciiLowercase column.columnType.toList) = none := by
    have hnames : ∀ name ∈ typeNames, name ≠ "varchar" →
        ¬ name.toList <+: "varchar(".toList ∧ ¬ "varchar(".toList <+: name.toList := by decide
    obtain ⟨hname, hstart⟩ := hnames kind.dataType (dataType_mem_typeNames kind) hkind
    rw [h.lowercase_columnType]
    exact stripAround_eq_none _ _ hname hstart
  unfold varcharLength
  rw [hstrip]
  rfl

/-! ## Precision and scale -/

theorem isWhitespace_of_isDigit {c : Char} (h : c.isDigit = true) : Text.isWhitespace c = false := by
  obtain ⟨hlow, hhigh⟩ := Char.isDigit_iff_toNat.mp h
  have hzero : 48 ≤ c.toNat := hlow
  have hnine : c.toNat ≤ 57 := hhigh
  unfold Text.isWhitespace
  simp only [Bool.or_eq_false_iff, Bool.and_eq_false_iff, decide_eq_false_iff_not, beq_eq_false_iff_ne]
  omega

theorem trim_toDigits (number : Nat) :
    Text.trim (Nat.toDigits 10 number) = Nat.toDigits 10 number := by
  have hdigits : ∀ c ∈ Nat.toDigits 10 number, Text.isWhitespace c = false :=
    fun c hc => isWhitespace_of_isDigit (Nat.isDigit_of_mem_toDigits (by decide) (by decide) hc)
  have hkeep : ∀ text : Text, (∀ c ∈ text, Text.isWhitespace c = false) →
      text.dropWhile Text.isWhitespace = text := by
    intro text htext
    cases text with
    | nil => rfl
    | cons c rest => rw [List.dropWhile_cons_of_neg (by simp [htext c List.mem_cons_self])]
  unfold Text.trim Text.trimStart Text.trimEndMatches
  rw [hkeep _ hdigits, hkeep _ (fun c hc => hdigits c (List.mem_reverse.mp hc)), List.reverse_reverse]

/-- A decimal without attributes. -/
theorem parameters_decimal (precision scale : Nat) :
    ColumnKind.parameters (.decimal precision scale false false) =
      '(' :: (Nat.toDigits 10 precision ++ ',' :: (Nat.toDigits 10 scale ++ [')'])) := rfl

theorem decimalShape_decimal {precision scale : Nat}
    (h : column.HasKind (.decimal precision scale false false)) :
    decimalShape column = some (precision, scale) := by
  obtain ⟨-, hscale, hprecision⟩ : 0 < precision ∧ scale ≤ precision ∧ precision < 2 ^ 64 :=
    h.wellFormed
  have hstrip : stripAround "decimal(".toList [')']
      (Text.toAsciiLowercase column.columnType.toList) =
        some (Nat.toDigits 10 precision ++ ',' :: Nat.toDigits 10 scale) := by
    have hname : ColumnKind.dataType (.decimal precision scale false false) = "decimal" := rfl
    have htext : "decimal".toList ++ Text.toAsciiLowercase
        (ColumnKind.parameters (.decimal precision scale false false)) =
          "decimal(".toList ++
            ((Nat.toDigits 10 precision ++ ',' :: Nat.toDigits 10 scale) ++ [')']) := by
      have hsplit : '(' :: (Nat.toDigits 10 precision ++ ',' :: (Nat.toDigits 10 scale ++ [')'])) =
          ['('] ++ (Nat.toDigits 10 precision ++ ([','] ++ (Nat.toDigits 10 scale ++ [')']))) := rfl
      rw [parameters_decimal, hsplit, Text.toAsciiLowercase_append, Text.toAsciiLowercase_append,
        Text.toAsciiLowercase_append, Text.toAsciiLowercase_append, toAsciiLowercase_toDigits,
        toAsciiLowercase_toDigits]
      simp [Text.toAsciiLowercase]
    rw [h.lowercase_columnType, hname, htext]
    exact stripAround_append _ _ _
  have hcomma : ∀ number : Nat, ∀ c ∈ Nat.toDigits 10 number, (c == ',') = false := by
    intro number c hc
    have hdigit := Nat.isDigit_of_mem_toDigits (by decide) (by decide) hc
    rw [beq_eq_false_iff_ne]
    rintro rfl
    simp at hdigit
  have hparts : (Nat.toDigits 10 precision ++ ',' :: Nat.toDigits 10 scale).splitOn ',' =
      [Nat.toDigits 10 precision, Nat.toDigits 10 scale] := by
    rw [List.splitOn_eq_splitOnP,
      List.splitOnP_append_cons_of_forall_mem (hcomma precision) ',' (by simp),
      List.splitOnP_eq_singleton (hcomma scale)]
  unfold decimalShape
  rw [hstrip, Option.bind_eq_bind, Option.bind_some, hparts]
  dsimp only
  rw [trim_toDigits, trim_toDigits, parseU64_toDigits hprecision,
    parseU64_toDigits (by omega)]
  rfl

/-- A decimal with attributes has no shape: its text does not end with a parenthesis. -/
theorem decimalShape_attributes {precision scale : Nat} {unsigned zerofill : Bool}
    (h : column.HasKind (.decimal precision scale unsigned zerofill))
    (hattributes : unsigned = true ∨ zerofill = true) : decimalShape column = none := by
  have hlast : ∀ front : Text, (front ++ Text.toAsciiLowercase
      (numericAttributes unsigned zerofill)).getLast? ≠ some ')' := by
    have hends : ∀ unsigned zerofill : Bool, unsigned = true ∨ zerofill = true →
        ∃ c, (Text.toAsciiLowercase (numericAttributes unsigned zerofill)).getLast? = some c ∧
          c ≠ ')' := by
      intro unsigned zerofill
      cases unsigned <;> cases zerofill <;>
        simp [numericAttributes, Text.toAsciiLowercase]
    intro front
    obtain ⟨c, hc, hne⟩ := hends unsigned zerofill hattributes
    rw [List.getLast?_append, hc]
    simpa using hne
  have hstrip : stripAround "decimal(".toList [')']
      (Text.toAsciiLowercase column.columnType.toList) = none := by
    by_contra hsome
    have hparameters : ∃ front : Text,
        ColumnKind.parameters (.decimal precision scale unsigned zerofill) =
          front ++ numericAttributes unsigned zerofill := by
      refine ⟨'(' :: (Nat.toDigits 10 precision ++ ',' :: (Nat.toDigits 10 scale ++ [')'])), ?_⟩
      simp [ColumnKind.parameters]
    obtain ⟨front, hfront⟩ := hparameters
    have hend := getLast?_of_stripAround hsome
    rw [h.lowercase_columnType, hfront, Text.toAsciiLowercase_append, ← List.append_assoc] at hend
    exact hlast _ hend
  unfold decimalShape
  rw [hstrip]
  rfl

/-- Only a decimal has a shape. -/
theorem decimalShape_eq_none (h : column.HasKind kind) (hkind : kind.dataType ≠ "decimal") :
    decimalShape column = none := by
  have hstrip : stripAround "decimal(".toList [')']
      (Text.toAsciiLowercase column.columnType.toList) = none := by
    have hnames : ∀ name ∈ typeNames, name ≠ "decimal" →
        ¬ name.toList <+: "decimal(".toList ∧ ¬ "decimal(".toList <+: name.toList := by decide
    obtain ⟨hname, hstart⟩ := hnames kind.dataType (dataType_mem_typeNames kind) hkind
    rw [h.lowercase_columnType]
    exact stripAround_eq_none _ _ hname hstart
  unfold decimalShape
  rw [hstrip]
  rfl

/-! ## Signs -/

/-- An integer type without its attributes. -/
def integerStem (kind : IntegerKind) (width : Option Nat) : Text :=
  kind.name.toList ++ width.elim [] parenthesized

theorem isAsciiWhitespace_of_mem_integerStem (kind : IntegerKind) (width : Option Nat) :
    ∀ c ∈ integerStem kind width, isAsciiWhitespace c = false := by
  have hdigit : ∀ c : Char, c.isDigit = true → isAsciiWhitespace c = false := by
    intro c hc
    unfold isAsciiWhitespace
    simp only [Bool.or_eq_false_iff, beq_eq_false_iff_ne]
    refine ⟨⟨⟨⟨?_, ?_⟩, ?_⟩, ?_⟩, ?_⟩
    all_goals
      rintro rfl
      exact absurd hc (by decide)
  have hname : ∀ c ∈ kind.name.toList, isAsciiWhitespace c = false := by
    cases kind <;> decide
  intro c hc
  rw [integerStem, List.mem_append] at hc
  obtain hc | hc := hc
  · exact hname c hc
  · cases width with
    | none => simp at hc
    | some number =>
      simp only [Option.elim_some, parenthesized, List.mem_cons, List.mem_append,
        List.not_mem_nil, or_false] at hc
      obtain rfl | hc | rfl := hc
      · decide
      · exact hdigit c (Nat.isDigit_of_mem_toDigits (by decide) (by decide) hc)
      · decide

/-- No integer type is called unsigned. -/
theorem integerStem_ne_unsigned (kind : IntegerKind) (width : Option Nat) :
    Text.eqIgnoreAsciiCase (integerStem kind width) "unsigned".toList = false := by
  have hhead : (Text.toAsciiUppercase (integerStem kind width)).head? ≠ some 'U' := by
    cases kind <;>
      simp [Text.toAsciiUppercase, integerStem, IntegerKind.name]
  unfold Text.eqIgnoreAsciiCase
  rw [beq_eq_false_iff_ne]
  intro heq
  rw [heq] at hhead
  exact hhead (by decide)

theorem isUnsigned_integer {size : IntegerKind} {width : Option Nat} {unsigned zerofill : Bool}
    (h : column.HasKind (.integer size width unsigned zerofill)) :
    isUnsigned column = unsigned := by
  have htext : column.columnType.toList =
      integerStem size width ++ numericAttributes unsigned zerofill := by
    rw [h.columnType, String.toList_ofList]
    simp [ColumnKind.text, ColumnKind.dataType, ColumnKind.parameters, integerStem]
  have hstem := isAsciiWhitespace_of_mem_integerStem size width
  have hsplit : ∀ rest : Text, (integerStem size width ++ ' ' :: rest).splitOnP isAsciiWhitespace =
      integerStem size width :: rest.splitOnP isAsciiWhitespace :=
    fun rest => List.splitOnP_append_cons_of_forall_mem hstem ' ' (by decide) rest
  have hname := integerStem_ne_unsigned size width
  -- the words after the type are the attributes
  have hwords : ∀ rest : Text, ((integerStem size width ++ ' ' :: rest).splitOnP
      isAsciiWhitespace).any (fun part => Text.eqIgnoreAsciiCase part "unsigned".toList) =
        (rest.splitOnP isAsciiWhitespace).any
          (fun part => Text.eqIgnoreAsciiCase part "unsigned".toList) := by
    intro rest
    rw [hsplit, List.any_cons, hname, Bool.false_or]
  unfold isUnsigned
  rw [htext]
  cases unsigned with
  | true =>
    cases zerofill with
    | true => exact (hwords "unsigned zerofill".toList).trans (by decide)
    | false => exact (hwords "unsigned".toList).trans (by decide)
  | false =>
    cases zerofill with
    | true => exact (hwords "zerofill".toList).trans (by decide)
    | false =>
      have hnone : numericAttributes false false = [] := rfl
      rw [hnone, List.append_nil, List.splitOnP_eq_singleton hstem, List.any_cons, hname]
      rfl

/-! ## Normalized types -/

/-- The type under which the planner compares. -/
def ColumnKind.normalizedType : ColumnKind → String
  | .timestamp _ => "datetime"
  | kind => kind.dataType

theorem normalizedDataType_eq (h : column.HasKind kind) :
    normalizedDataType column = kind.normalizedType := by
  have hnames : ∀ name ∈ typeNames,
      (if Text.eqIgnoreAsciiCase name.toList "timestamp".toList then "datetime"
        else String.ofList (Text.toAsciiLowercase name.toList)) =
      if name = "timestamp" then "datetime" else name := by decide
  have htype := hnames kind.dataType (dataType_mem_typeNames kind)
  unfold normalizedDataType
  rw [h.dataType, htype]
  cases kind with
  | integer kind width unsigned zerofill => cases kind <;> rfl
  | _ => rfl

end Kind

end BinlogCdc.SyncSchema
