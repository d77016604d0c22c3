import BinlogCdc.Sql.Literal
import BinlogCdc.Stream.TemporalText
import BinlogCdc.Target.Database

/-!
# Statements with their values written out

A statement with parameters is written out as one text: each placeholder is replaced by the literal of
its parameter. Reading the literals back says which parameters the text still has: a byte string must be
the encoding of a text, a number must be finite and fit in the digits of a decimal literal.
-/

namespace BinlogCdc

/-! ## Placeholders -/

/-- Where a character of a statement stands. -/
inductive QuotePlace where
  | outside
  | inside (quote : Char)
  | escaped (quote : Char)
deriving DecidableEq, Repr

/-- A backslash escapes in texts, not in names. A doubled quote closes and opens. -/
def QuotePlace.next : QuotePlace → Char → QuotePlace
  | .outside, c => if c = singleQuote ∨ c = '"' ∨ c = backQuote then .inside c else .outside
  | .inside quote, c =>
    if c = quote then .outside
    else if c = backslash ∧ quote ≠ backQuote then .escaped quote
    else .inside quote
  | .escaped quote, _ => .inside quote

/-- The parts of a statement between its placeholders, the question marks outside quotes. -/
def splitPlaceholders : QuotePlace → Text → List Text
  | _, [] => [[]]
  | place, c :: text =>
    if place = .outside ∧ c = '?' then [] :: splitPlaceholders .outside text
    else (splitPlaceholders (place.next c) text).modifyHead (c :: ·)

/-- Every question mark of a statement is a placeholder. -/
def MarksOutside : QuotePlace → Text → Prop
  | _, [] => True
  | place, c :: text => (c = '?' → place = .outside) ∧ MarksOutside (place.next c) text

instance decidableMarksOutside : ∀ place text, Decidable (MarksOutside place text)
  | _, [] => isTrue trivial
  | place, c :: text =>
    have := decidableMarksOutside (place.next c) text
    inferInstanceAs (Decidable ((c = '?' → place = .outside) ∧ MarksOutside (place.next c) text))

/-- Put one text between each two parts. -/
def fill : List Text → List Text → Option Text
  | [part], [] => some part
  | part :: parts, literal :: literals =>
    (fill parts literals).map fun rest => part ++ (literal ++ rest)
  | _, _ => none

theorem splitPlaceholders_eq_splitOn {place : QuotePlace} {text : Text}
    (h : MarksOutside place text) : splitPlaceholders place text = text.splitOn '?' := by
  induction text generalizing place with
  | nil => rfl
  | cons c text ih =>
    obtain ⟨hmark, hrest⟩ := h
    rw [List.splitOn, List.splitOnP_cons_eq_if_modifyHead, ← List.splitOn, splitPlaceholders]
    by_cases hc : c = '?'
    · obtain rfl := hmark hc
      rw [hc] at hrest
      have hnext : QuotePlace.outside.next '?' = .outside := by decide
      rw [hnext] at hrest
      rw [if_pos ⟨rfl, hc⟩, if_pos (by simp [hc]), ih hrest]
    · rw [if_neg fun hplace => hc hplace.2, if_neg (by simp [hc]), ih hrest]

theorem length_splitOn_mark (text : Text) : (text.splitOn '?').length = text.count '?' + 1 := by
  induction text with
  | nil => rfl
  | cons c text ih =>
    rw [List.splitOn, List.splitOnP_cons_eq_if_modifyHead, ← List.splitOn]
    by_cases hc : c = '?'
    · rw [if_pos (by simp [hc]), List.length_cons, ih, hc, List.count_cons_self]
    · rw [if_neg (by simp [hc]), List.length_modifyHead, ih, List.count_cons_of_ne hc]

theorem splitOn_of_count {text : Text} (h : text.count '?' = 0) : text.splitOn '?' = [text] := by
  induction text with
  | nil => rfl
  | cons c text ih =>
    have hc : c ≠ '?' := by
      rintro rfl
      rw [List.count_cons_self] at h
      omega
    rw [List.count_cons_of_ne hc] at h
    rw [List.splitOn, List.splitOnP_cons_eq_if_modifyHead, ← List.splitOn, if_neg (by simp [hc]), ih h]
    rfl

/-! ## Writing literals -/

/-- The texts of the floating point numbers with some bits, as the standard library prints them, and
the number that a server keeps for an exact literal; the number zero is not the negative one. -/
structure FloatText (Bits : Type) (negativeZero : Bits) where
  display : Bits → Text
  nearest : ℚ → Bits
  nearest_ne : ∀ number, nearest number ≠ negativeZero

/-- The numbers of both widths. -/
structure FloatTexts where
  single : FloatText UInt32 0x80000000
  double : FloatText UInt64 0x8000000000000000

/-- The exponent bits of an infinite or undefined number are all set. -/
def singleIsFinite (bits : UInt32) : Bool := (bits >>> 23) &&& 255 != 255

def doubleIsFinite (bits : UInt64) : Bool := (bits >>> 52) &&& 2047 != 2047

/-- A total of hours of 32 bits. -/
def totalHours (days hours : Nat) : Nat := (hours + days * 24 % 4294967296) % 4294967296

/-- The literal of a value. -/
def quoteSqlValue (floats : FloatTexts) : TargetValue → Text
  | .null => "NULL".toList
  | .bytes bytes => quoteSqlLiteral (Core.fromUtf8Lossy bytes).toList
  | .int value => padInt 0 value
  | .uint value => padInt 0 value
  | .float bits => floats.single.display bits
  | .double bits => floats.double.display bits
  | .date year month day hour minute second micros =>
    quoteSqlLiteral (pad 4 year ++ '-' :: (pad 2 month ++ '-' :: (pad 2 day ++ ' ' ::
      (pad 2 hour ++ ':' :: (pad 2 minute ++ ':' :: (pad 2 second ++ '.' :: pad 6 micros))))))
  | .time negative days hours minutes seconds micros =>
    quoteSqlLiteral ((if negative then ['-'] else []) ++ (pad 2 (totalHours days hours) ++ ':' ::
      (pad 2 minutes ++ ':' :: (pad 2 seconds ++ '.' :: pad 6 micros))))

/-- Write the parts of a statement, each but the last with the literal of a parameter. -/
def renderSegments (quote : TargetValue → Except String Text) :
    List Text → List TargetValue → Except String Text
  | [], _ => .ok []
  | segment :: segments, [] => do
    let rest ← renderSegments quote segments []
    return segment ++ rest
  | segment :: segments, param :: params => do
    let literal ← quote param
    let rest ← renderSegments quote segments params
    return segment ++ (literal ++ rest)

/-- Write out a statement. -/
def renderStatementParams (statement : SqlStatement) (quote : TargetValue → Except String Text) :
    Except String Text :=
  let sql := statement.sql.toList
  if statement.params.isEmpty then .ok sql
  else
    let placeholderCount := sql.count '?'
    if placeholderCount ≠ statement.params.length then
      .error ("statement has " ++ toString placeholderCount ++ " placeholders and " ++
        toString statement.params.length ++ " params")
    else renderSegments quote (sql.splitOn '?') statement.params

def renderSqlStatement (floats : FloatTexts) (statement : SqlStatement) : Except String Text :=
  renderStatementParams statement fun value => .ok (quoteSqlValue floats value)

/-! ## Reading literals -/

/-- What a literal stands for. -/
inductive LiteralValue where
  | null
  | string (text : Text)
  | number (number : ℚ)

/-- The digits that a decimal literal can have. -/
def decimalDigits : Nat := 65

/-- The number with a sign and some digits before and after the point. -/
def decimalNumber (negative : Bool) (whole fraction : Text) : ℚ :=
  (if negative then -1 else 1) * ((decimalValue (whole ++ fraction) : ℚ) / 10 ^ fraction.length)

/-- The digits after the point of a literal; there are some if there is a point. -/
def readFraction : Text → Option Text
  | [] => some []
  | c :: digits => if c = '.' ∧ digits ≠ [] ∧ digits.all Char.isDigit then some digits else none

/-- A number without an exponent. -/
def readUnsigned (negative : Bool) (text : Text) : Option ℚ :=
  let whole := text.takeWhile Char.isDigit
  match readFraction (text.dropWhile Char.isDigit) with
  | some fraction =>
    if whole = [] ∨ decimalDigits < whole.length + fraction.length then none
    else some (decimalNumber negative whole fraction)
  | none => none

def readNumber : Text → Option ℚ
  | '-' :: text => readUnsigned true text
  | text => readUnsigned false text

/-- The value of a text that is one literal. -/
def readLiteral (text : Text) : Option LiteralValue :=
  if text = "NULL".toList then some .null
  else if text.head? = some singleQuote then
    match textTokens text with
    | some [.literal value] => some (.string value)
    | _ => none
  else (readNumber text).map .number

/-- The literal stands for exactly this value. -/
def Denotes (floats : FloatTexts) (literal : Text) : TargetValue → Prop
  | .null => readLiteral literal = some .null
  | .bytes bytes => ∃ text, readLiteral literal = some (.string text) ∧
      utf8Bytes (String.ofList text) = bytes
  | .int value => readLiteral literal = some (.number value)
  | .uint value => readLiteral literal = some (.number value)
  | .float bits => ∃ number, readLiteral literal = some (.number number) ∧
      floats.single.nearest number = bits
  | .double bits => ∃ number, readLiteral literal = some (.number number) ∧
      floats.double.nearest number = bits
  | .date year month day hour minute second micros =>
      ∃ text, readLiteral literal = some (.string text) ∧
        readDatetime text = some ([year, month, day, hour, minute, second], micros)
  | .time negative days hours minutes seconds micros =>
      ∃ text, readLiteral literal = some (.string text) ∧
        readTime text = some (negative, [days * 24 + hours, minutes, seconds], micros)

/-! ## Decimal literals -/

/-- The text of a number with a sign and some digits before and after the point. -/
def decimalText (negative : Bool) (whole fraction : Text) : Text :=
  (if negative then ['-'] else []) ++ (whole ++ if fraction = [] then [] else '.' :: fraction)

/-- Decimal digits only. -/
def AllDigits (text : Text) : Prop := ∀ c ∈ text, c.isDigit = true

def digitCount (text : Text) : Nat := text.countP Char.isDigit

theorem digitCount_decimalText (negative : Bool) {whole fraction : Text} (hwhole : AllDigits whole)
    (hfraction : AllDigits fraction) :
    digitCount (decimalText negative whole fraction) = whole.length + fraction.length := by
  have hsign : List.countP Char.isDigit (if negative then ['-'] else []) = 0 := by
    cases negative <;> decide
  have hpoint : List.countP Char.isDigit (if fraction = [] then [] else '.' :: fraction) =
      fraction.length := by
    by_cases hempty : fraction = []
    · rw [if_pos hempty, hempty]
      rfl
    · rw [if_neg hempty, List.countP_cons_of_neg (by decide)]
      exact List.countP_eq_length.mpr hfraction
  rw [digitCount, decimalText, List.countP_append, List.countP_append, hsign, hpoint, Nat.zero_add,
    List.countP_eq_length.mpr hwhole]

theorem readUnsigned_decimal (negative : Bool) {whole fraction : Text} (hne : whole ≠ [])
    (hwhole : AllDigits whole) (hfraction : AllDigits fraction) :
    readUnsigned negative (whole ++ if fraction = [] then [] else '.' :: fraction) =
      if decimalDigits < whole.length + fraction.length then none
      else some (decimalNumber negative whole fraction) := by
  have hread : readFraction (if fraction = [] then [] else '.' :: fraction) = some fraction := by
    by_cases hempty : fraction = []
    · rw [if_pos hempty, hempty]
      rfl
    · rw [if_neg hempty, readFraction, if_pos ⟨rfl, hempty, List.all_eq_true.mpr hfraction⟩]
  have hrest : (if fraction = [] then [] else '.' :: fraction).takeWhile Char.isDigit = [] ∧
      (if fraction = [] then [] else '.' :: fraction).dropWhile Char.isDigit =
        if fraction = [] then [] else '.' :: fraction := by
    by_cases hempty : fraction = []
    · rw [if_pos hempty]
      exact ⟨rfl, rfl⟩
    · rw [if_neg hempty]
      exact ⟨rfl, rfl⟩
  rw [readUnsigned, List.takeWhile_append_of_pos hwhole, List.dropWhile_append_of_pos hwhole,
    hrest.1, hrest.2, hread, List.append_nil]
  simp only [hne, false_or]

/-- A decimal text is read as its number while it has no more digits than a literal can have. -/
theorem readLiteral_decimalText (negative : Bool) {whole fraction : Text} (hne : whole ≠ [])
    (hwhole : AllDigits whole) (hfraction : AllDigits fraction) :
    readLiteral (decimalText negative whole fraction) =
      if decimalDigits < whole.length + fraction.length then none
      else some (.number (decimalNumber negative whole fraction)) := by
  obtain ⟨c, digits, rfl⟩ := List.exists_cons_of_ne_nil hne
  have hc : c.isDigit = true := hwhole c List.mem_cons_self
  have hdecimal := readUnsigned_decimal negative hne hwhole hfraction
  have hnumber : readNumber (decimalText negative (c :: digits) fraction) =
      readUnsigned negative (c :: digits ++ if fraction = [] then [] else '.' :: fraction) := by
    cases negative with
    | true => rfl
    | false =>
      rw [decimalText, readNumber]
      · rfl
      · rintro rest hrest
        obtain ⟨rfl, -⟩ := List.cons.inj hrest
        cases hc
  have hstart : ∀ d ∈ (decimalText negative (c :: digits) fraction).head?, d = '-' ∨ d = c := by
    cases negative <;> simp [decimalText]
  have hnull : decimalText negative (c :: digits) fraction ≠ "NULL".toList := by
    intro htext
    rw [htext] at hstart
    obtain hsign | rfl := hstart 'N' rfl
    · cases hsign
    · cases hc
  have hquote : (decimalText negative (c :: digits) fraction).head? ≠ some singleQuote := by
    intro htext
    obtain hsign | rfl := hstart singleQuote htext
    · cases hsign
    · cases hc
  rw [readLiteral, if_neg hnull, if_neg hquote, hnumber, hdecimal]
  split_ifs <;> rfl

theorem padInt_eq_decimalText (value : Int) :
    padInt 0 value = decimalText (decide (value < 0)) (Nat.toDigits 10 value.natAbs) [] := by
  have hpad : ∀ width, width = 0 → pad width value.natAbs = Nat.toDigits 10 value.natAbs := by
    rintro width rfl
    rw [pad, Nat.zero_sub]
    rfl
  unfold padInt decimalText
  by_cases hnegative : value < 0
  · rw [if_pos hnegative, hpad _ rfl]
    simp [hnegative]
  · rw [if_neg hnegative, hpad _ rfl]
    simp [hnegative]

/-- An integer of at most twenty digits is read as itself. -/
theorem readLiteral_padInt {value : Int} (h : value.natAbs < 10 ^ 20) :
    readLiteral (padInt 0 value) = some (.number value) := by
  have hdigits : AllDigits (Nat.toDigits 10 value.natAbs) :=
    fun c hc => Nat.isDigit_of_mem_toDigits (by decide) (by decide) hc
  have hlength : (Nat.toDigits 10 value.natAbs).length ≤ 20 :=
    (Nat.length_toDigits_le_iff (by decide) (by decide)).mpr h
  have hnumber : decimalNumber (decide (value < 0)) (Nat.toDigits 10 value.natAbs) [] = value := by
    rw [decimalNumber, List.append_nil, decimalValue_toDigits, List.length_nil, pow_zero, div_one]
    by_cases hnegative : value < 0
    · have habs : (value.natAbs : Int) = -value := by omega
      rw [if_pos (by simpa using hnegative), ← Int.cast_natCast, habs]
      push_cast
      ring
    · have habs : (value.natAbs : Int) = value := by omega
      rw [if_neg (by simpa using hnegative), ← Int.cast_natCast, habs, one_mul]
  rw [padInt_eq_decimalText, readLiteral_decimalText _ Nat.toDigits_ne_nil hdigits (List.forall_mem_nil _),
    if_neg (by unfold decimalDigits; rw [List.length_nil]; omega), hnumber]

/-! ## Exact parameters -/

theorem readLiteral_quoteSqlLiteral (value : Text) :
    readLiteral (quoteSqlLiteral value) = some (.string value) := by
  have hnull : quoteSqlLiteral value ≠ "NULL".toList := by
    intro htext
    cases congrArg List.head? htext
  have hquote : List.head? (quoteSqlLiteral value) = some singleQuote := rfl
  rw [readLiteral, if_neg hnull, if_pos hquote, (readsAs_quoteSqlLiteral value).textTokens]

/-- What is documented about a number: it is printed without an exponent, the nearest number of its
text is the number again, and infinite and undefined numbers are printed as words. -/
structure FloatText.Documented {Bits : Type} {negativeZero : Bits}
    (format : FloatText Bits negativeZero) (finite : Bool) (bits : Bits) : Prop where
  decimal : finite = true → ∃ negative whole fraction, whole ≠ [] ∧ AllDigits whole ∧
    AllDigits fraction ∧ format.display bits = decimalText negative whole fraction ∧
    (bits ≠ negativeZero → format.nearest (decimalNumber negative whole fraction) = bits)
  word : finite = false → format.display bits ∈ ["inf".toList, "-inf".toList, "NaN".toList]

/-- The value is one of its type, and its text is printed as documented. -/
def Printed (floats : FloatTexts) : TargetValue → Prop
  | .int value => -9223372036854775808 ≤ value ∧ value ≤ 9223372036854775807
  | .uint value => value ≤ 18446744073709551615
  | .float bits => floats.single.Documented (singleIsFinite bits) bits
  | .double bits => floats.double.Documented (doubleIsFinite bits) bits
  | _ => True

/-- A finite number whose text is an exact literal. -/
def ExactNumber {Bits : Type} {negativeZero : Bits} (format : FloatText Bits negativeZero)
    (finite : Bool) (bits : Bits) : Prop :=
  finite = true ∧ bits ≠ negativeZero ∧ digitCount (format.display bits) ≤ decimalDigits

/-- The values that a written statement keeps. -/
def ExactParam (floats : FloatTexts) : TargetValue → Prop
  | .bytes bytes => ∃ text : String, text.toUTF8.toList = bytes
  | .float bits => ExactNumber floats.single (singleIsFinite bits) bits
  | .double bits => ExactNumber floats.double (doubleIsFinite bits) bits
  | .date _ _ _ _ _ _ micros => micros < 1000000
  | .time _ days hours _ _ micros => days * 24 + hours < 4294967296 ∧ micros < 1000000
  | _ => True

theorem number_denotes_iff {Bits : Type} {negativeZero : Bits}
    {format : FloatText Bits negativeZero} {finite : Bool} {bits : Bits}
    (h : format.Documented finite bits) :
    (∃ number, readLiteral (format.display bits) = some (.number number) ∧
      format.nearest number = bits) ↔ ExactNumber format finite bits := by
  cases finite with
  | false =>
    have hword := h.word rfl
    have hnone : readLiteral (format.display bits) = none := by
      simp only [List.mem_cons, List.not_mem_nil, or_false] at hword
      rcases hword with htext | htext | htext <;> rw [htext] <;> rfl
    constructor
    · rintro ⟨number, hread, -⟩
      rw [hnone] at hread
      cases hread
    · rintro ⟨hfinite, -⟩
      cases hfinite
  | true =>
    obtain ⟨negative, whole, fraction, hne, hwhole, hfraction, htext, hnearest⟩ := h.decimal rfl
    have hread := readLiteral_decimalText negative hne hwhole hfraction
    have hcount := digitCount_decimalText negative hwhole hfraction
    rw [← htext] at hread hcount
    constructor
    · rintro ⟨number, hnumber, hbits⟩
      refine ⟨rfl, ?_, ?_⟩
      · rw [← hbits]
        exact format.nearest_ne number
      · by_contra hmany
        rw [hread, if_pos (by omega)] at hnumber
        cases hnumber
    · rintro ⟨-, hzero, hfew⟩
      refine ⟨decimalNumber negative whole fraction, ?_, hnearest hzero⟩
      rw [hread, if_neg (by omega)]

/-- The fraction of six digits is read back if there are no more. -/
theorem readMicros_pad (micros : Nat) :
    readMicros ('.' :: pad 6 micros) = if micros < 1000000 then some micros else none := by
  have hall : (pad 6 micros).all Char.isDigit = true :=
    List.all_eq_true.mpr fun c hc => isDigit_of_mem_pad hc
  by_cases h : micros < 1000000
  · rw [if_pos h, readMicros, if_pos ⟨rfl, length_pad (by decide) h, hall⟩, decimalValue_pad]
  · have hlong : ¬(Nat.toDigits 10 micros).length ≤ 6 := by
      rw [Nat.length_toDigits_le_iff (by decide) (by decide)]
      omega
    have hlength : (pad 6 micros).length ≠ 6 := by
      rw [pad, List.length_append, List.length_replicate]
      omega
    rw [if_neg h, readMicros, if_neg fun hparts => hlength hparts.2.1]

/-- Numbers between separators with a fraction are read back. -/
theorem readParts_padded (hour minute second micros : Nat) :
    readParts [':', ':'] (pad 2 hour ++ ':' :: (pad 2 minute ++ ':' ::
        (pad 2 second ++ '.' :: pad 6 micros))) =
      if micros < 1000000 then some ([hour, minute, second], micros) else none := by
  have hlast := readFields_last 2 second ('.' :: pad 6 micros) (by rintro c ⟨⟩; decide)
  unfold readParts
  rw [readFields_cons (by decide), readFields_cons (by decide), hlast]
  simp only [Option.map_some, readMicros_pad]
  split_ifs <;> rfl

theorem readDatetime_padded (year month day hour minute second micros : Nat) :
    readDatetime (pad 4 year ++ '-' :: (pad 2 month ++ '-' :: (pad 2 day ++ ' ' ::
        (pad 2 hour ++ ':' :: (pad 2 minute ++ ':' :: (pad 2 second ++ '.' :: pad 6 micros)))))) =
      if micros < 1000000 then some ([year, month, day, hour, minute, second], micros)
      else none := by
  have hlast := readFields_last 2 second ('.' :: pad 6 micros) (by rintro c ⟨⟩; decide)
  unfold readDatetime readParts
  rw [readFields_cons (by decide), readFields_cons (by decide), readFields_cons (by decide),
    readFields_cons (by decide), readFields_cons (by decide), hlast]
  simp only [Option.map_some, readMicros_pad]
  split_ifs <;> rfl

theorem readTime_padded (negative : Bool) (hour minute second micros : Nat) :
    readTime ((if negative then ['-'] else []) ++ (pad 2 hour ++ ':' :: (pad 2 minute ++ ':' ::
        (pad 2 second ++ '.' :: pad 6 micros)))) =
      if micros < 1000000 then some (negative, [hour, minute, second], micros) else none := by
  have hparts := readParts_padded hour minute second micros
  cases negative with
  | true =>
    rw [if_pos rfl, List.singleton_append, readTime, hparts]
    split_ifs <;> rfl
  | false =>
    obtain ⟨c, digits, hdigits⟩ := List.exists_cons_of_ne_nil (pad_ne_nil 2 hour)
    have hc : c.isDigit = true := isDigit_of_mem_pad (by rw [hdigits]; exact List.mem_cons_self)
    rw [if_neg (by decide), List.nil_append, readTime, hparts]
    · split_ifs <;> rfl
    · rintro rest hrest
      rw [hdigits] at hrest
      obtain ⟨rfl, -⟩ := List.cons.inj hrest
      cases hc

/-- A literal stands for its parameter exactly when the parameter is one that a text keeps. -/
theorem denotes_quoteSqlValue_iff {floats : FloatTexts} {param : TargetValue}
    (h : Printed floats param) :
    Denotes floats (quoteSqlValue floats param) param ↔ ExactParam floats param := by
  cases param with
  | null => exact iff_of_true rfl trivial
  | bytes bytes =>
    rw [Denotes, quoteSqlValue, readLiteral_quoteSqlLiteral, ExactParam,
      ← Core.toUTF8_fromUtf8Lossy]
    constructor
    · rintro ⟨text, htext, hbytes⟩
      obtain rfl := LiteralValue.string.inj (Option.some.inj htext)
      rwa [String.ofList_toList] at hbytes
    · intro hbytes
      refine ⟨_, rfl, ?_⟩
      rwa [String.ofList_toList]
  | int value =>
    have hrange : value.natAbs < 10 ^ 20 := by
      obtain ⟨hlow, hhigh⟩ := h
      omega
    exact iff_of_true (readLiteral_padInt hrange) trivial
  | uint value =>
    have hrange : ((value : Int)).natAbs < 10 ^ 20 := by
      have hhigh : value ≤ 18446744073709551615 := h
      omega
    have hread := readLiteral_padInt hrange
    rw [Int.cast_natCast] at hread
    exact iff_of_true hread trivial
  | float bits => exact number_denotes_iff h
  | double bits => exact number_denotes_iff h
  | date year month day hour minute second micros =>
    rw [Denotes, quoteSqlValue, readLiteral_quoteSqlLiteral, ExactParam]
    constructor
    · rintro ⟨text, htext, hread⟩
      obtain rfl := LiteralValue.string.inj (Option.some.inj htext)
      rw [readDatetime_padded] at hread
      by_contra hmany
      rw [if_neg hmany] at hread
      cases hread
    · intro hmicros
      refine ⟨_, rfl, ?_⟩
      rw [readDatetime_padded, if_pos hmicros]
  | time negative days hours minutes seconds micros =>
    rw [Denotes, quoteSqlValue, readLiteral_quoteSqlLiteral, ExactParam]
    constructor
    · rintro ⟨text, htext, hread⟩
      obtain rfl := LiteralValue.string.inj (Option.some.inj htext)
      rw [readTime_padded] at hread
      by_cases hmicros : micros < 1000000
      · rw [if_pos hmicros] at hread
        simp only [Option.some.injEq, Prod.mk.injEq, List.cons.injEq, true_and, and_true,
          totalHours] at hread
        omega
      · rw [if_neg hmicros] at hread
        cases hread
    · rintro ⟨hhours, hmicros⟩
      refine ⟨_, rfl, ?_⟩
      have htotal : totalHours days hours = days * 24 + hours := by
        unfold totalHours
        omega
      rw [readTime_padded, if_pos hmicros, htotal]

/-! ## Written statements -/

theorem renderSegments_fill (quote : TargetValue → Text) {segments : List Text}
    {params : List TargetValue} (h : segments.length = params.length + 1) :
    ∃ text, renderSegments (fun value => .ok (quote value)) segments params = .ok text ∧
      fill segments (params.map quote) = some text := by
  induction segments generalizing params with
  | nil => cases h
  | cons segment segments ih =>
    cases params with
    | nil =>
      obtain rfl := List.eq_nil_of_length_eq_zero (Nat.succ.inj h)
      exact ⟨segment, by rw [renderSegments, renderSegments]; simp [pure, Except.pure, bind, Except.bind], rfl⟩
    | cons param params =>
      obtain ⟨text, hrender, hfill⟩ := ih (Nat.succ.inj h)
      refine ⟨segment ++ (quote param ++ text), ?_, ?_⟩
      · rw [renderSegments, hrender]
        rfl
      · rw [List.map_cons, fill, hfill]
        rfl

/-- Each placeholder is replaced by a literal that stands for its parameter. -/
structure Written (floats : FloatTexts) (statement : SqlStatement) (rendered : Text) : Prop where
  filled : fill (splitPlaceholders .outside statement.sql.toList)
    (statement.params.map (quoteSqlValue floats)) = some rendered
  denotes : ∀ param ∈ statement.params, Denotes floats (quoteSqlValue floats param) param

/-- A statement without parameters has no placeholders, and the parameters of one that is written are
values that a text keeps. -/
structure KeepsParams (floats : FloatTexts) (statement : SqlStatement) : Prop where
  unbound : statement.params = [] → statement.sql.toList.count '?' = 0
  exact : statement.sql.toList.count '?' = statement.params.length →
    ∀ param ∈ statement.params, ExactParam floats param

/-- A statement is rendered unless its placeholders and its parameters differ in number. -/
theorem renderSqlStatement_fill (floats : FloatTexts) {statement : SqlStatement}
    (hcount : statement.sql.toList.count '?' = statement.params.length) :
    ∃ text, renderSqlStatement floats statement = .ok text ∧
      fill (statement.sql.toList.splitOn '?') (statement.params.map (quoteSqlValue floats)) =
        some text := by
  unfold renderSqlStatement renderStatementParams
  by_cases hempty : statement.params = []
  · rw [hempty] at hcount ⊢
    rw [splitOn_of_count hcount]
    exact ⟨_, rfl, rfl⟩
  · have hparams : statement.params.isEmpty = false := by simp [hempty]
    simp only [hparams, hcount, ne_eq, not_true_eq_false, if_false, Bool.false_eq_true]
    apply renderSegments_fill
    rw [length_splitOn_mark, hcount]

theorem renderSqlStatement_unbound (floats : FloatTexts) {statement : SqlStatement}
    (hempty : statement.params = []) :
    renderSqlStatement floats statement = .ok statement.sql.toList := by
  simp [renderSqlStatement, renderStatementParams, hempty]

theorem renderSqlStatement_error (floats : FloatTexts) {statement : SqlStatement}
    (hparams : statement.params ≠ [])
    (hcount : statement.sql.toList.count '?' ≠ statement.params.length) (rendered : Text) :
    renderSqlStatement floats statement ≠ .ok rendered := by
  have hempty : statement.params.isEmpty = false := by simp [hparams]
  simp only [renderSqlStatement, renderStatementParams, hempty, hcount, ne_eq, not_false_eq_true,
    if_true, Bool.false_eq_true, if_false]
  rintro ⟨⟩

theorem length_of_fill {parts literals : List Text} {text : Text}
    (h : fill parts literals = some text) : parts.length = literals.length + 1 := by
  induction parts generalizing literals text with
  | nil => cases h
  | cons part parts ih =>
    cases literals with
    | nil =>
      cases parts with
      | nil => rfl
      | cons next parts => cases h
    | cons literal literals =>
      rw [fill] at h
      obtain ⟨rest, hrest, -⟩ := Option.map_eq_some_iff.mp h
      rw [List.length_cons, ih hrest, List.length_cons]

theorem written_iff {floats : FloatTexts} {statement : SqlStatement}
    (hmarks : MarksOutside .outside statement.sql.toList)
    (hprinted : ∀ param ∈ statement.params, Printed floats param) :
    (∀ rendered, renderSqlStatement floats statement = .ok rendered →
      Written floats statement rendered) ↔ KeepsParams floats statement := by
  have hsplit := splitPlaceholders_eq_splitOn hmarks
  by_cases hcount : statement.sql.toList.count '?' = statement.params.length
  · obtain ⟨text, hrender, hfill⟩ := renderSqlStatement_fill floats hcount
    constructor
    · intro hwritten
      refine ⟨fun hempty => ?_, fun _ param hparam => ?_⟩
      · rw [hcount, hempty]
        rfl
      · exact (denotes_quoteSqlValue_iff (hprinted param hparam)).mp
          ((hwritten text hrender).denotes param hparam)
    · rintro ⟨-, hexact⟩ rendered hrendered
      obtain rfl := Except.ok.inj (hrender.symm.trans hrendered)
      refine ⟨?_, fun param hparam => ?_⟩
      · rw [hsplit, hfill]
      · exact (denotes_quoteSqlValue_iff (hprinted param hparam)).mpr (hexact hcount param hparam)
  · by_cases hempty : statement.params = []
    · constructor
      · intro hwritten
        have hfilled := (hwritten _ (renderSqlStatement_unbound floats hempty)).filled
        have hlength := length_of_fill hfilled
        rw [hsplit, length_splitOn_mark, List.length_map] at hlength
        exact absurd (Nat.succ.inj hlength) hcount
      · rintro ⟨hunbound, -⟩
        rw [hempty] at hcount
        exact absurd (hunbound hempty) hcount
    · constructor
      · intro _
        exact ⟨fun h => absurd h hempty, fun h => absurd h hcount⟩
      · intro _ rendered hrendered
        exact absurd hrendered (renderSqlStatement_error floats hempty hcount rendered)

/-! ## Quoted texts and names -/

theorem readText_quoteSqlLiteral (value : Text) :
    readText .between (quoteSqlLiteral value) = some ([], .literalQuote value) := by
  have hne : singleQuote ≠ backslash := by decide
  rw [quoteSqlLiteral, readText,
    show readCharacter .between singleQuote = some ([], .literal []) by decide]
  simp [readText_append, readText_doubled_literal, readText, readCharacter, hne]

theorem readText_quoteIdent (name : Text) :
    readText .between (quoteIdent name) = some ([], .nameQuote name) := by
  rw [quoteIdent, readText, show readCharacter .between backQuote = some ([], .name []) by decide]
  simp [readText_append, readText_doubled_name, readText, readCharacter]

/-- A text that ends a token is read after the token as it is read on its own. -/
theorem readText_after {text rest : Text} {state : ReadState} {token : TextToken} {c : Char}
    (hread : readText .between text = some ([], state))
    (hend : readCharacter state c = endToken token c) :
    readText .between (text ++ c :: rest) =
      (readText .between (c :: rest)).map fun (tokens, state) => (token :: tokens, state) := by
  have hbegin : readCharacter .between c = beginToken c := rfl
  rw [readText_append, hread]
  simp only [Option.bind_eq_bind, Option.bind_some, readText, hend, hbegin, endToken]
  cases beginToken c with
  | none => rfl
  | some begun =>
    obtain ⟨tokens, begun⟩ := begun
    simp only [Option.map_some, Option.bind_some]
    cases readText begun rest <;> rfl

/-- Quoted texts and names are read as one token that ends at the last quote. -/
structure QuotesRead : Prop where
  literal : ∀ value, textTokens (quoteSqlLiteral value) = some [.literal value]
  literal_before : ∀ value c rest, c ≠ singleQuote →
    readText .between (quoteSqlLiteral value ++ c :: rest) =
      (readText .between (c :: rest)).map fun (tokens, state) => (.literal value :: tokens, state)
  name : ∀ name, textTokens (quoteIdent name) = some [.name name]
  name_before : ∀ name c rest, c ≠ backQuote →
    readText .between (quoteIdent name ++ c :: rest) =
      (readText .between (c :: rest)).map fun (tokens, state) => (.name name :: tokens, state)

theorem quotesRead : QuotesRead where
  literal value := (readsAs_quoteSqlLiteral value).textTokens
  literal_before value c rest hc := by
    apply readText_after (readText_quoteSqlLiteral value)
    rw [readCharacter, if_neg hc]
  name name := (readsAs_quoteIdent name).textTokens
  name_before name c rest hc := by
    apply readText_after (readText_quoteIdent name)
    rw [readCharacter, if_neg hc]

/-- Quoted texts and names are read back, and a written statement has its parameters exactly when they
are values that a text keeps. -/
theorem renderSqlStatement_exact_iff (floats : FloatTexts) (statement : SqlStatement)
    (hmarks : MarksOutside .outside statement.sql.toList)
    (hprinted : ∀ param ∈ statement.params, Printed floats param) :
    (QuotesRead ∧ ∀ rendered, renderSqlStatement floats statement = .ok rendered →
      Written floats statement rendered) ↔ KeepsParams floats statement := by
  rw [written_iff hmarks hprinted |>.symm, and_iff_right quotesRead]

/-- Numbers of both widths that print as one and a half. -/
def halfFloats : FloatTexts where
  single :=
    { display := fun _ => "1.5".toList
      nearest := fun _ => 0x3FC00000
      nearest_ne := fun _ => by decide }
  double :=
    { display := fun _ => "1.5".toList
      nearest := fun _ => 0x3FF8000000000000
      nearest_ne := fun _ => by decide }

/-- A text with a quote, a backslash and a question mark, and a number. -/
theorem renderSqlStatement_exact_quotes :
    Written halfFloats
      { sql := "INSERT INTO `books` VALUES (?, ?)"
        params := [.bytes "O'Reilly\\Books?".toUTF8.toList, .double 0x3FF8000000000000] }
      "INSERT INTO `books` VALUES ('O''Reilly\\\\Books?', 1.5)".toList := by
  have hdecimal : halfFloats.double.Documented (doubleIsFinite 0x3FF8000000000000)
      0x3FF8000000000000 :=
    ⟨fun _ => ⟨false, ['1'], ['5'], by decide, by unfold AllDigits; decide,
      by unfold AllDigits; decide, rfl, fun _ => rfl⟩, fun h => absurd h (by decide)⟩
  have hexact := renderSqlStatement_exact_iff halfFloats
    { sql := "INSERT INTO `books` VALUES (?, ?)"
      params := [.bytes "O'Reilly\\Books?".toUTF8.toList, .double 0x3FF8000000000000] }
    (by decide) (by
      intro param hparam
      simp only [List.mem_cons, List.not_mem_nil, or_false] at hparam
      rcases hparam with rfl | rfl
      · trivial
      · exact hdecimal)
  refine (hexact.mpr ⟨by rintro ⟨⟩, ?_⟩).2 _ (by decide +kernel)
  intro _ param hparam
  simp only [List.mem_cons, List.not_mem_nil, or_false] at hparam
  rcases hparam with rfl | rfl
  · exact ⟨_, rfl⟩
  · exact ⟨by decide, by decide, by decide⟩

/-- A byte that is not the encoding of a text is written as the replacement character. -/
theorem renderSqlStatement_replaces_byte :
    renderSqlStatement halfFloats
        { sql := "INSERT INTO `books` VALUES (?)", params := [.bytes [0xFF]] } =
      .ok "INSERT INTO `books` VALUES ('\uFFFD')".toList ∧
    ¬Written halfFloats { sql := "INSERT INTO `books` VALUES (?)", params := [.bytes [0xFF]] }
      "INSERT INTO `books` VALUES ('\uFFFD')".toList := by
  refine ⟨by decide +kernel, fun hwritten => ?_⟩
  have hprinted : Printed halfFloats (.bytes [0xFF]) := trivial
  have hdenotes := hwritten.denotes (.bytes [0xFF]) List.mem_cons_self
  have hkept := (Core.toUTF8_fromUtf8Lossy [0xFF]).mpr
    ((denotes_quoteSqlValue_iff hprinted).mp hdenotes)
  revert hkept
  decide +kernel

end BinlogCdc
