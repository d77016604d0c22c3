import BinlogCdc.Schema.Render
import BinlogCdc.Sql.Literal

/-!
# What a default means

The two servers report a default differently: the source as SQL text, with strings quoted, and
the target as the bare value. Rendering keeps the meaning of every source report. The comparison
takes away the quotes of a source literal but leaves its escapes, and it looks for quotes, `NULL`
and the current timestamp in the bare values of the target too, where they are characters of a
string. It is right exactly when neither matters.
-/

namespace BinlogCdc.SyncSchema

/-! ## Values and reports -/

def numberCharacters : Text := "0123456789+-.eE".toList

/-- The text of a number. -/
structure NumberText where
  text : Text
  nonempty : text ≠ []
  characters : ∀ c ∈ text, c ∈ numberCharacters
deriving DecidableEq

/-- The digits of a bit literal. -/
structure Bits where
  digits : List Bool
  nonempty : digits ≠ []
deriving DecidableEq

def bitDigit (digit : Bool) : Char := if digit then '1' else '0'

def Bits.text (bits : Bits) : Text :=
  'b' :: singleQuote :: (bits.digits.map bitDigit ++ [singleQuote])

/-- The value that a default clause gives to a column. A number is given like a string of its
digits, since both are converted to the type of the column. -/
inductive DefaultValue where
  | null
  | literal (value : Text)
  | bits (bits : Bits)
  | currentTimestamp (precision : Fin 7)
deriving DecidableEq

/-- The digit of an explicit precision. -/
def precisionDigits (precision : Fin 7) : Text :=
  if precision = 0 then [] else [Nat.digitChar precision]

/-- The current timestamp with parentheses around an explicit precision only. -/
def timestampText (precision : Fin 7) : Text :=
  if precision = 0 then "current_timestamp".toList
  else "current_timestamp(".toList ++ precisionDigits precision ++ [')']

/-- A default as the source reports it. A string is any quoted literal that is read as it. -/
inductive MariadbDefault where
  | null
  | number (number : NumberText)
  | bits (bits : Bits)
  | literal (inner value : Text)
      (reads : readText (.literal []) inner = some ([], .literal value))
  | currentTimestamp (precision : Fin 7)

namespace MariadbDefault

def report : MariadbDefault → Text
  | .null => "NULL".toList
  | .number n => n.text
  | .bits b => b.text
  | .literal inner _ _ => singleQuote :: (inner ++ [singleQuote])
  | .currentTimestamp precision =>
    "current_timestamp(".toList ++ precisionDigits precision ++ [')']

def value : MariadbDefault → DefaultValue
  | .null => .null
  | .number n => .literal n.text
  | .bits b => .bits b
  | .literal _ value _ => .literal value
  | .currentTimestamp precision => .currentTimestamp precision

end MariadbDefault

/-- A default as the target reports it: the bare value, and nothing for `NULL`. -/
def DefaultValue.mysqlReport : DefaultValue → Option Text
  | .null => none
  | .literal value => some value
  | .bits b => some b.text
  | .currentTimestamp precision => some (Text.toAsciiUppercase (timestampText precision))

/-- The bits of a text of zeros and ones. -/
def readBits (text : Text) : Option Bits :=
  if h : text ≠ [] ∧ text.all (fun c => c == '0' || c == '1') = true then
    some ⟨text.map (· == '1'), by simpa using h.1⟩
  else none

/-- The value of a default clause. -/
def defaultMeaning (sql : Text) : Option DefaultValue :=
  match textTokens sql with
  | some [.literal value] => some (.literal value)
  | some [.word word] =>
    if word = "NULL".toList then some .null
    else if word = "CURRENT_TIMESTAMP".toList then some (.currentTimestamp 0)
    else none
  | some [.word word, .literal digits] =>
    if word = ['B'] then (readBits digits).map .bits else none
  | some [.word word, .symbol left, .symbol right] =>
    if word = "CURRENT_TIMESTAMP".toList ∧ left = '(' ∧ right = ')' then
      some (.currentTimestamp 0)
    else none
  | some [.word word, .symbol left, .word digits, .symbol right] =>
    if word = "CURRENT_TIMESTAMP".toList ∧ left = '(' ∧ right = ')' then
      ((List.finRange 7).find? fun precision => digits == precisionDigits precision).map
        .currentTimestamp
    else none
  | _ => none

/-! ## Literals -/

/-- The literal has a backslash escape that stands for another text. A backslash before a wildcard
stays. -/
def hasEscape : Text → Bool
  | [] => false
  | c :: rest =>
    if c = backslash then
      match rest with
      | [] => false
      | next :: rest => !(next == '%' || next == '_') || hasEscape rest
    else hasEscape rest

theorem hasEscape_of_ne {c : Char} (h : c ≠ backslash) (rest : Text) :
    hasEscape (c :: rest) = hasEscape rest := by
  rw [hasEscape.eq_def]
  exact if_neg h

/-- A character that finishes no token. -/
theorem readText_silent {state state' : ReadState} {c : Char}
    (h : readCharacter state c = some ([], state')) (rest : Text) :
    readText state (c :: rest) = readText state' rest := by
  rw [readText, h, Option.bind_eq_bind, Option.bind_some]
  dsimp only
  cases readText state' rest <;> rfl

theorem readText_escape (read : Text) (next : Char) (rest : Text) :
    readText (.literal read) (backslash :: next :: rest) =
      readText (.literal (read ++ unescaped next)) rest := by
  have hslash : readCharacter (.literal read) backslash = some ([], .escape read) := by
    simp [readCharacter]
  rw [readText_silent hslash, readText_silent rfl]

theorem readText_quotePair (read rest : Text) :
    readText (.literal read) (singleQuote :: singleQuote :: rest) =
      readText (.literal (read ++ [singleQuote])) rest := by
  have hquote : readCharacter (.literal read) singleQuote = some ([], .literalQuote read) := by
    have hne : singleQuote ≠ backslash := by decide
    simp [readCharacter, hne]
  have hpair : readCharacter (.literalQuote read) singleQuote =
      some ([], .literal (read ++ [singleQuote])) := by
    simp [readCharacter]
  rw [readText_silent hquote, readText_silent hpair]

theorem readText_plain {c : Char} (hquote : c ≠ singleQuote) (hslash : c ≠ backslash)
    (read rest : Text) :
    readText (.literal read) (c :: rest) = readText (.literal (read ++ [c])) rest :=
  readText_silent (by simp [readCharacter, hquote, hslash]) rest

/-- A quote that is not doubled ends the literal. -/
theorem readText_quote_ends {read rest : Text} {next : Char} (hnext : next ≠ singleQuote)
    {value : Text} :
    readText (.literal read) (singleQuote :: next :: rest) ≠ some ([], .literal value) := by
  have hquote : readCharacter (.literal read) singleQuote = some ([], .literalQuote read) := by
    have hne : singleQuote ≠ backslash := by decide
    simp [readCharacter, hne]
  rw [readText_silent hquote, readText, readCharacter, if_neg hnext, endToken]
  cases beginToken next with
  | none => simp
  | some begun => cases hrest : readText begun.2 rest <;> simp [hrest]

theorem length_unescaped (c : Char) :
    (unescaped c).length = if c == '%' || c == '_' then 2 else 1 := by
  unfold unescaped
  split_ifs <;> simp_all

/-- The body of a literal is what is read from it unless it has an escape; then it is longer. -/
structure BodyOf (escaped : Bool) (read value body : Text) : Prop where
  plain : escaped = false → read ++ body = value
  le : value.length ≤ read.length + body.length
  lt : escaped = true → value.length < read.length + body.length

theorem BodyOf.same {escaped : Bool} {read value body part : Text}
    (h : BodyOf escaped (read ++ part) value body) : BodyOf escaped read value (part ++ body) where
  plain hplain := by simpa using h.plain hplain
  le := by simpa [Nat.add_assoc] using h.le
  lt hescaped := by simpa [Nat.add_assoc] using h.lt hescaped

theorem BodyOf.longer {escaped : Bool} {read value body part short : Text}
    (h : BodyOf escaped (read ++ short) value body) (hshort : short.length < part.length) :
    BodyOf true read value (part ++ body) := by
  have hle := h.le
  rw [List.length_append] at hle
  refine ⟨nofun, ?_, fun _ => ?_⟩ <;> rw [List.length_append] <;> omega

theorem quotedBody_of_reads (inner : Text) {read value : Text}
    (h : readText (.literal read) inner = some ([], .literal value)) :
    ∃ body, quotedBody inner = some body ∧ BodyOf (hasEscape inner) read value body := by
  have hne : singleQuote ≠ backslash := by decide
  fun_induction quotedBody inner generalizing read with
  | case1 =>
    simp only [readText, Option.some.injEq, Prod.mk.injEq, ReadState.literal.injEq, true_and] at h
    subst h
    exact ⟨[], rfl, by simp, by simp, by simp [hasEscape]⟩
  | case2 => simp [readText, readCharacter, hne] at h
  | case3 rest ih =>
    rw [readText_quotePair] at h
    obtain ⟨body, hbody, hread⟩ := ih h
    have hescape : hasEscape (singleQuote :: singleQuote :: rest) = hasEscape rest := by
      rw [hasEscape_of_ne hne, hasEscape_of_ne hne]
    exact ⟨singleQuote :: body, by rw [hbody]; rfl, hescape ▸ hread.same⟩
  | case4 next rest hnext => exact absurd h (readText_quote_ends hnext)
  | case5 => simp [readText, readCharacter] at h
  | case6 next rest _ ih =>
    rw [readText_escape] at h
    obtain ⟨body, hbody, hread⟩ := ih h
    refine ⟨backslash :: next :: body, by rw [hbody]; rfl, ?_⟩
    by_cases hwild : (next == '%' || next == '_') = true
    · have hsame : unescaped next = [backslash, next] := by
        rcases Bool.or_eq_true _ _ ▸ hwild with hpercent | hunderscore
        · rw [beq_iff_eq.mp hpercent]; decide
        · rw [beq_iff_eq.mp hunderscore]; decide
      have hescape : hasEscape (backslash :: next :: rest) = hasEscape rest := by
        simp [hasEscape, hwild]
      rw [hsame] at hread
      exact hescape ▸ hread.same
    · have hescape : hasEscape (backslash :: next :: rest) = true := by simp [hasEscape, hwild]
      have hshort : (unescaped next).length < [backslash, next].length := by
        rw [length_unescaped, if_neg hwild]
        exact Nat.one_lt_two
      exact hescape ▸ hread.longer hshort
  | case7 c rest hquote hslash ih =>
    rw [readText_plain hquote hslash] at h
    obtain ⟨body, hbody, hread⟩ := ih h
    have hescape : hasEscape (c :: rest) = hasEscape rest := hasEscape_of_ne hslash rest
    exact ⟨c :: body, by rw [hbody]; rfl, hescape ▸ hread.same⟩

/-! ## The text of a source default -/

/-- The text of a source default, with the quotes of a literal taken away and its doubled quotes as
one. -/
def MariadbDefault.text : MariadbDefault → Option Text
  | .null => none
  | .number n => some n.text
  | .bits b => some b.text
  | .literal inner _ _ => quotedBody inner
  | .currentTimestamp precision => some (timestampText precision)

/-- The comparison form of a reported default. -/
def canonicalText (report : Text) : Option Text :=
  if Text.eqIgnoreAsciiCase report "null".toList then none
  else some ((quotedLiteralBody report).getD (canonicalCurrentTimestamp report))

theorem canonicalDefault_ofList (report : Text) :
    canonicalDefault (some (String.ofList report)) = (canonicalText report).map String.ofList := by
  simp only [canonicalDefault, canonicalText, String.toList_ofList]
  split
  · rfl
  · cases quotedLiteralBody report <;> rfl

theorem quotedLiteralBody_quoted (inner : Text) :
    quotedLiteralBody (singleQuote :: (inner ++ [singleQuote])) = quotedBody inner := by
  simp [quotedLiteralBody]

theorem quotedLiteralBody_of_ne {c : Char} (h : c ≠ singleQuote) (rest : Text) :
    quotedLiteralBody (c :: rest) = none := by
  simp [quotedLiteralBody, h]

/-- A text that begins with another character does not spell a word. -/
theorem eqIgnoreAsciiCase_cons {c w : Char} (h : c.toUpper ≠ w.toUpper) (rest word : Text) :
    Text.eqIgnoreAsciiCase (c :: rest) (w :: word) = false := by
  simp [Text.eqIgnoreAsciiCase, Text.toAsciiUppercase, h]

theorem canonicalCurrentTimestamp_cons {c : Char} (h : c.toLower ≠ 'c') (rest : Text) :
    canonicalCurrentTimestamp (c :: rest) = c :: rest := by
  have hne : ¬ 'c' = c.toLower := fun heq => h heq.symm
  simp [canonicalCurrentTimestamp, Text.toAsciiLowercase, List.isPrefixOf, hne]

/-- A text that begins with none of the characters that the comparison looks for. -/
theorem canonicalText_cons {c : Char} (hnull : c.toUpper ≠ 'N') (hquote : c ≠ singleQuote)
    (hstamp : c.toLower ≠ 'c') (rest : Text) : canonicalText (c :: rest) = some (c :: rest) := by
  have hword : Text.eqIgnoreAsciiCase (c :: rest) "null".toList = false :=
    eqIgnoreAsciiCase_cons (w := 'n') hnull rest _
  rw [canonicalText, hword, quotedLiteralBody_of_ne hquote, canonicalCurrentTimestamp_cons hstamp]
  rfl

theorem NumberText.exists_cons (n : NumberText) :
    ∃ c rest, n.text = c :: rest ∧ c ∈ numberCharacters := by
  obtain ⟨c, rest, htext⟩ := List.exists_cons_of_ne_nil n.nonempty
  exact ⟨c, rest, htext, n.characters c (by simp [htext])⟩

/-- A source default is compared by its text. -/
theorem canonicalText_report (source : MariadbDefault) :
    canonicalText source.report = source.text := by
  cases source with
  | null => decide
  | number n =>
    obtain ⟨c, rest, htext, hc⟩ := n.exists_cons
    have hfree : ∀ c ∈ numberCharacters, c.toUpper ≠ 'N' ∧ c ≠ singleQuote ∧ c.toLower ≠ 'c' := by
      decide
    obtain ⟨hnull, hquote, hstamp⟩ := hfree c hc
    change canonicalText n.text = some n.text
    rw [htext]
    exact canonicalText_cons hnull hquote hstamp rest
  | bits b => exact canonicalText_cons (by decide) (by decide) (by decide) _
  | literal inner value reads =>
    obtain ⟨body, hbody, -⟩ := quotedBody_of_reads inner reads
    have hword : Text.eqIgnoreAsciiCase (singleQuote :: (inner ++ [singleQuote])) "null".toList =
        false := eqIgnoreAsciiCase_cons (w := 'n') (by decide) _ _
    change canonicalText (singleQuote :: (inner ++ [singleQuote])) = quotedBody inner
    rw [canonicalText, hword, quotedLiteralBody_quoted, hbody]
    rfl
  | currentTimestamp precision => revert precision; decide

/-! ## The text of a target default -/

/-- The string is `null` in some case. -/
def SpellsNull (value : Text) : Prop := Text.eqIgnoreAsciiCase value "null".toList = true

/-- The string begins like the current timestamp in some case. -/
def SpellsTimestamp (value : Text) : Prop :=
  "current_timestamp".toList.isPrefixOf (Text.toAsciiLowercase value) = true

/-- The string is compared as it is. -/
structure Plain (value : Text) : Prop where
  not_null : ¬ SpellsNull value
  not_quoted : quotedLiteralBody value = none
  lowercase : SpellsTimestamp value →
    Text.toAsciiLowercase value = value ∧ value ≠ "current_timestamp()".toList

/-- The string is compared as the text: it is the text, it is a quoted literal of the text, or it
is the current timestamp in another spelling. -/
inductive TakenFor (value text : Text) : Prop
  | plain (hplain : Plain value) (htext : value = text)
  | quoted (hbody : quotedLiteralBody value = some text)
  | timestamp (hstamp : SpellsTimestamp value)
      (htext : Text.toAsciiLowercase value = text ∧ text ≠ "current_timestamp()".toList ∨
        Text.toAsciiLowercase value = "current_timestamp()".toList ∧
          text = "current_timestamp".toList)

theorem SpellsNull.length_eq {value : Text} (h : SpellsNull value) : value.length = 4 := by
  have hupper := congrArg List.length (beq_iff_eq.mp h)
  simpa [Text.toAsciiUppercase] using hupper

theorem SpellsTimestamp.le_length {value : Text} (h : SpellsTimestamp value) :
    17 ≤ value.length := by
  have hlength := (List.isPrefixOf_iff_prefix.mp h).length_le
  simpa [Text.toAsciiLowercase] using hlength

theorem SpellsTimestamp.not_null {value : Text} (h : SpellsTimestamp value) :
    ¬ SpellsNull value := by
  intro hnull
  have hlong := h.le_length
  have hshort := hnull.length_eq
  omega

theorem SpellsTimestamp.not_quoted {value : Text} (h : SpellsTimestamp value) :
    quotedLiteralBody value = none := by
  cases value with
  | nil => rfl
  | cons c rest =>
    refine quotedLiteralBody_of_ne ?_ rest
    rintro rfl
    have hfirst : ¬ 'c' = singleQuote.toLower := by decide
    simp [SpellsTimestamp, Text.toAsciiLowercase, List.isPrefixOf, hfirst] at h

theorem not_spellsNull_of_quoted {value body : Text} (h : quotedLiteralBody value = some body) :
    ¬ SpellsNull value := by
  cases value with
  | nil => cases h
  | cons c rest =>
    have hc : c = singleQuote := by
      by_contra hne
      rw [quotedLiteralBody_of_ne hne] at h
      cases h
    have hword : Text.eqIgnoreAsciiCase (c :: rest) "null".toList = false :=
      eqIgnoreAsciiCase_cons (w := 'n') (by rw [hc]; decide) rest _
    rw [SpellsNull, hword]
    exact Bool.false_ne_true

theorem canonicalText_of_not_null {value : Text} (h : ¬ SpellsNull value) : canonicalText value =
    some ((quotedLiteralBody value).getD (canonicalCurrentTimestamp value)) :=
  if_neg h

theorem canonicalCurrentTimestamp_of_spells {value : Text} (h : SpellsTimestamp value) :
    canonicalCurrentTimestamp value =
      if Text.toAsciiLowercase value = "current_timestamp()".toList then "current_timestamp".toList
      else Text.toAsciiLowercase value :=
  if_pos h

theorem canonicalCurrentTimestamp_of_not {value : Text} (h : ¬ SpellsTimestamp value) :
    canonicalCurrentTimestamp value = value :=
  if_neg h

theorem canonicalText_eq_none {value : Text} : canonicalText value = none ↔ SpellsNull value := by
  unfold canonicalText SpellsNull
  split <;> simp_all

theorem canonicalText_eq_some {value text : Text} :
    canonicalText value = some text ↔ TakenFor value text := by
  constructor
  · intro h
    have hnull : ¬ SpellsNull value := fun hnull => by
      rw [canonicalText_eq_none.mpr hnull] at h
      cases h
    rw [canonicalText_of_not_null hnull] at h
    cases hbody : quotedLiteralBody value with
    | some body =>
      rw [hbody] at h
      exact .quoted (hbody.trans h)
    | none =>
      rw [hbody] at h
      have htext : canonicalCurrentTimestamp value = text := Option.some.inj h
      by_cases hstamp : SpellsTimestamp value
      · rw [canonicalCurrentTimestamp_of_spells hstamp] at htext
        split at htext
        case isTrue hcall => exact .timestamp hstamp (Or.inr ⟨hcall, htext.symm⟩)
        case isFalse hcall => exact .timestamp hstamp (Or.inl ⟨htext, htext ▸ hcall⟩)
      · rw [canonicalCurrentTimestamp_of_not hstamp] at htext
        exact .plain ⟨hnull, hbody, fun h => absurd h hstamp⟩ htext
  · rintro (⟨hplain, rfl⟩ | hbody | ⟨hstamp, htext⟩)
    · rw [canonicalText_of_not_null hplain.not_null, hplain.not_quoted, Option.getD_none]
      by_cases hstamp : SpellsTimestamp value
      · obtain ⟨hlower, hcall⟩ := hplain.lowercase hstamp
        rw [canonicalCurrentTimestamp_of_spells hstamp, hlower, if_neg hcall]
      · rw [canonicalCurrentTimestamp_of_not hstamp]
    · rw [canonicalText_of_not_null (not_spellsNull_of_quoted hbody), hbody, Option.getD_some]
    · rw [canonicalText_of_not_null hstamp.not_null, hstamp.not_quoted, Option.getD_none,
        canonicalCurrentTimestamp_of_spells hstamp]
      rcases htext with ⟨rfl, hcall⟩ | ⟨hcall, rfl⟩
      · rw [if_neg hcall]
      · rw [if_pos hcall]

/-- The text of a target default in the comparison. -/
def DefaultValue.text : DefaultValue → Option Text
  | .null => none
  | .literal value => canonicalText value
  | .bits b => some b.text
  | .currentTimestamp precision => some (timestampText precision)

theorem canonicalDefault_mysqlReport (target : DefaultValue) :
    canonicalDefault (target.mysqlReport.map String.ofList) = target.text.map String.ofList := by
  cases target with
  | null => rfl
  | literal value => exact canonicalDefault_ofList value
  | bits b =>
    refine (canonicalDefault_ofList b.text).trans (congrArg _ ?_)
    exact canonicalText_cons (by decide) (by decide) (by decide) _
  | currentTimestamp precision =>
    refine (canonicalDefault_ofList _).trans (congrArg _ ?_)
    revert precision
    decide

/-! ## Rendering -/

/-- Characters without a meaning in a literal are read as they are. -/
theorem readText_plain_text {text : Text} (read : Text)
    (h : ∀ c ∈ text, c ≠ singleQuote ∧ c ≠ backslash) :
    readText (.literal read) text = some ([], .literal (read ++ text)) := by
  induction text generalizing read with
  | nil => simp [readText]
  | cons c text ih =>
    obtain ⟨hc, hrest⟩ := List.forall_mem_cons.mp h
    rw [readText_plain hc.1 hc.2, ih _ hrest]
    simp

/-- A quoted literal is one token. -/
theorem textTokens_quoted {inner value : Text}
    (h : readText (.literal []) inner = some ([], .literal value)) :
    textTokens (singleQuote :: (inner ++ [singleQuote])) = some [.literal value] := by
  have hstart : readCharacter .between singleQuote = some ([], .literal []) := by decide
  have hne : singleQuote ≠ backslash := by decide
  have hend : readText (.literal value) [singleQuote] = some ([], .literalQuote value) := by
    simp [readText, readCharacter, hne]
  rw [textTokens, readText_silent hstart, readText_append, h]
  simp [hend, ReadState.held]

theorem textTokens_bits (b : Bits) :
    textTokens b.text = some [.word ['B'], .literal (b.digits.map bitDigit)] := by
  have hfree : ∀ c ∈ b.digits.map bitDigit, c ≠ singleQuote ∧ c ≠ backslash := by
    intro c hc
    obtain ⟨digit, -, rfl⟩ := List.mem_map.mp hc
    have hdigit : ∀ digit, bitDigit digit ≠ singleQuote ∧ bitDigit digit ≠ backslash := by decide
    exact hdigit digit
  have hletter : readCharacter .between 'b' = some ([], .word ['b']) := by decide
  have hquote : readCharacter (.word ['b']) singleQuote =
      some ([.word ['B']], .literal []) := by decide
  have hne : singleQuote ≠ backslash := by decide
  have hend : ∀ value, readText (.literal value) [singleQuote] = some ([], .literalQuote value) := by
    intro value
    simp [readText, readCharacter, hne]
  rw [textTokens, Bits.text, readText_silent hletter, readText, hquote]
  simp [readText_append, readText_plain_text [] hfree, hend, ReadState.held]

theorem readBits_digits (b : Bits) : readBits (b.digits.map bitDigit) = some b := by
  have hdigits : ∀ digit, (bitDigit digit == '0' || bitDigit digit == '1') = true := by decide
  have hback : ((· == '1') ∘ bitDigit) = id := by
    funext digit
    revert digit
    decide
  have hall : b.digits.map bitDigit ≠ [] ∧
      (b.digits.map bitDigit).all (fun c => c == '0' || c == '1') = true := by
    refine ⟨by simpa using b.nonempty, ?_⟩
    simp only [List.all_map, List.all_eq_true]
    exact fun digit _ => hdigits digit
  rw [readBits, dif_pos hall]
  simp [hback]

/-- Without the character there is nothing to replace. -/
theorem replace_of_notMem {c : Char} {text : Text} (replacement : Text) (h : c ∉ text) :
    Text.replace [c] replacement text = text := by
  unfold Text.replace
  induction text with
  | nil => rfl
  | cons d text ih =>
    rw [List.mem_cons, not_or] at h
    rw [Text.replaceFrom]
    simp [List.isPrefixOf, h.1, ih h.2]

/-- Rendering as a text. -/
theorem renderDefault_ofList {report : Text} {c : Char} {rest : Text} (hreport : report = c :: rest)
    (hstamp : c.toUpper ≠ 'C') (hlower : c.toLower ≠ 'c') (hnull : c.toUpper ≠ 'N') :
    (renderDefault (String.ofList report)).toList =
      if isSqlLiteral report then report
      else singleQuote :: (Text.replace [singleQuote] [singleQuote, singleQuote] report ++
        [singleQuote]) := by
  have hword : Text.eqIgnoreAsciiCase report "current_timestamp".toList = false :=
    hreport ▸ eqIgnoreAsciiCase_cons (w := 'c') hstamp rest _
  have hcall : "current_timestamp(".toList.isPrefixOf (Text.toAsciiLowercase report) = false := by
    have hne : ¬ 'c' = c.toLower := fun heq => hlower heq.symm
    simp [hreport, Text.toAsciiLowercase, List.isPrefixOf, hne]
  have hnone : Text.eqIgnoreAsciiCase report "null".toList = false :=
    hreport ▸ eqIgnoreAsciiCase_cons (w := 'n') hnull rest _
  simp only [renderDefault, String.toList_ofList, hword, hcall, hnone, Bool.or_self,
    Bool.false_eq_true, if_false]
  split
  · exact String.toList_ofList
  · simp [doubleQuotes, replaceText, singleQuote]

theorem isBitLiteral_text (b : Bits) : isBitLiteral b.text = true := by
  have hdigits : ∀ digit, (bitDigit digit == '0' || bitDigit digit == '1') = true := by decide
  have hlength : 0 < b.digits.length := List.length_pos_of_ne_nil b.nonempty
  have hlast : b.text.getLast? = some singleQuote := by
    simp [Bits.text, List.getLast?_cons_of_ne_nil]
  have hlong : 3 < b.text.length := by
    simp only [Bits.text, List.length_cons, List.length_append, List.length_map, List.length_nil]
    omega
  have hinner : (b.text.drop 2).dropLast = b.digits.map bitDigit := by simp [Bits.text]
  have hprefix : "b'".toList.isPrefixOf b.text = true := rfl
  rw [isBitLiteral, hinner]
  simp only [hlong, hprefix, hlast, decide_true, Bool.true_and, List.all_map, List.all_eq_true]
  exact fun digit _ => hdigits digit

/-- The clause that is rendered for a source default gives its value. -/
theorem defaultMeaning_renderDefault (source : MariadbDefault) :
    defaultMeaning (renderDefault (String.ofList source.report)).toList = some source.value := by
  cases source with
  | null => decide
  | currentTimestamp precision => revert precision; decide
  | bits b =>
    have hrender : (renderDefault (String.ofList b.text)).toList = b.text := by
      have hcons : b.text = 'b' :: singleQuote :: (b.digits.map bitDigit ++ [singleQuote]) := rfl
      rw [renderDefault_ofList hcons (by decide) (by decide) (by decide), isSqlLiteral,
        isBitLiteral_text]
      rfl
    change defaultMeaning (renderDefault (String.ofList b.text)).toList = some (.bits b)
    rw [hrender, defaultMeaning, textTokens_bits]
    simp [readBits_digits]
  | literal inner value reads =>
    obtain ⟨body, hbody, -⟩ := quotedBody_of_reads inner reads
    have hrender : (renderDefault (String.ofList (singleQuote :: (inner ++ [singleQuote])))).toList =
        singleQuote :: (inner ++ [singleQuote]) := by
      rw [renderDefault_ofList rfl (by decide) (by decide) (by decide), isSqlLiteral,
        quotedLiteralBody_quoted, hbody]
      simp
    change defaultMeaning (renderDefault (String.ofList
      (singleQuote :: (inner ++ [singleQuote])))).toList = some (.literal value)
    rw [hrender, defaultMeaning, textTokens_quoted reads]
  | number n =>
    obtain ⟨c, rest, htext, hc⟩ := n.exists_cons
    have hfree : ∀ c ∈ numberCharacters, (c ≠ singleQuote ∧ c ≠ backslash) ∧ c ≠ 'b' ∧
        c.toUpper ≠ 'C' ∧ c.toLower ≠ 'c' ∧ c.toUpper ≠ 'N' := by decide
    obtain ⟨⟨hquote, -⟩, hbit, hstamp, hlower, hnull⟩ := hfree c hc
    have hliteral : isSqlLiteral n.text = false := by
      have hnot : ¬ 'b' = c := fun heq => hbit heq.symm
      rw [isSqlLiteral, htext, quotedLiteralBody_of_ne hquote, isBitLiteral]
      simp [List.isPrefixOf, hnot]
    have hplain : ∀ c ∈ n.text, c ≠ singleQuote ∧ c ≠ backslash := fun c hc =>
      (hfree c (n.characters c hc)).1
    have hrender : (renderDefault (String.ofList n.text)).toList =
        singleQuote :: (n.text ++ [singleQuote]) := by
      rw [renderDefault_ofList htext hstamp hlower hnull, hliteral,
        replace_of_notMem _ fun hmem => (hplain _ hmem).1 rfl]
      rfl
    change defaultMeaning (renderDefault (String.ofList n.text)).toList = some (.literal n.text)
    rw [hrender, defaultMeaning, textTokens_quoted (readText_plain_text [] hplain)]
    rfl

/-! ## The comparison -/

theorem length_quotedBody_le {inner body : Text} (h : quotedBody inner = some body) :
    body.length ≤ inner.length := by
  fun_induction quotedBody inner generalizing body with
  | case1 =>
    obtain rfl := Option.some.inj h
    exact Nat.le_refl _
  | case2 => cases h
  | case3 rest ih =>
    obtain ⟨body, hbody, rfl⟩ := Option.map_eq_some_iff.mp h
    have hle := ih hbody
    simp only [List.length_cons]
    omega
  | case4 => cases h
  | case5 => cases h
  | case6 next rest _ ih =>
    obtain ⟨body, hbody, rfl⟩ := Option.map_eq_some_iff.mp h
    have hle := ih hbody
    simp only [List.length_cons]
    omega
  | case7 c rest _ _ ih =>
    obtain ⟨body, hbody, rfl⟩ := Option.map_eq_some_iff.mp h
    have hle := ih hbody
    simp only [List.length_cons]
    omega

theorem length_quotedLiteralBody_lt {value body : Text} (h : quotedLiteralBody value = some body) :
    body.length < value.length := by
  cases value with
  | nil => cases h
  | cons c rest =>
    unfold quotedLiteralBody at h
    dsimp only at h
    split at h
    case isFalse => cases h
    case isTrue =>
      have hle := length_quotedBody_le h
      rw [List.length_dropLast] at hle
      rw [List.length_cons]
      omega

theorem TakenFor.length_le {value text : Text} (h : TakenFor value text) :
    text.length ≤ value.length := by
  rcases h with ⟨-, rfl⟩ | hbody | ⟨hstamp, htext⟩
  · exact Nat.le_refl _
  · exact (length_quotedLiteralBody_lt hbody).le
  · have hlength : (Text.toAsciiLowercase value).length = value.length := List.length_map _
    rcases htext with ⟨rfl, -⟩ | ⟨-, rfl⟩
    · exact hlength.le
    · exact hstamp.le_length

/-- A string stands for itself exactly when it is plain. -/
theorem takenFor_self {value : Text} : TakenFor value value ↔ Plain value := by
  constructor
  · rintro (⟨hplain, -⟩ | hbody | ⟨hstamp, ⟨hlower, hcall⟩ | ⟨hcall, hvalue⟩⟩)
    · exact hplain
    · exact absurd (length_quotedLiteralBody_lt hbody) (Nat.lt_irrefl _)
    · exact ⟨hstamp.not_null, hstamp.not_quoted, fun _ => ⟨hlower, hcall⟩⟩
    · rw [hvalue] at hcall
      exact absurd hcall (by decide)
  · intro hplain
    exact .plain hplain rfl

/-- The literal that reports the default has an escape. -/
def MariadbDefault.Escaped : MariadbDefault → Prop
  | .literal inner _ _ => hasEscape inner = true
  | _ => False

theorem text_eq_canonicalText_iff {source : MariadbDefault} {value : Text}
    (h : source.value = .literal value) :
    source.text = canonicalText value ↔ Plain value ∧ ¬ source.Escaped := by
  cases source with
  | null => cases h
  | bits b => cases h
  | currentTimestamp precision => cases h
  | number n =>
    obtain rfl : n.text = value := by simpa [MariadbDefault.value] using h
    rw [eq_comm]
    change canonicalText n.text = some n.text ↔ Plain n.text ∧ ¬ False
    rw [canonicalText_eq_some, takenFor_self]
    simp
  | literal inner v reads =>
    obtain rfl : v = value := by simpa [MariadbDefault.value] using h
    obtain ⟨body, hbody, hread⟩ := quotedBody_of_reads inner reads
    change quotedBody inner = canonicalText v ↔ Plain v ∧ ¬ hasEscape inner = true
    rw [hbody, eq_comm, canonicalText_eq_some]
    constructor
    · intro htaken
      have hplain : ¬ hasEscape inner = true := fun hescape => by
        have hlt := hread.lt hescape
        have hle := htaken.length_le
        simp only [List.length_nil, Nat.zero_add] at hlt
        omega
      have hsame : body = v := hread.plain (Bool.eq_false_iff.mpr hplain)
      rw [hsame] at htaken
      exact ⟨takenFor_self.mp htaken, hplain⟩
    · rintro ⟨hplain, hescape⟩
      have hsame : body = v := hread.plain (Bool.eq_false_iff.mpr hescape)
      rw [hsame]
      exact takenFor_self.mpr hplain

/-- A target default that is taken for a source default with another value. -/
inductive Confused (source : MariadbDefault) : DefaultValue → Prop
  | null {value : Text} (hsource : source = .null) (hvalue : SpellsNull value) :
      Confused source (.literal value)
  | literal {value text : Text} (hsource : source.text = some text) (hvalue : TakenFor value text) :
      Confused source (.literal value)
  | bits {b : Bits} (hsource : source.text = some b.text) : Confused source (.bits b)
  | currentTimestamp {precision : Fin 7} (hsource : source.text = some (timestampText precision)) :
      Confused source (.currentTimestamp precision)

/-- The defaults can be told apart and recognized: an equal string has no escape in its report and
is compared as it is, and a different default is not confused. -/
structure Distinguished (source : MariadbDefault) (target : DefaultValue) : Prop where
  same : source.value = target → ∀ value, target = .literal value → Plain value ∧ ¬ source.Escaped
  different : source.value ≠ target → ¬ Confused source target

theorem text_eq_none {source : MariadbDefault} : source.text = none ↔ source = .null := by
  cases source with
  | null => simp [MariadbDefault.text]
  | number n => simp [MariadbDefault.text]
  | bits b => simp [MariadbDefault.text]
  | currentTimestamp precision => simp [MariadbDefault.text]
  | literal inner value reads =>
    obtain ⟨body, hbody, -⟩ := quotedBody_of_reads inner reads
    simp [MariadbDefault.text, hbody]

theorem confused_iff {source : MariadbDefault} {target : DefaultValue}
    (h : source.value ≠ target) : Confused source target ↔ source.text = target.text := by
  cases target with
  | null =>
    constructor
    · nofun
    · intro htext
      rw [text_eq_none.mp htext] at h
      exact absurd rfl h
  | bits b => exact ⟨fun | .bits hsource => hsource, .bits⟩
  | currentTimestamp precision =>
    exact ⟨fun | .currentTimestamp hsource => hsource, .currentTimestamp⟩
  | literal value =>
    constructor
    · rintro (⟨rfl, hvalue⟩ | ⟨hsource, hvalue⟩)
      · exact (canonicalText_eq_none.mpr hvalue).symm
      · exact hsource.trans (canonicalText_eq_some.mpr hvalue).symm
    · intro htext
      cases hcanonical : canonicalText value with
      | none =>
        exact .null (text_eq_none.mp (htext.trans hcanonical)) (canonicalText_eq_none.mp hcanonical)
      | some text => exact .literal (htext.trans hcanonical) (canonicalText_eq_some.mp hcanonical)

/-- Rendering always keeps the value of a source default, and the comparison with a target default
is right exactly when the two are distinguished. -/
theorem canonicalDefault_agrees_iff (source : MariadbDefault) (target : DefaultValue) :
    (defaultMeaning (renderDefault (String.ofList source.report)).toList = some source.value ∧
      (canonicalDefault (some (String.ofList source.report)) =
          canonicalDefault (target.mysqlReport.map String.ofList) ↔ source.value = target)) ↔
    Distinguished source target := by
  have hcompare : canonicalDefault (some (String.ofList source.report)) =
      canonicalDefault (target.mysqlReport.map String.ofList) ↔ source.text = target.text := by
    rw [canonicalDefault_ofList, canonicalDefault_mysqlReport, canonicalText_report]
    exact (Option.map_injective fun _ _ h => String.ofList_inj.mp h).eq_iff
  rw [hcompare, and_iff_right (defaultMeaning_renderDefault source)]
  by_cases hvalue : source.value = target
  · have hsame : source.text = target.text ↔
        ∀ value, target = .literal value → Plain value ∧ ¬ source.Escaped := by
      subst hvalue
      cases hsource : source.value with
      | literal value =>
        rw [DefaultValue.text, text_eq_canonicalText_iff hsource]
        simp
      | null =>
        cases source <;> cases hsource
        simp [MariadbDefault.text, DefaultValue.text]
      | bits b =>
        cases source <;> cases hsource
        simp [MariadbDefault.text, DefaultValue.text]
      | currentTimestamp precision =>
        cases source <;> cases hsource
        simp [MariadbDefault.text, DefaultValue.text]
    rw [hsame]
    constructor
    · intro h
      exact ⟨fun _ => h.mpr hvalue, fun hne => absurd hvalue hne⟩
    · intro h
      exact ⟨fun _ => hvalue, fun _ => h.same hvalue⟩
  · rw [← confused_iff hvalue]
    constructor
    · intro h
      exact ⟨fun heq => absurd heq hvalue, fun _ hconfused => hvalue (h.mp hconfused)⟩
    · intro h
      exact ⟨fun hconfused => absurd hconfused (h.different hvalue), fun heq => absurd heq hvalue⟩

/-- The string `null` as the source reports it. -/
def nullString : MariadbDefault :=
  .literal "null".toList "null".toList (readText_plain_text [] (by decide))

/-- The string `null` is a difference between two columns that both have it, and it is taken for the
default `NULL`. -/
theorem canonicalDefault_null_string :
    nullString.value = .literal "null".toList ∧
    canonicalDefault (some (String.ofList nullString.report)) ≠
      canonicalDefault ((DefaultValue.literal "null".toList).mysqlReport.map String.ofList) ∧
    canonicalDefault (some (String.ofList MariadbDefault.null.report)) =
      canonicalDefault ((DefaultValue.literal "null".toList).mysqlReport.map String.ofList) := by
  refine ⟨rfl, ?_, ?_⟩
  · rw [canonicalDefault_ofList, canonicalDefault_mysqlReport, canonicalText_report]
    decide
  · rw [canonicalDefault_ofList, canonicalDefault_mysqlReport, canonicalText_report]
    decide

end BinlogCdc.SyncSchema
