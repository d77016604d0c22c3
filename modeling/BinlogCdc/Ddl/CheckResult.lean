import BinlogCdc.Ddl.CheckMeaning

/-!
# Rendered CHECK clauses

The renderer puts the operands of every operator in parentheses and the disjuncts of a CHECK side by
side, so that its text respells the CHECK.
-/

namespace BinlogCdc

namespace Ddl

open Text

/-! ## Lexemes -/

/-- An operator between operands in parentheses. -/
def operatorLexemes (operator : Lexeme) (left right : List Lexeme) : List Lexeme :=
  .symbol '(' :: (left ++ .symbol ')' :: .blank :: operator :: .blank :: .symbol '(' ::
    (right ++ [.symbol ')']))

/-- String literals between commas. -/
def stringsLexemes : List Text → List Lexeme
  | [] => []
  | [value] => [.literal value]
  | value :: next :: values => .literal value :: .symbol ',' :: stringsLexemes (next :: values)

/-- The lexemes of a rendered predicate. -/
def predicateLexemes : CheckPredicate → List Lexeme
  | .and left right =>
    operatorLexemes (.word "AND".toList) (predicateLexemes left) (predicateLexemes right)
  | .or left right =>
    operatorLexemes (.word "OR".toList) (predicateLexemes left) (predicateLexemes right)
  | .booleanEquals left right =>
    operatorLexemes (.symbol '=') (predicateLexemes left) (predicateLexemes right)
  | .stringEquals column value => [.name column, .blank, .symbol '=', .blank, .literal value]
  | .isNull column => [.name column, .blank, .word "IS".toList, .blank, .word "NULL".toList]
  | .jsonValid column => [.word "JSON_VALID".toList, .symbol '(', .name column, .symbol ')']
  | .octetLengthAtMost column limit =>
    [.word "OCTET_LENGTH".toList, .symbol '(', .name column, .symbol ')', .blank, .symbol '<',
      .symbol '=', .blank, .word (Nat.toDigits 10 limit)]
  | .inStrings column values =>
    .name column :: .blank :: .word "IN".toList :: .blank :: .symbol '(' ::
      (stringsLexemes values ++ [.symbol ')'])

/-- The lexemes of rendered disjuncts. -/
def disjunctsLexemes : List CheckPredicate → List Lexeme
  | [] => []
  | [predicate] => predicateLexemes predicate
  | predicate :: next :: predicates =>
    predicateLexemes predicate ++ .blank :: .word "OR".toList :: .blank ::
      disjunctsLexemes (next :: predicates)

section Lexemes

theorem identifierCharacter_of_wordLiteral {value : Text} (h : isWordLiteral value = true) :
    ∀ c ∈ value, isIdentifierCharacter c = true := by
  intro c hc
  unfold isWordLiteral at h
  rw [Bool.and_eq_true] at h
  unfold isIdentifierCharacter
  rw [List.all_eq_true.mp h.2 c hc]
  rfl

theorem isAsciiCharacter_of_wordLiteral {value : Text} (h : isWordLiteral value = true) :
    ∀ c ∈ value, isAsciiCharacter c = true := by
  intro c hc
  have hcode := identifierCharacter_code (identifierCharacter_of_wordLiteral h c hc)
  unfold isAsciiCharacter
  rw [decide_eq_true_eq]
  omega

/-- An operator between operands is spelled by its lexemes. -/
theorem spells_operator {operator : Lexeme} {left right : List Lexeme}
    {leftText rightText : Text} (hwell : operator.WellFormed) (hapart : operator.apart none = true)
    (hleft : Spells left leftText) (hright : Spells right rightText) :
    Spells (operatorLexemes operator left right)
      ('(' :: leftText ++ (')' :: ' ' :: operator.text ++ [' ', '(']) ++ rightText ++ [')']) := by
  have hopening : (Lexeme.symbol '(').WellFormed := wellFormed_symbol (by decide)
  have hclosing : (Lexeme.symbol ')').WellFormed := wellFormed_symbol (by decide)
  have hright' := Spells.cons rfl hopening (spells_closed hright)
  have hblank : Lexeme.blank.WellFormed := trivial
  have hneutral : Lexeme.blank.isNeutral = true := rfl
  have hoperator := Spells.cons hneutral hblank
    (Spells.join hneutral hblank (.single hwell hapart) hright')
  have hwhole := Spells.cons rfl hopening (Spells.join rfl hclosing hleft hoperator)
  have htext : (Lexeme.symbol '(').text ++ (leftText ++ ((Lexeme.symbol ')').text ++
      (Lexeme.blank.text ++ (operator.text ++ (Lexeme.blank.text ++ ((Lexeme.symbol '(').text ++
        (rightText ++ [')']))))))) =
      '(' :: leftText ++ (')' :: ' ' :: operator.text ++ [' ', '(']) ++ rightText ++ [')'] := by
    simp [Lexeme.text]
  rw [← htext]
  exact hwhole

theorem spells_strings {values : List Text} (h : ∀ value ∈ values, isWordLiteral value = true) :
    Spells (stringsLexemes values) ([','].intercalate (values.map quoteStringLiteral)) := by
  induction values with
  | nil => exact .nil
  | cons value values ih =>
    rw [List.forall_mem_cons] at h
    have hvalue : Spells [.literal value] (quoteStringLiteral value) :=
      .single (isAsciiCharacter_of_wordLiteral h.1) rfl
    cases values with
    | nil => simpa [stringsLexemes, List.intercalate] using hvalue
    | cons next values =>
      have hcomma : (Lexeme.symbol ',').WellFormed := wellFormed_symbol (by decide)
      have hjoin := Spells.join rfl hcomma hvalue (ih h.2)
      simpa [stringsLexemes, List.intercalate, Lexeme.text] using hjoin

/-- The words of the rendered predicates. -/
theorem wellFormed_keyword {keyword : String} (h : keyword ∈ ["AND", "OR", "IS", "NULL", "JSON_VALID",
    "OCTET_LENGTH", "IN", "CONSTRAINT", "CHECK"]) : (Lexeme.word keyword.toList).WellFormed := by
  have hwords : ∀ keyword ∈ ["AND", "OR", "IS", "NULL", "JSON_VALID", "OCTET_LENGTH", "IN",
      "CONSTRAINT", "CHECK"], keyword.toList ≠ [] ∧
        ∀ c ∈ keyword.toList, isIdentifierCharacter c = true := by
    decide
  exact hwords keyword h

theorem wellFormed_limit (limit : Nat) : (Lexeme.word (Nat.toDigits 10 limit)).WellFormed := by
  refine ⟨Nat.toDigits_ne_nil, ?_⟩
  intro c hc
  have hdigit : c.isDigit = true := Nat.isDigit_of_mem_toDigits (by decide) (by decide) hc
  unfold isIdentifierCharacter Char.isAlphanum
  rw [hdigit, Bool.or_true]
  rfl

section Texts

variable {column : Text}

theorem text_jsonValid (name front : Text) (h : front = name ++ ['(']) :
    lexemesText [.word name, .symbol '(', .name column, .symbol ')'] =
      front ++ quoteIdentifier column ++ [')'] := by
  simp [lexemesText, Lexeme.text, h]

theorem text_octetLength (name front middle limit : Text) (h : front = name ++ ['('])
    (hmiddle : middle = [')', ' ', '<', '=', ' ']) :
    lexemesText [.word name, .symbol '(', .name column, .symbol ')', .blank, .symbol '<',
      .symbol '=', .blank, .word limit] = front ++ quoteIdentifier column ++ middle ++ limit := by
  simp [lexemesText, Lexeme.text, h, hmiddle]

theorem text_stringEquals (middle value : Text) (hmiddle : middle = [' ', '=', ' ']) :
    lexemesText [.name column, .blank, .symbol '=', .blank, .literal value] =
      quoteIdentifier column ++ middle ++ quoteStringLiteral value := by
  simp [lexemesText, Lexeme.text, hmiddle]

theorem text_inStrings (word middle values : Text) (hmiddle : middle = ' ' :: word ++ [' ', '(']) :
    quoteIdentifier column ++ ([' '] ++ (word ++ ([' '] ++ (['('] ++ (values ++ [')']))))) =
      quoteIdentifier column ++ middle ++ values ++ [')'] := by
  simp [hmiddle]

end Texts

/-- A rendered predicate is spelled by its lexemes. -/
theorem spells_predicate {predicate : CheckPredicate} (h : predicate.WellFormed) :
    Spells (predicateLexemes predicate) (renderPredicate predicate) := by
  induction predicate with
  | and left right ihleft ihright =>
    exact spells_operator (wellFormed_keyword (by simp)) rfl (ihleft h.1) (ihright h.2)
  | or left right ihleft ihright =>
    exact spells_operator (wellFormed_keyword (by simp)) rfl (ihleft h.1) (ihright h.2)
  | booleanEquals left right ihleft ihright =>
    exact spells_operator (wellFormed_symbol (by decide)) rfl (ihleft h.2.1) (ihright h.2.2)
  | isNull column =>
    refine ⟨?_, ⟨rfl, rfl, rfl, rfl, rfl, trivial⟩, rfl⟩
    simp only [predicateLexemes, List.forall_mem_cons]
    refine ⟨h, trivial, wellFormed_keyword (by simp), trivial, wellFormed_keyword (by simp), ?_⟩
    intro _ hmem
    cases hmem
  | jsonValid column =>
    refine ⟨?_, ⟨rfl, rfl, rfl, rfl, trivial⟩, ?_⟩
    · simp only [predicateLexemes, List.forall_mem_cons]
      refine ⟨wellFormed_keyword (by simp), wellFormed_symbol (by decide), h,
        wellFormed_symbol (by decide), ?_⟩
      intro _ hmem
      cases hmem
    · exact text_jsonValid _ _ (by decide +kernel)
  | octetLengthAtMost column limit =>
    refine ⟨?_, ⟨rfl, rfl, rfl, rfl, rfl, rfl, rfl, rfl, rfl, trivial⟩, ?_⟩
    · simp only [predicateLexemes, List.forall_mem_cons]
      refine ⟨wellFormed_keyword (by simp), wellFormed_symbol (by decide), h.1,
        wellFormed_symbol (by decide), trivial, wellFormed_symbol (by decide),
        wellFormed_symbol (by decide), trivial, wellFormed_limit limit, ?_⟩
      intro _ hmem
      cases hmem
    · exact text_octetLength _ _ _ _ (by decide +kernel) (by decide +kernel)
  | stringEquals column value =>
    refine ⟨?_, ⟨rfl, rfl, rfl, rfl, rfl, trivial⟩, ?_⟩
    · simp only [predicateLexemes, List.forall_mem_cons]
      refine ⟨h.1, trivial, wellFormed_symbol (by decide), trivial,
        isAsciiCharacter_of_wordLiteral h.2, ?_⟩
      intro _ hmem
      cases hmem
    · exact text_stringEquals _ _ (by decide +kernel)
  | inStrings column values =>
    have hcolumn : Spells [.name column] (quoteIdentifier column) := .single h.1 rfl
    have hword : Spells [.word "IN".toList] "IN".toList := .single (wellFormed_keyword (by simp)) rfl
    have hopening : (Lexeme.symbol '(').WellFormed := wellFormed_symbol (by decide)
    have hblank : Lexeme.blank.WellFormed := trivial
    have hneutral : Lexeme.blank.isNeutral = true := rfl
    have hvalues := Spells.cons rfl hopening (spells_closed (spells_strings h.2.2))
    have hlist := Spells.join hneutral hblank hcolumn (Spells.join hneutral hblank hword hvalues)
    rw [Lexeme.text, Lexeme.text, text_inStrings "IN".toList " IN (".toList _ (by decide +kernel)] at hlist
    exact hlist

theorem intercalate_cons_cons (separator first next : Text) (rest : List Text) :
    separator.intercalate (first :: next :: rest) =
      first ++ separator ++ separator.intercalate (next :: rest) := by
  simp [List.intercalate]

theorem text_disjuncts (separator word text rest : Text) (h : separator = ' ' :: word ++ [' ']) :
    text ++ ([' '] ++ (word ++ ([' '] ++ rest))) = text ++ separator ++ rest := by
  simp [h]

/-- Rendered disjuncts are spelled by their lexemes. -/
theorem spells_disjuncts {predicates : List CheckPredicate}
    (h : ∀ predicate ∈ predicates, predicate.WellFormed) :
    Spells (disjunctsLexemes predicates)
      (" OR ".toList.intercalate (predicates.map renderPredicate)) := by
  induction predicates with
  | nil => exact .nil
  | cons predicate predicates ih =>
    rw [List.forall_mem_cons] at h
    have hfirst := spells_predicate h.1
    cases predicates with
    | nil => simpa [disjunctsLexemes, List.intercalate] using hfirst
    | cons next predicates =>
      have hword : Spells [.word "OR".toList] "OR".toList :=
        .single (wellFormed_keyword (by simp)) rfl
      have hblank : Lexeme.blank.WellFormed := trivial
      have hneutral : Lexeme.blank.isNeutral = true := rfl
      have hjoin := Spells.join hneutral hblank hfirst (Spells.join hneutral hblank hword (ih h.2))
      rw [Lexeme.text, text_disjuncts " OR ".toList "OR".toList _ _ (by decide +kernel)] at hjoin
      rw [List.map_cons, List.map_cons, intercalate_cons_cons, ← List.map_cons]
      exact hjoin

end Lexemes

/-! ## Tokens -/

section Tokens

theorem respelled_strings {values : List Text} (hne : values ≠ [])
    (h : ∀ value ∈ values, isWordLiteral value = true) :
    SpelledStrings values (lexemesTokens (stringsLexemes values)) ∧
      lexemesLiterals (stringsLexemes values) = values := by
  induction values with
  | nil => exact absurd rfl hne
  | cons value values ih =>
    rw [List.forall_mem_cons] at h
    have hstring : Keyword "<string>" ⟨stringToken, false⟩ := ⟨by decide, rfl⟩
    cases values with
    | nil => exact ⟨.single hstring h.1, rfl⟩
    | cons next values =>
      obtain ⟨hspelled, hliterals⟩ := ih (by simp) h.2
      refine ⟨.cons hstring ⟨by decide, rfl⟩ h.1 hspelled, ?_⟩
      rw [stringsLexemes, lexemesLiterals_cons, lexemesLiterals_cons, hliterals]
      rfl

theorem spelledColumn_quoted {column : Text} (h : isIdentifier column = true) :
    SpelledColumn ⟨column, true⟩ where
  identifier := h
  not_jsonValid := fun hkeyword => by cases hkeyword.quoted
  not_octetLength := fun hkeyword => by cases hkeyword.quoted

theorem spelledArgument_quoted {column : Text} (h : isIdentifier column = true) :
    SpelledArgument column [⟨column, true⟩] :=
  @SpelledArgument.nested ⟨column, true⟩ [] [] (by simp) (by simp) rfl h

/-- The tokens of a rendered predicate respell it. -/
theorem respelled_predicate {predicate : CheckPredicate} (h : predicate.WellFormed) :
    Respelled predicate (lexemesTokens (predicateLexemes predicate))
      (lexemesLiterals (predicateLexemes predicate)) := by
  have hopening : Keyword "(" ⟨['('], false⟩ := ⟨by decide, rfl⟩
  have hclosing : Keyword ")" ⟨[')'], false⟩ := ⟨by decide, rfl⟩
  induction predicate with
  | and left right ihleft ihright =>
    have hand : Keyword "AND" ⟨"AND".toList, false⟩ := ⟨by decide, rfl⟩
    have hspelled := Respelled.and hopening (ihleft h.1) hclosing hand hopening (ihright h.2) hclosing
    simpa [predicateLexemes, operatorLexemes, Lexeme.tokens, Lexeme.literals] using hspelled
  | or left right ihleft ihright =>
    have hor : Keyword "OR" ⟨"OR".toList, false⟩ := ⟨by decide, rfl⟩
    have hspelled := Respelled.or hopening (ihleft h.1) hclosing hor hopening (ihright h.2) hclosing
    simpa [predicateLexemes, operatorLexemes, Lexeme.tokens, Lexeme.literals] using hspelled
  | booleanEquals left right ihleft ihright =>
    have hequals : Keyword "=" ⟨['='], false⟩ := ⟨by decide, rfl⟩
    have hspelled := Respelled.booleanEquals hopening (ihleft h.2.1) hclosing hequals hopening
      (ihright h.2.2) hclosing
    simpa [predicateLexemes, operatorLexemes, Lexeme.tokens, Lexeme.literals] using hspelled
  | isNull column =>
    exact .atom (.isNull (spelledColumn_quoted h) ⟨by decide, rfl⟩ ⟨by decide, rfl⟩)
  | stringEquals column value =>
    exact .atom (.stringEquals (spelledColumn_quoted h.1) ⟨by decide, rfl⟩ ⟨by decide, rfl⟩ h.2)
  | jsonValid column =>
    have hargument := spelledArgument_quoted h
    exact .atom (.jsonValid ⟨by decide, rfl⟩ hopening hargument hclosing)
  | octetLengthAtMost column limit =>
    have hargument := spelledArgument_quoted h.1
    exact .atom (.octetLength ⟨by decide, rfl⟩ hopening hargument hclosing ⟨by decide, rfl⟩
      ⟨by decide, rfl⟩ h.2.1 h.2.2)
  | inStrings column values =>
    obtain ⟨hstrings, hliterals⟩ := respelled_strings h.2.1 h.2.2
    have hatom := SpelledAtom.inStrings (spelledColumn_quoted h.1)
      (show Keyword "IN" ⟨"IN".toList, false⟩ from ⟨by decide, rfl⟩) hopening hstrings hclosing
    simpa [predicateLexemes, Lexeme.tokens, Lexeme.literals, hliterals] using Respelled.atom hatom

theorem respelled_disjuncts {predicates : List CheckPredicate} (hne : predicates ≠ [])
    (h : ∀ predicate ∈ predicates, predicate.WellFormed) :
    RespelledDisjuncts predicates (lexemesTokens (disjunctsLexemes predicates))
      (lexemesLiterals (disjunctsLexemes predicates)) := by
  induction predicates with
  | nil => exact absurd rfl hne
  | cons predicate predicates ih =>
    rw [List.forall_mem_cons] at h
    have hfirst := respelled_predicate h.1
    cases predicates with
    | nil => exact .single hfirst
    | cons next predicates =>
      have hor : Keyword "OR" ⟨"OR".toList, false⟩ := ⟨by decide, rfl⟩
      have hspelled := RespelledDisjuncts.cons hfirst hor (ih (by simp) h.2)
      simpa [disjunctsLexemes, Lexeme.tokens, Lexeme.literals] using hspelled

end Tokens

/-! ## Rendered texts -/

/-- A lexeme without a backslash whose tokens are reported as they are. -/
structure Lexeme.Rendered (lexeme : Lexeme) : Prop where
  plain : backslash ∉ lexeme.text
  kept : ∀ token ∈ lexeme.tokens, ¬ Keyword "_utf8mb4" token ∧ ¬ Keyword "LENGTH" token

section Rendered

theorem backslash_notMem {text : Text} (h : ∀ c ∈ text, isIdentifierCharacter c = true) :
    backslash ∉ text := fun hmem => absurd (h backslash hmem) (by decide)

/-- A character of a word is rendered as it is. -/
theorem escapedCharacter_word {c : Char} (h : isIdentifierCharacter c = true) :
    escapedCharacter c = [c] := by
  have hne : ∀ d : Char, isIdentifierCharacter d = false → (c == d) = false := by
    intro d hd
    rw [beq_eq_false_iff_ne]
    rintro rfl
    rw [h] at hd
    cases hd
  unfold escapedCharacter
  rw [hne _ (by decide), hne _ (by decide), hne _ (by decide), hne _ (by decide),
    hne _ (by decide), hne _ (by decide), hne _ (by decide), hne _ (by decide), hne _ (by decide)]
  rfl

theorem quoteStringLiteral_word {value : Text} (h : isWordLiteral value = true) :
    quoteStringLiteral value = singleQuote :: value ++ [singleQuote] := by
  have hflat : ∀ text : Text, (∀ c ∈ text, isIdentifierCharacter c = true) →
      text.flatMap escapedCharacter = text := by
    intro text htext
    induction text with
    | nil => rfl
    | cons c text ih =>
      rw [List.forall_mem_cons] at htext
      rw [List.flatMap_cons, escapedCharacter_word htext.1, ih htext.2]
      rfl
  rw [quoteStringLiteral, hflat value (identifierCharacter_of_wordLiteral h)]

/-- Digits are no keyword with a letter. -/
theorem not_keyword_digits {digits : Text} {keyword : String} {letter : Char}
    (hdigits : ∀ c ∈ digits, c.isDigit = true)
    (hletter : letter ∈ toAsciiUppercase keyword.toList) (hdigit : letter.isDigit = false) :
    ¬ Keyword keyword ⟨digits, false⟩ := by
  intro hkeyword
  have htext : toAsciiUppercase digits = toAsciiUppercase keyword.toList :=
    eq_of_beq hkeyword.text
  rw [← htext] at hletter
  obtain ⟨c, hc, rfl⟩ := List.mem_map.mp hletter
  rw [SyncSchema.toUpper_of_isDigit (hdigits c hc), hdigits c hc] at hdigit
  cases hdigit

theorem rendered_blank : Lexeme.blank.Rendered := ⟨by decide, by intro token hmem; cases hmem⟩

theorem rendered_symbol {c : Char} (h : c ∈ symbolCharacters) : (Lexeme.symbol c).Rendered where
  plain := by
    rintro hmem
    obtain rfl := List.mem_singleton.mp hmem
    exact absurd h (by decide)
  kept := by
    intro token hmem
    obtain rfl := List.mem_singleton.mp hmem
    refine ⟨fun hkeyword => ?_, fun hkeyword => ?_⟩
    · exact absurd (congrArg List.length (eq_of_beq hkeyword.text)) (by simp [toAsciiUppercase])
    · exact absurd (congrArg List.length (eq_of_beq hkeyword.text)) (by simp [toAsciiUppercase])

theorem rendered_name {identifier : Text} (h : isIdentifier identifier = true) :
    (Lexeme.name identifier).Rendered where
  plain := by
    have hidentifier := backslash_notMem fun c hc => identifierCharacter_of_mem h hc
    rw [Lexeme.text, quoteIdentifier_eq h, List.mem_append, List.mem_cons, List.mem_singleton]
    rintro ((hquote | hmem) | hquote)
    · exact absurd hquote (by decide)
    · exact hidentifier hmem
    · exact absurd hquote (by decide)
  kept := by
    intro token hmem
    obtain rfl := List.mem_singleton.mp hmem
    exact ⟨fun hkeyword => (by cases hkeyword.quoted), fun hkeyword => (by cases hkeyword.quoted)⟩

theorem rendered_literal {value : Text} (h : isWordLiteral value = true) :
    (Lexeme.literal value).Rendered where
  plain := by
    have hword := backslash_notMem (identifierCharacter_of_wordLiteral h)
    rw [Lexeme.text, quoteStringLiteral_word h, List.mem_append, List.mem_cons, List.mem_singleton]
    rintro ((hquote | hmem) | hquote)
    · exact absurd hquote (by decide)
    · exact hword hmem
    · exact absurd hquote (by decide)
  kept := by
    intro token hmem
    obtain rfl := List.mem_singleton.mp hmem
    have hstring : Keyword "<string>" ⟨stringToken, false⟩ := ⟨by decide, rfl⟩
    exact ⟨hstring.not_other (by decide), hstring.not_other (by decide)⟩

theorem rendered_keyword {keyword : String} (h : keyword ∈ ["AND", "OR", "IS", "NULL", "JSON_VALID",
    "OCTET_LENGTH", "IN"]) : (Lexeme.word keyword.toList).Rendered where
  plain := by
    have hplain : ∀ keyword ∈ ["AND", "OR", "IS", "NULL", "JSON_VALID", "OCTET_LENGTH", "IN"],
        backslash ∉ keyword.toList := by
      decide
    exact hplain keyword h
  kept := by
    intro token hmem
    obtain rfl := List.mem_singleton.mp hmem
    have hkept : ∀ keyword ∈ ["AND", "OR", "IS", "NULL", "JSON_VALID", "OCTET_LENGTH", "IN"],
        eqIgnoreAsciiCase keyword.toList "_utf8mb4".toList = false ∧
          eqIgnoreAsciiCase keyword.toList "LENGTH".toList = false := by
      decide
    exact ⟨fun hkeyword => Bool.eq_false_iff.mp (hkept keyword h).1 hkeyword.text,
      fun hkeyword => Bool.eq_false_iff.mp (hkept keyword h).2 hkeyword.text⟩

theorem rendered_limit (limit : Nat) : (Lexeme.word (Nat.toDigits 10 limit)).Rendered where
  plain := backslash_notMem (wellFormed_limit limit).2
  kept := by
    intro token hmem
    obtain rfl := List.mem_singleton.mp hmem
    have hdigits : ∀ c ∈ Nat.toDigits 10 limit, c.isDigit = true :=
      fun c hc => Nat.isDigit_of_mem_toDigits (by decide) (by decide) hc
    have hintroducer : 'U' ∈ toAsciiUppercase "_utf8mb4".toList := by decide
    have hlength : 'L' ∈ toAsciiUppercase "LENGTH".toList := by decide
    exact ⟨not_keyword_digits hdigits hintroducer (by decide),
      not_keyword_digits hdigits hlength (by decide)⟩

theorem rendered_operator {operator : Lexeme} {left right : List Lexeme}
    (hoperator : operator.Rendered) (hleft : ∀ lexeme ∈ left, lexeme.Rendered)
    (hright : ∀ lexeme ∈ right, lexeme.Rendered) :
    ∀ lexeme ∈ operatorLexemes operator left right, lexeme.Rendered := by
  have hopening := rendered_symbol (show '(' ∈ symbolCharacters by decide)
  have hclosing := rendered_symbol (show ')' ∈ symbolCharacters by decide)
  simp only [operatorLexemes, List.forall_mem_cons, List.forall_mem_append]
  exact ⟨hopening, hleft, hclosing, rendered_blank, hoperator, rendered_blank, hopening, hright,
    hclosing, by simp⟩

theorem rendered_strings {values : List Text} (h : ∀ value ∈ values, isWordLiteral value = true) :
    ∀ lexeme ∈ stringsLexemes values, lexeme.Rendered := by
  induction values with
  | nil => simp [stringsLexemes]
  | cons value values ih =>
    rw [List.forall_mem_cons] at h
    cases values with
    | nil => exact List.forall_mem_singleton.mpr (rendered_literal h.1)
    | cons next values =>
      simp only [stringsLexemes, List.forall_mem_cons]
      exact ⟨rendered_literal h.1, rendered_symbol (by decide), ih h.2⟩

theorem rendered_predicate {predicate : CheckPredicate} (h : predicate.WellFormed) :
    ∀ lexeme ∈ predicateLexemes predicate, lexeme.Rendered := by
  have hopening := rendered_symbol (show '(' ∈ symbolCharacters by decide)
  have hclosing := rendered_symbol (show ')' ∈ symbolCharacters by decide)
  have hequals := rendered_symbol (show '=' ∈ symbolCharacters by decide)
  have hless := rendered_symbol (show '<' ∈ symbolCharacters by decide)
  induction predicate with
  | and left right ihleft ihright =>
    exact rendered_operator (rendered_keyword (by simp)) (ihleft h.1) (ihright h.2)
  | or left right ihleft ihright =>
    exact rendered_operator (rendered_keyword (by simp)) (ihleft h.1) (ihright h.2)
  | booleanEquals left right ihleft ihright =>
    exact rendered_operator hequals (ihleft h.2.1) (ihright h.2.2)
  | isNull column =>
    simp only [predicateLexemes, List.forall_mem_cons]
    exact ⟨rendered_name h, rendered_blank, rendered_keyword (by simp), rendered_blank,
      rendered_keyword (by simp), by simp⟩
  | stringEquals column value =>
    simp only [predicateLexemes, List.forall_mem_cons]
    exact ⟨rendered_name h.1, rendered_blank, hequals, rendered_blank, rendered_literal h.2, by simp⟩
  | jsonValid column =>
    simp only [predicateLexemes, List.forall_mem_cons]
    exact ⟨rendered_keyword (by simp), hopening, rendered_name h, hclosing, by simp⟩
  | octetLengthAtMost column limit =>
    simp only [predicateLexemes, List.forall_mem_cons]
    exact ⟨rendered_keyword (by simp), hopening, rendered_name h.1, hclosing, rendered_blank, hless,
      hequals, rendered_blank, rendered_limit limit, by simp⟩
  | inStrings column values =>
    simp only [predicateLexemes, List.forall_mem_cons, List.forall_mem_append]
    exact ⟨rendered_name h.1, rendered_blank, rendered_keyword (by simp), rendered_blank, hopening,
      rendered_strings h.2.2, hclosing, by simp⟩

theorem rendered_disjuncts {predicates : List CheckPredicate}
    (h : ∀ predicate ∈ predicates, predicate.WellFormed) :
    ∀ lexeme ∈ disjunctsLexemes predicates, lexeme.Rendered := by
  induction predicates with
  | nil => simp [disjunctsLexemes]
  | cons predicate predicates ih =>
    rw [List.forall_mem_cons] at h
    cases predicates with
    | nil => exact rendered_predicate h.1
    | cons next predicates =>
      simp only [disjunctsLexemes, List.forall_mem_cons, List.forall_mem_append]
      exact ⟨rendered_predicate h.1, rendered_blank, rendered_keyword (by simp), rendered_blank,
        ih h.2⟩

/-- Rendered tokens are reported as they are. -/
theorem introduced_rendered {lexemes : List Lexeme} (h : ∀ lexeme ∈ lexemes, lexeme.Rendered) :
    Introduced (lexemesTokens lexemes) (lexemesTokens lexemes) := by
  have hkept : ∀ token ∈ lexemesTokens lexemes,
      ¬ Keyword "_utf8mb4" token ∧ ¬ Keyword "LENGTH" token := by
    intro token hmem
    obtain ⟨lexeme, hlexeme, htoken⟩ := List.mem_flatMap.mp hmem
    exact (h lexeme hlexeme).kept token htoken
  generalize lexemesTokens lexemes = tokens at hkept
  induction tokens with
  | nil => exact .nil
  | cons token tokens ih =>
    rw [List.forall_mem_cons] at hkept
    exact .keep hkept.1.1 hkept.1.2 (ih hkept.2)

/-- A text without a backslash has nothing to unescape. -/
theorem unescapedClause_of_notMem {text : Text} (h : backslash ∉ text) :
    unescapedClause text = text := by
  unfold unescapedClause replace
  induction text with
  | nil => rfl
  | cons c text ih =>
    rw [List.mem_cons, not_or] at h
    rw [replaceFrom, if_neg, ih h.2]
    intro hprefix
    exact h.1 (List.cons_prefix_cons.mp (List.isPrefixOf_iff_prefix.mp hprefix)).1

theorem unescapedClause_rendered {lexemes : List Lexeme} {text : Text} (hspells : Spells lexemes text)
    (h : ∀ lexeme ∈ lexemes, lexeme.Rendered) : unescapedClause text = text := by
  apply unescapedClause_of_notMem
  rw [← hspells.text_eq]
  intro hmem
  obtain ⟨lexeme, hlexeme, hbackslash⟩ := List.mem_flatMap.mp hmem
  exact (h lexeme hlexeme).plain hbackslash

end Rendered

/-! ## Results -/

section Results

/-- What does not start the pattern is before it. -/
theorem splitOnce_skip {first : Char} {pattern before : Text} (h : first ∉ before) (text : Text) :
    (splitOnce (first :: pattern) (before ++ text)).map Prod.snd =
      (splitOnce (first :: pattern) text).map Prod.snd := by
  induction before with
  | nil => rfl
  | cons c before ih =>
    rw [List.mem_cons, not_or] at h
    rw [List.cons_append, splitOnce, if_neg, Option.map_map]
    · exact ih h.2
    · intro hprefix
      exact h.1 (List.cons_prefix_cons.mp (List.isPrefixOf_iff_prefix.mp hprefix)).1

/-- The text after the keyword that follows a quoted name. -/
theorem splitOnce_keyword {words identifier pattern rest : Text} (hwords : ' ' ∉ words)
    (hidentifier : ' ' ∉ identifier) :
    (splitOnce (' ' :: 'C' :: pattern) (words ++ ' ' :: (backQuote :: identifier ++ [backQuote] ++
      (' ' :: 'C' :: pattern ++ rest)))).map Prod.snd = some rest := by
  have hquoted : ' ' ∉ backQuote :: identifier ++ [backQuote] := by
    rw [List.mem_append, List.mem_cons, List.mem_singleton]
    rintro ((hquote | hmem) | hquote)
    · exact absurd hquote (by decide)
    · exact hidentifier hmem
    · exact absurd hquote (by decide)
  rw [splitOnce_skip hwords, splitOnce, if_neg, Option.map_map]
  · change Option.map Prod.snd (splitOnce _ (_ ++ (' ' :: 'C' :: pattern ++ rest))) = _
    rw [splitOnce_skip hquoted, List.cons_append, splitOnce, if_pos]
    · simp
    · rw [List.isPrefixOf_iff_prefix]
      exact ⟨rest, rfl⟩
  · rw [List.isPrefixOf_iff_prefix]
    rintro ⟨tail, htail⟩
    cases htail

theorem text_constraint (words keyword front opening identifier body : Text)
    (hfront : front = words ++ [' ']) (hopening : opening = keyword ++ ['(']) :
    front ++ identifier ++ opening ++ body ++ [')'] =
      words ++ ' ' :: (identifier ++ (keyword ++ '(' :: (body ++ [')']))) := by
  simp [hfront, hopening]

theorem blank_notMem {identifier : Text} (h : isIdentifier identifier = true) : ' ' ∉ identifier :=
  fun hmem => absurd (identifierCharacter_of_mem h hmem) (by decide)

/-- The expression of a CHECK is its rendered disjunction in parentheses. -/
theorem mysqlCheckExpression_eq {constraint : ParsedCheckConstraintAst}
    (h : isIdentifier constraint.name = true) :
    mysqlCheckExpression constraint =
      some ('(' :: (" OR ".toList.intercalate (constraint.disjuncts.map renderPredicate) ++ [')'])) := by
  have hkeyword : " CHECK ".toList = ' ' :: 'C' :: "HECK ".toList := by decide
  unfold mysqlCheckExpression renderCheckConstraint
  rw [text_constraint "CONSTRAINT".toList " CHECK ".toList _ _ _ _ (by decide +kernel)
    (by decide +kernel), quoteIdentifier_eq h, hkeyword]
  exact splitOnce_keyword (by decide) (blank_notMem h)

variable {constraint : ParsedCheckConstraintAst}

/-- The expression that is rendered for a CHECK reports it. -/
theorem reports_rendered (hne : constraint.disjuncts ≠ [])
    (hwell : ∀ predicate ∈ constraint.disjuncts, predicate.WellFormed) :
    Reports ('(' :: (" OR ".toList.intercalate (constraint.disjuncts.map renderPredicate) ++ [')']))
      constraint := by
  have hopening := rendered_symbol (show '(' ∈ symbolCharacters by decide)
  have hclosing := rendered_symbol (show ')' ∈ symbolCharacters by decide)
  have hopened : (Lexeme.symbol '(').WellFormed := wellFormed_symbol (by decide)
  have hspells := Spells.cons rfl hopened (spells_closed (spells_disjuncts hwell))
  have hrendered : ∀ lexeme ∈ Lexeme.symbol '(' :: (disjunctsLexemes constraint.disjuncts ++
      [.symbol ')']), lexeme.Rendered := by
    simp only [List.forall_mem_cons, List.forall_mem_append]
    exact ⟨hopening, rendered_disjuncts hwell, hclosing, by simp⟩
  have hparenthesis : Keyword "(" ⟨['('], false⟩ := ⟨by decide, rfl⟩
  have hparenthesis' : Keyword ")" ⟨[')'], false⟩ := ⟨by decide, rfl⟩
  have hspelled := RespelledExpression.parentheses hparenthesis
    (.disjuncts (respelled_disjuncts hne hwell)) hparenthesis'
  refine ⟨_, _, Lexeme.symbol '(' :: (disjunctsLexemes constraint.disjuncts ++ [.symbol ')']),
    hspelled, ?_, ?_, ?_⟩
  · have hintroduced := introduced_rendered hrendered
    rw [lexemesTokens_cons, lexemesTokens_append] at hintroduced ⊢
    exact hintroduced
  · rw [lexemesLiterals_cons, lexemesLiterals_append]
    exact List.append_nil _
  · have hplain := unescapedClause_rendered hspells hrendered
    rw [← hplain] at hspells
    exact hspells

/-- A clause with a canonical value denotes one predicate, and the value is that of the predicate. -/
theorem canonicalCheckExpression_eq_ok {clause : Text} {value : JsonValue} :
    canonicalCheckExpression clause = .ok value ↔
      ∃ predicate, Denotes clause predicate ∧ canonicalPredicate predicate = value := by
  unfold canonicalCheckExpression
  constructor
  · intro h
    cases hread : metadataPredicate clause with
    | error message =>
      rw [hread] at h
      cases h
    | ok predicate =>
      rw [hread] at h
      exact ⟨predicate, metadataPredicate_eq_ok.mp hread, Except.ok.inj h⟩
  · rintro ⟨predicate, hdenotes, rfl⟩
    rw [metadataPredicate_eq_ok.mpr hdenotes]
    rfl

theorem Denotes.unique {clause : Text} {predicate other : CheckPredicate}
    (h : Denotes clause predicate) (hother : Denotes clause other) : other = predicate := by
  have hread := metadataPredicate_eq_ok.mpr h
  rw [metadataPredicate_eq_ok.mpr hother] at hread
  exact Except.ok.inj hread

/-- The expression of every parsed CHECK is reported by its rendering; every clause that reports it,
with further parentheses around predicates and function arguments, introducers before literals or
the other name of the length, has a canonical value, and the predicate that it describes has the
truth value of the CHECK on every row; and clauses with equal canonical values denote one and the same
predicate. -/
theorem canonicalCheckExpression_faithful {tokens next : List DdlToken} {literals left : List Text}
    (h : parseNamedCheck tokens literals = .ok (constraint, next, left)) :
    (∃ expression, mysqlCheckExpression constraint = some expression ∧
      Reports expression constraint) ∧
    (∀ clause, Reports clause constraint → ∃ predicate,
      canonicalCheckExpression clause = .ok (canonicalPredicate predicate) ∧
        Denotes clause predicate ∧
        ∀ row, predicate.eval row = evalDisjuncts row constraint.disjuncts) ∧
    ∀ clause clause' value, canonicalCheckExpression clause = .ok value →
      canonicalCheckExpression clause' = .ok value →
        ∃ predicate, Denotes clause predicate ∧ Denotes clause' predicate ∧
          ∀ other, Denotes clause other ∨ Denotes clause' other → other = predicate := by
  obtain ⟨head, consumed, read, closing, hhead, hspelled, -, -, -⟩ := parseNamedCheck_ok h
  obtain ⟨hne, hwell⟩ := hspelled.wellFormed
  refine ⟨⟨_, mysqlCheckExpression_eq hhead.identifier, reports_rendered hne hwell⟩, ?_, ?_⟩
  · intro clause hreports
    obtain ⟨predicate, hdenotes, hvalue⟩ := hreports.denotes hwell
    exact ⟨predicate, canonicalCheckExpression_eq_ok.mpr ⟨predicate, hdenotes, rfl⟩, hdenotes, hvalue⟩
  · intro clause clause' value hclause hclause'
    obtain ⟨predicate, hdenotes, hvalue⟩ := canonicalCheckExpression_eq_ok.mp hclause
    obtain ⟨predicate', hdenotes', hvalue'⟩ := canonicalCheckExpression_eq_ok.mp hclause'
    obtain rfl := canonicalPredicate_injective (hvalue.trans hvalue'.symm)
    refine ⟨predicate, hdenotes, hdenotes', ?_⟩
    rintro other (hother | hother)
    · exact hdenotes.unique hother
    · exact hdenotes'.unique hother

/-- A CHECK with an equality of truth values. -/
def pairedCheck : ParsedCheckConstraintAst :=
  ⟨['c'], [.booleanEquals (.stringEquals ['k'] ['x']) (.isNull ['e']), .inStrings ['k'] [['y']]]⟩

/-- A CHECK with an equality of truth values is reported by its rendering. -/
theorem canonicalCheckExpression_faithful_paired :
    ∃ expression, mysqlCheckExpression pairedCheck = some expression ∧
      Reports expression pairedCheck := by
  have hparsed : parseNamedCheck
      ([("CONSTRAINT", false), ("c", false), ("CHECK", false), ("(", false), ("(", false),
        ("k", false), ("=", false), ("<string>", false), (")", false), ("=", false), ("(", false),
        ("e", true), ("is", false), ("null", false), (")", false), ("or", false), ("k", false),
        ("IN", false), ("(", false), ("<string>", false), (")", false), (")", false)].map
          fun (text, quoted) => (⟨text.toList, quoted⟩ : DdlToken)) [['x'], ['y']] =
      .ok (pairedCheck, [], []) := by
    decide +kernel
  exact (canonicalCheckExpression_faithful hparsed).1

/-- Parentheses around the column of a predicate are not read, although they change nothing; and
a literal with escaped quotes in it is read as two predicates. -/
theorem canonicalCheckExpression_unread :
    parseNamedCheck ([("CONSTRAINT", false), ("c", false), ("CHECK", false), ("(", false),
        ("a", false), ("IS", false), ("NULL", false), (")", false)].map
          fun (text, quoted) => (⟨text.toList, quoted⟩ : DdlToken)) [] =
      .ok (⟨['c'], [.isNull ['a']]⟩, [], []) ∧
    mysqlCheckExpression ⟨['c'], [.isNull ['a']]⟩ = some "(`a` IS NULL)".toList ∧
    (canonicalCheckExpression "(`a` IS NULL)".toList).toBool = true ∧
    (canonicalCheckExpression "((`a`) IS NULL)".toList).toBool = false ∧
    metadataPredicate "a = 'x' OR b = 'y'".toList =
      .ok (.or (.stringEquals ['a'] ['x']) (.stringEquals ['b'] ['y'])) ∧
    metadataPredicate "a = 'x\\' OR b = \\'y'".toList =
      .ok (.or (.stringEquals ['a'] ['x']) (.stringEquals ['b'] ['y'])) ∧
    extractSingleQuotedLiteralsWithMode "a = 'x\\' OR b = \\'y'".toList (some 0) =
      .ok ["x' OR b = 'y".toList] := by
  decide +kernel

end Results

end Ddl

end BinlogCdc
