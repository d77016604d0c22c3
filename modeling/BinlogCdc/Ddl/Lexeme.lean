import BinlogCdc.Ddl.TypeGrammar

/-!
# Lexemes

A rendered statement is a sequence of lexemes: words, quoted names, string literals, symbols and
blanks. If no two neighbours run together, the tokenizer reads one token for each lexeme but the
blanks, the second scanner collects the values of the literals, and neither finds a comment.
-/

namespace BinlogCdc

namespace Ddl

open Text

/-! ## Rendered literals -/

/-- A character is rendered with a backslash, as two quotes, or as it is. -/
theorem escapedCharacter_cases (c : Char) :
    (∃ e, escapedCharacter c = [backslash, e] ∧ decodedEscape e = [c]) ∨
    (c = singleQuote ∧ escapedCharacter c = [singleQuote, singleQuote]) ∨
    (escapedCharacter c = [c] ∧ c ≠ backslash ∧ c ≠ singleQuote) := by
  unfold escapedCharacter
  split_ifs with h0 hn hr ht hb hz hbackslash hquote hdouble
  · exact .inl ⟨'0', rfl, by rw [eq_of_beq h0]; rfl⟩
  · exact .inl ⟨'n', rfl, by rw [eq_of_beq hn]; rfl⟩
  · exact .inl ⟨'r', rfl, by rw [eq_of_beq hr]; rfl⟩
  · exact .inl ⟨'t', rfl, by rw [eq_of_beq ht]; rfl⟩
  · exact .inl ⟨'b', rfl, by rw [eq_of_beq hb]; rfl⟩
  · exact .inl ⟨'Z', rfl, by rw [eq_of_beq hz]; rfl⟩
  · exact .inl ⟨backslash, rfl, by rw [eq_of_beq hbackslash]; rfl⟩
  · exact .inr (.inl ⟨eq_of_beq hquote, rfl⟩)
  · exact .inl ⟨doubleQuote, rfl, by rw [eq_of_beq hdouble]; rfl⟩
  · exact .inr (.inr ⟨rfl, fun h => hbackslash (h ▸ beq_self_eq_true _),
      fun h => hquote (h ▸ beq_self_eq_true _)⟩)

variable {value rest : Text}

/-- The tokenizer reads a rendered literal to its closing quote. -/
theorem skipQuotedString_escaped (hrest : rest.head? ≠ some singleQuote) :
    skipQuotedString false false (value.flatMap escapedCharacter ++ singleQuote :: rest) =
      .ok rest := by
  induction value with
  | nil =>
    cases rest with
    | nil => rfl
    | cons next rest =>
      have hnext : (next == singleQuote) = false := by
        simpa using hrest
      simp [skipQuotedString, hnext, show (singleQuote == backslash) = false from rfl]
  | cons c value ih =>
    rw [List.flatMap_cons, List.append_assoc]
    obtain ⟨e, he, -⟩ | ⟨rfl, he⟩ | ⟨he, hbackslash, hquote⟩ := escapedCharacter_cases c
    · rw [he, List.cons_append, List.cons_append, List.nil_append, ← ih]
      cases value.flatMap escapedCharacter ++ singleQuote :: rest <;> simp [skipQuotedString]
    · rw [he]
      simpa [skipQuotedString, show (singleQuote == backslash) = false from rfl] using ih
    · rw [he, List.cons_append, List.nil_append, ← ih]
      cases value.flatMap escapedCharacter ++ singleQuote :: rest <;>
        simp [skipQuotedString, hbackslash, hquote]

/-- The second scanner decodes a rendered literal to its value. -/
theorem decodeLiteralFrom_escaped (hascii : ∀ c ∈ value, isAsciiCharacter c = true)
    (hrest : rest.head? ≠ some singleQuote) (hasSourceEscape : Bool) (literal : Text) :
    decodeLiteralFrom (some 0) hasSourceEscape false literal
      (value.flatMap escapedCharacter ++ singleQuote :: rest) = .ok (literal ++ value, rest) := by
  induction value generalizing hasSourceEscape literal with
  | nil =>
    cases rest with
    | nil => simp [decodeLiteralFrom, finishedLiteral]
    | cons next rest =>
      have hnext : (next == singleQuote) = false := by
        simpa using hrest
      simp [decodeLiteralFrom, finishedLiteral, hnext]
  | cons c value ih =>
    have hvalue : ∀ c ∈ value, isAsciiCharacter c = true :=
      fun d hd => hascii d (List.mem_cons_of_mem c hd)
    have hmode : noBackslashEscapes (some 0) = some false := rfl
    have hquotes : (backslash == singleQuote) = false := rfl
    rw [List.flatMap_cons, List.append_assoc]
    obtain ⟨e, he, hdecoded⟩ | ⟨rfl, he⟩ | ⟨he, hbackslash, hquote⟩ := escapedCharacter_cases c
    · rw [he]
      have h := ih hvalue true (literal ++ [c])
      simpa [decodeLiteralFrom, hmode, hquotes, hdecoded] using h
    · rw [he]
      have h := ih hvalue hasSourceEscape (literal ++ [singleQuote])
      simpa [decodeLiteralFrom] using h
    · have hc : isAsciiCharacter c = true := hascii c List.mem_cons_self
      have h := ih hvalue hasSourceEscape (literal ++ [c])
      rw [List.append_assoc, List.singleton_append] at h
      rw [he, List.cons_append, List.nil_append, ← h]
      cases value.flatMap escapedCharacter ++ singleQuote :: rest <;>
        simp [decodeLiteralFrom, hbackslash, hquote, hc]

/-- The scan for comments passes a rendered literal. -/
theorem containsCommentsFrom_escaped (hrest : rest.head? ≠ some singleQuote) :
    containsCommentsFrom false (some singleQuote)
      (value.flatMap escapedCharacter ++ singleQuote :: rest) =
      containsCommentsFrom false none rest := by
  induction value with
  | nil =>
    cases rest with
    | nil => rfl
    | cons next rest =>
      have hnext : (next == singleQuote) = false := by
        simpa using hrest
      simp [containsCommentsFrom, hnext]
  | cons c value ih =>
    have hquotes : (backslash == singleQuote) = false := rfl
    rw [List.flatMap_cons, List.append_assoc]
    obtain ⟨e, he, -⟩ | ⟨rfl, he⟩ | ⟨he, hbackslash, hquote⟩ := escapedCharacter_cases c
    · rw [he]
      simpa [containsCommentsFrom, hquotes] using ih
    · rw [he]
      simpa [containsCommentsFrom] using ih
    · rw [he, List.cons_append, List.nil_append, ← ih]
      cases value.flatMap escapedCharacter ++ singleQuote :: rest <;>
        simp [containsCommentsFrom, hbackslash, hquote]

/-! ## Sequences of lexemes -/

/-- The symbols of rendered statements. -/
def symbolCharacters : List Char := ['(', ')', ',', '.', '=', '<', '-', '+']

/-- A unit of a rendered statement. -/
inductive Lexeme where
  /-- A bare word or a number. -/
  | word (text : Text)
  /-- An identifier in back quotes. -/
  | name (identifier : Text)
  /-- A string literal. -/
  | literal (value : Text)
  /-- A symbol that is a token of its own. -/
  | symbol (c : Char)
  /-- Two dashes that start no comment. -/
  | dashes
  /-- One blank. -/
  | blank
  deriving DecidableEq, Repr

namespace Lexeme

def text : Lexeme → Text
  | word text => text
  | name identifier => quoteIdentifier identifier
  | literal value => quoteStringLiteral value
  | symbol c => [c]
  | dashes => ['-', '-']
  | blank => [' ']

def tokens : Lexeme → List DdlToken
  | word text => [⟨text, false⟩]
  | name identifier => [⟨identifier, true⟩]
  | literal _ => [⟨stringToken, false⟩]
  | symbol c => [⟨[c], false⟩]
  | dashes => [⟨['-'], false⟩, ⟨['-'], false⟩]
  | blank => []

def literals : Lexeme → List Text
  | literal value => [value]
  | _ => []

def WellFormed : Lexeme → Prop
  | word text => text ≠ [] ∧ ∀ c ∈ text, isIdentifierCharacter c = true
  | name identifier => isIdentifier identifier = true
  | literal value => ∀ c ∈ value, isAsciiCharacter c = true
  | symbol c => c ∈ symbolCharacters
  | dashes => True
  | blank => True

/-- A lexeme does not run together with the next one; a double dash is followed by a point. -/
def apart : Lexeme → Option Lexeme → Bool
  | word _, some (word _) => false
  | name _, some (name _) => false
  | literal _, some (literal _) => false
  | symbol c, some (symbol d) => !(c == '-' && d == '-')
  | symbol c, some dashes => c != '-'
  | dashes, next => next == some (symbol '.')
  | _, _ => true

end Lexeme

/-- The text of lexemes. -/
def lexemesText (lexemes : List Lexeme) : Text := lexemes.flatMap Lexeme.text

/-- The tokens of lexemes. -/
def lexemesTokens (lexemes : List Lexeme) : List DdlToken := lexemes.flatMap Lexeme.tokens

/-- The values of the literals among lexemes. -/
def lexemesLiterals (lexemes : List Lexeme) : List Text := lexemes.flatMap Lexeme.literals

/-- No two neighbours run together. -/
def Separated : List Lexeme → Prop
  | [] => True
  | lexeme :: rest => lexeme.apart rest.head? = true ∧ Separated rest

/-- A text and the lexemes that spell it. -/
structure Spells (lexemes : List Lexeme) (text : Text) : Prop where
  wellFormed : ∀ lexeme ∈ lexemes, lexeme.WellFormed
  separated : Separated lexemes
  text_eq : lexemesText lexemes = text

section Characters

variable {c : Char}

theorem identifierCharacter_code (h : isIdentifierCharacter c = true) :
    c.toNat = 36 ∨ (48 ≤ c.toNat ∧ c.toNat ≤ 57) ∨ (65 ≤ c.toNat ∧ c.toNat ≤ 90) ∨
      c.toNat = 95 ∨ (97 ≤ c.toNat ∧ c.toNat ≤ 122) := by
  simp only [isIdentifierCharacter, Char.isAlphanum, Char.isAlpha, Char.isUpper, Char.isLower,
    Char.isDigit, Bool.or_eq_true, Bool.and_eq_true, decide_eq_true_eq, ge_iff_le,
    UInt32.le_iff_toNat_le, beq_iff_eq] at h
  obtain ((h | h) | rfl) | rfl := h
  · have hcode : (65 ≤ c.toNat ∧ c.toNat ≤ 90) ∨ (97 ≤ c.toNat ∧ c.toNat ≤ 122) := h
    omega
  · have hcode : 48 ≤ c.toNat ∧ c.toNat ≤ 57 := h
    omega
  · exact .inr (.inr (.inr (.inl rfl)))
  · exact .inl rfl

/-- The character of a word is no blank and starts neither a quote nor a comment. -/
theorem ne_of_identifierCharacter (h : isIdentifierCharacter c = true) :
    isWhitespace c = false ∧ isControl c = false ∧ isDdlQuote c = false ∧ c ≠ '-' ∧ c ≠ '#' ∧
      c ≠ '/' := by
  refine ⟨?_, ?_, ?_, ?_, ?_, ?_⟩
  · have hcode := identifierCharacter_code h
    simp only [isWhitespace, Bool.or_eq_false_iff, Bool.and_eq_false_iff, decide_eq_false_iff_not,
      beq_eq_false_iff_ne, ne_eq]
    omega
  · have hcode := identifierCharacter_code h
    simp only [isControl, Bool.or_eq_false_iff, Bool.and_eq_false_iff, decide_eq_false_iff_not]
    omega
  · by_contra hquote
    simp only [isDdlQuote, Bool.or_eq_true, beq_iff_eq, Bool.not_eq_false] at hquote
    obtain (rfl | rfl) | rfl := hquote <;> exact absurd h (by decide)
  · rintro rfl
    exact absurd h (by decide)
  · rintro rfl
    exact absurd h (by decide)
  · rintro rfl
    exact absurd h (by decide)

theorem identifierCharacter_of_mem {identifier : Text} (h : isIdentifier identifier = true)
    (hc : c ∈ identifier) : isIdentifierCharacter c = true := by
  cases identifier with
  | nil => cases hc
  | cons first rest =>
    simp only [isIdentifier, Bool.and_eq_true, List.all_eq_true, Bool.or_eq_true] at h
    simp only [isIdentifierCharacter, Char.isAlphanum, Bool.or_eq_true]
    rcases List.mem_cons.mp hc with rfl | hc
    · tauto
    · have hrest := h.2 c hc
      simp only [Char.isAlphanum, Bool.or_eq_true] at hrest
      tauto

theorem ne_backQuote_of_identifierCharacter (h : isIdentifierCharacter c = true) :
    (c == backQuote) = false ∧ (c == doubleQuote) = false ∧ (c == singleQuote) = false := by
  have hquote := (ne_of_identifierCharacter h).2.2.1
  simpa [isDdlQuote, and_assoc] using hquote

/-- An identifier holds nothing to double. -/
theorem quoteIdentifier_eq {identifier : Text} (h : isIdentifier identifier = true) :
    quoteIdentifier identifier = backQuote :: identifier ++ [backQuote] := by
  have hflat : ∀ text : Text, (∀ c ∈ text, isIdentifierCharacter c = true) →
      (text.flatMap fun c => if c == backQuote then [c, c] else [c]) = text := by
    intro text htext
    induction text with
    | nil => rfl
    | cons c text ih =>
      have hc := (ne_backQuote_of_identifierCharacter (htext c List.mem_cons_self)).1
      rw [List.flatMap_cons, ih fun d hd => htext d (List.mem_cons_of_mem c hd)]
      simp [hc]
  rw [quoteIdentifier, hflat identifier fun c hc => identifierCharacter_of_mem h hc]

/-- What the scanners need to know of a symbol. -/
theorem symbol_facts (h : c ∈ symbolCharacters) :
    isWhitespace c = false ∧ isControl c = false ∧ isDdlQuote c = false ∧
      isIdentifierCharacter c = false ∧ c ≠ '#' ∧ c ≠ '/' := by
  have hall : ∀ c ∈ symbolCharacters, isWhitespace c = false ∧ isControl c = false ∧
      isDdlQuote c = false ∧ isIdentifierCharacter c = false ∧ c ≠ '#' ∧ c ≠ '/' := by decide
  exact hall c h

end Characters

/-! ## The scanners on lexemes -/

section Scanners

/-- The first character of a lexeme. -/
def Lexeme.first : Lexeme → Option Char
  | word text => text.head?
  | name _ => some backQuote
  | literal _ => some singleQuote
  | symbol c => some c
  | dashes => some '-'
  | blank => some ' '

variable {lexeme : Lexeme} {lexemes : List Lexeme}

theorem lexemesText_cons : lexemesText (lexeme :: lexemes) = lexeme.text ++ lexemesText lexemes :=
  List.flatMap_cons

theorem head?_lexemesText (h : ∀ lexeme ∈ lexemes, lexeme.WellFormed) :
    (lexemesText lexemes).head? = lexemes.head?.bind Lexeme.first := by
  cases lexemes with
  | nil => rfl
  | cons lexeme lexemes =>
    rw [lexemesText_cons]
    cases lexeme with
    | word text =>
      obtain ⟨c, text, rfl⟩ := List.exists_cons_of_ne_nil (h _ List.mem_cons_self).1
      rfl
    | _ => rfl

/-- A quoted identifier is read to its closing quote. -/
theorem quotedToken_identifier {identifier rest : Text}
    (h : ∀ c ∈ identifier, isIdentifierCharacter c = true)
    (hrest : rest.head? ≠ some backQuote) :
    quotedToken backQuote (identifier ++ backQuote :: rest) = .ok (identifier, rest) := by
  induction identifier with
  | nil =>
    cases rest with
    | nil => rfl
    | cons next rest =>
      have hnext : (next == backQuote) = false := by
        simpa using hrest
      simp [quotedToken, hnext]
  | cons c identifier ih =>
    have hc := (ne_backQuote_of_identifierCharacter (h c List.mem_cons_self)).1
    have htail := ih fun d hd => h d (List.mem_cons_of_mem c hd)
    rw [List.cons_append, quotedToken.eq_def]
    simp [hc, htail, bind, Except.bind, pure, Except.pure]

/-- A word is read to its end. -/
theorem takeWhile_word {text rest : Text} (h : ∀ c ∈ text, isIdentifierCharacter c = true)
    (hrest : ∀ c, rest.head? = some c → isIdentifierCharacter c = false) :
    (text ++ rest).takeWhile isIdentifierCharacter = text ∧
      (text ++ rest).dropWhile isIdentifierCharacter = rest := by
  induction text with
  | nil =>
    cases rest with
    | nil => exact ⟨rfl, rfl⟩
    | cons c rest => simp [hrest c rfl]
  | cons c text ih =>
    have hc := h c List.mem_cons_self
    have htail := ih fun d hd => h d (List.mem_cons_of_mem c hd)
    simp [hc, htail]

/-- The next lexeme does not continue a word. -/
theorem not_identifierCharacter_of_apart {text : Text}
    (hwell : ∀ lexeme ∈ lexemes, lexeme.WellFormed)
    (h : (Lexeme.word text).apart lexemes.head? = true) (c : Char)
    (hc : (lexemesText lexemes).head? = some c) : isIdentifierCharacter c = false := by
  rw [head?_lexemesText hwell] at hc
  cases lexemes with
  | nil => cases hc
  | cons lexeme lexemes =>
    cases lexeme with
    | word text => exact absurd h (by simp [Lexeme.apart])
    | symbol d =>
      obtain rfl := Option.some.inj hc
      exact (symbol_facts (hwell _ List.mem_cons_self)).2.2.2.1
    | _ =>
      obtain rfl := Option.some.inj hc
      rfl

/-- The text does not start with a character that neither a word nor a symbol starts with, unless
the next lexeme is of the one kind that does. -/
theorem head?_ne_of_first {c : Char} (hwell : ∀ lexeme ∈ lexemes, lexeme.WellFormed)
    (hword : isIdentifierCharacter c = false) (hsymbol : c ∉ symbolCharacters)
    (hother : ∀ lexeme, lexemes.head? = some lexeme → (∀ text, lexeme ≠ .word text) →
      (∀ d, lexeme ≠ .symbol d) → lexeme.first ≠ some c) :
    (lexemesText lexemes).head? ≠ some c := by
  rw [head?_lexemesText hwell]
  cases lexemes with
  | nil => simp
  | cons lexeme lexemes =>
    cases lexeme with
    | word text =>
      have htext := hwell _ List.mem_cons_self
      obtain ⟨d, text, rfl⟩ := List.exists_cons_of_ne_nil htext.1
      intro hd
      obtain rfl := Option.some.inj hd
      simp [htext.2 _ List.mem_cons_self] at hword
    | symbol d =>
      intro hd
      obtain rfl := Option.some.inj hd
      exact hsymbol (hwell _ List.mem_cons_self)
    | _ => exact hother _ rfl (fun _ => Lexeme.noConfusion) fun _ => Lexeme.noConfusion

/-- The next lexeme does not continue a quoted identifier. -/
theorem ne_backQuote_of_apart {identifier : Text}
    (hwell : ∀ lexeme ∈ lexemes, lexeme.WellFormed)
    (h : (Lexeme.name identifier).apart lexemes.head? = true) :
    (lexemesText lexemes).head? ≠ some backQuote := by
  refine head?_ne_of_first hwell rfl (by decide) fun lexeme hhead hword hsymbol => ?_
  rw [hhead] at h
  cases lexeme with
  | word text => exact absurd rfl (hword text)
  | name identifier => simp [Lexeme.apart] at h
  | symbol c => exact absurd rfl (hsymbol c)
  | literal _ | dashes | blank => exact fun hfirst => absurd (Option.some.inj hfirst) (by decide)

/-- The next lexeme does not continue a string literal. -/
theorem ne_singleQuote_of_apart {value : Text} (hwell : ∀ lexeme ∈ lexemes, lexeme.WellFormed)
    (h : (Lexeme.literal value).apart lexemes.head? = true) :
    (lexemesText lexemes).head? ≠ some singleQuote := by
  refine head?_ne_of_first hwell rfl (by decide) fun lexeme hhead hword hsymbol => ?_
  rw [hhead] at h
  cases lexeme with
  | word text => exact absurd rfl (hword text)
  | literal value => simp [Lexeme.apart] at h
  | symbol c => exact absurd rfl (hsymbol c)
  | name _ | dashes | blank => exact fun hfirst => absurd (Option.some.inj hfirst) (by decide)

/-- A symbol starts no line comment. -/
theorem not_lineComment_of_apart {c : Char} (hwell : ∀ lexeme ∈ lexemes, lexeme.WellFormed)
    (h : (Lexeme.symbol c).apart lexemes.head? = true) :
    isMysqlLineCommentText (c :: lexemesText lexemes) = false := by
  by_cases hc : c = '-'
  · have hhead : (lexemesText lexemes).head? ≠ some '-' := by
      rw [head?_lexemesText hwell]
      cases lexemes with
      | nil => simp
      | cons lexeme lexemes =>
        cases lexeme with
        | word text =>
          have htext := hwell _ List.mem_cons_self
          obtain ⟨d, text, rfl⟩ := List.exists_cons_of_ne_nil htext.1
          intro hd
          obtain rfl := Option.some.inj hd
          exact absurd (htext.2 _ List.mem_cons_self) (by decide)
        | symbol d =>
          intro hd
          obtain rfl := Option.some.inj hd
          simp [Lexeme.apart, hc] at h
        | dashes => simp [Lexeme.apart, hc] at h
        | name _ | literal _ | blank =>
          exact fun hfirst => absurd (Option.some.inj hfirst) (by decide)
    simp [isMysqlLineCommentText, isMysqlLineCommentStart, hhead]
  · simp [isMysqlLineCommentText, isMysqlLineCommentStart, hc]

/-- A point follows a double dash. -/
theorem point_of_apart (h : Lexeme.dashes.apart lexemes.head? = true) :
    ∃ more, lexemesText lexemes = '.' :: more := by
  cases lexemes with
  | nil => exact absurd h (by decide)
  | cons lexeme lexemes =>
    have hpoint : lexeme = .symbol '.' := by
      simpa [Lexeme.apart] using h
    rw [hpoint]
    exact ⟨lexemesText lexemes, rfl⟩

/-- One step and the tokens of the text after it. -/
theorem tokenizeDdlFrom_of_step {fuel : Nat} {c : Char} {rest next : Text} {token : Option Text}
    {tokens : List DdlToken} (hstep : tokenizeDdlStep false c rest = .ok (token, next))
    (hmore : tokenizeDdlFrom false fuel next = .ok tokens) :
    tokenizeDdlFrom false (fuel + 1) (c :: rest) =
      .ok ((token.map fun text => ⟨text, c == backQuote || c == doubleQuote⟩).toList ++
        tokens) := by
  simp only [tokenizeDdlFrom, hstep, bind, Except.bind, hmore, pure, Except.pure]

theorem tokenizeDdlStep_word {c : Char} {text : Text}
    (htext : ∀ d ∈ c :: text, isIdentifierCharacter d = true)
    (hwell : ∀ lexeme ∈ lexemes, lexeme.WellFormed)
    (hapart : (Lexeme.word (c :: text)).apart lexemes.head? = true) :
    tokenizeDdlStep false c (text ++ lexemesText lexemes) =
      .ok (some (c :: text), lexemesText lexemes) := by
  have hc := htext c List.mem_cons_self
  have hfacts := ne_of_identifierCharacter hc
  have hquotes := ne_backQuote_of_identifierCharacter hc
  have hword := takeWhile_word (fun d hd => htext d (List.mem_cons_of_mem c hd))
    (not_identifierCharacter_of_apart hwell hapart)
  simp [tokenizeDdlStep, hfacts, hquotes, hc, hword, isMysqlLineCommentStart]

theorem tokenizeDdlStep_name {identifier : Text} (hidentifier : isIdentifier identifier = true)
    (hwell : ∀ lexeme ∈ lexemes, lexeme.WellFormed)
    (hapart : (Lexeme.name identifier).apart lexemes.head? = true) :
    tokenizeDdlStep false backQuote (identifier ++ backQuote :: lexemesText lexemes) =
      .ok (some identifier, lexemesText lexemes) := by
  have hread := quotedToken_identifier (fun c hc => identifierCharacter_of_mem hidentifier hc)
    (ne_backQuote_of_apart hwell hapart)
  have hplain : isWhitespace backQuote = false ∧ (backQuote == '#') = false ∧
      (backQuote == '/') = false ∧ (backQuote == '-') = false := by decide
  simp [tokenizeDdlStep, hplain, isMysqlLineCommentStart, hread, bind, Except.bind, pure,
    Except.pure]

theorem tokenizeDdlStep_literal {value : Text} (hwell : ∀ lexeme ∈ lexemes, lexeme.WellFormed)
    (hapart : (Lexeme.literal value).apart lexemes.head? = true) :
    tokenizeDdlStep false singleQuote
        (value.flatMap escapedCharacter ++ singleQuote :: lexemesText lexemes) =
      .ok (some stringToken, lexemesText lexemes) := by
  have hread := @skipQuotedString_escaped value _ (ne_singleQuote_of_apart hwell hapart)
  have hplain : isWhitespace singleQuote = false ∧ (singleQuote == '#') = false ∧
      (singleQuote == '/') = false ∧ (singleQuote == '-') = false ∧
      (singleQuote == backQuote) = false ∧ (singleQuote == doubleQuote) = false := by decide
  simp [tokenizeDdlStep, hplain, isMysqlLineCommentStart, hread, bind, Except.bind, pure,
    Except.pure]

theorem tokenizeDdlStep_symbol {c : Char} {rest : Text} (hc : c ∈ symbolCharacters)
    (hcomment : isMysqlLineCommentText (c :: rest) = false) :
    tokenizeDdlStep false c rest = .ok (some [c], rest) := by
  obtain ⟨hspace, -, hquote, hidentifier, hhash, hslash⟩ := symbol_facts hc
  simp only [isDdlQuote, Bool.or_eq_false_iff] at hquote
  simp only [isMysqlLineCommentText] at hcomment
  rw [tokenizeDdlStep, hcomment]
  simp [hspace, hquote, hidentifier, hhash, hslash]

/-- The tokenizer reads the tokens of separated lexemes. -/
theorem tokenizeDdlFrom_lexemes (hwell : ∀ lexeme ∈ lexemes, lexeme.WellFormed)
    (hseparated : Separated lexemes) {fuel : Nat} (hfuel : (lexemesText lexemes).length ≤ fuel) :
    tokenizeDdlFrom false fuel (lexemesText lexemes) = .ok (lexemesTokens lexemes) := by
  induction lexemes generalizing fuel with
  | nil => cases fuel <;> rfl
  | cons lexeme lexemes ih =>
    obtain ⟨hapart, hseparated⟩ := hseparated
    have hlexeme := hwell lexeme List.mem_cons_self
    have hrest : ∀ lexeme ∈ lexemes, lexeme.WellFormed :=
      fun other h => hwell other (List.mem_cons_of_mem lexeme h)
    have hmore : ∀ fuel, (lexemesText lexemes).length ≤ fuel →
        tokenizeDdlFrom false fuel (lexemesText lexemes) = .ok (lexemesTokens lexemes) :=
      fun _ h => ih hrest hseparated h
    rw [lexemesText_cons] at hfuel ⊢
    have hpositive : 0 < lexeme.text.length := by
      cases lexeme with
      | word text => exact List.length_pos_iff.mpr hlexeme.1
      | _ => simp [Lexeme.text, quoteIdentifier, quoteStringLiteral]
    rw [List.length_append] at hfuel
    obtain ⟨fuel, rfl⟩ : ∃ more, fuel = more + 1 := ⟨fuel - 1, by omega⟩
    cases lexeme with
    | word text =>
      obtain ⟨c, text, rfl⟩ := List.exists_cons_of_ne_nil hlexeme.1
      have hquotes := ne_backQuote_of_identifierCharacter (hlexeme.2 c List.mem_cons_self)
      have hstep := tokenizeDdlStep_word hlexeme.2 hrest hapart
      have h := tokenizeDdlFrom_of_step hstep (hmore fuel (by omega))
      simpa [hquotes, Lexeme.text, Lexeme.tokens, lexemesTokens] using h
    | name identifier =>
      have hstep := tokenizeDdlStep_name hlexeme hrest hapart
      have h := tokenizeDdlFrom_of_step hstep (hmore fuel (by omega))
      simpa [Lexeme.text, quoteIdentifier_eq hlexeme, Lexeme.tokens, lexemesTokens] using h
    | literal value =>
      have hstep := tokenizeDdlStep_literal hrest hapart
      have h := tokenizeDdlFrom_of_step hstep (hmore fuel (by omega))
      have hquotes : (singleQuote == backQuote) = false ∧ (singleQuote == doubleQuote) = false :=
        by decide
      simpa [Lexeme.text, quoteStringLiteral, hquotes, Lexeme.tokens, lexemesTokens] using h
    | symbol c =>
      have hquote := (symbol_facts hlexeme).2.2.1
      simp only [isDdlQuote, Bool.or_eq_false_iff] at hquote
      have hstep := tokenizeDdlStep_symbol hlexeme (not_lineComment_of_apart hrest hapart)
      have h := tokenizeDdlFrom_of_step hstep (hmore fuel (by omega))
      simpa [Lexeme.text, hquote, Lexeme.tokens, lexemesTokens] using h
    | dashes =>
      obtain ⟨more, hpoint⟩ := point_of_apart hapart
      have hfirst : tokenizeDdlStep false '-' ('-' :: lexemesText lexemes) =
          .ok (some ['-'], '-' :: lexemesText lexemes) :=
        tokenizeDdlStep_symbol (by decide) (by rw [hpoint]; rfl)
      have hsecond : tokenizeDdlStep false '-' (lexemesText lexemes) =
          .ok (some ['-'], lexemesText lexemes) :=
        tokenizeDdlStep_symbol (by decide) (by rw [hpoint]; rfl)
      have hlength : Lexeme.dashes.text.length = 2 := rfl
      obtain ⟨fuel, rfl⟩ : ∃ more, fuel = more + 1 := ⟨fuel - 1, by omega⟩
      have h := tokenizeDdlFrom_of_step hfirst
        (tokenizeDdlFrom_of_step hsecond (hmore fuel (by omega)))
      have hquotes : ('-' == backQuote) = false ∧ ('-' == doubleQuote) = false := by decide
      simpa [Lexeme.text, hquotes, Lexeme.tokens, lexemesTokens] using h
    | blank =>
      have hstep : tokenizeDdlStep false ' ' (lexemesText lexemes) =
          .ok (none, lexemesText lexemes) := rfl
      have h := tokenizeDdlFrom_of_step hstep (hmore fuel (by omega))
      simpa [Lexeme.text, Lexeme.tokens, lexemesTokens] using h

/-- The second scanner passes a text without single quotes. -/
theorem extractLiteralsFrom_append {front rest : Text} {fuel : Nat}
    (h : ∀ c ∈ front, (c == singleQuote) = false) :
    extractLiteralsFrom (some 0) (front.length + fuel) (front ++ rest) =
      extractLiteralsFrom (some 0) fuel rest := by
  induction front with
  | nil => simp
  | cons c front ih =>
    have hc := h c List.mem_cons_self
    rw [← ih fun d hd => h d (List.mem_cons_of_mem c hd), List.length_cons, Nat.add_right_comm,
      List.cons_append]
    simp [extractLiteralsFrom, hc]

/-- The characters of a lexeme other than a literal are no single quotes. -/
theorem ne_singleQuote_of_mem_text (h : lexeme.WellFormed) (hliteral : ∀ value, lexeme ≠ .literal value)
    {c : Char} (hc : c ∈ lexeme.text) : (c == singleQuote) = false := by
  cases lexeme with
  | word text => exact (ne_backQuote_of_identifierCharacter (h.2 c hc)).2.2
  | name identifier =>
    rw [Lexeme.text, quoteIdentifier_eq h] at hc
    have hc : c = backQuote ∨ c ∈ identifier := by
      simpa [or_comm, or_assoc] using hc
    obtain rfl | hc := hc
    · rfl
    · exact (ne_backQuote_of_identifierCharacter (identifierCharacter_of_mem h hc)).2.2
  | literal value => exact absurd rfl (hliteral value)
  | symbol d =>
    obtain rfl := List.mem_singleton.mp hc
    have hquote := (symbol_facts h).2.2.1
    simp only [isDdlQuote, Bool.or_eq_false_iff] at hquote
    exact hquote.2
  | dashes | blank =>
    have hall : ∀ c ∈ Lexeme.dashes.text ++ Lexeme.blank.text, (c == singleQuote) = false := by
      decide
    exact hall c (by simp [hc])

/-- The second scanner collects the literals of separated lexemes. -/
theorem extractLiteralsFrom_lexemes (hwell : ∀ lexeme ∈ lexemes, lexeme.WellFormed)
    (hseparated : Separated lexemes) {fuel : Nat} (hfuel : (lexemesText lexemes).length ≤ fuel) :
    extractLiteralsFrom (some 0) fuel (lexemesText lexemes) = .ok (lexemesLiterals lexemes) := by
  induction lexemes generalizing fuel with
  | nil => cases fuel <;> rfl
  | cons lexeme lexemes ih =>
    obtain ⟨hapart, hseparated⟩ := hseparated
    have hlexeme := hwell lexeme List.mem_cons_self
    have hrest : ∀ lexeme ∈ lexemes, lexeme.WellFormed :=
      fun other h => hwell other (List.mem_cons_of_mem lexeme h)
    rw [lexemesText_cons, List.length_append] at hfuel
    rw [lexemesText_cons]
    by_cases hliteral : ∃ value, lexeme = .literal value
    · obtain ⟨value, rfl⟩ := hliteral
      have hlength : 0 < (Lexeme.literal value).text.length := by
        simp [Lexeme.text, quoteStringLiteral]
      obtain ⟨fuel, rfl⟩ : ∃ more, fuel = more + 1 := ⟨fuel - 1, by omega⟩
      have hdecode := decodeLiteralFrom_escaped hlexeme (ne_singleQuote_of_apart hrest hapart)
        false []
      have hmore : extractLiteralsFrom (some 0) fuel (lexemesText lexemes) =
          .ok (lexemesLiterals lexemes) := ih hrest hseparated (by omega)
      simp only [Lexeme.text, quoteStringLiteral, List.cons_append, List.append_assoc,
        List.nil_append, extractLiteralsFrom, beq_self_eq_true, if_true, decodeSingleQuotedLiteral,
        hdecode, bind, Except.bind, hmore, pure, Except.pure]
      rfl
    · have hother : ∀ value, lexeme ≠ .literal value := fun value h => hliteral ⟨value, h⟩
      obtain ⟨fuel, rfl⟩ : ∃ more, fuel = lexeme.text.length + more :=
        ⟨fuel - lexeme.text.length, by omega⟩
      rw [extractLiteralsFrom_append fun c hc => ne_singleQuote_of_mem_text hlexeme hother hc,
        ih hrest hseparated (by omega)]
      cases lexeme with
      | literal value => exact absurd rfl (hother value)
      | _ => rfl

/-- The scan for comments passes a quoted identifier. -/
theorem containsCommentsFrom_identifier {identifier rest : Text}
    (h : ∀ c ∈ identifier, isIdentifierCharacter c = true)
    (hrest : rest.head? ≠ some backQuote) :
    containsCommentsFrom false (some backQuote) (identifier ++ backQuote :: rest) =
      containsCommentsFrom false none rest := by
  induction identifier with
  | nil =>
    cases rest with
    | nil => rfl
    | cons next rest =>
      have hnext : (next == backQuote) = false := by
        simpa using hrest
      simp [containsCommentsFrom, hnext]
  | cons c identifier ih =>
    have hc := (ne_backQuote_of_identifierCharacter (h c List.mem_cons_self)).1
    have hquotes : (backQuote == singleQuote) = false := rfl
    rw [← ih fun d hd => h d (List.mem_cons_of_mem c hd), List.cons_append,
      containsCommentsFrom.eq_def]
    simp [hc, hquotes]

theorem containsCommentsFrom_plain {c : Char} {rest : Text} (hquote : isDdlQuote c = false)
    (hhash : c ≠ '#') (hslash : c ≠ '/') (hcomment : isMysqlLineCommentText (c :: rest) = false) :
    containsCommentsFrom false none (c :: rest) = containsCommentsFrom false none rest := by
  have hstart : startsDdlComment (c :: rest) = false := by
    have hblock : "/*".toList.isPrefixOf (c :: rest) = false := by
      simp [List.isPrefixOf, hslash.symm]
    simp only [startsDdlComment, hcomment, hblock]
    simp [hhash]
  simp [containsCommentsFrom, hquote, hstart]

theorem containsCommentsFrom_word {text rest : Text}
    (h : ∀ c ∈ text, isIdentifierCharacter c = true) :
    containsCommentsFrom false none (text ++ rest) = containsCommentsFrom false none rest := by
  induction text with
  | nil => rfl
  | cons c text ih =>
    obtain ⟨-, -, hquote, hdash, hhash, hslash⟩ :=
      ne_of_identifierCharacter (h c List.mem_cons_self)
    rw [List.cons_append, containsCommentsFrom_plain hquote hhash hslash
        (by simp [isMysqlLineCommentText, isMysqlLineCommentStart, hdash]),
      ih fun d hd => h d (List.mem_cons_of_mem c hd)]

/-- Separated lexemes hold no comment. -/
theorem containsCommentsFrom_lexemes (hwell : ∀ lexeme ∈ lexemes, lexeme.WellFormed)
    (hseparated : Separated lexemes) :
    containsCommentsFrom false none (lexemesText lexemes) = false := by
  induction lexemes with
  | nil => rfl
  | cons lexeme lexemes ih =>
    obtain ⟨hapart, hseparated⟩ := hseparated
    have hlexeme := hwell lexeme List.mem_cons_self
    have hrest : ∀ lexeme ∈ lexemes, lexeme.WellFormed :=
      fun other h => hwell other (List.mem_cons_of_mem lexeme h)
    suffices hpassed : containsCommentsFrom false none (lexeme.text ++ lexemesText lexemes) =
        containsCommentsFrom false none (lexemesText lexemes) by
      rw [lexemesText_cons, hpassed]
      exact ih hrest hseparated
    cases lexeme with
    | word text => exact containsCommentsFrom_word hlexeme.2
    | name identifier =>
      have h := containsCommentsFrom_identifier
        (fun c hc => identifierCharacter_of_mem hlexeme hc) (ne_backQuote_of_apart hrest hapart)
      rw [Lexeme.text, quoteIdentifier_eq hlexeme, List.append_assoc, List.cons_append,
        containsCommentsFrom, if_pos (by decide)]
      exact h
    | literal value =>
      have h := @containsCommentsFrom_escaped value _ (ne_singleQuote_of_apart hrest hapart)
      rw [Lexeme.text, quoteStringLiteral, List.append_assoc, List.cons_append,
        containsCommentsFrom, if_pos (by decide)]
      exact h
    | symbol c =>
      obtain ⟨-, -, hquote, -, hhash, hslash⟩ := symbol_facts hlexeme
      exact containsCommentsFrom_plain hquote hhash hslash (not_lineComment_of_apart hrest hapart)
    | dashes =>
      obtain ⟨more, hpoint⟩ := point_of_apart hapart
      have hfirst : containsCommentsFrom false none ('-' :: '-' :: lexemesText lexemes) =
          containsCommentsFrom false none ('-' :: lexemesText lexemes) :=
        containsCommentsFrom_plain rfl (by decide) (by decide) (by rw [hpoint]; rfl)
      have hsecond : containsCommentsFrom false none ('-' :: lexemesText lexemes) =
          containsCommentsFrom false none (lexemesText lexemes) :=
        containsCommentsFrom_plain rfl (by decide) (by decide) (by rw [hpoint]; rfl)
      exact hfirst.trans hsecond
    | blank => exact containsCommentsFrom_plain rfl (by decide) (by decide) rfl

end Scanners

/-! ## Joining spelled texts -/

section Spelling

/-- A lexeme that runs together with nothing but a dash before it. -/
def Lexeme.isNeutral : Lexeme → Bool
  | blank => true
  | symbol c => c != '-'
  | _ => false

variable {lexeme : Lexeme} {front back : List Lexeme} {text more : Text}

@[simp] theorem lexemesText_append :
    lexemesText (front ++ back) = lexemesText front ++ lexemesText back := List.flatMap_append

@[simp] theorem lexemesTokens_append :
    lexemesTokens (front ++ back) = lexemesTokens front ++ lexemesTokens back :=
  List.flatMap_append

@[simp] theorem lexemesLiterals_append :
    lexemesLiterals (front ++ back) = lexemesLiterals front ++ lexemesLiterals back :=
  List.flatMap_append

@[simp] theorem lexemesTokens_cons :
    lexemesTokens (lexeme :: back) = lexeme.tokens ++ lexemesTokens back := List.flatMap_cons

@[simp] theorem lexemesLiterals_cons :
    lexemesLiterals (lexeme :: back) = lexeme.literals ++ lexemesLiterals back :=
  List.flatMap_cons

@[simp] theorem lexemesTokens_nil : lexemesTokens [] = [] := rfl

@[simp] theorem lexemesLiterals_nil : lexemesLiterals [] = [] := rfl

theorem apart_of_isNeutral {next : Lexeme} (h : lexeme.apart none = true)
    (hnext : next.isNeutral = true) : lexeme.apart (some next) = true := by
  cases lexeme <;> cases next <;> simp_all [Lexeme.apart, Lexeme.isNeutral]

theorem isNeutral_apart (h : lexeme.isNeutral = true) (next : Option Lexeme) :
    lexeme.apart next = true := by
  cases lexeme with
  | blank => rfl
  | symbol c =>
    have hc : (c == '-') = false := by
      simpa [Lexeme.isNeutral] using h
    cases next with
    | none => rfl
    | some next => cases next <;> simp [Lexeme.apart, hc, bne]
  | _ => cases h

theorem separated_append (hfront : Separated front) (hback : Separated back)
    (h : ∀ lexeme ∈ back.head?, lexeme.isNeutral = true) : Separated (front ++ back) := by
  induction front with
  | nil => exact hback
  | cons lexeme front ih =>
    obtain ⟨hapart, hfront⟩ := hfront
    refine ⟨?_, ih hfront⟩
    cases front with
    | nil =>
      cases back with
      | nil => exact hapart
      | cons next back => exact apart_of_isNeutral hapart (h next rfl)
    | cons second front => exact hapart

namespace Spells

theorem nil : Spells [] [] := ⟨by simp, trivial, rfl⟩

/-- Texts join if the second starts with a blank or a symbol. -/
theorem append (hfront : Spells front text) (hback : Spells back more)
    (h : ∀ lexeme ∈ back.head?, lexeme.isNeutral = true) :
    Spells (front ++ back) (text ++ more) where
  wellFormed lexeme hmem := by
    rcases List.mem_append.mp hmem with hmem | hmem
    · exact hfront.wellFormed lexeme hmem
    · exact hback.wellFormed lexeme hmem
  separated := separated_append hfront.separated hback.separated h
  text_eq := by rw [lexemesText_append, hfront.text_eq, hback.text_eq]

/-- A blank or a symbol joins to any text after it. -/
theorem cons (hneutral : lexeme.isNeutral = true) (hwell : lexeme.WellFormed)
    (hback : Spells back more) : Spells (lexeme :: back) (lexeme.text ++ more) where
  wellFormed other hmem := by
    rcases List.mem_cons.mp hmem with rfl | hmem
    · exact hwell
    · exact hback.wellFormed other hmem
  separated := ⟨isNeutral_apart hneutral back.head?, hback.separated⟩
  text_eq := by rw [lexemesText_cons, hback.text_eq]

/-- Texts join with a blank or a symbol between them. -/
theorem join (hneutral : lexeme.isNeutral = true) (hwell : lexeme.WellFormed)
    (hfront : Spells front text) (hback : Spells back more) :
    Spells (front ++ lexeme :: back) (text ++ (lexeme.text ++ more)) :=
  hfront.append (cons hneutral hwell hback) fun other hhead => by
    obtain rfl := Option.some.inj hhead
    exact hneutral

/-- One lexeme spells its text. -/
theorem single (hwell : lexeme.WellFormed) (hapart : lexeme.apart none = true) :
    Spells [lexeme] lexeme.text where
  wellFormed other hmem := by
    rw [List.mem_singleton.mp hmem]
    exact hwell
  separated := ⟨hapart, trivial⟩
  text_eq := by simp [lexemesText]

/-- The tokens of a spelled text. -/
theorem tokenizeDdl (h : Spells front text) :
    tokenizeDdl text false = .ok (lexemesTokens front) := by
  rw [← h.text_eq]
  exact tokenizeDdlFrom_lexemes h.wellFormed h.separated le_rfl

/-- The literals of a spelled text. -/
theorem extractSingleQuotedLiterals (h : Spells front text) :
    extractSingleQuotedLiteralsWithMode text (some 0) = .ok (lexemesLiterals front) := by
  rw [← h.text_eq]
  exact extractLiteralsFrom_lexemes h.wellFormed h.separated le_rfl

/-- A spelled text holds no comment. -/
theorem ddlContainsComments (h : Spells front text) :
    ddlContainsCommentsWithMode text false = false := by
  rw [← h.text_eq]
  exact containsCommentsFrom_lexemes h.wellFormed h.separated

end Spells

end Spelling

end Ddl

end BinlogCdc
