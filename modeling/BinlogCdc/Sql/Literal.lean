import BinlogCdc.Sql.Expression

/-!
# Quoted names and literals

How a server reads quoted names and string literals with backslash escapes enabled: the tokens of a
text, one character at a time. A quoted text is read back as what was quoted.
-/

namespace BinlogCdc

/-- The tokens of a text. -/
inductive TextToken where
  | name (name : Text)
  | literal (value : Text)
  | word (word : Text)
  | symbol (character : Char)
deriving DecidableEq, Repr

/-- What the characters so far have begun. A closing quote can be the first of a doubled one. -/
inductive ReadState where
  | between
  | name (read : Text)
  | nameQuote (read : Text)
  | literal (read : Text)
  | escape (read : Text)
  | literalQuote (read : Text)
  | word (read : Text)
deriving DecidableEq, Repr

/-- What a character after a backslash stands for. A backslash stays before the wildcards. -/
def unescaped (character : Char) : Text :=
  if character = '0' then [Char.ofNat 0]
  else if character = 'b' then [Char.ofNat 8]
  else if character = 'n' then ['\n']
  else if character = 'r' then ['\r']
  else if character = 't' then ['\t']
  else if character = 'Z' then [Char.ofNat 26]
  else if character = '%' || character = '_' then [backslash, character]
  else [character]

def isWordCharacter (character : Char) : Bool := character.isAlphanum || character == '_'

def isSymbol (character : Char) : Bool := ['(', ')', ',', '=', '>'].contains character

/-- The token that a finished state holds. -/
def ReadState.held : ReadState → Option (List TextToken)
  | .between => some []
  | .nameQuote read => some [.name read]
  | .literalQuote read => some [.literal read]
  | .word read => some [.word (read.map Char.toUpper)]
  | _ => none

/-- A character that begins something new. -/
def beginToken (character : Char) : Option (List TextToken × ReadState) :=
  if isBlank character then some ([], .between)
  else if character = backQuote then some ([], .name [])
  else if character = singleQuote then some ([], .literal [])
  else if isWordCharacter character then some ([], .word [character])
  else if isSymbol character then some ([.symbol character], .between)
  else none

/-- A character that ends a token and begins something new. -/
def endToken (token : TextToken) (character : Char) : Option (List TextToken × ReadState) :=
  (beginToken character).map fun (tokens, state) => (token :: tokens, state)

/-- Read one character. -/
def readCharacter : ReadState → Char → Option (List TextToken × ReadState)
  | .between, c => beginToken c
  | .name read, c =>
    if c = backQuote then some ([], .nameQuote read) else some ([], .name (read ++ [c]))
  | .nameQuote read, c =>
    if c = backQuote then some ([], .name (read ++ [c])) else endToken (.name read) c
  | .literal read, c =>
    if c = backslash then some ([], .escape read)
    else if c = singleQuote then some ([], .literalQuote read)
    else some ([], .literal (read ++ [c]))
  | .escape read, c => some ([], .literal (read ++ unescaped c))
  | .literalQuote read, c =>
    if c = singleQuote then some ([], .literal (read ++ [c])) else endToken (.literal read) c
  | .word read, c =>
    if isWordCharacter c then some ([], .word (read ++ [c]))
    else endToken (.word (read.map Char.toUpper)) c

/-- Read a text. -/
def readText : ReadState → Text → Option (List TextToken × ReadState)
  | state, [] => some ([], state)
  | state, c :: text => do
    let (tokens, state) ← readCharacter state c
    let (more, state) ← readText state text
    return (tokens ++ more, state)

/-- The tokens of a text. -/
def textTokens (text : Text) : Option (List TextToken) := do
  let (tokens, state) ← readText .between text
  let held ← state.held
  return tokens ++ held

/-! ## Reading in parts -/

theorem readText_append (state : ReadState) (front back : Text) :
    readText state (front ++ back) = do
      let (tokens, state) ← readText state front
      let (more, state) ← readText state back
      return (tokens ++ more, state) := by
  induction front generalizing state with
  | nil =>
    simp only [List.nil_append, readText, Option.bind_eq_bind, Option.bind_some,
      Option.pure_def]
    cases readText state back with
    | none => rfl
    | some read => rfl
  | cons c front ih =>
    simp only [List.cons_append, readText]
    cases readCharacter state c with
    | none => rfl
    | some read =>
      obtain ⟨tokens, state⟩ := read
      simp only [Option.bind_eq_bind, Option.bind_some, ih]
      cases readText state front with
      | none => rfl
      | some read =>
        obtain ⟨more, state⟩ := read
        simp only [Option.bind_some, Option.pure_def]
        cases readText state back with
        | none => rfl
        | some read => simp [List.append_assoc]

/-- The text can be read on its own, as these tokens. -/
def ReadsAs (text : Text) (tokens : List TextToken) : Prop :=
  ∃ front state held, readText .between text = some (front, state) ∧
    ReadState.held state = some held ∧ front ++ held = tokens

theorem ReadsAs.textTokens {text : Text} {tokens : List TextToken} (h : ReadsAs text tokens) :
    textTokens text = some tokens := by
  obtain ⟨front, state, held, hread, hheld, rfl⟩ := h
  simp [BinlogCdc.textTokens, hread, hheld]

theorem readsAs_nil : ReadsAs [] [] := ⟨[], .between, [], rfl, rfl, rfl⟩

/-- Characters that end every token. -/
def isSeparator (c : Char) : Bool := isBlank c || isSymbol c

theorem separator_not_quote {c : Char} (h : isSeparator c = true) :
    c ≠ backQuote ∧ c ≠ singleQuote ∧ isWordCharacter c = false := by
  have hcases : c = ' ' ∨ c = '\t' ∨ c = '\n' ∨ c = '(' ∨ c = ')' ∨ c = ',' ∨ c = '=' ∨ c = '>' := by
    simpa [isSeparator, isBlank, isSymbol, or_assoc] using h
  rcases hcases with rfl | rfl | rfl | rfl | rfl | rfl | rfl | rfl <;> decide

/-- A separator finishes the token before it. -/
theorem readCharacter_separator {state : ReadState} {held : List TextToken} {c : Char}
    (hc : isSeparator c = true) (hheld : state.held = some held) :
    readCharacter state c = (beginToken c).map fun (tokens, state) => (held ++ tokens, state) := by
  obtain ⟨hback, hsingle, hword⟩ := separator_not_quote hc
  cases state with
  | between =>
    obtain rfl := Option.some.inj hheld
    rw [readCharacter]
    cases beginToken c <;> rfl
  | nameQuote read =>
    obtain rfl := Option.some.inj hheld
    rw [readCharacter, if_neg hback]
    rfl
  | literalQuote read =>
    obtain rfl := Option.some.inj hheld
    rw [readCharacter, if_neg hsingle]
    rfl
  | word read =>
    obtain rfl := Option.some.inj hheld
    rw [readCharacter, if_neg (by simp [hword])]
    rfl
  | name read => cases hheld
  | literal read => cases hheld
  | escape read => cases hheld

/-- Texts can be joined where the second one begins with a separator. -/
theorem ReadsAs.append {text text' : Text} {c : Char} {tokens tokens' : List TextToken}
    (h : ReadsAs text tokens) (hc : isSeparator c = true) (h' : ReadsAs (c :: text') tokens') :
    ReadsAs (text ++ c :: text') (tokens ++ tokens') := by
  obtain ⟨front, state, held, hread, hheld, rfl⟩ := h
  obtain ⟨front', state', held', hread', hheld', rfl⟩ := h'
  rw [readText, readCharacter] at hread'
  refine ⟨front ++ held ++ front', state', held', ?_, hheld', by simp⟩
  rw [readText_append, hread]
  simp only [Option.bind_eq_bind, Option.bind_some, readText, readCharacter_separator hc hheld]
  cases hbegin : beginToken c with
  | none => rw [hbegin] at hread'; cases hread'
  | some begun =>
    obtain ⟨tokens, begun⟩ := begun
    rw [hbegin] at hread'
    simp only [Option.bind_eq_bind, Option.bind_some, Option.map_some] at hread' ⊢
    cases hrest : readText begun text' with
    | none => rw [hrest] at hread'; cases hread'
    | some rest =>
      obtain ⟨more, last⟩ := rest
      rw [hrest] at hread'
      simp only [Option.bind_some, Option.pure_def, Option.some.injEq, Prod.mk.injEq] at hread' ⊢
      obtain ⟨rfl, rfl⟩ := hread'
      simp

/-- A blank before a text is skipped. -/
theorem ReadsAs.blank {text : Text} {tokens : List TextToken} (h : ReadsAs text tokens) :
    ReadsAs (' ' :: text) tokens := by
  obtain ⟨front, state, held, hread, hheld, rfl⟩ := h
  refine ⟨front, state, held, ?_, hheld, rfl⟩
  rw [readText, show readCharacter .between ' ' = some ([], .between) by decide]
  simp [hread]

/-- A symbol before a text is a token. -/
theorem ReadsAs.symbol {text : Text} {tokens : List TextToken} {c : Char}
    (hc : beginToken c = some ([.symbol c], .between)) (h : ReadsAs text tokens) :
    ReadsAs (c :: text) (.symbol c :: tokens) := by
  obtain ⟨front, state, held, hread, hheld, rfl⟩ := h
  refine ⟨.symbol c :: front, state, held, ?_, hheld, rfl⟩
  rw [readText, readCharacter, hc]
  simp [hread]

/-- Texts joined by a separator are read one by one. -/
theorem ReadsAs.intercalate {first : Char} {separator : Text} {token : TextToken}
    {texts : List Text} {tokens : List (List TextToken)} (hfirst : isSeparator first = true)
    (hseparator : ∀ text tokens, ReadsAs text tokens →
      ReadsAs (first :: separator ++ text) (token :: tokens))
    (h : List.Forall₂ ReadsAs texts tokens) :
    ReadsAs ((first :: separator).intercalate texts) ([token].intercalate tokens) := by
  induction h with
  | nil => exact readsAs_nil
  | @cons text read texts tokens hread hrest ih =>
    cases hrest with
    | nil => simpa using hread
    | cons hnext hmore =>
      rw [List.intercalate_cons_cons, List.intercalate_cons_cons, List.append_assoc,
        List.append_assoc]
      exact hread.append hfirst (hseparator _ _ ih)

/-- A word before a blank and a text. -/
theorem ReadsAs.wordBlank {word text : Text} {tokens : List TextToken} {token : TextToken}
    (hword : ReadsAs word [token]) (h : ReadsAs text tokens) :
    ReadsAs (word ++ ' ' :: text) (token :: tokens) :=
  hword.append (by decide) h.blank

/-! ## Quoting -/

/-- A quoted name. -/
def quoteIdent (identifier : Text) : Text := backQuote :: (doubled backQuote identifier ++ [backQuote])

/-- A quoted string literal. -/
def quoteSqlLiteral (value : Text) : Text :=
  singleQuote :: (doubled singleQuote (doubled backslash value) ++ [singleQuote])

theorem doubled_cons (quote c : Char) (text : Text) :
    doubled quote (c :: text) = (if c = quote then [c, c] else [c]) ++ doubled quote text := rfl

theorem doubled_append (quote : Char) (front back : Text) :
    doubled quote (front ++ back) = doubled quote front ++ doubled quote back := by
  simp [doubled]

/-- Reading a name adds its characters to those read. -/
theorem readText_doubled_name (read name : Text) :
    readText (.name read) (doubled backQuote name) = some ([], .name (read ++ name)) := by
  induction name generalizing read with
  | nil => simp [doubled, readText]
  | cons c name ih =>
    rw [doubled_cons]
    by_cases hc : c = backQuote
    · rw [if_pos hc]
      simp [readText, readCharacter, hc, ih]
    · rw [if_neg hc]
      simp [readText, readCharacter, hc, ih]

/-- Reading a literal adds its characters to those read. -/
theorem readText_doubled_literal (read value : Text) :
    readText (.literal read) (doubled singleQuote (doubled backslash value)) =
      some ([], .literal (read ++ value)) := by
  induction value generalizing read with
  | nil => simp [doubled, readText]
  | cons c value ih =>
    rw [doubled_cons, doubled_append]
    by_cases hslash : c = backslash
    · have hpair : doubled singleQuote [c, c] = [backslash, backslash] := by rw [hslash]; decide
      rw [if_pos hslash, hpair, hslash]
      have hunescaped : unescaped backslash = [backslash] := by decide
      simp [readText, readCharacter, hunescaped, ih]
    · rw [if_neg hslash]
      by_cases hquote : c = singleQuote
      · have hpair : doubled singleQuote [c] = [singleQuote, singleQuote] := by rw [hquote]; decide
        rw [hpair, hquote]
        have hne : singleQuote ≠ backslash := by decide
        simp [readText, readCharacter, hne, ih]
      · have hpair : doubled singleQuote [c] = [c] := by simp [doubled, hquote]
        rw [hpair]
        simp [readText, readCharacter, hslash, hquote, ih]

/-- A quoted name is read as the name. -/
theorem readsAs_quoteIdent (name : Text) : ReadsAs (quoteIdent name) [.name name] := by
  refine ⟨[], .nameQuote name, [.name name], ?_, rfl, rfl⟩
  rw [quoteIdent, readText, show readCharacter .between backQuote = some ([], .name []) by decide]
  simp [readText_append, readText_doubled_name, readText, readCharacter]

/-- A quoted literal is read as its value. -/
theorem readsAs_quoteSqlLiteral (value : Text) :
    ReadsAs (quoteSqlLiteral value) [.literal value] := by
  refine ⟨[], .literalQuote value, [.literal value], ?_, rfl, rfl⟩
  rw [quoteSqlLiteral, readText,
    show readCharacter .between singleQuote = some ([], .literal []) by decide]
  have hne : singleQuote ≠ backslash := by decide
  simp [readText_append, readText_doubled_literal, readText, readCharacter, hne]

end BinlogCdc
