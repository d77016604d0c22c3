import BinlogCdc.Ddl.Lexeme
import BinlogCdc.Ddl.TokenizerStep

/-!
# Four scanners of one text

The tokenizer of the DDL statements, the search for comments, the removal of comments and the
tokenizer of the queries each track quotes, escapes and comments by themselves. A text that the
first one reads is read alike by the second and the last. The removal leaves a blank for a comment,
and two dashes before the comment make a comment of that blank: only without such dashes do the
tokens stay.
-/

namespace BinlogCdc

namespace Ddl

open Text

/-! ## The parts of a text -/

/-- What a scanner passes over in one piece. -/
inductive PartKind where
  | comment
  | quotedIdentifier
  | string
  deriving DecidableEq, Repr

/-- A part of a text, with the numbers of characters behind its start and behind its end. -/
structure TextPart where
  kind : PartKind
  start : Nat
  stop : Nat
  deriving DecidableEq, Repr

/-- What a step of the DDL tokenizer passed over: a step without a token skips a blank or a
comment. -/
def ddlPartKind (character : Char) (token : Option Text) : Option PartKind :=
  match token with
  | none => if isWhitespace character then none else some .comment
  | some _ =>
    if isIdentifierQuote character then some .quotedIdentifier
    else if character == singleQuote then some .string
    else none

/-- What a step of the query tokenizer passed over. -/
def queryPartKind (character : Char) (token : Option QueryToken) : Option PartKind :=
  match token with
  | none => if isWhitespace character then none else some .comment
  | some .string => some .string
  | some (.identifier _) => if isIdentifierQuote character then some .quotedIdentifier else none
  | some _ => none

/-- The parts that the DDL tokenizer passes over. -/
def ddlParts (noEscapes : Bool) (sql : Text) : Except String (List TextPart) :=
  Core.scan (ddlStep noEscapes fun character rest token next =>
    (ddlPartKind character token).map fun kind => ⟨kind, rest.length + 1, next.length⟩) sql

/-- A step of the query tokenizer, with the part it passes over. -/
def queryStep (noEscapes : Bool) (character : Char) (rest : Text) :
    Except String (Option TextPart × Text) :=
  let (token, next) := nextQueryToken noEscapes character rest
  .ok ((queryPartKind character token).map fun kind => ⟨kind, rest.length + 1, next.length⟩, next)

/-- The parts that the query tokenizer passes over. It never fails. -/
def queryParts (noEscapes : Bool) (sql : Text) : Except String (List TextPart) :=
  Core.scan (queryStep noEscapes) sql

/-- Two dashes and directly behind them a line comment. -/
def startsDashedComment (sql : Text) : Bool :=
  "--".toList.isPrefixOf sql && isMysqlLineCommentText (sql.drop 2)

/-- The places outside quotes and comments where two dashes stand directly before a line
comment. -/
def dashedComments (noEscapes : Bool) (sql : Text) : Except String (List Nat) :=
  Core.scan (ddlStep noEscapes fun character rest _ _ =>
    if startsDashedComment (character :: rest) then some (rest.length + 1) else none) sql

variable {noEscapes : Bool} {quote : Char} {next rest : Text}
variable {β : Type} {out : Char → Text → Option Text → Text → Option β}

/-! ## The search for comments -/

theorem ne_of_isWhitespace {c : Char} (h : isWhitespace c = true) :
    isDdlQuote c = false ∧ c ≠ '#' ∧ c ≠ '-' ∧ c ≠ '/' ∧ isIdentifierQuote c = false := by
  refine ⟨?_, ?_, ?_, ?_, ?_⟩
  · by_contra hquote
    rw [Bool.not_eq_false, isDdlQuote, Bool.or_eq_true, Bool.or_eq_true, beq_iff_eq, beq_iff_eq,
      beq_iff_eq] at hquote
    rcases hquote with (rfl | rfl) | rfl <;> exact absurd h (by decide)
  all_goals
    first
    | rintro rfl
      exact absurd h (by decide)
    | by_contra hquote
      rw [Bool.not_eq_false, isIdentifierQuote, Bool.or_eq_true, beq_iff_eq, beq_iff_eq] at hquote
      rcases hquote with rfl | rfl <;> exact absurd h (by decide)

theorem eq_dash_of_isMysqlLineCommentText {c : Char} (h : isMysqlLineCommentText (c :: rest) = true) :
    c = '-' ∧ rest.head? = some '-' := by
  simp only [isMysqlLineCommentText, isMysqlLineCommentStart, Bool.and_eq_true, beq_iff_eq] at h
  exact h.1

/-- One step of the search, at a character that is no quote and starts no comment. -/
theorem containsCommentsFrom_symbol {c : Char} (hquote : isDdlQuote c = false)
    (hstart : startsDdlComment (c :: rest) = false) :
    containsCommentsFrom noEscapes none (c :: rest) = containsCommentsFrom noEscapes none rest := by
  rw [containsCommentsFrom.eq_def]
  simp only [hquote, hstart, Bool.false_eq_true, if_false]

theorem startsDdlComment_eq_false {c : Char} (hhash : c ≠ '#') (hdash : c ≠ '-') (hslash : c ≠ '/') :
    startsDdlComment (c :: rest) = false := by
  simp [startsDdlComment, isMysqlLineCommentText, isMysqlLineCommentStart, List.isPrefixOf, hhash,
    hdash, hslash.symm]

theorem containsCommentsFrom_dropWhile (text : Text) :
    containsCommentsFrom noEscapes none (text.dropWhile isIdentifierCharacter) =
      containsCommentsFrom noEscapes none text := by
  induction text with
  | nil => rfl
  | cons c text ih =>
    by_cases hc : isIdentifierCharacter c = true
    · obtain ⟨-, -, hquote, hdash, hhash, hslash⟩ := ne_of_identifierCharacter hc
      rw [List.dropWhile_cons_of_pos hc, ih,
        containsCommentsFrom_symbol hquote (startsDdlComment_eq_false hhash hdash hslash)]
    · rw [List.dropWhile_cons_of_neg hc]

/-- The search stops where the tokenizer skips a comment, and only there. -/
theorem ReadsStep.containsCommentsFrom {c : Char} {token : Option Text}
    (h : ReadsStep noEscapes c rest token next) :
    Ddl.containsCommentsFrom noEscapes none (c :: rest) =
      (ddlPartKind c token == some .comment || Ddl.containsCommentsFrom noEscapes none next) := by
  cases h with
  | blank hblank =>
    obtain ⟨hquote, hhash, hdash, hslash, -⟩ := ne_of_isWhitespace hblank
    rw [containsCommentsFrom_symbol hquote (startsDdlComment_eq_false hhash hdash hslash),
      ddlPartKind, if_pos hblank]
    rfl
  | lineComment hline =>
    obtain ⟨rfl, -⟩ := eq_dash_of_isMysqlLineCommentText hline
    have hstart : startsDdlComment ('-' :: rest) = true := by rw [startsDdlComment, hline]; simp
    rw [Ddl.containsCommentsFrom.eq_def]
    simp only [hstart, if_true]
    rfl
  | hashComment => rfl
  | blockComment => rfl
  | identifier hquote hbody hnext =>
    have hddl : isDdlQuote c = true := by rw [isDdlQuote, ← isIdentifierQuote, hquote]; rfl
    rw [Ddl.containsCommentsFrom.eq_def]
    simp only [hddl, if_true]
    rw [hbody.containsCommentsFrom hnext, ddlPartKind]
    simp only [hquote, if_true]
    rfl
  | literal hbody hnext =>
    rw [Ddl.containsCommentsFrom.eq_def]
    exact hbody.containsCommentsFrom hnext
  | word hc =>
    obtain ⟨-, -, hquote, hdash, hhash, hslash⟩ := ne_of_identifierCharacter hc
    rw [containsCommentsFrom_symbol hquote (startsDdlComment_eq_false hhash hdash hslash),
      containsCommentsFrom_dropWhile]
    rw [isDdlQuote, Bool.or_eq_false_iff] at hquote
    simp only [ddlPartKind, isIdentifierQuote, hquote.1, hquote.2, Bool.false_eq_true, if_false]
    rfl
  | symbol hblank hquote hstart hword =>
    rw [containsCommentsFrom_symbol hquote hstart]
    rw [isDdlQuote, Bool.or_eq_false_iff] at hquote
    simp only [ddlPartKind, isIdentifierQuote, hquote.1, hquote.2, Bool.false_eq_true, if_false]
    rfl

/-! ## The tokens of a query -/

theorem startsDdlComment_eq_false_iff {c : Char} : startsDdlComment (c :: rest) = false ↔
    (c ≠ '#' ∧ isMysqlLineCommentText (c :: rest) = false) ∧
      (c == '/' && rest.head? == some '*') = false := by
  have hblock : "/*".toList.isPrefixOf (c :: rest) = (c == '/' && rest.head? == some '*') := by
    cases rest with
    | nil => simp [List.isPrefixOf]
    | cons d rest => simp [List.isPrefixOf, Bool.beq_comm (a := c), Bool.beq_comm (a := d)]
  rw [startsDdlComment, hblock, Bool.or_eq_false_iff, Bool.or_eq_false_iff]
  simp

theorem isIdentifierCharacter_eq_false_iff {c : Char} : isIdentifierCharacter c = false ↔
    (c.isAlpha = false ∧ c.isDigit = false) ∧ (c == '_') = false ∧ (c == '$') = false := by
  rw [isIdentifierCharacter, Char.isAlphanum, Bool.or_eq_false_iff, Bool.or_eq_false_iff,
    Bool.or_eq_false_iff, and_assoc]

/-- Away from words both tokenizers make the same step. -/
theorem ReadsStep.nextQueryToken {c : Char} {token : Option Text}
    (h : ReadsStep noEscapes c rest token next) (hword : isIdentifierCharacter c = false) :
    ∃ query, BinlogCdc.nextQueryToken noEscapes c rest = (query, next) ∧
      queryPartKind c query = ddlPartKind c token := by
  cases h with
  | blank hblank => exact ⟨none, by rw [BinlogCdc.nextQueryToken, if_pos hblank], rfl⟩
  | lineComment hline =>
    obtain ⟨rfl, -⟩ := eq_dash_of_isMysqlLineCommentText hline
    have hstart : isMysqlLineCommentStart '-' rest.head? (rest.drop 1).head? = true := hline
    refine ⟨none, ?_, rfl⟩
    rw [BinlogCdc.nextQueryToken, if_neg (by decide), if_neg (by decide), if_pos hstart]
    rfl
  | hashComment => exact ⟨none, rfl, rfl⟩
  | blockComment hsplit =>
    refine ⟨none, ?_, rfl⟩
    rw [← skipQueryBlockComment_of_splitOnce hsplit]
    rfl
  | @identifier _ body next value hquote hbody hnext hread =>
    obtain ⟨_, hvalue⟩ := hbody.quotedToken (ne_singleQuote_of_isIdentifierQuote hquote)
    refine ⟨some (.identifier value), ?_, ?_⟩
    · obtain ⟨hddl, hquery⟩ := hvalue next hnext
      rw [hddl] at hread
      cases hread
      rw [isIdentifierQuote, Bool.or_eq_true, beq_iff_eq, beq_iff_eq] at hquote
      rcases hquote with rfl | rfl <;>
        exact congrArg (fun read : Text × Text => (some (QueryToken.identifier read.1), read.2)) hquery
    · simp [queryPartKind, ddlPartKind, hquote]
  | literal hbody hnext =>
    refine ⟨some .string, ?_, by decide⟩
    exact congrArg (some QueryToken.string, ·) (hbody.skipQuotedString hnext).2
  | word hc => exact absurd hc (by simp [hword])
  | symbol hblank hquote hstart hplain =>
    rw [isDdlQuote, Bool.or_eq_false_iff] at hquote
    obtain ⟨⟨hhash, hline⟩, hblock⟩ := startsDdlComment_eq_false_iff.mp hstart
    have hline' : isMysqlLineCommentStart c next.head? (next.drop 1).head? = false := hline
    have hkind : ddlPartKind c (some [c]) = none := by
      simp only [ddlPartKind, isIdentifierQuote, hquote.1, hquote.2, Bool.false_eq_true, if_false]
    obtain ⟨⟨halpha, hdigit⟩, hunderscore, hdollar⟩ := isIdentifierCharacter_eq_false_iff.mp hplain
    refine ⟨some (if c == '.' then .dot else .other), ?_, ?_⟩
    · simp only [BinlogCdc.nextQueryToken, hblank, hline', hblock, hquote.1, hquote.2, halpha, hdigit,
        hunderscore, hdollar, Bool.false_eq_true, if_false, beq_false_of_ne hhash, Bool.or_self]
      by_cases hdot : c = '.' <;> simp [hdot]
    · rw [hkind]
      by_cases hdot : c = '.' <;> simp [hdot, queryPartKind]

theorem queryQuotedIdentifier_length (quote : Char) (text : Text) :
    (queryQuotedIdentifier quote text).2.length ≤ text.length := by
  fun_induction queryQuotedIdentifier quote text with
  | case1 => simp
  | case2 c hc next rest hnext value after hread ih =>
    rw [hread] at ih
    simp only [List.length_cons] at ih ⊢
    omega
  | case3 => simp
  | case4 => simp
  | case5 c rest hc value after hread ih =>
    rw [hread] at ih
    simp only [List.length_cons] at ih ⊢
    omega

theorem skipQueryString_length (escaped : Bool) (text : Text) :
    (skipQueryString noEscapes escaped text).length ≤ text.length := by
  fun_induction skipQueryString noEscapes escaped text <;> grind

theorem skipQueryBlockComment_length (text : Text) :
    (skipQueryBlockComment text).length ≤ text.length := by
  fun_induction skipQueryBlockComment text <;> grind

theorem nextQueryToken_length (c : Char) (rest : Text) :
    (nextQueryToken noEscapes c rest).2.length ≤ rest.length := by
  have hline : ∀ text : Text, (skipQueryLineComment text).length ≤ text.length :=
    fun text => (List.dropWhile_suffix _).length_le
  have hdrop : (rest.drop 1).length ≤ rest.length := by rw [List.length_drop]; omega
  unfold nextQueryToken
  split_ifs
  · exact Nat.le_refl _
  · exact hline rest
  · exact (hline _).trans hdrop
  · exact (skipQueryBlockComment_length _).trans hdrop
  · exact queryQuotedIdentifier_length c rest
  · exact skipQueryString_length false rest
  · exact Nat.le_refl _
  · exact (List.dropWhile_suffix _).length_le
  · exact (List.dropWhile_suffix _).length_le
  · exact Nat.le_refl _

theorem consumes_queryStep (noEscapes : Bool) : Core.Consumes (queryStep noEscapes) := by
  intro c rest result next h
  cases h
  exact nextQueryToken_length c rest

theorem isIdentifierQuote_of_identifierCharacter {c : Char} (h : isIdentifierCharacter c = true) :
    isIdentifierQuote c = false := by
  obtain ⟨-, -, hquote, -⟩ := ne_of_identifierCharacter h
  rw [isDdlQuote, Bool.or_eq_false_iff] at hquote
  exact hquote.1

theorem nextQueryToken_of_identifierCharacter {c : Char} (h : isIdentifierCharacter c = true)
    (rest : Text) : nextQueryToken noEscapes c rest =
      if c.isAlpha || c == '_' || c == '$' then
        (some (.identifier (c :: rest.takeWhile isIdentifierCharacter)),
          rest.dropWhile isIdentifierCharacter)
      else (some .number, rest.dropWhile isNumberCharacter) := by
  obtain ⟨hblank, -, hquote, hdash, hhash, hslash⟩ := ne_of_identifierCharacter h
  rw [isDdlQuote, Bool.or_eq_false_iff] at hquote
  have hdot : (c == '.') = false := by
    apply beq_false_of_ne
    rintro rfl
    exact absurd h (by decide)
  have hline : isMysqlLineCommentStart c rest.head? (rest.drop 1).head? = false := by
    simp [isMysqlLineCommentStart, hdash]
  rw [nextQueryToken]
  simp only [hblank, hline, hquote.1, hquote.2, hdot, beq_false_of_ne hhash, beq_false_of_ne hslash,
    Bool.false_and, Bool.false_eq_true, if_false]
  by_cases hword : (c.isAlpha || c == '_' || c == '$') = true
  · rw [if_pos hword, if_pos hword]
  · rw [if_neg hword, if_neg hword, if_pos]
    simp only [isIdentifierCharacter, Char.isAlphanum, Bool.or_eq_true, not_or] at h hword
    tauto

theorem dropWhile_isNumberCharacter (text : Text) :
    (text.dropWhile isNumberCharacter).dropWhile isIdentifierCharacter =
      text.dropWhile isIdentifierCharacter := by
  induction text with
  | nil => rfl
  | cons c text ih =>
    by_cases hnumber : isNumberCharacter c = true
    · have hword : isIdentifierCharacter c = true := by
        rw [isIdentifierCharacter, show (c.isAlphanum || c == '_') = true from hnumber]
        rfl
      rw [List.dropWhile_cons_of_pos hnumber, List.dropWhile_cons_of_pos hword, ih]
    · rw [List.dropWhile_cons_of_neg hnumber]

/-- The query tokenizer finds no part in a word. It may read a word that starts with a digit as a
number and a word. -/
theorem scan_queryStep_dropWhile (text : Text) :
    Core.scan (queryStep noEscapes) (text.dropWhile isIdentifierCharacter) =
      Core.scan (queryStep noEscapes) text := by
  induction hlength : text.length using Nat.strongRecOn generalizing text with
  | _ length ih =>
    cases text with
    | nil => rfl
    | cons c text =>
      by_cases hc : isIdentifierCharacter c = true
      · have hquiet : ∀ (token : QueryToken) (next : Text),
            nextQueryToken noEscapes c text = (some token, next) → queryPartKind c (some token) = none →
            Core.scan (queryStep noEscapes) (c :: text) = Core.scan (queryStep noEscapes) next := by
          intro token next hread hkind
          rw [Core.scan_cons (consumes_queryStep noEscapes) (show queryStep noEscapes c text =
            .ok (none, next) by rw [queryStep, hread]; simp only [hkind, Option.map_none])]
          cases Core.scan (queryStep noEscapes) next <;> rfl
        rw [List.dropWhile_cons_of_pos hc]
        have hread := @nextQueryToken_of_identifierCharacter noEscapes c hc text
        by_cases hword : (c.isAlpha || c == '_' || c == '$') = true
        · rw [if_pos hword] at hread
          rw [hquiet _ _ hread]
          simp [queryPartKind, isIdentifierQuote_of_identifierCharacter hc]
        · rw [if_neg hword] at hread
          have hshorter : (text.dropWhile isNumberCharacter).length < length := by
            rw [← hlength]
            exact Nat.lt_succ_of_le (List.dropWhile_suffix _).length_le
          rw [hquiet _ _ hread rfl, ← ih _ hshorter _ rfl, dropWhile_isNumberCharacter]
      · rw [List.dropWhile_cons_of_neg hc]

/-- A step at a character of a word passes the word. -/
theorem ReadsStep.word_of_identifierCharacter {c : Char} {token : Option Text}
    (h : ReadsStep noEscapes c rest token next) (hword : isIdentifierCharacter c = true) :
    next = rest.dropWhile isIdentifierCharacter ∧ ddlPartKind c token = none := by
  obtain ⟨hblank, -, hquote, hdash, -⟩ := ne_of_identifierCharacter hword
  rw [isDdlQuote, Bool.or_eq_false_iff] at hquote
  cases h with
  | blank h => exact absurd h (by simp [hblank])
  | lineComment h => exact absurd (eq_dash_of_isMysqlLineCommentText h).1 hdash
  | hashComment => exact absurd hword (by decide)
  | blockComment => exact absurd hword (by decide)
  | identifier h => exact absurd h (by rw [isIdentifierQuote, hquote.1]; simp)
  | literal => exact absurd hword (by decide)
  | word =>
    refine ⟨rfl, ?_⟩
    simp only [ddlPartKind, isIdentifierQuote, hquote.1, hquote.2, Bool.false_eq_true, if_false]
  | symbol _ _ _ h => exact absurd hword (by simp [h])

/-- The query tokenizer passes over the parts that the DDL tokenizer passes over. -/
theorem queryParts_of_ddlParts {sql : Text} {parts : List TextPart}
    (h : ddlParts noEscapes sql = .ok parts) : queryParts noEscapes sql = .ok parts := by
  refine ddl_induction (motive := fun text outs => queryParts noEscapes text = .ok outs) rfl ?_ h
  intro c rest token next outs _ hstep _ ih
  by_cases hword : isIdentifierCharacter c = true
  · obtain ⟨rfl, hkind⟩ := hstep.word_of_identifierCharacter hword
    rw [queryParts, ← scan_queryStep_dropWhile, List.dropWhile_cons_of_pos hword, hkind]
    exact ih
  · obtain ⟨query, hquery, hkind⟩ := hstep.nextQueryToken (by simpa using hword)
    rw [queryParts, Core.scan_cons (consumes_queryStep noEscapes) (show queryStep noEscapes c rest =
      .ok ((ddlPartKind c token).map fun kind => ⟨kind, rest.length + 1, next.length⟩, next) by
        rw [queryStep, hquery, ← hkind])]
    rw [queryParts] at ih
    rw [ih]
    rfl

/-! ## The removal of comments -/

variable {mode : Option Nat} {removed : Text}

/-- A line comment becomes a blank, before the rest from the end of its line on. -/
theorem removeCommentsFrom_comment {text : Text}
    (h : removeCommentsFrom mode .comment text = .ok removed) :
    ∃ after, removeCommentsFrom mode .plain (text.dropWhile (· != '\n')) = .ok after ∧
      removed = ' ' :: after ∧ after.dropWhile (· != '\n') = after := by
  induction text with
  | nil =>
    cases h
    exact ⟨[], rfl, rfl, rfl⟩
  | cons c text ih =>
    by_cases hc : c = '\n'
    · subst hc
      obtain ⟨result, hresult, h⟩ := bind_eq_ok.mp h
      cases h
      refine ⟨'\n' :: result, ?_, rfl, rfl⟩
      show removeCommentsFrom mode .plain ('\n' :: text) = _
      rw [removeCommentsFrom.eq_def]
      simp only [show isMysqlLineCommentText ('\n' :: text) = false from rfl]
      rw [hresult]
      rfl
    · rw [removeCommentsFrom.eq_def] at h
      simp only [show (c == '\n') = false by simpa using hc, Bool.false_eq_true, if_false] at h
      rw [List.dropWhile_cons_of_pos (by simpa using hc)]
      exact ih h

/-- The removal copies a character that is no quote and starts no comment. -/
theorem removeCommentsFrom_symbol {c : Char} (hquote : isDdlQuote c = false)
    (hstart : startsDdlComment (c :: rest) = false) :
    removeCommentsFrom mode .plain (c :: rest) =
      (removeCommentsFrom mode .plain rest).map (c :: ·) := by
  obtain ⟨⟨hhash, hline⟩, hblock⟩ := startsDdlComment_eq_false_iff.mp hstart
  simp only [isDdlQuote, Bool.or_eq_false_iff] at hquote
  obtain ⟨⟨hback, hdouble⟩, hsingle⟩ := hquote
  rw [removeCommentsFrom.eq_def]
  simp only [hback, hdouble, hsingle, beq_false_of_ne hhash, hblock, hline, Bool.or_self,
    Bool.false_eq_true, if_false]
  cases removeCommentsFrom mode .plain rest <;> rfl

/-- The text without its comments starts as the text, or with a blank for a line comment. -/
theorem head?_removed {text : Text} (h : removeCommentsFrom mode .plain text = .ok removed) :
    (isMysqlLineCommentText text = false ∧ removed.head? = text.head?) ∨
      (isMysqlLineCommentText text = true ∧ removed.head? = some ' ') := by
  cases text with
  | nil =>
    cases h
    exact .inl ⟨rfl, rfl⟩
  | cons c rest =>
    rw [removeCommentsFrom.eq_def] at h
    simp only at h
    split_ifs at h with hquote hrefused hblock hline
    · obtain ⟨result, -, h⟩ := bind_eq_ok.mp h
      cases h
      refine .inl ⟨?_, rfl⟩
      by_contra hline
      obtain ⟨rfl, -⟩ := eq_dash_of_isMysqlLineCommentText (by simpa using hline)
      exact absurd hquote (by decide)
    · obtain ⟨after, -, rfl, -⟩ := removeCommentsFrom_comment h
      exact .inr ⟨hline, rfl⟩
    · obtain ⟨result, -, h⟩ := bind_eq_ok.mp h
      cases h
      exact .inl ⟨by simpa using hline, rfl⟩

theorem removeCommentsFrom_word {c : Char} (hc : isIdentifierCharacter c = true)
    (h : removeCommentsFrom mode .plain (c :: rest) = .ok removed) :
    ∃ result, removeCommentsFrom mode .plain rest = .ok result ∧ removed = c :: result := by
  obtain ⟨-, -, hquote, hdash, hhash, hslash⟩ := ne_of_identifierCharacter hc
  rw [removeCommentsFrom_symbol hquote (startsDdlComment_eq_false hhash hdash hslash)] at h
  cases hresult : removeCommentsFrom mode .plain rest with
  | error failure => rw [hresult] at h; cases h
  | ok result =>
    rw [hresult] at h
    cases h
    exact ⟨result, rfl, rfl⟩

/-- The removal copies a word. -/
theorem removeCommentsFrom_takeWhile {text : Text}
    (h : removeCommentsFrom mode .plain text = .ok removed) :
    ∃ after, removeCommentsFrom mode .plain (text.dropWhile isIdentifierCharacter) = .ok after ∧
      removed.takeWhile isIdentifierCharacter = text.takeWhile isIdentifierCharacter ∧
      removed.dropWhile isIdentifierCharacter = after := by
  induction text generalizing removed with
  | nil =>
    cases h
    exact ⟨[], rfl, rfl, rfl⟩
  | cons c text ih =>
    by_cases hc : isIdentifierCharacter c = true
    · obtain ⟨result, hresult, rfl⟩ := removeCommentsFrom_word hc h
      obtain ⟨after, hafter, htake, hdrop⟩ := ih hresult
      refine ⟨after, ?_, ?_, ?_⟩
      · rwa [List.dropWhile_cons_of_pos hc]
      · rw [List.takeWhile_cons_of_pos hc, List.takeWhile_cons_of_pos hc, htake]
      · rwa [List.dropWhile_cons_of_pos hc]
    · have hhead : removed.takeWhile isIdentifierCharacter = [] ∧
          removed.dropWhile isIdentifierCharacter = removed := by
        rcases head?_removed h with ⟨-, hhead⟩ | ⟨-, hhead⟩
        · cases removed with
          | nil => exact ⟨rfl, rfl⟩
          | cons d removed =>
            obtain rfl : d = c := Option.some.inj hhead
            exact ⟨List.takeWhile_cons_of_neg hc, List.dropWhile_cons_of_neg hc⟩
        · cases removed with
          | nil => exact ⟨rfl, rfl⟩
          | cons d removed =>
            obtain rfl : d = ' ' := Option.some.inj hhead
            exact ⟨rfl, rfl⟩
      refine ⟨removed, ?_, ?_, hhead.2⟩
      · rwa [List.dropWhile_cons_of_neg hc]
      · rw [hhead.1, List.takeWhile_cons_of_neg hc]

theorem startsDashedComment_eq_true_iff {text : Text} : startsDashedComment text = true ↔
    ∃ more, text = '-' :: '-' :: more ∧ isMysqlLineCommentText more = true := by
  rw [startsDashedComment, Bool.and_eq_true]
  constructor
  · rintro ⟨hdashes, hline⟩
    obtain ⟨more, rfl⟩ := List.isPrefixOf_iff_prefix.mp hdashes
    exact ⟨more, rfl, hline⟩
  · rintro ⟨more, rfl, hline⟩
    exact ⟨by simp [List.isPrefixOf], hline⟩

/-- A line comment is not behind the dashes it starts with. -/
theorem startsDashedComment_of_isMysqlLineCommentText {text : Text}
    (h : isMysqlLineCommentText text = true) : startsDashedComment text = false := by
  by_contra hdashed
  obtain ⟨more, rfl, hmore⟩ := startsDashedComment_eq_true_iff.mp (by simpa using hdashed)
  cases more with
  | nil => cases hmore
  | cons c more =>
    obtain ⟨rfl, -⟩ := eq_dash_of_isMysqlLineCommentText hmore
    exact absurd h (by simp [isMysqlLineCommentText, isMysqlLineCommentStart]; decide)

theorem removeCommentsFrom_line {text : Text} (hline : isMysqlLineCommentText text = true)
    (h : removeCommentsFrom mode .plain text = .ok removed) :
    ∃ after, removeCommentsFrom mode .plain ((text.drop 2).dropWhile (· != '\n')) = .ok after ∧
      removed = ' ' :: after ∧ after.dropWhile (· != '\n') = after := by
  cases text with
  | nil => cases hline
  | cons c rest =>
    obtain ⟨rfl, hdash⟩ := eq_dash_of_isMysqlLineCommentText hline
    rw [removeCommentsFrom.eq_def] at h
    simp only [hline] at h
    cases rest with
    | nil => cases hdash
    | cons d rest =>
      obtain rfl : d = '-' := Option.some.inj hdash
      exact removeCommentsFrom_comment (show removeCommentsFrom mode .comment ('-' :: rest) = _ from h)

theorem head?_removed_ne {text : Text} {c : Char}
    (h : removeCommentsFrom mode .plain text = .ok removed) (hc : c ≠ ' ') (htext : text.head? ≠ some c) :
    removed.head? ≠ some c := by
  rcases head?_removed h with ⟨-, hhead⟩ | ⟨-, hhead⟩
  · rwa [hhead]
  · rw [hhead]
    exact fun h => hc (Option.some.inj h).symm

/-- Before a line comment only two dashes make another one. -/
theorem startsDdlComment_removed {c : Char} (hstart : startsDdlComment (c :: rest) = false)
    (hdashed : startsDashedComment (c :: rest) = false)
    (h : removeCommentsFrom mode .plain rest = .ok removed) :
    startsDdlComment (c :: removed) = false := by
  obtain ⟨⟨hhash, hline⟩, hblock⟩ := startsDdlComment_eq_false_iff.mp hstart
  refine startsDdlComment_eq_false_iff.mpr ⟨⟨hhash, ?_⟩, ?_⟩
  · by_contra hcomment
    obtain ⟨rfl, hdash⟩ := eq_dash_of_isMysqlLineCommentText (by simpa using hcomment)
    rcases head?_removed h with ⟨hrest, hhead⟩ | ⟨-, hhead⟩
    · obtain ⟨rest, rfl⟩ : ∃ more, rest = '-' :: more := by
        cases rest with
        | nil => rw [hdash] at hhead; cases hhead
        | cons d more => exact ⟨more, by rw [hdash] at hhead; rw [← Option.some.inj hhead]⟩
      rw [removeCommentsFrom_symbol rfl (startsDdlComment_eq_false_iff.mpr ⟨⟨by decide, hrest⟩, rfl⟩)] at h
      cases hafter : removeCommentsFrom mode .plain rest with
      | error failure => rw [hafter] at h; cases h
      | ok after =>
        rw [hafter] at h
        cases h
        rcases head?_removed hafter with ⟨-, hthird⟩ | ⟨hthird, -⟩
        · rw [isMysqlLineCommentText] at hline hcomment
          simp only [List.drop_succ_cons, List.drop_zero, hthird] at hcomment
          exact hcomment hline
        · rw [startsDashedComment_eq_true_iff.mpr ⟨rest, rfl, hthird⟩] at hdashed
          cases hdashed
    · rw [hdash] at hhead
      exact absurd hhead (by decide)
  · by_contra hopen
    rw [Bool.not_eq_false, Bool.and_eq_true, beq_iff_eq, beq_iff_eq] at hopen
    obtain ⟨rfl, hstar⟩ := hopen
    exact head?_removed_ne h (by decide) (by simpa using hblock) hstar

theorem tokenizeDdlStep_identifier {value : Text} (hquote : isIdentifierQuote quote = true)
    (h : quotedToken quote rest = .ok (value, next)) :
    tokenizeDdlStep noEscapes quote rest = .ok (some value, next) := by
  rw [isIdentifierQuote, Bool.or_eq_true, beq_iff_eq, beq_iff_eq] at hquote
  rcases hquote with rfl | rfl
  · show (quotedToken backQuote rest >>= fun read => pure (some read.1, read.2)) = _
    rw [h]
    rfl
  · show (quotedToken doubleQuote rest >>= fun read => pure (some read.1, read.2)) = _
    rw [h]
    rfl

theorem tokenizeDdlStep_identifierCharacter {c : Char} (h : isIdentifierCharacter c = true) :
    tokenizeDdlStep noEscapes c rest =
      .ok (some (c :: rest.takeWhile isIdentifierCharacter), rest.dropWhile isIdentifierCharacter) := by
  have hfacts := ne_of_identifierCharacter h
  have hquotes := ne_backQuote_of_identifierCharacter h
  simp [tokenizeDdlStep, hfacts, hquotes, h, isMysqlLineCommentStart]

theorem tokenizeDdlStep_of_symbol {c : Char} (hblank : isWhitespace c = false)
    (hquote : isDdlQuote c = false) (hstart : startsDdlComment (c :: rest) = false)
    (hword : isIdentifierCharacter c = false) :
    tokenizeDdlStep noEscapes c rest = .ok (some [c], rest) := by
  obtain ⟨⟨hhash, hline⟩, hblock⟩ := startsDdlComment_eq_false_iff.mp hstart
  rw [isMysqlLineCommentText] at hline
  rw [isDdlQuote, Bool.or_eq_false_iff] at hquote
  simp only [tokenizeDdlStep, hblank, hline, hblock, hquote.1, hquote.2, hword, beq_false_of_ne hhash,
    Bool.false_eq_true, if_false]

/-- Where no dashes stand before a comment, the text without its comments makes the same step. -/
theorem ReadsStep.kept {c : Char} {token : Option Text} (h : ReadsStep noEscapes c rest token next)
    (hmode : noBackslashEscapes mode = none ∨ noBackslashEscapes mode = some noEscapes)
    (hdashed : startsDashedComment (c :: rest) = false)
    (hremoved : removeCommentsFrom mode .plain (c :: rest) = .ok removed) :
    ∃ head tail after, removed = head :: tail ∧ removeCommentsFrom mode .plain next = .ok after ∧
      tokenizeDdlStep noEscapes head tail = .ok (token, after) ∧
      stepToken head token = stepToken c token := by
  cases h with
  | blank hblank =>
    obtain ⟨hquote, hhash, hdash, hslash, -⟩ := ne_of_isWhitespace hblank
    rw [removeCommentsFrom_symbol hquote (startsDdlComment_eq_false hhash hdash hslash)] at hremoved
    cases hafter : removeCommentsFrom mode .plain next with
    | error failure => rw [hafter] at hremoved; cases hremoved
    | ok after =>
      rw [hafter] at hremoved
      cases hremoved
      exact ⟨c, after, after, rfl, rfl, by rw [tokenizeDdlStep, if_pos hblank], rfl⟩
  | lineComment hline =>
    obtain ⟨after, hafter, rfl, -⟩ := removeCommentsFrom_line hline hremoved
    obtain ⟨rfl, -⟩ := eq_dash_of_isMysqlLineCommentText hline
    exact ⟨' ', after, after, rfl, hafter, rfl, rfl⟩
  | hashComment => cases hremoved
  | blockComment => cases hremoved
  | @identifier _ body next value hquote hbody hnext hread =>
    have hback : c = backQuote := by
      rw [isIdentifierQuote, Bool.or_eq_true, beq_iff_eq, beq_iff_eq] at hquote
      rcases hquote with rfl | rfl
      · rfl
      · cases hremoved
    subst hback
    obtain ⟨result, hresult, hremoved⟩ := bind_eq_ok.mp hremoved
    cases hremoved
    obtain ⟨after, hafter, rfl⟩ := hbody.removeCommentsFrom hmode hnext hresult
    obtain ⟨_, hvalue⟩ := hbody.quotedToken (by decide)
    have hsame := (hvalue next hnext).1.symm.trans hread
    cases hsame
    have hread' := (hvalue after (head?_removed_ne hafter (by decide) hnext)).1
    exact ⟨backQuote, body ++ after, after, rfl, hafter, tokenizeDdlStep_identifier rfl hread', rfl⟩
  | @literal body next hbody hnext =>
    obtain ⟨result, hresult, hremoved⟩ := bind_eq_ok.mp hremoved
    cases hremoved
    obtain ⟨after, hafter, rfl⟩ := hbody.removeCommentsFrom hmode hnext hresult
    have hread' := (hbody.skipQuotedString (head?_removed_ne hafter (by decide) hnext)).1
    refine ⟨singleQuote, body ++ after, after, rfl, hafter, ?_, rfl⟩
    show (do let rest ← Ddl.skipQuotedString noEscapes false (body ++ after); _) = _
    rw [hread']
    rfl
  | word hc =>
    obtain ⟨result, hresult, rfl⟩ := removeCommentsFrom_word hc hremoved
    obtain ⟨after, hafter, htake, rfl⟩ := removeCommentsFrom_takeWhile hresult
    refine ⟨c, result, _, rfl, hafter, ?_, rfl⟩
    rw [tokenizeDdlStep_identifierCharacter hc, htake]
  | symbol hblank hquote hstart hword =>
    rw [removeCommentsFrom_symbol hquote hstart] at hremoved
    cases hafter : removeCommentsFrom mode .plain next with
    | error failure => rw [hafter] at hremoved; cases hremoved
    | ok after =>
      rw [hafter] at hremoved
      cases hremoved
      refine ⟨c, after, after, rfl, rfl, ?_, rfl⟩
      exact tokenizeDdlStep_of_symbol hblank hquote (startsDdlComment_removed hstart hdashed hafter)
        hword

/-- A dash directly before a line comment is a token of its own. -/
theorem startsDdlComment_dash (hline : isMysqlLineCommentText rest = true) :
    startsDdlComment ('-' :: rest) = false := by
  refine startsDdlComment_eq_false_iff.mpr ⟨⟨by decide, ?_⟩, rfl⟩
  cases rest with
  | nil => cases hline
  | cons c rest =>
    obtain ⟨rfl, hdash⟩ := eq_dash_of_isMysqlLineCommentText hline
    simp only [isMysqlLineCommentText, isMysqlLineCommentStart, List.drop_succ_cons, List.drop_zero,
      hdash]
    rfl

theorem startsDdlComment_dashes (hline : isMysqlLineCommentText rest = true) :
    startsDdlComment ('-' :: '-' :: rest) = false := by
  refine startsDdlComment_eq_false_iff.mpr ⟨⟨by decide, ?_⟩, rfl⟩
  by_contra hcomment
  rw [Bool.not_eq_false] at hcomment
  have hdashed := startsDashedComment_of_isMysqlLineCommentText hcomment
  rw [startsDashedComment_eq_true_iff.mpr ⟨rest, rfl, hline⟩] at hdashed
  cases hdashed

/-- Two dashes before a comment are lost with it. -/
theorem exists_of_dashed (hline : isMysqlLineCommentText rest = true)
    (h : removeCommentsFrom mode .plain ('-' :: '-' :: rest) = .ok removed) :
    ∃ after, removed = '-' :: '-' :: ' ' :: after ∧
      removeCommentsFrom mode .plain ('-' :: rest) = .ok ('-' :: ' ' :: after) ∧
      tokenizeDdl removed noEscapes = tokenizeDdl after noEscapes := by
  have hstart := startsDdlComment_dashes hline
  have hsecond := @removeCommentsFrom_symbol rest mode '-' rfl (startsDdlComment_dash hline)
  rw [removeCommentsFrom_symbol rfl hstart, hsecond] at h
  cases hrest : removeCommentsFrom mode .plain rest with
  | error failure => rw [hrest] at h; cases h
  | ok result =>
    rw [hrest] at h hsecond
    cases h
    obtain ⟨after, -, rfl, hnewline⟩ := removeCommentsFrom_line hline hrest
    refine ⟨after, rfl, hsecond, ?_⟩
    have hstep : tokenizeDdlStep noEscapes '-' ('-' :: ' ' :: after) = .ok (none, after) := by
      show Except.ok (none, (' ' :: after).dropWhile (· != '\n')) = _
      rw [List.dropWhile_cons_of_pos (by decide), hnewline]
    rw [tokenizeDdl_cons hstep]
    cases tokenizeDdl after noEscapes <;> rfl

/-- The tokens of a text without its line comments: all of them, or fewer where two dashes stand
before a comment. -/
theorem tokenizeDdl_removed (hmode : noBackslashEscapes mode = none ∨
      noBackslashEscapes mode = some noEscapes) {tokens : List DdlToken} {sql : Text}
    (h : tokenizeDdl sql noEscapes = .ok tokens)
    (hremoved : removeCommentsFrom mode .plain sql = .ok removed) :
    ∃ kept, tokenizeDdl removed noEscapes = .ok kept ∧ kept.length ≤ tokens.length ∧
      (kept = tokens ↔ dashedComments noEscapes sql = .ok []) := by
  rw [tokenizeDdl_eq_scan] at h
  refine ddl_induction (motive := fun text tokens => ∀ removed,
    removeCommentsFrom mode .plain text = .ok removed → ∃ kept, tokenizeDdl removed noEscapes = .ok kept ∧
      kept.length ≤ tokens.length ∧ (kept = tokens ↔ dashedComments noEscapes text = .ok []))
    ?_ ?_ h removed hremoved
  · rintro _ ⟨⟩
    exact ⟨[], rfl, Nat.le_refl _, by simp [dashedComments, Core.scan_nil]⟩
  · intro c rest token next tokens hread hstep hscan ih removed hremoved
    obtain ⟨places, hplaces⟩ : ∃ places, dashedComments noEscapes next = .ok places :=
      exists_scan_of_tokenizeDdl ((tokenizeDdl_eq_scan next).trans hscan)
    have hdashedComments : dashedComments noEscapes (c :: rest) = .ok ((if startsDashedComment (c :: rest)
        then some (rest.length + 1) else none).toList ++ places) := by
      have hnext := hplaces
      rw [dashedComments] at hnext
      rw [dashedComments, scan_ddlStep_cons hread, hnext]
      rfl
    by_cases hdashed : startsDashedComment (c :: rest) = true
    · obtain ⟨more, hmore, hline⟩ := startsDashedComment_eq_true_iff.mp hdashed
      cases hmore
      obtain ⟨after, rfl, hsecond, htokens⟩ := exists_of_dashed hline hremoved
      have hstart : ∀ more : Text, startsDdlComment ('-' :: ' ' :: more) = false := fun _ => rfl
      rw [tokenizeDdlStep_of_symbol rfl rfl (startsDdlComment_dashes hline) rfl] at hread
      cases hread
      obtain ⟨kept, hkept, hlength, -⟩ := ih _ hsecond
      have hblank : tokenizeDdlStep noEscapes ' ' after = .ok (none, after) := rfl
      rw [tokenizeDdl_cons (tokenizeDdlStep_of_symbol rfl rfl (hstart after) rfl), tokenizeDdl_cons hblank]
        at hkept
      rw [htokens]
      cases hafter : tokenizeDdl after noEscapes with
      | error failure => rw [hafter] at hkept; cases hkept
      | ok rest =>
        rw [hafter] at hkept
        cases hkept
        have hshorter : rest.length + 1 ≤ tokens.length := by
          simpa [stepToken, Nat.add_comm] using hlength
        have hlonger : ((stepToken '-' (some ['-'])).toList ++ tokens).length = tokens.length + 1 := by
          simp [stepToken]
        refine ⟨rest, rfl, by omega, ?_⟩
        constructor
        · intro hsame
          rw [hsame, hlonger] at hshorter
          omega
        · intro hnone
          rw [hdashedComments, if_pos hdashed] at hnone
          cases hnone
    · rw [Bool.not_eq_true] at hdashed
      obtain ⟨head, tail, after, rfl, hafter, hstep', htoken⟩ := hstep.kept hmode hdashed hremoved
      obtain ⟨kept, hkept, hlength, hsame⟩ := ih after hafter
      refine ⟨(stepToken c token).toList ++ kept, ?_, ?_, ?_⟩
      · rw [tokenizeDdl_cons hstep', hkept, htoken]
        rfl
      · simpa using hlength
      · rw [List.append_cancel_left_eq, hsame, hdashedComments, hplaces, hdashed]
        rfl

/-! ## Leading comments -/

variable (hsilent : ∀ c rest next, tokenizeDdlStep noEscapes c rest = .ok (none, next) →
  out c rest none next = none)
include hsilent

theorem scan_silent {c : Char} (h : tokenizeDdlStep noEscapes c rest = .ok (none, next)) :
    Core.scan (ddlStep noEscapes out) (c :: rest) = Core.scan (ddlStep noEscapes out) next := by
  rw [scan_ddlStep_cons h, hsilent c rest next h]
  cases Core.scan (ddlStep noEscapes out) next <;> rfl

theorem scan_trimStart (text : Text) :
    Core.scan (ddlStep noEscapes out) (trimStart text) = Core.scan (ddlStep noEscapes out) text := by
  induction text with
  | nil => rfl
  | cons c text ih =>
    by_cases hc : isWhitespace c = true
    · have hstep : tokenizeDdlStep noEscapes c text = .ok (none, text) := by
        rw [tokenizeDdlStep, if_pos hc]
      rw [trimStart, List.dropWhile_cons_of_pos hc, scan_silent hsilent hstep]
      exact ih
    · rw [trimStart, List.dropWhile_cons_of_neg hc]

theorem scan_afterLineComment (text : Text) :
    Core.scan (ddlStep noEscapes out) (afterLineComment text) =
      Core.scan (ddlStep noEscapes out) (text.dropWhile (· != '\n')) := by
  rw [afterLineComment]
  cases hline : text.dropWhile (· != '\n') with
  | nil => rfl
  | cons c more =>
    have hc : c = '\n' := by
      have hhead := List.head_dropWhile_not (· != '\n') (l := text) (by simp [hline])
      simpa [hline] using hhead
    subst hc
    exact (@scan_silent _ more more _ _ hsilent '\n' rfl).symm

/-- The leading comments hold no token. -/
theorem scan_stripLeading {fuel : Nat} {sql stripped : Text}
    (h : stripLeadingOrdinaryFrom fuel sql = .ok stripped) :
    Core.scan (ddlStep noEscapes out) sql = Core.scan (ddlStep noEscapes out) stripped := by
  induction fuel generalizing sql with
  | zero => rw [Except.ok.inj h]
  | succ fuel ih =>
    rw [stripLeadingOrdinaryFrom] at h
    rw [← scan_trimStart hsilent sql]
    generalize trimStart sql = remaining at h ⊢
    split_ifs at h with hline hhash hblock
    · rw [← ih h, scan_afterLineComment hsilent]
      cases remaining with
      | nil => cases hline
      | cons c rest =>
        obtain ⟨rfl, hdash⟩ := eq_dash_of_isMysqlLineCommentText hline
        cases rest with
        | nil => cases hdash
        | cons d rest =>
          have hstart : isMysqlLineCommentStart '-' (d :: rest).head? ((d :: rest).drop 1).head? = true :=
            hline
          refine scan_silent hsilent ?_
          rw [tokenizeDdlStep, if_neg (by decide), if_pos hstart]
          rfl
    · rw [← ih h, scan_afterLineComment hsilent]
      cases remaining with
      | nil => cases hhash
      | cons c rest =>
        obtain rfl : c = '#' := by simpa using hhash
        exact scan_silent hsilent rfl
    · obtain ⟨after, hafter, h⟩ := bind_eq_ok.mp h
      rw [← ih h]
      rw [Bool.and_eq_true] at hblock
      obtain ⟨more, rfl⟩ := List.isPrefixOf_iff_prefix.mp hblock.1
      refine @scan_silent _ after ('*' :: more) _ _ hsilent '/' ?_
      show (afterBlockComment ('/' :: '*' :: more) >>= fun rest => pure (none, rest)) = _
      rw [show afterBlockComment ('/' :: '*' :: more) = .ok after from hafter]
      rfl
    · rw [Except.ok.inj h]

omit hsilent

/-! ## The agreement of the scanners -/

/-- Where a step puts out no token, no dashes stand before a comment. -/
theorem dashed_silent (c : Char) (rest next : Text)
    (h : tokenizeDdlStep noEscapes c rest = .ok (none, next)) :
    (if startsDashedComment (c :: rest) then some (rest.length + 1) else none) = none := by
  rw [if_neg]
  intro hdashed
  obtain ⟨more, hmore, hline⟩ := startsDashedComment_eq_true_iff.mp hdashed
  cases hmore
  rw [tokenizeDdlStep_of_symbol rfl rfl (startsDdlComment_dashes hline) rfl] at h
  cases h

/-- The search finds a comment exactly where the tokenizer skips one. -/
theorem ddlContainsComments_iff {sql : Text} {parts : List TextPart}
    (h : ddlParts noEscapes sql = .ok parts) :
    ddlContainsCommentsWithMode sql noEscapes = true ↔ ∃ part ∈ parts, part.kind = .comment := by
  refine ddl_induction (motive := fun text parts => containsCommentsFrom noEscapes none text = true ↔
    ∃ part ∈ parts, part.kind = .comment) (by simp [containsCommentsFrom]) ?_ h
  intro c rest token next parts _ hstep _ ih
  rw [hstep.containsCommentsFrom, Bool.or_eq_true, ih, beq_iff_eq]
  cases hkind : ddlPartKind c token with
  | none => simp
  | some kind => simp

/-- The four scanners on a text that the tokenizer reads. The search for comments and the tokenizer
of the queries always agree with it; the text without its ordinary comments has the same tokens
exactly if no two dashes stand outside quotes directly before a line comment. A mode that is not
known stands for both. -/
theorem scanners_agree_iff (sql : Text) (mode : Option Nat) (noEscapes : Bool)
    (hmode : noBackslashEscapes mode = none ∨ noBackslashEscapes mode = some noEscapes)
    (tokens : List DdlToken) (htokens : tokenizeDdl sql noEscapes = .ok tokens) :
    ∃ parts, ddlParts noEscapes sql = .ok parts ∧
      (ddlContainsCommentsWithMode sql noEscapes = true ↔ ∃ part ∈ parts, part.kind = .comment) ∧
      (∀ removed, removeOrdinaryCommentsWithMode sql mode = .ok removed →
        (tokenizeDdl removed noEscapes = .ok tokens ↔ dashedComments noEscapes sql = .ok [])) ∧
      queryParts noEscapes sql = .ok parts := by
  obtain ⟨parts, hparts⟩ : ∃ parts, ddlParts noEscapes sql = .ok parts :=
    exists_scan_of_tokenizeDdl htokens
  refine ⟨parts, hparts, ddlContainsComments_iff hparts, ?_, queryParts_of_ddlParts hparts⟩
  intro removed hremoved
  obtain ⟨stripped, hstripped, hremoved⟩ := bind_eq_ok.mp hremoved
  have hsame : tokenizeDdl stripped noEscapes = .ok tokens := by
    rw [← htokens, tokenizeDdl_eq_scan, tokenizeDdl_eq_scan]
    exact (scan_stripLeading (fun _ _ _ _ => rfl) hstripped).symm
  have hplaces : dashedComments noEscapes sql = dashedComments noEscapes stripped :=
    scan_stripLeading (fun c rest next h => dashed_silent c rest next h) hstripped
  obtain ⟨kept, hkept, -, hiff⟩ := tokenizeDdl_removed hmode hsame hremoved
  rw [hplaces, ← hiff, hkept]
  exact ⟨Except.ok.inj, congrArg Except.ok⟩

theorem scanners_agree_iff_lineComment :
    ∃ parts, ddlParts false "a -- b\nc".toList = .ok parts ∧
      (ddlContainsCommentsWithMode "a -- b\nc".toList false = true ↔
        ∃ part ∈ parts, part.kind = .comment) ∧
      (∀ removed, removeOrdinaryCommentsWithMode "a -- b\nc".toList (some 0) = .ok removed →
        (tokenizeDdl removed false = .ok [⟨"a".toList, false⟩, ⟨"c".toList, false⟩] ↔
          dashedComments false "a -- b\nc".toList = .ok [])) ∧
      queryParts false "a -- b\nc".toList = .ok parts :=
  scanners_agree_iff "a -- b\nc".toList (some 0) false (.inr rfl)
    [⟨"a".toList, false⟩, ⟨"c".toList, false⟩] (by decide +kernel)

/-- A default of one minus minus two loses both signs. -/
theorem removeOrdinaryComments_loses_dashes :
    tokenizeDdl "DEFAULT (1---- one\n2)".toList false =
        .ok (["DEFAULT", "(", "1", "-", "-", "2", ")"].map fun text => ⟨text.toList, false⟩) ∧
      removeOrdinaryCommentsWithMode "DEFAULT (1---- one\n2)".toList (some 0) =
        .ok "DEFAULT (1-- \n2)".toList ∧
      tokenizeDdl "DEFAULT (1-- \n2)".toList false =
        .ok (["DEFAULT", "(", "1", "2", ")"].map fun text => ⟨text.toList, false⟩) := by
  decide +kernel

end Ddl

end BinlogCdc
