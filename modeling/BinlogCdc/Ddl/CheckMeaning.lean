import BinlogCdc.Ddl.CheckReading
import BinlogCdc.Ddl.Lexeme
import BinlogCdc.Ddl.TypeReading

/-!
# Reported CHECK clauses keep their meaning

The canonical value of a clause is that of the one predicate that the clause denotes, so that clauses
with equal values denote the same predicate. What the renderer writes for a parsed CHECK denotes a
predicate with the truth values of the parsed one, and so does every clause that differs from it by
parentheses around predicates, by the introducers of literals, and by the name of the length.
-/

namespace BinlogCdc

namespace Ddl

open Text

/-! ## Canonical values -/

theorem ofList_inj {left right : Text} :
    String.ofList left = String.ofList right ↔ left = right := by
  constructor
  · intro h
    rw [← String.toList_ofList (l := left), h, String.toList_ofList]
  · exact congrArg String.ofList

/-- Predicates with one value are the same. -/
theorem canonicalPredicate_injective : Function.Injective canonicalPredicate := by
  intro predicate
  induction predicate with
  | and left right ihleft ihright =>
    intro other h
    cases other <;> simp [canonicalPredicate] at h
    rw [ihleft h.1, ihright h.2]
  | or left right ihleft ihright =>
    intro other h
    cases other <;> simp [canonicalPredicate] at h
    rw [ihleft h.1, ihright h.2]
  | booleanEquals left right ihleft ihright =>
    intro other h
    cases other <;> simp [canonicalPredicate] at h
    rw [ihleft h.1, ihright h.2]
  | inStrings column values =>
    intro other h
    cases other <;> simp [canonicalPredicate, ofList_inj] at h
    obtain ⟨hcolumn, hvalues⟩ := h
    have hinjective : Function.Injective String.ofList := fun _ _ => ofList_inj.mp
    rw [hcolumn, List.map_injective_iff.mpr hinjective hvalues]
  | _ =>
    intro other h
    cases other <;> simp_all [canonicalPredicate, ofList_inj]

/-! ## Denotations -/

/-- The predicate that a reported clause denotes: its tokens, with the introducers left out and the
length under its source name, spell the predicate. -/
structure Denotes (clause : Text) (predicate : CheckPredicate) : Prop where
  uncommented : ddlContainsCommentsWithMode (unescapedClause clause) false = false
  spelled : ∃ tokens head consumed literals closing,
    tokenizeDdl (metadataCheck (unescapedClause clause)) false = .ok tokens ∧
      normalizeMetadataTokens tokens = .ok (head ++ (consumed ++ [closing])) ∧
      extractSingleQuotedLiteralsWithMode (unescapedClause clause) (some 0) = .ok literals ∧
      (∃ name, SpelledHead name head) ∧ Keyword ")" closing ∧
      Spelled .disjunction predicate consumed literals

section Denotations

variable {clause : Text} {predicate : CheckPredicate}

theorem denotes_of_metadataPredicate (h : metadataPredicate clause = .ok predicate) :
    Denotes clause predicate := by
  unfold metadataPredicate at h
  dsimp only at h
  obtain ⟨_, hcomments, h⟩ := bind_eq_ok.mp h
  obtain ⟨tokens, htokens, h⟩ := bind_eq_ok.mp h
  obtain ⟨normalized, hnormalized, h⟩ := bind_eq_ok.mp h
  obtain ⟨literals, hliterals, h⟩ := bind_eq_ok.mp h
  obtain ⟨⟨constraint, rest, left⟩, hparsed, h⟩ := bind_eq_ok.mp h
  obtain ⟨_, hend, h⟩ := bind_eq_ok.mp h
  obtain ⟨head, consumed, read, closing, hhead, hspelled, hclosing, hsplit, hread⟩ :=
    parseNamedCheck_ok hparsed
  rw [refuseIf_eq_ok] at hcomments hend
  rw [Bool.or_eq_false_iff, Bool.not_eq_false', Bool.not_eq_false', List.isEmpty_iff,
    List.isEmpty_iff] at hend
  obtain ⟨rfl, rfl⟩ := hend
  cases hdisjuncts : constraint.disjuncts with
  | nil =>
    dsimp only at h
    rw [hdisjuncts] at h
    cases h
  | cons first disjuncts =>
    dsimp only at h
    rw [hdisjuncts] at h hspelled
    obtain rfl := Except.ok.inj h
    rw [List.append_nil] at hread
    obtain rfl := hread
    exact ⟨hcomments, tokens, head, consumed, literals, closing, htokens, hsplit ▸ hnormalized,
      hliterals, ⟨_, hhead⟩, hclosing, hspelled.disjunction⟩

/-- A clause is read as the predicate that it denotes. -/
theorem metadataPredicate_eq_ok :
    metadataPredicate clause = .ok predicate ↔ Denotes clause predicate := by
  constructor
  · exact denotes_of_metadataPredicate
  · rintro ⟨huncommented, tokens, head, consumed, literals, closing, htokens, hnormalized, hliterals,
      ⟨name, hhead⟩, hclosing, hspelled⟩
    obtain ⟨first, disjuncts, hdisjuncts, rfl⟩ := hspelled.disjuncts
    have hparsed : parseNamedCheck (head ++ (consumed ++ [closing])) literals =
        .ok (⟨name, first :: disjuncts⟩, [], []) := by
      rw [← List.append_nil literals]
      exact parseNamedCheck_spelled hhead hdisjuncts hclosing
    unfold metadataPredicate
    dsimp only
    rw [huncommented, refuseIf, if_neg (by simp), ok_bind, htokens, ok_bind, hnormalized, ok_bind,
      hliterals, ok_bind, hparsed]
    rfl

end Denotations

/-! ## Respellings -/

/-- What the parser accepts in a predicate. -/
def CheckPredicate.WellFormed : CheckPredicate → Prop
  | .isNull column => isIdentifier column = true
  | .jsonValid column => isIdentifier column = true
  | .octetLengthAtMost column limit => isIdentifier column = true ∧ 0 < limit ∧ limit < 2 ^ 64
  | .inStrings column values =>
    isIdentifier column = true ∧ values ≠ [] ∧ ∀ value ∈ values, isWordLiteral value = true
  | .stringEquals column value => isIdentifier column = true ∧ isWordLiteral value = true
  | .and left right => left.WellFormed ∧ right.WellFormed
  | .or left right => left.WellFormed ∧ right.WellFormed
  | .booleanEquals left right =>
    isModeledEquality left right = true ∧ left.WellFormed ∧ right.WellFormed

/-- A rendered predicate, with any further parentheses around it and around the predicates in it. -/
inductive Respelled : CheckPredicate → List DdlToken → List Text → Prop
  | atom {predicate : CheckPredicate} {tokens : List DdlToken} {literals : List Text}
      (h : SpelledAtom predicate tokens literals) : Respelled predicate tokens literals
  | parentheses {predicate : CheckPredicate} {opening closing : DdlToken}
      {tokens : List DdlToken} {literals : List Text} (hopening : Keyword "(" opening)
      (h : Respelled predicate tokens literals) (hclosing : Keyword ")" closing) :
      Respelled predicate (opening :: (tokens ++ [closing])) literals
  | and {left right : CheckPredicate} {opening closing keyword opening' closing' : DdlToken}
      {leftTokens rightTokens : List DdlToken} {leftLiterals rightLiterals : List Text}
      (hopening : Keyword "(" opening) (hleft : Respelled left leftTokens leftLiterals)
      (hclosing : Keyword ")" closing) (hand : Keyword "AND" keyword)
      (hopening' : Keyword "(" opening') (hright : Respelled right rightTokens rightLiterals)
      (hclosing' : Keyword ")" closing') :
      Respelled (.and left right)
        (opening :: (leftTokens ++ [closing]) ++ keyword :: opening' :: (rightTokens ++ [closing']))
        (leftLiterals ++ rightLiterals)
  | or {left right : CheckPredicate} {opening closing keyword opening' closing' : DdlToken}
      {leftTokens rightTokens : List DdlToken} {leftLiterals rightLiterals : List Text}
      (hopening : Keyword "(" opening) (hleft : Respelled left leftTokens leftLiterals)
      (hclosing : Keyword ")" closing) (hor : Keyword "OR" keyword)
      (hopening' : Keyword "(" opening') (hright : Respelled right rightTokens rightLiterals)
      (hclosing' : Keyword ")" closing') :
      Respelled (.or left right)
        (opening :: (leftTokens ++ [closing]) ++ keyword :: opening' :: (rightTokens ++ [closing']))
        (leftLiterals ++ rightLiterals)
  | booleanEquals {left right : CheckPredicate}
      {opening closing keyword opening' closing' : DdlToken}
      {leftTokens rightTokens : List DdlToken} {leftLiterals rightLiterals : List Text}
      (hopening : Keyword "(" opening) (hleft : Respelled left leftTokens leftLiterals)
      (hclosing : Keyword ")" closing) (hequals : Keyword "=" keyword)
      (hopening' : Keyword "(" opening') (hright : Respelled right rightTokens rightLiterals)
      (hclosing' : Keyword ")" closing') :
      Respelled (.booleanEquals left right)
        (opening :: (leftTokens ++ [closing]) ++ keyword :: opening' :: (rightTokens ++ [closing']))
        (leftLiterals ++ rightLiterals)

/-- Rendered disjuncts with OR between them. -/
inductive RespelledDisjuncts : List CheckPredicate → List DdlToken → List Text → Prop
  | single {predicate : CheckPredicate} {tokens : List DdlToken} {literals : List Text}
      (h : Respelled predicate tokens literals) : RespelledDisjuncts [predicate] tokens literals
  | cons {predicate : CheckPredicate} {predicates : List CheckPredicate} {keyword : DdlToken}
      {tokens restTokens : List DdlToken} {literals restLiterals : List Text}
      (h : Respelled predicate tokens literals) (hor : Keyword "OR" keyword)
      (hrest : RespelledDisjuncts predicates restTokens restLiterals) :
      RespelledDisjuncts (predicate :: predicates) (tokens ++ keyword :: restTokens)
        (literals ++ restLiterals)

/-- The rendered disjunction in any number of parentheses. -/
inductive RespelledExpression (predicates : List CheckPredicate) :
    List DdlToken → List Text → Prop
  | disjuncts {tokens : List DdlToken} {literals : List Text}
      (h : RespelledDisjuncts predicates tokens literals) :
      RespelledExpression predicates tokens literals
  | parentheses {opening closing : DdlToken} {tokens : List DdlToken} {literals : List Text}
      (hopening : Keyword "(" opening) (h : RespelledExpression predicates tokens literals)
      (hclosing : Keyword ")" closing) :
      RespelledExpression predicates (opening :: (tokens ++ [closing])) literals

/-- Source tokens as they are reported: an introducer before some literals, and the other name of the
length in bytes. -/
inductive Introduced : List DdlToken → List DdlToken → Prop
  | nil : Introduced [] []
  | keep {token : DdlToken} {tokens reported : List DdlToken} (hintroducer : ¬ Keyword "_utf8mb4" token)
      (hlength : ¬ Keyword "LENGTH" token) (h : Introduced tokens reported) :
      Introduced (token :: tokens) (token :: reported)
  | introducer {introducer string : DdlToken} {tokens reported : List DdlToken}
      (hintroducer : Keyword "_utf8mb4" introducer) (hstring : Keyword "<string>" string)
      (h : Introduced tokens reported) :
      Introduced (string :: tokens) (introducer :: string :: reported)
  | length {function opening : DdlToken} {tokens reported : List DdlToken}
      (hfunction : Keyword "LENGTH" function) (hopening : Keyword "(" opening)
      (h : Introduced tokens reported) :
      Introduced (⟨"OCTET_LENGTH".toList, false⟩ :: opening :: tokens)
        (function :: opening :: reported)

section Respellings

variable {tokens restTokens : List DdlToken} {literals restLiterals : List Text}
  {predicate left right : CheckPredicate} {predicates : List CheckPredicate}

theorem SpelledStrings.wellFormed {values : List Text} (h : SpelledStrings values tokens) :
    values ≠ [] ∧ ∀ value ∈ values, isWordLiteral value = true := by
  induction h with
  | single _ hvalue => exact ⟨by simp, List.forall_mem_singleton.mpr hvalue⟩
  | cons _ _ hvalue _ ih => exact ⟨by simp, List.forall_mem_cons.mpr ⟨hvalue, ih.2⟩⟩

theorem SpelledAtom.wellFormed (h : SpelledAtom predicate tokens literals) :
    predicate.WellFormed := by
  cases h with
  | isNull hcolumn => exact hcolumn.identifier
  | stringEquals hcolumn _ _ hvalue => exact ⟨hcolumn.identifier, hvalue⟩
  | inStrings hcolumn _ _ hstrings => exact ⟨hcolumn.identifier, hstrings.wellFormed⟩
  | jsonValid _ _ hargument => exact isIdentifier_of_spelledArgument hargument
  | octetLength _ _ hargument _ _ _ hpositive hlimit =>
    exact ⟨isIdentifier_of_spelledArgument hargument, hpositive, hlimit⟩

theorem Spelled.wellFormed {level : CheckLevel} (h : Spelled level predicate tokens literals) :
    predicate.WellFormed := by
  induction h with
  | atom h => exact h.wellFormed
  | equality _ _ _ _ _ hmodeled ihleft ihright => exact ⟨hmodeled, ihleft, ihright⟩
  | and _ _ _ ihleft ihright => exact ⟨ihleft, ihright⟩
  | or _ _ _ ihleft ihright => exact ⟨ihleft, ihright⟩
  | parentheses _ _ _ ih => exact ih
  | operand _ ih => exact ih
  | term _ ih => exact ih
  | conjunction _ ih => exact ih

theorem SpelledDisjuncts.wellFormed (h : SpelledDisjuncts predicates tokens literals) :
    predicates ≠ [] ∧ ∀ predicate ∈ predicates, predicate.WellFormed := by
  induction h with
  | single h => exact ⟨by simp, List.forall_mem_singleton.mpr h.wellFormed⟩
  | cons h _ _ ih => exact ⟨by simp, List.forall_mem_cons.mpr ⟨h.wellFormed, ih.2⟩⟩

/-- An operand is a disjunction too. -/
theorem Spelled.disjunction_of_operand (h : Spelled .operand predicate tokens literals) :
    Spelled .disjunction predicate tokens literals := .conjunction (.term (.operand h))

/-- A respelled predicate spells the predicate. -/
theorem Respelled.spelled (h : Respelled predicate tokens literals)
    (hwell : predicate.WellFormed) : Spelled .disjunction predicate tokens literals := by
  induction h with
  | atom h => exact (Spelled.atom h).disjunction_of_operand
  | parentheses hopening _ hclosing ih =>
    exact (Spelled.parentheses hopening (ih hwell) hclosing).disjunction_of_operand
  | and hopening _ hclosing hand hopening' _ hclosing' ihleft ihright =>
    have hleft := Spelled.parentheses hopening (ihleft hwell.1) hclosing
    have hright := Spelled.parentheses hopening' (ihright hwell.2) hclosing'
    exact .conjunction (.and (.term (.operand hleft)) hand (.operand hright))
  | or hopening _ hclosing hor hopening' _ hclosing' ihleft ihright =>
    have hleft := Spelled.parentheses hopening (ihleft hwell.1) hclosing
    have hright := Spelled.parentheses hopening' (ihright hwell.2) hclosing'
    exact .or hleft.disjunction_of_operand hor (.term (.operand hright))
  | booleanEquals hopening _ hclosing hequals hopening' _ hclosing' ihleft ihright =>
    have hleft := Spelled.parentheses hopening (ihleft hwell.2.1) hclosing
    have hright := Spelled.parentheses hopening' (ihright hwell.2.2) hclosing'
    exact .conjunction (.term (.equality hleft hopening.startsWith hequals hright
      hopening'.startsWith hwell.1))

theorem ternaryOr_false (value : Option Bool) : ternaryOr value (some false) = value := by
  rcases value with _ | _ | _ <;> rfl

/-- Two disjunctions are one, with the same value. -/
theorem Spelled.or_append {keyword : DdlToken} (hleft : Spelled .disjunction left tokens literals)
    (hor : Keyword "OR" keyword) (hright : Spelled .disjunction right restTokens restLiterals) :
    ∃ whole, Spelled .disjunction whole (tokens ++ keyword :: restTokens)
      (literals ++ restLiterals) ∧
      ∀ row, whole.eval row = ternaryOr (left.eval row) (right.eval row) := by
  generalize hlevel : CheckLevel.disjunction = level at hright
  induction hright with
  | conjunction h => exact ⟨_, .or hleft hor h, fun _ => rfl⟩
  | or _ hor' hlast ih =>
    obtain ⟨whole, hwhole, hvalue⟩ := ih rfl
    have hspelled := Spelled.or hwhole hor' hlast
    rw [List.append_assoc, List.append_assoc] at hspelled
    refine ⟨_, hspelled, ?_⟩
    intro row
    change ternaryOr (CheckPredicate.eval row whole) _ = _
    rw [hvalue]
    exact ternaryOr_assoc _ _ _
  | _ => cases hlevel

/-- Respelled disjuncts spell a predicate with their value. -/
theorem RespelledDisjuncts.spelled (h : RespelledDisjuncts predicates tokens literals)
    (hwell : ∀ predicate ∈ predicates, predicate.WellFormed) :
    ∃ whole, Spelled .disjunction whole tokens literals ∧
      ∀ row, whole.eval row = evalDisjuncts row predicates := by
  induction h with
  | single h =>
    refine ⟨_, h.spelled (hwell _ List.mem_cons_self), ?_⟩
    intro row
    exact (ternaryOr_false _).symm
  | cons h hor _ ih =>
    rw [List.forall_mem_cons] at hwell
    obtain ⟨rest, hrest, hrestValue⟩ := ih hwell.2
    obtain ⟨whole, hwhole, hvalue⟩ := (h.spelled hwell.1).or_append hor hrest
    refine ⟨whole, hwhole, ?_⟩
    intro row
    rw [hvalue, hrestValue]
    rfl

theorem RespelledExpression.spelled (h : RespelledExpression predicates tokens literals)
    (hwell : ∀ predicate ∈ predicates, predicate.WellFormed) :
    ∃ whole, Spelled .disjunction whole tokens literals ∧
      ∀ row, whole.eval row = evalDisjuncts row predicates := by
  induction h with
  | disjuncts h => exact h.spelled hwell
  | parentheses hopening _ hclosing ih =>
    obtain ⟨whole, hwhole, hvalue⟩ := ih
    exact ⟨whole, (Spelled.parentheses hopening hwhole hclosing).disjunction_of_operand, hvalue⟩

/-- A token that is reported as it is. -/
theorem normalizeMetadataTokens_cons {token : DdlToken} (hintroducer : ¬ Keyword "_utf8mb4" token)
    (hlength : ¬ Keyword "LENGTH" token) {rest normalized : List DdlToken}
    (h : normalizeMetadataTokens rest = .ok normalized) :
    normalizeMetadataTokens (token :: rest) = .ok (token :: normalized) := by
  rw [normalizeMetadataTokens, if_neg, h, ok_bind, if_neg]
  · rfl
  · intro hlong
    rw [Bool.and_eq_true, Bool.and_eq_true, Bool.not_eq_true'] at hlong
    exact hlength ⟨hlong.2.1, hlong.1⟩
  · intro hintroduced
    rw [Bool.and_eq_true, Bool.not_eq_true'] at hintroduced
    exact hintroducer ⟨hintroduced.1, hintroduced.2⟩

/-- Reported tokens are normalized to the source tokens. -/
theorem Introduced.normalize {reported rest normalized : List DdlToken}
    (h : Introduced tokens reported) (hrest : normalizeMetadataTokens rest = .ok normalized) :
    normalizeMetadataTokens (reported ++ rest) = .ok (tokens ++ normalized) := by
  induction h with
  | nil => exact hrest
  | keep hintroducer hlength _ ih => exact normalizeMetadataTokens_cons hintroducer hlength ih
  | @introducer introducer string tokens reported hintroducer hstring _ ih =>
    have hnext : normalizeMetadataTokens (string :: (reported ++ rest)) =
        .ok (string :: (tokens ++ normalized)) :=
      normalizeMetadataTokens_cons (hstring.not_other (by decide)) (hstring.not_other (by decide)) ih
    rw [List.cons_append, List.cons_append, normalizeMetadataTokens, if_pos,
      requireUnquotedKeyword_cons hstring, ok_bind, hnext]
    · rfl
    · rw [hintroducer.text, hintroducer.quoted]
      rfl
  | @length function opening tokens reported hfunction hopening _ ih =>
    have hnext : normalizeMetadataTokens (opening :: (reported ++ rest)) =
        .ok (opening :: (tokens ++ normalized)) :=
      normalizeMetadataTokens_cons (hopening.not_other (by decide)) (hopening.not_other (by decide)) ih
    rw [List.cons_append, List.cons_append, normalizeMetadataTokens, if_neg, hnext, ok_bind, if_pos]
    · rfl
    · have hparenthesis : tokensMatch (opening :: (reported ++ rest)) 0 "(" = true := hopening.text
      rw [hfunction.text, hfunction.quoted, hparenthesis]
      rfl
    · intro hintroduced
      rw [Bool.and_eq_true, Bool.not_eq_true'] at hintroduced
      exact hfunction.not_other (by decide) ⟨hintroduced.1, hintroduced.2⟩

end Respellings

/-! ## Reported clauses -/

/-- A clause that reports a CHECK: its disjuncts, respelled, with introducers, and with its quotes
escaped or not. -/
def Reports (clause : Text) (constraint : ParsedCheckConstraintAst) : Prop :=
  ∃ tokens literals lexemes, RespelledExpression constraint.disjuncts tokens literals ∧
    Introduced tokens (lexemesTokens lexemes) ∧ lexemesLiterals lexemes = literals ∧
    Spells lexemes (unescapedClause clause)

/-- The lexemes of the words before a clause. -/
def headLexemes : List Lexeme :=
  [.word "CONSTRAINT".toList, .blank, .word "metadata_check".toList, .blank, .word "CHECK".toList,
    .blank]

theorem spells_headLexemes : Spells headLexemes "CONSTRAINT metadata_check CHECK ".toList where
  wellFormed := by
    have hwords : ∀ text ∈ ["CONSTRAINT", "metadata_check", "CHECK"].map (·.toList),
        text ≠ [] ∧ ∀ c ∈ text, isIdentifierCharacter c = true := by
      decide
    simp only [headLexemes, List.forall_mem_cons, Lexeme.WellFormed]
    refine ⟨hwords _ (by simp), trivial, hwords _ (by simp), trivial, hwords _ (by simp), trivial, ?_⟩
    intro _ hmem
    cases hmem
  separated := ⟨rfl, rfl, rfl, rfl, rfl, rfl, trivial⟩
  text_eq := rfl

theorem wellFormed_symbol {c : Char} (h : c ∈ symbolCharacters) : (Lexeme.symbol c).WellFormed := h

/-- A parenthesis after a text. -/
theorem spells_closed {lexemes : List Lexeme} {text : Text} (h : Spells lexemes text) :
    Spells (lexemes ++ [.symbol ')']) (text ++ [')']) := by
  have hclosing : Spells [.symbol ')'] [')'] := .single (wellFormed_symbol (by decide)) rfl
  apply h.append hclosing
  intro lexeme hhead
  obtain rfl := Option.some.inj hhead
  rfl

theorem opened_text (front head clause : Text) (h : front = head ++ ['(']) :
    front ++ clause ++ [')'] = head ++ (['('] ++ (clause ++ [')'])) := by
  rw [h, List.append_assoc, List.append_assoc]

theorem spells_metadataCheck {lexemes : List Lexeme} {clause : Text} (h : Spells lexemes clause) :
    Spells (headLexemes ++ .symbol '(' :: (lexemes ++ [.symbol ')'])) (metadataCheck clause) := by
  have hspells : Spells (headLexemes ++ .symbol '(' :: (lexemes ++ [.symbol ')']))
      ("CONSTRAINT metadata_check CHECK ".toList ++ (['('] ++ (clause ++ [')']))) :=
    Spells.join rfl (wellFormed_symbol (by decide)) spells_headLexemes (spells_closed h)
  unfold metadataCheck
  rw [opened_text _ "CONSTRAINT metadata_check CHECK ".toList clause (by decide +kernel)]
  exact hspells

/-- The tokens before a clause are reported as they are. -/
theorem introduced_head {tokens reported : List DdlToken} (h : Introduced tokens reported) :
    Introduced (lexemesTokens headLexemes ++ ⟨['('], false⟩ :: tokens)
      (lexemesTokens headLexemes ++ ⟨['('], false⟩ :: reported) := by
  have hkept : ∀ token ∈ lexemesTokens headLexemes ++ [⟨['('], false⟩],
      ¬ Keyword "_utf8mb4" token ∧ ¬ Keyword "LENGTH" token := by
    intro token hmem
    have htext : eqIgnoreAsciiCase token.text "_utf8mb4".toList = false ∧
        eqIgnoreAsciiCase token.text "LENGTH".toList = false := by
      revert token
      decide
    refine ⟨fun hkeyword => ?_, fun hkeyword => ?_⟩
    · exact Bool.eq_false_iff.mp htext.1 hkeyword.text
    · exact Bool.eq_false_iff.mp htext.2 hkeyword.text
  have hsplit : ∀ rest : List DdlToken, lexemesTokens headLexemes ++ ⟨['('], false⟩ :: rest =
      (lexemesTokens headLexemes ++ [⟨['('], false⟩]) ++ rest :=
    fun rest => List.append_cons _ _ rest
  rw [hsplit tokens, hsplit reported]
  generalize lexemesTokens headLexemes ++ [⟨['('], false⟩] = kept at hkept
  induction kept with
  | nil => exact h
  | cons token kept ih =>
    rw [List.forall_mem_cons] at hkept
    exact .keep hkept.1.1 hkept.1.2 (ih hkept.2)

theorem spelledHead_metadataCheck :
    SpelledHead "metadata_check".toList (lexemesTokens headLexemes ++ [⟨['('], false⟩]) where
  tokens := ⟨_, _, _, _, rfl, ⟨by decide, rfl⟩, rfl, ⟨by decide, rfl⟩, ⟨by decide, rfl⟩⟩
  identifier := by decide

/-- A reported clause denotes a predicate with the value of the CHECK. -/
theorem Reports.denotes {clause : Text} {constraint : ParsedCheckConstraintAst}
    (h : Reports clause constraint)
    (hwell : ∀ predicate ∈ constraint.disjuncts, predicate.WellFormed) :
    ∃ predicate, Denotes clause predicate ∧
      ∀ row, predicate.eval row = evalDisjuncts row constraint.disjuncts := by
  obtain ⟨tokens, literals, lexemes, hrespelled, hintroduced, hliterals, hspells⟩ := h
  obtain ⟨predicate, hspelled, hvalue⟩ := hrespelled.spelled hwell
  refine ⟨predicate, ⟨hspells.ddlContainsComments, ?_⟩, hvalue⟩
  have hend : normalizeMetadataTokens [⟨[')'], false⟩] = .ok [⟨[')'], false⟩] := rfl
  have hnormalized := (introduced_head hintroduced).normalize hend
  refine ⟨_, _, tokens, literals, ⟨[')'], false⟩, (spells_metadataCheck hspells).tokenizeDdl, ?_,
    hliterals ▸ hspells.extractSingleQuotedLiterals, ⟨_, spelledHead_metadataCheck⟩,
    ⟨by decide, rfl⟩, hspelled⟩
  simpa [Lexeme.tokens] using hnormalized

end Ddl

end BinlogCdc
