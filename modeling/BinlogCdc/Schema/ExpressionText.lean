import BinlogCdc.Schema.Canonical
import BinlogCdc.Sql.Expression

/-!
# The canonical text of expressions

The canonical form of an expression leaves out parentheses, blanks, backslashes and introducers, and
has no uppercase letters. Token by token, it keeps the names and literals that have none of the
characters that are left out.
-/

namespace BinlogCdc.SyncSchema

/-- An introducer stands somewhere in the text. -/
def hasIntroducer (text : Text) : Bool :=
  Text.contains "_utf8mb4".toList text || Text.contains "_utf8mb3".toList text

/-- A pattern at the start of a text does not reach a character that it does not have. -/
theorem prefix_of_prefix_append {pattern text rest : Text} (h : pattern <+: text ++ rest)
    (hrest : ∀ c ∈ rest.head?, c ∉ pattern) (hempty : rest = [] → pattern <+: text) :
    pattern <+: text := by
  induction pattern generalizing text with
  | nil => exact List.nil_prefix
  | cons p pattern ih =>
    cases text with
    | nil =>
      cases rest with
      | nil => exact hempty rfl
      | cons c rest =>
        have hc : p = c := (List.cons_prefix_cons.mp h).1
        exact absurd (hc ▸ List.mem_cons_self) (hrest c rfl)
    | cons a text =>
      obtain ⟨rfl, htail⟩ := List.cons_prefix_cons.mp h
      refine List.cons_prefix_cons.mpr ⟨rfl, ih htail ?_ ?_⟩
      · intro c hc hmem
        exact hrest c hc (List.mem_cons_of_mem _ hmem)
      · intro hnil
        exact (List.cons_prefix_cons.mp (hempty hnil)).2

theorem not_isIntroducer_append {text rest : Text} (h : isIntroducer text = false)
    (hrest : ∀ c ∈ rest.head?, c ∉ "_utf8mb34".toList) : isIntroducer (text ++ rest) = false := by
  have hpattern : ∀ pattern : Text, (∀ c ∈ pattern, c ∈ "_utf8mb34".toList) →
      pattern.isPrefixOf text = false → pattern.isPrefixOf (text ++ rest) = false := by
    intro pattern hsub hnot
    by_contra hprefix
    rw [Bool.not_eq_false, List.isPrefixOf_iff_prefix] at hprefix
    have hshort : pattern <+: text := by
      refine prefix_of_prefix_append hprefix ?_ ?_
      · intro c hc hmem
        exact hrest c hc (hsub c hmem)
      · intro hnil
        rwa [hnil, List.append_nil] at hprefix
    rw [← List.isPrefixOf_iff_prefix, hnot] at hshort
    exact absurd hshort (by decide)
  unfold isIntroducer at h ⊢
  rw [Bool.or_eq_false_iff] at h ⊢
  exact ⟨hpattern _ (by decide) h.1, hpattern _ (by decide) h.2⟩

/-- A text without introducers keeps the characters that are not formatting. -/
theorem canonicalExpressionFrom_append {text rest : Text} (h : hasIntroducer text = false)
    (hrest : ∀ c ∈ rest.head?, c ∉ "_utf8mb34".toList) :
    canonicalExpressionFrom 0 (text ++ rest) =
      text.filter (fun c => !isFormatting c) ++ canonicalExpressionFrom 0 rest := by
  induction text with
  | nil => rfl
  | cons c text ih =>
    have hparts : isIntroducer (c :: text) = false ∧ hasIntroducer text = false := by
      unfold hasIntroducer at h ⊢
      unfold isIntroducer
      simp only [Text.contains, Bool.or_eq_false_iff] at h ⊢
      exact ⟨⟨h.1.1, h.2.1⟩, h.1.2, h.2.2⟩
    rw [List.cons_append, canonicalExpressionFrom,
      if_neg (by rw [← List.cons_append, not_isIntroducer_append hparts.1 hrest]; decide)]
    by_cases hformat : isFormatting c = true
    · rw [if_pos hformat, ih hparts.2, List.filter_cons_of_neg (by simp [hformat])]
    · rw [if_neg hformat, ih hparts.2, List.filter_cons_of_pos (by simp [hformat])]
      rfl

/-- A character of a number. -/
def isNumeric (c : Char) : Bool := c.isDigit || c == '.' || c == 'e' || c == '+' || c == '-'

/-- A character of a function name. -/
def isWord (c : Char) : Bool := c.isAlphanum || c == '_' || c == '$'

/-- A text of which nothing is left out. -/
def Kept (text : Text) : Prop := (∀ c ∈ text, isFormatting c = false) ∧ hasIntroducer text = false

/-- The name or literal of a token is kept as it is, up to the case of names. -/
def CleanToken : SqlToken → Prop
  | .calling function =>
    (∃ c rest, Text.toAsciiLowercase function = c :: rest ∧ c.isDigit = false) ∧
      (∀ c ∈ Text.toAsciiLowercase function, isWord c = true) ∧
      Kept (Text.toAsciiLowercase function)
  | .name name => Kept (doubled '`' (Text.toAsciiLowercase name))
  | .literal value =>
    (∀ c ∈ doubled singleQuote value, c.toLower = c) ∧ Kept (doubled singleQuote value)
  | .number digits =>
    (∃ c rest, Text.toAsciiLowercase digits = c :: rest ∧ c.isDigit = true) ∧
      ∀ c ∈ Text.toAsciiLowercase digits, isNumeric c = true
  | _ => True

def canonicalName (name : Text) : Text :=
  '`' :: (doubled '`' (Text.toAsciiLowercase name) ++ ['`'])

def canonicalLiteral (value : Text) : Text :=
  singleQuote :: (doubled singleQuote value ++ [singleQuote])

/-- What the canonical form keeps of a token. -/
def canonicalToken : SqlToken → Text
  | .calling function => Text.toAsciiLowercase function
  | .name name => canonicalName name
  | .literal value => canonicalLiteral value
  | .number digits => Text.toAsciiLowercase digits
  | .operator operator => operator.text
  | .conjunction => "and".toList
  | .disjunction => "or".toList
  | .comma => [',']
  | .opening => []
  | .closing => []

/-- No introducer starts in a text without underscores. -/
theorem canonicalExpressionFrom_append_of_notMem {text : Text} (h : '_' ∉ text) (rest : Text) :
    canonicalExpressionFrom 0 (text ++ rest) =
      text.filter (fun c => !isFormatting c) ++ canonicalExpressionFrom 0 rest := by
  induction text with
  | nil => rfl
  | cons c text ih =>
    rw [List.mem_cons, not_or] at h
    have hintroducer : isIntroducer (c :: (text ++ rest)) = false := by
      simp [isIntroducer, List.isPrefixOf, h.1]
    rw [List.cons_append, canonicalExpressionFrom, if_neg (by rw [hintroducer]; decide)]
    by_cases hformat : isFormatting c = true
    · rw [if_pos hformat, ih h.2, List.filter_cons_of_neg (by simp [hformat])]
    · rw [if_neg hformat, ih h.2, List.filter_cons_of_pos (by simp [hformat])]
      rfl

theorem Kept.filter {text : Text} (h : Kept text) :
    text.filter (fun c => !isFormatting c) = text :=
  List.filter_eq_self.mpr fun c hc => by rw [h.1 c hc]; rfl

theorem canonicalExpressionFrom_blanks {blanks : Text} (h : ∀ c ∈ blanks, isBlank c = true)
    (rest : Text) : canonicalExpressionFrom 0 (blanks ++ rest) = canonicalExpressionFrom 0 rest := by
  have hformat : ∀ c, isBlank c = true → isFormatting c = true ∧ c ≠ '_' := by
    intro c hc
    simp only [isBlank, Bool.or_eq_true, beq_iff_eq] at hc
    obtain (rfl | rfl) | rfl := hc <;> decide
  rw [canonicalExpressionFrom_append_of_notMem fun hmem => (hformat _ (h _ hmem)).2 rfl]
  rw [List.filter_eq_nil_iff.mpr, List.nil_append]
  intro c hc
  simp [(hformat c (h c hc)).1]

theorem toAsciiLowercase_eq_self {text : Text} (h : ∀ c ∈ text, c.toLower = c) :
    Text.toAsciiLowercase text = text := by
  conv_rhs => rw [← List.map_id text]
  exact List.map_congr_left h

theorem toAsciiLowercase_blanks {blanks : Text} (h : ∀ c ∈ blanks, isBlank c = true) :
    Text.toAsciiLowercase blanks = blanks := by
  refine toAsciiLowercase_eq_self fun c hc => ?_
  have hblank := h c hc
  simp only [isBlank, Bool.or_eq_true, beq_iff_eq] at hblank
  obtain (rfl | rfl) | rfl := hblank <;> decide

/-- A text that does not have the character has none to double. -/
theorem doubled_of_notMem {c : Char} {text : Text} (h : c ∉ text) : doubled c text = text := by
  induction text with
  | nil => rfl
  | cons a text ih =>
    rw [List.mem_cons, not_or] at h
    rw [doubled, List.flatMap_cons, if_neg (Ne.symm h.1)]
    exact congrArg (a :: ·) (ih h.2)

theorem canonicalExpressionFrom_introducer {introducer : Text}
    (h : introducer ∈ [[], "_utf8mb4".toList, "_utf8mb3".toList]) (rest : Text) :
    canonicalExpressionFrom 0 (Text.toAsciiLowercase introducer ++ rest) =
      canonicalExpressionFrom 0 rest := by
  simp only [List.mem_cons, List.not_mem_nil, or_false] at h
  obtain rfl | rfl | rfl := h <;> rfl

/-- A kept text before a character that no introducer has. -/
theorem canonicalExpressionFrom_kept {text : Text} (h : Kept text) {c : Char}
    (hc : c ∉ "_utf8mb34".toList) (rest : Text) :
    canonicalExpressionFrom 0 (text ++ c :: rest) =
      text ++ canonicalExpressionFrom 0 (c :: rest) := by
  rw [canonicalExpressionFrom_append h.2 (by simpa using hc), h.filter]

/-- A character that is neither formatting nor an underscore. -/
theorem canonicalExpressionFrom_cons {c : Char} (hc : isFormatting c = false) (hne : c ≠ '_')
    (rest : Text) :
    canonicalExpressionFrom 0 (c :: rest) = c :: canonicalExpressionFrom 0 rest := by
  have hnot : '_' ∉ [c] := by simpa using hne.symm
  have happend := canonicalExpressionFrom_append_of_notMem hnot rest
  simpa [hc] using happend

theorem canonicalExpressionFrom_calling {function blanks : Text}
    (hkept : Kept (Text.toAsciiLowercase function)) (hblanks : ∀ c ∈ blanks, isBlank c = true)
    (rest : Text) :
    canonicalExpressionFrom 0 (Text.toAsciiLowercase function ++ (blanks ++ '(' :: rest)) =
      Text.toAsciiLowercase function ++ canonicalExpressionFrom 0 rest := by
  have hopening : canonicalExpressionFrom 0 ('(' :: rest) = canonicalExpressionFrom 0 rest := by
    have hnot : '_' ∉ ['('] := by decide
    have happend := canonicalExpressionFrom_append_of_notMem hnot rest
    simpa [isFormatting] using happend
  cases blanks with
  | nil => rw [List.nil_append, canonicalExpressionFrom_kept hkept (by decide), hopening]
  | cons blank blanks =>
    have hblank : blank ∉ "_utf8mb34".toList := by
      have := hblanks blank List.mem_cons_self
      simp only [isBlank, Bool.or_eq_true, beq_iff_eq] at this
      obtain (rfl | rfl) | rfl := this <;> decide
    rw [List.cons_append, canonicalExpressionFrom_kept hkept hblank, ← List.cons_append,
      canonicalExpressionFrom_blanks hblanks, hopening]

theorem toLower_eq_backtick {c : Char} : c.toLower = '`' ↔ c = '`' := by
  constructor
  · intro h
    unfold Char.toLower at h
    split at h
    case isTrue hupper =>
      have hcode := congrArg (fun c : Char => c.val.toNat) h
      have hlow : 65 ≤ c.toNat := hupper.1
      have hhigh : c.toNat ≤ 90 := hupper.2
      simp [UInt32.toNat_add] at hcode
      omega
    case isFalse => exact h
  · rintro rfl
    decide

/-- Backticks have no case. -/
theorem toAsciiLowercase_doubled (name : Text) :
    Text.toAsciiLowercase (doubled '`' name) = doubled '`' (Text.toAsciiLowercase name) := by
  induction name with
  | nil => rfl
  | cons c name ih =>
    have hcons : ∀ (c : Char) (tail : Text), doubled '`' (c :: tail) =
        (if c = '`' then [c, c] else [c]) ++ doubled '`' tail := fun _ _ => rfl
    have hlower : Text.toAsciiLowercase (c :: name) = c.toLower :: Text.toAsciiLowercase name := rfl
    rw [hlower, hcons, hcons, Text.toAsciiLowercase_append, ih]
    by_cases hc : c = '`'
    · rw [if_pos hc, if_pos (toLower_eq_backtick.mpr hc)]
      rfl
    · rw [if_neg hc, if_neg (mt toLower_eq_backtick.mp hc)]
      rfl

theorem canonicalExpressionFrom_name {name : Text}
    (hkept : Kept (doubled '`' (Text.toAsciiLowercase name))) (rest : Text) :
    canonicalExpressionFrom 0 (Text.toAsciiLowercase ('`' :: (doubled '`' name ++ ['`'])) ++ rest) =
      canonicalName name ++ canonicalExpressionFrom 0 rest := by
  have htext : Text.toAsciiLowercase ('`' :: (doubled '`' name ++ ['`'])) ++ rest =
      '`' :: (doubled '`' (Text.toAsciiLowercase name) ++ '`' :: rest) := by
    rw [← toAsciiLowercase_doubled]
    simp [Text.toAsciiLowercase]
  rw [htext, canonicalExpressionFrom_cons (by decide) (by decide),
    canonicalExpressionFrom_kept hkept (by decide),
    canonicalExpressionFrom_cons (by decide) (by decide)]
  simp [canonicalName]

theorem canonicalExpressionFrom_literal {value : Text}
    (hkept : Kept (doubled singleQuote value)) (rest : Text) :
    canonicalExpressionFrom 0
        (singleQuote :: (doubled singleQuote value ++ singleQuote :: rest)) =
      canonicalLiteral value ++ canonicalExpressionFrom 0 rest := by
  rw [canonicalExpressionFrom_cons (by decide) (by decide),
    canonicalExpressionFrom_kept hkept (by decide),
    canonicalExpressionFrom_cons (by decide) (by decide)]
  simp [canonicalLiteral]

theorem isFormatting_of_isNumeric {c : Char} (h : isNumeric c = true) :
    c ≠ '_' ∧ isFormatting c = false := by
  constructor
  · rintro rfl
    exact absurd h (by decide)
  · by_contra hformat
    rw [Bool.not_eq_false] at hformat
    simp only [isFormatting, Bool.or_eq_true, beq_iff_eq] at hformat
    obtain ((((rfl | rfl) | rfl) | rfl) | rfl) | rfl := hformat <;> exact absurd h (by decide)

/-- The canonical form keeps its part of each token. -/
theorem canonicalExpressionFrom_token {token : SqlToken} {text : Text} (hclean : CleanToken token)
    (hspells : token.Spells text) (rest : Text) :
    canonicalExpressionFrom 0 (Text.toAsciiLowercase text ++ rest) =
      canonicalToken token ++ canonicalExpressionFrom 0 rest := by
  cases hspells with
  | @calling function text blanks hcase hblanks =>
    have htext : Text.toAsciiLowercase (text ++ (blanks ++ ['('])) ++ rest =
        Text.toAsciiLowercase function ++ (blanks ++ '(' :: rest) := by
      have hcase' : Text.toAsciiLowercase text = Text.toAsciiLowercase function := hcase
      rw [Text.toAsciiLowercase_append, Text.toAsciiLowercase_append, hcase', toAsciiLowercase_blanks hblanks]
      simp [Text.toAsciiLowercase]
    rw [htext]
    exact canonicalExpressionFrom_calling hclean.2.2 hblanks rest
  | name name => exact canonicalExpressionFrom_name hclean rest
  | literal value hintroducer =>
    have hslash : backslash ∉ doubled singleQuote value := by
      intro hmem
      exact absurd (hclean.2.1 _ hmem) (by decide)
    rw [Text.toAsciiLowercase_append, List.append_assoc, canonicalExpressionFrom_introducer hintroducer,
      doubled_of_notMem hslash]
    have htext : Text.toAsciiLowercase (singleQuote :: (doubled singleQuote value ++ [singleQuote])) ++
        rest = singleQuote :: (doubled singleQuote value ++ singleQuote :: rest) := by
      have hlower := toAsciiLowercase_eq_self hclean.1
      unfold Text.toAsciiLowercase at hlower ⊢
      simp only [List.map_cons, List.map_append, List.map_nil, hlower]
      simp [singleQuote]
    rw [htext]
    exact canonicalExpressionFrom_literal hclean.2 rest
  | @escaped value hquote hslash introducer hintroducer =>
    rw [Text.toAsciiLowercase_append, List.append_assoc, canonicalExpressionFrom_introducer hintroducer]
    have hdoubled : doubled singleQuote value = value := doubled_of_notMem hquote
    have hlower : value.map Char.toLower = value := by
      have h := toAsciiLowercase_eq_self hclean.1
      rwa [hdoubled] at h
    have htext : Text.toAsciiLowercase
        (backslash :: singleQuote :: (value ++ [backslash, singleQuote])) ++ rest =
          [backslash] ++ (singleQuote :: (doubled singleQuote value ++
            backslash :: singleQuote :: rest)) := by
      rw [hdoubled]
      unfold Text.toAsciiLowercase
      simp only [List.map_cons, List.map_append, List.map_nil, hlower]
      simp [singleQuote, backslash]
    have hslashOut : ∀ tail : Text,
        canonicalExpressionFrom 0 (backslash :: tail) = canonicalExpressionFrom 0 tail := by
      intro tail
      have hnot : '_' ∉ [backslash] := by decide
      have happend := canonicalExpressionFrom_append_of_notMem hnot tail
      simpa [isFormatting] using happend
    rw [htext, List.singleton_append, hslashOut, canonicalExpressionFrom_cons (by decide) (by decide),
      canonicalExpressionFrom_kept hclean.2 (by decide), hslashOut,
      canonicalExpressionFrom_cons (by decide) (by decide)]
    simp [canonicalToken, canonicalLiteral]
  | number digits =>
    rw [canonicalExpressionFrom_append_of_notMem fun hmem => (isFormatting_of_isNumeric (hclean.2 _ hmem)).1 rfl]
    rw [List.filter_eq_self.mpr fun c hc => by
      rw [(isFormatting_of_isNumeric (hclean.2 c hc)).2]; rfl]
    rfl
  | operator operator =>
    cases operator <;> exact canonicalExpressionFrom_append_of_notMem (by decide) rest
  | conjunction h =>
    rw [show Text.toAsciiLowercase text = "and".toList from h]
    exact canonicalExpressionFrom_append_of_notMem (by decide) rest
  | disjunction h =>
    rw [show Text.toAsciiLowercase text = "or".toList from h]
    exact canonicalExpressionFrom_append_of_notMem (by decide) rest
  | comma => exact canonicalExpressionFrom_append_of_notMem (by decide) rest
  | opening => exact canonicalExpressionFrom_append_of_notMem (by decide) rest
  | closing => exact canonicalExpressionFrom_append_of_notMem (by decide) rest

/-- What the canonical form keeps of tokens. -/
def canonicalTokens (tokens : List SqlToken) : Text := tokens.flatMap canonicalToken

theorem canonicalTokens_append (front back : List SqlToken) :
    canonicalTokens (front ++ back) = canonicalTokens front ++ canonicalTokens back :=
  List.flatMap_append

theorem canonicalExpressionFrom_tokens {tokens : List SqlToken} {text : Text}
    (hclean : ∀ token ∈ tokens, CleanToken token) (hspells : SpellsAll tokens text) :
    canonicalExpressionFrom 0 (Text.toAsciiLowercase text) = canonicalTokens tokens := by
  induction hspells with
  | @nil blanks hblanks =>
    have h := canonicalExpressionFrom_blanks hblanks []
    rw [List.append_nil] at h
    rw [toAsciiLowercase_blanks hblanks, h]
    rfl
  | @cons token tokens blanks text rest hblanks htoken hrest ih =>
    rw [Text.toAsciiLowercase_append, Text.toAsciiLowercase_append, toAsciiLowercase_blanks hblanks,
      canonicalExpressionFrom_blanks hblanks,
      canonicalExpressionFrom_token (hclean token List.mem_cons_self) htoken,
      ih fun other hother => hclean other (List.mem_cons_of_mem _ hother)]
    rfl

end BinlogCdc.SyncSchema
