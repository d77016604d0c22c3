import BinlogCdc.Sql.Search

/-!
# The head of a statement

How the server reads the beginning of a statement, and what the normalization makes of it.
The server skips whitespace and comments and then reads a word. The normalization finds the
same word, unless a comment opens with a slash right after its star: the normalization takes
that slash for the end of the comment.
-/

namespace BinlogCdc

/-! ## Trimming -/

namespace Text

/-- Trimming the end stops at the latest at characters that stay. -/
theorem trimEndMatches_append {drop : Char → Bool} {left : Text}
    (h : ∀ c ∈ left, drop c = false) (right : Text) :
    trimEndMatches drop (left ++ right) = left ++ trimEndMatches drop right := by
  have hleft : left.reverse.dropWhile drop = left.reverse := by
    cases hr : left.reverse with
    | nil => rfl
    | cons c rest =>
      have hc : c ∈ left := List.mem_reverse.mp (by simp [hr])
      simp [h c hc]
  unfold trimEndMatches
  rw [List.reverse_append, List.dropWhile_append]
  split
  · next hempty =>
    rw [List.isEmpty_iff.mp hempty, hleft]
    simp
  · simp

/-- Trimming the end does not touch the head of what it leaves. -/
theorem head?_trimEndMatches (drop : Char → Bool) (text : Text) :
    (trimEndMatches drop text) = [] ∨ (trimEndMatches drop text).head? = text.head? := by
  have hbegins : trimEndMatches drop text <+: text := by
    unfold trimEndMatches
    rw [← List.reverse_suffix, List.reverse_reverse]
    exact List.dropWhile_suffix _
  obtain ⟨rest, hrest⟩ := hbegins
  cases htrimmed : trimEndMatches drop text with
  | nil => exact Or.inl rfl
  | cons c more =>
    rw [htrimmed] at hrest
    exact Or.inr (by rw [← hrest]; rfl)

/-- A text that starts without whitespace has nothing to trim there. -/
theorem trimStart_of_head {c : Char} {rest : Text} (h : isWhitespace c = false) :
    trimStart (c :: rest) = c :: rest := by
  simp [trimStart, h]

end Text

/-! ## What the server skips -/

/-- Whitespace and comments the server skips before a statement. An executable comment is not
among them: its text belongs to the statement. -/
inductive Skipped : Text → Prop where
  /-- A whitespace character. -/
  | space (c : Char) (h : Text.isWhitespace c = true) : Skipped [c]
  /-- A comment from a hash to the end of the line. -/
  | hash (body : Text) (h : '\n' ∉ body) : Skipped ('#' :: body ++ ['\n'])
  /-- A comment from two dashes and whitespace or a control to the end of the line. -/
  | dashes (body : Text) (h : '\n' ∉ body)
    (hstart : ∀ c ∈ body.head?, Text.isWhitespace c = true ∨ Text.isControl c = true) :
    Skipped ('-' :: '-' :: body ++ ['\n'])
  /-- A comment between slash and star. -/
  | block (body : Text) (h : ¬['*', '/'] <:+: body) (hplain : body.head? ≠ some '!') :
    Skipped ('/' :: '*' :: body ++ ['*', '/'])

/-- The comment does not close its opening star at once, for a reader that takes the star of the
opening for the one of the closing. -/
def PlainlyOpened (text : Text) : Prop := ¬['/', '*', '/'] <+: text

section Skipping

variable {body : Text}

theorem splitOnce_block (h : ¬['*', '/'] <:+: body) (more : Text) :
    Text.splitOnce ['*', '/'] (body ++ '*' :: '/' :: more) = some (body, more) := by
  induction body with
  | nil => simp [Text.splitOnce]
  | cons c body ih =>
    rw [List.infix_cons_iff, not_or] at h
    obtain ⟨hstart, hbody⟩ := h
    -- The pattern does not start here: its slash would follow the star in the body.
    have hnot : ['*', '/'].isPrefixOf (c :: (body ++ '*' :: '/' :: more)) = false := by
      cases body with
      | nil => simp [List.isPrefixOf]
      | cons d body =>
        simp only [List.cons_prefix_cons, List.nil_prefix, and_true] at hstart
        simpa [List.isPrefixOf] using hstart
    rw [List.cons_append, Text.splitOnce, if_neg (by simp [hnot]), ih hbody]
    rfl

/-- One leading comment is removed as the server skips it. -/
theorem stripOneLeadingComment_append {text : Text} (h : Skipped text) (hopened : PlainlyOpened text)
    (more : Text) :
    (∃ c, text = [c] ∧ Text.isWhitespace c = true) ∨
      (stripOneLeadingComment (text ++ more) = some more ∧
        Text.trimStart (text ++ more) = text ++ more) := by
  cases h with
  | space c hc => exact Or.inl ⟨c, rfl, hc⟩
  | hash body hbody =>
    refine Or.inr ⟨?_, Text.trimStart_of_head (by decide)⟩
    have hsplit := Text.splitOnce_singleton hbody more
    simp [stripOneLeadingComment, List.isPrefixOf, hsplit]
  | dashes body hbody =>
    refine Or.inr ⟨?_, Text.trimStart_of_head (by decide)⟩
    have hsplit := Text.splitOnce_singleton hbody more
    simp [stripOneLeadingComment, List.isPrefixOf, hsplit]
  | block body hbody hplain =>
    refine Or.inr ⟨?_, Text.trimStart_of_head (by decide)⟩
    have hslash : body.head? ≠ some '/' := by
      intro hhead
      obtain ⟨rest, rfl⟩ := List.head?_eq_some_iff.mp hhead
      exact hopened (by simp)
    have hwhole : ¬['*', '/'] <:+: '/' :: '*' :: body := by
      simp only [List.infix_cons_iff, not_or]
      refine ⟨by simp, ?_, hbody⟩
      rintro ⟨rest, hrest⟩
      simp only [List.cons_append, List.nil_append, List.cons.injEq, true_and] at hrest
      exact hslash (by rw [← hrest]; rfl)
    have hsplit := splitOnce_block hwhole more
    have hversion : ¬['!'] <+: body ++ '*' :: '/' :: more := by
      rintro ⟨rest, hrest⟩
      cases body with
      | nil => simp at hrest
      | cons c body =>
        simp only [List.cons_append, List.nil_append, List.cons.injEq] at hrest
        exact hplain (by rw [← hrest.1]; rfl)
    simp only [List.cons_append] at hsplit
    simp [stripOneLeadingComment, List.isPrefixOf, hsplit, hversion]

/-- A text that starts with a letter has no leading comment. -/
theorem stripOneLeadingComment_of_letter {c : Char} {rest : Text} (h : c.isAlpha = true) :
    stripOneLeadingComment (c :: rest) = none := by
  have hdash : c ≠ '-' := by
    rintro rfl
    cases h
  have hhash : c ≠ '#' := by
    rintro rfl
    cases h
  have hslash : c ≠ '/' := by
    rintro rfl
    cases h
  simp [stripOneLeadingComment, List.isPrefixOf, hdash.symm, hhash.symm, hslash.symm]

/-- All that the server skips before a letter is removed, if there is fuel for every comment. -/
theorem stripLeadingCommentsFrom_flatten {c : Char} (rest : Text) (hc : c.isAlpha = true)
    (hspace : Text.isWhitespace c = false) (skipped : List Text)
    (hskipped : ∀ text ∈ skipped, Skipped text ∧ PlainlyOpened text) {fuel : Nat}
    (hfuel : skipped.length ≤ fuel) :
    stripLeadingCommentsFrom fuel (Text.trimStart (skipped.flatten ++ c :: rest)) = c :: rest := by
  induction skipped generalizing fuel with
  | nil =>
    rw [List.flatten_nil, List.nil_append, Text.trimStart_of_head hspace]
    cases fuel with
    | zero => rfl
    | succ fuel => simp [stripLeadingCommentsFrom, stripOneLeadingComment_of_letter hc]
  | cons text skipped ih =>
    obtain ⟨htext, hopened⟩ := hskipped text (List.mem_cons_self ..)
    have hrest := fun other hother => hskipped other (List.mem_cons_of_mem _ hother)
    simp only [List.length_cons] at hfuel
    rw [List.flatten_cons, List.append_assoc]
    rcases stripOneLeadingComment_append htext hopened (skipped.flatten ++ c :: rest) with
      ⟨d, rfl, hd⟩ | ⟨hstrip, htrim⟩
    · -- Whitespace costs no fuel.
      have htrim : Text.trimStart ([d] ++ (skipped.flatten ++ c :: rest)) =
          Text.trimStart (skipped.flatten ++ c :: rest) := by
        simp [Text.trimStart, hd]
      rw [htrim]
      exact ih hrest (by omega)
    · obtain ⟨fuel, rfl⟩ := Nat.exists_eq_add_of_lt hfuel
      rw [htrim, show skipped.length + fuel + 1 = (skipped.length + fuel) + 1 from rfl,
        stripLeadingCommentsFrom, hstrip]
      exact ih hrest (by omega)

end Skipping

/-! ## Words -/

/-- A word before whitespace or the end of the text is the first word. -/
theorem Text.splitWhitespace_append {word : Text} (hword : ∀ c ∈ word, isWhitespace c = false)
    (hne : word ≠ []) (rest : Text) (hrest : ∀ c ∈ rest.head?, isWhitespace c = true) :
    splitWhitespace (word ++ rest) = word :: splitWhitespace rest := by
  unfold splitWhitespace
  cases rest with
  | nil => simp [List.splitOnP_eq_singleton hword, hne]
  | cons c rest =>
    have hc : isWhitespace c = true := hrest c rfl
    rw [List.splitOnP_append_cons_of_forall_mem hword c hc,
      List.splitOnP_cons_eq_if_modifyHead, if_pos hc, List.filter_cons_of_pos (by simpa using hne),
      List.filter_cons_of_neg (by simp)]

/-- Leading whitespace adds no word. -/
theorem Text.splitWhitespace_cons_of_space {c : Char} (hc : isWhitespace c = true) (rest : Text) :
    splitWhitespace (c :: rest) = splitWhitespace rest := by
  unfold splitWhitespace
  rw [List.splitOnP_cons_eq_if_modifyHead, if_pos hc, List.filter_cons_of_neg (by simp)]

/-- A text with a character other than whitespace has a word. -/
theorem Text.splitWhitespace_ne_nil {text : Text} {c : Char} (hmem : c ∈ text)
    (hc : isWhitespace c = false) : splitWhitespace text ≠ [] := by
  induction text with
  | nil => cases hmem
  | cons d rest ih =>
    by_cases hd : isWhitespace d = true
    · rw [splitWhitespace_cons_of_space hd]
      rcases List.mem_cons.mp hmem with rfl | hmem
      · rw [hc] at hd
        cases hd
      · exact ih hmem
    · unfold splitWhitespace
      rw [List.splitOnP_cons_eq_if_modifyHead, if_neg hd]
      cases hwords : rest.splitOnP isWhitespace with
      | nil => exact absurd hwords (List.splitOnP_ne_nil _ rest)
      | cons first words => simp

/-- A letter is no whitespace. -/
theorem Text.not_isWhitespace_of_isAlpha {c : Char} (h : c.isAlpha = true) :
    isWhitespace c = false := by
  simp only [Char.isAlpha, Char.isUpper, Char.isLower, Bool.or_eq_true, Bool.and_eq_true,
    decide_eq_true_eq, ge_iff_le, UInt32.le_iff_toNat_le] at h
  have hcode : (65 ≤ c.toNat ∧ c.toNat ≤ 90) ∨ (97 ≤ c.toNat ∧ c.toNat ≤ 122) := h
  simp only [isWhitespace, Bool.or_eq_false_iff, Bool.and_eq_false_iff, decide_eq_false_iff_not,
    beq_eq_false_iff_ne, ne_eq]
  omega

/-- Uppercase neither makes nor removes whitespace. -/
theorem Text.isWhitespace_toUpper (c : Char) : isWhitespace c.toUpper = isWhitespace c := by
  unfold Char.toUpper
  split
  · next hlower =>
    have hcode : 97 ≤ c.toNat ∧ c.toNat ≤ 122 := hlower
    have hupper : (c.val + ('A'.val - 'a'.val)).toNat = c.toNat - 32 := by
      rw [UInt32.toNat_add, show ('A'.val - 'a'.val).toNat = 2 ^ 32 - 32 from rfl]
      change (c.toNat + _) % _ = _
      omega
    have halpha : c.isAlpha = true := by
      have hboth : c.isLower = true := by
        simpa [Char.isLower] using hlower
      simp [Char.isAlpha, hboth]
    rw [not_isWhitespace_of_isAlpha halpha]
    simp only [isWhitespace, Bool.or_eq_false_iff, Bool.and_eq_false_iff, decide_eq_false_iff_not,
      beq_eq_false_iff_ne, ne_eq, Char.toNat, hupper]
    change 97 ≤ c.val.toNat ∧ c.val.toNat ≤ 122 at hcode
    omega
  · rfl

/-- Joining words by blanks keeps the first one first. -/
theorem firstKeyword_intercalate {word : Text} {words : List Text}
    (hword : ∀ c ∈ word, Text.isWhitespace c = false) (hne : word ≠ []) :
    firstKeyword ([' '].intercalate (word :: words)) = some word := by
  unfold firstKeyword
  cases words with
  | nil =>
    have hsplit := Text.splitWhitespace_append hword hne [] (by simp)
    rw [List.append_nil] at hsplit
    rw [List.intercalate_singleton, hsplit]
    rfl
  | cons other words =>
    rw [List.intercalate_cons_cons, List.append_assoc,
      Text.splitWhitespace_append hword hne _ (by rintro c ⟨⟩; decide)]
    rfl

/-! ## Statements -/

/-- The characters of a word of the server. -/
def isServerWordCharacter (c : Char) : Bool :=
  c.isAlphanum || c == '_' || c == '$' || 0x80 ≤ c.toNat

/-- A statement as the server reads it: what it skips, its first word, and the rest. -/
structure ServerStatement where
  /-- What the server skips. -/
  skipped : List Text
  /-- The first word, in any case. -/
  verb : Text
  /-- The character after the first word. -/
  separator : Char
  /-- What comes then. -/
  rest : Text
  /-- Only whitespace and comments are skipped. -/
  skips : ∀ text ∈ skipped, Skipped text
  /-- The first word has letters only. -/
  letters : ∀ c ∈ verb, c.isAlpha = true
  /-- It has a letter. -/
  nonempty : verb ≠ []
  /-- It ends before the separator. -/
  separates : isServerWordCharacter separator = false
  /-- The statement does not end there. -/
  continues : separator ≠ ';'

namespace ServerStatement

variable (statement : ServerStatement)

/-- The text of the statement. -/
def sql : Text :=
  statement.skipped.flatten ++ (statement.verb ++ statement.separator :: statement.rest)

/-- No comment is opened with a slash right after its star. -/
def PlainlyCommented : Prop := ∀ text ∈ statement.skipped, PlainlyOpened text

variable {statement}

theorem verb_not_isWhitespace {c : Char} (hc : c ∈ statement.verb) : Text.isWhitespace c = false :=
  Text.not_isWhitespace_of_isAlpha (statement.letters c hc)

theorem verb_ne_semicolon {c : Char} (hc : c ∈ statement.verb) : (c == ';') = false := by
  have hletter := statement.letters c hc
  rw [beq_eq_false_iff_ne]
  rintro rfl
  cases hletter

/-- Every skipped text has a character. -/
theorem length_le_length_flatten {skipped : List Text} (h : ∀ text ∈ skipped, Skipped text) :
    skipped.length ≤ skipped.flatten.length := by
  induction skipped with
  | nil => simp
  | cons text skipped ih =>
    have hrest := ih fun other hother => h other (List.mem_cons_of_mem _ hother)
    have htext : 0 < text.length := by
      cases h text (List.mem_cons_self ..) <;> simp
    simp only [List.length_cons, List.flatten_cons, List.length_append]
    omega

/-- The comments the server skips are removed. -/
theorem stripLeadingComments_sql (h : statement.PlainlyCommented) :
    stripLeadingComments statement.sql = statement.verb ++ statement.separator :: statement.rest := by
  obtain ⟨c, more, hverb⟩ := List.exists_cons_of_ne_nil statement.nonempty
  have hc : c ∈ statement.verb := by simp [hverb]
  have hfuel : statement.skipped.length ≤ statement.sql.length := by
    have hlength := length_le_length_flatten statement.skips
    simp only [sql, List.length_append]
    omega
  have hstrip := stripLeadingCommentsFrom_flatten
    (more ++ statement.separator :: statement.rest) (statement.letters c hc)
    (verb_not_isWhitespace hc) statement.skipped
    (fun text htext => ⟨statement.skips text htext, h text htext⟩) hfuel
  unfold stripLeadingComments
  simp only [sql, hverb, List.cons_append] at hstrip ⊢
  exact hstrip

/-- The normalized statement starts with the first word; the character after it stays, unless it
is whitespace at the end. -/
theorem normalizeStatement_sql (h : statement.PlainlyCommented) :
    ∃ tail, normalizeStatement statement.sql = statement.verb ++ tail ∧
      (tail.head? = some statement.separator ∨
        (tail = [] ∧ Text.isWhitespace statement.separator = true)) ∧
      ∀ c ∈ tail.getLast?, Text.isWhitespace c = false := by
  have hspace : ∀ c ∈ statement.verb, Text.isWhitespace c = false := fun c => verb_not_isWhitespace
  have hsemicolon : ∀ c ∈ statement.verb, (c == ';') = false := fun c => verb_ne_semicolon
  obtain ⟨c, more, hverb⟩ := List.exists_cons_of_ne_nil statement.nonempty
  have hstart : ∀ text, Text.trimStart (statement.verb ++ text) = statement.verb ++ text := by
    intro text
    rw [hverb, List.cons_append]
    exact Text.trimStart_of_head (hspace c (by simp [hverb]))
  let semicolons := Text.trimEndMatches (· == ';')
    (Text.trimEndMatches Text.isWhitespace (statement.separator :: statement.rest))
  refine ⟨Text.trimEndMatches Text.isWhitespace semicolons, ?_, ?_, ?_⟩
  · unfold normalizeStatement Text.trim
    rw [stripLeadingComments_sql h, hstart, Text.trimEndMatches_append hspace,
      Text.trimEndMatches_append hsemicolon, hstart, Text.trimEndMatches_append hspace]
  · by_cases hseparator : Text.isWhitespace statement.separator = true
    · have hhead : semicolons = [] ∨ semicolons.head? = some statement.separator := by
        rcases Text.head?_trimEndMatches (· == ';') (Text.trimEndMatches Text.isWhitespace
          (statement.separator :: statement.rest)) with hnil | hsame
        · exact Or.inl hnil
        · rcases Text.head?_trimEndMatches Text.isWhitespace
            (statement.separator :: statement.rest) with hnil' | hsame'
          · left
            change Text.trimEndMatches _ _ = []
            rw [hnil']
            rfl
          · exact Or.inr (hsame.trans hsame')
      rcases hhead with hnil | hhead
      · exact Or.inr ⟨by rw [hnil]; rfl, hseparator⟩
      · rcases Text.head?_trimEndMatches Text.isWhitespace semicolons with hnil | hsame
        · exact Or.inr ⟨hnil, hseparator⟩
        · exact Or.inl (hsame.trans hhead)
    · -- The separator is neither whitespace nor a semicolon, so it stays.
      left
      have hone : ∀ d ∈ [statement.separator], Text.isWhitespace d = false := by
        simpa using hseparator
      have htwo : ∀ d ∈ [statement.separator], (d == ';') = false := by
        simpa using statement.continues
      change (Text.trimEndMatches Text.isWhitespace (Text.trimEndMatches (· == ';')
        (Text.trimEndMatches Text.isWhitespace ([statement.separator] ++ statement.rest)))).head? = _
      rw [Text.trimEndMatches_append hone, Text.trimEndMatches_append htwo,
        Text.trimEndMatches_append hone]
      rfl
  · intro d hd
    unfold Text.trimEndMatches at hd
    rw [List.getLast?_reverse] at hd
    obtain ⟨rest, hrest⟩ := List.head?_eq_some_iff.mp hd
    have hdrop := List.head?_dropWhile_not Text.isWhitespace semicolons.reverse
    rw [hrest] at hdrop
    simpa using hdrop

/-- The first word after the normalization: the first word of the server, continued by what
follows it without whitespace. -/
theorem firstKeyword_sql (h : statement.PlainlyCommented) :
    ∃ more, firstKeyword (normalizePolicyWhitespace statement.sql) = some (statement.verb ++ more) ∧
      (if Text.isWhitespace statement.separator then more = []
        else more.head? = some statement.separator) := by
  obtain ⟨tail, htail, hhead, -⟩ := normalizeStatement_sql h
  let plain : Char → Bool := fun c => !Text.isWhitespace c
  have hword : ∀ c ∈ statement.verb ++ tail.takeWhile plain, Text.isWhitespace c = false := by
    intro c hc
    rcases List.mem_append.mp hc with hc | hc
    · exact verb_not_isWhitespace hc
    · have hplain := List.all_eq_true.mp (List.all_takeWhile (p := plain) (l := tail)) c hc
      simpa [plain] using hplain
  have hne : statement.verb ++ tail.takeWhile plain ≠ [] := by simp [statement.nonempty]
  have hrest : ∀ c ∈ (tail.dropWhile plain).head?, Text.isWhitespace c = true := by
    intro c hc
    have hnot := List.head?_dropWhile_not plain tail
    rw [hc] at hnot
    simpa [plain] using hnot
  refine ⟨tail.takeWhile plain, ?_, ?_⟩
  · unfold normalizePolicyWhitespace
    rw [htail, show statement.verb ++ tail = (statement.verb ++ tail.takeWhile plain) ++
        tail.dropWhile plain by rw [List.append_assoc, List.takeWhile_append_dropWhile],
      Text.splitWhitespace_append hword hne _ hrest]
    exact firstKeyword_intercalate hword hne
  · split
    · next hspace =>
      rcases hhead with hhead | ⟨rfl, -⟩
      · obtain ⟨rest, rfl⟩ := List.head?_eq_some_iff.mp hhead
        simp [plain, hspace]
      · rfl
    · next hspace =>
      rcases hhead with hhead | ⟨-, hwhite⟩
      · obtain ⟨rest, rfl⟩ := List.head?_eq_some_iff.mp hhead
        simp [plain, hspace]
      · exact absurd hwhite hspace

/-- The words that change the schema. -/
def schemaVerbs : List Text :=
  ["ALTER".toList, "CREATE".toList, "DROP".toList, "RENAME".toList, "TRUNCATE".toList]

/-- The words that change data. -/
def dataVerbs : List Text :=
  ["INSERT".toList, "REPLACE".toList, "UPDATE".toList, "DELETE".toList]

/-- The statement changes the schema, for the server. -/
def ChangesSchema (statement : ServerStatement) : Prop :=
  Text.toAsciiUppercase statement.verb ∈ schemaVerbs

instance : DecidablePred ChangesSchema := fun statement =>
  inferInstanceAs (Decidable (Text.toAsciiUppercase statement.verb ∈ schemaVerbs))

/-- The statement changes data, for the server. -/
def ChangesData (statement : ServerStatement) : Prop :=
  Text.toAsciiUppercase statement.verb ∈ dataVerbs

instance : DecidablePred ChangesData := fun statement =>
  inferInstanceAs (Decidable (Text.toAsciiUppercase statement.verb ∈ dataVerbs))

/-- The stream recognizes the schema change of a statement exactly when its first word is written
in upper case and followed by whitespace. -/
theorem isSchemaChangingStatement_sql (h : statement.PlainlyCommented) :
    isSchemaChangingStatement statement.sql = true ↔
      statement.verb ∈ schemaVerbs ∧ Text.isWhitespace statement.separator = true := by
  obtain ⟨more, hkeyword, hmore⟩ := firstKeyword_sql h
  have hverb : ∀ word, isSchemaChangingStatement statement.sql = true ∧
      firstKeyword (normalizePolicyWhitespace statement.sql) = some word ↔
      firstKeyword (normalizePolicyWhitespace statement.sql) = some word ∧ word ∈ schemaVerbs := by
    intro word
    constructor
    · rintro ⟨hchanging, hword⟩
      unfold isSchemaChangingStatement at hchanging
      rw [hword] at hchanging
      refine ⟨hword, ?_⟩
      simpa [schemaVerbs] using hchanging
    · rintro ⟨hword, hmem⟩
      refine ⟨?_, hword⟩
      unfold isSchemaChangingStatement
      rw [hword]
      simpa [schemaVerbs] using hmem
  by_cases hspace : Text.isWhitespace statement.separator = true
  · rw [if_pos hspace] at hmore
    subst hmore
    rw [List.append_nil] at hkeyword
    have hiff := hverb statement.verb
    simp only [hkeyword, and_true, true_and] at hiff
    rw [hiff]
    simp [hspace]
  · rw [if_neg hspace] at hmore
    refine iff_of_false ?_ fun hboth => hspace hboth.2
    intro hchanging
    obtain ⟨-, hmem⟩ := (hverb _).mp ⟨hchanging, hkeyword⟩
    -- The separator would be a letter of the word.
    obtain ⟨rest, rfl⟩ := List.head?_eq_some_iff.mp hmore
    have hletters : ∀ word ∈ schemaVerbs, ∀ c ∈ word, isServerWordCharacter c = true := by decide
    have hseparator := hletters _ hmem statement.separator (by simp)
    rw [statement.separates] at hseparator
    cases hseparator

/-! ## Statements that change data -/

/-- Texts that start alike agree where both reach. -/
theorem take_eq_take_of_starts {start word rest : Text} (h : start <+: word ++ rest) :
    start.take word.length = word.take start.length := by
  obtain ⟨more, hmore⟩ := h
  have htake := congrArg (List.take (min start.length word.length)) hmore
  rw [List.take_append_of_le_length (Nat.min_le_left ..),
    List.take_append_of_le_length (Nat.min_le_right ..)] at htake
  rcases Nat.le_total start.length word.length with hle | hle
  · rw [Nat.min_eq_left hle, List.take_length] at htake
    rw [List.take_of_length_le hle]
    exact htake
  · rw [Nat.min_eq_right hle, List.take_length] at htake
    rw [List.take_of_length_le hle]
    exact htake

/-- A statement whose first word disagrees with all listed starts has none of them. -/
theorem startsWithAnyCi_eq_false {verb tail : Text} {starts : List String}
    (h : ∀ start ∈ starts, start.toList.take verb.length ≠
      (Text.toAsciiUppercase verb).take start.toList.length) :
    startsWithAnyCi (verb ++ tail) starts = false := by
  rw [Bool.eq_false_iff]
  intro hstarts
  obtain ⟨start, hmem, hprefixed⟩ := List.any_eq_true.mp hstarts
  rw [List.isPrefixOf_iff_prefix, Text.toAsciiUppercase, List.map_append] at hprefixed
  have htake := take_eq_take_of_starts hprefixed
  rw [List.length_map] at htake
  exact h start hmem htake

/-- Words in front of blanks stay in front of blanks when whitespace is collapsed, in a text that
does not end with whitespace. -/
theorem flatMap_prefix_intercalate {words : List Text}
    (hwords : ∀ word ∈ words, word ≠ [] ∧ ∀ c ∈ word, Text.isWhitespace c = false) {text : Text}
    (hlast : ∀ c ∈ text.getLast?, Text.isWhitespace c = false)
    (h : words.flatMap (· ++ [' ']) <+: Text.toAsciiUppercase text) :
    words.flatMap (· ++ [' ']) <+:
      Text.toAsciiUppercase ([' '].intercalate (Text.splitWhitespace text)) := by
  induction words generalizing text with
  | nil => exact List.nil_prefix
  | cons word words ih =>
    obtain ⟨hne, hplain⟩ := hwords word (List.mem_cons_self ..)
    obtain ⟨more, hmore⟩ := h
    -- The text is the word in some case, a blank and a rest.
    rw [List.flatMap_cons, List.append_assoc, List.append_assoc] at hmore
    obtain ⟨word', rest', rfl, hword', hrest'⟩ := List.map_eq_append_iff.mp hmore.symm
    obtain ⟨blank, rest, rfl, hblank, hrest⟩ := List.map_eq_cons_iff.mp hrest'
    have hspace : Text.isWhitespace blank = true := by
      rw [← Text.isWhitespace_toUpper, hblank]
      decide
    have hplain' : ∀ c ∈ word', Text.isWhitespace c = false := by
      intro c hc
      rw [← Text.isWhitespace_toUpper]
      exact hplain _ (hword' ▸ List.mem_map_of_mem hc)
    have hne' : word' ≠ [] := by
      rintro rfl
      exact hne hword'.symm
    have hrestNe : rest ≠ [] := by
      rintro rfl
      have hlastBlank := hlast blank (by simp)
      rw [hspace] at hlastBlank
      cases hlastBlank
    have hlastRest : ∀ c ∈ rest.getLast?, Text.isWhitespace c = false := by
      intro c hc
      refine hlast c ?_
      rw [List.getLast?_append, List.getLast?_cons, hc]
      rfl
    obtain ⟨c, hc⟩ := Option.isSome_iff_exists.mp (List.getLast?_isSome.mpr hrestNe)
    obtain ⟨first, others, hothers⟩ := List.exists_cons_of_ne_nil
      (Text.splitWhitespace_ne_nil (List.mem_of_getLast? hc) (hlastRest c hc))
    have hrec := ih (fun other hother => hwords other (List.mem_cons_of_mem _ hother)) hlastRest
      ⟨more, hrest.symm⟩
    rw [Text.splitWhitespace_append hplain' hne' _ (by rintro d ⟨⟩; exact hspace),
      Text.splitWhitespace_cons_of_space hspace, hothers, List.intercalate_cons_cons]
    rw [hothers] at hrec
    simp only [List.flatMap_cons, Text.toAsciiUppercase, List.map_append, hword', List.map_cons,
      List.map_nil, List.append_assoc] at hrec ⊢
    rw [List.prefix_append_right_inj]
    exact (List.prefix_append_right_inj [' ']).mpr hrec

/-- A data change the applier would replay is recognized as a data change. -/
theorem isDataChangingStatement_of_compatible (h : statement.PlainlyCommented)
    (hcompatible : isKnownCompatibleDml (normalizeStatement statement.sql) = true) :
    isDataChangingStatement statement.sql = true := by
  obtain ⟨tail, htail, -, hlast⟩ := normalizeStatement_sql h
  have hend : ∀ c ∈ (normalizeStatement statement.sql).getLast?, Text.isWhitespace c = false := by
    intro c hc
    rw [htail, List.getLast?_append] at hc
    cases hlast' : tail.getLast? with
    | some d =>
      rw [hlast'] at hc
      obtain rfl : d = c := by simpa using hc
      exact hlast d hlast'
    | none =>
      rw [hlast'] at hc
      exact verb_not_isWhitespace (List.mem_of_getLast? hc)
  obtain ⟨start, hmem, hstart⟩ := List.any_eq_true.mp hcompatible
  -- Every listed start is a list of words in front of blanks.
  obtain ⟨words, hwords, hjoin⟩ : ∃ words : List Text,
      (∀ word ∈ words, word ≠ [] ∧ ∀ c ∈ word, Text.isWhitespace c = false) ∧
        start.toList = words.flatMap (· ++ [' ']) := by
    simp only [compatibleDmlPrefixes, List.mem_cons, List.not_mem_nil, or_false] at hmem
    rcases hmem with rfl | rfl | rfl | rfl
    · exact ⟨["DELETE".toList, "FROM".toList], by decide, rfl⟩
    · exact ⟨["INSERT".toList, "INTO".toList], by decide, rfl⟩
    · exact ⟨["REPLACE".toList, "INTO".toList], by decide, rfl⟩
    · exact ⟨["UPDATE".toList], by decide, rfl⟩
  unfold isDataChangingStatement normalizePolicyWhitespace
  refine List.any_eq_true.mpr ⟨start, hmem, ?_⟩
  rw [List.isPrefixOf_iff_prefix, hjoin] at hstart ⊢
  exact flatMap_prefix_intercalate hwords hend hstart

/-- The verb of a data change is no start of a schema change or an administrative statement. -/
theorem ChangesData.starts {starts : List String} (h : statement.ChangesData)
    (hstarts : ∀ verb ∈ dataVerbs, ∀ start ∈ starts,
      start.toList.take verb.length ≠ verb.take start.toList.length) (tail : Text) :
    startsWithAnyCi (statement.verb ++ tail) starts = false := by
  refine startsWithAnyCi_eq_false fun start hstart => ?_
  have hne := hstarts _ h start hstart
  rwa [Text.toAsciiUppercase, List.length_map] at hne

/-- A data change the stream does not recognize is set aside, whatever else it contains. -/
theorem ChangesData.classifyStatement (h : statement.ChangesData)
    (hplain : statement.PlainlyCommented)
    (hunrecognized : isDataChangingStatement statement.sql = false) :
    ∃ reason, classifyStatement (normalizeStatement statement.sql) = .quarantine reason := by
  obtain ⟨tail, htail, -⟩ := normalizeStatement_sql hplain
  have hdml : isKnownCompatibleDml (normalizeStatement statement.sql) = false := by
    rw [Bool.eq_false_iff]
    intro hcompatible
    rw [isDataChangingStatement_of_compatible hplain hcompatible] at hunrecognized
    cases hunrecognized
  have hddl : isKnownCompatibleDdl (normalizeStatement statement.sql) = false := by
    unfold isKnownCompatibleDdl
    rw [htail]
    exact h.starts (by decide) tail
  have hadmin : isSkippedAdministrativeDdl (normalizeStatement statement.sql) = false := by
    unfold isSkippedAdministrativeDdl
    rw [htail]
    exact h.starts (by decide) tail
  unfold BinlogCdc.classifyStatement
  simp only [hdml, hddl, hadmin, Bool.or_false, Bool.false_eq_true, if_false]
  split
  · exact ⟨_, rfl⟩
  · split
    · exact ⟨_, rfl⟩
    · split
      · exact ⟨_, rfl⟩
      · split
        · exact ⟨_, rfl⟩
        · split
          · exact ⟨_, rfl⟩
          · exact ⟨_, rfl⟩

/-- A data change is no schema change for the stream. -/
theorem ChangesData.not_isSchemaChanging (h : statement.ChangesData)
    (hplain : statement.PlainlyCommented) : isSchemaChangingStatement statement.sql = false := by
  rw [Bool.eq_false_iff]
  intro hchanging
  obtain ⟨hverb, -⟩ := (isSchemaChangingStatement_sql hplain).mp hchanging
  have hapart : ∀ word ∈ schemaVerbs, Text.toAsciiUppercase word ∉ dataVerbs := by decide
  exact hapart _ hverb h

/-- Without the leading whitespace the text starts with a comment or with the first word. -/
theorem trimStart_sql (statement : ServerStatement) :
    (∃ c rest, Text.trimStart statement.sql = c :: rest ∧ c ∈ ['#', '-', '/']) ∨
      Text.trimStart statement.sql =
        statement.verb ++ statement.separator :: statement.rest := by
  obtain ⟨skipped, verb, separator, rest, skips, letters, nonempty, -, -⟩ := statement
  unfold sql
  dsimp only
  induction skipped with
  | nil =>
    right
    obtain ⟨c, more, rfl⟩ := List.exists_cons_of_ne_nil nonempty
    rw [List.flatten_nil, List.nil_append, List.cons_append]
    exact Text.trimStart_of_head
      (Text.not_isWhitespace_of_isAlpha (letters c (List.mem_cons_self ..)))
  | cons text skipped ih =>
    have hrest := ih fun other hother => skips other (List.mem_cons_of_mem _ hother)
    rw [List.flatten_cons, List.append_assoc]
    cases skips text (List.mem_cons_self ..) with
    | space c hc =>
      have htrim : Text.trimStart ([c] ++ (skipped.flatten ++ (verb ++ separator :: rest))) =
          Text.trimStart (skipped.flatten ++ (verb ++ separator :: rest)) := by
        simp [Text.trimStart, hc]
      rw [htrim]
      exact hrest
    | hash => exact Or.inl ⟨'#', _, Text.trimStart_of_head (by decide), by decide⟩
    | dashes => exact Or.inl ⟨'-', _, Text.trimStart_of_head (by decide), by decide⟩
    | block => exact Or.inl ⟨'/', _, Text.trimStart_of_head (by decide), by decide⟩

/-- What trimming leaves of a text that starts with plain characters. -/
theorem trim_append {word : Text} (hspace : ∀ c ∈ word, Text.isWhitespace c = false)
    (hsemicolon : ∀ c ∈ word, (c == ';') = false) (rest : Text) :
    ∃ tail, Text.trimEndMatches (· == ';') (Text.trimEndMatches Text.isWhitespace (word ++ rest)) =
      word ++ tail :=
  ⟨_, by rw [Text.trimEndMatches_append hspace, Text.trimEndMatches_append hsemicolon]⟩

end ServerStatement

end BinlogCdc
