import BinlogCdc.Core.Result
import BinlogCdc.Core.Scanner
import BinlogCdc.Ddl.Tokenizer
import BinlogCdc.Sql.Search

/-!
# The steps of the tokenizer

A text that the tokenizer of the DDL statements reads is a sequence of parts: blanks, comments,
quoted identifiers, string literals, words and symbols. One relation says what a step can do; the
scanners that read the same text are compared with it.
-/

namespace BinlogCdc

namespace Ddl

open Text

/-- A double quote or a back quote. -/
def isIdentifierQuote (c : Char) : Bool := c == backQuote || c == doubleQuote

/-- A step of the DDL tokenizer, with an output of one's own. -/
def ddlStep {β : Type} (noEscapes : Bool) (out : Char → Text → Option Text → Text → Option β)
    (character : Char) (rest : Text) : Except String (Option β × Text) := do
  let (token, next) ← tokenizeDdlStep noEscapes character rest
  return (out character rest token next, next)

/-! ## Quoted parts -/

/-- A quoted part behind its opening quote, with its closing quote. -/
inductive QuotedBody (noEscapes : Bool) (quote : Char) : Text → Prop where
  | close : QuotedBody noEscapes quote [quote]
  | doubled {body : Text} : QuotedBody noEscapes quote body →
      QuotedBody noEscapes quote (quote :: quote :: body)
  | escaped {c : Char} {body : Text} : quote = singleQuote → noEscapes = false →
      QuotedBody noEscapes quote body → QuotedBody noEscapes quote (backslash :: c :: body)
  | plain {c : Char} {body : Text} : c ≠ quote →
      (c = backslash → quote = singleQuote → noEscapes = true) →
      QuotedBody noEscapes quote body → QuotedBody noEscapes quote (c :: body)

variable {noEscapes : Bool} {quote : Char} {body next rest : Text}

theorem ne_singleQuote_of_isIdentifierQuote (h : isIdentifierQuote quote = true) :
    quote ≠ singleQuote := by
  rintro rfl
  exact absurd h (by decide)

/-- A quoted identifier that the tokenizer reads is a quoted part. -/
theorem exists_quotedBody_of_quotedToken (hquote : quote ≠ singleQuote) {value : Text}
    (h : quotedToken quote rest = .ok (value, next)) :
    ∃ body, QuotedBody noEscapes quote body ∧ rest = body ++ next ∧ next.head? ≠ some quote := by
  fun_induction quotedToken quote rest generalizing value next with
  | case1 => cases h
  | case2 c hc =>
    cases h
    obtain rfl := eq_of_beq hc
    exact ⟨[c], .close, rfl, by simp⟩
  | case3 c hc following rest hfollowing ih =>
    obtain ⟨read, hread, h⟩ := bind_eq_ok.mp h
    obtain rfl := eq_of_beq hc
    obtain rfl := eq_of_beq hfollowing
    cases h
    obtain ⟨body, hbody, rfl, hnext⟩ := ih hread
    exact ⟨following :: following :: body, .doubled hbody, rfl, hnext⟩
  | case4 c hc following rest hfollowing =>
    cases h
    obtain rfl := eq_of_beq hc
    exact ⟨[c], .close, rfl, by simpa using hfollowing⟩
  | case5 c rest hc ih =>
    obtain ⟨read, hread, h⟩ := bind_eq_ok.mp h
    cases h
    obtain ⟨body, hbody, rfl, hnext⟩ := ih hread
    exact ⟨c :: body, .plain (by simpa using hc) (fun _ h => absurd h hquote) hbody, rfl, hnext⟩

/-- A string literal that the tokenizer skips is a quoted part. -/
theorem exists_quotedBody_of_skipQuotedString {escaped : Bool}
    (h : skipQuotedString noEscapes escaped rest = .ok next) :
    ∃ body, (if escaped then ∃ c tail, body = c :: tail ∧ QuotedBody noEscapes singleQuote tail
        else QuotedBody noEscapes singleQuote body) ∧
      rest = body ++ next ∧ next.head? ≠ some singleQuote := by
  fun_induction skipQuotedString noEscapes escaped rest generalizing next with
  | case1 => cases h
  | case2 c rest ih =>
    obtain ⟨body, hbody, rfl, hnext⟩ := ih h
    exact ⟨c :: body, ⟨c, body, rfl, by simpa using hbody⟩, rfl, hnext⟩
  | case3 escaped c rest hescaped hbackslash ih =>
    obtain ⟨_, hbody, rfl, hnext⟩ := ih h
    obtain ⟨d, body, rfl, hbody⟩ := hbody
    rw [Bool.and_eq_true, beq_iff_eq, Bool.not_eq_true'] at hbackslash
    obtain ⟨rfl, hmode⟩ := hbackslash
    exact ⟨backslash :: d :: body, by rw [if_neg hescaped]; exact .escaped rfl hmode hbody, rfl,
      hnext⟩
  | case4 escaped c hescaped hbackslash hquote =>
    cases h
    obtain rfl := eq_of_beq hquote
    exact ⟨[singleQuote], by rw [if_neg hescaped]; exact .close, rfl, by simp⟩
  | case5 escaped c hescaped hbackslash hquote following rest hfollowing ih =>
    obtain ⟨body, hbody, rfl, hnext⟩ := ih h
    obtain rfl := eq_of_beq hquote
    obtain rfl := eq_of_beq hfollowing
    exact ⟨singleQuote :: singleQuote :: body, by rw [if_neg hescaped]; exact .doubled (by simpa using hbody),
      rfl, hnext⟩
  | case6 escaped c hescaped hbackslash hquote following rest hfollowing =>
    cases h
    obtain rfl := eq_of_beq hquote
    exact ⟨[singleQuote], by rw [if_neg hescaped]; exact .close, rfl, by simpa using hfollowing⟩
  | case7 escaped c rest hescaped hbackslash hquote ih =>
    obtain ⟨body, hbody, rfl, hnext⟩ := ih h
    refine ⟨c :: body, ?_, rfl, hnext⟩
    rw [if_neg hescaped]
    refine .plain (by simpa using hquote) (fun hc _ => ?_) (by simpa using hbody)
    simpa [hc] using hbackslash

/-- Every scanner of identifiers reads a quoted part to its end. -/
theorem QuotedBody.quotedToken (h : QuotedBody noEscapes quote body) (hquote : quote ≠ singleQuote) :
    ∃ value, ∀ next : Text, next.head? ≠ some quote →
      Ddl.quotedToken quote (body ++ next) = .ok (value, next) ∧
        queryQuotedIdentifier quote (body ++ next) = (value, next) := by
  induction h with
  | close =>
    refine ⟨[], fun next hnext => ?_⟩
    cases next with
    | nil => simp [Ddl.quotedToken, queryQuotedIdentifier]
    | cons d next =>
      have hd : (d == quote) = false := by simpa using hnext
      simp [Ddl.quotedToken, queryQuotedIdentifier, hd]
  | doubled _ ih =>
    obtain ⟨value, hvalue⟩ := ih
    refine ⟨quote :: value, fun next hnext => ?_⟩
    obtain ⟨hddl, hquery⟩ := hvalue next hnext
    simp [Ddl.quotedToken, queryQuotedIdentifier, hddl, hquery, pure, Except.pure]
  | escaped h => exact absurd h hquote
  | @plain c _ hc _ _ ih =>
    obtain ⟨value, hvalue⟩ := ih
    refine ⟨c :: value, fun next hnext => ?_⟩
    obtain ⟨hddl, hquery⟩ := hvalue next hnext
    have hne : (c == quote) = false := by simpa using hc
    rw [List.cons_append, Ddl.quotedToken.eq_def, queryQuotedIdentifier.eq_def]
    simp [hne, hddl, hquery, pure, Except.pure]

/-- Every scanner of literals skips a quoted part to its end. -/
theorem QuotedBody.skipQuotedString (h : QuotedBody noEscapes singleQuote body)
    (hnext : next.head? ≠ some singleQuote) :
    Ddl.skipQuotedString noEscapes false (body ++ next) = .ok next ∧
      skipQueryString noEscapes false (body ++ next) = next := by
  have hbackslash : (singleQuote == backslash) = false := by decide
  induction h with
  | close =>
    cases next with
    | nil => simp [Ddl.skipQuotedString, skipQueryString, hbackslash]
    | cons d next =>
      have hd : (d == singleQuote) = false := by simpa using hnext
      simp [Ddl.skipQuotedString, skipQueryString, hbackslash, hd]
  | doubled _ ih => simpa [Ddl.skipQuotedString, skipQueryString, hbackslash] using ih
  | @escaped c body _ hmode _ ih =>
    subst hmode
    rw [List.cons_append, List.cons_append, Ddl.skipQuotedString.eq_def, skipQueryString.eq_def]
    simp only [Bool.false_eq_true, if_false, beq_self_eq_true, Bool.not_false, Bool.and_self, if_true]
    rw [Ddl.skipQuotedString.eq_def, skipQueryString.eq_def]
    exact ih
  | @plain c _ hc hmode _ ih =>
    have hne : (c == singleQuote) = false := by simpa using hc
    have hplain : (c == backslash && !noEscapes) = false := by
      by_cases h : c = backslash
      · simp [hmode h rfl]
      · simp [h]
    rw [List.cons_append, Ddl.skipQuotedString.eq_def, skipQueryString.eq_def]
    simpa only [Bool.false_eq_true, if_false, hplain, hne] using ih

/-- The search for comments finds none in a quoted part. -/
theorem QuotedBody.containsCommentsFrom (h : QuotedBody noEscapes quote body)
    (hnext : next.head? ≠ some quote) :
    Ddl.containsCommentsFrom noEscapes (some quote) (body ++ next) =
      Ddl.containsCommentsFrom noEscapes none next := by
  induction h with
  | close =>
    cases next with
    | nil => simp [Ddl.containsCommentsFrom]
    | cons d next =>
      have hd : (d == quote) = false := by simpa using hnext
      simp [Ddl.containsCommentsFrom, hd]
  | doubled _ ih => simpa [Ddl.containsCommentsFrom] using ih
  | escaped hquote hmode _ ih =>
    subst hquote hmode
    have hne : (backslash == singleQuote) = false := by decide
    rw [← ih, List.cons_append, List.cons_append, Ddl.containsCommentsFrom.eq_def]
    simp [hne]
  | @plain c _ hc hmode _ ih =>
    have hne : (c == quote) = false := by simpa using hc
    have hplain : (c == backslash && quote == singleQuote && !noEscapes) = false := by
      by_cases h : c = backslash
      · by_cases hq : quote = singleQuote
        · simp [hmode h hq]
        · simp [hq]
      · simp [h]
    rw [← ih, List.cons_append, Ddl.containsCommentsFrom.eq_def]
    simp only [hne, Bool.false_eq_true, if_false, hplain]

/-- The removal copies a quoted part. A mode that is not known refuses its backslashes. -/
theorem QuotedBody.removeCommentsFrom {mode : Option Nat} {removed : Text}
    (h : QuotedBody noEscapes quote body)
    (hmode : noBackslashEscapes mode = none ∨ noBackslashEscapes mode = some noEscapes)
    (hnext : next.head? ≠ some quote)
    (hremoved : Ddl.removeCommentsFrom mode (.quoted quote) (body ++ next) = .ok removed) :
    ∃ after, Ddl.removeCommentsFrom mode .plain next = .ok after ∧ removed = body ++ after := by
  have hbackslash : (backslash == singleQuote) = false := by decide
  induction h generalizing removed with
  | close =>
    have hescape : (quote == backslash && quote == singleQuote) = false := by
      by_cases h : quote = backslash
      · subst h
        decide
      · simp [h]
    cases next with
    | nil =>
      simp only [List.cons_append, List.nil_append, Ddl.removeCommentsFrom, hescape, Bool.false_eq_true,
        if_false, beq_self_eq_true, if_true] at hremoved
      exact ⟨[], rfl, (Except.ok.inj hremoved).symm⟩
    | cons d next =>
      have hd : (d == quote) = false := by simpa using hnext
      simp only [List.cons_append, List.nil_append, Ddl.removeCommentsFrom, hescape, Bool.false_eq_true,
        if_false, beq_self_eq_true, if_true, hd] at hremoved
      obtain ⟨after, hafter, hremoved⟩ := bind_eq_ok.mp hremoved
      exact ⟨after, hafter, (Except.ok.inj hremoved).symm⟩
  | doubled _ ih =>
    have hescape : (quote == backslash && quote == singleQuote) = false := by
      by_cases h : quote = backslash
      · subst h
        decide
      · simp [h]
    simp only [List.cons_append, Ddl.removeCommentsFrom, hescape, Bool.false_eq_true, if_false,
      beq_self_eq_true, if_true] at hremoved
    obtain ⟨result, hresult, hremoved⟩ := bind_eq_ok.mp hremoved
    obtain ⟨after, hafter, rfl⟩ := ih hresult
    exact ⟨after, hafter, (Except.ok.inj hremoved).symm⟩
  | escaped hquote hescapes _ ih =>
    subst hquote hescapes
    rw [List.cons_append, Ddl.removeCommentsFrom.eq_def] at hremoved
    simp only [beq_self_eq_true, Bool.and_self, if_true] at hremoved
    rcases hmode with hnone | hsome
    · rw [hnone] at hremoved
      cases hremoved
    · rw [hsome] at hremoved
      obtain ⟨result, hresult, hremoved⟩ := bind_eq_ok.mp hremoved
      obtain ⟨after, hafter, rfl⟩ := ih hresult
      exact ⟨after, hafter, (Except.ok.inj hremoved).symm⟩
  | @plain c _ hc hplain _ ih =>
    have hne : (c == quote) = false := by simpa using hc
    rw [List.cons_append, Ddl.removeCommentsFrom.eq_def] at hremoved
    by_cases hescape : (c == backslash && quote == singleQuote) = true
    · simp only [hescape, if_true] at hremoved
      rw [Bool.and_eq_true, beq_iff_eq, beq_iff_eq] at hescape
      obtain rfl := hplain hescape.1 hescape.2
      rcases hmode with hnone | hsome
      · rw [hnone] at hremoved
        cases hremoved
      · rw [hsome] at hremoved
        obtain ⟨result, hresult, hremoved⟩ := bind_eq_ok.mp hremoved
        obtain ⟨after, hafter, rfl⟩ := ih hresult
        exact ⟨after, hafter, (Except.ok.inj hremoved).symm⟩
    · simp only [hescape, hne, Bool.false_eq_true, if_false] at hremoved
      obtain ⟨result, hresult, hremoved⟩ := bind_eq_ok.mp hremoved
      obtain ⟨after, hafter, rfl⟩ := ih hresult
      exact ⟨after, hafter, (Except.ok.inj hremoved).symm⟩

/-- Both tokenizers end a block comment at the same place. -/
theorem skipQueryBlockComment_of_splitOnce {text before after : Text}
    (h : splitOnce "*/".toList text = some (before, after)) : skipQueryBlockComment text = after := by
  have hpattern : "*/".toList = ['*', '/'] := rfl
  rw [hpattern] at h
  induction text generalizing before with
  | nil => cases h
  | cons c text ih =>
    rw [splitOnce] at h
    by_cases hstart : ['*', '/'].isPrefixOf (c :: text) = true
    · rw [if_pos hstart] at h
      obtain ⟨more, hmore⟩ := List.isPrefixOf_iff_prefix.mp hstart
      cases hmore
      cases h
      rfl
    · rw [if_neg hstart] at h
      cases hrest : splitOnce ['*', '/'] text with
      | none => rw [hrest] at h; cases h
      | some parts =>
        rw [hrest] at h
        cases h
        rw [skipQueryBlockComment.eq_3]
        · exact ih hrest
        · rintro more rfl rfl
          exact hstart rfl

/-! ## One step -/

/-- What a step of the DDL tokenizer can do. -/
inductive ReadsStep (noEscapes : Bool) : Char → Text → Option Text → Text → Prop where
  | blank {c : Char} {rest : Text} : isWhitespace c = true → ReadsStep noEscapes c rest none rest
  | lineComment {c : Char} {rest : Text} : isMysqlLineCommentText (c :: rest) = true →
      ReadsStep noEscapes c rest none ((rest.drop 1).dropWhile (· != '\n'))
  | hashComment {rest : Text} : ReadsStep noEscapes '#' rest none (rest.dropWhile (· != '\n'))
  | blockComment {rest before after : Text} :
      splitOnce "*/".toList rest = some (before, after) →
      ReadsStep noEscapes '/' ('*' :: rest) none after
  | identifier {quote : Char} {body next value : Text} : isIdentifierQuote quote = true →
      QuotedBody noEscapes quote body → next.head? ≠ some quote →
      quotedToken quote (body ++ next) = .ok (value, next) →
      ReadsStep noEscapes quote (body ++ next) (some value) next
  | literal {body next : Text} : QuotedBody noEscapes singleQuote body →
      next.head? ≠ some singleQuote →
      ReadsStep noEscapes singleQuote (body ++ next) (some stringToken) next
  | word {c : Char} {rest : Text} : isIdentifierCharacter c = true →
      ReadsStep noEscapes c rest (some (c :: rest.takeWhile isIdentifierCharacter))
        (rest.dropWhile isIdentifierCharacter)
  | symbol {c : Char} {rest : Text} : isWhitespace c = false → isDdlQuote c = false →
      startsDdlComment (c :: rest) = false → isIdentifierCharacter c = false →
      ReadsStep noEscapes c rest (some [c]) rest

theorem readsStep {c : Char} {rest next : Text} {token : Option Text}
    (h : tokenizeDdlStep noEscapes c rest = .ok (token, next)) :
    ReadsStep noEscapes c rest token next := by
  unfold tokenizeDdlStep at h
  split_ifs at h with hblank hline hhash hblock hquote hstring hword
  · cases h
    exact .blank hblank
  · cases h
    exact .lineComment hline
  · cases h
    obtain rfl := eq_of_beq hhash
    exact .hashComment
  · obtain ⟨after, hafter, h⟩ := bind_eq_ok.mp h
    cases h
    rw [Bool.and_eq_true, beq_iff_eq, beq_iff_eq] at hblock
    obtain ⟨rfl, hstar⟩ := hblock
    obtain ⟨rest, rfl⟩ : ∃ more, rest = '*' :: more := by
      cases rest with
      | nil => cases hstar
      | cons d more => exact ⟨more, by rw [Option.some.inj hstar]⟩
    unfold afterBlockComment at hafter
    split at hafter
    · rename_i before _ hsplit
      cases hafter
      exact .blockComment hsplit
    · cases hafter
  · obtain ⟨⟨value, after⟩, hread, h⟩ := bind_eq_ok.mp h
    cases h
    obtain ⟨body, hbody, rfl, hnext⟩ :=
      exists_quotedBody_of_quotedToken (ne_singleQuote_of_isIdentifierQuote hquote) hread
    exact .identifier hquote hbody hnext hread
  · obtain ⟨after, hread, h⟩ := bind_eq_ok.mp h
    cases h
    obtain rfl := eq_of_beq hstring
    obtain ⟨body, hbody, rfl, hnext⟩ := exists_quotedBody_of_skipQuotedString hread
    exact .literal hbody hnext
  · cases h
    exact .word hword
  · cases h
    rw [Bool.not_eq_true] at hblank hline hhash hblock hquote hstring hword
    refine .symbol hblank ?_ ?_ hword
    · rw [isDdlQuote, hquote, hstring]
      rfl
    · have hslash : "/*".toList.isPrefixOf (c :: rest) = false := by
        cases rest with
        | nil => simp [List.isPrefixOf]
        | cons d rest =>
          rw [← hblock]
          simp [List.isPrefixOf, Bool.beq_comm]
      rw [startsDdlComment, hslash, show isMysqlLineCommentText (c :: rest) = false from hline]
      simpa using hhash

theorem splitOnce_length {text before after : Text}
    (h : splitOnce "*/".toList text = some (before, after)) : after.length ≤ text.length := by
  rw [eq_of_splitOnce h, List.length_append, List.length_append]
  omega

/-- Every step consumes its head. -/
theorem ReadsStep.length_le {c : Char} {token : Option Text} (h : ReadsStep noEscapes c rest token next) :
    next.length ≤ rest.length := by
  cases h with
  | blank => exact Nat.le_refl _
  | lineComment =>
    have hline := (List.dropWhile_suffix (l := rest.drop 1) (· != '\n')).length_le
    rw [List.length_drop] at hline
    omega
  | hashComment => exact (List.dropWhile_suffix _).length_le
  | blockComment hsplit => exact Nat.le_succ_of_le (splitOnce_length hsplit)
  | identifier => simp
  | literal => simp
  | word => exact (List.dropWhile_suffix _).length_le
  | symbol => exact Nat.le_refl _

theorem consumes_ddlStep {β : Type} (noEscapes : Bool)
    (out : Char → Text → Option Text → Text → Option β) : Core.Consumes (ddlStep noEscapes out) := by
  intro c rest result next h
  obtain ⟨⟨token, after⟩, hstep, h⟩ := bind_eq_ok.mp h
  cases h
  exact (readsStep hstep).length_le

/-! ## Runs of the tokenizer -/

/-- The token that a step puts out, with its flag. -/
def stepToken (character : Char) (token : Option Text) : Option DdlToken :=
  token.map fun text => ⟨text, isIdentifierQuote character⟩

theorem tokenizeDdl_eq_scan (sql : Text) :
    tokenizeDdl sql noEscapes =
      Core.scan (ddlStep noEscapes fun character _ token _ => stepToken character token) sql := by
  have hfrom : ∀ (fuel : Nat) (text : Text), tokenizeDdlFrom noEscapes fuel text =
      Core.scanFrom (ddlStep noEscapes fun character _ token _ => stepToken character token) fuel
        text := by
    intro fuel
    induction fuel with
    | zero => intro text; rfl
    | succ fuel ih =>
      intro text
      cases text with
      | nil => rfl
      | cons c rest =>
        rw [tokenizeDdlFrom, Core.scanFrom, ddlStep]
        cases tokenizeDdlStep noEscapes c rest with
        | error failure => rfl
        | ok read => simp only [ok_bind, ih]; rfl
  exact hfrom sql.length sql

variable {β : Type} {out : Char → Text → Option Text → Text → Option β}

theorem scan_ddlStep_cons {c : Char} {token : Option Text}
    (h : tokenizeDdlStep noEscapes c rest = .ok (token, next)) :
    Core.scan (ddlStep noEscapes out) (c :: rest) =
      (Core.scan (ddlStep noEscapes out) next).map ((out c rest token next).toList ++ ·) := by
  apply Core.scan_cons (consumes_ddlStep noEscapes out)
  rw [ddlStep, h]
  rfl

theorem tokenizeDdl_cons {c : Char} {token : Option Text}
    (h : tokenizeDdlStep noEscapes c rest = .ok (token, next)) :
    tokenizeDdl (c :: rest) noEscapes =
      (tokenizeDdl next noEscapes).map ((stepToken c token).toList ++ ·) := by
  rw [tokenizeDdl_eq_scan, tokenizeDdl_eq_scan, scan_ddlStep_cons h]

/-- What holds of the empty text, and of a text whenever it holds where its first step ends, holds
of every text that the tokenizer reads. -/
theorem ddl_induction {motive : Text → List β → Prop} (nil : motive [] [])
    (cons : ∀ c rest token next outs, tokenizeDdlStep noEscapes c rest = .ok (token, next) →
      ReadsStep noEscapes c rest token next → Core.scan (ddlStep noEscapes out) next = .ok outs →
      motive next outs → motive (c :: rest) ((out c rest token next).toList ++ outs))
    {text : Text} {outs : List β} (h : Core.scan (ddlStep noEscapes out) text = .ok outs) :
    motive text outs := by
  refine Core.scan_induction (consumes_ddlStep noEscapes out) nil ?_ h
  intro c rest result next outs hstep hscan hnext
  obtain ⟨⟨token, after⟩, hread, hstep⟩ := bind_eq_ok.mp hstep
  cases hstep
  exact cons c rest token next outs hread (readsStep hread) hscan hnext

/-- A text that is read with one output is read with every other. -/
theorem exists_scan_of_tokenizeDdl {tokens : List DdlToken} {sql : Text}
    (h : tokenizeDdl sql noEscapes = .ok tokens) :
    ∃ outs, Core.scan (ddlStep noEscapes out) sql = .ok outs := by
  rw [tokenizeDdl_eq_scan] at h
  refine ddl_induction (motive := fun text _ => ∃ outs, Core.scan (ddlStep noEscapes out) text = .ok outs)
    ⟨[], rfl⟩ ?_ h
  rintro c rest token next _ hstep - - ⟨outs, houts⟩
  exact ⟨_, by rw [scan_ddlStep_cons hstep, houts]; rfl⟩

end Ddl

end BinlogCdc
