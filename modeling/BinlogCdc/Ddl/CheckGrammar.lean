import BinlogCdc.Core.Result
import BinlogCdc.Ddl.CheckMetadata
import BinlogCdc.Schema.ColumnKind

/-!
# The grammar of CHECK predicates

A predicate is spelled by tokens and the values of their literals: AND binds tighter than OR, both
group to the left, any predicate may stand in parentheses, and the equality of truth values takes
two operands in parentheses. What the parser accepts is spelled by the tokens that it consumes.
-/

namespace BinlogCdc

namespace Ddl

open Text

/-! ## Keywords -/

/-- An unquoted token that is a keyword in any case. -/
structure Keyword (keyword : String) (token : DdlToken) : Prop where
  text : eqIgnoreAsciiCase token.text keyword.toList = true
  quoted : token.quoted = false

/-- The tokens start with a keyword. -/
def startsWith (keyword : String) (tokens : List DdlToken) : Bool :=
  tokensMatch tokens 0 keyword && !isQuoted tokens 0

theorem startsWith_eq (keyword : String) (tokens : List DdlToken) :
    (tokensMatch tokens 0 keyword && !isQuoted tokens 0) = startsWith keyword tokens := rfl

section Keywords

variable {keyword other : String} {token : DdlToken} {tokens rest : List DdlToken} {offset : Nat}

theorem startsWith_cons_iff : startsWith keyword (token :: rest) = true ↔ Keyword keyword token := by
  unfold startsWith tokensMatch isQuoted
  rw [List.getElem?_cons_zero]
  dsimp only
  constructor
  · intro h
    rw [Bool.and_eq_true, Bool.not_eq_true'] at h
    exact ⟨h.1, h.2⟩
  · intro h
    rw [h.text, h.quoted]
    rfl

theorem Keyword.startsWith (h : Keyword keyword token) : startsWith keyword (token :: rest) = true :=
  startsWith_cons_iff.mpr h

/-- One token is not two keywords. -/
theorem Keyword.not_other (h : Keyword keyword token)
    (hne : eqIgnoreAsciiCase keyword.toList other.toList = false) : ¬ Keyword other token := by
  intro hother
  have htext := h.text
  have hotherText := hother.text
  unfold eqIgnoreAsciiCase at htext hotherText hne
  rw [beq_iff_eq] at htext hotherText
  rw [← htext, ← hotherText, beq_self_eq_true] at hne
  cases hne

theorem Keyword.startsWith_eq_false (h : Keyword keyword token)
    (hne : eqIgnoreAsciiCase keyword.toList other.toList = false) :
    Ddl.startsWith other (token :: rest) = false := by
  rw [← Bool.not_eq_true, startsWith_cons_iff]
  exact h.not_other hne

/-- An identifier is no parenthesis. -/
theorem not_opening_of_identifier (h : isIdentifier token.text = true) : ¬ Keyword "(" token := by
  intro hkey
  have htext : toAsciiUppercase token.text = ['('] := eq_of_beq hkey.text
  cases hfirst : token.text with
  | nil =>
    rw [hfirst] at h
    cases h
  | cons first more =>
    rw [hfirst] at h htext
    obtain ⟨hhead, -⟩ := List.cons.inj htext
    unfold isIdentifier at h
    rw [Bool.and_eq_true, Bool.or_eq_true, beq_iff_eq] at h
    obtain ⟨hfirst, -⟩ := h
    unfold Char.toUpper at hhead
    split at hhead
    · next hlower =>
      have hcode : 97 ≤ first.toNat ∧ first.toNat ≤ 122 := hlower
      have hupper : (first.val + ('A'.val - 'a'.val)).toNat = first.toNat - 32 := by
        rw [UInt32.toNat_add, show ('A'.val - 'a'.val).toNat = 2 ^ 32 - 32 from rfl]
        change (first.toNat + _) % _ = _
        omega
      have hopening := congrArg (fun c : Char => c.val.toNat) hhead
      dsimp only at hopening
      rw [hupper] at hopening
      have hsymbol : '('.val.toNat = 40 := by decide
      omega
    · obtain rfl : first = '(' := hhead
      exact absurd hfirst (by decide)

theorem requireUnquotedKeyword_eq_ok {result : Unit} :
    requireUnquotedKeyword tokens offset keyword = .ok result ↔
      ∃ token, tokens[offset]? = some token ∧ Keyword keyword token := by
  unfold requireUnquotedKeyword tokensMatch isQuoted
  cases hget : tokens[offset]? with
  | none => simp
  | some token =>
    dsimp only
    constructor
    · intro h
      split_ifs at h with hkeyword
      rw [Bool.and_eq_true, Bool.not_eq_true'] at hkeyword
      exact ⟨token, rfl, hkeyword.1, hkeyword.2⟩
    · rintro ⟨found, hfound, hkeyword⟩
      obtain rfl := Option.some.inj hfound
      rw [if_pos]
      rw [hkeyword.text, hkeyword.quoted]
      rfl

theorem requireUnquotedKeyword_of_getElem? (hget : tokens[offset]? = some token)
    (h : Keyword keyword token) : requireUnquotedKeyword tokens offset keyword = .ok () :=
  requireUnquotedKeyword_eq_ok.mpr ⟨token, hget, h⟩

theorem requireUnquotedKeyword_cons (h : Keyword keyword token) :
    requireUnquotedKeyword (token :: rest) 0 keyword = .ok () :=
  requireUnquotedKeyword_eq_ok.mpr ⟨token, rfl, h⟩

theorem requireIdentifier_eq_ok {context : String} {name : Text} :
    requireIdentifier tokens offset context = .ok name ↔
      ∃ token, tokens[offset]? = some token ∧ isIdentifier token.text = true ∧
        token.text = name := by
  unfold requireIdentifier
  cases hget : tokens[offset]? with
  | none => simp
  | some token =>
    dsimp only
    split_ifs with hidentifier
    · simp [hidentifier]
    · simp [hidentifier]

/-- The first tokens of a list. -/
theorem eq_cons_of_getElem? {first : DdlToken} (h : tokens[0]? = some first) :
    tokens = first :: tokens.drop 1 := by
  cases tokens with
  | nil => cases h
  | cons token rest =>
    obtain rfl := Option.some.inj h
    rfl

theorem drop_eq_cons (h : tokens[offset]? = some token) :
    tokens.drop offset = token :: tokens.drop (offset + 1) := by
  have hfirst : (tokens.drop offset)[0]? = some token := by
    rw [List.getElem?_drop, Nat.add_zero]
    exact h
  rw [← List.drop_drop]
  exact eq_cons_of_getElem? hfirst

theorem startsWith_drop_one :
    (tokensMatch tokens 1 keyword && !isQuoted tokens 1) = startsWith keyword (tokens.drop 1) := by
  cases tokens <;> rfl

theorem eq_cons_cons_of_getElem? {second : DdlToken} (h : tokens[1]? = some second) :
    ∃ first, tokens = first :: second :: tokens.drop 2 := by
  cases tokens with
  | nil => cases h
  | cons first rest =>
    rw [List.getElem?_cons_succ] at h
    refine ⟨first, ?_⟩
    rw [List.drop_succ_cons, ← eq_cons_of_getElem? h]

theorem startsWith_iff : startsWith keyword tokens = true ↔
    ∃ token, Keyword keyword token ∧ tokens = token :: tokens.drop 1 := by
  cases tokens with
  | nil => simp [startsWith, tokensMatch]
  | cons first rest =>
    rw [startsWith_cons_iff]
    constructor
    · intro h
      exact ⟨first, h, rfl⟩
    · rintro ⟨token, h, heq⟩
      rw [(List.cons.inj heq).1]
      exact h

end Keywords

/-! ## Spellings -/

/-- A column as the argument of a function: in any number of parentheses. -/
inductive SpelledArgument : Text → List DdlToken → Prop
  | nested {token : DdlToken} {openings closings : List DdlToken}
      (hopenings : ∀ opening ∈ openings, Keyword "(" opening)
      (hclosings : ∀ closing ∈ closings, Keyword ")" closing)
      (hlength : closings.length = openings.length) (hcolumn : isIdentifier token.text = true) :
      SpelledArgument token.text (openings ++ token :: closings)

/-- String literals between commas. -/
inductive SpelledStrings : List Text → List DdlToken → Prop
  | single {token : DdlToken} {value : Text} (hstring : Keyword "<string>" token)
      (hvalue : isWordLiteral value = true) : SpelledStrings [value] [token]
  | cons {token comma : DdlToken} {value : Text} {values : List Text} {tokens : List DdlToken}
      (hstring : Keyword "<string>" token) (hcomma : Keyword "," comma)
      (hvalue : isWordLiteral value = true) (hrest : SpelledStrings values tokens) :
      SpelledStrings (value :: values) (token :: comma :: tokens)

/-- A column outside a function: not the name of a function. -/
structure SpelledColumn (token : DdlToken) : Prop where
  identifier : isIdentifier token.text = true
  not_jsonValid : ¬ Keyword "JSON_VALID" token
  not_octetLength : ¬ Keyword "OCTET_LENGTH" token

/-- An atomic predicate, its tokens, and the values of its literals. -/
inductive SpelledAtom : CheckPredicate → List DdlToken → List Text → Prop
  | isNull {column is null : DdlToken} (hcolumn : SpelledColumn column) (his : Keyword "IS" is)
      (hnull : Keyword "NULL" null) : SpelledAtom (.isNull column.text) [column, is, null] []
  | stringEquals {column equals string : DdlToken} {value : Text} (hcolumn : SpelledColumn column)
      (hequals : Keyword "=" equals) (hstring : Keyword "<string>" string)
      (hvalue : isWordLiteral value = true) :
      SpelledAtom (.stringEquals column.text value) [column, equals, string] [value]
  | inStrings {column inside opening closing : DdlToken} {values : List Text}
      {tokens : List DdlToken} (hcolumn : SpelledColumn column) (hinside : Keyword "IN" inside)
      (hopening : Keyword "(" opening) (hstrings : SpelledStrings values tokens)
      (hclosing : Keyword ")" closing) :
      SpelledAtom (.inStrings column.text values)
        (column :: inside :: opening :: (tokens ++ [closing])) values
  | jsonValid {function opening closing : DdlToken} {column : Text} {tokens : List DdlToken}
      (hfunction : Keyword "JSON_VALID" function) (hopening : Keyword "(" opening)
      (hargument : SpelledArgument column tokens) (hclosing : Keyword ")" closing) :
      SpelledAtom (.jsonValid column) (function :: opening :: (tokens ++ [closing])) []
  | octetLength {function opening closing less equals : DdlToken} {column : Text}
      {tokens : List DdlToken} {limit : Nat} (hfunction : Keyword "OCTET_LENGTH" function)
      (hopening : Keyword "(" opening) (hargument : SpelledArgument column tokens)
      (hclosing : Keyword ")" closing) (hless : Keyword "<" less) (hequals : Keyword "=" equals)
      (hpositive : 0 < limit) (hlimit : limit < 2 ^ 64) :
      SpelledAtom (.octetLengthAtMost column limit) (function :: opening ::
        (tokens ++ [closing, less, equals, ⟨Nat.toDigits 10 limit, false⟩])) []

/-- How loosely the operators of a predicate may bind. -/
inductive CheckLevel where
  | operand
  | term
  | conjunction
  | disjunction
  deriving DecidableEq, Repr

/-- A predicate of a level, its tokens, and the values of its literals. -/
inductive Spelled : CheckLevel → CheckPredicate → List DdlToken → List Text → Prop
  | atom {predicate : CheckPredicate} {tokens : List DdlToken} {literals : List Text}
      (h : SpelledAtom predicate tokens literals) : Spelled .operand predicate tokens literals
  | parentheses {predicate : CheckPredicate} {opening closing : DdlToken}
      {tokens : List DdlToken} {literals : List Text} (hopening : Keyword "(" opening)
      (h : Spelled .disjunction predicate tokens literals) (hclosing : Keyword ")" closing) :
      Spelled .operand predicate (opening :: (tokens ++ [closing])) literals
  | operand {predicate : CheckPredicate} {tokens : List DdlToken} {literals : List Text}
      (h : Spelled .operand predicate tokens literals) : Spelled .term predicate tokens literals
  | equality {left right : CheckPredicate} {equals : DdlToken}
      {leftTokens rightTokens : List DdlToken} {leftLiterals rightLiterals : List Text}
      (hleft : Spelled .operand left leftTokens leftLiterals)
      (hleftGroup : startsWith "(" leftTokens = true) (hequals : Keyword "=" equals)
      (hright : Spelled .operand right rightTokens rightLiterals)
      (hrightGroup : startsWith "(" rightTokens = true)
      (hmodeled : isModeledEquality left right = true) :
      Spelled .term (.booleanEquals left right) (leftTokens ++ equals :: rightTokens)
        (leftLiterals ++ rightLiterals)
  | term {predicate : CheckPredicate} {tokens : List DdlToken} {literals : List Text}
      (h : Spelled .term predicate tokens literals) :
      Spelled .conjunction predicate tokens literals
  | and {left right : CheckPredicate} {keyword : DdlToken}
      {leftTokens rightTokens : List DdlToken} {leftLiterals rightLiterals : List Text}
      (hleft : Spelled .conjunction left leftTokens leftLiterals) (hand : Keyword "AND" keyword)
      (hright : Spelled .term right rightTokens rightLiterals) :
      Spelled .conjunction (.and left right) (leftTokens ++ keyword :: rightTokens)
        (leftLiterals ++ rightLiterals)
  | conjunction {predicate : CheckPredicate} {tokens : List DdlToken} {literals : List Text}
      (h : Spelled .conjunction predicate tokens literals) :
      Spelled .disjunction predicate tokens literals
  | or {left right : CheckPredicate} {keyword : DdlToken}
      {leftTokens rightTokens : List DdlToken} {leftLiterals rightLiterals : List Text}
      (hleft : Spelled .disjunction left leftTokens leftLiterals) (hor : Keyword "OR" keyword)
      (hright : Spelled .conjunction right rightTokens rightLiterals) :
      Spelled .disjunction (.or left right) (leftTokens ++ keyword :: rightTokens)
        (leftLiterals ++ rightLiterals)

/-! ## Accepted atoms -/

section Atoms

variable {tokens next : List DdlToken} {literals left : List Text}

theorem isIdentifier_of_spelledArgument {column : Text} (h : SpelledArgument column tokens) :
    isIdentifier column = true := by
  cases h with
  | nested _ _ _ hcolumn => exact hcolumn

/-- The three components of a result. -/
theorem ok_triple {α β γ : Type} {a a' : α} {b b' : β} {c c' : γ}
    (h : (.ok (a, b, c) : Except String (α × β × γ)) = .ok (a', b', c')) :
    a = a' ∧ b = b' ∧ c = c' := by
  cases h
  exact ⟨rfl, rfl, rfl⟩

theorem parseU64_lt {text : Text} {number : Nat} (h : parseU64 text = some number) :
    number < 2 ^ 64 := by
  unfold parseU64 at h
  dsimp only at h
  split_ifs at h with _ hlt
  obtain rfl := Option.some.inj h
  exact hlt

theorem requireClosings_ok {count : Nat} (h : requireClosings count tokens = .ok next) :
    ∃ closings : List DdlToken, (∀ closing ∈ closings, Keyword ")" closing) ∧
      closings.length = count ∧ tokens = closings ++ next := by
  induction count generalizing tokens with
  | zero =>
    obtain rfl := Except.ok.inj h
    exact ⟨[], by simp, rfl, rfl⟩
  | succ count ih =>
    rw [requireClosings] at h
    obtain ⟨_, hclosing, h⟩ := bind_eq_ok.mp h
    obtain ⟨closing, hfirst, hkeyword⟩ := requireUnquotedKeyword_eq_ok.mp hclosing
    obtain ⟨closings, hclosings, hlength, htokens⟩ := ih h
    refine ⟨closing :: closings, List.forall_mem_cons.mpr ⟨hkeyword, hclosings⟩, by simp [hlength], ?_⟩
    rw [eq_cons_of_getElem? hfirst, htokens]
    rfl

/-- The opening parentheses at the head. -/
theorem openingDepth_spec (tokens : List DdlToken) :
    (∀ opening ∈ tokens.take (openingDepth tokens), Keyword "(" opening) ∧
      (tokens.take (openingDepth tokens)).length = openingDepth tokens := by
  unfold openingDepth
  rw [← List.prefix_iff_eq_take.mp (List.takeWhile_prefix _)]
  refine ⟨?_, rfl⟩
  intro opening hmem
  have h := List.mem_takeWhile_imp hmem
  rw [Bool.and_eq_true, Bool.not_eq_true'] at h
  exact ⟨h.1, h.2⟩

theorem parseFunctionArgument_ok {column : Text}
    (h : parseFunctionArgument tokens = .ok (column, next)) :
    ∃ consumed, SpelledArgument column consumed ∧ tokens = consumed ++ next := by
  unfold parseFunctionArgument at h
  obtain ⟨name, hname, h⟩ := bind_eq_ok.mp h
  obtain ⟨rest, hrest, h⟩ := bind_eq_ok.mp h
  obtain ⟨rfl, rfl⟩ := Prod.mk.inj (Except.ok.inj h)
  obtain ⟨token, hget, hidentifier, rfl⟩ := requireIdentifier_eq_ok.mp hname
  obtain ⟨closings, hclosings, hlength, hdrop⟩ := requireClosings_ok hrest
  obtain ⟨hopenings, hsplit⟩ := openingDepth_spec tokens
  refine ⟨tokens.take (openingDepth tokens) ++ token :: closings, ?_, ?_⟩
  · refine .nested hopenings hclosings ?_ hidentifier
    rw [hlength, hsplit]
  · have hrest := drop_eq_cons hget
    rw [hdrop] at hrest
    rw [List.append_assoc, List.cons_append, ← hrest, List.take_append_drop]

theorem parseFunctionColumn_ok {column : Text}
    (h : parseFunctionColumn tokens = .ok (column, next)) :
    ∃ function opening consumed closing, Keyword "(" opening ∧ SpelledArgument column consumed ∧
      Keyword ")" closing ∧ tokens = function :: opening :: (consumed ++ closing :: next) := by
  unfold parseFunctionColumn at h
  obtain ⟨_, hopening, h⟩ := bind_eq_ok.mp h
  obtain ⟨⟨name, rest⟩, hargument, h⟩ := bind_eq_ok.mp h
  obtain ⟨_, hclosing, h⟩ := bind_eq_ok.mp h
  obtain ⟨rfl, rfl⟩ := Prod.mk.inj (Except.ok.inj h)
  obtain ⟨opening, hget, hopening⟩ := requireUnquotedKeyword_eq_ok.mp hopening
  obtain ⟨consumed, hspelled, hdrop⟩ := parseFunctionArgument_ok hargument
  obtain ⟨closing, hfirst, hclosing⟩ := requireUnquotedKeyword_eq_ok.mp hclosing
  obtain ⟨function, htokens⟩ := eq_cons_cons_of_getElem? hget
  refine ⟨function, opening, consumed, closing, hopening, hspelled, hclosing, ?_⟩
  rw [← eq_cons_of_getElem? hfirst, ← hdrop]
  exact htokens

theorem parseCheckString_ok {value : Text} {more : List Text}
    (h : parseCheckString tokens literals = .ok (value, next, more)) :
    ∃ token, Keyword "<string>" token ∧ isWordLiteral value = true ∧ tokens = token :: next ∧
      literals = value :: more := by
  unfold parseCheckString at h
  obtain ⟨_, hstring, h⟩ := bind_eq_ok.mp h
  obtain ⟨token, hget, hstring⟩ := requireUnquotedKeyword_eq_ok.mp hstring
  cases literals with
  | nil => cases h
  | cons first literals =>
    dsimp only at h
    split_ifs at h with hword
    obtain ⟨rfl, rfl, rfl⟩ := ok_triple h
    exact ⟨token, hstring, hword, eq_cons_of_getElem? hget, rfl⟩

theorem parseCheckStrings_ok {fuel : Nat} {values more : List Text}
    (h : parseCheckStrings fuel tokens literals = .ok (values, next, more)) :
    ∃ consumed closing, SpelledStrings values consumed ∧ Keyword ")" closing ∧
      tokens = consumed ++ closing :: next ∧ literals = values ++ more := by
  induction fuel generalizing tokens literals values with
  | zero => cases h
  | succ fuel ih =>
    rw [parseCheckStrings] at h
    obtain ⟨⟨value, rest, others⟩, hvalue, h⟩ := bind_eq_ok.mp h
    obtain ⟨token, hstring, hword, htokens, hliterals⟩ := parseCheckString_ok hvalue
    dsimp only at h
    rw [startsWith_eq] at h
    by_cases hclosing : startsWith ")" rest = true
    · rw [if_pos hclosing] at h
      obtain ⟨rfl, rfl, rfl⟩ := ok_triple h
      obtain ⟨closing, hclosing, hrest⟩ := startsWith_iff.mp hclosing
      refine ⟨[token], closing, .single hstring hword, hclosing, ?_, hliterals⟩
      rw [htokens, hrest]
      rfl
    · rw [if_neg hclosing] at h
      obtain ⟨_, hcomma, h⟩ := bind_eq_ok.mp h
      obtain ⟨comma, hget, hcomma⟩ := requireUnquotedKeyword_eq_ok.mp hcomma
      obtain ⟨⟨further, last, others'⟩, hfurther, h⟩ := bind_eq_ok.mp h
      obtain ⟨rfl, rfl, rfl⟩ := ok_triple h
      obtain ⟨consumed, closing, hspelled, hclosing, hdrop, rfl⟩ := ih hfurther
      refine ⟨token :: comma :: consumed, closing, .cons hstring hcomma hword hspelled, hclosing, ?_,
        hliterals⟩
      rw [htokens, eq_cons_of_getElem? hget, hdrop]
      rfl

theorem parseOctetLimit_ok {limit : Nat} (h : parseOctetLimit tokens = .ok limit) :
    0 < limit ∧ limit < 2 ^ 64 ∧ tokens[0]? = some ⟨Nat.toDigits 10 limit, false⟩ := by
  unfold parseOctetLimit at h
  cases hget : tokens[0]? with
  | none =>
    rw [hget] at h
    cases h
  | some token =>
    rw [hget] at h
    dsimp only at h
    cases hparse : parseU64 token.text with
    | none =>
      rw [hparse] at h
      cases h
    | some number =>
      rw [hparse] at h
      dsimp only at h
      split_ifs at h with hcanonical
      obtain rfl := Except.ok.inj h
      rw [Bool.or_eq_true, Bool.or_eq_true, not_or, not_or, beq_iff_eq, bne_iff_ne, not_not,
        Bool.not_eq_true] at hcanonical
      obtain ⟨⟨hzero, hdigits⟩, hquoted⟩ := hcanonical
      refine ⟨Nat.pos_of_ne_zero hzero, parseU64_lt hparse, ?_⟩
      rw [hdigits, ← hquoted]

/-- An accepted atom is spelled by the tokens that it consumes. -/
theorem parsePredicate_ok {predicate : CheckPredicate} {more : List Text}
    (h : parsePredicate tokens literals = .ok (predicate, next, more)) :
    ∃ consumed read, SpelledAtom predicate consumed read ∧ tokens = consumed ++ next ∧
      literals = read ++ more := by
  unfold parsePredicate at h
  rw [startsWith_eq, startsWith_eq] at h
  by_cases hjson : startsWith "JSON_VALID" tokens = true
  · rw [if_pos hjson] at h
    obtain ⟨⟨column, rest⟩, hcolumn, h⟩ := bind_eq_ok.mp h
    obtain ⟨rfl, rfl, rfl⟩ := ok_triple h
    obtain ⟨function, opening, argument, closing, hopening, hargument, hclosing, htokens⟩ :=
      parseFunctionColumn_ok hcolumn
    rw [htokens] at hjson ⊢
    exact ⟨_, _, .jsonValid (startsWith_cons_iff.mp hjson) hopening hargument hclosing, by simp, rfl⟩
  · rw [if_neg hjson] at h
    by_cases hoctet : startsWith "OCTET_LENGTH" tokens = true
    · rw [if_pos hoctet] at h
      obtain ⟨⟨column, rest⟩, hcolumn, h⟩ := bind_eq_ok.mp h
      obtain ⟨_, hless, h⟩ := bind_eq_ok.mp h
      obtain ⟨_, hequals, h⟩ := bind_eq_ok.mp h
      obtain ⟨limit, hlimit, h⟩ := bind_eq_ok.mp h
      obtain ⟨rfl, rfl, rfl⟩ := ok_triple h
      obtain ⟨function, opening, argument, closing, hopening, hargument, hclosing, htokens⟩ :=
        parseFunctionColumn_ok hcolumn
      obtain ⟨less, hgetLess, hless⟩ := requireUnquotedKeyword_eq_ok.mp hless
      obtain ⟨equals, hgetEquals, hequals⟩ := requireUnquotedKeyword_eq_ok.mp hequals
      obtain ⟨hpositive, hbound, hgetLimit⟩ := parseOctetLimit_ok hlimit
      rw [htokens] at hoctet ⊢
      refine ⟨_, _, .octetLength (startsWith_cons_iff.mp hoctet) hopening hargument hclosing hless
        hequals hpositive hbound, ?_, rfl⟩
      rw [eq_cons_of_getElem? hgetLess, drop_eq_cons hgetEquals, eq_cons_of_getElem? hgetLimit,
        List.drop_drop]
      simp
    · rw [if_neg hoctet] at h
      obtain ⟨name, hname, h⟩ := bind_eq_ok.mp h
      obtain ⟨column, hget, hidentifier, rfl⟩ := requireIdentifier_eq_ok.mp hname
      have htokens := eq_cons_of_getElem? hget
      have hcolumn : SpelledColumn column := by
        rw [htokens] at hjson hoctet
        exact ⟨hidentifier, fun hkey => hjson hkey.startsWith, fun hkey => hoctet hkey.startsWith⟩
      rw [startsWith_drop_one, startsWith_drop_one] at h
      by_cases his : startsWith "IS" (tokens.drop 1) = true
      · rw [if_pos his] at h
        obtain ⟨_, hnull, h⟩ := bind_eq_ok.mp h
        obtain ⟨rfl, rfl, rfl⟩ := ok_triple h
        obtain ⟨is, his, hrest⟩ := startsWith_iff.mp his
        obtain ⟨null, hgetNull, hnull⟩ := requireUnquotedKeyword_eq_ok.mp hnull
        refine ⟨_, _, .isNull hcolumn his hnull, ?_, rfl⟩
        rw [List.drop_drop, drop_eq_cons hgetNull] at hrest
        rw [htokens, hrest]
        rfl
      · rw [if_neg his] at h
        by_cases hequals : startsWith "=" (tokens.drop 1) = true
        · rw [if_pos hequals] at h
          obtain ⟨⟨value, rest, others⟩, hvalue, h⟩ := bind_eq_ok.mp h
          obtain ⟨rfl, rfl, rfl⟩ := ok_triple h
          obtain ⟨equals, hequals, hrest⟩ := startsWith_iff.mp hequals
          obtain ⟨string, hstring, hword, hdrop, hliterals⟩ := parseCheckString_ok hvalue
          refine ⟨_, _, .stringEquals hcolumn hequals hstring hword, ?_, hliterals⟩
          rw [List.drop_drop, hdrop] at hrest
          rw [htokens, hrest]
          rfl
        · rw [if_neg hequals] at h
          obtain ⟨_, hinside, h⟩ := bind_eq_ok.mp h
          obtain ⟨_, hopening, h⟩ := bind_eq_ok.mp h
          obtain ⟨⟨values, rest, others⟩, hvalues, h⟩ := bind_eq_ok.mp h
          obtain ⟨rfl, rfl, rfl⟩ := ok_triple h
          obtain ⟨inside, hgetInside, hinside⟩ := requireUnquotedKeyword_eq_ok.mp hinside
          obtain ⟨opening, hgetOpening, hopening⟩ := requireUnquotedKeyword_eq_ok.mp hopening
          obtain ⟨strings, closing, hstrings, hclosing, hdrop, hliterals⟩ :=
            parseCheckStrings_ok hvalues
          refine ⟨_, _, .inStrings hcolumn hinside hopening hstrings hclosing, ?_, hliterals⟩
          rw [htokens, drop_eq_cons hgetInside, drop_eq_cons hgetOpening, hdrop]
          simp

end Atoms

/-! ## Accepted predicates -/

section Predicates

variable {tokens next : List DdlToken} {literals left : List Text} {predicate : CheckPredicate}

/-- The tokens and literals consumed spell a predicate of the level. -/
def Consumes (level : CheckLevel) (predicate : CheckPredicate) (tokens : List DdlToken)
    (literals : List Text) (next : List DdlToken) (left : List Text) : Prop :=
  ∃ consumed read, Spelled level predicate consumed read ∧ tokens = consumed ++ next ∧
    literals = read ++ left

/-- The tokens and literals consumed continue a predicate of the level. -/
def Continues (level : CheckLevel) (start predicate : CheckPredicate) (tokens : List DdlToken)
    (literals : List Text) (next : List DdlToken) (left : List Text) : Prop :=
  ∀ before readBefore, Spelled level start before readBefore →
    ∃ consumed read, Spelled level predicate (before ++ consumed) (readBefore ++ read) ∧
      tokens = consumed ++ next ∧ literals = read ++ left

theorem Spelled.ne_nil {level : CheckLevel} (h : Spelled level predicate tokens literals) :
    tokens ≠ [] := by
  induction h with
  | atom h => cases h <;> simp
  | operand _ ih => exact ih
  | term _ ih => exact ih
  | conjunction _ ih => exact ih
  | _ => simp

theorem startsWith_append {keyword : String} (h : tokens ≠ []) (rest : List DdlToken) :
    startsWith keyword (tokens ++ rest) = startsWith keyword tokens := by
  cases tokens with
  | nil => exact absurd rfl h
  | cons token tokens => rfl

theorem startsWith_of_require {keyword : String} {result : Unit}
    (h : requireUnquotedKeyword tokens 0 keyword = .ok result) : startsWith keyword tokens = true := by
  obtain ⟨token, hget, hkeyword⟩ := requireUnquotedKeyword_eq_ok.mp h
  exact startsWith_iff.mpr ⟨token, hkeyword, eq_cons_of_getElem? hget⟩

theorem startsWith_drop_of_require {keyword : String} {result : Unit}
    (h : requireUnquotedKeyword tokens 1 keyword = .ok result) :
    startsWith keyword (tokens.drop 1) = true := by
  obtain ⟨token, hget, hkeyword⟩ := requireUnquotedKeyword_eq_ok.mp h
  rw [drop_eq_cons hget]
  exact hkeyword.startsWith

/-- What each function of the grammar consumes, with some fuel. -/
structure ConsumesSpelled (fuel : Nat) : Prop where
  conjunction : ∀ {tokens next literals left predicate},
    parseConjunction fuel tokens literals = .ok (predicate, next, left) →
      Consumes .conjunction predicate tokens literals next left
  furtherConjuncts : ∀ {start tokens next literals left predicate},
    parseFurtherConjuncts fuel start tokens literals = .ok (predicate, next, left) →
      Continues .conjunction start predicate tokens literals next left
  term : ∀ {tokens next literals left predicate},
    parseBooleanTerm fuel tokens literals = .ok (predicate, next, left) →
      Consumes .term predicate tokens literals next left
  operand : ∀ {tokens next literals left predicate},
    parseGroupOrAtom fuel tokens literals = .ok (predicate, next, left) →
      Consumes .operand predicate tokens literals next left
  furtherDisjuncts : ∀ {start tokens next literals left predicate},
    parseFurtherDisjuncts fuel start tokens literals = .ok (predicate, next, left) →
      Continues .disjunction start predicate tokens literals next left

section Step

variable {fuel : Nat} (ih : ConsumesSpelled fuel)

include ih

theorem consumes_conjunction
    (h : parseConjunction (fuel + 1) tokens literals = .ok (predicate, next, left)) :
    Consumes .conjunction predicate tokens literals next left := by
  rw [parseConjunction] at h
  obtain ⟨⟨first, rest, others⟩, hfirst, h⟩ := bind_eq_ok.mp h
  obtain ⟨before, readBefore, hbefore, htokens, hliterals⟩ := ih.term hfirst
  obtain ⟨consumed, read, hspelled, hrest, hothers⟩ :=
    ih.furtherConjuncts h before readBefore (.term hbefore)
  refine ⟨_, _, hspelled, ?_, ?_⟩
  · rw [htokens, hrest, List.append_assoc]
  · rw [hliterals, hothers, List.append_assoc]

theorem continues_furtherConjuncts {start : CheckPredicate}
    (h : parseFurtherConjuncts (fuel + 1) start tokens literals = .ok (predicate, next, left)) :
    Continues .conjunction start predicate tokens literals next left := by
  intro before readBefore hbefore
  rw [parseFurtherConjuncts, startsWith_eq] at h
  by_cases hand : startsWith "AND" tokens = true
  · rw [if_pos hand] at h
    obtain ⟨⟨right, rest, others⟩, hright, h⟩ := bind_eq_ok.mp h
    obtain ⟨keyword, hand, htokens⟩ := startsWith_iff.mp hand
    obtain ⟨rightTokens, readRight, hright, hdrop, hliterals⟩ := ih.term hright
    obtain ⟨consumed, read, hspelled, hrest, hothers⟩ :=
      ih.furtherConjuncts h _ _ (.and hbefore hand hright)
    refine ⟨keyword :: rightTokens ++ consumed, readRight ++ read, ?_, ?_, ?_⟩
    · rw [← List.append_assoc, ← List.append_assoc]
      exact hspelled
    · rw [htokens, hdrop, hrest, List.append_assoc]
      rfl
    · rw [hliterals, hothers, List.append_assoc]
  · rw [if_neg hand] at h
    obtain ⟨rfl, rfl, rfl⟩ := ok_triple h
    exact ⟨[], [], by simpa using hbefore, rfl, rfl⟩

theorem consumes_term
    (h : parseBooleanTerm (fuel + 1) tokens literals = .ok (predicate, next, left)) :
    Consumes .term predicate tokens literals next left := by
  rw [parseBooleanTerm] at h
  obtain ⟨⟨first, rest, others⟩, hfirst, h⟩ := bind_eq_ok.mp h
  obtain ⟨leftTokens, readLeft, hleft, htokens, hliterals⟩ := ih.operand hfirst
  dsimp only at h
  rw [startsWith_eq] at h
  by_cases hequals : startsWith "=" rest = true
  · rw [if_pos hequals] at h
    obtain ⟨_, hopening, h⟩ := bind_eq_ok.mp h
    obtain ⟨_, hopening', h⟩ := bind_eq_ok.mp h
    obtain ⟨⟨right, last, others'⟩, hright, h⟩ := bind_eq_ok.mp h
    obtain ⟨equals, hequals, hrest⟩ := startsWith_iff.mp hequals
    obtain ⟨rightTokens, readRight, hright, hdrop, hothers⟩ := ih.operand hright
    dsimp only at h
    by_cases hmodeled : isModeledEquality first right = true
    · rw [if_pos hmodeled] at h
      obtain ⟨rfl, rfl, rfl⟩ := ok_triple h
      refine ⟨_, _, .equality hleft ?_ hequals hright ?_ hmodeled, ?_, ?_⟩
      · rw [← startsWith_append hleft.ne_nil rest, ← htokens]
        exact startsWith_of_require hopening
      · rw [← startsWith_append hright.ne_nil last, ← hdrop]
        exact startsWith_drop_of_require hopening'
      · rw [htokens, hrest, hdrop]
        simp
      · rw [hliterals, hothers, List.append_assoc]
    · rw [if_neg hmodeled] at h
      cases h
  · rw [if_neg hequals] at h
    obtain ⟨rfl, rfl, rfl⟩ := ok_triple h
    exact ⟨_, _, .operand hleft, htokens, hliterals⟩

theorem consumes_operand
    (h : parseGroupOrAtom (fuel + 1) tokens literals = .ok (predicate, next, left)) :
    Consumes .operand predicate tokens literals next left := by
  rw [parseGroupOrAtom, startsWith_eq] at h
  by_cases hopening : startsWith "(" tokens = true
  · rw [if_pos hopening] at h
    obtain ⟨⟨first, rest, others⟩, hfirst, h⟩ := bind_eq_ok.mp h
    obtain ⟨⟨whole, last, others'⟩, hwhole, h⟩ := bind_eq_ok.mp h
    obtain ⟨_, hclosing, h⟩ := bind_eq_ok.mp h
    obtain ⟨rfl, rfl, rfl⟩ := ok_triple h
    obtain ⟨opening, hopening, htokens⟩ := startsWith_iff.mp hopening
    obtain ⟨closing, hget, hclosing⟩ := requireUnquotedKeyword_eq_ok.mp hclosing
    obtain ⟨before, readBefore, hbefore, hdrop, hliterals⟩ := ih.conjunction hfirst
    obtain ⟨consumed, read, hspelled, hrest, hothers⟩ :=
      ih.furtherDisjuncts hwhole before readBefore (.conjunction hbefore)
    refine ⟨_, _, .parentheses hopening hspelled hclosing, ?_, ?_⟩
    · rw [htokens, hdrop, hrest, eq_cons_of_getElem? hget]
      simp
    · rw [hliterals, hothers, List.append_assoc]
  · rw [if_neg hopening] at h
    obtain ⟨consumed, read, hspelled, htokens, hliterals⟩ := parsePredicate_ok h
    exact ⟨consumed, read, .atom hspelled, htokens, hliterals⟩

theorem continues_furtherDisjuncts {start : CheckPredicate}
    (h : parseFurtherDisjuncts (fuel + 1) start tokens literals = .ok (predicate, next, left)) :
    Continues .disjunction start predicate tokens literals next left := by
  intro before readBefore hbefore
  rw [parseFurtherDisjuncts, startsWith_eq] at h
  by_cases hor : startsWith "OR" tokens = true
  · rw [if_pos hor] at h
    obtain ⟨⟨right, rest, others⟩, hright, h⟩ := bind_eq_ok.mp h
    obtain ⟨keyword, hor, htokens⟩ := startsWith_iff.mp hor
    obtain ⟨rightTokens, readRight, hright, hdrop, hliterals⟩ := ih.conjunction hright
    obtain ⟨consumed, read, hspelled, hrest, hothers⟩ :=
      ih.furtherDisjuncts h _ _ (.or hbefore hor hright)
    refine ⟨keyword :: rightTokens ++ consumed, readRight ++ read, ?_, ?_, ?_⟩
    · rw [← List.append_assoc, ← List.append_assoc]
      exact hspelled
    · rw [htokens, hdrop, hrest, List.append_assoc]
      rfl
    · rw [hliterals, hothers, List.append_assoc]
  · rw [if_neg hor] at h
    obtain ⟨rfl, rfl, rfl⟩ := ok_triple h
    exact ⟨[], [], by simpa using hbefore, rfl, rfl⟩

end Step

theorem consumesSpelled (fuel : Nat) : ConsumesSpelled fuel := by
  induction fuel with
  | zero => constructor <;> (intros; rename_i h; cases h)
  | succ fuel ih =>
    exact ⟨consumes_conjunction ih, continues_furtherConjuncts ih, consumes_term ih,
      consumes_operand ih, continues_furtherDisjuncts ih⟩

end Predicates

/-! ## Accepted constraints -/

/-- Disjuncts with OR between them. -/
inductive SpelledDisjuncts : List CheckPredicate → List DdlToken → List Text → Prop
  | single {predicate : CheckPredicate} {tokens : List DdlToken} {literals : List Text}
      (h : Spelled .conjunction predicate tokens literals) :
      SpelledDisjuncts [predicate] tokens literals
  | cons {predicate : CheckPredicate} {predicates : List CheckPredicate} {keyword : DdlToken}
      {tokens restTokens : List DdlToken} {literals restLiterals : List Text}
      (h : Spelled .conjunction predicate tokens literals) (hor : Keyword "OR" keyword)
      (hrest : SpelledDisjuncts predicates restTokens restLiterals) :
      SpelledDisjuncts (predicate :: predicates) (tokens ++ keyword :: restTokens)
        (literals ++ restLiterals)

section Disjuncts

variable {tokens next : List DdlToken} {literals left : List Text} {predicate : CheckPredicate}
  {predicates : List CheckPredicate}

/-- The disjuncts after a disjunction belong to it. -/
theorem SpelledDisjuncts.disjunction_append (h : SpelledDisjuncts predicates tokens literals)
    {start : CheckPredicate} {keyword : DdlToken} {before : List DdlToken} {readBefore : List Text}
    (hstart : Spelled .disjunction start before readBefore) (hor : Keyword "OR" keyword) :
    Spelled .disjunction (predicates.foldl .or start) (before ++ keyword :: tokens)
      (readBefore ++ literals) := by
  induction h generalizing start keyword before readBefore with
  | single h => exact .or hstart hor h
  | cons h hor' _ ih =>
    have hnext := ih (.or hstart hor h) hor'
    rw [List.append_assoc, List.append_assoc] at hnext
    exact hnext

/-- The disjunction of disjuncts. -/
theorem SpelledDisjuncts.disjunction
    (h : SpelledDisjuncts (predicate :: predicates) tokens literals) :
    Spelled .disjunction (predicates.foldl .or predicate) tokens literals := by
  cases h with
  | single h => exact .conjunction h
  | cons h hor hrest => exact hrest.disjunction_append (.conjunction h) hor

theorem SpelledDisjuncts.snoc (h : SpelledDisjuncts predicates tokens literals)
    {keyword : DdlToken} {lastTokens : List DdlToken} {lastLiterals : List Text}
    (hor : Keyword "OR" keyword) (hlast : Spelled .conjunction predicate lastTokens lastLiterals) :
    SpelledDisjuncts (predicates ++ [predicate]) (tokens ++ keyword :: lastTokens)
      (literals ++ lastLiterals) := by
  induction h with
  | single h => exact .cons h hor (.single hlast)
  | cons h hor' _ ih =>
    rw [List.append_assoc, List.append_assoc]
    exact .cons h hor' ih

/-- Every disjunction is one of disjuncts. -/
theorem Spelled.disjuncts (h : Spelled .disjunction predicate tokens literals) :
    ∃ first rest, SpelledDisjuncts (first :: rest) tokens literals ∧
      predicate = rest.foldl .or first := by
  generalize hlevel : CheckLevel.disjunction = level at h
  induction h with
  | conjunction h => exact ⟨_, [], .single h, rfl⟩
  | or _ hor hright ih =>
    obtain ⟨first, rest, hspelled, rfl⟩ := ih rfl
    have hlast := hspelled.snoc hor hright
    rw [List.cons_append] at hlast
    refine ⟨first, _, hlast, ?_⟩
    rw [List.foldl_append]
    rfl
  | _ => cases hlevel

theorem parseDisjuncts_ok {fuel : Nat}
    (h : parseDisjuncts fuel tokens literals = .ok (predicates, next, left)) :
    ∃ consumed read closing, SpelledDisjuncts predicates consumed read ∧ Keyword ")" closing ∧
      tokens = consumed ++ closing :: next ∧ literals = read ++ left := by
  induction fuel generalizing tokens literals predicates with
  | zero => cases h
  | succ fuel ih =>
    rw [parseDisjuncts] at h
    obtain ⟨⟨first, rest, others⟩, hfirst, h⟩ := bind_eq_ok.mp h
    obtain ⟨before, readBefore, hspelled, htokens, hliterals⟩ :=
      (consumesSpelled _).conjunction hfirst
    dsimp only at h
    rw [startsWith_eq] at h
    by_cases hclosing : startsWith ")" rest = true
    · rw [if_pos hclosing] at h
      obtain ⟨rfl, rfl, rfl⟩ := ok_triple h
      obtain ⟨closing, hclosing, hrest⟩ := startsWith_iff.mp hclosing
      refine ⟨before, readBefore, closing, .single hspelled, hclosing, ?_, hliterals⟩
      rw [← hrest]
      exact htokens
    · rw [if_neg hclosing] at h
      obtain ⟨_, hor, h⟩ := bind_eq_ok.mp h
      obtain ⟨⟨further, last, others'⟩, hfurther, h⟩ := bind_eq_ok.mp h
      obtain ⟨rfl, rfl, rfl⟩ := ok_triple h
      obtain ⟨keyword, hget, hor⟩ := requireUnquotedKeyword_eq_ok.mp hor
      obtain ⟨consumed, read, closing, hrest, hclosing, hdrop, hothers⟩ := ih hfurther
      refine ⟨_, _, closing, .cons hspelled hor hrest, hclosing, ?_, ?_⟩
      · rw [htokens, eq_cons_of_getElem? hget, hdrop, List.append_assoc]
        rfl
      · rw [hliterals, hothers, List.append_assoc]

/-- The tokens before the predicate of a named CHECK. -/
structure SpelledHead (name : Text) (head : List DdlToken) : Prop where
  tokens : ∃ constraint named check opening, head = [constraint, named, check, opening] ∧
    Keyword "CONSTRAINT" constraint ∧ named.text = name ∧ Keyword "CHECK" check ∧
    Keyword "(" opening
  identifier : isIdentifier name = true

/-- An accepted CHECK is spelled by the tokens that it consumes. -/
theorem parseNamedCheck_ok {constraint : ParsedCheckConstraintAst}
    (h : parseNamedCheck tokens literals = .ok (constraint, next, left)) :
    ∃ head consumed read closing, SpelledHead constraint.name head ∧
      SpelledDisjuncts constraint.disjuncts consumed read ∧ Keyword ")" closing ∧
      tokens = head ++ (consumed ++ closing :: next) ∧ literals = read ++ left := by
  unfold parseNamedCheck at h
  obtain ⟨_, hconstraint, h⟩ := bind_eq_ok.mp h
  obtain ⟨name, hname, h⟩ := bind_eq_ok.mp h
  obtain ⟨_, hcheck, h⟩ := bind_eq_ok.mp h
  obtain ⟨_, hopening, h⟩ := bind_eq_ok.mp h
  obtain ⟨⟨disjuncts, rest, others⟩, hdisjuncts, h⟩ := bind_eq_ok.mp h
  obtain ⟨rfl, rfl, rfl⟩ := ok_triple h
  obtain ⟨first, hget, hconstraint⟩ := requireUnquotedKeyword_eq_ok.mp hconstraint
  obtain ⟨named, hgetName, hidentifier, rfl⟩ := requireIdentifier_eq_ok.mp hname
  obtain ⟨check, hgetCheck, hcheck⟩ := requireUnquotedKeyword_eq_ok.mp hcheck
  obtain ⟨opening, hgetOpening, hopening⟩ := requireUnquotedKeyword_eq_ok.mp hopening
  obtain ⟨consumed, read, closing, hspelled, hclosing, hdrop, hliterals⟩ :=
    parseDisjuncts_ok hdisjuncts
  refine ⟨[first, named, check, opening], consumed, read, closing, ⟨⟨_, _, _, _, rfl, hconstraint, rfl,
    hcheck, hopening⟩, hidentifier⟩, hspelled, hclosing, ?_, hliterals⟩
  rw [eq_cons_of_getElem? hget, drop_eq_cons hgetName, drop_eq_cons hgetCheck,
    drop_eq_cons hgetOpening, hdrop]
  rfl

end Disjuncts

end Ddl

end BinlogCdc
