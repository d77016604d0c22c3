import BinlogCdc.Ddl.CheckGrammar

/-!
# Spelled predicates are read

The parser reads every spelling of a predicate as that predicate, whatever follows it. An operand
needs four units of fuel for each of its tokens; a chain of operators uses up one unit for each
operator.
-/

namespace BinlogCdc

namespace Ddl

open Text

/-! ## Atoms -/

section Atoms

variable {tokens rest : List DdlToken} {literals more : List Text}

theorem requireIdentifier_cons {token : DdlToken} {context : String}
    (h : isIdentifier token.text = true) :
    requireIdentifier (token :: rest) 0 context = .ok token.text :=
  requireIdentifier_eq_ok.mpr ⟨token, rfl, h, rfl⟩

theorem requireClosings_append {closings : List DdlToken}
    (h : ∀ closing ∈ closings, Keyword ")" closing) :
    requireClosings closings.length (closings ++ rest) = .ok rest := by
  induction closings with
  | nil => rfl
  | cons closing closings ih =>
    rw [List.forall_mem_cons] at h
    rw [List.length_cons, List.cons_append, requireClosings, requireUnquotedKeyword_cons h.1,
      ok_bind]
    exact ih h.2

theorem openingDepth_append {openings : List DdlToken} {token : DdlToken}
    (hopenings : ∀ opening ∈ openings, Keyword "(" opening) (htoken : ¬ Keyword "(" token) :
    openingDepth (openings ++ token :: rest) = openings.length := by
  unfold openingDepth
  rw [List.takeWhile_append_of_pos, List.takeWhile_cons_of_neg, List.append_nil]
  · intro h
    rw [Bool.and_eq_true, Bool.not_eq_true'] at h
    exact htoken ⟨h.1, h.2⟩
  · intro opening hmem
    rw [(hopenings opening hmem).text, (hopenings opening hmem).quoted]
    rfl

theorem parseFunctionArgument_spelled {column : Text} (h : SpelledArgument column tokens) :
    parseFunctionArgument (tokens ++ rest) = .ok (column, rest) := by
  cases h with
  | @nested token openings closings hopenings hclosings hlength hcolumn =>
    have hdepth : openingDepth (openings ++ token :: closings ++ rest) = openings.length := by
      rw [List.append_assoc, List.cons_append]
      exact openingDepth_append hopenings (not_opening_of_identifier hcolumn)
    have hget : (openings ++ token :: closings ++ rest)[openings.length]? = some token := by
      simp
    have hdrop : (openings ++ token :: closings ++ rest).drop (openings.length + 1) =
        closings ++ rest := by
      simp [List.drop_append]
    unfold parseFunctionArgument
    dsimp only
    rw [hdepth, requireIdentifier_eq_ok.mpr ⟨token, hget, hcolumn, rfl⟩, ok_bind, hdrop, ← hlength,
      requireClosings_append hclosings]
    rfl

theorem parseFunctionColumn_spelled {column : Text} {function opening closing : DdlToken}
    (hopening : Keyword "(" opening) (h : SpelledArgument column tokens)
    (hclosing : Keyword ")" closing) :
    parseFunctionColumn (function :: opening :: (tokens ++ closing :: rest)) =
      .ok (column, rest) := by
  unfold parseFunctionColumn
  rw [requireUnquotedKeyword_of_getElem? rfl hopening, ok_bind]
  change (parseFunctionArgument (tokens ++ closing :: rest) >>= _) = _
  rw [parseFunctionArgument_spelled h, ok_bind]
  dsimp only
  rw [requireUnquotedKeyword_cons hclosing]
  rfl

theorem parseCheckString_spelled {token : DdlToken} {value : Text}
    (hstring : Keyword "<string>" token) (hvalue : isWordLiteral value = true) :
    parseCheckString (token :: rest) (value :: more) = .ok (value, rest, more) := by
  unfold parseCheckString
  rw [requireUnquotedKeyword_cons hstring, ok_bind]
  dsimp only
  rw [if_pos hvalue]
  rfl

theorem parseCheckStrings_spelled {values : List Text} {closing : DdlToken} {fuel : Nat}
    (h : SpelledStrings values tokens) (hclosing : Keyword ")" closing)
    (hfuel : tokens.length ≤ fuel) :
    parseCheckStrings fuel (tokens ++ closing :: rest) (values ++ more) =
      .ok (values, rest, more) := by
  induction h generalizing fuel with
  | single hstring hvalue =>
    cases fuel with
    | zero => cases hfuel
    | succ fuel =>
      rw [parseCheckStrings, List.singleton_append, List.singleton_append,
        parseCheckString_spelled hstring hvalue, ok_bind]
      dsimp only
      rw [startsWith_eq, if_pos hclosing.startsWith]
      rfl
  | cons hstring hcomma hvalue hrest ih =>
    cases fuel with
    | zero => cases hfuel
    | succ fuel =>
      simp only [List.length_cons] at hfuel
      rw [parseCheckStrings, List.cons_append, List.cons_append, List.cons_append,
        parseCheckString_spelled hstring hvalue, ok_bind]
      dsimp only
      rw [startsWith_eq, hcomma.startsWith_eq_false (by decide), if_neg (by simp),
        requireUnquotedKeyword_cons hcomma, ok_bind, List.drop_one, List.tail_cons,
        ih (by omega)]
      rfl

theorem parseOctetLimit_spelled {limit : Nat} (hpositive : 0 < limit) (hlimit : limit < 2 ^ 64) :
    parseOctetLimit (⟨Nat.toDigits 10 limit, false⟩ :: rest) = .ok limit := by
  unfold parseOctetLimit
  rw [List.getElem?_cons_zero]
  dsimp only
  rw [SyncSchema.parseU64_toDigits hlimit]
  dsimp only
  rw [if_neg]
  simp [Nat.pos_iff_ne_zero.mp hpositive]

/-- Every spelling of an atom is read as the atom. -/
theorem parsePredicate_spelled {predicate : CheckPredicate}
    (h : SpelledAtom predicate tokens literals) :
    parsePredicate (tokens ++ rest) (literals ++ more) = .ok (predicate, rest, more) := by
  unfold parsePredicate
  rw [startsWith_eq, startsWith_eq]
  cases h with
  | jsonValid hfunction hopening hargument hclosing =>
    rw [List.cons_append, if_pos hfunction.startsWith, List.cons_append, List.append_assoc,
      List.singleton_append, parseFunctionColumn_spelled hopening hargument hclosing]
    rfl
  | octetLength hfunction hopening hargument hclosing hless hequals hpositive hlimit =>
    rw [List.cons_append, hfunction.startsWith_eq_false (by decide), if_neg (by simp),
      if_pos hfunction.startsWith, List.cons_append, List.append_assoc, List.cons_append,
      parseFunctionColumn_spelled hopening hargument hclosing, ok_bind]
    dsimp only [List.cons_append, List.nil_append]
    rw [requireUnquotedKeyword_cons hless, ok_bind,
      requireUnquotedKeyword_of_getElem? rfl hequals, ok_bind, List.drop_succ_cons,
      List.drop_succ_cons, List.drop_zero, parseOctetLimit_spelled hpositive hlimit]
    rfl
  | isNull hcolumn his hnull =>
    rw [List.cons_append, if_neg (mt startsWith_cons_iff.mp hcolumn.not_jsonValid),
      if_neg (mt startsWith_cons_iff.mp hcolumn.not_octetLength),
      requireIdentifier_cons hcolumn.identifier, ok_bind, startsWith_drop_one, List.drop_one,
      List.tail_cons, List.cons_append, if_pos his.startsWith,
      requireUnquotedKeyword_of_getElem? rfl hnull]
    rfl
  | stringEquals hcolumn hequals hstring hvalue =>
    rw [List.cons_append, if_neg (mt startsWith_cons_iff.mp hcolumn.not_jsonValid),
      if_neg (mt startsWith_cons_iff.mp hcolumn.not_octetLength),
      requireIdentifier_cons hcolumn.identifier, ok_bind, startsWith_drop_one,
      startsWith_drop_one, List.drop_one, List.tail_cons, List.cons_append,
      hequals.startsWith_eq_false (by decide), if_neg (by simp), if_pos hequals.startsWith]
    change (parseCheckString (_ :: rest) (_ :: more) >>= _) = _
    rw [parseCheckString_spelled hstring hvalue]
    rfl
  | @inStrings column inside opening closing _ tokens hcolumn hinside hopening hstrings hclosing =>
    rw [List.cons_append, if_neg (mt startsWith_cons_iff.mp hcolumn.not_jsonValid),
      if_neg (mt startsWith_cons_iff.mp hcolumn.not_octetLength),
      requireIdentifier_cons hcolumn.identifier, ok_bind, startsWith_drop_one,
      startsWith_drop_one, List.drop_one, List.tail_cons, List.cons_append,
      hinside.startsWith_eq_false (by decide), if_neg (by simp),
      hinside.startsWith_eq_false (by decide), if_neg (by simp),
      requireUnquotedKeyword_of_getElem? rfl hinside, ok_bind,
      requireUnquotedKeyword_of_getElem? rfl hopening, ok_bind]
    have hfuel : tokens.length ≤
        (column :: inside :: (opening :: (tokens ++ [closing]) ++ rest)).length := by
      simp only [List.length_cons, List.length_append]
      omega
    have hread : parseCheckStrings (column :: inside :: (opening :: (tokens ++ [closing]) ++
        rest)).length (tokens ++ closing :: rest) (literals ++ more) = .ok (literals, rest, more) :=
      parseCheckStrings_spelled hstrings hclosing hfuel
    have htokens : (opening :: (tokens ++ [closing]) ++ rest).drop 1 = tokens ++ closing :: rest := by
      simp
    rw [List.drop_succ_cons, List.drop_succ_cons, htokens, hread]
    rfl

end Atoms

/-! ## Levels -/

section Levels

/-- A conjunction and the conjunctions after it. -/
def parseDisjunction (fuel : Nat) (tokens : List DdlToken) (literals : List Text) :
    Except String (CheckPredicate × List DdlToken × List Text) := do
  let (left, next, literals) ← parseConjunction fuel tokens literals
  parseFurtherDisjuncts fuel left next literals

/-- The tokens are read as an operand, whatever follows them. -/
def ReadsOperand (predicate : CheckPredicate) (tokens : List DdlToken) (literals : List Text) :
    Prop :=
  ∀ fuel rest more, 4 * tokens.length + 1 ≤ fuel →
    parseGroupOrAtom fuel (tokens ++ rest) (literals ++ more) = .ok (predicate, rest, more)

/-- The tokens are read as a term, unless an equality follows. -/
def ReadsTerm (predicate : CheckPredicate) (tokens : List DdlToken) (literals : List Text) : Prop :=
  ∀ fuel rest more, 4 * tokens.length + 2 ≤ fuel → startsWith "=" rest = false →
    parseBooleanTerm fuel (tokens ++ rest) (literals ++ more) = .ok (predicate, rest, more)

/-- After the tokens a conjunction continues from the predicate. -/
def ReadsConjunction (predicate : CheckPredicate) (tokens : List DdlToken)
    (literals : List Text) : Prop :=
  ∀ fuel rest more, 4 * tokens.length + 3 ≤ fuel → startsWith "=" rest = false →
    ∃ fuel', fuel ≤ fuel' + tokens.length ∧
      parseConjunction fuel (tokens ++ rest) (literals ++ more) =
        parseFurtherConjuncts fuel' predicate rest more

/-- After the tokens a disjunction continues from the predicate. -/
def ReadsDisjunction (predicate : CheckPredicate) (tokens : List DdlToken)
    (literals : List Text) : Prop :=
  ∀ fuel rest more, 4 * tokens.length + 3 ≤ fuel → startsWith "=" rest = false →
    startsWith "AND" rest = false →
    ∃ fuel', fuel ≤ fuel' + tokens.length ∧
      parseDisjunction fuel (tokens ++ rest) (literals ++ more) =
        parseFurtherDisjuncts fuel' predicate rest more

/-- How the tokens of a level are read. -/
def Reads : CheckLevel → CheckPredicate → List DdlToken → List Text → Prop
  | .operand => ReadsOperand
  | .term => ReadsTerm
  | .conjunction => ReadsConjunction
  | .disjunction => ReadsDisjunction

variable {tokens rightTokens : List DdlToken} {literals rightLiterals : List Text}
  {predicate left right : CheckPredicate}

theorem parseFurtherConjuncts_stop {fuel : Nat} {rest : List DdlToken} {more : List Text}
    (hfuel : 0 < fuel) (h : startsWith "AND" rest = false) :
    parseFurtherConjuncts fuel predicate rest more = .ok (predicate, rest, more) := by
  cases fuel with
  | zero => cases hfuel
  | succ fuel =>
    rw [parseFurtherConjuncts, startsWith_eq, h]
    rfl

theorem parseFurtherDisjuncts_stop {fuel : Nat} {rest : List DdlToken} {more : List Text}
    (hfuel : 0 < fuel) (h : startsWith "OR" rest = false) :
    parseFurtherDisjuncts fuel predicate rest more = .ok (predicate, rest, more) := by
  cases fuel with
  | zero => cases hfuel
  | succ fuel =>
    rw [parseFurtherDisjuncts, startsWith_eq, h]
    rfl

/-- An atom starts with no parenthesis. -/
theorem not_opening_of_atom (h : SpelledAtom predicate tokens literals) :
    startsWith "(" tokens = false := by
  rw [Bool.eq_false_iff]
  cases h with
  | jsonValid hfunction => exact mt startsWith_cons_iff.mp (hfunction.not_other (by decide))
  | octetLength hfunction => exact mt startsWith_cons_iff.mp (hfunction.not_other (by decide))
  | isNull hcolumn => exact mt startsWith_cons_iff.mp (not_opening_of_identifier hcolumn.identifier)
  | stringEquals hcolumn =>
    exact mt startsWith_cons_iff.mp (not_opening_of_identifier hcolumn.identifier)
  | inStrings hcolumn =>
    exact mt startsWith_cons_iff.mp (not_opening_of_identifier hcolumn.identifier)

theorem readsOperand_atom (h : SpelledAtom predicate tokens literals) :
    ReadsOperand predicate tokens literals := by
  intro fuel rest more hfuel
  cases fuel with
  | zero => omega
  | succ fuel =>
    have hne : tokens ≠ [] := (Spelled.atom h).ne_nil
    rw [parseGroupOrAtom, startsWith_eq, startsWith_append hne, not_opening_of_atom h,
      if_neg (by simp)]
    exact parsePredicate_spelled h

theorem readsOperand_parentheses {opening closing : DdlToken} (hopening : Keyword "(" opening)
    (h : ReadsDisjunction predicate tokens literals) (hclosing : Keyword ")" closing) :
    ReadsOperand predicate (opening :: (tokens ++ [closing])) literals := by
  intro fuel rest more hfuel
  rw [List.length_cons, List.length_append, List.length_singleton] at hfuel
  cases fuel with
  | zero => omega
  | succ fuel =>
    have hequals : startsWith "=" (closing :: rest) = false :=
      hclosing.startsWith_eq_false (by decide)
    have hand : startsWith "AND" (closing :: rest) = false :=
      hclosing.startsWith_eq_false (by decide)
    have hor : startsWith "OR" (closing :: rest) = false :=
      hclosing.startsWith_eq_false (by decide)
    obtain ⟨fuel', hfuel', hread⟩ := h fuel (closing :: rest) more (by omega) hequals hand
    rw [parseFurtherDisjuncts_stop (by omega) hor] at hread
    unfold parseDisjunction at hread
    obtain ⟨⟨first, next, others⟩, hfirst, hread⟩ := bind_eq_ok.mp hread
    rw [List.cons_append, parseGroupOrAtom, startsWith_eq, if_pos hopening.startsWith,
      List.drop_one, List.tail_cons, List.append_assoc, List.singleton_append, hfirst, ok_bind]
    dsimp only at hread ⊢
    rw [hread, ok_bind]
    dsimp only
    rw [requireUnquotedKeyword_cons hclosing]
    rfl

theorem readsTerm_operand (h : ReadsOperand predicate tokens literals) :
    ReadsTerm predicate tokens literals := by
  intro fuel rest more hfuel hequals
  cases fuel with
  | zero => omega
  | succ fuel =>
    rw [parseBooleanTerm, h fuel rest more (by omega), ok_bind]
    dsimp only
    rw [startsWith_eq, hequals]
    rfl

theorem readsConjunction_term (h : ReadsTerm predicate tokens literals) (hne : tokens ≠ []) :
    ReadsConjunction predicate tokens literals := by
  intro fuel rest more hfuel hequals
  have hlength := List.length_pos_iff.mpr hne
  cases fuel with
  | zero => omega
  | succ fuel =>
    refine ⟨fuel, by omega, ?_⟩
    rw [parseConjunction, h fuel rest more (by omega) hequals]
    rfl

theorem readsConjunction_and {keyword : DdlToken} (hleft : ReadsConjunction left tokens literals)
    (hand : Keyword "AND" keyword) (hright : ReadsTerm right rightTokens rightLiterals) :
    ReadsConjunction (.and left right) (tokens ++ keyword :: rightTokens)
      (literals ++ rightLiterals) := by
  intro fuel rest more hfuel hequals
  rw [List.length_append, List.length_cons] at hfuel
  have hkeyword : startsWith "=" (keyword :: (rightTokens ++ rest)) = false :=
    hand.startsWith_eq_false (by decide)
  obtain ⟨fuel', hfuel', hread⟩ :=
    hleft fuel (keyword :: (rightTokens ++ rest)) (rightLiterals ++ more) (by omega) hkeyword
  cases fuel' with
  | zero => omega
  | succ fuel' =>
    refine ⟨fuel', ?_, ?_⟩
    · rw [List.length_append, List.length_cons]
      omega
    · rw [List.append_assoc, List.append_assoc, List.cons_append, hread, parseFurtherConjuncts,
        startsWith_eq, if_pos hand.startsWith, List.drop_one, List.tail_cons,
        hright fuel' rest more (by omega) hequals]
      rfl

theorem readsDisjunction_conjunction (h : ReadsConjunction predicate tokens literals) :
    ReadsDisjunction predicate tokens literals := by
  intro fuel rest more hfuel hequals hand
  obtain ⟨fuel', hfuel', hread⟩ := h fuel rest more hfuel hequals
  refine ⟨fuel, by omega, ?_⟩
  unfold parseDisjunction
  rw [hread, parseFurtherConjuncts_stop (by omega) hand]
  rfl

theorem readsDisjunction_or {keyword : DdlToken} (hleft : ReadsDisjunction left tokens literals)
    (hor : Keyword "OR" keyword) (hright : ReadsConjunction right rightTokens rightLiterals) :
    ReadsDisjunction (.or left right) (tokens ++ keyword :: rightTokens)
      (literals ++ rightLiterals) := by
  intro fuel rest more hfuel hequals hand
  rw [List.length_append, List.length_cons] at hfuel
  have hkeyword : startsWith "=" (keyword :: (rightTokens ++ rest)) = false :=
    hor.startsWith_eq_false (by decide)
  have hkeyword' : startsWith "AND" (keyword :: (rightTokens ++ rest)) = false :=
    hor.startsWith_eq_false (by decide)
  obtain ⟨fuel', hfuel', hread⟩ := hleft fuel (keyword :: (rightTokens ++ rest))
    (rightLiterals ++ more) (by omega) hkeyword hkeyword'
  cases fuel' with
  | zero => omega
  | succ fuel' =>
    refine ⟨fuel', ?_, ?_⟩
    · rw [List.length_append, List.length_cons]
      omega
    · obtain ⟨fuelRight, hfuelRight, hreadRight⟩ :=
        hright fuel' rest more (by omega) hequals
      rw [parseFurtherConjuncts_stop (by omega) hand] at hreadRight
      rw [List.append_assoc, List.append_assoc, List.cons_append, hread, parseFurtherDisjuncts,
        startsWith_eq, if_pos hor.startsWith, List.drop_one, List.tail_cons, hreadRight]
      rfl

theorem readsTerm_equality {equals : DdlToken} (hleft : ReadsOperand left tokens literals)
    (hleftGroup : startsWith "(" tokens = true) (hequals : Keyword "=" equals)
    (hright : ReadsOperand right rightTokens rightLiterals)
    (hrightGroup : startsWith "(" rightTokens = true)
    (hmodeled : isModeledEquality left right = true) :
    ReadsTerm (.booleanEquals left right) (tokens ++ equals :: rightTokens)
      (literals ++ rightLiterals) := by
  intro fuel rest more hfuel _
  rw [List.length_append, List.length_cons] at hfuel
  cases fuel with
  | zero => omega
  | succ fuel =>
    obtain ⟨opening, hopening, htokens⟩ := startsWith_iff.mp hleftGroup
    obtain ⟨opening', hopening', hrightTokens⟩ := startsWith_iff.mp hrightGroup
    have hfirst : requireUnquotedKeyword (tokens ++ equals :: (rightTokens ++ rest)) 0 "(" =
        .ok () := by
      rw [htokens]
      exact requireUnquotedKeyword_cons hopening
    have hsecond : requireUnquotedKeyword (equals :: (rightTokens ++ rest)) 1 "(" = .ok () := by
      rw [hrightTokens]
      exact requireUnquotedKeyword_of_getElem? rfl hopening'
    rw [List.append_assoc, List.append_assoc, List.cons_append, parseBooleanTerm,
      hleft fuel _ _ (by omega), ok_bind]
    dsimp only
    rw [startsWith_eq, if_pos hequals.startsWith, hfirst, ok_bind, hsecond, ok_bind,
      List.drop_one, List.tail_cons, hright fuel rest more (by omega), ok_bind]
    dsimp only
    rw [if_pos hmodeled]
    rfl

/-- Every spelling is read as what it spells. -/
theorem Spelled.reads {level : CheckLevel} (h : Spelled level predicate tokens literals) :
    Reads level predicate tokens literals := by
  induction h with
  | atom h => exact readsOperand_atom h
  | parentheses hopening _ hclosing ih => exact readsOperand_parentheses hopening ih hclosing
  | operand _ ih => exact readsTerm_operand ih
  | equality _ hleftGroup hequals _ hrightGroup hmodeled ihleft ihright =>
    exact readsTerm_equality ihleft hleftGroup hequals ihright hrightGroup hmodeled
  | term h ih => exact readsConjunction_term ih h.ne_nil
  | and _ hand _ ihleft ihright => exact readsConjunction_and ihleft hand ihright
  | conjunction _ ih => exact readsDisjunction_conjunction ih
  | or _ hor _ ihleft ihright => exact readsDisjunction_or ihleft hor ihright

end Levels

/-! ## Constraints -/

section Constraints

variable {tokens rest : List DdlToken} {literals more : List Text} {predicate : CheckPredicate}
  {predicates : List CheckPredicate}

/-- A disjunct is read up to the OR or the parenthesis after it. -/
theorem parseConjunction_spelled {fuel : Nat}
    (h : Spelled .conjunction predicate tokens literals)
    (hfuel : 4 * tokens.length + 3 ≤ fuel) (hequals : startsWith "=" rest = false)
    (hand : startsWith "AND" rest = false) :
    parseConjunction fuel (tokens ++ rest) (literals ++ more) = .ok (predicate, rest, more) := by
  obtain ⟨fuel', hfuel', hread⟩ := h.reads fuel rest more hfuel hequals
  rw [hread]
  exact parseFurtherConjuncts_stop (by omega) hand

theorem parseDisjuncts_spelled {closing : DdlToken} {fuel : Nat}
    (h : SpelledDisjuncts predicates tokens literals) (hclosing : Keyword ")" closing)
    (hfuel : tokens.length ≤ fuel) :
    parseDisjuncts fuel (tokens ++ closing :: rest) (literals ++ more) =
      .ok (predicates, rest, more) := by
  induction h generalizing fuel with
  | @single predicate tokens literals h =>
    have hlength := List.length_pos_iff.mpr h.ne_nil
    cases fuel with
    | zero => omega
    | succ fuel =>
      have hfuel' : 4 * tokens.length + 3 ≤ 4 * (tokens ++ closing :: rest).length + 4 := by
        rw [List.length_append]
        omega
      rw [parseDisjuncts, parseConjunction_spelled h hfuel'
        (hclosing.startsWith_eq_false (by decide)) (hclosing.startsWith_eq_false (by decide)),
        ok_bind]
      dsimp only
      rw [startsWith_eq, if_pos hclosing.startsWith]
      rfl
  | @cons predicate predicates keyword tokens restTokens literals restLiterals h hor _ ih =>
    rw [List.length_append, List.length_cons] at hfuel
    cases fuel with
    | zero => omega
    | succ fuel =>
      have hfuel' : 4 * tokens.length + 3 ≤
          4 * (tokens ++ keyword :: (restTokens ++ closing :: rest)).length + 4 := by
        rw [List.length_append]
        omega
      rw [List.append_assoc, List.append_assoc, List.cons_append, parseDisjuncts,
        parseConjunction_spelled h hfuel' (hor.startsWith_eq_false (by decide))
          (hor.startsWith_eq_false (by decide)), ok_bind]
      dsimp only
      rw [startsWith_eq, hor.startsWith_eq_false (by decide), if_neg (by simp),
        requireUnquotedKeyword_cons hor, ok_bind, List.drop_one, List.tail_cons, ih (by omega)]
      rfl

/-- A spelled CHECK is read up to its closing parenthesis. -/
theorem parseNamedCheck_spelled {name : Text} {head : List DdlToken} {closing : DdlToken}
    (hhead : SpelledHead name head) (h : SpelledDisjuncts predicates tokens literals)
    (hclosing : Keyword ")" closing) :
    parseNamedCheck (head ++ (tokens ++ closing :: rest)) (literals ++ more) =
      .ok (⟨name, predicates⟩, rest, more) := by
  obtain ⟨⟨constraint, named, check, opening, rfl, hconstraint, rfl, hcheck, hopening⟩,
    hidentifier⟩ := hhead
  unfold parseNamedCheck
  rw [requireUnquotedKeyword_of_getElem? rfl hconstraint, ok_bind,
    requireIdentifier_eq_ok.mpr ⟨named, rfl, hidentifier, rfl⟩, ok_bind,
    requireUnquotedKeyword_of_getElem? rfl hcheck, ok_bind,
    requireUnquotedKeyword_of_getElem? rfl hopening, ok_bind]
  change (parseDisjuncts _ (tokens ++ closing :: rest) _ >>= _) = _
  rw [parseDisjuncts_spelled h hclosing]
  · rfl
  · simp only [List.length_append]
    omega

end Constraints

end Ddl

end BinlogCdc
