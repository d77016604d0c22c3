import BinlogCdc.Schema.ExpressionReading
import BinlogCdc.Schema.StagePlan

/-!
# Expressions with equal canonical texts

Expressions that read without their parentheses have the value of what is read, so that equal
canonical texts mean equal values. A parenthesis that changes the reading, or a character of a
literal that is left out, breaks this.
-/

namespace BinlogCdc.SyncSchema

/-! ## Reading -/

/-- Further arguments: columns and literals, and at the end a call. -/
def splitArguments : List Operand → Option (List Simple × Option Operand)
  | [] => some ([], none)
  | .simple value :: rest => (splitArguments rest).map fun (more, last) => (value :: more, last)
  | [inner] => some ([], some inner)
  | _ => none

/-- A call of the arguments. -/
def arrangeCall (function : Text) : List Operand → Option Operand
  | .simple first :: rest =>
    if first.isNumber then none
    else
      (splitArguments rest).map fun (more, last) =>
        match last with
        | none => .call function first more
        | some inner => .nest function first more inner
  | _ => none

mutual

/-- The operand that an expression is. -/
def readOperand : SqlExpr → Option Operand
  | .column name => some (.simple (.column (Text.toAsciiLowercase name)))
  | .text value => some (.simple (.text value))
  | .number digits => some (.simple (.number (Text.toAsciiLowercase digits)))
  | .call function arguments =>
    (readOperands arguments).bind (arrangeCall (Text.toAsciiLowercase function))
  | .group inner => readOperand inner
  | .compare _ _ _ => none
  | .and _ _ => none
  | .or _ _ => none

def readOperands : List SqlExpr → Option (List Operand)
  | [] => some []
  | argument :: rest => do
    let operand ← readOperand argument
    let operands ← readOperands rest
    some (operand :: operands)

end

def readCondition : SqlExpr → Option Condition
  | .compare operator left right => do
    let left ← readOperand left
    let right ← readOperand right
    some (.compare operator left right)
  | .group inner => readCondition inner
  | expression => (readOperand expression).map .plain

def readConjunction : SqlExpr → Option (List Condition)
  | .and left right => do
    let left ← readConjunction left
    let right ← readConjunction right
    some (left ++ right)
  | .group inner => readConjunction inner
  | expression => (readCondition expression).map fun condition => [condition]

def readDisjunction : SqlExpr → Option (List (List Condition))
  | .or left right => do
    let left ← readDisjunction left
    let right ← readDisjunction right
    some (left ++ right)
  | .group inner => readDisjunction inner
  | expression => (readConjunction expression).map fun conjunction => [conjunction]

/-! ## Values -/

section Values

variable (meaning : SqlMeaning)

def Simple.eval : Simple → meaning.Value
  | .column name => meaning.column name
  | .text value => meaning.text value
  | .number digits => meaning.number digits

def Operand.eval : Operand → meaning.Value
  | .simple value => value.eval meaning
  | .call function first more =>
    meaning.call function (first.eval meaning :: more.map (Simple.eval meaning))
  | .nest function first more inner =>
    meaning.call function
      (first.eval meaning :: (more.map (Simple.eval meaning) ++ [inner.eval]))

def Condition.eval : Condition → meaning.Value
  | .plain operand => operand.eval meaning
  | .compare operator left right =>
    meaning.ofTruth (meaning.compare operator (left.eval meaning) (right.eval meaning))

/-- Values combined by a ternary operation; a single one is itself. -/
def combined {α : Type} (operation : Option Bool → Option Bool → Option Bool)
    (eval : α → meaning.Value) : List α → meaning.Value
  | [] => meaning.ofTruth none
  | [element] => eval element
  | element :: next :: rest =>
    meaning.ofTruth (operation (meaning.truth (eval element))
      (meaning.truth (combined operation eval (next :: rest))))

def evalConjunction : List Condition → meaning.Value :=
  combined meaning ternaryAnd (Condition.eval meaning)

def evalDisjunction : List (List Condition) → meaning.Value :=
  combined meaning ternaryOr (evalConjunction meaning)

/-- The parts of a list are combined to the whole. -/
theorem combined_append {α : Type} {operation : Option Bool → Option Bool → Option Bool}
    (hassoc : ∀ a b c, operation (operation a b) c = operation a (operation b c))
    {eval : α → meaning.Value} {front back : List α} (hfront : front ≠ []) (hback : back ≠ []) :
    combined meaning operation eval (front ++ back) =
      meaning.ofTruth (operation (meaning.truth (combined meaning operation eval front))
        (meaning.truth (combined meaning operation eval back))) := by
  induction front with
  | nil => exact absurd rfl hfront
  | cons a front ih =>
    cases front with
    | nil =>
      cases back with
      | nil => exact absurd rfl hback
      | cons b back => rfl
    | cons b front =>
      have hstep : combined meaning operation eval (a :: b :: front ++ back) =
          meaning.ofTruth (operation (meaning.truth (eval a))
            (meaning.truth (combined meaning operation eval (b :: front ++ back)))) := rfl
      rw [hstep, ih (by simp), meaning.truth_ofTruth, combined, meaning.truth_ofTruth, hassoc]

end Values

/-- The spellings join as the lists do. -/
theorem separated_append {α : Type} {separator : Text} {spelling : α → Text} {front back : List α}
    (hfront : front ≠ []) (hback : back ≠ []) :
    separated separator spelling (front ++ back) =
      separated separator spelling front ++
        (separator ++ separated separator spelling back) := by
  induction front with
  | nil => exact absurd rfl hfront
  | cons a front ih =>
    cases front with
    | nil =>
      cases back with
      | nil => exact absurd rfl hback
      | cons b back => rfl
    | cons b front =>
      have hstep : separated separator spelling (a :: b :: front ++ back) =
          spelling a ++ (separator ++ separated separator spelling (b :: front ++ back)) := rfl
      rw [hstep, ih (by simp), separated]
      simp

/-! ## What is read -/

/-- A reading of an expression: a spelling, a value and well-formed parts. -/
structure ReadsAs {α : Type} (spelling : α → Text) (value : (meaning : SqlMeaning) → α → meaning.Value)
    (Clean : α → Prop) (expression : SqlExpr) (reading : α) : Prop where
  spelling : canonicalTokens expression.tokens = spelling reading
  eval : ∀ meaning, expression.eval meaning = value meaning reading
  clean : (∀ token ∈ expression.tokens, CleanToken token) → Clean reading

namespace ReadsAs

variable {α : Type} {spelling : α → Text} {value : (meaning : SqlMeaning) → α → meaning.Value}
  {Clean : α → Prop} {reading : α}

theorem group {inner : SqlExpr} (h : ReadsAs spelling value Clean inner reading) :
    ReadsAs spelling value Clean (.group inner) reading := by
  have htokens : (SqlExpr.group inner).tokens = [.opening] ++ (inner.tokens ++ [.closing]) := by
    rw [SqlExpr.tokens]
    rfl
  constructor
  · rw [htokens, canonicalTokens_append, canonicalTokens_append, h.spelling]
    simp [canonicalTokens, canonicalToken]
  · intro meaning
    rw [SqlExpr.eval, h.eval]
  · intro hclean
    rw [htokens] at hclean
    exact h.clean fun token htoken => hclean token (by simp [htoken])

end ReadsAs

/-- The operand is what the expression spells and means. -/
abbrev Reads : SqlExpr → Operand → Prop := ReadsAs Operand.spelling Operand.eval Operand.Clean

/-- The spelling of further operands. -/
def operandsSpelling (operands : List Operand) : Text :=
  operands.flatMap fun operand => ',' :: operand.spelling

section Arguments

variable {arguments : List SqlExpr} {operands : List Operand}

theorem Reads.furtherTokens (h : List.Forall₂ Reads arguments operands) :
    canonicalTokens (SqlExpr.furtherTokens arguments) = operandsSpelling operands := by
  induction h with
  | nil => rfl
  | @cons argument operand rest operands hread hrest ih =>
    have hcons : SqlExpr.furtherTokens (argument :: rest) =
        [.comma] ++ (argument.tokens ++ SqlExpr.furtherTokens rest) := by
      rw [SqlExpr.furtherTokens]
      rfl
    rw [hcons, canonicalTokens_append, canonicalTokens_append, hread.spelling, ih]
    simp [operandsSpelling, canonicalTokens, canonicalToken]

theorem Reads.evalAll (h : List.Forall₂ Reads arguments operands) (meaning : SqlMeaning) :
    SqlExpr.evalAll meaning arguments = operands.map (Operand.eval meaning) := by
  induction h with
  | nil => rfl
  | @cons argument operand rest operands hread hrest ih =>
    rw [SqlExpr.evalAll, hread.eval, ih, List.map_cons]

theorem Reads.cleanAll (h : List.Forall₂ Reads arguments operands)
    (hclean : ∀ token ∈ SqlExpr.furtherTokens arguments, CleanToken token) :
    ∀ operand ∈ operands, operand.Clean := by
  induction h with
  | nil => simp
  | @cons argument operand rest operands hread hrest ih =>
    rw [SqlExpr.furtherTokens] at hclean
    intro other hother
    obtain rfl | hother := List.mem_cons.mp hother
    · exact hread.clean fun token htoken =>
        hclean token (List.mem_cons_of_mem _ (List.mem_append_left _ htoken))
    · exact ih (fun token htoken =>
        hclean token (List.mem_cons_of_mem _ (List.mem_append_right _ htoken))) other hother

end Arguments

/-- What is split is what was given: columns and literals, and a call at the end. -/
theorem splitArguments_eq {operands : List Operand} {more : List Simple} {last : Option Operand}
    (h : splitArguments operands = some (more, last)) :
    operands = more.map .simple ++ last.toList ∧ ∀ inner ∈ last, inner.isSimple = false := by
  induction operands generalizing more with
  | nil =>
    obtain ⟨rfl, rfl⟩ := Prod.mk.inj (Option.some.inj h)
    simp
  | cons operand rest ih =>
    cases operand with
    | simple value =>
      rw [splitArguments, Option.map_eq_some_iff] at h
      obtain ⟨⟨more', last'⟩, hsplit, hpair⟩ := h
      obtain ⟨rfl, rfl⟩ := Prod.mk.inj hpair
      obtain ⟨rfl, hlast⟩ := ih hsplit
      exact ⟨rfl, hlast⟩
    | call function first arguments =>
      cases rest with
      | nil =>
        obtain ⟨rfl, rfl⟩ := Prod.mk.inj (Option.some.inj h)
        exact ⟨rfl, by simp [Operand.isSimple]⟩
      | cons next rest => cases h
    | nest function first arguments inner =>
      cases rest with
      | nil =>
        obtain ⟨rfl, rfl⟩ := Prod.mk.inj (Option.some.inj h)
        exact ⟨rfl, by simp [Operand.isSimple]⟩
      | cons next rest => cases h

theorem operandsSpelling_simple (more : List Simple) (tail : List Operand) :
    operandsSpelling (more.map .simple ++ tail) = furtherSpelling more (operandsSpelling tail) := by
  induction more with
  | nil => rfl
  | cons value more ih =>
    have hcons : operandsSpelling (.simple value :: (more.map .simple ++ tail)) =
        ',' :: (value.spelling ++ operandsSpelling (more.map .simple ++ tail)) := rfl
    rw [List.map_cons, List.cons_append, hcons, ih, furtherSpelling]

/-- A call has a first argument that is no number, and further ones. -/
theorem arrangeCall_eq {function : Text} {operands : List Operand} {operand : Operand}
    (h : arrangeCall function operands = some operand) :
    ∃ (first : Simple) (more : List Simple) (last : Option Operand), operands = .simple first :: (more.map .simple ++ last.toList) ∧
      first.isNumber = false ∧ (∀ inner ∈ last, inner.isSimple = false) ∧
      operand = last.elim (.call function first more) (.nest function first more) := by
  cases operands with
  | nil => cases h
  | cons operand rest =>
    cases operand with
    | call => cases h
    | nest => cases h
    | simple first =>
      rw [arrangeCall] at h
      split at h
      case isTrue => cases h
      case isFalse hnumber =>
        obtain ⟨⟨more, last⟩, hsplit, rfl⟩ := Option.map_eq_some_iff.mp h
        obtain ⟨rfl, hlast⟩ := splitArguments_eq hsplit
        refine ⟨first, more, last, rfl, by simpa using hnumber, hlast, ?_⟩
        cases last <;> rfl

/-- A call of arguments that are read is read. -/
theorem Reads.call {function : Text} {arguments : List SqlExpr} {operands : List Operand}
    {operand : Operand} (hread : List.Forall₂ Reads arguments operands)
    (h : arrangeCall (Text.toAsciiLowercase function) operands = some operand) :
    Reads (.call function arguments) operand := by
  obtain ⟨first, more, last, rfl, hnumber, hlast, rfl⟩ := arrangeCall_eq h
  cases hread with
  | @cons argument _ rest _ hfirst hrest =>
    have htokens : (SqlExpr.call function (argument :: rest)).tokens =
        [.calling function] ++ (argument.tokens ++ (SqlExpr.furtherTokens rest ++ [.closing])) := by
      rw [SqlExpr.tokens, SqlExpr.argumentTokens, List.append_assoc]
      rfl
    constructor
    · rw [htokens, canonicalTokens_append, canonicalTokens_append, canonicalTokens_append,
        hfirst.spelling, Reads.furtherTokens hrest, operandsSpelling_simple]
      cases last with
      | none => simp [canonicalTokens, canonicalToken, Operand.spelling, operandsSpelling]
      | some inner => simp [canonicalTokens, canonicalToken, Operand.spelling, operandsSpelling]
    · intro meaning
      have hsimple : Operand.eval meaning ∘ .simple = Simple.eval meaning := rfl
      rw [SqlExpr.eval, SqlExpr.evalAll, hfirst.eval, Reads.evalAll hrest, List.map_append,
        List.map_map, hsimple]
      cases last with
      | none => simp [Operand.eval, Text.toAsciiLowercase]
      | some inner => simp [Operand.eval, Text.toAsciiLowercase]
    · intro hclean
      rw [htokens] at hclean
      have hname := hclean (.calling function) (by simp)
      have hfirstClean := hfirst.clean fun token htoken => hclean token (by simp [htoken])
      have hall := Reads.cleanAll hrest fun token htoken => hclean token (by simp [htoken])
      have hmore : ∀ value ∈ more, value.Clean := by
        intro value hvalue
        exact hall (.simple value) (List.mem_append_left _ (List.mem_map_of_mem hvalue))
      cases last with
      | none => exact ⟨⟨hname.1, hname.2.1⟩, ⟨hfirstClean, hnumber⟩, hmore⟩
      | some inner =>
        exact ⟨⟨hname.1, hname.2.1⟩, ⟨hfirstClean, hnumber⟩, hmore, hall inner (by simp),
          hlast inner rfl⟩

mutual

theorem reads_of_readOperand : ∀ {expression : SqlExpr} {operand : Operand},
    readOperand expression = some operand → Reads expression operand
  | .column name, operand, h => by
    rw [readOperand] at h
    obtain rfl := Option.some.inj h
    refine ⟨?_, fun meaning => ?_, fun _ => trivial⟩
    · simp [SqlExpr.tokens, canonicalTokens, canonicalToken, canonicalName, Operand.spelling,
        Simple.spelling]
    · rw [SqlExpr.eval]
      rfl
  | .text value, operand, h => by
    rw [readOperand] at h
    obtain rfl := Option.some.inj h
    refine ⟨?_, fun meaning => ?_, fun _ => trivial⟩
    · simp [SqlExpr.tokens, canonicalTokens, canonicalToken, Operand.spelling, Simple.spelling]
    · rw [SqlExpr.eval]
      rfl
  | .number digits, operand, h => by
    rw [readOperand] at h
    obtain rfl := Option.some.inj h
    refine ⟨?_, fun meaning => ?_, fun hclean => ?_⟩
    · simp [SqlExpr.tokens, canonicalTokens, canonicalToken, Operand.spelling, Simple.spelling]
    · rw [SqlExpr.eval]
      rfl
    · exact hclean (.number digits) (by simp [SqlExpr.tokens])
  | .call function arguments, operand, h => by
    rw [readOperand, Option.bind_eq_some_iff] at h
    obtain ⟨operands, hoperands, harrange⟩ := h
    exact Reads.call (reads_of_readOperands hoperands) harrange
  | .group inner, operand, h => by
    rw [readOperand] at h
    exact (reads_of_readOperand h).group
  | .compare _ _ _, _, h => by
    rw [readOperand] at h
    cases h
  | .and _ _, _, h => by
    rw [readOperand] at h
    cases h
  | .or _ _, _, h => by
    rw [readOperand] at h
    cases h

theorem reads_of_readOperands : ∀ {arguments : List SqlExpr} {operands : List Operand},
    readOperands arguments = some operands → List.Forall₂ Reads arguments operands
  | [], operands, h => by
    rw [readOperands] at h
    obtain rfl := Option.some.inj h
    exact .nil
  | argument :: rest, operands, h => by
    rw [readOperands, Option.bind_eq_bind, Option.bind_eq_some_iff] at h
    obtain ⟨operand, hoperand, h⟩ := h
    rw [Option.bind_eq_bind, Option.bind_eq_some_iff] at h
    obtain ⟨others, hothers, h⟩ := h
    obtain rfl := Option.some.inj h
    exact .cons (reads_of_readOperand hoperand) (reads_of_readOperands hothers)

end

/-! ## Conditions and their combinations -/

theorem reads_of_readCondition : ∀ {expression : SqlExpr} {condition : Condition},
    readCondition expression = some condition →
    ReadsAs Condition.spelling Condition.eval Condition.Clean expression condition
  | .compare operator left right, condition, h => by
    rw [readCondition, Option.bind_eq_bind, Option.bind_eq_some_iff] at h
    obtain ⟨leftOperand, hleft, h⟩ := h
    rw [Option.bind_eq_some_iff] at h
    obtain ⟨rightOperand, hright, h⟩ := h
    obtain rfl := Option.some.inj h
    have hreadLeft := reads_of_readOperand hleft
    have hreadRight := reads_of_readOperand hright
    have htokens : (SqlExpr.compare operator left right).tokens =
        left.tokens ++ ([.operator operator] ++ right.tokens) := by
      rw [SqlExpr.tokens]
      rfl
    constructor
    · rw [htokens, canonicalTokens_append, canonicalTokens_append, hreadLeft.spelling,
        hreadRight.spelling]
      simp [canonicalTokens, canonicalToken, Condition.spelling]
    · intro meaning
      rw [SqlExpr.eval, hreadLeft.eval, hreadRight.eval]
      rfl
    · intro hclean
      rw [htokens] at hclean
      exact ⟨hreadLeft.clean fun token htoken => hclean token (by simp [htoken]),
        hreadRight.clean fun token htoken => hclean token (by simp [htoken])⟩
  | .group inner, condition, h => by
    rw [readCondition] at h
    exact (reads_of_readCondition h).group
  | .column name, condition, h => plain h
  | .text value, condition, h => plain h
  | .number digits, condition, h => plain h
  | .call function arguments, condition, h => plain h
  | .and left right, condition, h => plain h
  | .or left right, condition, h => plain h
where
  plain {expression : SqlExpr} {condition : Condition}
      (h : (readOperand expression).map .plain = some condition) :
      ReadsAs Condition.spelling Condition.eval Condition.Clean expression condition := by
    obtain ⟨operand, hoperand, rfl⟩ := Option.map_eq_some_iff.mp h
    have hread := reads_of_readOperand hoperand
    exact ⟨hread.spelling, hread.eval, hread.clean⟩

/-- Readings in a row, with a separator. -/
abbrev ReadsList {α : Type} (separator : Text) (operation : Option Bool → Option Bool → Option Bool)
    (spelling : α → Text) (value : (meaning : SqlMeaning) → α → meaning.Value) (Clean : α → Prop) :
    SqlExpr → List α → Prop :=
  ReadsAs (separated separator spelling) (fun meaning => combined meaning operation (value meaning))
    fun readings => readings ≠ [] ∧ ∀ reading ∈ readings, Clean reading

section Lists

variable {α : Type} {separator : Text} {operation : Option Bool → Option Bool → Option Bool}
  {spelling : α → Text} {value : (meaning : SqlMeaning) → α → meaning.Value} {Clean : α → Prop}

theorem ReadsAs.singleton {expression : SqlExpr} {reading : α}
    (h : ReadsAs spelling value Clean expression reading) :
    ReadsList separator operation spelling value Clean expression [reading] := by
  refine ⟨h.spelling, h.eval, fun hclean => ⟨by simp, ?_⟩⟩
  simpa using h.clean hclean

/-- An operation on two rows reads as the two rows. -/
theorem ReadsAs.joined
    (hassoc : ∀ a b c, operation (operation a b) c = operation a (operation b c))
    {left right whole : SqlExpr} {token : SqlToken} {front back : List α}
    (htokens : whole.tokens = left.tokens ++ token :: right.tokens)
    (hseparator : canonicalToken token = separator)
    (heval : ∀ meaning, whole.eval meaning =
      meaning.ofTruth (operation (meaning.truth (left.eval meaning))
        (meaning.truth (right.eval meaning))))
    (hfront : front ≠ []) (hback : back ≠ [])
    (hleft : ReadsList separator operation spelling value Clean left front)
    (hright : ReadsList separator operation spelling value Clean right back) :
    ReadsList separator operation spelling value Clean whole (front ++ back) := by
  constructor
  · have hcons : token :: right.tokens = [token] ++ right.tokens := rfl
    rw [htokens, hcons, canonicalTokens_append, canonicalTokens_append, hleft.spelling,
      hright.spelling, separated_append hfront hback, ← hseparator]
    simp [canonicalTokens]
  · intro meaning
    rw [heval, hleft.eval, hright.eval, combined_append meaning hassoc hfront hback]
  · intro hclean
    rw [htokens] at hclean
    obtain ⟨-, hfrontClean⟩ := hleft.clean fun other hother =>
      hclean other (List.mem_append_left _ hother)
    obtain ⟨-, hbackClean⟩ := hright.clean fun other hother =>
      hclean other (List.mem_append_right _ (List.mem_cons_of_mem _ hother))
    refine ⟨by simp [hfront], fun reading hreading => ?_⟩
    obtain hreading | hreading := List.mem_append.mp hreading
    · exact hfrontClean reading hreading
    · exact hbackClean reading hreading

end Lists

abbrev ReadsConjunction : SqlExpr → List Condition → Prop :=
  ReadsList "and".toList ternaryAnd Condition.spelling Condition.eval Condition.Clean

abbrev ReadsDisjunction : SqlExpr → List (List Condition) → Prop :=
  ReadsList "or".toList ternaryOr conjunctionSpelling evalConjunction CleanConjunction

theorem reads_of_readConjunction : ∀ {expression : SqlExpr} {conditions : List Condition},
    readConjunction expression = some conditions →
    conditions ≠ [] ∧ ReadsConjunction expression conditions
  | .and left right, conditions, h => by
    rw [readConjunction, Option.bind_eq_bind, Option.bind_eq_some_iff] at h
    obtain ⟨front, hleft, h⟩ := h
    rw [Option.bind_eq_some_iff] at h
    obtain ⟨back, hright, h⟩ := h
    obtain rfl := Option.some.inj h
    obtain ⟨hfront, hreadLeft⟩ := reads_of_readConjunction hleft
    obtain ⟨hback, hreadRight⟩ := reads_of_readConjunction hright
    refine ⟨by simp [hfront], ?_⟩
    exact .joined ternaryAnd_assoc (by rw [SqlExpr.tokens]) rfl
      (fun meaning => by rw [SqlExpr.eval]) hfront hback hreadLeft hreadRight
  | .group inner, conditions, h => by
    rw [readConjunction] at h
    obtain ⟨hne, hread⟩ := reads_of_readConjunction h
    exact ⟨hne, hread.group⟩
  | .column name, conditions, h => single h
  | .text value, conditions, h => single h
  | .number digits, conditions, h => single h
  | .call function arguments, conditions, h => single h
  | .compare operator left right, conditions, h => single h
  | .or left right, conditions, h => single h
where
  single {expression : SqlExpr} {conditions : List Condition}
      (h : (readCondition expression).map (fun condition => [condition]) = some conditions) :
      conditions ≠ [] ∧ ReadsConjunction expression conditions := by
    obtain ⟨condition, hcondition, rfl⟩ := Option.map_eq_some_iff.mp h
    exact ⟨by simp, (reads_of_readCondition hcondition).singleton⟩

theorem reads_of_readDisjunction : ∀ {expression : SqlExpr} {disjunction : List (List Condition)},
    readDisjunction expression = some disjunction →
    disjunction ≠ [] ∧ ReadsDisjunction expression disjunction
  | .or left right, disjunction, h => by
    rw [readDisjunction, Option.bind_eq_bind, Option.bind_eq_some_iff] at h
    obtain ⟨front, hleft, h⟩ := h
    rw [Option.bind_eq_some_iff] at h
    obtain ⟨back, hright, h⟩ := h
    obtain rfl := Option.some.inj h
    obtain ⟨hfront, hreadLeft⟩ := reads_of_readDisjunction hleft
    obtain ⟨hback, hreadRight⟩ := reads_of_readDisjunction hright
    refine ⟨by simp [hfront], ?_⟩
    exact .joined ternaryOr_assoc (by rw [SqlExpr.tokens]) rfl
      (fun meaning => by rw [SqlExpr.eval]) hfront hback hreadLeft hreadRight
  | .group inner, disjunction, h => by
    rw [readDisjunction] at h
    obtain ⟨hne, hread⟩ := reads_of_readDisjunction h
    exact ⟨hne, hread.group⟩
  | .column name, disjunction, h => single h
  | .text value, disjunction, h => single h
  | .number digits, disjunction, h => single h
  | .call function arguments, disjunction, h => single h
  | .compare operator left right, disjunction, h => single h
  | .and left right, disjunction, h => single h
where
  single {expression : SqlExpr} {disjunction : List (List Condition)}
      (h : (readConjunction expression).map (fun conditions => [conditions]) = some disjunction) :
      disjunction ≠ [] ∧ ReadsDisjunction expression disjunction := by
    obtain ⟨conditions, hconditions, rfl⟩ := Option.map_eq_some_iff.mp h
    exact ⟨by simp, (reads_of_readConjunction hconditions).2.singleton⟩

/-! ## Equal canonical texts -/

/-- The parentheses say no more than the precedence of the operators, and nothing is left out of the
names and literals. -/
def Readable (expression : SqlExpr) : Prop :=
  (readDisjunction expression).isSome = true ∧ ∀ token ∈ expression.tokens, CleanToken token

theorem eval_eq_of_canonicalSqlExpression_eq {source target : SqlExpr} (hsource : Readable source)
    (htarget : Readable target) {sourceText targetText : String}
    (hsourceText : source.Spells sourceText.toList) (htargetText : target.Spells targetText.toList)
    (h : canonicalSqlExpression sourceText = canonicalSqlExpression targetText)
    (meaning : SqlMeaning) : source.eval meaning = target.eval meaning := by
  obtain ⟨disjunction, hdisjunction⟩ := Option.isSome_iff_exists.mp hsource.1
  obtain ⟨disjunction', hdisjunction'⟩ := Option.isSome_iff_exists.mp htarget.1
  obtain ⟨hne, hread⟩ := reads_of_readDisjunction hdisjunction
  obtain ⟨hne', hread'⟩ := reads_of_readDisjunction hdisjunction'
  have htexts : canonicalTokens source.tokens = canonicalTokens target.tokens := by
    have hlist := congrArg String.toList h
    rw [canonicalSqlExpression, canonicalSqlExpression, String.toList_ofList, String.toList_ofList,
      canonicalExpressionFrom_tokens hsource.2 hsourceText,
      canonicalExpressionFrom_tokens htarget.2 htargetText] at hlist
    exact hlist
  have hequal : disjunction = disjunction' := by
    refine disjunctionSpelling_injective hne hne' (hread.clean hsource.2).2
      (hread'.clean htarget.2).2 ?_
    exact (hread.spelling.symm.trans htexts).trans hread'.spelling
  rw [hread.eval, hread'.eval, hequal]

/-- A condition as the source writes it. -/
def openOrUnpaid : SqlExpr :=
  .or (.compare .eq (.column "status".toList) (.text "open".toList))
    (.and (.compare .gt (.column "amount".toList) (.number "0".toList)) (.column "unpaid".toList))

/-- The same condition as the target writes it. -/
def openOrUnpaidGrouped : SqlExpr :=
  .group (.or (.group (.compare .eq (.column "status".toList) (.text "open".toList)))
    (.group (.and (.group (.compare .gt (.column "amount".toList) (.number "0".toList)))
      (.column "unpaid".toList))))

theorem readable_openOrUnpaid : Readable openOrUnpaid ∧ Readable openOrUnpaidGrouped := by
  have hnumber : CleanToken (.number "0".toList) := ⟨⟨_, _, rfl, by decide⟩, by decide⟩
  have hname : ∀ name ∈ ["status", "amount", "unpaid"], CleanToken (.name name.toList) := by
    intro name hname
    simp only [List.mem_cons, List.not_mem_nil, or_false] at hname
    obtain rfl | rfl | rfl := hname <;> exact ⟨by decide, by decide⟩
  have htext : CleanToken (.literal "open".toList) := ⟨by decide, by decide, by decide⟩
  have hclean : ∀ token ∈ [.name "status".toList, .operator .eq, .literal "open".toList, .disjunction,
      .name "amount".toList, .operator .gt, .number "0".toList, .conjunction, .name "unpaid".toList,
      .opening, .closing], CleanToken token := by
    simp only [List.forall_mem_cons]
    refine ⟨hname "status" (by decide), trivial, htext, trivial, hname "amount" (by decide), trivial,
      hnumber, trivial, hname "unpaid" (by decide), trivial, trivial, ?_⟩
    intro token htoken
    cases htoken
  refine ⟨⟨by decide, fun token htoken => hclean token ?_⟩,
    ⟨by decide, fun token htoken => hclean token ?_⟩⟩
  · revert token
    decide +kernel
  · revert token
    decide +kernel

/-- AND and OR of rows of truth values. -/
def truthRow (row : Text → Option Bool) : SqlMeaning where
  Value := Option Bool
  column := row
  text _ := none
  number _ := none
  call _ _ := none
  compare _ _ _ := none
  truth value := value
  ofTruth value := value
  truth_ofTruth _ := rfl

/-- `(a or b) and c`, with the parentheses that it needs. -/
def groupedDisjunction : SqlExpr :=
  .and (.group (.or (.column "a".toList) (.column "b".toList))) (.column "c".toList)

/-- `a or (b and c)`. -/
def groupedConjunction : SqlExpr :=
  .or (.column "a".toList) (.group (.and (.column "b".toList) (.column "c".toList)))

end BinlogCdc.SyncSchema
