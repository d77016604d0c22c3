import BinlogCdc.Sql.Literal

/-!
# Search conditions

Comparisons of columns with literals and of label positions, with NOT, AND, OR and parentheses: how
a server reads the text of a condition, OR binding weakest and NOT strongest, and the truth of a
condition on a row without NULL.
-/

namespace BinlogCdc

/-! ## Conditions -/

/-- The side of a comparison. A position is the place of a value in a list of labels. -/
inductive ConditionOperand where
  | column (name : Text)
  | literal (value : Text)
  | columnPosition (name : Text) (labels : List Text)
  | literalPosition (value : Text) (labels : List Text)
deriving DecidableEq, Repr

inductive SearchCondition where
  | equal (left right : ConditionOperand)
  | greater (left right : ConditionOperand)
  | not (condition : SearchCondition)
  | and (left right : SearchCondition)
  | or (left right : SearchCondition)
deriving DecidableEq, Repr

/-- The conditions joined by a connective. -/
def joined (connective : SearchCondition → SearchCondition → SearchCondition) :
    List SearchCondition → Option SearchCondition
  | [] => none
  | [condition] => some condition
  | condition :: conditions => (joined connective conditions).map (connective condition)

/-! ## Reading -/

/-- The nesting depth after a token. -/
def depthAfter (depth : Nat) (token : TextToken) : Nat :=
  if token = .symbol '(' then depth + 1 else if token = .symbol ')' then depth - 1 else depth

/-- Tokens before those of the first part. -/
def consFirst (token : TextToken) : List (List TextToken) → List (List TextToken)
  | [] => [[token]]
  | first :: more => (token :: first) :: more

/-- The parts between the separators outside parentheses. -/
def splitOutside (separator : TextToken) : Nat → List TextToken → List (List TextToken)
  | _, [] => [[]]
  | depth, token :: tokens =>
    if depth = 0 ∧ token = separator then [] :: splitOutside separator 0 tokens
    else consFirst token (splitOutside separator (depthAfter depth token) tokens)

/-- The labels of a position, to the closing parenthesis. -/
def readLabels : List TextToken → Option (List Text × List TextToken)
  | .symbol ')' :: tokens => some ([], tokens)
  | .symbol ',' :: .literal label :: tokens => do
    let (labels, tokens) ← readLabels tokens
    return (label :: labels, tokens)
  | _ => none

/-- A side of a comparison and the tokens after it. A position needs a label. -/
def readOperand : List TextToken → Option (ConditionOperand × List TextToken)
  | .name name :: tokens => some (.column name, tokens)
  | .literal value :: tokens => some (.literal value, tokens)
  | .word word :: .symbol '(' :: .name name :: tokens => do
    let (labels, tokens) ← readLabels tokens
    if word = "FIELD".toList ∧ labels ≠ [] then some (.columnPosition name labels, tokens) else none
  | .word word :: .symbol '(' :: .literal value :: tokens => do
    let (labels, tokens) ← readLabels tokens
    if word = "FIELD".toList ∧ labels ≠ [] then some (.literalPosition value labels, tokens)
    else none
  | _ => none

/-- A comparison. -/
def readComparison (tokens : List TextToken) : Option SearchCondition := do
  let (left, tokens) ← readOperand tokens
  match tokens with
  | .symbol '=' :: tokens =>
    let (right, tokens) ← readOperand tokens
    if tokens = [] then some (.equal left right) else none
  | .symbol '>' :: tokens =>
    let (right, tokens) ← readOperand tokens
    if tokens = [] then some (.greater left right) else none
  | _ => none

/-- A comparison, a condition in parentheses, or the negation of one. -/
def readFactor (readInner : List TextToken → Option SearchCondition) :
    List TextToken → Option SearchCondition
  | .word word :: tokens =>
    if word = "NOT".toList then (readFactor readInner tokens).map .not
    else readComparison (.word word :: tokens)
  | .symbol '(' :: tokens =>
    if tokens.getLast? = some (.symbol ')') then readInner tokens.dropLast else none
  | tokens => readComparison tokens

/-- A condition with parentheses up to a depth. -/
def readCondition : Nat → List TextToken → Option SearchCondition
  | 0, _ => none
  | depth + 1, tokens => do
    let disjuncts ← (splitOutside (.word "OR".toList) 0 tokens).mapM fun tokens => do
      let factors ← (splitOutside (.word "AND".toList) 0 tokens).mapM
        (readFactor (readCondition depth))
      joined .and factors
    joined .or disjuncts

/-- The condition that a text spells. -/
def conditionOf (text : Text) : Option SearchCondition := do
  let tokens ← textTokens text
  readCondition tokens.length tokens

/-- The sides that a text lists. -/
def operandsOf (text : Text) : Option (List ConditionOperand) := do
  let tokens ← textTokens text
  (splitOutside (.symbol ',') 0 tokens).mapM fun tokens => do
    let (operand, rest) ← readOperand tokens
    if rest = [] then some operand else none

/-! ## Truth -/

attribute [local instance] Text.lawfulBEq

/-- The place of a value in a list of labels, from one; zero for other values. -/
def fieldPosition (value : Text) (labels : List Text) : Nat :=
  if value ∈ labels then labels.idxOf value + 1 else 0

/-- What a server compares. Comparisons of other operands are not made here. -/
def compareOperands (order : Text → Text → Text → Ordering) (row : Text → Text) :
    ConditionOperand → ConditionOperand → Option Ordering
  | .column name, .literal value => some (order name (row name) value)
  | .columnPosition name labels, .literalPosition value labels' =>
    some (compare (fieldPosition (row name) labels) (fieldPosition value labels'))
  | _, _ => none

/-- The order of two rows by a side of a comparison. -/
def compareRows (order : Text → Text → Text → Ordering) (row row' : Text → Text) :
    ConditionOperand → Ordering
  | .column name => order name (row name) (row' name)
  | .columnPosition name labels =>
    compare (fieldPosition (row name) labels) (fieldPosition (row' name) labels)
  | .literal _ => .eq
  | .literalPosition _ _ => .eq

/-- The order of two rows by the sides that an ORDER BY lists. -/
def orderRows (order : Text → Text → Text → Ordering) (row row' : Text → Text) :
    List ConditionOperand → Ordering
  | [] => .eq
  | operand :: operands =>
    (compareRows order row row' operand).then (orderRows order row row' operands)

/-- The truth of a condition on a row. -/
def SearchCondition.holds (order : Text → Text → Text → Ordering) (row : Text → Text) :
    SearchCondition → Option Bool
  | .equal left right => (compareOperands order row left right).map (· == .eq)
  | .greater left right => (compareOperands order row left right).map (· == .gt)
  | .not condition => (condition.holds order row).map (!·)
  | .and left right => do
    let left ← left.holds order row
    let right ← right.holds order row
    return left && right
  | .or left right => do
    let left ← left.holds order row
    let right ← right.holds order row
    return left || right

/-! ## Splitting -/

/-- The separator is not outside parentheses. -/
def Unsplit (separator : TextToken) (depth : Nat) (tokens : List TextToken) : Prop :=
  ∀ rest, splitOutside separator depth (tokens ++ rest) =
    tokens.foldr consFirst (splitOutside separator depth rest)

variable {separator token : TextToken} {depth : Nat} {front back tokens : List TextToken}

theorem Unsplit.append (hfront : Unsplit separator depth front)
    (hback : Unsplit separator depth back) : Unsplit separator depth (front ++ back) := by
  intro rest
  rw [List.append_assoc, hfront, hback, List.foldr_append]

/-- Tokens that are neither parentheses nor the separator are kept. -/
theorem unsplit_of_plain (h : ∀ token ∈ tokens, token ≠ .symbol '(' ∧ token ≠ .symbol ')' ∧
    token ≠ separator) : Unsplit separator depth tokens := by
  intro rest
  induction tokens with
  | nil => rfl
  | cons token tokens ih =>
    obtain ⟨hopening, hclosing, hseparator⟩ := h token List.mem_cons_self
    have hdepth : depthAfter depth token = depth := by
      rw [depthAfter, if_neg hopening, if_neg hclosing]
    rw [List.cons_append, splitOutside, if_neg (by tauto), hdepth,
      ih fun other hother => h other (List.mem_cons_of_mem token hother)]
    rfl

/-- Inside parentheses every token but a parenthesis is kept. -/
theorem unsplit_inside (h : ∀ token ∈ tokens, token ≠ .symbol '(' ∧ token ≠ .symbol ')') :
    Unsplit separator (depth + 1) tokens := by
  intro rest
  induction tokens with
  | nil => rfl
  | cons token tokens ih =>
    obtain ⟨hopening, hclosing⟩ := h token List.mem_cons_self
    rw [List.cons_append, splitOutside, if_neg (by omega), depthAfter, if_neg hopening,
      if_neg hclosing, ih fun other hother => h other (List.mem_cons_of_mem token hother)]
    rfl

/-- Parentheses keep what is in them. -/
theorem unsplit_group (hopening : separator ≠ .symbol '(')
    (h : Unsplit separator (depth + 1) tokens) :
    Unsplit separator depth (.symbol '(' :: (tokens ++ [.symbol ')'])) := by
  intro rest
  have hinner := h (.symbol ')' :: rest)
  have hin : depthAfter depth (.symbol '(') = depth + 1 := by rw [depthAfter, if_pos rfl]
  have hout : depthAfter (depth + 1) (.symbol ')') = depth := by simp [depthAfter]
  rw [List.cons_append, splitOutside, if_neg (by tauto), hin, List.append_assoc,
    List.singleton_append, hinner, splitOutside, if_neg (by tauto), hout]
  simp [List.foldr_append]

/-- Inside parentheses the separator is kept too. -/
theorem unsplit_intercalate {parts : List (List TextToken)} {between : TextToken}
    (hbetween : Unsplit separator depth [between])
    (h : ∀ part ∈ parts, Unsplit separator depth part) :
    Unsplit separator depth ([between].intercalate parts) := by
  induction parts with
  | nil => exact unsplit_of_plain (by simp)
  | cons part parts ih =>
    have hpart := h part List.mem_cons_self
    have hparts := ih fun other hother => h other (List.mem_cons_of_mem part hother)
    cases parts with
    | nil => simpa using hpart
    | cons other parts =>
      rw [List.intercalate_cons_cons, List.append_assoc]
      exact hpart.append (hbetween.append hparts)

theorem foldr_consFirst (first : List TextToken) (more : List (List TextToken)) :
    tokens.foldr consFirst (first :: more) = (tokens ++ first) :: more := by
  induction tokens with
  | nil => rfl
  | cons token tokens ih =>
    rw [List.foldr_cons, ih]
    rfl

/-- Parts without the separator are split where they were joined. -/
theorem splitOutside_intercalate {parts : List (List TextToken)} (hparts : parts ≠ [])
    (h : ∀ part ∈ parts, Unsplit separator 0 part) :
    splitOutside separator 0 ([separator].intercalate parts) = parts := by
  induction parts with
  | nil => exact absurd rfl hparts
  | cons part parts ih =>
    have hpart := h part List.mem_cons_self
    cases parts with
    | nil =>
      have hself := hpart []
      rw [splitOutside, foldr_consFirst, List.append_nil] at hself
      simpa using hself
    | cons other parts =>
      have hrest := ih (by simp) fun later hlater => h later (List.mem_cons_of_mem part hlater)
      rw [List.intercalate_cons_cons, List.append_assoc, List.singleton_append, hpart, splitOutside,
        if_pos ⟨rfl, rfl⟩, hrest, foldr_consFirst, List.append_nil]

/-! ## Reading what was joined -/

theorem mapM_eq_some {α β : Type} {f : α → Option β} {items : List α} {values : List β}
    (h : List.Forall₂ (fun item value => f item = some value) items values) :
    items.mapM f = some values := by
  induction h with
  | nil => rfl
  | cons hfirst _ ih => simp [List.mapM_cons, hfirst, ih]

theorem forall_of_forall₂ {α β : Type} {p : α → Prop} {r : α → β → Prop} {items : List α}
    {values : List β} (h : List.Forall₂ (fun item value => p item ∧ r item value) items values) :
    ∀ item ∈ items, p item := by
  induction h with
  | nil => exact fun _ hnone => by cases hnone
  | cons hfirst _ ih => exact List.forall_mem_cons.mpr ⟨hfirst.1, ih⟩

/-- The separators of a condition. -/
def conjunctionWord : TextToken := .word "AND".toList

def disjunctionWord : TextToken := .word "OR".toList

/-- A factor is not split. -/
def Factor (tokens : List TextToken) : Prop :=
  ∀ depth, Unsplit conjunctionWord depth tokens ∧ Unsplit disjunctionWord depth tokens

theorem Factor.append (hfront : Factor front) (hback : Factor back) : Factor (front ++ back) :=
  fun depth => ⟨(hfront depth).1.append (hback depth).1, (hfront depth).2.append (hback depth).2⟩

theorem factor_of_plain (h : ∀ token ∈ tokens, token ≠ .symbol '(' ∧ token ≠ .symbol ')' ∧
    token ≠ conjunctionWord ∧ token ≠ disjunctionWord) : Factor tokens :=
  fun _ => ⟨unsplit_of_plain fun token htoken =>
      ⟨(h token htoken).1, (h token htoken).2.1, (h token htoken).2.2.1⟩,
    unsplit_of_plain fun token htoken =>
      ⟨(h token htoken).1, (h token htoken).2.1, (h token htoken).2.2.2⟩⟩

/-- Parentheses make a factor. -/
theorem factor_group (h : ∀ depth, Unsplit conjunctionWord (depth + 1) tokens ∧
    Unsplit disjunctionWord (depth + 1) tokens) :
    Factor (.symbol '(' :: (tokens ++ [.symbol ')'])) :=
  fun depth => ⟨unsplit_group (by decide) (h depth).1,
    unsplit_group (by decide) (h depth).2⟩

/-- The separators are kept inside parentheses. -/
theorem factor_group_joined {between : TextToken} {parts : List (List TextToken)}
    (hbetween : between = conjunctionWord ∨ between = disjunctionWord)
    (h : ∀ part ∈ parts, Factor part) :
    Factor (.symbol '(' :: ([between].intercalate parts ++ [.symbol ')'])) := by
  have hplain : ∀ (separator other : TextToken) depth, other ≠ separator → other ≠ .symbol '(' →
      other ≠ .symbol ')' → Unsplit separator depth [other] := by
    intro separator other depth hne hopening hclosing
    refine unsplit_of_plain fun token htoken => ?_
    obtain rfl := List.mem_singleton.mp htoken
    exact ⟨hopening, hclosing, hne⟩
  refine factor_group fun depth => ⟨unsplit_intercalate ?_ fun part hpart => (h part hpart _).1,
    unsplit_intercalate ?_ fun part hpart => (h part hpart _).2⟩
  · rcases hbetween with rfl | rfl
    · exact unsplit_inside (by decide)
    · exact hplain _ _ _ (by decide) (by decide) (by decide)
  · rcases hbetween with rfl | rfl
    · exact hplain _ _ _ (by decide) (by decide) (by decide)
    · exact unsplit_inside (by decide)

theorem readFactor_group (readInner : List TextToken → Option SearchCondition) :
    readFactor readInner (.symbol '(' :: (tokens ++ [.symbol ')'])) = readInner tokens := by
  rw [readFactor, List.getLast?_concat, if_pos rfl, List.dropLast_concat]

/-- Factors joined by AND. -/
theorem readCondition_conjunction {factors : List (List TextToken)}
    {conditions : List SearchCondition} (hfactors : factors ≠ [])
    (h : List.Forall₂ (fun tokens condition => Factor tokens ∧
      readFactor (readCondition depth) tokens = some condition) factors conditions) :
    readCondition (depth + 1) ([conjunctionWord].intercalate factors) = joined .and conditions := by
  have hfactor := forall_of_forall₂ h
  have hwhole : Unsplit disjunctionWord 0 ([conjunctionWord].intercalate factors) := by
    refine unsplit_intercalate (unsplit_of_plain (by decide)) fun part hpart => ?_
    exact (hfactor part hpart 0).2
  have hor := splitOutside_intercalate (List.cons_ne_nil _ [])
    (List.forall_mem_singleton.mpr hwhole)
  rw [List.intercalate_singleton] at hor
  have hand := splitOutside_intercalate hfactors fun part hpart => (hfactor part hpart 0).1
  rw [readCondition, show (TextToken.word "OR".toList) = disjunctionWord from rfl, hor]
  simp only [List.mapM_cons, List.mapM_nil, show (TextToken.word "AND".toList) = conjunctionWord
    from rfl, hand, mapM_eq_some (List.Forall₂.imp (fun _ _ h => h.2) h)]
  cases hjoined : joined .and conditions with
  | none => simp [hjoined]
  | some condition => simp [hjoined, joined]

/-- Factors joined by OR. -/
theorem readCondition_disjunction {factors : List (List TextToken)}
    {conditions : List SearchCondition} (hfactors : factors ≠ [])
    (h : List.Forall₂ (fun tokens condition => Factor tokens ∧
      readFactor (readCondition depth) tokens = some condition) factors conditions) :
    readCondition (depth + 1) ([disjunctionWord].intercalate factors) = joined .or conditions := by
  have hor := splitOutside_intercalate hfactors fun part hpart => (forall_of_forall₂ h part hpart 0).2
  rw [readCondition, show (TextToken.word "OR".toList) = disjunctionWord from rfl, hor]
  have hdisjuncts : factors.mapM (fun tokens => do
      let factors ← (splitOutside (.word "AND".toList) 0 tokens).mapM
        (readFactor (readCondition depth))
      joined .and factors) = some conditions := by
    refine mapM_eq_some (List.Forall₂.imp (fun tokens condition hread => ?_) h)
    have hand := splitOutside_intercalate (List.cons_ne_nil _ [])
      (List.forall_mem_singleton.mpr (hread.1 0).1)
    rw [List.intercalate_singleton] at hand
    rw [show (TextToken.word "AND".toList) = conjunctionWord from rfl, hand]
    simp [List.mapM_cons, hread.2, joined]
  rw [hdisjuncts]
  rfl

/-! ## The truth of what was joined -/

theorem exists_joined {connective : SearchCondition → SearchCondition → SearchCondition}
    {conditions : List SearchCondition} (hconditions : conditions ≠ []) :
    ∃ condition, joined connective conditions = some condition := by
  induction conditions with
  | nil => exact absurd rfl hconditions
  | cons condition conditions ih =>
    cases conditions with
    | nil => exact ⟨condition, rfl⟩
    | cons other conditions =>
      obtain ⟨more, hmore⟩ := ih (by simp)
      exact ⟨connective condition more, by rw [joined.eq_def]; simp [hmore]⟩

theorem holds_joined_and {order : Text → Text → Text → Ordering} {row : Text → Text}
    {conditions : List SearchCondition} {values : List Bool} (hconditions : conditions ≠ [])
    (h : List.Forall₂ (fun condition value => condition.holds order row = some value)
      conditions values) :
    ∃ condition, joined .and conditions = some condition ∧
      condition.holds order row = some (values.all id) := by
  induction h with
  | nil => exact absurd rfl hconditions
  | @cons condition value conditions values hfirst hrest ih =>
    cases conditions with
    | nil =>
      cases hrest
      exact ⟨condition, rfl, by simpa using hfirst⟩
    | cons other conditions =>
      obtain ⟨more, hmore, hholds⟩ := ih (by simp)
      refine ⟨.and condition more, ?_, ?_⟩
      · rw [joined.eq_def]
        simp [hmore]
      · simp [SearchCondition.holds, hfirst, hholds]

theorem holds_joined_or {order : Text → Text → Text → Ordering} {row : Text → Text}
    {conditions : List SearchCondition} {values : List Bool} (hconditions : conditions ≠ [])
    (h : List.Forall₂ (fun condition value => condition.holds order row = some value)
      conditions values) :
    ∃ condition, joined .or conditions = some condition ∧
      condition.holds order row = some (values.any id) := by
  induction h with
  | nil => exact absurd rfl hconditions
  | @cons condition value conditions values hfirst hrest ih =>
    cases conditions with
    | nil =>
      cases hrest
      exact ⟨condition, rfl, by simpa using hfirst⟩
    | cons other conditions =>
      obtain ⟨more, hmore, hholds⟩ := ih (by simp)
      refine ⟨.or condition more, ?_, ?_⟩
      · rw [joined.eq_def]
        simp [hmore]
      · simp [SearchCondition.holds, hfirst, hholds]

end BinlogCdc
