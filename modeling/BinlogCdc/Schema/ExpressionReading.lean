import BinlogCdc.Schema.ExpressionText

/-!
# Reading expressions without parentheses

An expression in which the parentheses say no more than the precedence of the operators is a
disjunction of conjunctions of conditions. Its canonical text determines it, and with it its value
on every row.
-/

namespace BinlogCdc.SyncSchema

/-- A column or a literal. -/
inductive Simple where
  | column (name : Text)
  | text (value : Text)
  | number (digits : Text)
deriving DecidableEq

/-- A column, a literal, or a call. The first argument of a call is a column or a text, and only the
last one is a call. -/
inductive Operand where
  | simple (value : Simple)
  | call (function : Text) (first : Simple) (more : List Simple)
  | nest (function : Text) (first : Simple) (more : List Simple) (inner : Operand)
deriving DecidableEq

inductive Condition where
  | plain (operand : Operand)
  | compare (operator : Comparison) (left right : Operand)
deriving DecidableEq

/-! ## Spelling -/

def Simple.spelling : Simple → Text
  | .column name => '`' :: (doubled '`' name ++ ['`'])
  | .text value => canonicalLiteral value
  | .number digits => digits

/-- Further arguments, and what follows them. -/
def furtherSpelling : List Simple → Text → Text
  | [], rest => rest
  | argument :: more, rest => ',' :: (argument.spelling ++ furtherSpelling more rest)

def Operand.spelling : Operand → Text
  | .simple value => value.spelling
  | .call function first more => function ++ (first.spelling ++ furtherSpelling more [])
  | .nest function first more inner =>
    function ++ (first.spelling ++ furtherSpelling more (',' :: inner.spelling))

def Condition.spelling : Condition → Text
  | .plain operand => operand.spelling
  | .compare operator left right => left.spelling ++ (operator.text ++ right.spelling)

/-- Texts with a separator between them. -/
def separated {α : Type} (separator : Text) (spelling : α → Text) : List α → Text
  | [] => []
  | [element] => spelling element
  | element :: next :: rest =>
    spelling element ++ (separator ++ separated separator spelling (next :: rest))

def conjunctionSpelling : List Condition → Text := separated "and".toList Condition.spelling

def disjunctionSpelling : List (List Condition) → Text :=
  separated "or".toList conjunctionSpelling

/-! ## Well-formed parts -/

def Simple.Clean : Simple → Prop
  | .number digits =>
    (∃ c rest, digits = c :: rest ∧ c.isDigit = true) ∧ ∀ c ∈ digits, isNumeric c = true
  | _ => True

def Simple.isNumber : Simple → Bool
  | .number _ => true
  | _ => false

def FunctionName (function : Text) : Prop :=
  (∃ c rest, function = c :: rest ∧ c.isDigit = false) ∧ ∀ c ∈ function, isWord c = true

def Operand.isSimple : Operand → Bool
  | .simple _ => true
  | _ => false

def Operand.Clean : Operand → Prop
  | .simple value => value.Clean
  | .call function first more =>
    FunctionName function ∧ (first.Clean ∧ first.isNumber = false) ∧ ∀ argument ∈ more,
      argument.Clean
  | .nest function first more inner =>
    FunctionName function ∧ (first.Clean ∧ first.isNumber = false) ∧
      (∀ argument ∈ more, argument.Clean) ∧ inner.Clean ∧ inner.isSimple = false

def Condition.Clean : Condition → Prop
  | .plain operand => operand.Clean
  | .compare _ left right => left.Clean ∧ right.Clean

/-! ## Unique reading -/

/-- The text is empty or starts with one of the characters. -/
def Follows (allowed : Text) (text : Text) : Prop := ∀ c ∈ text.head?, c ∈ allowed

theorem Follows.mono {allowed more text : Text} (h : Follows allowed text) (hsub : allowed ⊆ more) :
    Follows more text :=
  fun c hc => hsub (h c hc)

theorem follows_cons {allowed text : Text} {c : Char} : Follows allowed (c :: text) ↔ c ∈ allowed := by
  simp [Follows]

/-- Two runs of characters of one kind, each up to a character that is not. -/
theorem run_cancel {p : Char → Bool} {run run' rest rest' : Text} (hrun : ∀ c ∈ run, p c = true)
    (hrun' : ∀ c ∈ run', p c = true) (hrest : ∀ c ∈ rest.head?, p c = false)
    (hrest' : ∀ c ∈ rest'.head?, p c = false) (h : run ++ rest = run' ++ rest') :
    run = run' ∧ rest = rest' := by
  induction run generalizing run' with
  | nil =>
    cases run' with
    | nil => exact ⟨rfl, h⟩
    | cons c run' =>
      obtain rfl : rest = c :: (run' ++ rest') := h
      exact absurd (hrest c rfl) (by rw [hrun' c List.mem_cons_self]; decide)
  | cons c run ih =>
    cases run' with
    | nil =>
      obtain rfl : rest' = c :: (run ++ rest) := h.symm
      exact absurd (hrest' c rfl) (by rw [hrun c List.mem_cons_self]; decide)
    | cons c' run' =>
      obtain ⟨rfl, htail⟩ := List.cons.inj h
      obtain ⟨rfl, hequal⟩ := ih (fun d hd => hrun d (List.mem_cons_of_mem _ hd))
        (fun d hd => hrun' d (List.mem_cons_of_mem _ hd)) htail
      exact ⟨rfl, hequal⟩

/-- Two texts with doubled quotes, each up to a quote that is not doubled. -/
theorem doubled_cancel {quote : Char} {value value' rest rest' : Text}
    (hrest : ∀ c ∈ rest.head?, c ≠ quote) (hrest' : ∀ c ∈ rest'.head?, c ≠ quote)
    (h : doubled quote value ++ quote :: rest = doubled quote value' ++ quote :: rest') :
    value = value' ∧ rest = rest' := by
  have hcons : ∀ (c : Char) (tail : Text), doubled quote (c :: tail) =
      (if c = quote then [c, c] else [c]) ++ doubled quote tail :=
    fun _ _ => rfl
  induction value generalizing value' with
  | nil =>
    cases value' with
    | nil => exact ⟨rfl, (List.cons.inj h).2⟩
    | cons c value' =>
      rw [hcons] at h
      split at h
      case isTrue hc =>
        obtain ⟨-, htail⟩ := List.cons.inj h
        rw [htail] at hrest
        exact absurd hc (hrest c rfl)
      case isFalse hc => exact absurd (List.cons.inj h).1.symm hc
  | cons c value ih =>
    cases value' with
    | nil =>
      rw [hcons] at h
      split at h
      case isTrue hc =>
        obtain ⟨-, htail⟩ := List.cons.inj h
        rw [← htail] at hrest'
        exact absurd hc (hrest' c rfl)
      case isFalse hc => exact absurd (List.cons.inj h).1 hc
    | cons c' value' =>
      rw [hcons, hcons] at h
      split at h
      case isTrue hc =>
        split at h
        case isTrue hc' =>
          obtain ⟨rfl, htail⟩ := ih (List.cons.inj (List.cons.inj h).2).2
          exact ⟨by rw [hc, hc'], htail⟩
        case isFalse hc' => exact absurd ((List.cons.inj h).1.symm.trans hc) hc'
      case isFalse hc =>
        split at h
        case isTrue hc' => exact absurd ((List.cons.inj h).1.trans hc') hc
        case isFalse hc' =>
          obtain ⟨rfl, htail⟩ := List.cons.inj h
          obtain ⟨rfl, hequal⟩ := ih htail
          exact ⟨rfl, hequal⟩

theorem Simple.spelling_cons {value : Simple} (h : value.Clean) :
    ∃ c rest, value.spelling = c :: rest ∧ (c = '`' ∨ c = singleQuote ∨ c.isDigit = true) ∧
      (value.isNumber = false → c.isDigit = false) := by
  cases value with
  | column name => exact ⟨_, _, rfl, .inl rfl, fun _ => by decide⟩
  | text value => exact ⟨_, _, rfl, .inr (.inl rfl), fun _ => by decide⟩
  | number digits =>
    obtain ⟨⟨c, rest, rfl, hdigit⟩, -⟩ := h
    exact ⟨c, rest, rfl, .inr (.inr hdigit), fun hnumber => by cases hnumber⟩

/-- What can follow an argument. -/
def afterArgument : Text := [',', '<', '>', '=', 'a', 'o']

/-- What can follow an operand. -/
def afterOperand : Text := ['<', '>', '=', 'a', 'o']

theorem simple_cancel {value value' : Simple} {rest rest' : Text} (hclean : value.Clean)
    (hclean' : value'.Clean) (hrest : Follows afterArgument rest)
    (hrest' : Follows afterArgument rest') (h : value.spelling ++ rest = value'.spelling ++ rest') :
    value = value' ∧ rest = rest' := by
  have hquote : ∀ {text : Text}, Follows afterArgument text →
      ∀ c ∈ text.head?, c ≠ singleQuote ∧ c ≠ '`' := by
    intro text htext c hc
    have hall : ∀ c ∈ afterArgument, c ≠ singleQuote ∧ c ≠ '`' := by decide
    exact hall c (htext c hc)
  have hnumeric : ∀ {text : Text}, Follows afterArgument text →
      ∀ c ∈ text.head?, isNumeric c = false := by
    intro text htext c hc
    have hall : ∀ c ∈ afterArgument, isNumeric c = false := by decide
    exact hall c (htext c hc)
  cases value with
  | column name =>
    cases value' with
    | column name' =>
      have htail : doubled '`' name ++ '`' :: rest = doubled '`' name' ++ '`' :: rest' := by
        simpa [Simple.spelling] using h
      obtain ⟨rfl, hequal⟩ := doubled_cancel (fun c hc => (hquote hrest c hc).2)
        (fun c hc => (hquote hrest' c hc).2) htail
      exact ⟨rfl, hequal⟩
    | text value' => exact absurd (List.cons.inj h).1 (by decide)
    | number digits' =>
      obtain ⟨⟨c, tail, rfl, hdigit⟩, -⟩ := hclean'
      obtain rfl : '`' = c := (List.cons.inj h).1
      exact absurd hdigit (by decide)
  | text value =>
    cases value' with
    | column name' => exact absurd (List.cons.inj h).1 (by decide)
    | text value' =>
      have htail : doubled singleQuote value ++ singleQuote :: rest =
          doubled singleQuote value' ++ singleQuote :: rest' := by
        simpa [Simple.spelling, canonicalLiteral] using h
      obtain ⟨rfl, hequal⟩ := doubled_cancel (fun c hc => (hquote hrest c hc).1)
        (fun c hc => (hquote hrest' c hc).1) htail
      exact ⟨rfl, hequal⟩
    | number digits' =>
      obtain ⟨⟨c, tail, rfl, hdigit⟩, -⟩ := hclean'
      obtain rfl : singleQuote = c := (List.cons.inj h).1
      exact absurd hdigit (by decide)
  | number digits =>
    cases value' with
    | column name' =>
      obtain ⟨⟨c, tail, rfl, hdigit⟩, -⟩ := hclean
      obtain rfl : c = '`' := (List.cons.inj h).1
      exact absurd hdigit (by decide)
    | text value' =>
      obtain ⟨⟨c, tail, rfl, hdigit⟩, -⟩ := hclean
      obtain rfl : c = singleQuote := (List.cons.inj h).1
      exact absurd hdigit (by decide)
    | number digits' =>
      obtain ⟨rfl, hequal⟩ := run_cancel hclean.2 hclean'.2 (hnumeric hrest) (hnumeric hrest') h
      exact ⟨rfl, hequal⟩

theorem furtherSpelling_append (more : List Simple) (rest tail : Text) :
    furtherSpelling more rest ++ tail = furtherSpelling more (rest ++ tail) := by
  induction more with
  | nil => rfl
  | cons argument more ih => simp [furtherSpelling, ih]

theorem follows_furtherSpelling {more : List Simple} {rest : Text}
    (h : Follows afterArgument rest) : Follows afterArgument (furtherSpelling more rest) := by
  cases more with
  | nil => exact h
  | cons argument more => exact follows_cons.mpr (by decide)

/-- The arguments end: an operand ends, or a call is the last argument. -/
def ArgumentsEnd (text : Text) : Prop :=
  Follows afterOperand text ∨
    ∃ c rest, text = ',' :: c :: rest ∧ c.isDigit = false ∧ isWord c = true

theorem ArgumentsEnd.follows {text : Text} (h : ArgumentsEnd text) : Follows afterArgument text := by
  obtain h | ⟨c, rest, rfl, -⟩ := h
  · exact h.mono (by decide)
  · exact follows_cons.mpr (by decide)

/-- No further column or literal follows the end of the arguments. -/
theorem ArgumentsEnd.ne_further {argument : Simple} {text rest : Text} (h : ArgumentsEnd text)
    (hclean : argument.Clean) : text ≠ ',' :: (argument.spelling ++ rest) := by
  rintro rfl
  obtain h | ⟨c, tail, htext, hdigit, hword⟩ := h
  · exact absurd (follows_cons.mp h) (by decide)
  · obtain ⟨c', tail', hspelling, hhead, -⟩ := argument.spelling_cons hclean
    rw [hspelling] at htext
    obtain ⟨rfl, -⟩ := List.cons.inj (List.cons.inj htext).2
    obtain rfl | rfl | hdigit' := hhead
    · exact absurd hword (by decide)
    · exact absurd hword (by decide)
    · rw [hdigit] at hdigit'
      cases hdigit'

theorem furtherSpelling_cancel {more more' : List Simple} {rest rest' : Text}
    (hclean : ∀ argument ∈ more, argument.Clean) (hclean' : ∀ argument ∈ more', argument.Clean)
    (hrest : ArgumentsEnd rest) (hrest' : ArgumentsEnd rest')
    (h : furtherSpelling more rest = furtherSpelling more' rest') : more = more' ∧ rest = rest' := by
  induction more generalizing more' with
  | nil =>
    cases more' with
    | nil => exact ⟨rfl, h⟩
    | cons argument more' => exact absurd h (hrest.ne_further (hclean' argument List.mem_cons_self))
  | cons argument more ih =>
    cases more' with
    | nil => exact absurd h.symm (hrest'.ne_further (hclean argument List.mem_cons_self))
    | cons argument' more' =>
      obtain ⟨rfl, htail⟩ := simple_cancel (hclean argument List.mem_cons_self)
        (hclean' argument' List.mem_cons_self) (follows_furtherSpelling hrest.follows)
        (follows_furtherSpelling hrest'.follows) (List.cons.inj h).2
      obtain ⟨rfl, hequal⟩ := ih (fun a ha => hclean a (List.mem_cons_of_mem _ ha))
        (fun a ha => hclean' a (List.mem_cons_of_mem _ ha)) htail
      exact ⟨rfl, hequal⟩

/-- A call: its name, its first argument and what follows. -/
theorem call_cancel {function function' : Text} {first first' : Simple} {rest rest' : Text}
    (hname : FunctionName function) (hname' : FunctionName function')
    (hfirst : first.Clean ∧ first.isNumber = false)
    (hfirst' : first'.Clean ∧ first'.isNumber = false) (hrest : Follows afterArgument rest)
    (hrest' : Follows afterArgument rest')
    (h : function ++ (first.spelling ++ rest) = function' ++ (first'.spelling ++ rest')) :
    function = function' ∧ first = first' ∧ rest = rest' := by
  have hword : ∀ {value : Simple} {tail : Text}, value.Clean ∧ value.isNumber = false →
      ∀ c ∈ (value.spelling ++ tail).head?, isWord c = false := by
    intro value tail hvalue c hc
    obtain ⟨c', tail', hspelling, hhead, hdigit⟩ := value.spelling_cons hvalue.1
    rw [hspelling] at hc
    obtain rfl : c' = c := Option.some.inj hc
    obtain rfl | rfl | hnumber := hhead
    · decide
    · decide
    · rw [hdigit hvalue.2] at hnumber
      cases hnumber
  obtain ⟨rfl, htail⟩ := run_cancel hname.2 hname'.2 (hword hfirst) (hword hfirst') h
  obtain ⟨rfl, hequal⟩ := simple_cancel hfirst.1 hfirst'.1 hrest hrest' htail
  exact ⟨rfl, rfl, hequal⟩

/-- A column or literal does not start like a call. -/
theorem simple_ne_call {value : Simple} {function rest tail : Text} (hclean : value.Clean)
    (hname : FunctionName function) : value.spelling ++ rest ≠ function ++ tail := by
  intro h
  obtain ⟨c, text, hspelling, hhead, -⟩ := value.spelling_cons hclean
  obtain ⟨⟨c', text', rfl, hdigit⟩, hword⟩ := hname
  rw [hspelling] at h
  obtain rfl : c = c' := (List.cons.inj h).1
  have hstart := hword c List.mem_cons_self
  obtain rfl | rfl | hnumber := hhead
  · exact absurd hstart (by decide)
  · exact absurd hstart (by decide)
  · rw [hdigit] at hnumber
    cases hnumber

/-- A call as the last argument. -/
theorem argumentsEnd_inner {inner : Operand} (hclean : inner.Clean)
    (hinner : inner.isSimple = false) (rest : Text) :
    ArgumentsEnd (',' :: (inner.spelling ++ rest)) := by
  right
  cases inner with
  | simple value => cases hinner
  | call function first more =>
    obtain ⟨⟨⟨c, text, rfl, hdigit⟩, hword⟩, -⟩ := hclean
    exact ⟨c, _, rfl, hdigit, hword c List.mem_cons_self⟩
  | nest function first more inner =>
    obtain ⟨⟨⟨c, text, rfl, hdigit⟩, hword⟩, -⟩ := hclean
    exact ⟨c, _, rfl, hdigit, hword c List.mem_cons_self⟩

theorem call_spelling_append (function : Text) (first : Simple) (more : List Simple) (rest : Text) :
    (Operand.call function first more).spelling ++ rest =
      function ++ (first.spelling ++ furtherSpelling more rest) := by
  simp [Operand.spelling, furtherSpelling_append]

theorem nest_spelling_append (function : Text) (first : Simple) (more : List Simple)
    (inner : Operand) (rest : Text) :
    (Operand.nest function first more inner).spelling ++ rest =
      function ++ (first.spelling ++ furtherSpelling more (',' :: (inner.spelling ++ rest))) := by
  simp [Operand.spelling, furtherSpelling_append]

theorem operand_cancel {operand operand' : Operand} {rest rest' : Text} (hclean : operand.Clean)
    (hclean' : operand'.Clean) (hrest : Follows afterOperand rest)
    (hrest' : Follows afterOperand rest')
    (h : operand.spelling ++ rest = operand'.spelling ++ rest') :
    operand = operand' ∧ rest = rest' := by
  have hends : ∀ {text : Text}, Follows afterOperand text → ArgumentsEnd text := fun h => .inl h
  induction operand generalizing operand' with
  | simple value =>
    cases operand' with
    | simple value' =>
      obtain ⟨rfl, hequal⟩ := simple_cancel hclean hclean' (hends hrest).follows
        (hends hrest').follows h
      exact ⟨rfl, hequal⟩
    | call function first more =>
      rw [call_spelling_append] at h
      exact absurd h (simple_ne_call hclean hclean'.1)
    | nest function first more inner =>
      rw [nest_spelling_append] at h
      exact absurd h (simple_ne_call hclean hclean'.1)
  | call function first more =>
    rw [call_spelling_append] at h
    cases operand' with
    | simple value' => exact absurd h.symm (simple_ne_call hclean' hclean.1)
    | call function' first' more' =>
      rw [call_spelling_append] at h
      obtain ⟨rfl, rfl, htail⟩ := call_cancel hclean.1 hclean'.1 hclean.2.1 hclean'.2.1
        (follows_furtherSpelling (hends hrest).follows)
        (follows_furtherSpelling (hends hrest').follows) h
      obtain ⟨rfl, hequal⟩ := furtherSpelling_cancel hclean.2.2 hclean'.2.2 (hends hrest)
        (hends hrest') htail
      exact ⟨rfl, hequal⟩
    | nest function' first' more' inner' =>
      rw [nest_spelling_append] at h
      have hlast := argumentsEnd_inner hclean'.2.2.2.1 hclean'.2.2.2.2 rest'
      obtain ⟨-, -, htail⟩ := call_cancel hclean.1 hclean'.1 hclean.2.1 hclean'.2.1
        (follows_furtherSpelling (hends hrest).follows) (follows_furtherSpelling hlast.follows) h
      obtain ⟨-, hequal⟩ := furtherSpelling_cancel hclean.2.2 hclean'.2.2.1 (hends hrest) hlast htail
      rw [hequal] at hrest
      exact absurd (follows_cons.mp hrest) (by decide)
  | nest function first more inner ih =>
    rw [nest_spelling_append] at h
    have hlast := argumentsEnd_inner hclean.2.2.2.1 hclean.2.2.2.2 rest
    cases operand' with
    | simple value' => exact absurd h.symm (simple_ne_call hclean' hclean.1)
    | call function' first' more' =>
      rw [call_spelling_append] at h
      obtain ⟨-, -, htail⟩ := call_cancel hclean.1 hclean'.1 hclean.2.1 hclean'.2.1
        (follows_furtherSpelling hlast.follows) (follows_furtherSpelling (hends hrest').follows) h
      obtain ⟨-, hequal⟩ := furtherSpelling_cancel hclean.2.2.1 hclean'.2.2 hlast (hends hrest') htail
      rw [← hequal] at hrest'
      exact absurd (follows_cons.mp hrest') (by decide)
    | nest function' first' more' inner' =>
      rw [nest_spelling_append] at h
      have hlast' := argumentsEnd_inner hclean'.2.2.2.1 hclean'.2.2.2.2 rest'
      obtain ⟨rfl, rfl, htail⟩ := call_cancel hclean.1 hclean'.1 hclean.2.1 hclean'.2.1
        (follows_furtherSpelling hlast.follows) (follows_furtherSpelling hlast'.follows) h
      obtain ⟨rfl, hinner⟩ := furtherSpelling_cancel hclean.2.2.1 hclean'.2.2.1 hlast hlast' htail
      obtain ⟨rfl, hequal⟩ := ih hclean.2.2.2.1 hclean'.2.2.2.1 (List.cons.inj hinner).2
      exact ⟨rfl, hequal⟩

/-- An operator starts with one of its characters, and an operand does not. -/
theorem operator_cancel {operator operator' : Comparison} {rest rest' : Text}
    (hrest : ∀ c ∈ rest.head?, c ∉ ['<', '>', '=']) (hrest' : ∀ c ∈ rest'.head?, c ∉ ['<', '>', '='])
    (h : operator.text ++ rest = operator'.text ++ rest') :
    operator = operator' ∧ rest = rest' := by
  have hall : ∀ (operator : Comparison), ∀ c ∈ operator.text, decide (c ∈ ['<', '>', '=']) = true := by
    intro operator
    cases operator <;> decide
  obtain ⟨htext, hequal⟩ := run_cancel (hall operator) (hall operator')
    (fun c hc => decide_eq_false (hrest c hc)) (fun c hc => decide_eq_false (hrest' c hc)) h
  refine ⟨?_, hequal⟩
  revert htext
  cases operator <;> cases operator' <;> decide

theorem operand_head {operand : Operand} (h : operand.Clean) (rest : Text) :
    ∀ c ∈ (operand.spelling ++ rest).head?, c ∉ ['<', '>', '='] := by
  have hname : ∀ {function tail : Text}, FunctionName function →
      ∀ c ∈ (function ++ tail).head?, c ∉ ['<', '>', '='] := by
    rintro function tail ⟨⟨c, text, rfl, -⟩, hword⟩ c' hc
    obtain rfl : c = c' := Option.some.inj hc
    have hstart := hword c List.mem_cons_self
    intro hmem
    simp only [List.mem_cons, List.not_mem_nil, or_false] at hmem
    obtain rfl | rfl | rfl := hmem <;> exact absurd hstart (by decide)
  cases operand with
  | simple value =>
    intro c hc
    obtain ⟨c', text, hspelling, hhead, -⟩ := value.spelling_cons h
    rw [Operand.spelling, hspelling] at hc
    obtain rfl : c' = c := Option.some.inj hc
    obtain rfl | rfl | hdigit := hhead
    · decide
    · decide
    · intro hmem
      simp only [List.mem_cons, List.not_mem_nil, or_false] at hmem
      obtain rfl | rfl | rfl := hmem <;> exact absurd hdigit (by decide)
  | call function first more =>
    rw [call_spelling_append]
    exact hname h.1
  | nest function first more inner =>
    rw [nest_spelling_append]
    exact hname h.1

/-- What can follow a condition. -/
def afterCondition : Text := ['a', 'o']

theorem condition_cancel {condition condition' : Condition} {rest rest' : Text}
    (hclean : condition.Clean) (hclean' : condition'.Clean) (hrest : Follows afterCondition rest)
    (hrest' : Follows afterCondition rest')
    (h : condition.spelling ++ rest = condition'.spelling ++ rest') :
    condition = condition' ∧ rest = rest' := by
  have hends : ∀ {text : Text}, Follows afterCondition text → Follows afterOperand text :=
    fun h => h.mono (by decide)
  have hoperator : ∀ (operator : Comparison) (tail : Text), Follows afterOperand (operator.text ++ tail) ∧
      ¬ Follows afterCondition (operator.text ++ tail) := by
    intro operator tail
    cases operator <;> simp [Comparison.text, Follows, afterOperand, afterCondition]
  cases condition with
  | plain operand =>
    cases condition' with
    | plain operand' =>
      obtain ⟨rfl, hequal⟩ := operand_cancel hclean hclean' (hends hrest) (hends hrest') h
      exact ⟨rfl, hequal⟩
    | compare operator' left' right' =>
      rw [Condition.spelling, Condition.spelling, List.append_assoc, List.append_assoc] at h
      obtain ⟨-, hequal⟩ := operand_cancel hclean hclean'.1 (hends hrest) (hoperator _ _).1 h
      rw [hequal] at hrest
      exact absurd hrest (hoperator _ _).2
  | compare operator left right =>
    cases condition' with
    | plain operand' =>
      rw [Condition.spelling, Condition.spelling, List.append_assoc, List.append_assoc] at h
      obtain ⟨-, hequal⟩ := operand_cancel hclean.1 hclean' (hoperator _ _).1 (hends hrest') h
      rw [← hequal] at hrest'
      exact absurd hrest' (hoperator _ _).2
    | compare operator' left' right' =>
      rw [Condition.spelling, Condition.spelling, List.append_assoc, List.append_assoc,
        List.append_assoc, List.append_assoc] at h
      obtain ⟨rfl, hoperators⟩ := operand_cancel hclean.1 hclean'.1 (hoperator _ _).1
        (hoperator _ _).1 h
      obtain ⟨rfl, hrights⟩ := operator_cancel (operand_head hclean.2 rest)
        (operand_head hclean'.2 rest') hoperators
      obtain ⟨rfl, hequal⟩ := operand_cancel hclean.2 hclean'.2 (hends hrest) (hends hrest') hrights
      exact ⟨rfl, hequal⟩

/-- Separated texts can be told apart if each can before the separator and at the end. -/
theorem separated_cancel {α : Type} {separator : Text} {spelling : α → Text} {Clean : α → Prop}
    {Ends : Text → Prop}
    (hcancel : ∀ {a a' : α} {rest rest' : Text}, Clean a → Clean a' → Ends rest → Ends rest' →
      spelling a ++ rest = spelling a' ++ rest' → a = a' ∧ rest = rest')
    (hseparator : ∀ rest, Ends (separator ++ rest))
    {elements elements' : List α} (hne : elements ≠ []) (hne' : elements' ≠ [])
    (hclean : ∀ a ∈ elements, Clean a) (hclean' : ∀ a ∈ elements', Clean a)
    {rest rest' : Text} (hrest : Ends rest) (hrest' : Ends rest')
    (hend : ∀ tail, rest ≠ separator ++ tail) (hend' : ∀ tail, rest' ≠ separator ++ tail)
    (h : separated separator spelling elements ++ rest =
      separated separator spelling elements' ++ rest') : elements = elements' ∧ rest = rest' := by
  induction elements generalizing elements' with
  | nil => exact absurd rfl hne
  | cons a elements ih =>
    cases elements' with
    | nil => exact absurd rfl hne'
    | cons a' elements' =>
      have ha := hclean a List.mem_cons_self
      have ha' := hclean' a' List.mem_cons_self
      cases elements with
      | nil =>
        cases elements' with
        | nil =>
          obtain ⟨rfl, hequal⟩ := hcancel ha ha' hrest hrest' h
          exact ⟨rfl, hequal⟩
        | cons b' elements' =>
          rw [separated, separated, List.append_assoc, List.append_assoc] at h
          obtain ⟨-, hequal⟩ := hcancel ha ha' hrest (hseparator _) h
          exact absurd hequal (hend _)
      | cons b elements =>
        cases elements' with
        | nil =>
          rw [separated, separated, List.append_assoc, List.append_assoc] at h
          obtain ⟨-, hequal⟩ := hcancel ha ha' (hseparator _) hrest' h
          exact absurd hequal.symm (hend' _)
        | cons b' elements' =>
          rw [separated, separated, List.append_assoc, List.append_assoc, List.append_assoc,
            List.append_assoc] at h
          obtain ⟨rfl, htail⟩ := hcancel ha ha' (hseparator _) (hseparator _) h
          obtain ⟨hlist, hequal⟩ := ih (by simp) (by simp)
            (fun c hc => hclean c (List.mem_cons_of_mem _ hc))
            (fun c hc => hclean' c (List.mem_cons_of_mem _ hc)) (List.append_cancel_left htail)
          exact ⟨by rw [hlist], hequal⟩

/-- A conjunction of well-formed conditions. -/
def CleanConjunction (conditions : List Condition) : Prop :=
  conditions ≠ [] ∧ ∀ condition ∈ conditions, condition.Clean

theorem conjunction_cancel {conditions conditions' : List Condition} {rest rest' : Text}
    (hclean : CleanConjunction conditions) (hclean' : CleanConjunction conditions')
    (hrest : Follows ['o'] rest) (hrest' : Follows ['o'] rest')
    (h : conjunctionSpelling conditions ++ rest = conjunctionSpelling conditions' ++ rest') :
    conditions = conditions' ∧ rest = rest' := by
  have hend : ∀ {text : Text}, Follows ['o'] text → ∀ tail, text ≠ "and".toList ++ tail := by
    rintro text htext tail rfl
    exact absurd (follows_cons.mp htext) (by decide)
  exact separated_cancel condition_cancel (fun rest => follows_cons.mpr (by decide)) hclean.1
    hclean'.1 hclean.2 hclean'.2 (hrest.mono (by decide)) (hrest'.mono (by decide)) (hend hrest)
    (hend hrest') h

/-- The canonical text of a disjunction determines it. -/
theorem disjunctionSpelling_injective {disjunction disjunction' : List (List Condition)}
    (hne : disjunction ≠ []) (hne' : disjunction' ≠ [])
    (hclean : ∀ conditions ∈ disjunction, CleanConjunction conditions)
    (hclean' : ∀ conditions ∈ disjunction', CleanConjunction conditions)
    (h : disjunctionSpelling disjunction = disjunctionSpelling disjunction') :
    disjunction = disjunction' := by
  have hnil : Follows ['o'] [] := by simp [Follows]
  have happend : disjunctionSpelling disjunction ++ [] = disjunctionSpelling disjunction' ++ [] := by
    rw [h]
  exact (separated_cancel conjunction_cancel (fun rest => follows_cons.mpr (by decide)) hne hne'
    hclean hclean' hnil hnil (fun tail => by simp) (fun tail => by simp) happend).1

end BinlogCdc.SyncSchema
