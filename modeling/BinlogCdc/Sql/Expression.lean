import BinlogCdc.Sql.Statement

/-!
# Conditions and expressions

Expressions over columns, literals, function calls, comparisons, AND, OR and grouping parentheses:
their trees, the texts that spell a tree, and their value on a row, with NULL as the third truth
value.
-/

namespace BinlogCdc

inductive Comparison where
  | eq
  | ne
  | lt
  | le
  | gt
  | ge
deriving DecidableEq, Repr

def Comparison.text : Comparison → Text
  | .eq => ['=']
  | .ne => ['<', '>']
  | .lt => ['<']
  | .le => ['<', '=']
  | .gt => ['>']
  | .ge => ['>', '=']

inductive SqlExpr where
  | column (name : Text)
  | text (value : Text)
  | number (digits : Text)
  | call (function : Text) (arguments : List SqlExpr)
  | compare (operator : Comparison) (left right : SqlExpr)
  | and (left right : SqlExpr)
  | or (left right : SqlExpr)
  | group (inner : SqlExpr)

/-! ## Tokens -/

inductive SqlToken where
  | calling (function : Text)
  | name (name : Text)
  | literal (value : Text)
  | number (digits : Text)
  | operator (operator : Comparison)
  | conjunction
  | disjunction
  | comma
  | opening
  | closing
deriving DecidableEq

namespace SqlExpr

mutual

/-- The tokens of an expression. -/
def tokens : SqlExpr → List SqlToken
  | .column name => [.name name]
  | .text value => [.literal value]
  | .number digits => [.number digits]
  | .call function arguments =>
    .calling function :: (argumentTokens arguments ++ [.closing])
  | .compare operator left right => left.tokens ++ .operator operator :: right.tokens
  | .and left right => left.tokens ++ .conjunction :: right.tokens
  | .or left right => left.tokens ++ .disjunction :: right.tokens
  | .group inner => .opening :: (inner.tokens ++ [.closing])

/-- The tokens of the arguments of a call. -/
def argumentTokens : List SqlExpr → List SqlToken
  | [] => []
  | argument :: rest => argument.tokens ++ furtherTokens rest

/-- The tokens of further arguments. -/
def furtherTokens : List SqlExpr → List SqlToken
  | [] => []
  | argument :: rest => .comma :: (argument.tokens ++ furtherTokens rest)

end

end SqlExpr

/-- A text with some character doubled. -/
def doubled (character : Char) (text : Text) : Text :=
  text.flatMap fun c => if c = character then [c, c] else [c]

def isBlank (character : Char) : Bool :=
  character == ' ' || character == '\t' || character == '\n'

/-- The texts of a token. Names of functions, which include the opening parenthesis, and keywords
have any case. A literal can have the introducer of a character set, and a literal without quotes
and backslashes can have escaped quotes around it. -/
inductive SqlToken.Spells : SqlToken → Text → Prop where
  | calling {function text blanks : Text} (h : text.map Char.toLower = function.map Char.toLower)
      (hblanks : ∀ c ∈ blanks, isBlank c = true) :
    Spells (.calling function) (text ++ (blanks ++ ['(']))
  | name (name : Text) : Spells (.name name) ('`' :: (doubled '`' name ++ ['`']))
  | literal (value : Text) {introducer : Text}
      (hintroducer : introducer ∈ [[], "_utf8mb4".toList, "_utf8mb3".toList]) :
    Spells (.literal value)
      (introducer ++ singleQuote :: (doubled backslash (doubled singleQuote value) ++ [singleQuote]))
  | escaped {value : Text} (hquote : singleQuote ∉ value) (hslash : backslash ∉ value)
      {introducer : Text} (hintroducer : introducer ∈ [[], "_utf8mb4".toList, "_utf8mb3".toList]) :
    Spells (.literal value)
      (introducer ++ backslash :: singleQuote :: (value ++ [backslash, singleQuote]))
  | number (digits : Text) : Spells (.number digits) digits
  | operator (operator : Comparison) : Spells (.operator operator) operator.text
  | conjunction {text : Text} (h : text.map Char.toLower = "and".toList) : Spells .conjunction text
  | disjunction {text : Text} (h : text.map Char.toLower = "or".toList) : Spells .disjunction text
  | comma : Spells .comma [',']
  | opening : Spells .opening ['(']
  | closing : Spells .closing [')']

/-- The texts of tokens, with blanks around them. -/
inductive SpellsAll : List SqlToken → Text → Prop where
  | nil {blanks : Text} (hblanks : ∀ c ∈ blanks, isBlank c = true) : SpellsAll [] blanks
  | cons {token : SqlToken} {tokens : List SqlToken} {blanks text rest : Text}
      (hblanks : ∀ c ∈ blanks, isBlank c = true) (htoken : token.Spells text)
      (hrest : SpellsAll tokens rest) : SpellsAll (token :: tokens) (blanks ++ (text ++ rest))

/-- The text spells the expression. -/
def SqlExpr.Spells (expression : SqlExpr) (text : Text) : Prop := SpellsAll expression.tokens text

/-- One text of a token. -/
def SqlToken.render : SqlToken → Text
  | .calling function => function ++ ['(']
  | .name text => '`' :: (doubled '`' text ++ ['`'])
  | .literal value =>
    singleQuote :: (doubled backslash (doubled singleQuote value) ++ [singleQuote])
  | .number digits => digits
  | .operator comparison => comparison.text
  | .conjunction => "and".toList
  | .disjunction => "or".toList
  | .comma => [',']
  | .opening => ['(']
  | .closing => [')']

/-- The text of an expression with a blank before each token. -/
def SqlExpr.render (expression : SqlExpr) : Text :=
  expression.tokens.flatMap fun token => ' ' :: token.render

theorem SqlToken.spells_render (token : SqlToken) : token.Spells token.render := by
  cases token with
  | calling function => exact @Spells.calling function function [] rfl (by simp)
  | name name => exact .name name
  | literal value => exact @Spells.literal value [] (by simp)
  | number digits => exact .number digits
  | operator operator => exact .operator operator
  | conjunction => exact .conjunction (by decide)
  | disjunction => exact .disjunction (by decide)
  | comma => exact .comma
  | opening => exact .opening
  | closing => exact .closing

theorem SqlExpr.spells_render (expression : SqlExpr) : expression.Spells expression.render := by
  unfold SqlExpr.Spells SqlExpr.render
  induction expression.tokens with
  | nil => exact .nil (by simp)
  | cons token tokens ih =>
    have hcons : (token :: tokens).flatMap (fun token => ' ' :: token.render) =
        [' '] ++ (token.render ++ tokens.flatMap fun token => ' ' :: token.render) := rfl
    rw [hcons]
    exact .cons (by simp [isBlank]) token.spells_render ih

/-! ## Values -/

/-- AND of truth values; the third one is unknown. -/
def ternaryAnd : Option Bool → Option Bool → Option Bool
  | some false, _ => some false
  | some true, b => b
  | none, some false => some false
  | none, _ => none

/-- OR of truth values. -/
def ternaryOr : Option Bool → Option Bool → Option Bool
  | some true, _ => some true
  | some false, b => b
  | none, some true => some true
  | none, _ => none

theorem ternaryAnd_assoc (a b c : Option Bool) :
    ternaryAnd (ternaryAnd a b) c = ternaryAnd a (ternaryAnd b c) := by
  rcases a with _ | _ | _ <;> rcases b with _ | _ | _ <;> rcases c with _ | _ | _ <;> rfl

theorem ternaryOr_assoc (a b c : Option Bool) :
    ternaryOr (ternaryOr a b) c = ternaryOr a (ternaryOr b c) := by
  rcases a with _ | _ | _ <;> rcases b with _ | _ | _ <;> rcases c with _ | _ | _ <;> rfl

/-- A row and what the server makes of literals, functions and comparisons. Truth values are values
too. -/
structure SqlMeaning where
  Value : Type
  column : Text → Value
  text : Text → Value
  number : Text → Value
  call : Text → List Value → Value
  compare : Comparison → Value → Value → Option Bool
  truth : Value → Option Bool
  ofTruth : Option Bool → Value
  truth_ofTruth : ∀ truthValue, truth (ofTruth truthValue) = truthValue

namespace SqlExpr

variable (meaning : SqlMeaning)

mutual

/-- The value of an expression. Names of columns and functions are read in any case. -/
def eval : SqlExpr → meaning.Value
  | .column name => meaning.column (name.map Char.toLower)
  | .text value => meaning.text value
  | .number digits => meaning.number (digits.map Char.toLower)
  | .call function arguments => meaning.call (function.map Char.toLower) (evalAll arguments)
  | .compare operator left right =>
    meaning.ofTruth (meaning.compare operator left.eval right.eval)
  | .and left right =>
    meaning.ofTruth (ternaryAnd (meaning.truth left.eval) (meaning.truth right.eval))
  | .or left right =>
    meaning.ofTruth (ternaryOr (meaning.truth left.eval) (meaning.truth right.eval))
  | .group inner => inner.eval

/-- The values of arguments. -/
def evalAll : List SqlExpr → List meaning.Value
  | [] => []
  | argument :: rest => argument.eval :: evalAll rest

end

end SqlExpr

end BinlogCdc
