import BinlogCdc.Sql.Prepared

/-!
# Updates by cases

An UPDATE that sets columns to CASE expressions over equalities of columns with values, for the rows
that an IN condition lists: the statement, how the server reads it from bound tokens, and what it
does to the rows of a table. The columns of a row are set one after the other, and a later
assignment sees the earlier ones.
-/

namespace BinlogCdc

/-! ## Statements -/

/-- An equality of a column with a value. -/
structure KeyTest (V : Type) where
  column : Text
  value : V
deriving DecidableEq, Repr

/-- WHEN all tests hold THEN a value. -/
structure CaseBranch (V : Type) where
  tests : List (KeyTest V)
  value : V
deriving DecidableEq, Repr

/-- A column set to the value of its first branch that holds, or else to a column. -/
structure CaseAssignment (V : Type) where
  target : Text
  branches : List (CaseBranch V)
  otherwise : Text
deriving DecidableEq, Repr

/-- A column, or some columns together, in a list of values. -/
inductive RowFilter (V : Type) where
  | single (column : Text) (values : List V)
  | several (columns : List Text) (values : List (List V))
deriving DecidableEq, Repr

structure CaseUpdate (V : Type) where
  table : Text
  assignments : List (CaseAssignment V)
  filter : RowFilter V
  order : List Text
deriving DecidableEq, Repr

/-! ## Tokens -/

def updateWord : TextToken := .word "UPDATE".toList
def setWord : TextToken := .word "SET".toList
def caseWord : TextToken := .word "CASE".toList
def whenWord : TextToken := .word "WHEN".toList
def andWord : TextToken := .word "AND".toList
def thenWord : TextToken := .word "THEN".toList
def elseWord : TextToken := .word "ELSE".toList
def endWord : TextToken := .word "END".toList
def whereWord : TextToken := .word "WHERE".toList
def inWord : TextToken := .word "IN".toList
def orderWord : TextToken := .word "ORDER".toList
def byWord : TextToken := .word "BY".toList

section Tokens

variable {V : Type}

/-- The separator of lists. -/
def commaToken : BoundToken V := .token (.symbol ',')

def groupTokens (tokens : List (BoundToken V)) : List (BoundToken V) :=
  .token (.symbol '(') :: (tokens ++ [.token (.symbol ')')])

def valueTokens (values : List V) : List (BoundToken V) :=
  [commaToken].intercalate (values.map fun value => [.value value])

def nameTokens (names : List Text) : List (BoundToken V) :=
  [commaToken].intercalate (names.map fun name => [.token (.name name)])

def KeyTest.tokens (test : KeyTest V) : List (BoundToken V) :=
  [.token (.name test.column), .token (.symbol '='), .value test.value]

def testTokens (tests : List (KeyTest V)) : List (BoundToken V) :=
  [.token andWord].intercalate (tests.map KeyTest.tokens)

def CaseBranch.tokens (branch : CaseBranch V) : List (BoundToken V) :=
  .token whenWord :: (testTokens branch.tests ++ [.token thenWord, .value branch.value])

def CaseAssignment.tokens (assignment : CaseAssignment V) : List (BoundToken V) :=
  .token (.name assignment.target) :: .token (.symbol '=') :: .token caseWord ::
    (assignment.branches.flatMap CaseBranch.tokens ++
      [.token elseWord, .token (.name assignment.otherwise), .token endWord])

def RowFilter.tokens : RowFilter V → List (BoundToken V)
  | .single column values =>
    .token (.name column) :: .token inWord :: groupTokens (valueTokens values)
  | .several columns values =>
    groupTokens (nameTokens columns) ++ .token inWord ::
      groupTokens ([commaToken].intercalate (values.map fun row => groupTokens (valueTokens row)))

def CaseUpdate.tokens (update : CaseUpdate V) : List (BoundToken V) :=
  .token updateWord :: .token (.name update.table) :: .token setWord ::
    ([commaToken].intercalate (update.assignments.map CaseAssignment.tokens) ++
      .token whereWord :: (update.filter.tokens ++
        .token orderWord :: .token byWord :: nameTokens update.order))

end Tokens

/-! ## Reading

Every reader takes what it can from the start of the tokens and returns the rest. -/

section Reading

variable {V : Type}

/-- Equalities joined by AND. -/
def readTests : List (BoundToken V) → Option (List (KeyTest V) × List (BoundToken V))
  | .token (.name column) :: .token (.symbol '=') :: .value value :: .token word :: rest =>
    if word = andWord then
      (readTests rest).map fun (tests, rest) => (⟨column, value⟩ :: tests, rest)
    else some ([⟨column, value⟩], .token word :: rest)
  | .token (.name column) :: .token (.symbol '=') :: .value value :: rest =>
    some ([⟨column, value⟩], rest)
  | _ => none

def beginsWith (word : TextToken) : List (BoundToken V) → Bool
  | .token token :: _ => token == word
  | _ => false

/-- The ELSE of a CASE and its end. -/
def readElse : List (BoundToken V) → Option (Text × List (BoundToken V))
  | .token word :: .token (.name otherwise) :: .token ending :: rest =>
    if word = elseWord ∧ ending = endWord then some (otherwise, rest) else none
  | _ => none

/-- The branches of a CASE, to its end, and the column of its ELSE. -/
def readBranches : Nat → List (BoundToken V) →
    Option (List (CaseBranch V) × Text × List (BoundToken V))
  | 0, _ => none
  | fuel + 1, tokens =>
    if beginsWith whenWord tokens then do
      let (tests, tokens) ← readTests tokens.tail
      match tokens with
      | .token word :: .value value :: tokens =>
        if word = thenWord then do
          let (branches, otherwise, rest) ← readBranches fuel tokens
          return (⟨tests, value⟩ :: branches, otherwise, rest)
        else none
      | _ => none
    else (readElse tokens).map fun (otherwise, rest) => ([], otherwise, rest)

/-- An assignment; a CASE has a branch. -/
def readAssignment : List (BoundToken V) → Option (CaseAssignment V × List (BoundToken V))
  | .token (.name target) :: .token (.symbol '=') :: .token word :: tokens =>
    if word = caseWord then do
      let (branches, otherwise, rest) ← readBranches tokens.length tokens
      if branches.isEmpty then none else some (⟨target, branches, otherwise⟩, rest)
    else none
  | _ => none

/-- Items joined by commas. -/
def readList {α : Type} (readItem : List (BoundToken V) → Option (α × List (BoundToken V))) :
    Nat → List (BoundToken V) → Option (List α × List (BoundToken V))
  | 0, _ => none
  | fuel + 1, tokens => do
    let (item, rest) ← readItem tokens
    match rest with
    | .token (.symbol ',') :: rest => do
      let (items, rest) ← readList readItem fuel rest
      return (item :: items, rest)
    | rest => return ([item], rest)

def readName : List (BoundToken V) → Option (Text × List (BoundToken V))
  | .token (.name name) :: rest => some (name, rest)
  | _ => none

def readValue : List (BoundToken V) → Option (V × List (BoundToken V))
  | .value value :: rest => some (value, rest)
  | _ => none

/-- A list in parentheses. -/
def readGroup {α : Type} (readItem : List (BoundToken V) → Option (α × List (BoundToken V))) :
    List (BoundToken V) → Option (List α × List (BoundToken V))
  | .token (.symbol '(') :: tokens => do
    let (items, rest) ← readList readItem tokens.length tokens
    match rest with
    | .token (.symbol ')') :: rest => return (items, rest)
    | _ => none
  | _ => none

/-- Columns together in a list of rows, which have as many values as there are columns. -/
def readSeveral (tokens : List (BoundToken V)) : Option (RowFilter V × List (BoundToken V)) := do
  let (columns, rest) ← readGroup readName tokens
  match rest with
  | .token word :: rest =>
    if word = inWord then do
      let (values, rest) ← readGroup (readGroup readValue) rest
      if values.all (·.length == columns.length) then some (.several columns values, rest) else none
    else none
  | _ => none

/-- An IN condition. -/
def readFilter : List (BoundToken V) → Option (RowFilter V × List (BoundToken V))
  | .token (.name column) :: .token word :: tokens =>
    if word = inWord then
      (readGroup readValue tokens).map fun (values, rest) => (.single column values, rest)
    else none
  | tokens => readSeveral tokens

/-- The statement that tokens spell, all of them. -/
def readUpdate : List (BoundToken V) → Option (CaseUpdate V)
  | .token word :: .token (.name table) :: .token word' :: tokens =>
    if word = updateWord ∧ word' = setWord then do
      let (assignments, rest) ← readList readAssignment tokens.length tokens
      match rest with
      | .token word :: rest =>
        if word = whereWord then do
          let (filter, rest) ← readFilter rest
          match rest with
          | .token word :: .token word' :: rest =>
            if word = orderWord ∧ word' = byWord then do
              let (order, rest) ← readList readName rest.length rest
              if rest.isEmpty then some ⟨table, assignments, filter, order⟩ else none
            else none
          | _ => none
        else none
      | _ => none
    else none
  | _ => none

end Reading

/-! ## Execution -/

/-- What the server stores of a value that is assigned to a column, and when it takes a stored value
for equal to a value. -/
structure UpdateServer (V Cell : Type) where
  assigned : Text → V → Cell
  equal : Text → Cell → V → Bool

section Execution

variable {V Cell : Type} (server : UpdateServer V Cell)

/-- The columns of a stored row. -/
abbrev StoredRow (Cell : Type) := Text → Cell

def KeyTest.holds (row : StoredRow Cell) (test : KeyTest V) : Bool :=
  server.equal test.column (row test.column) test.value

def CaseBranch.holds (row : StoredRow Cell) (branch : CaseBranch V) : Bool :=
  branch.tests.all (KeyTest.holds server row)

/-- The value of the first branch that holds. -/
def CaseAssignment.value (row : StoredRow Cell) (assignment : CaseAssignment V) : Cell :=
  match assignment.branches.find? (CaseBranch.holds server row) with
  | some branch => server.assigned assignment.target branch.value
  | none => row assignment.otherwise

def CaseAssignment.assign (row : StoredRow Cell) (assignment : CaseAssignment V) : StoredRow Cell :=
  Function.update row assignment.target (assignment.value server row)

def RowFilter.holds (row : StoredRow Cell) : RowFilter V → Bool
  | .single column values => values.any (server.equal column (row column))
  | .several columns values => values.any fun value =>
    (columns.zip value).all fun (column, value) => server.equal column (row column) value

/-- A row after the update. -/
def CaseUpdate.updateRow (update : CaseUpdate V) (row : StoredRow Cell) : StoredRow Cell :=
  if update.filter.holds server row then
    update.assignments.foldl (CaseAssignment.assign server) row
  else row

/-- The rows of the table are updated one by one. -/
def CaseUpdate.execute (update : CaseUpdate V) (database : Text → List (StoredRow Cell)) :
    Text → List (StoredRow Cell) :=
  Function.update database update.table ((database update.table).map (update.updateRow server))

/-- Prepare a text, bind the parameters and execute the update. -/
def executePrepared (sql : Text) (params : List V)
    (database : Text → List (StoredRow Cell)) : Option (Text → List (StoredRow Cell)) := do
  let tokens ← preparedTokens sql
  let bound ← bindTokens tokens params
  let update ← readUpdate bound
  return update.execute server database

end Execution

end BinlogCdc
