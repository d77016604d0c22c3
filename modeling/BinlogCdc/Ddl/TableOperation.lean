import BinlogCdc.Core.Result
import BinlogCdc.Ddl.TypeGrammar

/-!
# DROP, RENAME and TRUNCATE of one table

Two parsers read the same text: one admits the statement and tells its kind, the other
finds the names of its tables. Their tokens agree on every statement that is admitted,
whatever the SQL mode says of backslashes, since such a statement has no string literal.
-/

namespace BinlogCdc

namespace Ddl

open Text

/-! ## Admission -/

/-- A statement about the life of a table. -/
inductive TableOperation where
  | drop (ifExists : Bool)
  | rename
  | truncate
  deriving DecidableEq, Repr

def requireKeywords (tokens : List DdlToken) : List (Nat × String) → Except String Unit
  | [] => .ok ()
  | (index, word) :: words =>
    if isQuoted tokens index || !tokensMatch tokens index word then
      .error ("expected unquoted table DDL keyword " ++ word)
    else requireKeywords tokens words

/-- A name that means the same with and without quotes. -/
def isTableIdentifier (name : Text) : Bool :=
  (name.head?.any fun c => c.isAlpha || c == '_') && name.all fun c => c.isAlphanum || c == '_'

/-- The tokens at some offsets are names, and there are no more tokens than said. -/
def requireNames (tokens : List DdlToken) (names : List Nat) (length : Nat) :
    Except String Unit :=
  if tokens.length ≠ length then
    .error "table operation must contain exactly one unqualified table/pair"
  else
    match (names.filterMap (tokens[·]?)).find? fun token => !isTableIdentifier token.text with
    | some token => .error ("unsupported table identifier " ++ (String.ofList token.text).quote)
    | none => .ok ()

def parseDropTable (tokens : List DdlToken) : Except String TableOperation := do
  requireKeywords tokens [(0, "DROP"), (1, "TABLE")]
  if tokensMatch tokens 2 "IF" then
    requireKeywords tokens [(2, "IF"), (3, "EXISTS")]
    requireNames tokens [4] 5
    return .drop true
  else
    requireNames tokens [2] 3
    return .drop false

def parseRenameTable (tokens : List DdlToken) : Except String TableOperation := do
  requireKeywords tokens [(0, "RENAME"), (1, "TABLE"), (3, "TO")]
  requireNames tokens [2, 4] 5
  return .rename

def parseTruncateTable (tokens : List DdlToken) : Except String TableOperation := do
  requireKeywords tokens [(0, "TRUNCATE")]
  if tokensMatch tokens 1 "TABLE" then
    requireKeywords tokens [(1, "TABLE")]
    requireNames tokens [2] 3
    return .truncate
  else
    requireNames tokens [1] 2
    return .truncate

/-- A comment that the server may execute, wherever it stands. -/
def containsActiveComment (sql : Text) : Bool :=
  ["/*!", "/*+", "/*M!", "/*m!"].any fun marker => Text.contains marker.toList sql

/-- The tokens without a closing semicolon. -/
def withoutSemicolon (tokens : List DdlToken) : List DdlToken :=
  if tokens.getLast?.map DdlToken.text = some ";".toList then tokens.dropLast else tokens

/-- The statement whose tokens are given. -/
def parseTableTokens (tokens : List DdlToken) : Except String TableOperation :=
  match tokens with
  | [] => .error "empty table DDL"
  | kind :: _ =>
    if eqIgnoreAsciiCase kind.text "DROP".toList then parseDropTable tokens
    else if eqIgnoreAsciiCase kind.text "RENAME".toList then parseRenameTable tokens
    else if eqIgnoreAsciiCase kind.text "TRUNCATE".toList then parseTruncateTable tokens
    else .error "not a modeled table lifecycle operation"

def TableOperation.parse (sql : Text) : Except String TableOperation :=
  if containsActiveComment sql || List.elem doubleQuote sql then
    .error "table operation requires ordinary comments and backtick/unquoted names"
  else do
    let tokens ← tokenizeDdl sql false
    parseTableTokens (withoutSemicolon tokens)

/-! ## The operation of a statement -/

inductive DdlFamily where
  | table | index | view | procedure | function | event | trigger | rename | truncate | drop
  deriving DecidableEq, Repr

inductive DdlObjectKind where
  | table | index | view | procedure | function | event | trigger
  deriving DecidableEq, Repr

/-- What a statement does to which objects. -/
structure DdlOperation where
  family : DdlFamily
  objectKind : DdlObjectKind
  primaryObject : Text
  secondaryObject : Option Text
  tableOperationAst : Option TableOperation
  deriving DecidableEq, Repr

def objectKindFor (kind : Text) : Except String DdlObjectKind :=
  match String.ofList kind with
  | "TABLE" => .ok .table
  | "INDEX" => .ok .index
  | "VIEW" => .ok .view
  | "PROCEDURE" => .ok .procedure
  | "FUNCTION" => .ok .function
  | "EVENT" => .ok .event
  | "TRIGGER" => .ok .trigger
  | other => .error ("unsupported automatic DDL object type `" ++ other ++ "`")

/-- The offset after an existence test, which may be negated. -/
def skipIfExists (tokens : List DdlToken) (index : Nat) : Nat :=
  if tokensMatch tokens index "IF" && tokensMatch tokens (index + 1) "NOT" then index + 3
  else if tokensMatch tokens index "IF" && tokensMatch tokens (index + 1) "EXISTS" then index + 2
  else index

def objectName (tokens : List DdlToken) (index : Nat) : Except String Text :=
  match tokens[index]? with
  | none => .error "DDL object name is missing"
  | some token =>
    if [".", ",", "(", ")"].any fun mark => token.text == mark.toList then
      .error "DDL object name is invalid"
    else if tokens[index + 1]?.any fun next => next.text == ".".toList then
      .error ("qualified DDL object `" ++ String.ofList token.text ++ "` is not automatic")
    else .ok token.text

def requireDdlKeyword (tokens : List DdlToken) (index : Nat) (expected : String) :
    Except String Unit :=
  if tokensMatch tokens index expected then .ok ()
  else .error ("expected DDL keyword `" ++ expected ++ "`")

def rejectListSeparator (tokens : List DdlToken) (start : Nat) : Except String Unit :=
  if (tokens.drop start).any fun token => token.text == ",".toList then
    .error "multi-object DDL is not automatic"
  else .ok ()

/-- The table of a statement about an index. -/
def parseDropSecondary (tokens : List DdlToken) (objectKind : DdlObjectKind) (nameIndex : Nat) :
    Except String (Option Text) :=
  if objectKind ≠ .index then .ok none
  else
    match (tokens.drop (nameIndex + 1)).findIdx? fun token =>
        eqIgnoreAsciiCase token.text "ON".toList with
    | none => .error "DDL keyword `ON` is missing"
    | some offset => (objectName tokens (nameIndex + 1 + offset + 1)).map some

def parseDrop (tokens : List DdlToken) : Except String DdlOperation := do
  let kindIndex := if tokensMatch tokens 1 "TEMPORARY" then 2 else 1
  let kind ←
    match tokens[kindIndex]? with
    | none => .error "DROP object type is missing"
    | some token => .ok token.text
  let objectKind ← objectKindFor (toAsciiUppercase kind)
  let nameIndex := skipIfExists tokens (kindIndex + 1)
  let name ← objectName tokens nameIndex
  rejectListSeparator tokens (nameIndex + 1)
  let secondaryObject ← parseDropSecondary tokens objectKind nameIndex
  return {
    family := if objectKind = .index then .index else .drop
    objectKind
    primaryObject := name
    secondaryObject
    tableOperationAst := none }

def parseRename (tokens : List DdlToken) : Except String DdlOperation := do
  requireDdlKeyword tokens 1 "TABLE"
  let source ← objectName tokens 2
  requireDdlKeyword tokens 3 "TO"
  let destination ← objectName tokens 4
  rejectListSeparator tokens 5
  return {
    family := .rename
    objectKind := .table
    primaryObject := source
    secondaryObject := some destination
    tableOperationAst := none }

def parseTruncate (tokens : List DdlToken) : Except String DdlOperation := do
  let name ← objectName tokens (if tokensMatch tokens 1 "TABLE" then 2 else 1)
  return {
    family := .truncate
    objectKind := .table
    primaryObject := name
    secondaryObject := none
    tableOperationAst := none }

/-- How the statements are read that are no matter of the life of a table. -/
structure OtherStatements where
  /-- A CREATE or ALTER statement, from its text, its SQL mode and its tokens. -/
  parseCreateOrAlter : Text → Option Nat → List DdlToken → Except String DdlOperation
  /-- The operation of a statement about an index, once its text is read as one. -/
  withIndexAst : Text → DdlOperation → Except String DdlOperation

/-- The operation of the tokens of a statement. -/
def parseCommand (others : OtherStatements) (sql : Text) (mode : Option Nat)
    (tokens : List DdlToken) : Except String DdlOperation :=
  match tokens with
  | [] => .error "empty DDL statement"
  | command :: _ =>
    if eqIgnoreAsciiCase command.text "CREATE".toList ||
        eqIgnoreAsciiCase command.text "ALTER".toList then
      others.parseCreateOrAlter sql mode tokens
    else if eqIgnoreAsciiCase command.text "DROP".toList then parseDrop tokens
    else if eqIgnoreAsciiCase command.text "RENAME".toList then parseRename tokens
    else if eqIgnoreAsciiCase command.text "TRUNCATE".toList then parseTruncate tokens
    else
      .error ("unsupported automatic DDL command `" ++
        String.ofList (toAsciiUppercase command.text) ++ "`")

def parseDdlOperationWithMode (others : OtherStatements) (sql : Text) (mode : Option Nat) :
    Except String DdlOperation := do
  let tokens ← tokenizeDdl sql ((noBackslashEscapes mode).getD false)
  let operation ← parseCommand others sql mode tokens
  match operation.objectKind with
  | .index => others.withIndexAst sql operation
  | .table => return { operation with tableOperationAst := (TableOperation.parse sql).toOption }
  | _ => return operation

/-! ## Tokens without string literals -/

/-- A step that makes no string literal does not depend on the SQL mode. -/
theorem tokenizeDdlStep_of_ne {c : Char} (h : c ≠ singleQuote) (rest : Text) (noEscapes : Bool) :
    tokenizeDdlStep noEscapes c rest = tokenizeDdlStep false c rest := by
  have hquote : (c == singleQuote) = false := by simpa using h
  simp only [tokenizeDdlStep, hquote]
  rfl

/-- The tokens of a text without string literals do not depend on the SQL mode. -/
theorem tokenizeDdlFrom_noEscapes {fuel : Nat} {characters : Text} {tokens : List DdlToken}
    (h : tokenizeDdlFrom false fuel characters = .ok tokens)
    (hstring : ∀ token ∈ tokens, token.text ≠ stringToken) (noEscapes : Bool) :
    tokenizeDdlFrom noEscapes fuel characters = .ok tokens := by
  induction fuel generalizing characters tokens with
  | zero => simpa only [tokenizeDdlFrom] using h
  | succ fuel ih =>
    cases characters with
    | nil => simpa only [tokenizeDdlFrom] using h
    | cons c rest =>
      rw [tokenizeDdlFrom] at h ⊢
      obtain ⟨⟨token, next⟩, hstep, h⟩ := bind_eq_ok.mp h
      obtain ⟨more, hmore, h⟩ := bind_eq_ok.mp h
      cases h
      have hne : c ≠ singleQuote := by
        rintro rfl
        have htoken : token = some stringToken := by
          have hstep' : (skipQuotedString false false rest).map
              (fun after => (some stringToken, after)) = .ok (token, next) := hstep
          cases hskip : skipQuotedString false false rest with
          | error message => rw [hskip] at hstep'; cases hstep'
          | ok after => rw [hskip] at hstep'; cases hstep'; rfl
        subst htoken
        exact hstring _ (List.mem_append_left _ (List.mem_singleton.mpr rfl)) rfl
      have hmore' := ih hmore fun token htoken => hstring token (List.mem_append_right _ htoken)
      rw [tokenizeDdlStep_of_ne hne, hstep]
      simp only [ok_bind, hmore']
      rfl

/-! ## What admission says of the tokens -/

theorem tokensMatch_of_requireKeywords {tokens : List DdlToken} {words : List (Nat × String)}
    (h : requireKeywords tokens words = .ok ()) :
    ∀ word ∈ words, tokensMatch tokens word.1 word.2 = true := by
  induction words with
  | nil => simp
  | cons word words ih =>
    obtain ⟨index, word⟩ := word
    rw [requireKeywords] at h
    by_cases hword : tokensMatch tokens index word = true
    · cases hquoted : isQuoted tokens index with
      | true => simp [hquoted] at h
      | false =>
        rw [hquoted, hword] at h
        exact List.forall_mem_cons.mpr ⟨hword, ih h⟩
    · simp [hword] at h

theorem of_requireNames {tokens : List DdlToken} {names : List Nat} {length : Nat}
    (h : requireNames tokens names length = .ok ()) :
    tokens.length = length ∧ ∀ index ∈ names, ∀ token, tokens[index]? = some token →
      isTableIdentifier token.text = true := by
  unfold requireNames at h
  by_cases hlength : tokens.length = length
  · rw [if_neg (not_not.mpr hlength)] at h
    refine ⟨hlength, fun index hindex token htoken => ?_⟩
    cases hfind : (names.filterMap (tokens[·]?)).find? fun token =>
        !isTableIdentifier token.text with
    | some token => simp [hfind] at h
    | none =>
      have hmem : token ∈ names.filterMap (tokens[·]?) :=
        List.mem_filterMap.mpr ⟨index, hindex, htoken⟩
      simpa using List.find?_eq_none.mp hfind token hmem
  · rw [if_pos hlength] at h
    cases h

/-- The tokens of an admitted statement, without its semicolon. -/
inductive Admitted : TableOperation → List DdlToken → Text → Option Text → Prop where
  | drop {drop table name : DdlToken} (hdrop : eqIgnoreAsciiCase drop.text "DROP".toList)
      (htable : eqIgnoreAsciiCase table.text "TABLE".toList)
      (hif : ¬eqIgnoreAsciiCase name.text "IF".toList) (hname : isTableIdentifier name.text) :
      Admitted (.drop false) [drop, table, name] name.text none
  | dropIfExists {drop table test exists' name : DdlToken}
      (hdrop : eqIgnoreAsciiCase drop.text "DROP".toList)
      (htable : eqIgnoreAsciiCase table.text "TABLE".toList)
      (hif : eqIgnoreAsciiCase test.text "IF".toList)
      (hexists : eqIgnoreAsciiCase exists'.text "EXISTS".toList)
      (hname : isTableIdentifier name.text) :
      Admitted (.drop true) [drop, table, test, exists', name] name.text none
  | rename {rename table name into destination : DdlToken}
      (hrename : eqIgnoreAsciiCase rename.text "RENAME".toList)
      (htable : eqIgnoreAsciiCase table.text "TABLE".toList)
      (hname : isTableIdentifier name.text) (hto : eqIgnoreAsciiCase into.text "TO".toList)
      (hdestination : isTableIdentifier destination.text) :
      Admitted .rename [rename, table, name, into, destination] name.text (some destination.text)
  | truncate {truncate name : DdlToken}
      (htruncate : eqIgnoreAsciiCase truncate.text "TRUNCATE".toList)
      (htable : ¬eqIgnoreAsciiCase name.text "TABLE".toList)
      (hname : isTableIdentifier name.text) :
      Admitted .truncate [truncate, name] name.text none
  | truncateTable {truncate table name : DdlToken}
      (htruncate : eqIgnoreAsciiCase truncate.text "TRUNCATE".toList)
      (htable : eqIgnoreAsciiCase table.text "TABLE".toList)
      (hname : isTableIdentifier name.text) :
      Admitted .truncate [truncate, table, name] name.text none

section Shape

variable {tokens : List DdlToken} {operation : TableOperation}

theorem admitted_of_parseDropTable (h : parseDropTable tokens = .ok operation) :
    ∃ name destination, Admitted operation tokens name destination := by
  unfold parseDropTable at h
  obtain ⟨⟨⟩, hwords, h⟩ := bind_eq_ok.mp h
  have hwords := tokensMatch_of_requireKeywords hwords
  have hdrop := hwords (0, "DROP") (by simp)
  have htable := hwords (1, "TABLE") (by simp)
  by_cases hif : tokensMatch tokens 2 "IF" = true
  · rw [if_pos hif] at h
    obtain ⟨⟨⟩, htest, h⟩ := bind_eq_ok.mp h
    obtain ⟨⟨⟩, hnames, h⟩ := bind_eq_ok.mp h
    cases h
    have hexists := tokensMatch_of_requireKeywords htest (3, "EXISTS") (by simp)
    obtain ⟨hlength, hname⟩ := of_requireNames hnames
    match tokens, hlength with
    | [drop, table, test, exists', name], _ =>
      exact ⟨_, _, .dropIfExists hdrop htable hif hexists (hname 4 (by simp) name rfl)⟩
  · rw [if_neg hif] at h
    obtain ⟨⟨⟩, hnames, h⟩ := bind_eq_ok.mp h
    cases h
    obtain ⟨hlength, hname⟩ := of_requireNames hnames
    match tokens, hlength with
    | [drop, table, name], _ =>
      exact ⟨_, _, .drop hdrop htable hif (hname 2 (by simp) name rfl)⟩

theorem admitted_of_parseRenameTable (h : parseRenameTable tokens = .ok operation) :
    ∃ name destination, Admitted operation tokens name destination := by
  unfold parseRenameTable at h
  obtain ⟨⟨⟩, hwords, h⟩ := bind_eq_ok.mp h
  obtain ⟨⟨⟩, hnames, h⟩ := bind_eq_ok.mp h
  cases h
  have hwords := tokensMatch_of_requireKeywords hwords
  have hrename := hwords (0, "RENAME") (by simp)
  have htable := hwords (1, "TABLE") (by simp)
  have hto := hwords (3, "TO") (by simp)
  obtain ⟨hlength, hname⟩ := of_requireNames hnames
  match tokens, hlength with
  | [rename, table, name, into, destination], _ =>
    exact ⟨_, _, .rename hrename htable (hname 2 (by simp) name rfl) hto
      (hname 4 (by simp) destination rfl)⟩

theorem admitted_of_parseTruncateTable (h : parseTruncateTable tokens = .ok operation) :
    ∃ name destination, Admitted operation tokens name destination := by
  unfold parseTruncateTable at h
  obtain ⟨⟨⟩, hwords, h⟩ := bind_eq_ok.mp h
  have htruncate := tokensMatch_of_requireKeywords hwords (0, "TRUNCATE") (by simp)
  by_cases htable : tokensMatch tokens 1 "TABLE" = true
  · rw [if_pos htable] at h
    obtain ⟨⟨⟩, -, h⟩ := bind_eq_ok.mp h
    obtain ⟨⟨⟩, hnames, h⟩ := bind_eq_ok.mp h
    cases h
    obtain ⟨hlength, hname⟩ := of_requireNames hnames
    match tokens, hlength with
    | [truncate, table, name], _ =>
      exact ⟨_, _, .truncateTable htruncate htable (hname 2 (by simp) name rfl)⟩
  · rw [if_neg htable] at h
    obtain ⟨⟨⟩, hnames, h⟩ := bind_eq_ok.mp h
    cases h
    obtain ⟨hlength, hname⟩ := of_requireNames hnames
    match tokens, hlength with
    | [truncate, name], _ =>
      exact ⟨_, _, .truncate htruncate htable (hname 1 (by simp) name rfl)⟩

theorem admitted_of_parseTableTokens (h : parseTableTokens tokens = .ok operation) :
    ∃ name destination, Admitted operation tokens name destination := by
  unfold parseTableTokens at h
  cases tokens with
  | nil => cases h
  | cons kind rest =>
    dsimp only at h
    split_ifs at h
    · exact admitted_of_parseDropTable h
    · exact admitted_of_parseRenameTable h
    · exact admitted_of_parseTruncateTable h

end Shape

/-! ## Both parsers on an admitted statement -/

theorem not_eqIgnoreAsciiCase {text keyword other : Text} (h : eqIgnoreAsciiCase text keyword)
    (hne : eqIgnoreAsciiCase keyword other = false) : eqIgnoreAsciiCase text other = false := by
  unfold eqIgnoreAsciiCase at h hne ⊢
  rw [beq_iff_eq.mp h]
  exact hne

theorem ne_of_isTableIdentifier {name other : Text} (h : isTableIdentifier name = true)
    (hother : isTableIdentifier other = false) : name ≠ other := by
  rintro rfl
  rw [h] at hother
  cases hother

def TableOperation.family : TableOperation → DdlFamily
  | .drop _ => .drop
  | .rename => .rename
  | .truncate => .truncate

theorem objectName_eq_ok {tokens : List DdlToken} {index : Nat} {token : DdlToken}
    (h : tokens[index]? = some token) (hname : isTableIdentifier token.text = true)
    (hnext : ∀ next, tokens[index + 1]? = some next → next.text ≠ ".".toList) :
    objectName tokens index = .ok token.text := by
  have hmark : ([".", ",", "(", ")"].any fun mark => token.text == mark.toList) = false := by
    rw [List.any_eq_false]
    intro mark hmark
    simp only [List.mem_cons, List.not_mem_nil, or_false] at hmark
    rw [beq_iff_eq]
    rcases hmark with rfl | rfl | rfl | rfl <;> exact ne_of_isTableIdentifier hname (by decide)
  have hdot : (tokens[index + 1]?.any fun next => next.text == ".".toList) = false := by
    cases hget : tokens[index + 1]? with
    | none => rfl
    | some next => simpa using hnext next hget
  simp only [objectName, h, hmark, hdot]
  rfl

theorem parseCommand_drop {others : OtherStatements} {sql : Text} {mode : Option Nat}
    {command : DdlToken} (h : eqIgnoreAsciiCase command.text "DROP".toList) (rest : List DdlToken) :
    parseCommand others sql mode (command :: rest) = parseDrop (command :: rest) := by
  have hcreate := @not_eqIgnoreAsciiCase _ _ "CREATE".toList h rfl
  have halter := @not_eqIgnoreAsciiCase _ _ "ALTER".toList h rfl
  simp only [parseCommand, hcreate, halter, h]
  rfl

theorem parseCommand_rename {others : OtherStatements} {sql : Text} {mode : Option Nat}
    {command : DdlToken} (h : eqIgnoreAsciiCase command.text "RENAME".toList)
    (rest : List DdlToken) :
    parseCommand others sql mode (command :: rest) = parseRename (command :: rest) := by
  have hcreate := @not_eqIgnoreAsciiCase _ _ "CREATE".toList h rfl
  have halter := @not_eqIgnoreAsciiCase _ _ "ALTER".toList h rfl
  have hdrop := @not_eqIgnoreAsciiCase _ _ "DROP".toList h rfl
  simp only [parseCommand, hcreate, halter, hdrop, h]
  rfl

theorem parseCommand_truncate {others : OtherStatements} {sql : Text} {mode : Option Nat}
    {command : DdlToken} (h : eqIgnoreAsciiCase command.text "TRUNCATE".toList)
    (rest : List DdlToken) :
    parseCommand others sql mode (command :: rest) = parseTruncate (command :: rest) := by
  have hcreate := @not_eqIgnoreAsciiCase _ _ "CREATE".toList h rfl
  have halter := @not_eqIgnoreAsciiCase _ _ "ALTER".toList h rfl
  have hdrop := @not_eqIgnoreAsciiCase _ _ "DROP".toList h rfl
  have hrename := @not_eqIgnoreAsciiCase _ _ "RENAME".toList h rfl
  simp only [parseCommand, hcreate, halter, hdrop, hrename, h]
  rfl

theorem objectKindFor_table {table : Text} (h : eqIgnoreAsciiCase table "TABLE".toList) :
    objectKindFor (toAsciiUppercase table) = .ok .table := by
  have hupper : toAsciiUppercase table = toAsciiUppercase "TABLE".toList := beq_iff_eq.mp h
  rw [hupper]
  rfl

section Command

variable {operation : TableOperation} {tokens tail : List DdlToken} {name : Text}
  {destination : Option Text}

theorem ne_dot_of_tail (htail : ∀ token ∈ tail, token.text = ";".toList) (next : DdlToken)
    (h : tail[0]? = some next) : next.text ≠ ".".toList := by
  rw [htail next (List.mem_of_getElem? h)]
  decide

theorem rejectListSeparator_tail {tokens : List DdlToken} {start : Nat}
    (htail : ∀ token ∈ tail, token.text = ";".toList) (h : tokens.drop start = tail) :
    rejectListSeparator tokens start = .ok () := by
  have hany : (tail.any fun token => token.text == ",".toList) = false := by
    rw [List.any_eq_false]
    intro token htoken
    rw [htail token htoken]
    decide
  simp only [rejectListSeparator, h, hany]
  rfl

/-- The second parser finds the name after DROP TABLE and an existence test. -/
theorem parseDrop_table {drop table : DdlToken} {rest : List DdlToken} {index : Nat}
    {found : DdlToken} (htable : eqIgnoreAsciiCase table.text "TABLE".toList)
    (hindex : skipIfExists (drop :: table :: rest) 2 = index)
    (hfound : (drop :: table :: rest)[index]? = some found)
    (hname : isTableIdentifier found.text = true)
    (htail : ∀ token ∈ tail, token.text = ";".toList)
    (hrest : (drop :: table :: rest).drop (index + 1) = tail) :
    parseDrop (drop :: table :: rest) = .ok ⟨.drop, .table, found.text, none, none⟩ := by
  have htemporary : tokensMatch (drop :: table :: rest) 1 "TEMPORARY" = false :=
    not_eqIgnoreAsciiCase htable rfl
  have hobject : objectName (drop :: table :: rest) index = .ok found.text := by
    apply objectName_eq_ok hfound hname
    intro next hnext
    apply ne_dot_of_tail htail next
    rw [← hrest, List.getElem?_drop]
    exact hnext
  simp only [parseDrop, htemporary, Bool.false_eq_true, if_false, List.getElem?_cons_succ,
    List.getElem?_cons_zero, ok_bind, objectKindFor_table htable, hindex, hobject,
    rejectListSeparator_tail htail hrest]
  rfl

theorem skipIfExists_of_not {tokens : List DdlToken} {index : Nat}
    (h : tokensMatch tokens index "IF" = false) : skipIfExists tokens index = index := by
  simp [skipIfExists, h]

/-- The second parser finds the names of an admitted statement. -/
theorem parseCommand_of_admitted (h : Admitted operation tokens name destination)
    (htail : ∀ token ∈ tail, token.text = ";".toList) (others : OtherStatements) (sql : Text)
    (mode : Option Nat) :
    parseCommand others sql mode (tokens ++ tail) =
      .ok ⟨operation.family, .table, name, destination, none⟩ := by
  cases h with
  | @drop drop table found hdrop htable hif hname =>
    have hskip : skipIfExists (drop :: table :: ([found] ++ tail)) 2 = 2 :=
      skipIfExists_of_not (Bool.eq_false_iff.mpr hif)
    exact (parseCommand_drop hdrop _).trans (parseDrop_table htable hskip rfl hname htail rfl)
  | @dropIfExists drop table test exists' found hdrop htable hif hexists hname =>
    have hnot := @not_eqIgnoreAsciiCase _ _ "NOT".toList hexists rfl
    have hskip : skipIfExists (drop :: table :: ([test, exists', found] ++ tail)) 2 = 4 := by
      have htest : tokensMatch (drop :: table :: ([test, exists', found] ++ tail)) 2 "IF" = true :=
        hif
      have hnot : tokensMatch (drop :: table :: ([test, exists', found] ++ tail)) (2 + 1) "NOT" =
        false := hnot
      have hexists : tokensMatch (drop :: table :: ([test, exists', found] ++ tail)) (2 + 1)
        "EXISTS" = true := hexists
      simp only [skipIfExists, htest, hnot, hexists]
      rfl
    exact (parseCommand_drop hdrop _).trans (parseDrop_table htable hskip rfl hname htail rfl)
  | @rename rename table source into target hrename htable hname hto hdestination =>
    refine (parseCommand_rename hrename ([table, source, into, target] ++ tail)).trans ?_
    have hsource : objectName ([rename, table, source, into, target] ++ tail) 2 =
        .ok source.text := by
      apply objectName_eq_ok rfl hname
      rintro next ⟨⟩
      intro hdot
      rw [hdot] at hto
      cases hto
    have htarget : objectName ([rename, table, source, into, target] ++ tail) 4 =
        .ok target.text :=
      objectName_eq_ok rfl hdestination (ne_dot_of_tail htail)
    have htableKey : requireDdlKeyword ([rename, table, source, into, target] ++ tail) 1 "TABLE" =
        .ok () := if_pos htable
    have htoKey : requireDdlKeyword ([rename, table, source, into, target] ++ tail) 3 "TO" =
        .ok () := if_pos hto
    have hseparator : rejectListSeparator ([rename, table, source, into, target] ++ tail) 5 =
        .ok () := rejectListSeparator_tail htail rfl
    change parseRename ([rename, table, source, into, target] ++ tail) = _
    simp only [parseRename, htableKey, htoKey, hsource, htarget, ok_bind, hseparator]
    rfl
  | @truncate truncate found htruncate htable hname =>
    refine (parseCommand_truncate htruncate ([found] ++ tail)).trans ?_
    have hmatch : tokensMatch ([truncate, found] ++ tail) 1 "TABLE" = false :=
      Bool.eq_false_iff.mpr htable
    have hobject : objectName ([truncate, found] ++ tail) 1 = .ok found.text :=
      objectName_eq_ok rfl hname (ne_dot_of_tail htail)
    change parseTruncate ([truncate, found] ++ tail) = _
    simp only [parseTruncate, hmatch, Bool.false_eq_true, if_false, hobject, ok_bind]
    rfl
  | @truncateTable truncate table found htruncate htable hname =>
    refine (parseCommand_truncate htruncate ([table, found] ++ tail)).trans ?_
    have hmatch : tokensMatch ([truncate, table, found] ++ tail) 1 "TABLE" = true := htable
    have hobject : objectName ([truncate, table, found] ++ tail) 2 = .ok found.text :=
      objectName_eq_ok rfl hname (ne_dot_of_tail htail)
    change parseTruncate ([truncate, table, found] ++ tail) = _
    simp only [parseTruncate, hmatch, if_true, hobject, ok_bind]
    rfl

end Command

theorem withoutSemicolon_append (tokens : List DdlToken) : ∃ tail,
    tokens = withoutSemicolon tokens ++ tail ∧ ∀ token ∈ tail, token.text = ";".toList := by
  unfold withoutSemicolon
  split_ifs with hlast
  · cases hget : tokens.getLast? with
    | none => simp [hget] at hlast
    | some last =>
      refine ⟨[last], ?_, ?_⟩
      · exact (List.dropLast_append_getLast? last hget).symm
      · rw [hget] at hlast
        simpa using hlast
  · exact ⟨[], by simp, by simp⟩

theorem Admitted.ne_stringToken {operation : TableOperation} {tokens : List DdlToken} {name : Text}
    {destination : Option Text} (h : Admitted operation tokens name destination) :
    ∀ token ∈ tokens, token.text ≠ stringToken := by
  have hkeyword : ∀ {text keyword : Text}, eqIgnoreAsciiCase text keyword = true →
      eqIgnoreAsciiCase keyword stringToken = false → text ≠ stringToken := by
    rintro text keyword hkey hne rfl
    unfold eqIgnoreAsciiCase at hkey hne
    rw [beq_iff_eq.mp hkey, beq_self_eq_true] at hne
    cases hne
  have hidentifier : ∀ {text : Text}, isTableIdentifier text = true → text ≠ stringToken :=
    fun hname => ne_of_isTableIdentifier hname (by decide)
  cases h with
  | drop hdrop htable hif hname =>
    simp only [List.forall_mem_cons]
    exact ⟨hkeyword hdrop rfl, hkeyword htable rfl, hidentifier hname, by simp⟩
  | dropIfExists hdrop htable hif hexists hname =>
    simp only [List.forall_mem_cons]
    exact ⟨hkeyword hdrop rfl, hkeyword htable rfl, hkeyword hif rfl, hkeyword hexists rfl,
      hidentifier hname, by simp⟩
  | rename hrename htable hname hto hdestination =>
    simp only [List.forall_mem_cons]
    exact ⟨hkeyword hrename rfl, hkeyword htable rfl, hidentifier hname, hkeyword hto rfl,
      hidentifier hdestination, by simp⟩
  | truncate htruncate htable hname =>
    simp only [List.forall_mem_cons]
    exact ⟨hkeyword htruncate rfl, hidentifier hname, by simp⟩
  | truncateTable htruncate htable hname =>
    simp only [List.forall_mem_cons]
    exact ⟨hkeyword htruncate rfl, hkeyword htable rfl, hidentifier hname, by simp⟩

/-- Both parsers agree on the tokens of an admitted statement. -/
theorem parseDdlOperation_of_parse {sql : Text} {operation : TableOperation}
    (h : TableOperation.parse sql = .ok operation) (others : OtherStatements)
    (mode : Option Nat) :
    ∃ tokens name destination, Admitted operation tokens name destination ∧
      parseDdlOperationWithMode others sql mode =
        .ok ⟨operation.family, .table, name, destination, some operation⟩ := by
  have hparse := h
  unfold TableOperation.parse at h
  split_ifs at h
  obtain ⟨tokens, htokens, h⟩ := bind_eq_ok.mp h
  obtain ⟨name, destination, hadmitted⟩ := admitted_of_parseTableTokens h
  obtain ⟨tail, hsplit, htail⟩ := withoutSemicolon_append tokens
  have hstring : ∀ token ∈ tokens, token.text ≠ stringToken := by
    rw [hsplit]
    intro token htoken
    rcases List.mem_append.mp htoken with htoken | htoken
    · exact hadmitted.ne_stringToken token htoken
    · rw [htail token htoken]
      decide
  have hmode : tokenizeDdl sql ((noBackslashEscapes mode).getD false) = .ok tokens :=
    tokenizeDdlFrom_noEscapes htokens hstring _
  have hcommand := parseCommand_of_admitted hadmitted htail others sql mode
  rw [← hsplit] at hcommand
  refine ⟨_, name, destination, hadmitted, ?_⟩
  rw [parseDdlOperationWithMode, hmode, ok_bind, hcommand, ok_bind, hparse]
  rfl

end Ddl

end BinlogCdc
