import BinlogCdc.Ddl.AlterRender
import BinlogCdc.Ddl.Lexeme
import BinlogCdc.Ddl.TypeReading

/-!
# Renaming columns that exist

The source renames the columns of a statement that exist and skips the others; the target
has no such guard. The translation chooses the clauses by the columns of the target and emits
them without the guard. It looks the names up as they are written, while the servers, and the
translation of DROP COLUMN IF EXISTS, do not tell upper from lower case.
-/

namespace BinlogCdc

namespace Ddl

open Text

attribute [local instance] Text.lawfulBEq

/-! ## The translation -/

/-- One clause of a statement that renames columns. -/
structure RenameColumnClause where
  oldName : Text
  newName : Text
  deriving DecidableEq, Repr

/-- The leading line comment of a statement and the rest, which has no comment. -/
def renameColumnsIfExistsSql (sourceSql : Text) : Except String (Option Text × Text) :=
  let (leadingComment, statementSql) := splitOneLeadingMysqlLineComment sourceSql
  if ddlContainsCommentsWithMode statementSql false then
    .error "RENAME COLUMN IF EXISTS comments are not supported"
  else .ok (leadingComment, statementSql)

/-- The clause at the start of some tokens. -/
def parseRenameColumn (tokens : List DdlToken) : Except String RenameColumnClause := do
  requireKeyword tokens 0 "RENAME"
  requireKeyword tokens 1 "COLUMN"
  requireKeyword tokens 2 "IF"
  requireKeyword tokens 3 "EXISTS"
  let oldName ← requireIdentifier tokens 4 "renamed source column"
  requireKeyword tokens 5 "TO"
  let newName ← requireIdentifier tokens 6 "renamed target column"
  return ⟨oldName, newName⟩

/-- The clauses between commas; a comma may also end them. Every clause has seven tokens. -/
def parseRenameColumns (fuel : Nat) (tokens : List DdlToken) :
    Except String (List RenameColumnClause) :=
  match fuel, tokens with
  | _, [] => .ok []
  | 0, _ => .ok []
  | fuel + 1, tokens => do
    let clause ← parseRenameColumn tokens
    match tokens.drop 7 with
    | [] => return [clause]
    | comma :: rest =>
      if comma.text == [','] then
        let clauses ← parseRenameColumns fuel rest
        return clause :: clauses
      else .error "expected comma between RENAME COLUMN clauses"

/-- The table and the clauses of a statement. -/
def parseRenameColumnsIfExists (tokens : List DdlToken) :
    Except String (Text × List RenameColumnClause) := do
  requireKeyword tokens 0 "ALTER"
  requireKeyword tokens 1 "TABLE"
  let table ← requireIdentifier tokens 2 "ALTER TABLE name"
  let clauses ← parseRenameColumns tokens.length (tokens.drop 3)
  refuseIf clauses.isEmpty "ALTER TABLE has no RENAME COLUMN IF EXISTS clauses"
  return (table, clauses)

/-- The clauses whose column exists when their turn comes. -/
def selectExecutableRenames (table : Text) (simulatedColumns : List Text) :
    List RenameColumnClause → Except String (List RenameColumnClause)
  | [] => .ok []
  | clause :: clauses =>
    if clause.oldName ∉ simulatedColumns then
      selectExecutableRenames table simulatedColumns clauses
    else if clause.newName ∈ simulatedColumns then
      .error ("cannot transform ALTER TABLE " ++ String.ofList table ++ ": old column " ++
        String.ofList clause.oldName ++ " and new column " ++ String.ofList clause.newName ++
        " both exist")
    else do
      let executable ← selectExecutableRenames table
        (clause.newName :: simulatedColumns.filter (· ≠ clause.oldName)) clauses
      return clause :: executable

/-- A clause without its guard. -/
def renderRenameColumn (clause : RenameColumnClause) : Text :=
  "RENAME COLUMN ".toList ++ quoteIdentifier clause.oldName ++ " TO ".toList ++
    quoteIdentifier clause.newName

/-- The statement of the chosen clauses, if there are any. -/
def emitRenameColumns (table : Text) (clauses : List RenameColumnClause) : Option Text :=
  if clauses.isEmpty then none
  else
    some ("ALTER TABLE ".toList ++ quoteIdentifier table ++ ' ' ::
      ", ".toList.intercalate (clauses.map renderRenameColumn))

/-- The statement for a target with some columns. -/
def transformRenameColumnsIfExists (sourceSql : Text) (targetColumns : List Text) :
    Except String (Option Text) := do
  let (leadingComment, statementSql) ← renameColumnsIfExistsSql sourceSql
  let tokens ← tokenizeDdl statementSql false
  let (table, clauses) ← parseRenameColumnsIfExists tokens
  let executable ← selectExecutableRenames table targetColumns clauses
  return (emitRenameColumns table executable).map (leadingComment.getD [] ++ ·)

/-- The columns that DROP COLUMN IF EXISTS drops, as the target spells them. -/
def selectExecutableDrops (remainingColumns : List Text) : List Text → List Text
  | [] => []
  | name :: names =>
    match remainingColumns.find? fun target => eqIgnoreAsciiCase target name with
    | none => selectExecutableDrops remainingColumns names
    | some target =>
      target :: selectExecutableDrops (remainingColumns.filter (· ≠ target)) names

/-! ## What the servers do -/

/-- A table has a column, upper and lower case not told apart. -/
def HasColumn (columns : List Text) (name : Text) : Prop :=
  ∃ column ∈ columns, eqIgnoreAsciiCase column name = true

instance (columns : List Text) (name : Text) : Decidable (HasColumn columns name) :=
  inferInstanceAs (Decidable (∃ column ∈ columns, eqIgnoreAsciiCase column name = true))

/-- No two names differ in case only. -/
def DistinctNames (names : List Text) : Prop := (names.map toAsciiUppercase).Nodup

instance (names : List Text) : Decidable (DistinctNames names) :=
  inferInstanceAs (Decidable (names.map toAsciiUppercase).Nodup)

/-- The name of a column after some renames. -/
def renamedColumn (clauses : List RenameColumnClause) (column : Text) : Text :=
  match clauses.find? fun clause => eqIgnoreAsciiCase column clause.oldName with
  | some clause => clause.newName
  | none => column

/-- The columns after a statement that renames some: all old names must exist, and no two columns
may end up with one name. -/
def applyRenames (columns : List Text) (clauses : List RenameColumnClause) : Option (List Text) :=
  if (∀ clause ∈ clauses, HasColumn columns clause.oldName) ∧
      DistinctNames (clauses.map RenameColumnClause.oldName) ∧
      DistinctNames (columns.map (renamedColumn clauses)) then
    some (columns.map (renamedColumn clauses))
  else none

/-- The clauses whose column exists. -/
def guardedClauses (columns : List Text) (clauses : List RenameColumnClause) :
    List RenameColumnClause :=
  clauses.filter fun clause => HasColumn columns clause.oldName

/-- The columns after guarded renames: the clauses without a column are skipped. -/
def guardedRenames (columns : List Text) (clauses : List RenameColumnClause) :
    Option (List Text) :=
  applyRenames columns (guardedClauses columns clauses)

/-- A keyword outside quotes. -/
def DdlToken.isKeyword (token : DdlToken) (keyword : String) : Bool :=
  !token.quoted && eqIgnoreAsciiCase token.text keyword.toList

/-- The clauses a server reads from tokens. -/
def readRenameTokens : List DdlToken → Option (List RenameColumnClause)
  | rename :: column :: oldName :: toWord :: newName :: rest =>
    if rename.isKeyword "RENAME" && column.isKeyword "COLUMN" && toWord.isKeyword "TO" then
      match rest with
      | [] => some [⟨oldName.text, newName.text⟩]
      | comma :: rest =>
        if comma.isKeyword "," then
          (readRenameTokens rest).map (⟨oldName.text, newName.text⟩ :: ·)
        else none
    else none
  | _ => none

/-- The table and the clauses a server reads from a statement. -/
def readRenameStatement (sql : Text) : Option (Text × List RenameColumnClause) :=
  match tokenizeDdl sql false with
  | .ok (alter :: table :: name :: rest) =>
    if alter.isKeyword "ALTER" && table.isKeyword "TABLE" then
      (readRenameTokens rest).map (name.text, ·)
    else none
  | _ => none

/-! ## The chosen clauses -/

variable {columns : List Text} {clauses : List RenameColumnClause} {table : Text}

/-- The names of some clauses. -/
def clauseNames (clauses : List RenameColumnClause) : List Text :=
  clauses.flatMap fun clause => [clause.oldName, clause.newName]

/-- A clause whose column and whose new name are both columns as they are written. -/
def Conflict (columns : List Text) (clauses : List RenameColumnClause) : Prop :=
  ∃ clause ∈ clauses, clause.oldName ∈ columns ∧ clause.newName ∈ columns

/-- With different names no clause changes the turn of another: the choice is made by the columns
as they were, and it fails exactly on a conflict. -/
theorem selectExecutableRenames_cases {simulated : List Text}
    (hnames : (clauseNames clauses).Nodup)
    (hsimulated : ∀ name ∈ clauseNames clauses, name ∈ simulated ↔ name ∈ columns) :
    (∃ message, selectExecutableRenames table simulated clauses = .error message ∧
      Conflict columns clauses) ∨
    (selectExecutableRenames table simulated clauses =
        .ok (clauses.filter fun clause => clause.oldName ∈ columns) ∧
      ¬ Conflict columns clauses) := by
  induction clauses generalizing simulated with
  | nil =>
    refine .inr ⟨rfl, ?_⟩
    rintro ⟨_, h, -⟩
    cases h
  | cons clause clauses ih =>
    have hsplit : clauseNames (clause :: clauses) =
        clause.oldName :: clause.newName :: clauseNames clauses := rfl
    rw [hsplit] at hnames hsimulated
    have hold := hsimulated clause.oldName (by simp)
    have hnew := hsimulated clause.newName (by simp)
    have hrest : ∀ name ∈ clauseNames clauses, name ∈ simulated ↔ name ∈ columns :=
      fun name hname => hsimulated name (by simp [hname])
    have hrestNames : (clauseNames clauses).Nodup := hnames.of_cons.of_cons
    have hconflict : Conflict columns (clause :: clauses) ↔
        (clause.oldName ∈ columns ∧ clause.newName ∈ columns) ∨ Conflict columns clauses := by
      simp [Conflict]
    rw [hconflict, selectExecutableRenames, List.filter_cons]
    by_cases hpresent : clause.oldName ∈ columns
    · rw [if_neg (not_not.mpr (hold.mpr hpresent)), if_pos (decide_eq_true hpresent)]
      by_cases htaken : clause.newName ∈ columns
      · rw [if_pos (hnew.mpr htaken)]
        exact .inl ⟨_, rfl, .inl ⟨hpresent, htaken⟩⟩
      · rw [if_neg (mt hnew.mp htaken)]
        have hafter : ∀ name ∈ clauseNames clauses,
            name ∈ clause.newName :: simulated.filter (· ≠ clause.oldName) ↔ name ∈ columns := by
          intro name hname
          have hnotOld : name ≠ clause.oldName := by
            rintro rfl
            exact (List.nodup_cons.mp hnames).1 (List.mem_cons_of_mem _ hname)
          have hnotNew : name ≠ clause.newName := by
            rintro rfl
            exact (List.nodup_cons.mp hnames.of_cons).1 hname
          simp [hnotOld, hnotNew, hrest name hname]
        rcases ih hrestNames hafter with ⟨message, herror, hmore⟩ | ⟨hchosen, hnone⟩
        · exact .inl ⟨message, by rw [herror]; rfl, .inr hmore⟩
        · refine .inr ⟨by rw [hchosen]; rfl, ?_⟩
          rintro (hboth | hmore)
          · exact htaken hboth.2
          · exact hnone hmore
    · rw [if_pos (mt hold.mp hpresent), if_neg (by simpa using hpresent)]
      rcases ih hrestNames hrest with ⟨message, herror, hmore⟩ | ⟨hchosen, hnone⟩
      · exact .inl ⟨message, herror, .inr hmore⟩
      · refine .inr ⟨hchosen, ?_⟩
        rintro (hboth | hmore)
        · exact hpresent hboth.1
        · exact hnone hmore

/-! ## The emitted statement -/

/-- The lexemes of a clause. -/
def renameLexemes (clause : RenameColumnClause) : List Lexeme :=
  [.word "RENAME".toList, .blank, .word "COLUMN".toList, .blank, .name clause.oldName, .blank,
    .word "TO".toList, .blank, .name clause.newName]

/-- The lexemes of clauses between commas. -/
def renameListLexemes : List RenameColumnClause → List Lexeme
  | [] => []
  | [clause] => renameLexemes clause
  | clause :: next :: clauses =>
    renameLexemes clause ++ .symbol ',' :: .blank :: renameListLexemes (next :: clauses)

/-- The names of a clause are identifiers. -/
def RenameColumnClause.WellFormed (clause : RenameColumnClause) : Prop :=
  isIdentifier clause.oldName = true ∧ isIdentifier clause.newName = true

theorem rename_text (rename column middle oldName newName : Text) :
    rename ++ ([' '] ++ (column ++ ([' '] ++ (oldName ++ ([' '] ++ (middle ++ ([' '] ++
      (newName ++ [])))))))) =
      (rename ++ ' ' :: column ++ [' ']) ++ oldName ++ (' ' :: middle ++ [' ']) ++ newName := by
  simp

theorem spells_renameColumn {clause : RenameColumnClause} (h : clause.WellFormed) :
    Spells (renameLexemes clause) (renderRenameColumn clause) where
  wellFormed := by
    have hwords : ∀ text ∈ ["RENAME", "COLUMN", "TO"].map (·.toList),
        text ≠ [] ∧ ∀ c ∈ text, isIdentifierCharacter c = true := by
      decide
    simp only [renameLexemes, List.forall_mem_cons, Lexeme.WellFormed]
    refine ⟨hwords _ (by simp), trivial, hwords _ (by simp), trivial, h.1, trivial,
      hwords _ (by simp), trivial, h.2, ?_⟩
    intro _ hmem
    cases hmem
  separated := ⟨rfl, rfl, rfl, rfl, rfl, rfl, rfl, rfl, rfl, trivial⟩
  text_eq := rename_text "RENAME".toList "COLUMN".toList "TO".toList _ _

/-- Clauses between commas are spelled by their lexemes between commas. -/
theorem spells_renameColumns (clauses : List RenameColumnClause)
    (h : ∀ clause ∈ clauses, clause.WellFormed) :
    Spells (renameListLexemes clauses)
      (", ".toList.intercalate (clauses.map renderRenameColumn)) := by
  induction clauses with
  | nil => exact Spells.nil
  | cons clause clauses ih =>
    cases clauses with
    | nil =>
      have hone := spells_renameColumn (h clause List.mem_cons_self)
      simpa [renameListLexemes, List.intercalate] using hone
    | cons next clauses =>
      have hone := spells_renameColumn (h clause List.mem_cons_self)
      have hrest := ih fun other hother => h other (List.mem_cons_of_mem clause hother)
      have hcomma : Lexeme.WellFormed (.symbol ',') := by
        show ',' ∈ symbolCharacters
        decide
      have hblank : Spells (.blank :: renameListLexemes (next :: clauses)) _ :=
        Spells.cons rfl trivial hrest
      have hall : Spells (renameLexemes clause ++ .symbol ',' :: .blank ::
          renameListLexemes (next :: clauses)) _ := Spells.join rfl hcomma hone hblank
      have htext : ", ".toList.intercalate
            (renderRenameColumn clause :: (next :: clauses).map renderRenameColumn) =
          renderRenameColumn clause ++ ([','] ++ ([' '] ++
            ", ".toList.intercalate ((next :: clauses).map renderRenameColumn))) := by
        rw [List.map_cons, List.intercalate_cons_cons, List.append_assoc]
        rfl
      rw [List.map_cons, htext]
      exact hall

/-- The lexemes of a statement. -/
def renameStatementLexemes (table : Text) (clauses : List RenameColumnClause) : List Lexeme :=
  .word "ALTER".toList :: .blank :: .word "TABLE".toList :: .blank :: .name table :: .blank ::
    renameListLexemes clauses

/-- The emitted statement is spelled by its lexemes. -/
theorem spells_emitRenameColumns {clause : RenameColumnClause}
    (htable : isIdentifier table = true) (h : ∀ other ∈ clause :: clauses, other.WellFormed) :
    ∃ statement, emitRenameColumns table (clause :: clauses) = some statement ∧
      Spells (renameStatementLexemes table (clause :: clauses)) statement := by
  refine ⟨_, rfl, ?_⟩
  have hclauses := spells_renameColumns _ h
  have hblank : Spells (.blank :: renameListLexemes (clause :: clauses)) _ :=
    Spells.cons rfl trivial hclauses
  have hwords : ∀ text ∈ ["ALTER", "TABLE"].map (·.toList),
      text ≠ [] ∧ ∀ c ∈ text, isIdentifierCharacter c = true := by
    decide
  have hhead : Spells [.word "ALTER".toList, .blank, .word "TABLE".toList, .blank, .name table]
      ("ALTER".toList ++ ([' '] ++ ("TABLE".toList ++ ([' '] ++ (quoteIdentifier table ++ []))))) :=
    { wellFormed := by
        simp only [List.forall_mem_cons, Lexeme.WellFormed]
        refine ⟨hwords _ (by simp), trivial, hwords _ (by simp), trivial, htable, ?_⟩
        intro _ hmem
        cases hmem
      separated := ⟨rfl, rfl, rfl, rfl, rfl, trivial⟩
      text_eq := rfl }
  have hall := hhead.append hblank fun lexeme hlexeme => by
    obtain rfl := Option.some.inj hlexeme
    rfl
  have htext : ∀ alter word table rest : Text,
      alter ++ ([' '] ++ (word ++ ([' '] ++ (table ++ [])))) ++ ([' '] ++ rest) =
        (alter ++ ' ' :: word ++ [' ']) ++ table ++ ' ' :: rest := by
    simp
  rw [show Lexeme.blank.text = [' '] from rfl, htext] at hall
  exact hall

/-! ## Reading the statement -/

theorem readRenameTokens_clauses (clause : RenameColumnClause) (clauses : List RenameColumnClause) :
    readRenameTokens (lexemesTokens (renameListLexemes (clause :: clauses))) =
      some (clause :: clauses) := by
  induction clauses generalizing clause with
  | nil => rfl
  | cons next clauses ih =>
    rw [renameListLexemes, lexemesTokens_append, lexemesTokens_cons, lexemesTokens_cons]
    have hrename : ∀ rest, readRenameTokens (lexemesTokens (renameLexemes clause) ++
        ⟨[','], false⟩ :: rest) = (readRenameTokens rest).map (clause :: ·) := fun _ => rfl
    exact (hrename _).trans (congrArg (Option.map (clause :: ·)) (ih next))

/-- A server reads the chosen clauses from the emitted statement. -/
theorem readRenameStatement_emitted {clause : RenameColumnClause}
    (htable : isIdentifier table = true) (h : ∀ other ∈ clause :: clauses, other.WellFormed) :
    ∃ statement, emitRenameColumns table (clause :: clauses) = some statement ∧
      readRenameStatement statement = some (table, clause :: clauses) := by
  obtain ⟨statement, hemit, hspells⟩ := spells_emitRenameColumns htable h
  refine ⟨statement, hemit, ?_⟩
  rw [readRenameStatement, hspells.tokenizeDdl]
  have hread := readRenameTokens_clauses clause clauses
  refine Eq.trans ?_ (congrArg (Option.map (table, ·)) hread)
  rfl

/-! ## Accepted statements -/

theorem parseRenameColumn_wellFormed {tokens : List DdlToken} {clause : RenameColumnClause}
    (h : parseRenameColumn tokens = .ok clause) : clause.WellFormed := by
  unfold parseRenameColumn at h
  obtain ⟨_, -, h⟩ := bind_eq_ok.mp h
  obtain ⟨_, -, h⟩ := bind_eq_ok.mp h
  obtain ⟨_, -, h⟩ := bind_eq_ok.mp h
  obtain ⟨_, -, h⟩ := bind_eq_ok.mp h
  obtain ⟨oldName, hold, h⟩ := bind_eq_ok.mp h
  obtain ⟨_, -, h⟩ := bind_eq_ok.mp h
  obtain ⟨newName, hnew, h⟩ := bind_eq_ok.mp h
  obtain rfl := Except.ok.inj h
  exact ⟨isIdentifier_of_requireIdentifier hold, isIdentifier_of_requireIdentifier hnew⟩

theorem parseRenameColumns_wellFormed {fuel : Nat} {tokens : List DdlToken}
    (h : parseRenameColumns fuel tokens = .ok clauses) :
    ∀ clause ∈ clauses, clause.WellFormed := by
  induction fuel generalizing tokens clauses with
  | zero =>
    cases tokens <;> (obtain rfl := Except.ok.inj h; intro clause hclause; cases hclause)
  | succ fuel ih =>
    cases tokens with
    | nil =>
      obtain rfl := Except.ok.inj h
      intro clause hclause
      cases hclause
    | cons token tokens =>
      rw [parseRenameColumns] at h
      · obtain ⟨first, hfirst, h⟩ := bind_eq_ok.mp h
        have hwell := parseRenameColumn_wellFormed hfirst
        split at h
        · obtain rfl := Except.ok.inj h
          exact List.forall_mem_singleton.mpr hwell
        · split at h
          · obtain ⟨rest, hrest, h⟩ := bind_eq_ok.mp h
            obtain rfl := Except.ok.inj h
            exact List.forall_mem_cons.mpr ⟨hwell, ih hrest⟩
          · cases h
      · intro hnil
        cases hnil

theorem parseRenameColumnsIfExists_wellFormed {tokens : List DdlToken}
    (h : parseRenameColumnsIfExists tokens = .ok (table, clauses)) :
    isIdentifier table = true ∧ ∀ clause ∈ clauses, clause.WellFormed := by
  unfold parseRenameColumnsIfExists at h
  obtain ⟨_, -, h⟩ := bind_eq_ok.mp h
  obtain ⟨_, -, h⟩ := bind_eq_ok.mp h
  obtain ⟨name, hname, h⟩ := bind_eq_ok.mp h
  obtain ⟨parsed, hparsed, h⟩ := bind_eq_ok.mp h
  obtain ⟨_, -, h⟩ := bind_eq_ok.mp h
  obtain ⟨rfl, rfl⟩ := Prod.mk.inj (Except.ok.inj h)
  exact ⟨isIdentifier_of_requireIdentifier hname, parseRenameColumns_wellFormed hparsed⟩

/-! ## Guarded renames -/

theorem eqIgnoreAsciiCase_iff {left right : Text} :
    eqIgnoreAsciiCase left right = true ↔ toAsciiUppercase left = toAsciiUppercase right :=
  beq_iff_eq

theorem HasColumn.of_mem {name : Text} (h : name ∈ columns) : HasColumn columns name :=
  ⟨name, h, eqIgnoreAsciiCase_iff.mpr rfl⟩

/-- Columns that differ in more than case are different. -/
theorem DistinctNames.eq_of_fold_eq (h : DistinctNames columns) {left right : Text}
    (hleft : left ∈ columns) (hright : right ∈ columns)
    (heq : toAsciiUppercase left = toAsciiUppercase right) : left = right :=
  List.inj_on_of_nodup_map h hleft hright heq

theorem oldNames_sublist (clauses : List RenameColumnClause) :
    (clauses.map RenameColumnClause.oldName).Sublist (clauseNames clauses) := by
  induction clauses with
  | nil => exact List.Sublist.refl _
  | cons clause clauses ih => exact (ih.cons clause.newName).cons_cons clause.oldName

theorem newNames_sublist (clauses : List RenameColumnClause) :
    (clauses.map RenameColumnClause.newName).Sublist (clauseNames clauses) := by
  induction clauses with
  | nil => exact List.Sublist.refl _
  | cons clause clauses ih => exact (ih.cons_cons clause.newName).cons clause.oldName

/-- A column keeps its name, or one of the clauses gives it a new one. -/
theorem renamedColumn_cases (clauses : List RenameColumnClause) (column : Text) :
    (∃ clause ∈ clauses, toAsciiUppercase column = toAsciiUppercase clause.oldName ∧
      renamedColumn clauses column = clause.newName) ∨
    renamedColumn clauses column = column := by
  unfold renamedColumn
  cases hfind : clauses.find? fun clause => eqIgnoreAsciiCase column clause.oldName with
  | none => exact .inr rfl
  | some clause =>
    have hmatch := List.find?_some hfind
    exact .inl ⟨clause, List.mem_of_find?_eq_some hfind, eqIgnoreAsciiCase_iff.mp hmatch, rfl⟩

/-- Without a conflict the guarded renames succeed. -/
theorem exists_guardedRenames (hcolumns : DistinctNames columns)
    (hnames : DistinctNames (clauseNames clauses))
    (hfree : ∀ clause ∈ clauses, HasColumn columns clause.oldName →
      ¬ HasColumn columns clause.newName) :
    ∃ result, guardedRenames columns clauses = some result := by
  have hguarded : ∀ clause ∈ guardedClauses columns clauses,
      clause ∈ clauses ∧ HasColumn columns clause.oldName := by
    intro clause hclause
    obtain ⟨hmem, hhas⟩ := List.mem_filter.mp hclause
    exact ⟨hmem, of_decide_eq_true hhas⟩
  have hnew : (clauses.map fun clause => toAsciiUppercase clause.newName).Nodup := by
    have hsublist := hnames.sublist ((newNames_sublist clauses).map toAsciiUppercase)
    rwa [List.map_map] at hsublist
  have hold : DistinctNames ((guardedClauses columns clauses).map RenameColumnClause.oldName) :=
    hnames.sublist (((List.filter_sublist.map _).trans (oldNames_sublist clauses)).map _)
  have hinj : ∀ left ∈ columns, ∀ right ∈ columns,
      toAsciiUppercase (renamedColumn (guardedClauses columns clauses) left) =
        toAsciiUppercase (renamedColumn (guardedClauses columns clauses) right) →
      left = right := by
    intro left hleft right hright heq
    rcases renamedColumn_cases (guardedClauses columns clauses) left with
      ⟨clause, hclause, hfold, hto⟩ | hto <;>
    rcases renamedColumn_cases (guardedClauses columns clauses) right with
      ⟨other, hother, hfold', hto'⟩ | hto' <;>
    rw [hto, hto'] at heq
    · have hsame : clause = other :=
        List.inj_on_of_nodup_map hnew (hguarded clause hclause).1 (hguarded other hother).1 heq
      subst hsame
      exact hcolumns.eq_of_fold_eq hleft hright (hfold.trans hfold'.symm)
    · obtain ⟨hmem, hhas⟩ := hguarded clause hclause
      exact absurd ⟨right, hright, eqIgnoreAsciiCase_iff.mpr heq.symm⟩ (hfree clause hmem hhas)
    · obtain ⟨hmem, hhas⟩ := hguarded other hother
      exact absurd ⟨left, hleft, eqIgnoreAsciiCase_iff.mpr heq⟩ (hfree other hmem hhas)
    · exact hcolumns.eq_of_fold_eq hleft hright heq
  have hresult : DistinctNames
      (columns.map (renamedColumn (guardedClauses columns clauses))) := by
    unfold DistinctNames
    rw [List.map_map]
    exact (List.Nodup.of_map _ hcolumns).map_on hinj
  refine ⟨_, if_pos ⟨?_, hold, hresult⟩⟩
  intro clause hclause
  exact (hguarded clause hclause).2

/-! ## When the translation is right -/

/-- A statement, or none, that a server reads as some clauses. -/
def Emits (comment : Option Text) (table : Text) :
    Option Text → List RenameColumnClause → Prop
  | none, emitted => emitted = []
  | some sql, emitted => emitted ≠ [] ∧ ∃ statement, sql = comment.getD [] ++ statement ∧
      readRenameStatement statement = some (table, emitted)

/-- An error is a conflict between columns of the target; a statement has exactly the clauses whose
column exists, and renames the columns of the target as the guarded clauses do. -/
def RenamesGuarded (columns : List Text) (comment : Option Text) (table : Text)
    (clauses : List RenameColumnClause) : Except String (Option Text) → Prop
  | .error _ => ∃ clause ∈ clauses,
      HasColumn columns clause.oldName ∧ HasColumn columns clause.newName
  | .ok sql =>
    (∀ clause ∈ clauses, HasColumn columns clause.oldName → ¬ HasColumn columns clause.newName) ∧
    ∃ emitted, Emits comment table sql emitted ∧ emitted = guardedClauses columns clauses ∧
      ∃ result, applyRenames columns emitted = some result ∧
        guardedRenames columns clauses = some result

/-- Some clause has both names among the columns as they are written, or every name of a column is
written as the target spells it and its new name is free. -/
def SpelledAsTarget (columns : List Text) (clauses : List RenameColumnClause) : Prop :=
  Conflict columns clauses ∨ ∀ clause ∈ clauses, HasColumn columns clause.oldName →
    clause.oldName ∈ columns ∧ ¬ HasColumn columns clause.newName

theorem emits_emitRenameColumns (comment : Option Text) (htable : isIdentifier table = true)
    {chosen : List RenameColumnClause} (emitted : List RenameColumnClause)
    (h : ∀ clause ∈ chosen, clause.WellFormed) :
    Emits comment table ((emitRenameColumns table chosen).map (comment.getD [] ++ ·)) emitted ↔
      emitted = chosen := by
  cases chosen with
  | nil => exact Iff.rfl
  | cons clause clauses =>
    obtain ⟨statement, hemit, hread⟩ := readRenameStatement_emitted htable h
    rw [hemit]
    constructor
    · rintro ⟨-, other, hsql, hother⟩
      obtain rfl := List.append_cancel_left hsql
      rw [hread] at hother
      exact (Prod.mk.inj (Option.some.inj hother)).2.symm
    · rintro rfl
      exact ⟨List.cons_ne_nil _ _, statement, rfl, hread⟩

/-- A statement with a comment that renames one of two columns. -/
def commentedRename : Text :=
  "-- shorter\nALTER TABLE t RENAME COLUMN IF EXISTS foo TO bar".toList

end Ddl

end BinlogCdc
