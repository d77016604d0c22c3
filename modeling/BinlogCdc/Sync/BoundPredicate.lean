import BinlogCdc.Sql.Condition
import BinlogCdc.Sync.TableCatalog

/-!
# Pages between key bounds

A page is asked for with a condition on the primary key: greater than the cursor, not greater than
the bound. The comparison of composite keys is written out as a disjunction, one branch for each
column. What the server reads is the comparison in the order of the ORDER BY, so that page after page
every row is read once.
-/

namespace BinlogCdc

/-! ## The texts of a select -/

/-- A table to sync with what its select needs. -/
structure SyncSelectTable extends SyncTable where
  /-- The orderings of the primary key columns. -/
  primaryKeyOrdering : List PrimaryKeyOrdering
  /-- The BIT columns. -/
  bitColumns : List String
  /-- The MEDIUMBLOB columns. -/
  mediumblobColumns : List String

def enumFieldExpression (value : Text) (labels : List String) : Text :=
  "FIELD(".toList ++ value ++ ", ".toList ++
    ", ".toList.intercalate (labels.map fun label => quoteSqlLiteral label.toList) ++ ")".toList

def primaryKeyOrderExpression (column : String) : PrimaryKeyOrdering → Text
  | .native => quoteIdent column.toList
  | .enum labels => enumFieldExpression (quoteIdent column.toList) labels

def primaryKeyBoundExpression (value : String) : PrimaryKeyOrdering → Text
  | .native => quoteSqlLiteral value.toList
  | .enum labels => enumFieldExpression (quoteSqlLiteral value.toList) labels

def primaryKeyOrderBy (columns : List String) (ordering : List PrimaryKeyOrdering) : Text :=
  ", ".toList.intercalate
    ((columns.zip ordering).map fun (column, ordering) => primaryKeyOrderExpression column ordering)

/-- An earlier column is equal to its bound. -/
def primaryKeyEqualPart (columns values : List String) (index : Nat) : Option Text := do
  let column ← columns[index]?
  let value ← values[index]?
  return quoteIdent column.toList ++ " = ".toList ++ quoteSqlLiteral value.toList

/-- The branch of a column; there is none for an index out of bounds. -/
def primaryKeyBoundBranch (columns : List String) (ordering : List PrimaryKeyOrdering)
    (values : List String) (index : Nat) (operator : Text) : Option Text := do
  let parts ← (List.range index).mapM (primaryKeyEqualPart columns values)
  let column ← columns[index]?
  let ordering ← ordering[index]?
  let value ← values[index]?
  let last := primaryKeyOrderExpression column ordering ++ " ".toList ++ operator ++ " ".toList ++
    primaryKeyBoundExpression value ordering
  return "(".toList ++ " AND ".toList.intercalate (parts ++ [last]) ++ ")".toList

def primaryKeyBoundPredicate (columns : List String) (ordering : List PrimaryKeyOrdering)
    (values : List String) (operator : Text) : Option Text := do
  let branches ← (List.range columns.length).mapM fun index =>
    primaryKeyBoundBranch columns ordering values index operator
  if branches.length < 2 then return " OR ".toList.intercalate branches
  else return "(".toList ++ " OR ".toList.intercalate branches ++ ")".toList

def syncBoundPredicates (table : SyncSelectTable) (request : SyncChunkReadRequest) :
    Option (List Text) := do
  let after ← request.startAfter.toList.mapM fun startAfter =>
    primaryKeyBoundPredicate table.primaryKey table.primaryKeyOrdering startAfter.values ">".toList
  let upto ← request.endAt.toList.mapM fun endAt => do
    let predicate ← primaryKeyBoundPredicate table.primaryKey table.primaryKeyOrdering endAt.values
      ">".toList
    return "NOT ".toList ++ predicate
  return after ++ upto

def syncSelectColumns (table : SyncSelectTable) : Text :=
  ", ".toList.intercalate (table.columns.map fun column =>
    let quoted := quoteIdent column.toList
    if (table.enumColumns.lookup column).isSome || table.bitColumns.contains column then
      "CAST(".toList ++ quoted ++ " AS UNSIGNED) AS ".toList ++ quoted
    else if table.mediumblobColumns.contains column then
      "HEX(".toList ++ quoted ++ ") AS ".toList ++ quoted
    else quoted)

/-- The WHERE clause, if there is a bound. -/
def syncBounds (predicates : List Text) : Text :=
  if predicates.isEmpty then [] else " WHERE ".toList ++ " AND ".toList.intercalate predicates

def buildSyncSelectSql (table : SyncSelectTable) (request : SyncChunkReadRequest) : Option Text := do
  let predicates ← syncBoundPredicates table request
  return "SELECT ".toList ++ syncSelectColumns table ++ " FROM ".toList ++
    quoteIdent table.name.toList ++ syncBounds predicates ++ " ORDER BY ".toList ++
    primaryKeyOrderBy table.primaryKey table.primaryKeyOrdering ++ " LIMIT ".toList ++
    (toString request.limit).toList

/-! ## The order of keys -/

/-- The order of the values of a column: the server's, or by the position of the label. -/
def columnCompare (order : Text → Text → Text → Ordering) (column : String) :
    PrimaryKeyOrdering → Text → Text → Ordering
  | .native, a, b => order column.toList a b
  | .enum labels, a, b =>
    compare (fieldPosition a (labels.map String.toList)) (fieldPosition b (labels.map String.toList))

/-- The lexicographic order of keys, column after column. -/
def keyCompare (order : Text → Text → Text → Ordering) :
    List (String × PrimaryKeyOrdering) → List Text → List Text → Ordering
  | [], _, _ => .eq
  | (column, ordering) :: columns, key, key' =>
    (columnCompare order column ordering (key.headD []) (key'.headD [])).then
      (keyCompare order columns key.tail key'.tail)

/-- The values that a column holds: every value, or the labels and the empty error value. -/
def ColumnHolds : PrimaryKeyOrdering → Text → Prop
  | .native, _ => True
  | .enum labels, value => value ∈ labels.map String.toList ∨ value = []

/-! ## Key fields -/

/-- A key column with its ordering and the value of a bound. -/
structure KeyField where
  column : String
  ordering : PrimaryKeyOrdering
  value : String

/-- Lists of the same length are the parts of a list of fields. -/
theorem exists_fields {columns values : List String} {ordering : List PrimaryKeyOrdering}
    (hordering : ordering.length = columns.length) (hvalues : values.length = columns.length) :
    ∃ fields : List KeyField, columns = fields.map KeyField.column ∧
      ordering = fields.map KeyField.ordering ∧ values = fields.map KeyField.value := by
  induction columns generalizing values ordering with
  | nil =>
    obtain rfl := List.length_eq_zero_iff.mp hordering
    obtain rfl := List.length_eq_zero_iff.mp hvalues
    exact ⟨[], rfl, rfl, rfl⟩
  | cons column columns ih =>
    obtain ⟨first, ordering, rfl⟩ := List.exists_cons_of_length_eq_add_one hordering
    obtain ⟨value, values, rfl⟩ := List.exists_cons_of_length_eq_add_one hvalues
    obtain ⟨fields, rfl, rfl, rfl⟩ := ih (Nat.succ.inj hordering) (Nat.succ.inj hvalues)
    exact ⟨⟨column, first, value⟩ :: fields, rfl, rfl, rfl⟩

/-- Every field with the fields before it. -/
def withEarlier {α : Type} : List α → List (List α × α)
  | [] => []
  | first :: rest =>
    ([], first) :: (withEarlier rest).map fun (earlier, item) => (first :: earlier, item)

theorem getElem?_withEarlier {α : Type} (items : List α) (index : Nat) :
    (withEarlier items)[index]? = items[index]?.map fun item => (items.take index, item) := by
  induction items generalizing index with
  | nil => rfl
  | cons first rest ih =>
    cases index with
    | zero => rfl
    | succ index =>
      simp only [withEarlier, List.getElem?_cons_succ, List.getElem?_map, ih, List.take_succ_cons,
        Option.map_map]
      rfl

theorem length_withEarlier {α : Type} (items : List α) :
    (withEarlier items).length = items.length := by
  induction items with
  | nil => rfl
  | cons first rest ih => simp [withEarlier, ih]

theorem mapM_range {α β : Type} {f : α → β} {g : Nat → Option β} {items : List α} {count : Nat}
    (hcount : count ≤ items.length) (hg : ∀ index < count, g index = items[index]?.map f) :
    (List.range count).mapM g = some ((items.take count).map f) := by
  induction count with
  | zero => rfl
  | succ count ih =>
    have hitem : items[count]? = some items[count] := List.getElem?_eq_getElem hcount
    rw [List.range_succ, List.mapM_append, ih (by omega) fun index hindex => hg index (by omega),
      List.take_add_one, hitem, List.map_append]
    simp [hg count (by omega), hitem]

def KeyField.equalText (field : KeyField) : Text :=
  quoteIdent field.column.toList ++ " = ".toList ++ quoteSqlLiteral field.value.toList

def KeyField.greaterText (field : KeyField) : Text :=
  primaryKeyOrderExpression field.column field.ordering ++ " ".toList ++ ">".toList ++ " ".toList ++
    primaryKeyBoundExpression field.value field.ordering

/-- The text of a branch. -/
def branchText (branch : List KeyField × KeyField) : Text :=
  "(".toList ++ " AND ".toList.intercalate
    (branch.1.map KeyField.equalText ++ [branch.2.greaterText]) ++ ")".toList

theorem primaryKeyEqualPart_fields (fields : List KeyField) (index : Nat) :
    primaryKeyEqualPart (fields.map KeyField.column) (fields.map KeyField.value) index =
      fields[index]?.map KeyField.equalText := by
  unfold primaryKeyEqualPart
  rw [List.getElem?_map, List.getElem?_map]
  cases fields[index]? with
  | none => rfl
  | some field => rfl

theorem primaryKeyBoundBranch_fields {fields : List KeyField} {index : Nat}
    (hindex : index < fields.length) :
    primaryKeyBoundBranch (fields.map KeyField.column) (fields.map KeyField.ordering)
      (fields.map KeyField.value) index ">".toList =
        (withEarlier fields)[index]?.map branchText := by
  have hparts : (List.range index).mapM
      (primaryKeyEqualPart (fields.map KeyField.column) (fields.map KeyField.value)) =
        some ((fields.take index).map KeyField.equalText) := by
    exact mapM_range hindex.le fun index _ => primaryKeyEqualPart_fields fields index
  have hfield : fields[index]? = some fields[index] := List.getElem?_eq_getElem hindex
  unfold primaryKeyBoundBranch
  rw [hparts, getElem?_withEarlier]
  simp only [List.getElem?_map, hfield, Option.map_some]
  rfl

/-- The branches of a predicate. -/
theorem primaryKeyBoundPredicate_fields (fields : List KeyField) :
    primaryKeyBoundPredicate (fields.map KeyField.column) (fields.map KeyField.ordering)
      (fields.map KeyField.value) ">".toList =
        some (if fields.length < 2 then " OR ".toList.intercalate ((withEarlier fields).map branchText)
          else "(".toList ++ " OR ".toList.intercalate ((withEarlier fields).map branchText) ++
            ")".toList) := by
  have hbranches : (List.range fields.length).mapM (fun index =>
      primaryKeyBoundBranch (fields.map KeyField.column) (fields.map KeyField.ordering)
        (fields.map KeyField.value) index ">".toList) =
      some ((withEarlier fields).map branchText) := by
    have hrange := mapM_range (length_withEarlier fields).ge
      fun index hindex => primaryKeyBoundBranch_fields hindex
    rwa [← length_withEarlier fields, List.take_length, length_withEarlier] at hrange
  unfold primaryKeyBoundPredicate
  rw [List.length_map, hbranches]
  simp only [Option.bind_eq_bind, Option.bind_some, List.length_map, length_withEarlier]
  split
  · rfl
  · rfl

/-! ## The tokens of the texts -/

def labelTokens (labels : List String) : List TextToken :=
  [TextToken.symbol ','].intercalate (labels.map fun label => [.literal label.toList])

def fieldTokens (value : TextToken) (labels : List String) : List TextToken :=
  .word "FIELD".toList :: .symbol '(' :: ((value :: .symbol ',' :: labelTokens labels) ++
    [.symbol ')'])

def orderTokens (column : String) : PrimaryKeyOrdering → List TextToken
  | .native => [.name column.toList]
  | .enum labels => fieldTokens (.name column.toList) labels

def boundTokens (value : String) : PrimaryKeyOrdering → List TextToken
  | .native => [.literal value.toList]
  | .enum labels => fieldTokens (.literal value.toList) labels

namespace KeyField

def equalTokens (field : KeyField) : List TextToken :=
  [.name field.column.toList, .symbol '=', .literal field.value.toList]

def greaterTokens (field : KeyField) : List TextToken :=
  orderTokens field.column field.ordering ++
    .symbol '>' :: boundTokens field.value field.ordering

end KeyField

def branchTokens (branch : List KeyField × KeyField) : List TextToken :=
  .symbol '(' :: ([conjunctionWord].intercalate
    (branch.1.map KeyField.equalTokens ++ [branch.2.greaterTokens]) ++ [.symbol ')'])

theorem readsAs_closing : ReadsAs ")".toList [.symbol ')'] :=
  readsAs_nil.symbol (by decide)

/-- A text in parentheses. -/
theorem ReadsAs.group {text : Text} {tokens : List TextToken} (h : ReadsAs text tokens) :
    ReadsAs ("(".toList ++ text ++ ")".toList) (.symbol '(' :: (tokens ++ [.symbol ')'])) := by
  rw [List.append_assoc]
  exact (h.append (by decide) readsAs_closing).symbol (by decide)

theorem readsAs_labels (labels : List String) :
    ReadsAs (", ".toList.intercalate (labels.map fun label => quoteSqlLiteral label.toList))
      (labelTokens labels) := by
  refine ReadsAs.intercalate (by decide) (fun text tokens h => h.blank.symbol (by decide)) ?_
  rw [List.forall₂_map_left_iff, List.forall₂_map_right_iff, List.forall₂_same]
  exact fun label _ => readsAs_quoteSqlLiteral label.toList

theorem readsAs_field {value : Text} {token : TextToken} (h : ReadsAs value [token])
    (labels : List String) :
    ReadsAs (enumFieldExpression value labels) (fieldTokens token labels) := by
  have hword : ReadsAs "FIELD".toList [.word "FIELD".toList] :=
    ⟨[], .word "FIELD".toList, [.word "FIELD".toList], by decide, by decide, rfl⟩
  have hlabels := readsAs_labels labels
  unfold enumFieldExpression
  generalize ", ".toList.intercalate (labels.map fun label => quoteSqlLiteral label.toList) =
    text at hlabels ⊢
  have hcomma : ReadsAs (',' :: ' ' :: text) (.symbol ',' :: labelTokens labels) :=
    hlabels.blank.symbol (by decide)
  have harguments : ReadsAs (value ++ ',' :: ' ' :: text)
      ([token] ++ .symbol ',' :: labelTokens labels) := h.append (by decide) hcomma
  have hall : ReadsAs ("FIELD".toList ++ '(' :: (value ++ ',' :: ' ' :: text ++ ")".toList)) _ :=
    hword.append (by decide) harguments.group
  have htext : "FIELD(".toList ++ value ++ ", ".toList ++ text ++ ")".toList =
      "FIELD".toList ++ '(' :: (value ++ ',' :: ' ' :: text ++ ")".toList) := by simp
  rw [htext]
  exact hall

theorem readsAs_order (column : String) (ordering : PrimaryKeyOrdering) :
    ReadsAs (primaryKeyOrderExpression column ordering) (orderTokens column ordering) := by
  cases ordering with
  | native => exact readsAs_quoteIdent column.toList
  | enum labels => exact readsAs_field (readsAs_quoteIdent column.toList) labels

theorem readsAs_bound (value : String) (ordering : PrimaryKeyOrdering) :
    ReadsAs (primaryKeyBoundExpression value ordering) (boundTokens value ordering) := by
  cases ordering with
  | native => exact readsAs_quoteSqlLiteral value.toList
  | enum labels => exact readsAs_field (readsAs_quoteSqlLiteral value.toList) labels

theorem KeyField.readsAs_equal (field : KeyField) : ReadsAs field.equalText field.equalTokens := by
  have hvalue := (readsAs_quoteSqlLiteral field.value.toList).blank
  have hequal : ReadsAs ('=' :: ' ' :: quoteSqlLiteral field.value.toList)
      [.symbol '=', .literal field.value.toList] := hvalue.symbol (by decide)
  have hall := (readsAs_quoteIdent field.column.toList).append (by decide) hequal.blank
  simpa [equalText, equalTokens] using hall

theorem KeyField.readsAs_greater (field : KeyField) :
    ReadsAs field.greaterText field.greaterTokens := by
  have hgreater : ReadsAs ('>' :: ' ' :: primaryKeyBoundExpression field.value field.ordering)
      (.symbol '>' :: boundTokens field.value field.ordering) :=
    (readsAs_bound field.value field.ordering).blank.symbol (by decide)
  have hall := (readsAs_order field.column field.ordering).append (by decide) hgreater.blank
  simpa [greaterText, greaterTokens] using hall

theorem readsAs_and (text : Text) (tokens : List TextToken) (h : ReadsAs text tokens) :
    ReadsAs (' ' :: "AND ".toList ++ text) (conjunctionWord :: tokens) := by
  have hword : ReadsAs "AND".toList [conjunctionWord] :=
    ⟨[], .word "AND".toList, [.word "AND".toList], by decide, by decide, rfl⟩
  exact (hword.wordBlank h).blank

theorem readsAs_or (text : Text) (tokens : List TextToken) (h : ReadsAs text tokens) :
    ReadsAs (' ' :: "OR ".toList ++ text) (disjunctionWord :: tokens) := by
  have hword : ReadsAs "OR".toList [disjunctionWord] :=
    ⟨[], .word "OR".toList, [.word "OR".toList], by decide, by decide, rfl⟩
  exact (hword.wordBlank h).blank

theorem readsAs_branch (branch : List KeyField × KeyField) :
    ReadsAs (branchText branch) (branchTokens branch) := by
  refine ReadsAs.group (ReadsAs.intercalate (by decide) readsAs_and ?_)
  refine List.rel_append ?_ (.cons branch.2.readsAs_greater .nil)
  rw [List.forall₂_map_left_iff, List.forall₂_map_right_iff, List.forall₂_same]
  exact fun field _ => field.readsAs_equal

/-! ## The conditions of the tokens -/

theorem readLabels_labelTokens {labels : List String} (hlabels : labels ≠ [])
    (rest : List TextToken) :
    readLabels (.symbol ',' :: (labelTokens labels ++ .symbol ')' :: rest)) =
      some (labels.map String.toList, rest) := by
  induction labels with
  | nil => exact absurd rfl hlabels
  | cons label labels ih =>
    cases labels with
    | nil => simp [labelTokens, readLabels]
    | cons other labels =>
      have hrest := ih (by simp)
      have htokens : labelTokens (label :: other :: labels) =
          .literal label.toList :: .symbol ',' :: labelTokens (other :: labels) := by
        rw [labelTokens, List.map_cons, List.map_cons, List.intercalate_cons_cons]
        rfl
      rw [htokens, List.cons_append, readLabels, List.cons_append, hrest]
      rfl

/-- An enumeration has a label. -/
def Labelled : PrimaryKeyOrdering → Prop
  | .native => True
  | .enum labels => labels ≠ []

/-- The operand of the order of a column. -/
def orderOperand (column : String) : PrimaryKeyOrdering → ConditionOperand
  | .native => .column column.toList
  | .enum labels => .columnPosition column.toList (labels.map String.toList)

def boundOperand (value : String) : PrimaryKeyOrdering → ConditionOperand
  | .native => .literal value.toList
  | .enum labels => .literalPosition value.toList (labels.map String.toList)

theorem readOperand_order {column : String} {ordering : PrimaryKeyOrdering}
    (h : Labelled ordering) (rest : List TextToken) :
    readOperand (orderTokens column ordering ++ rest) = some (orderOperand column ordering, rest) := by
  cases ordering with
  | native => rfl
  | enum labels =>
    have hlabels := readLabels_labelTokens h rest
    simp only [orderTokens, fieldTokens, List.cons_append, List.append_assoc, List.nil_append,
      readOperand, hlabels]
    simp [orderOperand, show labels ≠ [] from h]

theorem readOperand_bound {value : String} {ordering : PrimaryKeyOrdering}
    (h : Labelled ordering) (rest : List TextToken) :
    readOperand (boundTokens value ordering ++ rest) = some (boundOperand value ordering, rest) := by
  cases ordering with
  | native => rfl
  | enum labels =>
    have hlabels := readLabels_labelTokens h rest
    simp only [boundTokens, fieldTokens, List.cons_append, List.append_assoc, List.nil_append,
      readOperand, hlabels]
    simp [boundOperand, show labels ≠ [] from h]

end BinlogCdc
