import BinlogCdc.Sync.UpdateMeaning
import BinlogCdc.Sync.SessionRules

/-!
# The effect of an update batch

The text of a batch with its parameters is read as an update whose branches and filter hold for the
rows with the keys of the batch. Executed, it gives these rows the values of the batch and leaves all
other rows.
-/

namespace BinlogCdc

/-! ## The update of a batch -/

section Batch

variable (table : SyncSelectTable)

/-- The key columns with the values of a row. -/
def rowTests (row : DatabaseRow) : List (KeyTest ParamValue) :=
  (table.primaryKey.zip (keyOf table row)).map fun (column, value) => ⟨column.toList, value⟩

def rowBranch (column : String) (row : DatabaseRow) : CaseBranch ParamValue :=
  ⟨rowTests table row, valueOf table column row⟩

def columnAssignment (rows : List DatabaseRow) (column : String) : CaseAssignment ParamValue :=
  ⟨column.toList, rows.map (rowBranch table column), column.toList⟩

def keyFilter (rows : List DatabaseRow) : RowFilter ParamValue :=
  match table.primaryKey with
  | [column] => .single column.toList (rows.flatMap (keyOf table))
  | columns => .several (columns.map String.toList) (rows.map (keyOf table))

def batchUpdate (rows : List DatabaseRow) : CaseUpdate ParamValue where
  table := table.name.toList
  assignments := (nonPrimaryColumns table.toSyncTable).map (columnAssignment table rows)
  filter := keyFilter table rows
  order := table.primaryKey.map String.toList

end Batch

/-! ## The texts bind the tokens of the update -/

section Texts

variable {table : SyncSelectTable} {rows : List DatabaseRow}

theorem bindsAs_comma {V : Type} (text : Text) (params : List V) (bound : List (BoundToken V))
    (h : BindsAs text params bound) :
    BindsAs (',' :: " ".toList ++ text) params ([commaToken] ++ bound) :=
  h.blank.symbol (by decide)

theorem bindsAs_keyword {V : Type} {word : Text} {token : TextToken}
    (hread : readPrepared .between word = some ([], .word word))
    (htoken : token = .word (word.map Char.toUpper)) :
    BindsAs word ([] : List V) [.token token] := by
  rw [htoken]
  exact bindsAs_word hread rfl

theorem bindsAs_and {V : Type} (text : Text) (params : List V) (bound : List (BoundToken V))
    (h : BindsAs text params bound) :
    BindsAs (' ' :: "AND ".toList ++ text) params ([.token andWord] ++ bound) := by
  have hword : BindsAs "AND".toList ([] : List V) [.token andWord] :=
    bindsAs_keyword (by decide) (by decide)
  exact (hword.wordBlank h).blank

theorem bindsAs_names (names : List String) :
    BindsAs (quoteIdentList names) ([] : List ParamValue) (nameTokens (names.map String.toList)) := by
  have h := BindsAs.intercalate (by decide) bindsAs_comma fun name (_ : name ∈ names) =>
    bindsAs_quoteIdent (V := ParamValue) name.toList
  rw [List.flatMap_eq_nil_iff.mpr fun _ _ => rfl] at h
  rw [nameTokens, List.map_map]
  exact h

theorem bindsAs_values (values : List ParamValue) :
    BindsAs (", ".toList.intercalate (List.replicate values.length "?".toList)) values
      (valueTokens values) := by
  have h := BindsAs.intercalate (by decide) bindsAs_comma fun value (_ : value ∈ values) =>
    bindsAs_placeholder value
  rw [List.map_const', List.flatMap_singleton'] at h
  exact h

/-- An equality with a placeholder. -/
theorem bindsAs_test (column : String) (value : ParamValue) :
    BindsAs (quoteIdent column.toList ++ " = ?".toList) [value]
      (KeyTest.tokens ⟨column.toList, value⟩) := by
  have hequal : BindsAs ('=' :: ' ' :: ['?']) [value] (.token (.symbol '=') :: [.value value]) :=
    (bindsAs_placeholder value).blank.symbol (by decide)
  exact (bindsAs_quoteIdent column.toList).append (by decide) hequal.blank

theorem bindsAs_tests {row : DatabaseRow}
    (hwidth : (keyOf table row).length = table.primaryKey.length) :
    BindsAs (" AND ".toList.intercalate (primaryKeyPredicates table.primaryKey)) (keyOf table row)
      (testTokens (rowTests table row)) := by
  have h := BindsAs.intercalate (by decide) bindsAs_and
    fun pair (_ : pair ∈ table.primaryKey.zip (keyOf table row)) => bindsAs_test pair.1 pair.2
  have htexts : (table.primaryKey.zip (keyOf table row)).map
      (fun pair => quoteIdent pair.1.toList ++ " = ?".toList) =
        primaryKeyPredicates table.primaryKey := by
    conv_rhs => rw [primaryKeyPredicates, ← List.map_fst_zip hwidth.ge, List.map_map]
    rfl
  have hparams : (table.primaryKey.zip (keyOf table row)).flatMap (fun pair => [pair.2]) =
      keyOf table row := by
    conv_rhs => rw [← List.map_snd_zip hwidth.le]
    rw [List.map_eq_flatMap]
  rw [htexts, hparams] at h
  rw [testTokens, rowTests, List.map_map]
  exact h

theorem bindsAs_branch {row : DatabaseRow} (column : String)
    (hwidth : (keyOf table row).length = table.primaryKey.length) :
    BindsAs ("WHEN ".toList ++ " AND ".toList.intercalate (primaryKeyPredicates table.primaryKey) ++
      " THEN ?".toList) (keyOf table row ++ [valueOf table column row])
      (rowBranch table column row).tokens := by
  have hwhen : BindsAs "WHEN".toList ([] : List ParamValue) [.token whenWord] :=
    bindsAs_keyword (by decide) (by decide)
  have hthen : BindsAs "THEN".toList ([] : List ParamValue) [.token thenWord] :=
    bindsAs_keyword (by decide) (by decide)
  have hvalue := (hthen.wordBlank (bindsAs_placeholder (valueOf table column row))).blank
  exact hwhen.wordBlank ((bindsAs_tests hwidth).append (by decide) hvalue)

/-- Every row has as many key parameters as there are key columns. -/
theorem Bound.width {columns : List String} (h : Bound table columns rows) :
    ∀ row ∈ rows, (keyOf table row).length = table.primaryKey.length :=
  fun row hrow => (length_primaryKeyParams (h.key row hrow "")).2

theorem nil_intercalate {α : Type} (parts : List (List α)) :
    ([] : List α).intercalate parts = parts.flatten := by
  induction parts with
  | nil => rfl
  | cons part parts ih =>
    cases parts with
    | nil => simp
    | cons other parts =>
      rw [List.intercalate_cons_cons, ih]
      simp

theorem bindsAs_assignment (column : String)
    (hwidth : ∀ row ∈ rows, (keyOf table row).length = table.primaryKey.length) :
    BindsAs (strictCaseAssignment table.toSyncTable column rows.length)
      (rows.flatMap fun row => keyOf table row ++ [valueOf table column row])
      (columnAssignment table rows column).tokens := by
  have hcase : BindsAs "CASE".toList ([] : List ParamValue) [.token caseWord] :=
    bindsAs_keyword (by decide) (by decide)
  have helse : BindsAs "ELSE".toList ([] : List ParamValue) [.token elseWord] :=
    bindsAs_keyword (by decide) (by decide)
  have hend : BindsAs "END".toList ([] : List ParamValue) [.token endWord] :=
    bindsAs_keyword (by decide) (by decide)
  have hname := bindsAs_quoteIdent (V := ParamValue) column.toList
  have hbranches : BindsAs
      (" ".toList.intercalate (rows.map fun _ => "WHEN ".toList ++
        " AND ".toList.intercalate (primaryKeyPredicates table.primaryKey) ++ " THEN ?".toList))
      (rows.flatMap fun row => keyOf table row ++ [valueOf table column row])
      (([] : List (BoundToken ParamValue)).intercalate
        (rows.map fun row => (rowBranch table column row).tokens)) :=
    BindsAs.intercalate (by decide) (fun _ _ _ h => h.blank) fun row hrow =>
      bindsAs_branch column (hwidth row hrow)
  have hbody := hcase.wordBlank (hbranches.append (by decide)
    (helse.wordBlank (hname.append (by decide) hend.blank)).blank)
  have hequal : BindsAs ('=' :: ' ' :: _) _ _ := hbody.blank.symbol (by decide)
  have hall := hname.append (by decide) hequal.blank
  rw [List.map_const'] at hall
  have htokens : (columnAssignment table rows column).tokens =
      .token (.name column.toList) :: .token (.symbol '=') :: .token caseWord ::
        (([] : List (BoundToken ParamValue)).intercalate
          (rows.map fun row => (rowBranch table column row).tokens) ++
          [.token elseWord, .token (.name column.toList), .token endWord]) := by
    rw [CaseAssignment.tokens, columnAssignment, nil_intercalate, List.flatMap_map, List.flatMap_def]
  rw [htokens]
  simpa [strictCaseAssignment] using hall

/-- The row of a filter. -/
theorem bindsAs_row (values : List ParamValue) :
    BindsAs ("(".toList ++ ", ".toList.intercalate (List.replicate values.length "?".toList) ++
      ")".toList) values (groupTokens (valueTokens values)) :=
  (bindsAs_values values).group

theorem keyFilter_single {column : String} (h : table.primaryKey = [column]) :
    keyFilter table rows = .single column.toList (rows.flatMap (keyOf table)) := by
  unfold keyFilter
  rw [h]

theorem keyFilter_several (h : ∀ column, table.primaryKey ≠ [column]) :
    keyFilter table rows =
      .several (table.primaryKey.map String.toList) (rows.map (keyOf table)) := by
  unfold keyFilter
  split
  · next column hcolumn => exact absurd hcolumn (h column)
  · rfl

theorem primaryKeyRowFilter_several {primaryKey : List String} (h : ∀ column, primaryKey ≠ [column])
    (count : Nat) :
    primaryKeyRowFilter primaryKey count = "(".toList ++ quoteIdentList primaryKey ++
      ") IN (".toList ++ rowPlaceholders primaryKey.length count ++ ")".toList := by
  unfold primaryKeyRowFilter
  split
  · next column => exact absurd rfl (h column)
  · rfl

theorem bindsAs_filter
    (hwidth : ∀ row ∈ rows, (keyOf table row).length = table.primaryKey.length) :
    BindsAs (primaryKeyRowFilter table.primaryKey rows.length) (rows.flatMap (keyOf table))
      (keyFilter table rows).tokens := by
  have hin : BindsAs "IN".toList ([] : List ParamValue) [.token inWord] :=
    bindsAs_keyword (by decide) (by decide)
  by_cases hsingle : ∃ column, table.primaryKey = [column]
  · obtain ⟨column, hcolumn⟩ := hsingle
    -- The values of a key of one column are as many as the rows.
    have hlength : (rows.flatMap (keyOf table)).length = rows.length := by
      rw [List.length_flatMap, List.map_congr_left hwidth, hcolumn]
      simp
    have hvalues := (bindsAs_values (rows.flatMap (keyOf table))).group
    rw [hlength] at hvalues
    have hname := bindsAs_quoteIdent (V := ParamValue) column.toList
    have hgroup : BindsAs (' ' :: '(' :: (_ ++ ")".toList)) _ _ := hvalues.blank
    have hall := hname.append (by decide) (hin.append (by decide) hgroup).blank
    rw [keyFilter_single hcolumn, hcolumn]
    simpa [primaryKeyRowFilter, RowFilter.tokens, groupTokens] using hall
  · have hseveral := not_exists.mp hsingle
    have hnames := (bindsAs_names table.primaryKey).group
    have hrows : BindsAs (", ".toList.intercalate (rows.map fun _ => "(".toList ++ ", ".toList.intercalate
        (List.replicate table.primaryKey.length "?".toList) ++ ")".toList))
        (rows.flatMap (keyOf table)) ([commaToken].intercalate
          (rows.map fun row => groupTokens (valueTokens (keyOf table row)))) := by
      refine BindsAs.intercalate (by decide) bindsAs_comma fun row hrow => ?_
      rw [← hwidth row hrow]
      exact bindsAs_row (keyOf table row)
    rw [List.map_const'] at hrows
    have hgroup : BindsAs (' ' :: '(' :: (_ ++ ")".toList)) _ _ := hrows.group.blank
    have hall := hnames.append (by decide) (hin.append (by decide) hgroup).blank
    rw [keyFilter_several hseveral, primaryKeyRowFilter_several hseveral]
    simpa [RowFilter.tokens, groupTokens, rowPlaceholders, List.map_map, Function.comp_def] using hall

/-- The parameters of a batch are counted. -/
theorem length_updateParams
    (hwidth : ∀ row ∈ rows, (keyOf table row).length = table.primaryKey.length)
    (columns : List String) :
    (batchParams table columns rows).length =
      rows.length * (columns.length * (table.primaryKey.length + 1) + table.primaryKey.length) := by
  have hkeys : (rows.flatMap (keyOf table)).length = rows.length * table.primaryKey.length := by
    rw [List.length_flatMap, List.map_congr_left hwidth]
    simp
  have hcases : ∀ column, (rows.flatMap fun row =>
      keyOf table row ++ [valueOf table column row]).length =
        rows.length * (table.primaryKey.length + 1) := by
    intro column
    have hrow : ∀ row ∈ rows, (keyOf table row ++ [valueOf table column row]).length =
        table.primaryKey.length + 1 := by
      intro row hrow
      rw [List.length_append, hwidth row hrow]
      rfl
    rw [List.length_flatMap, List.map_congr_left hrow]
    simp
  rw [batchParams, List.length_append, hkeys, List.length_flatMap,
    List.map_congr_left fun column _ => hcases column]
  simp only [List.map_const', List.sum_replicate_nat]
  ring

/-- The text of the statement of a batch. -/
def batchText (table : SyncTable) (count : Nat) : Text :=
  "UPDATE ".toList ++ quoteIdent table.name.toList ++ " SET ".toList ++
    ", ".toList.intercalate
      ((nonPrimaryColumns table).map fun column => strictCaseAssignment table column count) ++
    " WHERE ".toList ++ primaryKeyRowFilter table.primaryKey count ++ " ORDER BY ".toList ++
    quoteIdentList table.primaryKey

/-- A statement is built when the rows have keys and values. -/
theorem buildStrictUpdateRowsStatement_eq_ok {statement : PreparedStatement} :
    buildStrictUpdateRowsStatement table rows = .ok statement ↔
      Bound table (nonPrimaryColumns table.toSyncTable) rows ∧
        statement = ⟨batchText table.toSyncTable rows.length,
          batchParams table (nonPrimaryColumns table.toSyncTable) rows⟩ := by
  constructor
  · intro h
    obtain ⟨params, hparams, h⟩ := bind_eq_ok.mp h
    have hbound := bound_of_orderedUpdateParams hparams
    obtain rfl := Except.ok.inj (hbound.orderedUpdateParams.symm.trans hparams)
    exact ⟨hbound, (Except.ok.inj h).symm⟩
  · rintro ⟨hbound, rfl⟩
    rw [buildStrictUpdateRowsStatement, hbound.orderedUpdateParams]
    rfl

/-- The parts of an update bind one after the other. -/
theorem bindsAs_parts {name assignments filter order : Text} {params params' : List ParamValue}
    {assigned filtered ordered : List (BoundToken ParamValue)}
    (hassignments : BindsAs assignments params assigned) (hfilter : BindsAs filter params' filtered)
    (horder : BindsAs order ([] : List ParamValue) ordered) :
    BindsAs ("UPDATE ".toList ++ quoteIdent name ++ " SET ".toList ++ assignments ++
      " WHERE ".toList ++ filter ++ " ORDER BY ".toList ++ order) (params ++ params')
      (.token updateWord :: .token (.name name) :: .token setWord :: (assigned ++
        .token whereWord :: (filtered ++ .token orderWord :: .token byWord :: ordered))) := by
  have hupdate : BindsAs "UPDATE".toList ([] : List ParamValue) [.token updateWord] :=
    bindsAs_keyword (by decide) (by decide)
  have hset : BindsAs "SET".toList ([] : List ParamValue) [.token setWord] :=
    bindsAs_keyword (by decide) (by decide)
  have hwhere : BindsAs "WHERE".toList ([] : List ParamValue) [.token whereWord] :=
    bindsAs_keyword (by decide) (by decide)
  have horderWord : BindsAs "ORDER".toList ([] : List ParamValue) [.token orderWord] :=
    bindsAs_keyword (by decide) (by decide)
  have hby : BindsAs "BY".toList ([] : List ParamValue) [.token byWord] :=
    bindsAs_keyword (by decide) (by decide)
  have hend := (horderWord.wordBlank (hby.wordBlank horder)).blank
  have hrest := (hwhere.wordBlank (hfilter.append (by decide) hend)).blank
  have hbody := (hset.wordBlank (hassignments.append (by decide) hrest)).blank
  have hall := hupdate.wordBlank
    ((bindsAs_quoteIdent (V := ParamValue) name).append (by decide) hbody)
  simpa using hall

/-- The text of a batch binds the tokens of its update. -/
theorem bindsAs_batch
    (hwidth : ∀ row ∈ rows, (keyOf table row).length = table.primaryKey.length) :
    BindsAs (batchText table.toSyncTable rows.length)
      (batchParams table (nonPrimaryColumns table.toSyncTable) rows)
      (batchUpdate table rows).tokens := by
  have hassignments : BindsAs (", ".toList.intercalate ((nonPrimaryColumns table.toSyncTable).map
      fun column => strictCaseAssignment table.toSyncTable column rows.length))
      ((nonPrimaryColumns table.toSyncTable).flatMap fun column => rows.flatMap fun row =>
        keyOf table row ++ [valueOf table column row])
      ([commaToken].intercalate ((nonPrimaryColumns table.toSyncTable).map
        fun column => (columnAssignment table rows column).tokens)) :=
    BindsAs.intercalate (by decide) bindsAs_comma fun column _ => bindsAs_assignment column hwidth
  rw [CaseUpdate.tokens, batchUpdate, List.map_map]
  exact bindsAs_parts hassignments (bindsAs_filter hwidth) (bindsAs_names table.primaryKey)

/-- The update of a batch can be read back. -/
theorem readable_batchUpdate (hkeyed : table.Keyed) (hrows : rows ≠ [])
    (hchanged : nonPrimaryColumns table.toSyncTable ≠ [])
    (hwidth : ∀ row ∈ rows, (keyOf table row).length = table.primaryKey.length) :
    (batchUpdate table rows).Readable := by
  have hkey : ∀ row ∈ rows, keyOf table row ≠ [] := by
    intro row hrow
    rw [← List.length_pos_iff, hwidth row hrow, List.length_pos_iff]
    exact hkeyed.nonempty
  refine ⟨by simpa [batchUpdate] using hchanged, ?_, ?_, by simpa [batchUpdate] using hkeyed.nonempty⟩
  · intro assignment hassignment
    obtain ⟨column, -, rfl⟩ := List.mem_map.mp hassignment
    refine ⟨by simpa [columnAssignment] using hrows, fun branch hbranch => ?_⟩
    obtain ⟨row, hrow, rfl⟩ := List.mem_map.mp hbranch
    have hzip : (table.primaryKey.zip (keyOf table row)).length = table.primaryKey.length := by
      rw [List.length_zip, hwidth row hrow, Nat.min_self]
    rw [rowBranch, rowTests, ne_eq, List.map_eq_nil_iff, ← ne_eq, ← List.length_pos_iff, hzip,
      List.length_pos_iff]
    exact hkeyed.nonempty
  · change (keyFilter table rows).Readable
    by_cases hsingle : ∃ column, table.primaryKey = [column]
    · obtain ⟨column, hcolumn⟩ := hsingle
      obtain ⟨row, others, rfl⟩ := List.exists_cons_of_ne_nil hrows
      rw [keyFilter_single hcolumn, RowFilter.Readable, List.flatMap_cons]
      exact fun hnil => hkey row List.mem_cons_self (List.append_eq_nil_iff.mp hnil).1
    · rw [keyFilter_several (not_exists.mp hsingle), RowFilter.Readable]
      refine ⟨by simpa using hkeyed.nonempty, by simpa using hrows, fun values hvalues => ?_⟩
      obtain ⟨row, hrow, rfl⟩ := List.mem_map.mp hvalues
      exact ⟨hkey row hrow, by rw [hwidth row hrow, List.length_map]⟩

end Texts

/-! ## Rows with the keys of a batch -/

section Rows

variable {Cell : Type} (server : UpdateServer ParamValue Cell) (table : SyncSelectTable)

/-- A stored row has the key of a row of the batch: the server takes its key columns for equal to
the values that the key texts stand for. -/
def HasKey (stored : StoredRow Cell) (row : DatabaseRow) : Prop :=
  List.Forall₂ (fun column text => ∃ value, KeyStandsFor table column text value ∧
    server.equal column.toList (stored column.toList) value = true)
    table.primaryKey row.primaryKey.values

/-- The keys are distinct: no stored row can have two of them. -/
def DistinctKeys (rows : List DatabaseRow) : Prop :=
  rows.Pairwise fun row row' =>
    ∀ stored : StoredRow Cell, ¬(HasKey server table stored row ∧ HasKey server table stored row')

/-- What becomes of a stored row. -/
structure RowUpdated (rows : List DatabaseRow) (stored updated : StoredRow Cell) : Prop where
  /-- The columns outside the key of a listed row hold the values of the row. -/
  listed : ∀ row ∈ rows, HasKey server table stored row →
    ∀ column ∈ nonPrimaryColumns table.toSyncTable, ∃ value,
      StandsFor table column (row.get column).join value ∧
        updated column.toList = server.assigned column.toList value
  /-- Other columns stay, the key columns among them. -/
  kept : ∀ column : Text, column ∉ (nonPrimaryColumns table.toSyncTable).map String.toList →
    updated column = stored column
  /-- A row with another key stays. -/
  others : (∀ row ∈ rows, ¬HasKey server table stored row) → updated = stored

variable {server table} {rows : List DatabaseRow} {stored : StoredRow Cell}

/-- Key columns that are equal to the parameters of a key. -/
theorem all_equal_iff {columns texts : List String} {params : List ParamValue}
    (hlength : texts.length = columns.length)
    (h : List.Forall₂ (fun pair param => primaryKeyParameterValue table pair.1 pair.2 = .ok param)
      (columns.zip texts) params) :
    ((columns.zip params).all fun pair =>
      server.equal pair.1.toList (stored pair.1.toList) pair.2) = true ↔
      List.Forall₂ (fun column text => ∃ value, KeyStandsFor table column text value ∧
        server.equal column.toList (stored column.toList) value = true) columns texts := by
  induction columns generalizing texts params with
  | nil =>
    obtain rfl := List.length_eq_zero_iff.mp hlength
    simp
  | cons column columns ih =>
    obtain ⟨text, texts, rfl⟩ := List.exists_cons_of_length_eq_add_one hlength
    rw [List.zip_cons_cons] at h
    cases h with
    | cons hfirst hrest =>
      rw [List.zip_cons_cons, List.all_cons, Bool.and_eq_true, List.forall₂_cons,
        ih (Nat.succ.inj hlength) hrest]
      have hstands := keyStandsFor_primaryKeyParameterValue hfirst
      refine and_congr_left fun _ => ⟨fun hequal => ⟨_, hstands, hequal⟩, ?_⟩
      rintro ⟨value, hvalue, hequal⟩
      rwa [hvalue.unique hstands] at hequal

section Key

variable {row : DatabaseRow} (hkey : primaryKeyParams table row.primaryKey "" = .ok (keyOf table row))

include hkey

theorem all_keyOf_iff :
    ((table.primaryKey.zip (keyOf table row)).all fun pair =>
      server.equal pair.1.toList (stored pair.1.toList) pair.2) = true ↔
      HasKey server table stored row := by
  have hwidth := (length_primaryKeyParams hkey).1
  apply all_equal_iff hwidth
  rw [primaryKeyParams, if_neg (not_not.mpr hwidth)] at hkey
  exact mapM_eq_ok.mp hkey

theorem holds_rowBranch_iff (column : String) :
    (rowBranch table column row).holds server stored = true ↔ HasKey server table stored row := by
  rw [← all_keyOf_iff hkey, CaseBranch.holds, rowBranch, rowTests, List.all_map]
  rfl

end Key

/-- The filter holds for the rows with a key of the batch. -/
theorem holds_keyFilter_iff (hkey : ∀ row ∈ rows,
      primaryKeyParams table row.primaryKey "" = .ok (keyOf table row)) :
    (keyFilter table rows).holds server stored = true ↔ ∃ row ∈ rows, HasKey server table stored row := by
  have hany : ∀ test : DatabaseRow → Bool,
      (∀ row ∈ rows, test row = (table.primaryKey.zip (keyOf table row)).all fun pair =>
        server.equal pair.1.toList (stored pair.1.toList) pair.2) →
      (rows.any test = true ↔ ∃ row ∈ rows, HasKey server table stored row) := by
    intro test htest
    rw [List.any_eq_true]
    refine exists_congr fun row => and_congr_right fun hrow => ?_
    rw [htest row hrow, all_keyOf_iff (hkey row hrow)]
  by_cases hsingle : ∃ column, table.primaryKey = [column]
  · obtain ⟨column, hcolumn⟩ := hsingle
    rw [keyFilter_single hcolumn, RowFilter.holds, List.any_flatMap]
    apply hany
    intro row hrow
    have hlength := (length_primaryKeyParams (hkey row hrow)).2
    rw [hcolumn] at hlength ⊢
    obtain ⟨value, hvalue⟩ := List.length_eq_one_iff.mp hlength
    rw [hvalue]
    simp
  · rw [keyFilter_several (not_exists.mp hsingle), RowFilter.holds, List.any_map]
    apply hany
    intro row hrow
    rw [Function.comp_apply, List.zip_map_left, List.all_map]
    rfl

theorem mem_nonPrimaryColumns {table : SyncTable} {column : String} :
    column ∈ nonPrimaryColumns table ↔ column ∈ table.columns ∧ column ∉ table.primaryKey := by
  simp [nonPrimaryColumns]

theorem toList_mem_map {column : String} {columns : List String} :
    column.toList ∈ columns.map String.toList ↔ column ∈ columns := by
  rw [List.mem_map]
  constructor
  · rintro ⟨other, hother, hsame⟩
    rwa [← String.toList_injective hsame]
  · exact fun h => ⟨column, h, rfl⟩

theorem map_target (columns : List String) :
    (columns.map (columnAssignment table rows)).map CaseAssignment.target =
      columns.map String.toList := by
  rw [List.map_map]
  rfl

/-- The assignments of a batch do not see each other. -/
theorem independent_batch :
    Independent ((nonPrimaryColumns table.toSyncTable).map (columnAssignment table rows)) := by
  refine ⟨?_, ?_, ?_⟩
  · rw [map_target]
    exact (table.columns_nodup.filter _).map fun _ _ => String.toList_injective
  · intro assignment hassignment branch hbranch test htest
    obtain ⟨column, -, rfl⟩ := List.mem_map.mp hassignment
    obtain ⟨row, -, rfl⟩ := List.mem_map.mp hbranch
    obtain ⟨pair, hpair, rfl⟩ := List.mem_map.mp htest
    rw [map_target, toList_mem_map, mem_nonPrimaryColumns, not_and, not_not]
    exact fun _ => (List.of_mem_zip hpair).1
  · intro assignment hassignment
    obtain ⟨column, -, rfl⟩ := List.mem_map.mp hassignment
    rfl

/-- No stored row has the keys of two rows of the batch. -/
theorem DistinctKeys.eq (h : DistinctKeys server table rows) {row row' : DatabaseRow}
    (hrow : row ∈ rows) (hrow' : row' ∈ rows) (hkey : HasKey server table stored row)
    (hkey' : HasKey server table stored row') : row = row' := by
  by_contra hne
  have hsymmetric : Std.Symm fun row row' : DatabaseRow =>
      ∀ stored : StoredRow Cell, ¬(HasKey server table stored row ∧ HasKey server table stored row') :=
    ⟨fun _ _ h stored ⟨hleft, hright⟩ => h stored ⟨hright, hleft⟩⟩
  exact h.forall hrow hrow' hne stored ⟨hkey, hkey'⟩

/-- The effect of the update of a batch on a row. -/
theorem rowUpdated (hbound : Bound table (nonPrimaryColumns table.toSyncTable) rows)
    (hdistinct : DistinctKeys server table rows) (stored : StoredRow Cell) :
    RowUpdated server table rows stored ((batchUpdate table rows).updateRow server stored) := by
  have hkey : ∀ row ∈ rows, primaryKeyParams table row.primaryKey "" = .ok (keyOf table row) :=
    fun row hrow => hbound.key row hrow ""
  have hfilter : (batchUpdate table rows).filter.holds server stored = true ↔
      ∃ row ∈ rows, HasKey server table stored row := holds_keyFilter_iff hkey
  rw [CaseUpdate.updateRow]
  by_cases hmatched : (batchUpdate table rows).filter.holds server stored = true
  · rw [if_pos hmatched]
    refine ⟨fun row hrow hhas column hcolumn => ?_, fun column hcolumn => ?_, fun hnone => ?_⟩
    · refine ⟨valueOf table column row, standsFor_valueOf (hbound.value column hcolumn row hrow), ?_⟩
      have hassignment : columnAssignment table rows column ∈ (batchUpdate table rows).assignments :=
        List.mem_map_of_mem hcolumn
      have hvalue : (batchUpdate table rows).assignments.foldl (CaseAssignment.assign server) stored
          column.toList = (columnAssignment table rows column).value server stored :=
        independent_batch.foldl_assign hassignment
      have hbranch : (columnAssignment table rows column).value server stored =
          server.assigned column.toList (rowBranch table column row).value := by
        refine CaseAssignment.value_of_branch (List.mem_map_of_mem hrow)
          ((holds_rowBranch_iff (hkey row hrow) column).mpr hhas) fun other hother hholds => ?_
        obtain ⟨row', hrow', rfl⟩ := List.mem_map.mp hother
        have hhas' := (holds_rowBranch_iff (hkey row' hrow') column).mp hholds
        rw [hdistinct.eq hrow' hrow hhas' hhas]
      exact hvalue.trans hbranch
    · exact foldl_assign_of_not_mem (by rw [batchUpdate, map_target]; exact hcolumn)
    · obtain ⟨row, hrow, hhas⟩ := hfilter.mp hmatched
      exact absurd hhas (hnone row hrow)
  · rw [if_neg hmatched]
    refine ⟨fun row hrow hhas => ?_, fun _ _ => rfl, fun _ => rfl⟩
    exact absurd (hfilter.mpr ⟨row, hrow, hhas⟩) hmatched

end Rows

/-! ## Placeholders -/

/-- The columns outside the key are the rest of the columns. -/
theorem length_nonPrimaryColumns {table : SyncTable} (h : table.Keyed) :
    (nonPrimaryColumns table).length = table.columns.length - table.primaryKey.length := by
  have hkey : (table.columns.filter fun column => decide (column ∈ table.primaryKey)).Perm
      table.primaryKey := by
    rw [List.perm_ext_iff_of_nodup (table.columns_nodup.filter _) h.nodup]
    intro column
    rw [List.mem_filter, decide_eq_true_eq]
    exact ⟨And.right, fun hcolumn => ⟨h.subset column hcolumn, hcolumn⟩⟩
  have hsplit := List.length_eq_length_filter_add
    (l := table.columns) fun column => decide (column ∈ table.primaryKey)
  have hrest : (nonPrimaryColumns table).length =
      (table.columns.filter fun column => !decide (column ∈ table.primaryKey)).length := by
    simp [nonPrimaryColumns]
  have hlength := hkey.length_eq
  omega

/-- Rows within the capacity do not exceed the placeholders of a statement. -/
theorem mul_le_of_le_capacity {rows placeholders : Nat}
    (hrows : rows ≤ boundedMutationCapacity placeholders)
    (hsingle : placeholders ≤ mysqlMaxPreparedStatementPlaceholders) :
    rows * placeholders ≤ mysqlMaxPreparedStatementPlaceholders := by
  by_cases hzero : placeholders = 0
  · rw [hzero, Nat.mul_zero]
    exact Nat.zero_le _
  · have hmax : max placeholders 1 = placeholders := by omega
    have hone : 1 ≤ mysqlMaxPreparedStatementPlaceholders / placeholders :=
      (Nat.one_le_div_iff (by omega)).mpr hsingle
    have hbound : rows ≤ mysqlMaxPreparedStatementPlaceholders / placeholders := by
      unfold boundedMutationCapacity at hrows
      rw [hmax] at hrows
      omega
    calc rows * placeholders
        ≤ mysqlMaxPreparedStatementPlaceholders / placeholders * placeholders :=
          Nat.mul_le_mul_right placeholders hbound
      _ ≤ mysqlMaxPreparedStatementPlaceholders := Nat.div_mul_le_self _ _

/-- The statement of a batch has a parameter for each placeholder, and a batch within the capacity
not more of them than a statement may have if one row fits. Executed, it gives the rows with the keys
of the batch its values, and leaves the other rows and tables. -/
theorem buildStrictUpdateRowsStatement_executes {inventory : TableInventory} {table : SyncSelectTable}
    {rows : List DatabaseRow} {statement : PreparedStatement}
    (htable : syncTableFromInventory inventory = .ok table)
    (hchanged : nonPrimaryColumns table.toSyncTable ≠ []) (hrows : rows ≠ [])
    (hbuilt : buildStrictUpdateRowsStatement table rows = .ok statement) :
    (∃ tokens, preparedTokens statement.sql = some tokens ∧
      tokens.count .placeholder = statement.params.length) ∧
    (rows.length ≤ strictUpdateBatchCapacity table.toSyncTable →
      (∀ row ∈ rows, ∀ single, buildStrictUpdateRowsStatement table [row] = .ok single →
        single.params.length ≤ mysqlMaxPreparedStatementPlaceholders) →
      statement.params.length ≤ mysqlMaxPreparedStatementPlaceholders) ∧
    ∀ {Cell : Type} (server : UpdateServer ParamValue Cell)
      (database : Text → List (StoredRow Cell)), DistinctKeys server table rows →
      ∃ database', executePrepared server statement.sql statement.params database = some database' ∧
        (∀ name ≠ table.name.toList, database' name = database name) ∧
        List.Forall₂ (RowUpdated server table rows) (database table.name.toList)
          (database' table.name.toList) := by
  have hkeyed := syncTableFromInventory_keyed htable
  obtain ⟨hbound, rfl⟩ := buildStrictUpdateRowsStatement_eq_ok.mp hbuilt
  have hwidth := hbound.width
  obtain ⟨tokens, htokens, hparams⟩ := (bindsAs_batch hwidth).preparedTokens
  refine ⟨⟨tokens, htokens, count_placeholder hparams⟩, fun hcapacity hfits => ?_,
    fun {Cell} server database hdistinct => ?_⟩
  · obtain ⟨row, others, hcons⟩ := List.exists_cons_of_ne_nil hrows
    have hrow : row ∈ rows := by rw [hcons]; exact List.mem_cons_self
    have hone : Bound table (nonPrimaryColumns table.toSyncTable) [row] := by
      refine ⟨fun other hother => ?_, fun column hcolumn other hother => ?_⟩
      · rw [List.mem_singleton.mp hother]
        exact hbound.key row hrow
      · rw [List.mem_singleton.mp hother]
        exact hbound.value column hcolumn row hrow
    have hsingle := hfits row hrow _ (buildStrictUpdateRowsStatement_eq_ok.mpr ⟨hone, rfl⟩)
    dsimp only at hsingle ⊢
    rw [length_updateParams hone.width, List.length_singleton, Nat.one_mul] at hsingle
    rw [strictUpdateBatchCapacity, ← length_nonPrimaryColumns hkeyed] at hcapacity
    rw [length_updateParams hwidth]
    exact mul_le_of_le_capacity hcapacity hsingle
  · have hread := readUpdate_tokens (readable_batchUpdate hkeyed hrows hchanged hwidth)
    refine ⟨(batchUpdate table rows).execute server database, ?_, fun name hname => ?_, ?_⟩
    · rw [executePrepared, htokens, Option.bind_eq_bind, Option.bind_some, hparams]
      simp [hread]
    · exact Function.update_of_ne hname _ _
    · have htable : (batchUpdate table rows).table = table.name.toList := rfl
      rw [CaseUpdate.execute, htable, Function.update_self, List.forall₂_map_right_iff,
        List.forall₂_same]
      exact fun stored _ => rowUpdated hbound hdistinct stored

/-- A table of guests with a key of one column. -/
def guestInventory : TableInventory :=
  let column (name dataType : String) : ColumnInventory := ⟨name, dataType, dataType, false, none, none, none⟩
  ⟨"guests", "BASE TABLE", none, ["id"], [column "id" "int", column "name" "text"]⟩

theorem guestColumns_nodup : ["id", "name"].Nodup := by decide

def guestTable : SyncSelectTable where
  name := "guests"
  primaryKey := ["id"]
  columns := ["id", "name"]
  enumColumns := []
  columns_nodup := guestColumns_nodup
  primaryKeyOrdering := [.native]
  bitColumns := []
  mediumblobColumns := []

def guestRow (id name : String) : DatabaseRow :=
  ⟨⟨[id]⟩, [("id", some id), ("name", some name)]⟩

/-- A server that stores parameters as they are. -/
def exactServer : UpdateServer ParamValue ParamValue where
  assigned _ value := value
  equal _ stored value := decide (stored = value)

theorem hasKey_guestRow {stored : StoredRow ParamValue} {id name : String}
    (h : HasKey exactServer guestTable stored (guestRow id name)) :
    stored "id".toList = .bytes (utf8Bytes id) := by
  cases h with
  | cons hfirst _ =>
    obtain ⟨value, hvalue, hequal⟩ := hfirst
    have htext : KeyStandsFor guestTable "id" id (.bytes (utf8Bytes id)) :=
      .plain rfl (.text rfl List.not_mem_nil List.not_mem_nil)
    rw [← htext.unique hvalue] at hequal
    exact of_decide_eq_true hequal

theorem buildStrictUpdateRowsStatement_executes_guests :
    ∃ statement, buildStrictUpdateRowsStatement guestTable [guestRow "1" "ann", guestRow "2" "bob"] =
      .ok statement ∧ statement.params.length = 6 ∧
      ∀ database, ∃ database',
        executePrepared exactServer statement.sql statement.params database = some database' ∧
          List.Forall₂ (RowUpdated exactServer guestTable [guestRow "1" "ann", guestRow "2" "bob"])
            (database "guests".toList) ( database' "guests".toList) := by
  refine ⟨_, rfl, rfl, fun database => ?_⟩
  have hdistinct : DistinctKeys exactServer guestTable [guestRow "1" "ann", guestRow "2" "bob"] := by
    refine List.pairwise_pair.mpr fun stored ⟨hfirst, hsecond⟩ => ?_
    have hsame := (hasKey_guestRow hfirst).symm.trans (hasKey_guestRow hsecond)
    exact absurd hsame (by decide +kernel)
  obtain ⟨-, -, hexecutes⟩ := @buildStrictUpdateRowsStatement_executes guestInventory guestTable
    [guestRow "1" "ann", guestRow "2" "bob"] _ rfl (by decide) (by decide) rfl
  obtain ⟨database', hrun, -, hrows⟩ := hexecutes exactServer database hdistinct
  exact ⟨database', hrun, hrows⟩

end BinlogCdc
