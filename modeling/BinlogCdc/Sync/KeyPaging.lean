import BinlogCdc.Sync.BoundMeaning

/-!
# Reading a range page by page

The server selects the rows for which the bounds hold and sends the first ones in the order of the
ORDER BY. A reader that goes on after the last key of a page reads every row between the bounds once.
-/

namespace BinlogCdc

/-! ## Keys -/

/-- The order of the server, column by column. The labels of an enumeration are different for its
column. -/
structure ServerOrder (table : SyncSelectTable) where
  order : Text → Text → Text → Ordering
  total : ∀ column, Std.TransCmp (order column)
  labels : ∀ column labels, (column, .enum labels) ∈ table.primaryKey.zip table.primaryKeyOrdering →
    ∀ a b, ColumnHolds (.enum labels) a → ColumnHolds (.enum labels) b →
      (order column.toList a b = .eq ↔ a = b)

namespace SyncSelectTable

/-- The key of a row. -/
def rowKey (table : SyncSelectTable) (row : Text → Text) : List Text :=
  table.primaryKey.map fun column => row column.toList

/-- The order of keys. -/
def compareKeys (table : SyncSelectTable) (server : ServerOrder table) :
    List Text → List Text → Ordering :=
  keyCompare server.order (table.primaryKey.zip table.primaryKeyOrdering)

/-- A key has a value of each of its columns. -/
def IsKey (table : SyncSelectTable) (key : List Text) : Prop :=
  List.Forall₂ ColumnHolds table.primaryKeyOrdering key

end SyncSelectTable

/-- The texts of a primary key. -/
def PrimaryKey.texts (key : PrimaryKey) : List Text := key.values.map String.toList

/-- The values of an enumeration have different positions. -/
theorem fieldPosition_inj {labels : List String} {a b : Text} (ha : ColumnHolds (.enum labels) a)
    (hb : ColumnHolds (.enum labels) b) :
    fieldPosition a (labels.map String.toList) = fieldPosition b (labels.map String.toList) ↔
      a = b := by
  constructor
  · intro h
    unfold fieldPosition at h
    split at h
    case isTrue hmem =>
      split at h
      case isTrue hmem' => exact (List.idxOf_inj hmem).mp (Nat.succ.inj h)
      case isFalse => omega
    case isFalse hmem =>
      split at h
      case isTrue => omega
      case isFalse hmem' => rw [ha.resolve_left hmem, hb.resolve_left hmem']
  · rintro rfl
    rfl

variable {table : SyncSelectTable} {server : ServerOrder table}

/-- Equal to the server and equal in the order of the column are the same. -/
theorem columnCompare_eq_iff {column : String} {ordering : PrimaryKeyOrdering}
    (hcolumn : (column, ordering) ∈ table.primaryKey.zip table.primaryKeyOrdering) {a b : Text}
    (ha : ColumnHolds ordering a) (hb : ColumnHolds ordering b) :
    server.order column.toList a b = .eq ↔ columnCompare server.order column ordering a b = .eq := by
  cases ordering with
  | native => exact Iff.rfl
  | enum labels =>
    rw [columnCompare, server.labels column labels hcolumn a b ha hb, compare_eq_iff_eq,
      fieldPosition_inj ha hb]

/-- A total order of parts is one of the wholes. -/
theorem transCmp_on {α β : Type} {cmp : β → β → Ordering} (f : α → β) (h : Std.TransCmp cmp) :
    Std.TransCmp fun a b => cmp (f a) (f b) where
  eq_swap := h.eq_swap
  isLE_trans := h.isLE_trans

theorem transCmp_columnCompare (server : ServerOrder table) (column : String)
    (ordering : PrimaryKeyOrdering) :
    Std.TransCmp (columnCompare server.order column ordering) := by
  cases ordering with
  | native => exact server.total column.toList
  | enum labels =>
    have hnat : Std.TransCmp (compare : Nat → Nat → Ordering) := inferInstance
    exact transCmp_on (fun value => fieldPosition value (labels.map String.toList)) hnat

/-- The order of keys is total. -/
theorem transCmp_keyCompare (server : ServerOrder table)
    (columns : List (String × PrimaryKeyOrdering)) :
    Std.TransCmp (keyCompare server.order columns) := by
  induction columns with
  | nil => exact { eq_swap := rfl, isLE_trans := fun _ _ => rfl }
  | cons first columns ih =>
    obtain ⟨column, ordering⟩ := first
    have hfirst := transCmp_on (fun key : List Text => key.headD [])
      (transCmp_columnCompare server column ordering)
    have hrest := transCmp_on (fun key : List Text => key.tail) ih
    exact inferInstanceAs (Std.TransCmp (compareLex _ _))

/-! ## The bounds of a request -/

/-- The truth of the WHERE clause; without one every row is selected. -/
def whereHolds (order : Text → Text → Text → Ordering) (row : Text → Text)
    (predicates : List Text) : Option Bool :=
  if predicates.isEmpty then some true
  else do
    let condition ← conditionOf (" AND ".toList.intercalate predicates)
    condition.holds order row

/-- The key is between the bounds. -/
def InBounds (table : SyncSelectTable) (server : ServerOrder table)
    (startAfter endAt : Option PrimaryKey) (key : List Text) : Prop :=
  (∀ bound ∈ startAfter, table.compareKeys server key bound.texts = .gt) ∧
    ∀ bound ∈ endAt, table.compareKeys server key bound.texts ≠ .gt

instance (startAfter endAt : Option PrimaryKey) (key : List Text) :
    Decidable (InBounds table server startAfter endAt key) :=
  inferInstanceAs (Decidable (_ ∧ _))

/-- A table whose key can be ordered: it has a column, each with its ordering, and enumerations have
labels. -/
structure Orderable (table : SyncSelectTable) : Prop where
  nonempty : table.primaryKey ≠ []
  length : table.primaryKeyOrdering.length = table.primaryKey.length
  labelled : ∀ ordering ∈ table.primaryKeyOrdering, Labelled ordering

/-- The fields of a bound. -/
theorem exists_keyFields (htable : Orderable table) {bound : PrimaryKey}
    (hbound : table.IsKey bound.texts) :
    ∃ fields : List KeyField, table.primaryKey = fields.map KeyField.column ∧
      table.primaryKeyOrdering = fields.map KeyField.ordering ∧
      bound.values = fields.map KeyField.value := by
  refine exists_fields htable.length ?_
  have hlength := hbound.length_eq
  rw [PrimaryKey.texts, List.length_map, htable.length] at hlength
  exact hlength.symm

theorem fieldsCompare_eq (order : Text → Text → Text → Ordering) (row : Text → Text)
    (fields : List KeyField) :
    fieldsCompare order row fields =
      keyCompare order ((fields.map KeyField.column).zip (fields.map KeyField.ordering))
        ((fields.map KeyField.column).map fun column => row column.toList)
        ((fields.map KeyField.value).map String.toList) := by
  induction fields with
  | nil => rfl
  | cons field fields ih =>
    simp only [List.map_cons, List.zip_cons_cons, keyCompare, List.headD_cons, List.tail_cons,
      fieldsCompare, KeyField.compareRow]
    rw [ih]

/-- Rows and bounds hold values of the columns, so that the server's equality is that of the
order. -/
theorem equalAgrees_fields {fields : List KeyField}
    (hcolumns : table.primaryKey = fields.map KeyField.column)
    (hordering : table.primaryKeyOrdering = fields.map KeyField.ordering) {bound : PrimaryKey}
    (hvalues : bound.values = fields.map KeyField.value) (hbound : table.IsKey bound.texts)
    {row : Text → Text} (hrow : table.IsKey (table.rowKey row)) :
    ∀ field ∈ fields, field.EqualAgrees server.order row := by
  intro field hfield
  obtain ⟨index, hindex, rfl⟩ := List.getElem_of_mem hfield
  unfold SyncSelectTable.IsKey at hbound hrow
  rw [PrimaryKey.texts, hvalues, hordering, List.map_map, List.forall₂_map_left_iff,
    List.forall₂_map_right_iff, List.forall₂_same] at hbound
  rw [SyncSelectTable.rowKey, hcolumns, hordering, List.map_map, List.forall₂_map_left_iff,
    List.forall₂_map_right_iff, List.forall₂_same] at hrow
  refine columnCompare_eq_iff ?_ (hrow _ hfield) (hbound _ hfield)
  rw [hcolumns, hordering, List.zip_map']
  exact List.mem_map_of_mem hfield

/-- The server reads the text as a factor of this value on the rows of the table. -/
structure PredicateMeans (table : SyncSelectTable) (server : ServerOrder table) (text : Text)
    (tokens : List TextToken) (condition : SearchCondition) (value : (Text → Text) → Bool) :
    Prop where
  reads : ReadsAs text tokens
  factor : Factor tokens
  long : 3 ≤ tokens.length
  read : ∀ depth, readFactor (readCondition (depth + 2)) tokens = some condition
  holds : ∀ row, table.IsKey (table.rowKey row) →
    condition.holds server.order row = some (value row)

/-- The predicate of a bound means that the key is greater. -/
theorem exists_predicate (server : ServerOrder table) (htable : Orderable table)
    {bound : PrimaryKey} (hbound : table.IsKey bound.texts) :
    ∃ text tokens condition, primaryKeyBoundPredicate table.primaryKey table.primaryKeyOrdering
        bound.values ">".toList = some text ∧
      PredicateMeans table server text tokens condition fun row =>
        table.compareKeys server (table.rowKey row) bound.texts == .gt := by
  obtain ⟨fields, hcolumns, hordering, hvalues⟩ := exists_keyFields htable hbound
  have hfields : fields ≠ [] := by
    rintro rfl
    exact htable.nonempty hcolumns
  have hlabelled : ∀ field ∈ fields, Labelled field.ordering := by
    intro field hfield
    refine htable.labelled field.ordering ?_
    rw [hordering]
    exact List.mem_map_of_mem hfield
  obtain ⟨text, condition, htext, hreads⟩ := readsPredicate hfields hlabelled
  refine ⟨text, predicateTokens fields, condition, ?_, hreads.tokens, hreads.factor, hreads.long,
    hreads.read, fun row hrow => ?_⟩
  · rw [hcolumns, hordering, hvalues, htext]
  · rw [hreads.holds server.order row
      (equalAgrees_fields hcolumns hordering hvalues hbound hrow), fieldsCompare_eq,
      SyncSelectTable.compareKeys, SyncSelectTable.rowKey, PrimaryKey.texts, hcolumns, hordering,
      hvalues]

/-- NOT before a predicate negates it. -/
theorem PredicateMeans.not {text : Text} {tokens : List TextToken} {condition : SearchCondition}
    {value : (Text → Text) → Bool} (h : PredicateMeans table server text tokens condition value) :
    PredicateMeans table server ("NOT ".toList ++ text) (.word "NOT".toList :: tokens)
      (.not condition) fun row => !value row where
  reads := by
    have hword : ReadsAs "NOT".toList [.word "NOT".toList] :=
      ⟨[], .word "NOT".toList, [.word "NOT".toList], by decide, by decide, rfl⟩
    exact hword.wordBlank h.reads
  factor := by
    have hword : Factor [.word "NOT".toList] := factor_of_plain (by decide)
    exact hword.append h.factor
  long := h.long.trans (Nat.le_succ _)
  read depth := by
    rw [readFactor, if_pos rfl, h.read depth]
    rfl
  holds row hrow := by
    rw [SearchCondition.holds, h.holds row hrow]
    rfl

/-- The WHERE clause holds where all its predicates do. -/
theorem whereHolds_of_means {predicates : List Text} {tokens : List (List TextToken)}
    {conditions : List SearchCondition} {values : List ((Text → Text) → Bool)}
    (htokens : List.Forall₂ (fun text tokens => ReadsAs text tokens ∧ 3 ≤ tokens.length)
      predicates tokens)
    (hread : ∀ depth, List.Forall₂ (fun tokens condition => Factor tokens ∧
      readFactor (readCondition (depth + 2)) tokens = some condition) tokens conditions)
    (hholds : ∀ row, table.IsKey (table.rowKey row) → List.Forall₂ (fun condition value =>
      condition.holds server.order row = some value) conditions (values.map (· row)))
    {row : Text → Text} (hrow : table.IsKey (table.rowKey row)) :
    whereHolds server.order row predicates = some (values.all (· row)) := by
  unfold whereHolds
  cases htokens with
  | nil =>
    cases hread 0
    have hnone := hholds row hrow
    rw [List.forall₂_nil_left_iff, List.map_eq_nil_iff] at hnone
    simp [hnone]
  | @cons text first predicates tokens hfirst hmore =>
    have hall : List.Forall₂ ReadsAs (text :: predicates) (first :: tokens) :=
      .cons hfirst.1 (List.Forall₂.imp (fun _ _ h => h.1) hmore)
    have htext := (ReadsAs.intercalate (by decide) readsAs_and hall).textTokens
    have hlength : 3 ≤ ([conjunctionWord].intercalate (first :: tokens)).length := by
      cases tokens with
      | nil => simpa using hfirst.2
      | cons second tokens =>
        rw [List.intercalate_cons_cons, List.length_append, List.length_append]
        omega
    obtain ⟨depth, hdepth⟩ := Nat.exists_eq_add_of_le hlength
    have hcondition : conditionOf (" AND ".toList.intercalate (text :: predicates)) =
        joined .and conditions := by
      unfold conditionOf
      rw [show " AND ".toList = ' ' :: "AND ".toList from rfl, htext]
      simp only [Option.bind_eq_bind, Option.bind_some, hdepth]
      rw [show 3 + depth = depth + 2 + 1 by omega]
      exact readCondition_conjunction (by simp) (hread depth)
    have hconditions : conditions ≠ [] := by
      rintro rfl
      cases hread 0
    obtain ⟨condition, hjoined, htrue⟩ := holds_joined_and hconditions (hholds row hrow)
    rw [List.isEmpty_cons, if_neg (by decide), hcondition, hjoined]
    simp [htrue, List.all_map]

/-- A request whose bounds are keys of the table. -/
structure BoundedBy (table : SyncSelectTable) (startAfter endAt : Option PrimaryKey) : Prop where
  startAfter : ∀ bound ∈ startAfter, table.IsKey bound.texts
  endAt : ∀ bound ∈ endAt, table.IsKey bound.texts

/-- The predicates of a request hold for the rows with a key between its bounds. -/
theorem syncBoundPredicates_spec (server : ServerOrder table) (htable : Orderable table)
    {request : SyncChunkReadRequest} (hrequest : BoundedBy table request.startAfter request.endAt) :
    ∃ predicates, syncBoundPredicates table request = some predicates ∧
      ∀ row, table.IsKey (table.rowKey row) → whereHolds server.order row predicates =
        some (decide (InBounds table server request.startAfter request.endAt
          (table.rowKey row))) := by
  obtain ⟨startAfter, endAt, limit⟩ := request
  cases startAfter with
  | none =>
    cases endAt with
    | none =>
      refine ⟨[], rfl, fun row hrow => ?_⟩
      simp [whereHolds, InBounds]
    | some last =>
      obtain ⟨text, tokens, condition, htext, hmeans⟩ :=
        exists_predicate server htable (hrequest.endAt last rfl)
      refine ⟨["NOT ".toList ++ text], by
        simp only [syncBoundPredicates, Option.toList, List.mapM_cons, List.mapM_nil, htext]
        rfl, fun row hrow => ?_⟩
      rw [@whereHolds_of_means table server _ [_] [_] [_] (.cons ⟨hmeans.not.reads, hmeans.not.long⟩ .nil)
        (fun depth => .cons ⟨hmeans.not.factor, hmeans.not.read depth⟩ .nil)
        (fun row hrow => .cons (hmeans.not.holds row hrow) .nil) row hrow]
      rw [Option.some.injEq, Bool.eq_iff_iff, decide_eq_true_iff]
      simp [InBounds]
  | some first =>
    obtain ⟨text, tokens, condition, htext, hmeans⟩ :=
      exists_predicate server htable (hrequest.startAfter first rfl)
    cases endAt with
    | none =>
      refine ⟨[text], by
        simp only [syncBoundPredicates, Option.toList, List.mapM_cons, List.mapM_nil, htext]
        rfl, fun row hrow => ?_⟩
      rw [@whereHolds_of_means table server _ [_] [_] [_] (.cons ⟨hmeans.reads, hmeans.long⟩ .nil)
        (fun depth => .cons ⟨hmeans.factor, hmeans.read depth⟩ .nil)
        (fun row hrow => .cons (hmeans.holds row hrow) .nil) row hrow]
      rw [Option.some.injEq, Bool.eq_iff_iff, decide_eq_true_iff]
      simp [InBounds]
    | some last =>
      obtain ⟨text', tokens', condition', htext', hmeans'⟩ :=
        exists_predicate server htable (hrequest.endAt last rfl)
      refine ⟨[text, "NOT ".toList ++ text'], by
        simp only [syncBoundPredicates, Option.toList, List.mapM_cons, List.mapM_nil, htext, htext']
        rfl,
        fun row hrow => ?_⟩
      rw [@whereHolds_of_means table server _ [_, _] [_, _] [_, _]
        (.cons ⟨hmeans.reads, hmeans.long⟩ (.cons ⟨hmeans'.not.reads, hmeans'.not.long⟩ .nil))
        (fun depth => .cons ⟨hmeans.factor, hmeans.read depth⟩
          (.cons ⟨hmeans'.not.factor, hmeans'.not.read depth⟩ .nil))
        (fun row hrow => .cons (hmeans.holds row hrow) (.cons (hmeans'.not.holds row hrow) .nil))
        row hrow]
      rw [Option.some.injEq, Bool.eq_iff_iff, decide_eq_true_iff]
      simp [InBounds]

/-! ## The order of the rows -/

/-- The sides that the ORDER BY lists. -/
theorem operandsOf_orderBy (htable : Orderable table) :
    operandsOf (primaryKeyOrderBy table.primaryKey table.primaryKeyOrdering) =
      some ((table.primaryKey.zip table.primaryKeyOrdering).map fun (column, ordering) =>
        orderOperand column ordering) := by
  generalize hcolumns : table.primaryKey.zip table.primaryKeyOrdering = columns
  have hne : columns ≠ [] := by
    rw [← hcolumns, ← List.length_pos_iff, List.length_zip, htable.length, Nat.min_self]
    exact List.length_pos_iff.mpr htable.nonempty
  have hlabelled : ∀ column ∈ columns, Labelled column.2 := by
    intro column hcolumn
    rw [← hcolumns] at hcolumn
    exact htable.labelled _ (List.of_mem_zip hcolumn).2
  have hreads : ReadsAs (primaryKeyOrderBy table.primaryKey table.primaryKeyOrdering)
      ([TextToken.symbol ','].intercalate (columns.map fun (column, ordering) =>
        orderTokens column ordering)) := by
    rw [primaryKeyOrderBy, hcolumns]
    refine ReadsAs.intercalate (by decide) (fun text tokens h => h.blank.symbol (by decide)) ?_
    rw [List.forall₂_map_left_iff, List.forall₂_map_right_iff, List.forall₂_same]
    exact fun column _ => readsAs_order column.1 column.2
  have hsplit := @splitOutside_intercalate (.symbol ',')
    (columns.map fun (column, ordering) => orderTokens column ordering) (by simpa using hne) (by
      intro part hpart
      obtain ⟨column, -, rfl⟩ := List.mem_map.mp hpart
      exact unsplit_orderTokens column.1 column.2)
  unfold operandsOf
  rw [hreads.textTokens]
  simp only [Option.bind_eq_bind, Option.bind_some, hsplit]
  refine mapM_eq_some ?_
  rw [List.forall₂_map_left_iff, List.forall₂_map_right_iff, List.forall₂_same]
  intro column hcolumn
  have hread := @readOperand_order column.1 column.2 (hlabelled column hcolumn) []
  rw [List.append_nil] at hread
  simp [hread]

/-- The ORDER BY sorts by key. -/
theorem orderRows_orderBy (order : Text → Text → Text → Ordering) (row row' : Text → Text) :
    orderRows order row row' ((table.primaryKey.zip table.primaryKeyOrdering).map
      fun (column, ordering) => orderOperand column ordering) =
      keyCompare order (table.primaryKey.zip table.primaryKeyOrdering) (table.rowKey row)
        (table.rowKey row') := by
  unfold SyncSelectTable.rowKey
  generalize table.primaryKeyOrdering = orderings
  induction table.primaryKey generalizing orderings with
  | nil => rfl
  | cons column columns ih =>
    cases orderings with
    | nil => rfl
    | cons ordering orderings =>
      simp only [List.zip_cons_cons, List.map_cons, orderRows, keyCompare, List.headD_cons,
        List.tail_cons, ih]
      cases ordering <;> rfl

/-! ## Pages -/

section Pages

variable {ρ : Type}

/-- The server answers with the first rows for which the bounds hold, in the order of the ORDER
BY. -/
def Answers (table : SyncSelectTable) (server : ServerOrder table) (cells : ρ → Text → Text)
    (rows : List ρ) (request : SyncChunkReadRequest) (answer : List ρ) : Prop :=
  ∃ predicates operands, ∃ sorted : List ρ, syncBoundPredicates table request = some predicates ∧
    operandsOf (primaryKeyOrderBy table.primaryKey table.primaryKeyOrdering) = some operands ∧
    sorted.Perm (rows.filter fun row =>
      whereHolds server.order (cells row) predicates == some true) ∧
    sorted.Pairwise (fun row row' =>
      orderRows server.order (cells row) (cells row') operands ≠ .gt) ∧
    answer = sorted.take request.limit

/-- The primary key of a row. -/
def rowPrimaryKey (table : SyncSelectTable) (row : Text → Text) : PrimaryKey :=
  ⟨(table.rowKey row).map String.ofList⟩

/-- Read pages, each after the last key of the one before, to the first page without rows. -/
def readPages (table : SyncSelectTable) (cells : ρ → Text → Text)
    (select : SyncChunkReadRequest → List ρ) (endAt : Option PrimaryKey) (limit : Nat) :
    Nat → Option PrimaryKey → List (List ρ)
  | 0, _ => []
  | fuel + 1, startAfter =>
    let page := select ⟨startAfter, endAt, limit⟩
    match page.getLast? with
    | none => []
    | some last =>
      page :: readPages table cells select endAt limit fuel
        (some (rowPrimaryKey table (cells last)))

variable {cells : ρ → Text → Text} {rows : List ρ}

/-- Every row has a key of the table, and the keys are different. -/
structure KeyedRows (table : SyncSelectTable) (server : ServerOrder table)
    (cells : ρ → Text → Text) (rows : List ρ) : Prop where
  keys : ∀ row ∈ rows, table.IsKey (table.rowKey (cells row))
  different : rows.Pairwise fun row row' =>
    table.compareKeys server (table.rowKey (cells row)) (table.rowKey (cells row')) ≠ .eq

/-- The rows between bounds. -/
def rowsBetween (table : SyncSelectTable) (server : ServerOrder table) (cells : ρ → Text → Text)
    (rows : List ρ) (startAfter endAt : Option PrimaryKey) : List ρ :=
  rows.filter fun row => InBounds table server startAfter endAt (table.rowKey (cells row))

theorem texts_rowPrimaryKey (row : Text → Text) :
    (rowPrimaryKey table row).texts = table.rowKey row := by
  simp [rowPrimaryKey, PrimaryKey.texts, Function.comp_def]

/-- An answer is the first part of the rows between the bounds in strict key order. -/
theorem Answers.sorted (htable : Orderable table) (hrows : KeyedRows table server cells rows)
    {request : SyncChunkReadRequest} (hrequest : BoundedBy table request.startAfter request.endAt)
    {answer : List ρ} (h : Answers table server cells rows request answer) :
    ∃ sorted : List ρ, sorted.Perm (rowsBetween table server cells rows request.startAfter request.endAt) ∧
      sorted.Pairwise (fun row row' => table.compareKeys server (table.rowKey (cells row))
        (table.rowKey (cells row')) = .lt) ∧ answer = sorted.take request.limit := by
  obtain ⟨predicates, operands, sorted, hpredicates, hoperands, hperm, hsorted, hanswer⟩ := h
  obtain ⟨predicates', hpredicates', hholds⟩ := syncBoundPredicates_spec server htable hrequest
  obtain rfl : predicates' = predicates := Option.some.inj (hpredicates'.symm.trans hpredicates)
  rw [operandsOf_orderBy htable, Option.some.injEq] at hoperands
  subst hoperands
  have hselected : (rows.filter fun row =>
      whereHolds server.order (cells row) predicates' == some true) =
      rowsBetween table server cells rows request.startAfter request.endAt := by
    refine List.filter_congr fun row hrow => ?_
    rw [hholds (cells row) (hrows.keys row hrow), Bool.eq_iff_iff]
    simp
  rw [hselected] at hperm
  refine ⟨sorted, hperm, ?_, hanswer⟩
  have htotal := transCmp_keyCompare server (table.primaryKey.zip table.primaryKeyOrdering)
  have hdifferent : sorted.Pairwise fun row row' => table.compareKeys server
      (table.rowKey (cells row)) (table.rowKey (cells row')) ≠ .eq := by
    refine (hperm.pairwise_iff fun {row row'} hne heq => hne ?_).mpr (hrows.different.filter _)
    exact htotal.eq_symm heq
  refine (hsorted.and hdifferent).imp fun {row row'} h => ?_
  rw [orderRows_orderBy] at h
  unfold SyncSelectTable.compareKeys at h ⊢
  cases hcompare : keyCompare server.order (table.primaryKey.zip table.primaryKeyOrdering)
      (table.rowKey (cells row)) (table.rowKey (cells row')) with
  | lt => rfl
  | eq => exact absurd hcompare h.2
  | gt => exact absurd hcompare h.1

/-- The rows after the last key of a page are the rows that the page left. -/
theorem perm_rowsBetween_after_page {startAfter endAt : Option PrimaryKey} {page rest : List ρ}
    {last : ρ} (hperm : (page ++ rest).Perm (rowsBetween table server cells rows startAfter endAt))
    (hsorted : (page ++ rest).Pairwise (fun row row' => table.compareKeys server
      (table.rowKey (cells row)) (table.rowKey (cells row')) = .lt))
    (hlast : page.getLast? = some last) :
    rest.Perm (rowsBetween table server cells rows (some (rowPrimaryKey table (cells last)))
      endAt) := by
  have htotal := transCmp_keyCompare server (table.primaryKey.zip table.primaryKeyOrdering)
  let after : ρ → Bool := fun row => table.compareKeys server (table.rowKey (cells row))
    (table.rowKey (cells last)) == .gt
  obtain ⟨front, rfl⟩ : ∃ front, page = front ++ [last] := List.getLast?_eq_some_iff.mp hlast
  obtain ⟨hfront, hrest, hcross⟩ := List.pairwise_append.mp hsorted
  have hlastMem : last ∈ rowsBetween table server cells rows startAfter endAt :=
    hperm.mem_iff.mp (by simp)
  have hbounds : InBounds table server startAfter endAt (table.rowKey (cells last)) :=
    of_decide_eq_true (List.mem_filter.mp hlastMem).2
  have hfiltered : (front ++ [last] ++ rest).filter after = rest := by
    have hbefore : (front ++ [last]).filter after = [] := by
      refine List.filter_eq_nil_iff.mpr fun row hrow => ?_
      rcases List.mem_append.mp hrow with hrow | hrow
      · have hlt := (List.pairwise_append.mp hfront).2.2 row hrow last (by simp)
        simp [after, hlt]
      · obtain rfl := List.mem_singleton.mp hrow
        have hself : table.compareKeys server (table.rowKey (cells row))
            (table.rowKey (cells row)) = .eq :=
          Ordering.eq_eq_of_eq_swap htotal.eq_swap
        simp [after, hself]
    have hafter : rest.filter after = rest := by
      refine List.filter_eq_self.mpr fun row hrow => ?_
      have hlt := hcross last (by simp) row hrow
      have hgt : table.compareKeys server (table.rowKey (cells row)) (table.rowKey (cells last)) =
          .gt := htotal.gt_of_lt hlt
      simp [after, hgt]
    rw [List.filter_append, hbefore, hafter, List.nil_append]
  have hwindow : (rowsBetween table server cells rows startAfter endAt).filter after =
      rowsBetween table server cells rows (some (rowPrimaryKey table (cells last))) endAt := by
    unfold rowsBetween
    rw [List.filter_filter]
    refine List.filter_congr fun row _ => ?_
    rw [Bool.eq_iff_iff]
    simp only [after, InBounds, Bool.and_eq_true, beq_iff_eq, decide_eq_true_eq, Option.mem_def,
      Option.some.injEq, forall_eq', texts_rowPrimaryKey]
    constructor
    · rintro ⟨hafter, -, hend⟩
      exact ⟨hafter, hend⟩
    · rintro ⟨hafter, hend⟩
      exact ⟨hafter, fun bound hbound => htotal.gt_trans hafter (hbounds.1 bound hbound), hend⟩
  rw [← hwindow, ← hfiltered]
  exact hperm.filter after

/-- Page after page every row between the bounds is read once. -/
theorem perm_flatten_readPages (htable : Orderable table)
    (hrows : KeyedRows table server cells rows) {select : SyncChunkReadRequest → List ρ}
    (hselect : ∀ request, BoundedBy table request.startAfter request.endAt →
      Answers table server cells rows request (select request))
    {endAt : Option PrimaryKey} {limit : Nat} (hlimit : 0 < limit) (fuel : Nat)
    {startAfter : Option PrimaryKey} (hbounds : BoundedBy table startAfter endAt)
    (hfuel : (rowsBetween table server cells rows startAfter endAt).length < fuel) :
    (readPages table cells select endAt limit fuel startAfter).flatten.Perm
      (rowsBetween table server cells rows startAfter endAt) := by
  induction fuel generalizing startAfter with
  | zero => omega
  | succ fuel ih =>
    obtain ⟨sorted, hperm, hsorted, hpage⟩ := (hselect ⟨startAfter, endAt, limit⟩ hbounds).sorted
      htable hrows hbounds
    rw [readPages]
    dsimp only at hperm hpage ⊢
    rw [hpage]
    cases hlast : (sorted.take limit).getLast? with
    | none =>
      have hnil : sorted = [] := by
        rw [List.getLast?_eq_none_iff, List.take_eq_nil_iff] at hlast
        exact hlast.resolve_left hlimit.ne'
      rw [hnil] at hperm
      simpa using hperm
    | some last =>
      have hrest := perm_rowsBetween_after_page (by rwa [List.take_append_drop])
        (by rwa [List.take_append_drop]) hlast
      have hmem : last ∈ rows := by
        have htake := List.mem_of_mem_take (List.mem_of_getLast? hlast)
        exact List.mem_of_mem_filter (hperm.mem_iff.mp htake)
      have hnext : BoundedBy table (some (rowPrimaryKey table (cells last))) endAt := by
        refine ⟨fun bound hbound => ?_, hbounds.endAt⟩
        obtain rfl := Option.some.inj hbound
        rw [texts_rowPrimaryKey]
        exact hrows.keys last hmem
      have hshorter : (rowsBetween table server cells rows
          (some (rowPrimaryKey table (cells last))) endAt).length < fuel := by
        have htaken : 0 < (sorted.take limit).length :=
          List.length_pos_of_mem (List.mem_of_getLast? hlast)
        have hlength := hperm.length_eq
        rw [← hrest.length_eq, List.length_drop]
        rw [List.length_take] at htaken
        omega
      rw [List.flatten_cons]
      refine ((List.Perm.append_left _ ((ih hnext hshorter).trans hrest.symm))).trans ?_
      rwa [List.take_append_drop]

/-- A server that sorts what it selects. -/
def serverSelect (table : SyncSelectTable) (server : ServerOrder table) (cells : ρ → Text → Text)
    (rows : List ρ) (request : SyncChunkReadRequest) : List ρ :=
  let predicates := (syncBoundPredicates table request).getD []
  let operands := (operandsOf (primaryKeyOrderBy table.primaryKey table.primaryKeyOrdering)).getD []
  ((rows.filter fun row => whereHolds server.order (cells row) predicates == some true).mergeSort
    fun row row' => orderRows server.order (cells row) (cells row') operands != .gt).take
      request.limit

theorem answers_serverSelect (htable : Orderable table) {request : SyncChunkReadRequest}
    (hrequest : BoundedBy table request.startAfter request.endAt) :
    Answers table server cells rows request (serverSelect table server cells rows request) := by
  obtain ⟨predicates, hpredicates, -⟩ := syncBoundPredicates_spec server htable hrequest
  have htotal := transCmp_keyCompare server (table.primaryKey.zip table.primaryKeyOrdering)
  refine ⟨predicates, _, _, hpredicates, operandsOf_orderBy htable, List.mergeSort_perm _
    fun row row' => orderRows server.order (cells row) (cells row')
      ((table.primaryKey.zip table.primaryKeyOrdering).map fun (column, ordering) =>
        orderOperand column ordering) != .gt, ?_, ?_⟩
  · refine (List.pairwise_mergeSort ?_ ?_ _).imp fun {row row'} h => by simpa using h
    · intro a b c hab hbc
      simp only [orderRows_orderBy, bne_iff_ne, Ordering.ne_gt_iff_isLE] at hab hbc ⊢
      exact htotal.isLE_trans hab hbc
    · intro a b
      simp only [orderRows_orderBy, Bool.or_eq_true, bne_iff_ne]
      by_contra hcontra
      push Not at hcontra
      have hlt := htotal.lt_of_gt hcontra.1
      rw [hcontra.2] at hlt
      cases hlt
  · simp [serverSelect, hpredicates, operandsOf_orderBy htable]

end Pages

/-- For every table whose key can be ordered and every total order of its key columns: the
predicates of a request hold exactly for the rows whose key is greater than the cursor and not
greater than the bound, in the lexicographic order that the ORDER BY sorts by; and pages of any
positive size, each after the last key of the one before, visit every row between the bounds
exactly once. -/
theorem sync_bounds_visit_every_row_once (table : SyncSelectTable) (htable : Orderable table)
    (server : ServerOrder table) :
    (∀ request : SyncChunkReadRequest, BoundedBy table request.startAfter request.endAt →
      ∃ predicates, syncBoundPredicates table request = some predicates ∧
        ∀ row, table.IsKey (table.rowKey row) → whereHolds server.order row predicates =
          some (decide (InBounds table server request.startAfter request.endAt
            (table.rowKey row)))) ∧
    (∃ operands, operandsOf (primaryKeyOrderBy table.primaryKey table.primaryKeyOrdering) =
      some operands ∧ ∀ row row', orderRows server.order row row' operands =
        table.compareKeys server (table.rowKey row) (table.rowKey row')) ∧
    ∀ (ρ : Type) (cells : ρ → Text → Text) (rows : List ρ), KeyedRows table server cells rows →
      ∀ select : SyncChunkReadRequest → List ρ,
        (∀ request, BoundedBy table request.startAfter request.endAt →
          Answers table server cells rows request (select request)) →
        ∀ (startAfter endAt : Option PrimaryKey) (limit fuel : Nat),
          BoundedBy table startAfter endAt → 0 < limit → rows.length < fuel →
            (readPages table cells select endAt limit fuel startAfter).flatten.Perm
              (rowsBetween table server cells rows startAfter endAt) := by
  refine ⟨fun request hrequest => syncBoundPredicates_spec server htable hrequest, ?_, ?_⟩
  · exact ⟨_, operandsOf_orderBy htable, fun row row' => orderRows_orderBy server.order row row'⟩
  · intro ρ cells rows hrows select hselect startAfter endAt limit fuel hbounds hlimit hfuel
    exact perm_flatten_readPages htable hrows hselect hlimit fuel hbounds
      ((List.length_filter_le _ _).trans_lt hfuel)

/-- A table with a composite key. -/
def episodesTable : SyncSelectTable where
  name := "episodes"
  primaryKey := ["series_id", "state"]
  columns := ["series_id", "state"]
  enumColumns := [("state", ["draft", "live"])]
  columns_nodup := by decide
  primaryKeyOrdering := [.native, .enum ["draft", "live"]]
  bitColumns := []
  mediumblobColumns := []

/-- The character order of every column. -/
def characterOrder (table : SyncSelectTable) : ServerOrder table where
  order := fun _ => List.compareLex compare
  total := fun _ => inferInstance
  labels := fun _ _ _ _ _ _ _ => Std.LawfulEqCmp.compare_eq_iff_eq

/-- A row is the texts of its two columns. -/
def episodeCells (row : Text × Text) (column : Text) : Text :=
  if column = "series_id".toList then row.1 else row.2

def episodeRows : List (Text × Text) :=
  [("7".toList, "live".toList), ("7".toList, "draft".toList)]

theorem orderable_episodesTable : Orderable episodesTable where
  nonempty := by decide
  length := rfl
  labelled := by simp [episodesTable, Labelled]

theorem sync_bounds_visit_two_episodes :
    (readPages episodesTable episodeCells (serverSelect episodesTable
      (characterOrder episodesTable) episodeCells episodeRows) none 1 3 none).flatten.Perm
        episodeRows := by
  have hrows : KeyedRows episodesTable (characterOrder episodesTable) episodeCells episodeRows := by
    constructor
    · intro row hrow
      simp only [episodeRows, List.mem_cons, List.not_mem_nil, or_false] at hrow
      rcases hrow with rfl | rfl
      · exact .cons trivial (.cons (.inl (by decide)) .nil)
      · exact .cons trivial (.cons (.inl (by decide)) .nil)
    · decide
  exact (sync_bounds_visit_every_row_once episodesTable orderable_episodesTable
    (characterOrder episodesTable)).2.2 _ episodeCells episodeRows hrows _
      (fun request hrequest => answers_serverSelect orderable_episodesTable hrequest) none none 1 3
      ⟨by simp, by simp⟩ (by decide) (by decide)

/-- A table without a key. -/
def keylessTable : SyncSelectTable where
  name := "episodes"
  primaryKey := []
  columns := ["title"]
  enumColumns := []
  columns_nodup := by decide
  primaryKeyOrdering := []
  bitColumns := []
  mediumblobColumns := []

/-- Without key columns the predicate is an empty text, which is no condition. -/
theorem sync_bounds_without_key :
    keylessTable.primaryKey.length = keylessTable.primaryKeyOrdering.length ∧
      syncBoundPredicates keylessTable ⟨some ⟨[]⟩, none, 10⟩ = some [[]] ∧
      ∀ row, whereHolds (characterOrder keylessTable).order row [[]] = none := by
  refine ⟨rfl, rfl, fun row => ?_⟩
  have hread : conditionOf [] = none := rfl
  simp [whereHolds, List.intercalate_singleton, hread]

end BinlogCdc
