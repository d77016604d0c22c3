import BinlogCdc.Stream.TableDefinition

/-!
# Rows mapped by the schema of their table

The texts that a server prints for a type are read back, so that the inventory and the table map give
the schema of the table as far as they know it. The values of a row are exact then, and only then, if
the schema knows what their types need.
-/

namespace BinlogCdc

/-! ## The texts of a type -/

theorem characterCode_serverLabelCharacter (c : Char) :
    CharacterCode (serverLabelCharacter c) (readLabelCharacter c) := by
  unfold serverLabelCharacter readLabelCharacter
  by_cases hzero : c = Char.ofNat 0
  · rw [if_pos hzero, if_pos hzero]
    exact .escaped '0'
  by_cases hline : c = '\n'
  · rw [if_neg hzero, if_neg hzero, if_pos hline, if_pos hline]
    exact .escaped 'n'
  by_cases hreturn : c = '\r'
  · rw [if_neg hzero, if_neg hzero, if_neg hline, if_neg hline, if_pos hreturn, if_pos hreturn]
    exact .escaped 'r'
  · rw [if_neg hzero, if_neg hzero, if_neg hline, if_neg hline, if_neg hreturn, if_neg hreturn]
    exact characterCode_doubleQuotesAndBackslashes c

theorem readLabelCharacter_eq_iff (c : Char) :
    readLabelCharacter c = c ↔ c ≠ Char.ofNat 0 ∧ c ≠ '\n' ∧ c ≠ '\r' := by
  unfold readLabelCharacter
  by_cases hzero : c = Char.ofNat 0
  · subst hzero
    decide
  by_cases hline : c = '\n'
  · subst hline
    decide
  by_cases hreturn : c = '\r'
  · subst hreturn
    decide
  simp [hzero, hline, hreturn]

/-- A label is read as it is if no character of it is escaped as a letter or a digit. -/
theorem readLabel_eq_iff (label : String) : readLabel label = label ↔ PlainLabel label := by
  have htext : readLabel label = label ↔ label.toList.map readLabelCharacter = label.toList := by
    rw [readLabel, ← String.toList_inj, String.toList_ofList]
  rw [htext, PlainLabel]
  induction label.toList with
  | nil => simp
  | cons c text ih =>
    rw [List.map_cons, List.cons_eq_cons, readLabelCharacter_eq_iff, List.forall_mem_cons]
    exact and_congr Iff.rfl ih

theorem parseEnumColumnType_of_not_prefix {columnType : String}
    (h : "enum(".toList.isPrefixOf columnType.toList = false) : parseEnumColumnType columnType = none := by
  rw [parseEnumColumnType_eq, parseLabelColumnType]
  simp only [h, Bool.false_eq_true, if_false]

theorem isPrefixOf_enum_of_head {columnType : String} {c : Char} (hc : c ≠ 'e')
    (h : columnType.toList.head? = some c) : "enum(".toList.isPrefixOf columnType.toList = false := by
  cases htext : columnType.toList with
  | nil => rfl
  | cons d text =>
    rw [htext] at h
    obtain rfl : d = c := Option.some.inj h
    show ('e' :: ['n', 'u', 'm', '(']).isPrefixOf (d :: text) = false
    rw [List.isPrefixOf_cons_cons, beq_false_of_ne hc.symm, Bool.false_and]

theorem dataType_ne_of_forall {dataType : String} (h : ∀ width : IntegerWidth, dataType ≠ width.dataType)
    (columnType : String) : isSignedIntegerColumn dataType columnType = false := by
  have hnames : ["tinyint", "smallint", "mediumint", "int", "bigint"].contains dataType = false := by
    have htiny := h .tiny
    have hsmall := h .small
    have hmedium := h .medium
    have hint := h .int
    have hbig := h .big
    simp only [IntegerWidth.dataType] at htiny hsmall hmedium hint hbig
    simp [htiny, hsmall, hmedium, hint, hbig]
  rw [isSignedIntegerColumn, hnames, Bool.false_and]

namespace PrintsType

variable {type : SourceColumnType} {dataType columnType : String}

theorem isSignedIntegerColumn (h : PrintsType type dataType columnType) :
    isSignedIntegerColumn dataType columnType = type.isSignedInteger := by
  cases type with
  | integer width unsigned =>
    obtain ⟨rfl, -, hunsigned⟩ := h
    have hname : ["tinyint", "smallint", "mediumint", "int", "bigint"].contains width.dataType = true := by
      cases width <;> decide
    rw [BinlogCdc.isSignedIntegerColumn, hname, hunsigned]
    rfl
  | enum labels =>
    obtain ⟨rfl, -⟩ := h
    exact dataType_ne_of_forall (fun width => by cases width <;> decide) columnType
  | set members =>
    obtain ⟨rfl, -⟩ := h
    exact dataType_ne_of_forall (fun width => by cases width <;> decide) columnType
  | _ => exact dataType_ne_of_forall h.1 columnType

theorem parseEnumColumnType (h : PrintsType type dataType columnType) :
    parseEnumColumnType columnType = type.readLabels readLabel := by
  cases type with
  | integer width unsigned =>
    obtain ⟨-, hprefix, -⟩ := h
    obtain ⟨rest, hrest⟩ := List.isPrefixOf_iff_prefix.mp hprefix
    apply parseEnumColumnType_of_not_prefix
    obtain ⟨c, hc, hhead⟩ : ∃ c, c ≠ 'e' ∧ width.dataType.toList.head? = some c := by
      cases width <;> exact ⟨_, by decide, rfl⟩
    refine isPrefixOf_enum_of_head hc ?_
    rw [← hrest, List.head?_append, hhead]
    rfl
  | enum labels =>
    obtain ⟨-, rfl⟩ := h
    rw [parseEnumColumnType_eq, parseLabelColumnType_labelColumnType characterCode_serverLabelCharacter]
    rfl
  | set members =>
    obtain ⟨-, rfl⟩ := h
    apply parseEnumColumnType_of_not_prefix
    refine @isPrefixOf_enum_of_head _ 's' (by decide) ?_
    rw [labelColumnType, String.toList_ofList]
    rfl
  | _ => exact parseEnumColumnType_of_not_prefix h.2

end PrintsType

/-! ## Columns with labels -/

theorem map_fst_labelled {α : Type} (name : α → String) (labels : α → Option (List String))
    (columns : List α) :
    (columns.filterMap fun column => (labels column).map (name column, ·)).map Prod.fst =
      (columns.filter fun column => (labels column).isSome).map name := by
  induction columns with
  | nil => rfl
  | cons column columns ih =>
    cases hlabels : labels column with
    | none => simpa [hlabels] using ih
    | some values => simpa [hlabels] using ih

theorem lookup_eq_some_of_mem {entries : List (String × List String)} {name : String}
    {labels : List String} (hnodup : (entries.map Prod.fst).Nodup) (h : (name, labels) ∈ entries) :
    entries.lookup name = some labels := by
  induction entries with
  | nil => cases h
  | cons entry entries ih =>
    obtain ⟨key, values⟩ := entry
    rw [List.map_cons, List.nodup_cons] at hnodup
    rw [List.lookup_cons]
    rcases List.mem_cons.mp h with heq | hmem
    · cases heq
      simp
    · have hne : (name == key) = false := by
        apply beq_false_of_ne
        intro heq
        exact hnodup.1 (List.mem_map.mpr ⟨(name, labels), hmem, heq⟩)
      rw [hne]
      exact ih hnodup.2 hmem

/-- In columns of different names each finds its own labels. -/
theorem lookup_collectLabels {entries : List (String × List String)} {name : String}
    {labels : List String} (hnodup : (entries.map Prod.fst).Nodup) (h : (name, labels) ∈ entries) :
    (collectLabels entries).lookup name = some labels := by
  refine lookup_eq_some_of_mem ?_ (List.mem_reverse.mpr h)
  rw [collectLabels, List.map_reverse, List.nodup_reverse]
  exact hnodup

namespace TableDefinition

variable {definition : TableDefinition}

theorem nodup_enumColumns : (definition.enumColumns.map Prod.fst).Nodup := by
  rw [enumColumns, map_fst_labelled]
  exact definition.nodup.sublist (List.filter_sublist.map _)

theorem mem_enumColumns {column : ColumnDefinition} (hcolumn : column ∈ definition.columns)
    {labels : List String} (h : column.type.labels = some labels) :
    (column.name, labels) ∈ definition.enumColumns :=
  List.mem_filterMap.mpr ⟨column, hcolumn, by rw [h]; rfl⟩

/-- A column is found by its name. -/
theorem mem_signedColumns_iff {column : ColumnDefinition} (hcolumn : column ∈ definition.columns) :
    column.name ∈ definition.signedColumns ↔ column.isSigned = true := by
  constructor
  · intro h
    obtain ⟨other, hother, hname⟩ := List.mem_map.mp h
    obtain ⟨hmem, hsigned⟩ := List.mem_filter.mp hother
    rwa [← List.inj_on_of_nodup_map definition.nodup hmem hcolumn hname]
  · intro h
    exact List.mem_map_of_mem (List.mem_filter.mpr ⟨hcolumn, h⟩)

end TableDefinition

/-! ## The schema of an inventory -/

section Columns

variable {columns : List ColumnDefinition} {found : List ColumnInventory}
variable (h : List.Forall₂ DescribesColumn columns found)
include h

theorem names_of_describes : found.map (·.name) = columns.map (·.name) := by
  induction h with
  | nil => rfl
  | cons hcolumn _ ih => rw [List.map_cons, List.map_cons, hcolumn.1, ih]

theorem generated_of_describes :
    (found.filter fun column => column.generated.isSome).map (·.name) =
      (columns.filter (·.generated)).map (·.name) := by
  induction h with
  | nil => rfl
  | cons hcolumn _ ih =>
    obtain ⟨hname, hgenerated, -⟩ := hcolumn
    rw [List.filter_cons, List.filter_cons, hgenerated]
    split
    · rw [List.map_cons, List.map_cons, hname, ih]
    · exact ih

theorem signed_of_describes :
    (found.filter fun column => isSignedIntegerColumn column.dataType column.columnType).map (·.name) =
      (columns.filter (·.isSigned)).map (·.name) := by
  induction h with
  | nil => rfl
  | cons hcolumn _ ih =>
    obtain ⟨hname, -, htype⟩ := hcolumn
    rw [List.filter_cons, List.filter_cons, htype.isSignedIntegerColumn, ColumnDefinition.isSigned]
    split
    · rw [List.map_cons, List.map_cons, hname, ih]
    · exact ih

theorem labels_of_describes :
    (found.filterMap fun column => (parseEnumColumnType column.columnType).map (column.name, ·)) =
      columns.filterMap fun column => (column.type.readLabels readLabel).map (column.name, ·) := by
  induction h with
  | nil => rfl
  | cons hcolumn _ ih =>
    obtain ⟨hname, -, htype⟩ := hcolumn
    rw [List.filterMap_cons, List.filterMap_cons, htype.parseEnumColumnType, hname, ih]

end Columns

/-- What is known of the schema of a table, by its inventory and by the labels of its table map. -/
structure ResolvedAs (definition : TableDefinition) (answered announced : Bool)
    (schema : ResolvedTableSchema) : Prop where
  columns : schema.columns = definition.columnNames
  primaryKey : schema.primaryKey = definition.primaryKey
  generatedColumns : schema.generatedColumns = if answered then definition.generatedColumns else []
  signedColumns : schema.signedColumns = if answered then definition.signedColumns else []
  labels : ∀ column ∈ definition.columns, ∀ labels ∈ column.type.labels,
    schema.enumColumns.lookup column.name =
      if announced then some labels else if answered then some (labels.map readLabel) else none

variable {definition : TableDefinition} {schema : ResolvedTableSchema} {tableMap : MysqlCdcTableMapEvent}
  {resolver : TableSchemaResolver}

theorem resolvedAs_of_inventory {table : TableInventory} (hdescribes : Describes definition table)
    (h : buildInventoryTableSchema table = .ok schema) : ResolvedAs definition true false schema := by
  cases h
  refine ⟨names_of_describes hdescribes.columns, hdescribes.primaryKey,
    generated_of_describes hdescribes.columns, signed_of_describes hdescribes.columns, ?_⟩
  intro column hcolumn labels hlabels
  show (enumColumnValues table).lookup column.name = some (labels.map readLabel)
  rw [enumColumnValues, labels_of_describes hdescribes.columns]
  apply lookup_collectLabels
  · rw [map_fst_labelled]
    exact definition.nodup.sublist (List.filter_sublist.map _)
  · refine List.mem_filterMap.mpr ⟨column, hcolumn, ?_⟩
    rw [SourceColumnType.readLabels, hlabels]
    rfl

/-! ## The schema of the metadata -/

/-- The places of the columns with labels, with the labels, are the columns with their labels. -/
theorem labelEntries (isKind : UInt8 → UInt16 → Bool) (labels : ColumnDefinition → Option (List String))
    (names : List String) {columns : List ColumnDefinition} {codes : List (UInt8 × UInt16)}
    (hkinds : List.Forall₂ (fun column code => isKind code.1 code.2 = (labels column).isSome) columns
      codes) (start : Nat) (hnames : ∀ i, names[start + i]? = (columns.map (·.name))[i]?) :
    List.Forall₂ (fun (index : Nat) (entry : String × List String) => names[index]? = some entry.1)
      ((codes.zipIdx start).filterMap fun column =>
        if isKind column.1.1 column.1.2 then some column.2 else none)
      (columns.filterMap fun column => (labels column).map (column.name, ·)) := by
  induction hkinds generalizing start with
  | nil => exact .nil
  | @cons column code columns codes hkind _ ih =>
    have hrest := ih (start + 1) fun i => by
      rw [Nat.add_assoc, Nat.add_comm 1 i, hnames (i + 1), List.map_cons, List.getElem?_cons_succ]
    have hfirst : names[start]? = some column.name := hnames 0
    rw [List.zipIdx_cons]
    cases hlabels : labels column with
    | none =>
      have hnot : isKind code.1 code.2 = false := by rw [hkind, hlabels]; rfl
      rw [List.filterMap_cons_none (by simp only [hnot]; rfl), List.filterMap_cons_none (by rw [hlabels]; rfl)]
      exact hrest
    | some values =>
      have his : isKind code.1 code.2 = true := by rw [hkind, hlabels]; rfl
      rw [List.filterMap_cons_some (by simp only [his]; rfl), List.filterMap_cons_some (by rw [hlabels]; rfl)]
      exact .cons hfirst hrest

/-- The metadata of the columns of a kind are their labels. -/
theorem labelsFromMetadata_eq_ok (kind : String) {isKind : UInt8 → UInt16 → Bool}
    {labels : ColumnDefinition → Option (List String)}
    (hkinds : List.Forall₂ (fun column code => isKind code.1 code.2 = (labels column).isSome)
      definition.columns (tableMap.columnTypes.zip tableMap.columnMetadata)) :
    labelsFromMetadata kind isKind tableMap
        (some ((definition.columns.filterMap fun column => (labels column).map (column.name, ·)).map (·.2)))
        definition.columnNames =
      .ok (collectLabels (definition.columns.filterMap fun column =>
        (labels column).map (column.name, ·))) := by
  have hentries := labelEntries isKind labels definition.columnNames hkinds 0 fun i => by
    rw [Nat.zero_add, TableDefinition.columnNames]
  generalize (definition.columns.filterMap fun column => (labels column).map (column.name, ·)) = entries
    at hentries ⊢
  have hlength : (columnIndexes isKind tableMap).length = (entries.map (·.2)).length := by
    rw [List.length_map]
    exact hentries.length_eq
  rw [labelsFromMetadata]
  simp only [hlength, ne_eq, not_true_eq_false, if_false]
  refine bind_eq_ok.mpr ⟨entries, mapM_eq_ok.mpr ?_, rfl⟩
  rw [columnIndexes]
  clear hlength
  generalize ((tableMap.columnTypes.zip tableMap.columnMetadata).zipIdx.filterMap fun column =>
    if isKind column.1.1 column.1.2 then some column.2 else none) = indexes at hentries ⊢
  induction hentries with
  | nil => exact .nil
  | cons hentry _ ih =>
    refine .cons ?_ ih
    simp only [hentry]
    rfl

theorem primaryKeyFromMetadata_eq_ok {metadata : TableMetadata} {indexes : List UInt32}
    (hkeys : metadata.simplePrimaryKeys = some indexes)
    (h : indexes.map (fun index => definition.columnNames[index.toNat]?) =
      definition.primaryKey.map some) :
    primaryKeyFromMetadata metadata definition.columnNames = .ok (some definition.primaryKey) := by
  have hcolumns : indexes.mapM (primaryKeyColumn · definition.columnNames) =
      .ok definition.primaryKey := by
    rw [mapM_eq_ok]
    have hsame := List.forall₂_eq_eq_eq ▸ h
    rw [List.forall₂_map_left_iff, List.forall₂_map_right_iff] at hsame
    refine hsame.imp fun index column hcolumn => ?_
    rw [primaryKeyColumn, hcolumn]
  rw [primaryKeyFromMetadata, hkeys]
  simp only [hcolumns]
  rfl

/-- The fallback is what the resolver answered, and with no primary key in the metadata it is there. -/
theorem fallbackSchemaForMetadata_eq_ok {metadata : TableMetadata}
    {answer : Except ApplyBinlogError ResolvedTableSchema} {fallback : Option ResolvedTableSchema}
    (h : fallbackSchemaForMetadata metadata answer = .ok fallback) :
    fallback = answer.toOption ∧ (metadata.simplePrimaryKeys = none → answer.toOption.isSome = true) := by
  rw [fallbackSchemaForMetadata] at h
  split at h
  · rename_i hkeys
    refine ⟨(Except.ok.inj h).symm, fun hnone => ?_⟩
    rw [hnone] at hkeys
    cases hkeys
  · cases answer with
    | error failure => cases h
    | ok found => exact ⟨(Except.ok.inj h).symm, fun _ => rfl⟩

/-- The labels of the metadata if there are any, and else those of the fallback. -/
theorem lookup_labelsOrFallback (hmap : Announces definition tableMap) {metadata : TableMetadata}
    (hmetadata : tableMap.tableMetadata = some metadata)
    (hnames : metadata.columnNames = some definition.columnNames)
    {fallback : Option ResolvedTableSchema} {enums : ColumnLabels}
    (h : metadataEnumColumns tableMap metadata definition.columnNames fallback = .ok enums)
    {column : ColumnDefinition} (hcolumn : column ∈ definition.columns) {labels : List String}
    (hlabels : column.type.labels = some labels) :
    enums.lookup column.name =
      if announcesLabels tableMap then some labels
      else ((fallback.map (·.enumColumns)).getD []).lookup column.name := by
  have hmem := TableDefinition.mem_enumColumns hcolumn hlabels
  cases hvalues : metadata.enumStringValues with
  | none =>
    have hannounced : announcesLabels tableMap = false := by
      rw [announcesLabels, hmetadata]
      split
      · rename_i hcase
        cases hcase
        cases hvalues
      · rfl
    rw [metadataEnumColumns, enumColumnsFromMetadata, hvalues] at h
    cases h
    rw [hannounced]
    rfl
  | some values =>
    have hread := labelsFromMetadata_eq_ok "enum" (hmap.kinds.imp fun _ _ hkind => hkind.1)
    obtain rfl := (hmap.metadata metadata hmetadata).enumStringValues values hvalues
    have hannounced : announcesLabels tableMap = true := by
      obtain ⟨columnNames, keys, enumValues, setValues⟩ := metadata
      cases hnames
      cases hvalues
      rw [announcesLabels, hmetadata]
      cases hcolumns : definition.enumColumns with
      | nil => rw [hcolumns] at hmem; cases hmem
      | cons entry entries => rfl
    rw [metadataEnumColumns, enumColumnsFromMetadata, hvalues, TableDefinition.enumColumns, hread] at h
    cases h
    have hfound := lookup_collectLabels TableDefinition.nodup_enumColumns hmem
    show (labelsOrFallback (collectLabels definition.enumColumns) _).lookup column.name = _
    rw [hannounced, labelsOrFallback, if_neg]
    · exact hfound
    · intro hempty
      rw [List.isEmpty_iff.mp hempty] at hfound
      cases hfound

/-- The resolved schema has the names and the primary key of the table; the rest is what is known. -/
theorem resolvedAs_of_resolveTableSchema (hmap : Announces definition tableMap)
    (hanswers : ResolvesAs definition
      (resolver tableMap.databaseName tableMap.tableName tableMap.columnTypes.length))
    (h : resolveTableSchema tableMap resolver = .ok schema) :
    ResolvedAs definition
      (resolver tableMap.databaseName tableMap.tableName tableMap.columnTypes.length).toOption.isSome
      (announcesLabels tableMap) schema := by
  rw [resolveTableSchema] at h
  generalize resolver tableMap.databaseName tableMap.tableName tableMap.columnTypes.length = answer
    at h hanswers ⊢
  have hfallback : ∀ found, answer = .ok found → ResolvedAs definition true false found := by
    intro found hfound
    obtain ⟨table, hdescribes, htable⟩ := hanswers found hfound
    exact resolvedAs_of_inventory hdescribes htable
  cases hmetadata : tableMap.tableMetadata with
  | none =>
    simp only [hmetadata] at h
    subst h
    simpa [announcesLabels, hmetadata, Except.toOption] using hfallback schema rfl
  | some metadata =>
    have hcorrect := hmap.metadata metadata hmetadata
    simp only [hmetadata] at h
    cases hnames : metadata.columnNames with
    | none =>
      simp only [validatedMetadataColumns, hnames, ok_bind] at h
      subst h
      have hannounced : announcesLabels tableMap = false := by
        rw [announcesLabels, hmetadata]
        split
        · rename_i hcase
          cases hcase
          cases hnames
        · rfl
      rw [hannounced]
      exact hfallback schema rfl
    | some names =>
      obtain rfl := hcorrect.columnNames names hnames
      have hcount : validateColumnCount tableMap.databaseName tableMap.tableName
          tableMap.columnTypes.length definition.columnNames = .ok () := by
        rw [validateColumnCount, if_pos]
        rw [hmap.count, TableDefinition.columnNames, List.length_map]
      simp only [validatedMetadataColumns, hnames, hcount, ok_bind] at h
      obtain ⟨_, hread, h⟩ := bind_eq_ok.mp h
      cases hread
      obtain ⟨fallback, hschema, h⟩ := bind_eq_ok.mp h
      obtain ⟨primaryKey, hprimaryKey, h⟩ := bind_eq_ok.mp h
      obtain ⟨enums, henums, h⟩ := bind_eq_ok.mp h
      obtain ⟨sets, -, h⟩ := bind_eq_ok.mp h
      cases h
      obtain ⟨rfl, hthere⟩ := fallbackSchemaForMetadata_eq_ok hschema
      refine ⟨rfl, ?_, ?_, ?_, ?_⟩
      · show primaryKey = definition.primaryKey
        obtain ⟨found, hfound, hprimaryKey⟩ := bind_eq_ok.mp hprimaryKey
        cases hkeys : metadata.simplePrimaryKeys with
        | some indexes =>
          rw [primaryKeyFromMetadata_eq_ok hkeys (hcorrect.simplePrimaryKeys indexes hkeys)] at hfound
          cases hfound
          exact (Except.ok.inj hprimaryKey).symm
        | none =>
          rw [primaryKeyFromMetadata, hkeys] at hfound
          cases hfound
          cases answer with
          | error failure => exact absurd (hthere hkeys) (by simp [Except.toOption])
          | ok found =>
            rw [← (hfallback found rfl).primaryKey]
            exact (Except.ok.inj hprimaryKey).symm
      · cases answer with
        | error failure => rfl
        | ok found => exact (hfallback found rfl).generatedColumns
      · cases answer with
        | error failure => rfl
        | ok found => exact (hfallback found rfl).signedColumns
      · intro column hcolumn labels hlabels
        show enums.lookup column.name = _
        rw [lookup_labelsOrFallback hmap hmetadata hnames henums hcolumn hlabels]
        cases answer with
        | error failure => rfl
        | ok found =>
          have hfound := (hfallback found rfl).labels column hcolumn labels hlabels
          simp only [Except.toOption, Option.map_some, Option.getD_some, hfound]
          rfl

/-! ## Rows -/

variable {row : List StoredField} {image : RowImage} {answered announced : Bool} {codec : RowCodec}

/-- The codec with the conversion of the program. -/
def RowCodec.withConversion (codec : RowCodec) : RowCodec :=
  { codec with mysqlValueToTargetValue := BinlogCdc.mysqlValueToTargetValue }

/-- The entry of a field: its name, and its cell as its column is known. -/
def Converts (schema : ResolvedTableSchema) (field : StoredField) (entry : String × TargetValue) : Prop :=
  entry.1 = field.column.name ∧
    mysqlValueToTargetValue field.cell (schema.signedColumns.contains field.column.name)
      (schema.enumColumns.lookup field.column.name) = .ok entry.2

theorem mapRowData_eq_ok_iff (hrow : IsRow definition row)
    (hcolumns : schema.columns = definition.columnNames) :
    mapRowData codec.withConversion (rowData row) (schema.rowTableMap tableMap) = .ok image ↔
      List.Forall₂ (Converts schema) row image := by
  have hnames : schema.columns = row.map (·.column.name) := by
    rw [hcolumns, TableDefinition.columnNames, ← hrow, List.map_map]
    rfl
  have hlength : (rowData row).cells.length = (schema.rowTableMap tableMap).columns.length := by
    show (row.map StoredField.cell).length = schema.columns.length
    rw [hnames, List.length_map, List.length_map]
  have hzip : (schema.rowTableMap tableMap).columns.zip (rowData row).cells =
      row.map fun field => (field.column.name, field.cell) := by
    show schema.columns.zip (row.map StoredField.cell) = _
    rw [hnames, List.zip_map']
  rw [mapRowData, if_pos hlength, hzip, mapM_eq_ok, List.forall₂_map_left_iff]
  have hstep : ∀ (field : StoredField) (entry : String × TargetValue),
      (do let target ← mysqlValueToTargetValue field.cell
            (schema.signedColumns.contains field.column.name)
            (schema.enumColumns.lookup field.column.name)
          pure (field.column.name, target)) = .ok entry ↔ Converts schema field entry := by
    intro field entry
    rw [bind_eq_ok]
    constructor
    · rintro ⟨target, htarget, h⟩
      cases h
      exact ⟨rfl, htarget⟩
    · rintro ⟨hname, htarget⟩
      exact ⟨entry.2, htarget, by rw [← hname]; rfl⟩
  exact ⟨fun h => h.imp fun field entry => (hstep field entry).mp,
    fun h => h.imp fun field entry => (hstep field entry).mpr⟩

theorem label?_eq_none {type : SourceColumnType} (h : type.labels = none) (value : StoredValue type) :
    value.label? = none := by
  cases value with
  | enum => cases h
  | _ => rfl

theorem not_isValue_of_labels {type : SourceColumnType} {labels : List String}
    (h : type.labels = some labels) (value : StoredValue type) {target : TargetValue} {signed : Bool}
    (hconvert : mysqlValueToTargetValue (some value.cell) signed none = .ok target) :
    ¬value.IsValue target := by
  cases type with
  | enum members => exact value.not_isValue_ordinal hconvert
  | _ => cases h

/-- A field that is converted with the sign of its column is stored exactly if enough is known of
it. -/
theorem isStored_iff {field : StoredField} {entry : String × TargetValue}
    (hlabels : ∀ labels ∈ field.column.type.labels, schema.enumColumns.lookup field.column.name =
      if announced then some labels else if answered then some (labels.map readLabel) else none)
    (hsigned : schema.signedColumns.contains field.column.name = field.column.isSigned)
    (h : Converts schema field entry) :
    field.IsStored entry.2 ↔ field.Known answered announced := by
  obtain ⟨-, hentry⟩ := h
  obtain ⟨column, value⟩ := field
  cases value with
  | none =>
    have hnull : entry.2 = .null := (Except.ok.inj hentry).symm
    exact iff_of_true hnull (by rintro value ⟨⟩)
  | some value =>
    have hknown : StoredField.Known answered announced ⟨column, some value⟩ ↔ value.Survives ∧
        (column.type.labels.isSome = true → answered = true ∨ announced = true) ∧
        ∀ label ∈ value.label?, announced = true ∨ PlainLabel label := by
      constructor
      · exact fun h => h value rfl
      · rintro h _ ⟨⟩
        exact h
    have hvalue : ∀ read : String → String,
        (column.type.labels.isSome = true →
          schema.enumColumns.lookup column.name = column.type.readLabels read) →
        ((StoredField.mk column (some value)).IsStored entry.2 ↔
          value.Survives ∧ ∀ label ∈ value.label?, read label = label) :=
      fun read hread => value.isValue_iff hsigned hread hentry
    rw [hknown]
    cases htype : column.type.labels with
    | none =>
      have hnone : value.label? = none := label?_eq_none htype value
      rw [hvalue id (by rw [htype]; rintro ⟨⟩), hnone]
      simp
    | some labels =>
      have hlookup := hlabels labels htype
      cases announced with
      | true =>
        rw [hvalue id (fun _ => by rw [hlookup, SourceColumnType.readLabels, htype]; simp)]
        simp
      | false =>
        cases answered with
        | true =>
          rw [hvalue readLabel (fun _ => by rw [hlookup, SourceColumnType.readLabels, htype]; rfl)]
          simp [readLabel_eq_iff]
        | false =>
          refine iff_of_false ?_ fun h => by simpa using h.2.1 rfl
          have hordinal : mysqlValueToTargetValue (some value.cell)
              (schema.signedColumns.contains column.name) (schema.enumColumns.lookup column.name) =
                .ok entry.2 := hentry
          rw [hlookup] at hordinal
          exact not_isValue_of_labels htype value hordinal

theorem forall₂_imp_mem {α β : Type} {relation other : α → β → Prop} {list : List α} {results : List β}
    (h : List.Forall₂ relation list results)
    (himp : ∀ element ∈ list, ∀ result, relation element result → other element result) :
    List.Forall₂ other list results := by
  induction h with
  | nil => exact .nil
  | cons hfirst _ ih =>
    exact .cons (himp _ List.mem_cons_self _ hfirst)
      (ih fun element helement => himp element (List.mem_cons_of_mem _ helement))

/-- The rows of a table are stored exactly if enough is known of every field. -/
theorem forall₂_isStored_iff (hconverts : List.Forall₂ (Converts schema) row image)
    (hfields : ∀ field ∈ row, ∀ entry, Converts schema field entry →
      (field.IsStored entry.2 ↔ field.Known answered announced)) :
    List.Forall₂ (fun (field : StoredField) (entry : String × TargetValue) =>
      entry.1 = field.column.name ∧ field.IsStored entry.2) row image ↔
      ∀ field ∈ row, field.Known answered announced := by
  induction hconverts with
  | nil => exact iff_of_true .nil (by rintro field ⟨⟩)
  | @cons field entry row image hfirst _ ih =>
    have hrest := ih fun other hother => hfields other (List.mem_cons_of_mem field hother)
    rw [List.forall₂_cons, hrest, List.forall_mem_cons, hfields field List.mem_cons_self entry hfirst]
    exact and_congr_left fun _ => and_iff_right hfirst.1

/-- Where labels play no part the conversion does not read them. -/
theorem mysqlValueToTargetValue_labels {type : SourceColumnType} (h : type.labels = none)
    (value : StoredValue type) (signed : Bool) (labels others : Option (List String)) :
    mysqlValueToTargetValue (some value.cell) signed labels =
      mysqlValueToTargetValue (some value.cell) signed others := by
  cases value with
  | @integer width unsigned value hholds => cases width <;> rfl
  | enum => cases h
  | _ => rfl

/-- The label of an ordinal, from labels as they are read. -/
theorem mysqlValueToTargetValue_enum {labels : List String} (value : StoredValue (.enum labels))
    (read : String → String) (signed : Bool) (h : ∀ label ∈ value.label?, read label = label) :
    mysqlValueToTargetValue (some value.cell) signed (some (labels.map read)) =
      mysqlValueToTargetValue (some value.cell) signed (some labels) := by
  cases value with
  | enum ordinal hordinal =>
    have hconvert : ∀ others : List String,
        mysqlValueToTargetValue (some (@StoredValue.enum labels ordinal hordinal).cell) signed
          (some others) = enumValueToTargetValue (UInt32.ofNat ordinal) (some others) := by
      intro others
      simp only [mysqlValueToTargetValue, StoredValue.cell, convertMysqlIntegerValue,
        convertMysqlScalarValue]
      cases enumValueToTargetValue (UInt32.ofNat ordinal) (some others) <;> rfl
    rw [hconvert, hconvert]
    by_cases hzero : ordinal = 0
    · subst hzero
      rfl
    · have hnat : (UInt32.ofNat ordinal).toNat = ordinal := by
        rw [UInt32.toNat_ofNat']
        omega
      have hlabel : read (enumLabel labels ordinal) = enumLabel labels ordinal := by
        apply h
        rw [StoredValue.label?, if_neg hzero]
        rfl
      have hread := enumLabel_map read hzero hordinal.1
      have hown := enumLabel_map id hzero hordinal.1
      rw [List.map_id] at hown
      rw [enumValueToTargetValue, enumValueToTargetValue]
      simp only [hnat, hread, hown, hlabel, id_eq]

theorem mysqlValueToTargetValue_readLabels {type : SourceColumnType} {labels : List String}
    (h : type.labels = some labels) (value : StoredValue type) (read : String → String) (signed : Bool)
    (hread : ∀ label ∈ value.label?, read label = label) :
    mysqlValueToTargetValue (some value.cell) signed (some (labels.map read)) =
      mysqlValueToTargetValue (some value.cell) signed (some labels) := by
  cases type with
  | enum members =>
    cases h
    exact mysqlValueToTargetValue_enum value read signed hread
  | _ => cases h

/-- The own schema of the table converts a known field alike. -/
theorem Converts.of_known {field : StoredField} {entry : String × TargetValue}
    (hcolumn : field.column ∈ definition.columns)
    (hlabels : ∀ labels ∈ field.column.type.labels, schema.enumColumns.lookup field.column.name =
      if announced then some labels else if answered then some (labels.map readLabel) else none)
    (hsigned : schema.signedColumns = definition.signedColumns)
    (hknown : field.Known answered announced) (h : Converts schema field entry) :
    Converts definition.schema field entry := by
  obtain ⟨hname, hentry⟩ := h
  refine ⟨hname, ?_⟩
  show mysqlValueToTargetValue field.cell (definition.signedColumns.contains field.column.name)
    ((collectLabels definition.enumColumns).lookup field.column.name) = .ok entry.2
  rw [hsigned] at hentry
  rw [← hentry]
  obtain ⟨column, value⟩ := field
  cases value with
  | none => rfl
  | some value =>
    obtain ⟨-, hread, hplain⟩ := hknown value rfl
    cases htype : column.type.labels with
    | none => exact mysqlValueToTargetValue_labels htype value _ _ _
    | some labels =>
      have hown := lookup_collectLabels TableDefinition.nodup_enumColumns
        (TableDefinition.mem_enumColumns hcolumn htype)
      have hlookup := hlabels labels htype
      simp only at hown hlookup ⊢
      rw [hown, hlookup]
      cases announced with
      | true => rfl
      | false =>
        have hanswered : answered = true := by simpa using hread (by rw [htype]; rfl)
        subst hanswered
        have hplain' : ∀ label ∈ value.label?, readLabel label = label := fun label hlabel =>
          (readLabel_eq_iff label).mpr (by simpa using hplain label hlabel)
        exact (mysqlValueToTargetValue_readLabels htype value readLabel _ hplain').symm

/-- The flags of the schema are those of the table if the resolver answered or there are none. -/
theorem ResolvedAs.flags_iff (h : ResolvedAs definition answered announced schema) :
    (answered = true ∨ definition.generatedColumns = [] ∧ definition.signedColumns = []) ↔
      schema.generatedColumns = definition.generatedColumns ∧
        schema.signedColumns = definition.signedColumns := by
  rw [h.generatedColumns, h.signedColumns]
  cases answered with
  | true => simp
  | false =>
    simp only [Bool.false_eq_true, false_or, if_false]
    exact and_congr eq_comm eq_comm

theorem IsRow.mem_columns (hrow : IsRow definition row) {field : StoredField} (hfield : field ∈ row) :
    field.column ∈ definition.columns := by
  rw [← hrow]
  exact List.mem_map_of_mem hfield

/-- A row that is mapped is exact if and only if enough is known of the table and of the row. -/
theorem ResolvedAs.exact_iff (h : ResolvedAs definition answered announced schema)
    (hrow : IsRow definition row)
    (himage : mapRowData codec.withConversion (rowData row) (schema.rowTableMap tableMap) = .ok image) :
    Exact definition row schema image ↔ Known definition row answered announced := by
  have hconverts := (mapRowData_eq_ok_iff hrow h.columns).mp himage
  have hvalues : schema.signedColumns = definition.signedColumns →
      (List.Forall₂ (fun (field : StoredField) (entry : String × TargetValue) =>
        entry.1 = field.column.name ∧ field.IsStored entry.2) row image ↔
        ∀ field ∈ row, field.Known answered announced) := by
    intro hsigned
    refine forall₂_isStored_iff hconverts fun field hfield entry hentry => ?_
    refine isStored_iff (h.labels field.column (hrow.mem_columns hfield)) ?_ hentry
    rw [hsigned, Bool.eq_iff_iff, List.contains_iff_mem]
    exact TableDefinition.mem_signedColumns_iff (hrow.mem_columns hfield)
  constructor
  · intro hexact
    exact ⟨h.flags_iff.mpr ⟨hexact.generatedColumns, hexact.signedColumns⟩,
      (hvalues hexact.signedColumns).mp hexact.values⟩
  · intro hknown
    obtain ⟨hgenerated, hsigned⟩ := h.flags_iff.mp hknown.flags
    exact ⟨h.primaryKey, hgenerated, hsigned, (hvalues hsigned).mpr hknown.fields⟩

/-- A table of moods. -/
def moods : TableDefinition where
  columns := [⟨"id", .integer .tiny false, false⟩, ⟨"mood", .enum ["glad", "sad"], false⟩]
  primaryKey := ["id"]
  nodup := by decide

def moodsTable : TableInventory where
  name := "moods"
  tableType := "BASE TABLE"
  collation := none
  primaryKey := ["id"]
  columns := [⟨"id", "tinyint(4)", "tinyint", false, none, none, none⟩,
    ⟨"mood", "enum('glad','sad')", "enum", false, none, none, none⟩]

def moodsRow : List StoredField :=
  [⟨⟨"id", .integer .tiny false, false⟩, some (.integer (-5) ⟨by decide, by decide⟩)⟩,
    ⟨⟨"mood", .enum ["glad", "sad"], false⟩, some (.enum 2 ⟨by decide, by decide⟩)⟩]

def moodsTableMap : MysqlCdcTableMapEvent where
  tableId := 7
  databaseName := "diary"
  tableName := "moods"
  columnTypes := [1, 254]
  columnMetadata := [0, 0xF701]
  tableMetadata := none

def quietCodec : RowCodec where
  mapTableMapEvent _ _ := .ok none
  mysqlValueToTargetValue _ _ _ := .ok .null
  validateRowsHavePrimaryKeys _ _ _ := .ok ()
  insertChange _ _ _ := .ok none
  updateChange _ _ _ := .ok none
  deleteChange _ _ _ := .ok none

theorem announces_moods : Announces moods moodsTableMap := by
  refine ⟨rfl, .cons ⟨by decide, by decide⟩ (.cons ⟨by decide, by decide⟩ .nil), ?_⟩
  rintro metadata ⟨⟩

theorem describes_moods : Describes moods moodsTable := by
  refine ⟨rfl, .cons ⟨rfl, rfl, rfl, by decide +kernel, by decide +kernel⟩
    (.cons ⟨rfl, rfl, rfl, by decide +kernel⟩ .nil)⟩

theorem resolvesAs_moods : ResolvesAs moods (buildInventoryTableSchema moodsTable) :=
  fun _ h => ⟨moodsTable, describes_moods, h⟩

theorem known_moods : Known moods moodsRow true false := by
  refine ⟨.inl rfl, List.forall_mem_cons.mpr ⟨?_, List.forall_mem_singleton.mpr ?_⟩⟩
  · rintro value ⟨⟩
    exact ⟨trivial, fun _ => .inl rfl, by rintro label ⟨⟩⟩
  · rintro value ⟨⟩
    refine ⟨trivial, fun _ => .inl rfl, ?_⟩
    rintro label ⟨⟩
    refine .inr fun c hc => ?_
    have hall : ∀ c ∈ "sad".toList, c ≠ Char.ofNat 0 ∧ c ≠ '\n' ∧ c ≠ '\r' := by decide
    exact hall c hc

end BinlogCdc
