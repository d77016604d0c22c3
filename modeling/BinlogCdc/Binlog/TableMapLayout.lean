import BinlogCdc.Binlog.TableMapParser

/-!
# How the server writes table maps

The bytes of a table map: the id, the names with a zero behind each, the type codes, the metadata of
the types that have some, the bitmap of the columns that may be null, and the fields of the optional
metadata. The parser makes the table map of these bytes.
-/

namespace BinlogCdc.MysqlCdc

open BinlogCdc.Core

/-! ## Contents of metadata fields -/

def intArrayBytes (values : List UInt32) : List UInt8 :=
  values.flatMap fun value => lenEncBytes value.toNat

def intMapBytes (entries : List (UInt32 × UInt32)) : List UInt8 :=
  entries.flatMap fun entry => lenEncBytes entry.1.toNat ++ lenEncBytes entry.2.toNat

def defaultCharsetBytes (charset : DefaultCharset) : List UInt8 :=
  lenEncBytes charset.defaultCharsetCollation.toNat ++ intMapBytes charset.charsetCollations

/-- The labels of a column behind their number. -/
def labelsBytes (labels : List String) : List UInt8 :=
  lenEncBytes labels.length ++ labels.flatMap lenEncString

/-- The labels have lengths that fit into numbers. -/
def ShortLabels (labels : List String) : Prop :=
  labels.length < 2 ^ 64 ∧ ∀ label ∈ labels, ShortText label

def typeValuesBytes (values : List (List String)) : List UInt8 := values.flatMap labelsBytes

/-- The columns that have a bit in the signedness. -/
def numericCount (columnTypes : List UInt8) : Nat :=
  columnTypes.countP fun code => (ColumnType.ofCode? code).any ColumnType.isNumeric

/-- The content of a field for a table with some column types. -/
def WritesContent (columnTypes : List UInt8) (content : List UInt8) : MetadataField → Prop
  | .signedness bits => bits.length = numericCount columnTypes ∧ IsRevertedBitmap content bits
  | .defaultCharset charset => content = defaultCharsetBytes charset
  | .columnCharset collations => content = intArrayBytes collations
  | .columnName names => (∀ name ∈ names, ShortText name) ∧ content = names.flatMap lenEncString
  | .setStrValue members => (∀ labels ∈ members, ShortLabels labels) ∧ content = typeValuesBytes members
  | .enumStrValue values => (∀ labels ∈ values, ShortLabels labels) ∧ content = typeValuesBytes values
  | .geometryType types => content = intArrayBytes types
  | .simplePrimaryKey columns => content = intArrayBytes columns
  | .primaryKeyWithPrefix columns => content = intMapBytes columns
  | .enumAndSetDefaultCharset charset => content = defaultCharsetBytes charset
  | .enumAndSetColumnCharset collations => content = intArrayBytes collations
  | .columnVisibility bits => bits.length = columnTypes.length ∧ IsRevertedBitmap content bits

def MetadataField.code : MetadataField → UInt8
  | .signedness _ => 1
  | .defaultCharset _ => 2
  | .columnCharset _ => 3
  | .columnName _ => 4
  | .setStrValue _ => 5
  | .enumStrValue _ => 6
  | .geometryType _ => 7
  | .simplePrimaryKey _ => 8
  | .primaryKeyWithPrefix _ => 9
  | .enumAndSetDefaultCharset _ => 10
  | .enumAndSetColumnCharset _ => 11
  | .columnVisibility _ => 12

/-- A field with its code and the length of its content. -/
def WritesMetadataField (columnTypes : List UInt8) (field : MetadataField) (text : List UInt8) : Prop :=
  ∃ content, WritesContent columnTypes content field ∧ content.length < 2 ^ 64 ∧
    text = toLeBytes 1 field.code.toNat ++ (lenEncBytes content.length ++ content)

/-! ## Arrays -/

theorem reads_parseInt (value : UInt32) : Reads parseInt (lenEncBytes value.toNat) value := by
  have hlt : value.toNat < 2 ^ 64 := value.toNat_lt.trans (by decide)
  have hread := (reads_readLenEncNum hlt).map UInt32.ofNat
  rw [UInt32.ofNat_toNat] at hread
  exact hread

/-- Items that are read as themselves. -/
theorem readsLast_items {α : Type} {reader : PayloadReader α} {bytes : α → List UInt8} {items : List α}
    (hreads : ∀ item ∈ items, Reads reader (bytes item) item) (hne : ∀ item ∈ items, bytes item ≠ []) :
    ReadsLast (Reader.whileLeft reader) (items.flatMap bytes) items := by
  have hitems : ReadItems reader bytes (fun item => item) items := ⟨hreads, hne⟩
  have hread := readsLast_whileLeft hitems
  rwa [List.map_id'] at hread

theorem readsLast_parseIntArray (values : List UInt32) :
    ReadsLast parseIntArray (intArrayBytes values) values :=
  readsLast_items (fun value _ => reads_parseInt value) fun _ _ => lenEncBytes_ne_nil _

theorem readsLast_parseStringArray {names : List String} (h : ∀ name ∈ names, ShortText name) :
    ReadsLast parseStringArray (names.flatMap lenEncString) names :=
  readsLast_items (fun name hname => reads_readLenEncStr (h name hname)) fun name _ =>
    lenEncString_ne_nil name

theorem readsLast_parseIntMap (entries : List (UInt32 × UInt32)) :
    ReadsLast parseIntMap (intMapBytes entries) entries := by
  refine readsLast_items (fun entry _ => ?_) fun entry _ => ?_
  · exact (reads_parseInt entry.1).bind ((reads_parseInt entry.2).map fun value => (entry.1, value))
  · exact List.append_ne_nil_of_left_ne_nil (lenEncBytes_ne_nil _) _

theorem reads_parseLabels {labels : List String} (h : ShortLabels labels) :
    Reads parseLabels (labelsBytes labels) labels := by
  have hread := reads_repeated fun label hlabel => reads_readLenEncStr (h.2 label hlabel)
  rw [List.map_id'] at hread
  exact (reads_readLenEncNum h.1).bind hread

theorem readsLast_parseTypeValues {values : List (List String)}
    (h : ∀ labels ∈ values, ShortLabels labels) :
    ReadsLast parseTypeValues (typeValuesBytes values) values :=
  readsLast_items (fun labels hlabels => reads_parseLabels (h labels hlabels)) fun _ _ =>
    List.append_ne_nil_of_left_ne_nil (lenEncBytes_ne_nil _) _

theorem readsLast_parseDefaultCharset (charset : DefaultCharset) :
    ReadsLast parseDefaultCharset (defaultCharsetBytes charset) charset :=
  (reads_parseInt charset.defaultCharsetCollation).bind_last
    ((readsLast_parseIntMap charset.charsetCollations).map fun charsetCollations =>
      DefaultCharset.mk charset.defaultCharsetCollation charsetCollations)

/-! ## Fields -/

/-- All codes are types. -/
def KnownTypes (columnTypes : List UInt8) : Prop :=
  ∀ code ∈ columnTypes, (ColumnType.ofCode? code).isSome

theorem fromCode_eq {code : UInt8} {type : ColumnType} (h : ColumnType.ofCode? code = some type) :
    ColumnType.fromCode code = pure type := by
  rw [ColumnType.fromCode, h]

theorem getNumericColumnCount_eq {columnTypes : List UInt8} (h : KnownTypes columnTypes) :
    getNumericColumnCount columnTypes = pure (numericCount columnTypes) := by
  induction columnTypes with
  | nil => rfl
  | cons code codes ih =>
    obtain ⟨type, htype⟩ := Option.isSome_iff_exists.mp (h code List.mem_cons_self)
    rw [getNumericColumnCount, fromCode_eq htype, pure_bind,
      ih fun other hother => h other (List.mem_cons_of_mem code hother), pure_bind, numericCount,
      numericCount, List.countP_cons, htype, Option.any_some, Nat.add_comm]

/-- The type of a field. -/
def MetadataField.type : MetadataField → MetadataType
  | .signedness _ => .signedness
  | .defaultCharset _ => .defaultCharset
  | .columnCharset _ => .columnCharset
  | .columnName _ => .columnName
  | .setStrValue _ => .setStrValue
  | .enumStrValue _ => .enumStrValue
  | .geometryType _ => .geometryType
  | .simplePrimaryKey _ => .simplePrimaryKey
  | .primaryKeyWithPrefix _ => .primaryKeyWithPrefix
  | .enumAndSetDefaultCharset _ => .enumAndSetDefaultCharset
  | .enumAndSetColumnCharset _ => .enumAndSetColumnCharset
  | .columnVisibility _ => .columnVisibility

theorem ofCode?_code (field : MetadataField) : MetadataType.ofCode? field.code = some field.type := by
  cases field <;> rfl

theorem readsLast_parseMetadataContent {columnTypes : List UInt8} (hknown : KnownTypes columnTypes)
    {field : MetadataField} {content : List UInt8} (h : WritesContent columnTypes content field) :
    ReadsLast (parseMetadataContent columnTypes field.type) content field := by
  cases field with
  | signedness bits =>
    obtain ⟨hlength, hbitmap⟩ := h
    have hread := (reads_revertedBitmap Error.unexpectedEof hbitmap).map MetadataField.signedness
    rw [hlength] at hread
    rw [MetadataField.type, parseMetadataContent, getNumericColumnCount_eq hknown, pure_bind]
    exact hread.last
  | columnVisibility bits =>
    obtain ⟨hlength, hbitmap⟩ := h
    have hread := (reads_revertedBitmap Error.unexpectedEof hbitmap).map MetadataField.columnVisibility
    rw [hlength] at hread
    exact hread.last
  | defaultCharset charset =>
    obtain rfl := h
    exact (readsLast_parseDefaultCharset charset).map _
  | columnCharset collations =>
    obtain rfl := h
    exact (readsLast_parseIntArray collations).map _
  | columnName names =>
    obtain ⟨hshort, rfl⟩ := h
    exact (readsLast_parseStringArray hshort).map _
  | setStrValue members =>
    obtain ⟨hshort, rfl⟩ := h
    exact (readsLast_parseTypeValues hshort).map _
  | enumStrValue values =>
    obtain ⟨hshort, rfl⟩ := h
    exact (readsLast_parseTypeValues hshort).map _
  | geometryType types =>
    obtain rfl := h
    exact (readsLast_parseIntArray types).map _
  | simplePrimaryKey columns =>
    obtain rfl := h
    exact (readsLast_parseIntArray columns).map _
  | primaryKeyWithPrefix columns =>
    obtain rfl := h
    exact (readsLast_parseIntMap columns).map _
  | enumAndSetDefaultCharset charset =>
    obtain rfl := h
    exact (readsLast_parseDefaultCharset charset).map _
  | enumAndSetColumnCharset collations =>
    obtain rfl := h
    exact (readsLast_parseIntArray collations).map _

theorem reads_parseMetadataField {columnTypes : List UInt8} (hknown : KnownTypes columnTypes)
    {field : MetadataField} {text : List UInt8} (h : WritesMetadataField columnTypes field text) :
    Reads (parseMetadataField columnTypes) text field := by
  obtain ⟨content, hcontent, hlength, rfl⟩ := h
  have hcode := reads_readU8 (show field.code.toNat < 256 from field.code.toNat_lt)
  rw [UInt8.ofNat_toNat] at hcode
  have htype : MetadataType.fromCode field.code = pure field.type := by
    rw [MetadataType.fromCode, ofCode?_code]
  have hblock := (reads_takeOr Error.unexpectedEof content).bind_within
    (readsLast_parseMetadataContent hknown hcontent)
  refine hcode.bind ?_
  rw [htype, pure_bind]
  exact (reads_readLenEncNum hlength).bind hblock

theorem WritesMetadataField.ne_nil {columnTypes : List UInt8} {field : MetadataField}
    {text : List UInt8} (h : WritesMetadataField columnTypes field text) : text ≠ [] := by
  obtain ⟨content, -, -, rfl⟩ := h
  exact List.append_ne_nil_of_left_ne_nil (by simp [toLeBytes]) _

/-! ## Column metadata -/

/-- How the metadata of a type is written. -/
inductive MetadataFormat
  | absent | byte | littleEndian | bigEndian
  deriving DecidableEq, Repr

def ColumnType.metadataFormat : ColumnType → MetadataFormat
  | geometry | json | tinyBlob | mediumBlob | longBlob | blob | float | double | timeStamp2 | dateTime2
  | time2 => .byte
  | bit | varChar | varString | newDecimal => .littleEndian
  | enum | set | string => .bigEndian
  | _ => .absent

/-- The bytes of the metadata of a column; metadata that the format does not hold has none. -/
def WritesColumnMetadata (code : UInt8) (metadata : UInt16) (bytes : List UInt8) : Prop :=
  ∃ type, ColumnType.ofCode? code = some type ∧
    match type.metadataFormat with
    | .absent => metadata = 0 ∧ bytes = []
    | .byte => metadata.toNat < 256 ∧ bytes = toLeBytes 1 metadata.toNat
    | .littleEndian => bytes = toLeBytes 2 metadata.toNat
    | .bigEndian => bytes = Core.bigEndian 2 metadata.toNat

theorem reads_parseColumnMetadata {code : UInt8} {metadata : UInt16} {bytes : List UInt8}
    (h : WritesColumnMetadata code metadata bytes) :
    Reads (parseColumnMetadata code) bytes metadata := by
  obtain ⟨type, htype, hbytes⟩ := h
  have htwo : metadata.toNat < 256 ^ 2 := metadata.toNat_lt
  have hlittle := (reads_readLe htwo).map UInt16.ofNat
  have hbig := (reads_readBe htwo).map UInt16.ofNat
  rw [UInt16.ofNat_toNat] at hlittle hbig
  rw [parseColumnMetadata, fromCode_eq htype, pure_bind]
  cases type with
  | geometry | json | tinyBlob | mediumBlob | longBlob | blob | float | double | timeStamp2 | dateTime2
  | time2 =>
    obtain ⟨hlt, rfl⟩ := hbytes
    have hbyte := (reads_readLe (show metadata.toNat < 256 ^ 1 from hlt)).map UInt16.ofNat
    rw [UInt16.ofNat_toNat] at hbyte
    exact hbyte
  | bit | varChar | varString | newDecimal =>
    obtain rfl := hbytes
    exact hlittle
  | enum | set | string =>
    obtain rfl := hbytes
    exact hbig
  | _ =>
    obtain ⟨rfl, rfl⟩ := hbytes
    exact .pure _

/-! ## The event -/

/-- A column of a table map, with the bytes of its metadata. -/
structure AnnouncedColumn where
  code : UInt8
  metadata : UInt16
  bytes : List UInt8
  writes : WritesColumnMetadata code metadata bytes

/-- A name with its length before it and a zero behind it. -/
def nameBytes (name : String) : List UInt8 :=
  toLeBytes 1 name.toUTF8.toList.length ++ (name.toUTF8.toList ++ [0])

/-- The metadata of the fields, or none without a field. -/
def metadataOf (fields : List MetadataField) : Option TableMetadata :=
  if fields.isEmpty then none else some (fields.foldl TableMetadata.set .empty)

/-- The payload of a table map, with the bytes of its parts. -/
structure TableMapPayload where
  tableId : Nat
  databaseName : String
  tableName : String
  columns : List AnnouncedColumn
  nullBitmap : List Bool
  reserved : List UInt8
  bitmap : List UInt8
  fields : List (MetadataField × List UInt8)

namespace TableMapPayload

def columnTypes (payload : TableMapPayload) : List UInt8 := payload.columns.map AnnouncedColumn.code

def metadataBytes (payload : TableMapPayload) : List UInt8 :=
  payload.columns.flatMap AnnouncedColumn.bytes

def table (payload : TableMapPayload) : SourceTableMap where
  tableId := payload.tableId
  databaseName := payload.databaseName
  tableName := payload.tableName
  columnTypes := payload.columnTypes
  columnMetadata := payload.columns.map AnnouncedColumn.metadata

/-- The bytes behind the two names. -/
def columnBytes (payload : TableMapPayload) : List UInt8 :=
  lenEncBytes payload.columnTypes.length ++ (payload.columnTypes ++
    (lenEncBytes payload.metadataBytes.length ++ (payload.metadataBytes ++ payload.bitmap)))

/-- The bytes that every table map has. -/
def head (payload : TableMapPayload) : List UInt8 :=
  toLeBytes 6 payload.tableId ++ (payload.reserved ++ (nameBytes payload.databaseName ++
    (nameBytes payload.tableName ++ payload.columnBytes)))

def bytes (payload : TableMapPayload) : List UInt8 :=
  payload.head ++ payload.fields.flatMap Prod.snd

/-- The event that the payload carries. -/
def event (payload : TableMapPayload) : TableMapEvent where
  toSourceTableMap := payload.table
  nullBitmap := payload.nullBitmap
  tableMetadata := metadataOf (payload.fields.map Prod.fst)

structure WellFormed (payload : TableMapPayload) : Prop where
  tableId_lt : payload.tableId < 2 ^ 48
  reserved : payload.reserved.length = 2
  databaseName_lt : payload.databaseName.toUTF8.toList.length < 256
  tableName_lt : payload.tableName.toUTF8.toList.length < 256
  columns_lt : payload.columnTypes.length < 2 ^ 64
  metadata_lt : payload.metadataBytes.length < 2 ^ 64
  nullBitmap : payload.nullBitmap.length = payload.columnTypes.length
  bitmap : IsBitmap payload.bitmap payload.nullBitmap
  fields : ∀ field ∈ payload.fields, WritesMetadataField payload.columnTypes field.1 field.2

end TableMapPayload

theorem reads_readName {name : String} (h : name.toUTF8.toList.length < 256) :
    Reads readName (nameBytes name) name := by
  have hlength : (UInt8.ofNat name.toUTF8.toList.length).toNat = name.toUTF8.toList.length := by
    rw [UInt8.toNat_ofNat']
    omega
  have hstring := reads_readString name
  rw [← hlength] at hstring
  have hlast := (reads_seekCurrent [0] (show (1 : Int) = 1 from rfl)).map fun _ => name
  exact (reads_readU8 h).bind (hstring.bind hlast)

section Tables

variable {payload : TableMapPayload}

theorem TableMapPayload.knownTypes (payload : TableMapPayload) : KnownTypes payload.columnTypes := by
  intro code hcode
  obtain ⟨column, -, rfl⟩ := List.mem_map.mp hcode
  obtain ⟨type, htype, -⟩ := column.writes
  exact Option.isSome_iff_exists.mpr ⟨type, htype⟩

theorem reads_parseMetadata (payload : TableMapPayload) :
    Reads (parseMetadata payload.columnTypes) payload.metadataBytes payload.table.columnMetadata :=
  reads_forItems fun column _ => reads_parseColumnMetadata column.writes

/-- The columns behind the names. -/
def parseColumns (tableId : Nat) (databaseName tableName : String) :
    PayloadReader (SourceTableMap × List Bool) :=
  readLenEncNum >>= fun columnsNumber => readExact columnsNumber >>= fun columnTypes =>
    readLenEncNum >>= fun _ => parseMetadata columnTypes >>= fun columnMetadata =>
      readBitmapLittleEndian columnsNumber >>= fun nullBitmap =>
        pure ({ tableId, databaseName, tableName, columnTypes, columnMetadata }, nullBitmap)

theorem parseTable_eq : parseTable = readLe 6 >>= fun tableId => seekCurrent 2 >>= fun _ =>
    readName >>= fun databaseName => readName >>= fun tableName =>
      parseColumns tableId databaseName tableName := rfl

theorem reads_parseColumns (h : payload.WellFormed) :
    Reads (parseColumns payload.tableId payload.databaseName payload.tableName) payload.columnBytes
      (payload.table, payload.nullBitmap) := by
  have hbitmap := reads_bitmap Error.unexpectedEof h.bitmap
  rw [h.nullBitmap] at hbitmap
  refine (reads_readLenEncNum h.columns_lt).bind ((reads_takeOr _ payload.columnTypes).bind
    ((reads_readLenEncNum h.metadata_lt).bind ((reads_parseMetadata payload).bind ?_)))
  exact hbitmap.map fun nullBitmap => (payload.table, nullBitmap)

theorem reads_parseTable (h : payload.WellFormed) :
    Reads parseTable payload.head (payload.table, payload.nullBitmap) := by
  have hid : payload.tableId < 256 ^ 6 := h.tableId_lt
  have hreserved : (2 : Int) = payload.reserved.length := by rw [h.reserved]; rfl
  rw [parseTable_eq]
  exact (reads_readLe hid).bind ((reads_seekCurrent payload.reserved hreserved).bind
    ((reads_readName h.databaseName_lt).bind ((reads_readName h.tableName_lt).bind
      (reads_parseColumns h))))

theorem parseOptionalMetadata_eq (columnTypes : List UInt8) :
    parseOptionalMetadata columnTypes =
      Reader.whileLeft (parseMetadataField columnTypes) >>= fun fields => pure (metadataOf fields) := by
  funext cursor
  rw [parseOptionalMetadata, Reader.bind_of_ok (Reader.cursor_apply cursor), Reader.whileLeft, bind_assoc,
    Reader.bind_of_ok (Reader.cursor_apply cursor)]
  by_cases hmore : cursor.offset < cursor.bytes.length
  · rw [if_pos hmore, parseTableMetadata, bind_assoc, Reader.whileLeft, bind_assoc,
      Reader.bind_of_ok (Reader.cursor_apply cursor), Reader.untilEnd]
    simp only [bind_assoc, pure_bind]
    rw [Reader.bind_of_ok (Reader.cursor_apply cursor), Reader.bind_of_ok (Reader.cursor_apply cursor),
      if_pos hmore]
    simp only [bind_assoc, pure_bind]
    rfl
  · rw [if_neg hmore, Reader.untilEnd, bind_assoc, Reader.bind_of_ok (Reader.cursor_apply cursor),
      if_neg hmore]
    rfl

/-- The event behind the table and its bitmap. -/
def tableMapBody (head : SourceTableMap × List Bool) : PayloadReader TableMapEvent :=
  parseOptionalMetadata head.1.columnTypes >>= fun tableMetadata =>
    pure { toSourceTableMap := head.1, nullBitmap := head.2, tableMetadata }

theorem tableMapBody_eq (payload : TableMapPayload) :
    tableMapBody (payload.table, payload.nullBitmap) =
      Reader.whileLeft (parseMetadataField payload.columnTypes) >>= fun fields =>
        pure { toSourceTableMap := payload.table
               nullBitmap := payload.nullBitmap
               tableMetadata := metadataOf fields } := by
  rw [tableMapBody, parseOptionalMetadata_eq, bind_assoc]
  rfl

theorem readItems_metadata (h : payload.WellFormed) :
    ReadItems (parseMetadataField payload.columnTypes) Prod.snd Prod.fst payload.fields where
  reads field hfield := reads_parseMetadataField payload.knownTypes (h.fields field hfield)
  ne_nil field hfield := (h.fields field hfield).ne_nil

theorem parseTableMapEvent_ok (h : payload.WellFormed) :
    ReadsLast parseTableMapEvent payload.bytes payload.event :=
  readsLast_headed (reads_parseTable h) (readItems_metadata h) (tableMapBody_eq payload)

end Tables

end BinlogCdc.MysqlCdc
