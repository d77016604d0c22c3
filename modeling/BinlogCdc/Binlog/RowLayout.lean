import BinlogCdc.Binlog.RowParser

/-!
# How the server writes rows

Row images of a table: a bitmap of the null cells and then the values, each in the layout of its
column. A rows event has a head, the bitmaps of the columns that its images have, and one image after
the other. The parser reads the rows of the event, unless one of them has a negative duration: then it
reads none.
-/

namespace BinlogCdc.MysqlCdc

open BinlogCdc.Core

/-! ## Images -/

/-- A column in a row image, with the value of the row. -/
structure ImageField where
  type : SourceColumnType
  layout : ColumnLayout type
  /-- The image has the column. -/
  present : Bool
  value : Option (StoredValue type)

namespace ImageField

def code (field : ImageField) : UInt8 := field.layout.code

def metadata (field : ImageField) : UInt16 := field.layout.metadata

/-- The value that is written. -/
def stored (field : ImageField) : Option (StoredValue field.type) :=
  if field.present then field.value else none

def cell (field : ImageField) : Option MySqlValue := field.stored.map StoredValue.cell

/-- The bytes of the field. -/
def Writes (field : ImageField) (bytes : List UInt8) : Prop :=
  match field.stored with
  | none => bytes = []
  | some value => field.layout.Stores value bytes

/-- The field has a negative duration. -/
def Negative (field : ImageField) : Prop := ∃ value ∈ field.stored, IsNegativeTime value

end ImageField

/-- The bytes of fields, one behind the other. -/
inductive WritesFields : List ImageField → List UInt8 → Prop
  | nil : WritesFields [] []
  | cons {field : ImageField} {fields : List ImageField} {front back : List UInt8}
      (first : field.Writes front) (rest : WritesFields fields back) :
      WritesFields (field :: fields) (front ++ back)

/-- The columns of the image whose value is null. -/
def nullBits (fields : List ImageField) : List Bool :=
  (fields.filter ImageField.present).map fun field => field.value.isNone

/-- The image of a row. -/
def WritesRow (fields : List ImageField) (text : List UInt8) : Prop :=
  ∃ bitmap cells, text = bitmap ++ cells ∧ IsBitmap bitmap (nullBits fields) ∧
    WritesFields fields cells

/-- The fields are those of the table, and the image has the columns. -/
structure IsImage (table : SourceTableMap) (columnsPresent : List Bool) (fields : List ImageField) :
    Prop where
  columnTypes : table.columnTypes = fields.map ImageField.code
  columnMetadata : table.columnMetadata = fields.map ImageField.metadata
  columnsPresent : columnsPresent = fields.map ImageField.present

/-- A row without negative durations. -/
def Readable (fields : List ImageField) : Prop := ∀ field ∈ fields, ¬field.Negative

def imageRow (fields : List ImageField) : RowData where
  cells := fields.map ImageField.cell

/-! ## Cells of an image -/

theorem nullBits_append (fields more : List ImageField) :
    nullBits (fields ++ more) = nullBits fields ++ nullBits more := by
  rw [nullBits, List.filter_append, List.map_append]
  rfl

theorem nullBits_absent {field : ImageField} (h : field.present = false) (fields : List ImageField) :
    nullBits (field :: fields) = nullBits fields := by
  rw [nullBits, List.filter_cons, if_neg (by simp [h])]
  rfl

theorem nullBits_present {field : ImageField} (h : field.present = true) (fields : List ImageField) :
    nullBits (field :: fields) = field.value.isNone :: nullBits fields := by
  rw [nullBits, List.filter_cons, if_pos h]
  rfl

theorem getBitsNumber_eq (fields : List ImageField) :
    getBitsNumber (fields.map ImageField.present) = (nullBits fields).length := by
  induction fields with
  | nil => rfl
  | cons field fields ih =>
    rw [getBitsNumber] at ih ⊢
    cases hpresent : field.present with
    | false => rw [nullBits_absent hpresent, List.map_cons, hpresent, List.count_cons_of_ne (by simp), ih]
    | true => rw [nullBits_present hpresent, List.map_cons, hpresent, List.count_cons_self, ih,
        List.length_cons]

/-- The parser between two columns: some columns of the image are behind it. -/
structure Behind (fields before after : List ImageField) (skippedColumns : Nat) : Prop where
  fields : fields = before ++ after
  skipped : (nullBits before).length + skippedColumns = before.length

variable {fields before after : List ImageField} {field : ImageField} {skippedColumns : Nat}

theorem Behind.absent (h : Behind fields before (field :: after) skippedColumns)
    (hpresent : field.present = false) :
    Behind fields (before ++ [field]) after (skippedColumns + 1) where
  fields := by rw [h.fields, List.append_assoc, List.singleton_append]
  skipped := by
    have hskipped := h.skipped
    rw [nullBits_append, nullBits_absent hpresent, List.length_append, List.length_append,
      List.length_singleton]
    change (nullBits before).length + 0 + (skippedColumns + 1) = _
    omega

theorem Behind.present (h : Behind fields before (field :: after) skippedColumns)
    (hpresent : field.present = true) : Behind fields (before ++ [field]) after skippedColumns where
  fields := by rw [h.fields, List.append_assoc, List.singleton_append]
  skipped := by
    have hskipped := h.skipped
    rw [nullBits_append, nullBits_present hpresent, List.length_append, List.length_append,
      List.length_singleton]
    change (nullBits before).length + 1 + skippedColumns = _
    omega

/-- What the bitmaps and the metadata say of the next column. -/
theorem Behind.lookups (h : Behind fields before (field :: after) skippedColumns) :
    (fields.map ImageField.present)[before.length]? = some field.present ∧
      (fields.map ImageField.metadata)[before.length]? = some field.metadata ∧
      (field.present = true →
        (nullBits fields)[before.length - skippedColumns]? = some field.value.isNone) := by
  have hskipped := h.skipped
  refine ⟨?_, ?_, fun hpresent => ?_⟩
  · rw [h.fields, List.map_append, List.getElem?_append_right (by simp), List.length_map, Nat.sub_self]
    rfl
  · rw [h.fields, List.map_append, List.getElem?_append_right (by simp), List.length_map, Nat.sub_self]
    rfl
  · have hindex : before.length - skippedColumns = (nullBits before).length := by omega
    rw [hindex, h.fields, nullBits_append, List.getElem?_append_right (Nat.le_refl _), Nat.sub_self,
      nullBits_present hpresent]
    rfl

/-- The parser of a row, with the metadata and the bitmaps of the fields. -/
def cellsParser (fields : List ImageField) (index skippedColumns : Nat) (columnTypes : List UInt8) :
    PayloadReader (List (Option MySqlValue)) :=
  parseCells (fields.map ImageField.metadata) (fields.map ImageField.present) (nullBits fields) index
    skippedColumns columnTypes

/-- A column without a cell takes no byte. -/
theorem Behind.step_none (h : Behind fields before (field :: after) skippedColumns)
    (hstored : field.stored = none) :
    ∃ skipped, Behind fields (before ++ [field]) after skipped ∧
      cellsParser fields before.length skippedColumns (field.code :: after.map ImageField.code) =
        cellsParser fields (before ++ [field]).length skipped (after.map ImageField.code) >>= fun cells =>
          pure (none :: cells) := by
  obtain ⟨hpresence, -, hnull⟩ := h.lookups
  cases hpresent : field.present with
  | false =>
    refine ⟨skippedColumns + 1, h.absent hpresent, ?_⟩
    rw [hpresent] at hpresence
    rw [cellsParser, parseCells, hpresence, List.length_append]
    rfl
  | true =>
    have hvalue : field.value = none := by
      rwa [ImageField.stored, if_pos hpresent] at hstored
    have hbit := hnull hpresent
    refine ⟨skippedColumns, h.present hpresent, ?_⟩
    rw [hpresent] at hpresence
    rw [hvalue] at hbit
    rw [cellsParser, parseCells, hpresence, List.length_append]
    dsimp only
    rw [hbit]
    rfl

/-- A column with a cell. -/
theorem Behind.step_some (h : Behind fields before (field :: after) skippedColumns)
    {value : StoredValue field.type} (hstored : field.stored = some value) :
    Behind fields (before ++ [field]) after skippedColumns ∧
      cellsParser fields before.length skippedColumns (field.code :: after.map ImageField.code) =
        readCell field.layout.code field.layout.metadata >>= fun cell =>
          cellsParser fields (before ++ [field]).length skippedColumns (after.map ImageField.code) >>=
            fun cells => pure (some cell :: cells) := by
  obtain ⟨hpresence, hmetadata, hnull⟩ := h.lookups
  have hpresent : field.present = true := by
    by_contra hnot
    rw [ImageField.stored, if_neg hnot] at hstored
    cases hstored
  have hvalue : field.value = some value := by
    rwa [ImageField.stored, if_pos hpresent] at hstored
  have hbit := hnull hpresent
  refine ⟨h.present hpresent, ?_⟩
  rw [hpresent] at hpresence
  rw [hvalue] at hbit
  rw [cellsParser, parseCells, hpresence, List.length_append]
  dsimp only
  rw [hbit]
  dsimp only [Option.isNone]
  rw [hmetadata]
  rfl

theorem reads_parseCells (h : Behind fields before after skippedColumns) {cells : List UInt8}
    (hcells : WritesFields after cells) (hreadable : Readable after) :
    Reads (cellsParser fields before.length skippedColumns (after.map ImageField.code)) cells
      (after.map ImageField.cell) := by
  induction hcells generalizing before skippedColumns with
  | nil => exact .pure []
  | @cons field after front back hfirst _ ih =>
    have hrest : Readable after := fun other hother => hreadable other (List.mem_cons_of_mem field hother)
    rw [List.map_cons, List.map_cons]
    cases hstored : field.stored with
    | none =>
      obtain ⟨skipped, hbehind, hstep⟩ := h.step_none hstored
      rw [ImageField.Writes, hstored] at hfirst
      obtain rfl : front = [] := hfirst
      rw [hstep, ImageField.cell, hstored]
      exact (ih hbehind hrest).map (none :: ·)
    | some value =>
      obtain ⟨hbehind, hstep⟩ := h.step_some hstored
      rw [ImageField.Writes, hstored] at hfirst
      have hsign : ¬IsNegativeTime value := fun hnegative =>
        hreadable field List.mem_cons_self ⟨value, hstored, hnegative⟩
      rw [hstep, ImageField.cell, hstored]
      refine (reads_stored hfirst hsign).bind ?_
      exact (ih hbehind hrest).map (some value.cell :: ·)

/-- The first negative duration of a row ends its parser. -/
theorem rejects_parseCells (h : Behind fields before after skippedColumns) {cells : List UInt8}
    (hcells : WritesFields after cells) (hnegative : ∃ field ∈ after, field.Negative) :
    Rejects (cellsParser fields before.length skippedColumns (after.map ImageField.code)) cells
      (.string negativeTimeMessage) := by
  induction hcells generalizing before skippedColumns with
  | nil =>
    obtain ⟨field, hmem, -⟩ := hnegative
    cases hmem
  | @cons field after front back hfirst _ ih =>
    rw [List.map_cons]
    cases hstored : field.stored with
    | none =>
      obtain ⟨skipped, hbehind, hstep⟩ := h.step_none hstored
      rw [ImageField.Writes, hstored] at hfirst
      obtain rfl : front = [] := hfirst
      have hrest : ∃ other ∈ after, other.Negative := by
        obtain ⟨other, hmem, value, hvalue, hsign⟩ := hnegative
        rcases List.mem_cons.mp hmem with rfl | hmem
        · rw [hstored] at hvalue
          cases hvalue
        · exact ⟨other, hmem, value, hvalue, hsign⟩
      rw [hstep]
      exact (ih hbehind hrest).bind
    | some value =>
      obtain ⟨hbehind, hstep⟩ := h.step_some hstored
      rw [ImageField.Writes, hstored] at hfirst
      rw [hstep]
      by_cases hsign : IsNegativeTime value
      · exact ((rejects_stored hfirst hsign).append back).bind
      · have hrest : ∃ other ∈ after, other.Negative := by
          obtain ⟨other, hmem, found, hvalue, hfound⟩ := hnegative
          rcases List.mem_cons.mp hmem with rfl | hmem
          · rw [hstored] at hvalue
            obtain rfl := Option.some.inj hvalue
            exact absurd hfound hsign
          · exact ⟨other, hmem, found, hvalue, hfound⟩
        refine (reads_stored hfirst hsign).rejects ?_
        exact (ih hbehind hrest).bind

/-! ## Rows -/

section Rows

variable {table : SourceTableMap} {columnsPresent : List Bool} {text : List UInt8}

/-- The parser of a row of the table reads the bitmap first. -/
theorem parseRow_eq (h : IsImage table columnsPresent fields) :
    parseRow table columnsPresent (getBitsNumber columnsPresent) =
      readBitmapLittleEndian (nullBits fields).length >>= fun nullBitmap =>
        parseCells (fields.map ImageField.metadata) (fields.map ImageField.present) nullBitmap 0 0
          (fields.map ImageField.code) >>= fun cells => pure ⟨cells⟩ := by
  rw [parseRow, h.columnsPresent, getBitsNumber_eq, h.columnTypes, h.columnMetadata]

theorem behind_start (fields : List ImageField) : Behind fields [] fields 0 := ⟨rfl, rfl⟩

theorem reads_parseRow (h : IsImage table columnsPresent fields) (htext : WritesRow fields text)
    (hreadable : Readable fields) :
    Reads (parseRow table columnsPresent (getBitsNumber columnsPresent)) text (imageRow fields) := by
  obtain ⟨bitmap, cells, rfl, hbitmap, hcells⟩ := htext
  rw [parseRow_eq h]
  refine (reads_bitmap _ hbitmap).bind ?_
  exact (reads_parseCells (behind_start fields) hcells hreadable).map RowData.mk

theorem rejects_parseRow (h : IsImage table columnsPresent fields) (htext : WritesRow fields text)
    (hnegative : ¬Readable fields) :
    Rejects (parseRow table columnsPresent (getBitsNumber columnsPresent)) text
      (.string negativeTimeMessage) := by
  obtain ⟨bitmap, cells, rfl, hbitmap, hcells⟩ := htext
  have hfound : ∃ field ∈ fields, field.Negative := by
    by_contra hnone
    exact hnegative fun field hmem hsign => hnone ⟨field, hmem, hsign⟩
  rw [parseRow_eq h]
  refine (reads_bitmap _ hbitmap).rejects ?_
  exact (rejects_parseCells (behind_start fields) hcells hfound).bind

/-- A row of an image with a column has a byte. -/
theorem WritesRow.ne_nil (h : IsImage table columnsPresent fields) (htext : WritesRow fields text)
    (hpresent : true ∈ columnsPresent) : text ≠ [] := by
  obtain ⟨bitmap, cells, rfl, hbitmap, -⟩ := htext
  have hcount : 0 < (nullBits fields).length := by
    rw [← getBitsNumber_eq, ← h.columnsPresent]
    exact List.count_pos_iff.mpr hpresent
  have hwidth := hbitmap.length
  unfold bitmapWidth at hwidth
  apply List.append_ne_nil_of_left_ne_nil
  apply List.ne_nil_of_length_pos
  omega

end Rows

/-! ## The head -/

/-- The bytes that newer versions have before the columns. -/
def IsExtraData (version : Nat) (bytes : List UInt8) : Prop :=
  if version = 2 then
    ∃ data : List UInt8, data.length + 2 < 65536 ∧ bytes = toLeBytes 2 (data.length + 2) ++ data
  else bytes = []

/-- The head of a rows event. -/
structure WritesHead (version tableId flags columns : Nat) (text : List UInt8) : Prop where
  tableId_lt : tableId < 2 ^ 48
  flags_lt : flags < 2 ^ 16
  columns_lt : columns < 2 ^ 64
  text : ∃ extra, IsExtraData version extra ∧
    text = toLeBytes 6 tableId ++ (toLeBytes 2 flags ++ (extra ++ lenEncBytes columns))

theorem reads_skipExtraData {version : Nat} {extra : List UInt8} (h : IsExtraData version extra) :
    Reads (skipExtraData version) extra () := by
  rw [IsExtraData] at h
  rw [skipExtraData]
  split at h
  · rename_i hversion
    obtain ⟨data, hlength, rfl⟩ := h
    rw [if_pos hversion]
    exact (reads_readLe (by omega)).bind (reads_seekCurrent data (by omega))
  · rename_i hversion
    rw [if_neg hversion, h]
    exact .pure _

theorem reads_parseHead {version tableId flags columns : Nat} {text : List UInt8}
    (h : WritesHead version tableId flags columns text) :
    Reads (parseHead version) text (tableId, flags, columns) := by
  obtain ⟨extra, hextra, rfl⟩ := h.text
  have hlast := (reads_readLenEncNum h.columns_lt).map fun columns => (tableId, flags, columns)
  rw [parseHead]
  exact (reads_readLe h.tableId_lt).bind ((reads_readLe h.flags_lt).bind
    ((reads_skipExtraData hextra).bind hlast))

/-! ## Inserted and deleted rows -/

/-- The payload of an event with inserted or deleted rows, with the bytes of its parts. -/
structure RowsPayload where
  tableId : Nat
  flags : Nat
  columnsPresent : List Bool
  head : List UInt8
  bitmap : List UInt8
  rows : List (List ImageField × List UInt8)

namespace RowsPayload

def bytes (payload : RowsPayload) : List UInt8 :=
  payload.head ++ payload.bitmap ++ payload.rows.flatMap Prod.snd

/-- The event that the payload carries. -/
def event (payload : RowsPayload) : RowsEvent where
  tableId := payload.tableId
  columnsPresent := payload.columnsPresent
  rows := payload.rows.map fun row => imageRow row.1
  flags := payload.flags
  columnsNumber := payload.columnsPresent.length

/-- The parts are written for the table, and the images have a column. -/
structure WellFormed (payload : RowsPayload) (version : Nat) (table : SourceTableMap) : Prop where
  head : WritesHead version payload.tableId payload.flags payload.columnsPresent.length payload.head
  bitmap : IsBitmap payload.bitmap payload.columnsPresent
  present : true ∈ payload.columnsPresent
  image : ∀ row ∈ payload.rows, IsImage table payload.columnsPresent row.1
  writes : ∀ row ∈ payload.rows, WritesRow row.1 row.2

def Readable (payload : RowsPayload) : Prop := ∀ row ∈ payload.rows, MysqlCdc.Readable row.1

end RowsPayload

/-- The table and the bitmap of the columns. -/
def rowsHead (version : Nat) : PayloadReader ((Nat × Nat × Nat) × List Bool) := do
  let head ← parseHead version
  let columnsPresent ← readBitmapLittleEndian head.2.2
  return (head, columnsPresent)

/-- The rows behind the head. -/
def rowsBody (tableMap : TableMaps) (head : (Nat × Nat × Nat) × List Bool) : PayloadReader RowsEvent :=
  findTableMap tableMap head.1.1 >>= fun table =>
    Reader.whileLeft (parseRow table.toSourceTableMap head.2 (getBitsNumber head.2)) >>= fun rows =>
      pure ⟨⟨head.1.1, head.2, rows⟩, head.1.2.1, head.1.2.2⟩

theorem parseRowsEvent_eq (tableMap : TableMaps) (version : Nat) :
    parseRowsEvent tableMap version = rowsHead version >>= rowsBody tableMap := by
  simp only [parseRowsEvent, parseRowDataList, rowsHead, rowsBody, bind_assoc, pure_bind]

section Rows

variable {payload : RowsPayload} {version : Nat} {table : TableMapEvent} {tableMap : TableMaps}

theorem findTableMap_eq {tableId : Nat} (h : tableMap.lookup tableId = some table) :
    findTableMap tableMap tableId = pure table := by
  rw [findTableMap, h]

theorem reads_rowsHead (h : payload.WellFormed version table.toSourceTableMap) :
    Reads (rowsHead version) (payload.head ++ payload.bitmap)
      ((payload.tableId, payload.flags, payload.columnsPresent.length), payload.columnsPresent) := by
  refine (reads_parseHead h.head).bind ?_
  exact (reads_bitmap _ h.bitmap).map fun columnsPresent =>
    ((payload.tableId, payload.flags, payload.columnsPresent.length), columnsPresent)

theorem RowsPayload.WellFormed.readItems (h : payload.WellFormed version table.toSourceTableMap)
    (hreadable : payload.Readable) :
    ReadItems (parseRow table.toSourceTableMap payload.columnsPresent
      (getBitsNumber payload.columnsPresent)) Prod.snd (fun row => imageRow row.1) payload.rows where
  reads row hrow := reads_parseRow (h.image row hrow) (h.writes row hrow) (hreadable row hrow)
  ne_nil row hrow := (h.writes row hrow).ne_nil (h.image row hrow) h.present

theorem rowsBody_eq (h : tableMap.lookup payload.tableId = some table) :
    rowsBody tableMap ((payload.tableId, payload.flags, payload.columnsPresent.length),
        payload.columnsPresent) =
      Reader.whileLeft (parseRow table.toSourceTableMap payload.columnsPresent
        (getBitsNumber payload.columnsPresent)) >>= fun rows =>
          pure ⟨⟨payload.tableId, payload.columnsPresent, rows⟩, payload.flags,
            payload.columnsPresent.length⟩ := by
  rw [rowsBody, findTableMap_eq h, pure_bind]

/-- The rows of the event are read. -/
theorem parseRowsEvent_ok (h : payload.WellFormed version table.toSourceTableMap)
    (htable : tableMap.lookup payload.tableId = some table) (hreadable : payload.Readable) :
    ReadsLast (parseRowsEvent tableMap version) payload.bytes payload.event := by
  rw [parseRowsEvent_eq]
  exact readsLast_headed (reads_rowsHead h) (h.readItems hreadable) (rowsBody_eq htable)

/-- One negative duration, and no row of the event is read. -/
theorem parseRowsEvent_error (h : payload.WellFormed version table.toSourceTableMap)
    (htable : tableMap.lookup payload.tableId = some table) (hnegative : ¬payload.Readable) :
    Ends (parseRowsEvent tableMap version) payload.bytes (.error (.string negativeTimeMessage)) := by
  rw [parseRowsEvent_eq]
  exact ends_headed (reads_rowsHead h)
    (fun row hrow => reads_parseRow (h.image row hrow) (h.writes row hrow))
    (fun row hrow => rejects_parseRow (h.image row hrow) (h.writes row hrow))
    (fun row hrow => (h.writes row hrow).ne_nil (h.image row hrow) h.present) (rowsBody_eq htable)
    hnegative

end Rows

/-! ## Updated rows -/

/-- A row before and after an update, with the bytes of both images. -/
structure UpdateImages where
  before : List ImageField
  after : List ImageField
  beforeText : List UInt8
  afterText : List UInt8

namespace UpdateImages

def text (row : UpdateImages) : List UInt8 := row.beforeText ++ row.afterText

def rows (row : UpdateImages) : RowData × RowData := (imageRow row.before, imageRow row.after)

def Readable (row : UpdateImages) : Prop := MysqlCdc.Readable row.before ∧ MysqlCdc.Readable row.after

/-- The images are written for the table. -/
structure WellFormed (row : UpdateImages) (table : SourceTableMap)
    (columnsBeforeUpdate columnsAfterUpdate : List Bool) : Prop where
  imageBefore : IsImage table columnsBeforeUpdate row.before
  imageAfter : IsImage table columnsAfterUpdate row.after
  writesBefore : WritesRow row.before row.beforeText
  writesAfter : WritesRow row.after row.afterText

variable {row : UpdateImages} {table : SourceTableMap}
  {columnsBeforeUpdate columnsAfterUpdate : List Bool}

theorem WellFormed.reads (h : row.WellFormed table columnsBeforeUpdate columnsAfterUpdate)
    (hreadable : row.Readable) :
    Reads (parseUpdateRow table columnsBeforeUpdate columnsAfterUpdate) row.text row.rows := by
  refine (reads_parseRow h.imageBefore h.writesBefore hreadable.1).bind ?_
  exact (reads_parseRow h.imageAfter h.writesAfter hreadable.2).map fun rowAfterUpdate =>
    (imageRow row.before, rowAfterUpdate)

theorem WellFormed.rejects (h : row.WellFormed table columnsBeforeUpdate columnsAfterUpdate)
    (hnegative : ¬row.Readable) :
    Rejects (parseUpdateRow table columnsBeforeUpdate columnsAfterUpdate) row.text
      (.string negativeTimeMessage) := by
  by_cases hbefore : MysqlCdc.Readable row.before
  · have hafter : ¬MysqlCdc.Readable row.after := fun hafter => hnegative ⟨hbefore, hafter⟩
    refine (reads_parseRow h.imageBefore h.writesBefore hbefore).rejects ?_
    exact (rejects_parseRow h.imageAfter h.writesAfter hafter).bind
  · exact ((rejects_parseRow h.imageBefore h.writesBefore hbefore).append row.afterText).bind

theorem WellFormed.text_ne_nil (h : row.WellFormed table columnsBeforeUpdate columnsAfterUpdate)
    (hpresent : true ∈ columnsBeforeUpdate ∨ true ∈ columnsAfterUpdate) : row.text ≠ [] := by
  rcases hpresent with hpresent | hpresent
  · exact List.append_ne_nil_of_left_ne_nil (h.writesBefore.ne_nil h.imageBefore hpresent) _
  · exact List.append_ne_nil_of_right_ne_nil _ (h.writesAfter.ne_nil h.imageAfter hpresent)

end UpdateImages

/-- The payload of an event with updated rows, with the bytes of its parts. -/
structure UpdatePayload where
  tableId : Nat
  flags : Nat
  columnsBeforeUpdate : List Bool
  columnsAfterUpdate : List Bool
  head : List UInt8
  bitmapBefore : List UInt8
  bitmapAfter : List UInt8
  rows : List UpdateImages

namespace UpdatePayload

def bytes (payload : UpdatePayload) : List UInt8 :=
  payload.head ++ (payload.bitmapBefore ++ payload.bitmapAfter) ++
    payload.rows.flatMap UpdateImages.text

/-- The event that the payload carries. -/
def event (payload : UpdatePayload) : UpdateRowsEvent where
  tableId := payload.tableId
  columnsBeforeUpdate := payload.columnsBeforeUpdate
  columnsAfterUpdate := payload.columnsAfterUpdate
  rows := payload.rows.map UpdateImages.rows
  flags := payload.flags
  columnsNumber := payload.columnsBeforeUpdate.length

structure WellFormed (payload : UpdatePayload) (version : Nat) (table : SourceTableMap) : Prop where
  head : WritesHead version payload.tableId payload.flags payload.columnsBeforeUpdate.length
    payload.head
  bitmapBefore : IsBitmap payload.bitmapBefore payload.columnsBeforeUpdate
  bitmapAfter : IsBitmap payload.bitmapAfter payload.columnsAfterUpdate
  length : payload.columnsAfterUpdate.length = payload.columnsBeforeUpdate.length
  present : true ∈ payload.columnsBeforeUpdate ∨ true ∈ payload.columnsAfterUpdate
  rows : ∀ row ∈ payload.rows,
    row.WellFormed table payload.columnsBeforeUpdate payload.columnsAfterUpdate

def Readable (payload : UpdatePayload) : Prop := ∀ row ∈ payload.rows, row.Readable

end UpdatePayload

/-- The table and the bitmaps of the columns. -/
def updateHead (version : Nat) : PayloadReader ((Nat × Nat × Nat) × List Bool × List Bool) := do
  let head ← parseHead version
  let columnsBeforeUpdate ← readBitmapLittleEndian head.2.2
  let columnsAfterUpdate ← readBitmapLittleEndian head.2.2
  return (head, columnsBeforeUpdate, columnsAfterUpdate)

/-- The rows behind the head. -/
def updateBody (tableMap : TableMaps) (head : (Nat × Nat × Nat) × List Bool × List Bool) :
    PayloadReader UpdateRowsEvent :=
  findTableMap tableMap head.1.1 >>= fun table =>
    Reader.whileLeft (parseUpdateRow table.toSourceTableMap head.2.1 head.2.2) >>= fun rows =>
      pure ⟨⟨head.1.1, head.2.1, head.2.2, rows⟩, head.1.2.1, head.1.2.2⟩

theorem parseUpdateRowsEvent_eq (tableMap : TableMaps) (version : Nat) :
    parseUpdateRowsEvent tableMap version = updateHead version >>= updateBody tableMap := by
  simp only [parseUpdateRowsEvent, parseUpdateRowDataList, updateHead, updateBody, bind_assoc, pure_bind]

section Updates

variable {payload : UpdatePayload} {version : Nat} {table : TableMapEvent}
  {tableMap : TableMaps}

theorem reads_updateHead (h : payload.WellFormed version table.toSourceTableMap) :
    Reads (updateHead version) (payload.head ++ (payload.bitmapBefore ++ payload.bitmapAfter))
      ((payload.tableId, payload.flags, payload.columnsBeforeUpdate.length),
        payload.columnsBeforeUpdate, payload.columnsAfterUpdate) := by
  have hafter := reads_bitmap Error.unexpectedEof h.bitmapAfter
  rw [h.length] at hafter
  refine (reads_parseHead h.head).bind ?_
  refine (reads_bitmap _ h.bitmapBefore).bind ?_
  exact hafter.map fun columnsAfterUpdate =>
    ((payload.tableId, payload.flags, payload.columnsBeforeUpdate.length),
      payload.columnsBeforeUpdate, columnsAfterUpdate)

theorem UpdatePayload.WellFormed.readItems (h : payload.WellFormed version table.toSourceTableMap)
    (hreadable : payload.Readable) :
    ReadItems (parseUpdateRow table.toSourceTableMap payload.columnsBeforeUpdate
      payload.columnsAfterUpdate) UpdateImages.text UpdateImages.rows payload.rows where
  reads row hrow := (h.rows row hrow).reads (hreadable row hrow)
  ne_nil row hrow := (h.rows row hrow).text_ne_nil h.present

theorem updateBody_eq (h : tableMap.lookup payload.tableId = some table) :
    updateBody tableMap ((payload.tableId, payload.flags, payload.columnsBeforeUpdate.length),
        payload.columnsBeforeUpdate, payload.columnsAfterUpdate) =
      Reader.whileLeft (parseUpdateRow table.toSourceTableMap payload.columnsBeforeUpdate
        payload.columnsAfterUpdate) >>= fun rows =>
          pure ⟨⟨payload.tableId, payload.columnsBeforeUpdate, payload.columnsAfterUpdate, rows⟩,
            payload.flags, payload.columnsBeforeUpdate.length⟩ := by
  rw [updateBody, findTableMap_eq h, pure_bind]

theorem parseUpdateRowsEvent_ok (h : payload.WellFormed version table.toSourceTableMap)
    (htable : tableMap.lookup payload.tableId = some table) (hreadable : payload.Readable) :
    ReadsLast (parseUpdateRowsEvent tableMap version) payload.bytes payload.event := by
  rw [parseUpdateRowsEvent_eq]
  exact readsLast_headed (reads_updateHead h) (h.readItems hreadable) (updateBody_eq htable)

theorem parseUpdateRowsEvent_error (h : payload.WellFormed version table.toSourceTableMap)
    (htable : tableMap.lookup payload.tableId = some table) (hnegative : ¬payload.Readable) :
    Ends (parseUpdateRowsEvent tableMap version) payload.bytes
      (.error (.string negativeTimeMessage)) := by
  rw [parseUpdateRowsEvent_eq]
  exact ends_headed (reads_updateHead h) (fun row hrow => (h.rows row hrow).reads)
    (fun row hrow => (h.rows row hrow).rejects) (fun row hrow => (h.rows row hrow).text_ne_nil h.present)
    (updateBody_eq htable) hnegative

end Updates

end BinlogCdc.MysqlCdc
