import BinlogCdc.Core.KeyedTable

/-!
# Rows, pages and progress of a table sync

The data of the row sync. A row is decoded with its primary key as texts and its column
values by name; the column map of a row is the list of its columns in the order of the
table. The order of the primary key is the server's: it is a parameter, independent of
the texts. A page of rows ends at the row limit of its request or at its byte budget.
-/

namespace BinlogCdc

/-! ## Tables and rows -/

/-- The texts of the primary-key columns of a row. -/
structure PrimaryKey where
  /-- One text for each column. -/
  values : List String
  deriving DecidableEq, Repr

theorem PrimaryKey.values_injective : Function.Injective PrimaryKey.values := by
  intro a b h
  cases a
  cases b
  cases h
  rfl

/-- A decoded row. -/
structure DatabaseRow where
  /-- The primary key. -/
  primaryKey : PrimaryKey
  /-- The value of each column; no value is NULL. -/
  values : List (String × Option String)
  deriving DecidableEq, Repr

/-- The value of a column, if the row has the column. -/
def DatabaseRow.get (row : DatabaseRow) (column : String) : Option (Option String) :=
  row.values.lookup column

/-- A table to sync. -/
structure SyncTable where
  /-- The name. -/
  name : String
  /-- The primary-key columns. -/
  primaryKey : List String
  /-- The columns. -/
  columns : List String
  /-- The labels of the ENUM columns. -/
  enumColumns : List (String × List String)
  /-- No column is listed twice. -/
  columns_nodup : columns.Nodup

namespace SyncTable

/-- What a primary-key column holds in a row of the key: the text of the key, or for an ENUM
column the position of the label. -/
def keyCell (table : SyncTable) (key : PrimaryKey) (column : String) : Option String :=
  match key.values[table.primaryKey.idxOf column]?, table.enumColumns.lookup column with
  | some label, some labels => some (toString (labels.idxOf label + 1))
  | text, none => text
  | none, some _ => none

/-- The row is a decoded row of the table: it has the columns of the table, and its key columns
hold its key. -/
structure Holds (table : SyncTable) (row : DatabaseRow) : Prop where
  /-- The columns are the table's. -/
  columns : row.values.map Prod.fst = table.columns
  /-- The key columns hold the key. -/
  key : ∀ column ∈ table.primaryKey, row.get column = some (table.keyCell row.primaryKey column)

end SyncTable

/-! ## Phases, requests and progress -/

/-- The mutations of a bounded chunk. -/
inductive SyncMutationPhase where
  /-- Every kind. -/
  | all
  /-- Inserts of missing rows. -/
  | insertMissing
  /-- Updates of divergent rows. -/
  | updateDivergent
  /-- Deletes of extra rows. -/
  | deleteExtras
  deriving DecidableEq, Repr

/-- The phase performs an operation. -/
def SyncMutationPhase.includes (phase operation : SyncMutationPhase) : Bool :=
  phase == .all || phase == operation

/-- The configuration of a chunk. -/
structure SyncChunkConfig where
  /-- The run. -/
  runId : String
  /-- The target database. -/
  targetDatabase : String
  /-- The table. -/
  table : SyncTable
  /-- The row limit of a page. -/
  chunkSize : Nat

/-- A request for a page of rows. -/
structure SyncChunkReadRequest where
  /-- The cursor. -/
  startAfter : Option PrimaryKey
  /-- The last key to read. -/
  endAt : Option PrimaryKey
  /-- The row limit. -/
  limit : Nat

/-- A page of rows. -/
structure SyncChunkPage where
  /-- The rows. -/
  rows : List DatabaseRow
  /-- There may be more rows. -/
  hasMore : Bool

/-- The progress row of a table. -/
structure SyncChunkProgress where
  /-- The run. -/
  runId : String
  /-- The table. -/
  table : String
  /-- The cursor. -/
  lastPrimaryKey : Option PrimaryKey
  /-- The table is done. -/
  complete : Bool
  /-- The chunks done. -/
  chunks : Nat
  /-- The source rows read. -/
  rowsScanned : Nat
  /-- The rows inserted. -/
  inserts : Nat
  /-- The rows updated. -/
  updates : Nat
  /-- The rows deleted. -/
  deletes : Nat
  deriving DecidableEq, Repr

/-! ## Failed mutations -/

/-- A mutation that failed in one of its batches. -/
structure SyncMutationFailure where
  /-- The error number of the server. -/
  mysqlCode : Option Nat
  /-- The message. -/
  message : String
  /-- The batch that failed. -/
  failedBatch : List DatabaseRow
  /-- The rows of the batches after it. -/
  remainingRows : List DatabaseRow

/-- The rows to try again. -/
def SyncMutationFailure.retryRows (failure : SyncMutationFailure) : List DatabaseRow :=
  failure.failedBatch ++ failure.remainingRows

/-- A secondary unique index. -/
structure SyncUniqueIndex where
  /-- The name. -/
  name : String
  /-- The columns. -/
  columns : List String
  deriving DecidableEq, Repr

/-- The values of a row in some columns, none of them NULL. -/
def requiredNonNullValues (row : DatabaseRow) (columns : List String) (label : String) :
    Except String (List String) :=
  columns.mapM fun column =>
    match row.get column with
    | none => Except.error s!"{label} column `{column}` is absent"
    | some none => Except.error s!"{label} column `{column}` is NULL"
    | some (some value) => Except.ok value

/-- The values of a row in the columns of an index. -/
def SyncUniqueIndex.valuesOf (index : SyncUniqueIndex) (row : DatabaseRow) (label : String) :
    Except String (List String) :=
  requiredNonNullValues row index.columns (label ++ " unique")

/-- A row whose values in an index are owned by another row of the target. -/
structure SyncUniqueOwnerConflict where
  /-- The index. -/
  index : SyncUniqueIndex
  /-- The row to write. -/
  intended : DatabaseRow
  /-- The row of the target. -/
  owner : DatabaseRow

/-- What is done to the owner. -/
inductive SyncUniqueOwnerAction where
  /-- It is brought to its source row. -/
  | update (row : DatabaseRow)
  /-- It is deleted. -/
  | delete

/-! ## Pages -/

/-- The largest machine word. -/
def usizeMax : Nat := 2 ^ 64 - 1

/-- Addition that stops at the largest machine word. -/
def saturatingAdd (a b : Nat) : Nat := min (a + b) usizeMax

/-- The byte budget of a page. -/
def maxSyncPagePayloadBytes : Nat := 64 * 1024 * 1024

/-- The bytes of the values of a row. -/
def projectedRowPayloadBytes (row : DatabaseRow) : Nat :=
  (row.values.filterMap Prod.snd).foldl (fun bytes value => saturatingAdd bytes value.utf8ByteSize) 0

/-- The rows of a page while they are collected. -/
structure ByteBoundedRowCollector where
  /-- The rows retained. -/
  rows : List DatabaseRow
  /-- Their bytes. -/
  retainedBytes : Nat
  /-- The row limit. -/
  rowLimit : Nat
  /-- The byte budget. -/
  byteBudget : Nat

namespace ByteBoundedRowCollector

/-- An empty page. -/
def new (rowLimit byteBudget : Nat) : ByteBoundedRowCollector := ⟨[], 0, rowLimit, byteBudget⟩

/-- The next row still fits. -/
def canRetain (collector : ByteBoundedRowCollector) (row : DatabaseRow) : Bool :=
  if collector.rows.length = collector.rowLimit then false
  else
    collector.rows.isEmpty ||
      decide (saturatingAdd collector.retainedBytes (projectedRowPayloadBytes row) ≤
        collector.byteBudget)

/-- Keep a row. -/
def retain (collector : ByteBoundedRowCollector) (row : DatabaseRow) : ByteBoundedRowCollector :=
  { collector with
    retainedBytes := saturatingAdd collector.retainedBytes (projectedRowPayloadBytes row)
    rows := collector.rows ++ [row] }

/-- The page. -/
def finish (collector : ByteBoundedRowCollector) (hasMore : Bool) : SyncChunkPage where
  hasMore := hasMore || collector.rows.length == collector.rowLimit
  rows := collector.rows

/-- Collect rows until one does not fit. -/
def collect (collector : ByteBoundedRowCollector) : List DatabaseRow → SyncChunkPage
  | [] => collector.finish false
  | row :: rest =>
    if collector.canRetain row then (collector.retain row).collect rest
    else collector.finish true

end ByteBoundedRowCollector

/-- What a reader may rely on: the page is the first part of the rows asked for, all of them if
no more is announced, and not empty unless there are none. -/
structure SyncChunkPage.PageOf (page : SyncChunkPage) (selected : List DatabaseRow) : Prop where
  /-- The rows after the page. -/
  rest : ∃ rest, selected = page.rows ++ rest
  /-- Nothing is after a last page. -/
  last : page.hasMore = false → page.rows = selected
  /-- A page of no rows is a last page. -/
  nonempty : page.rows = [] → page.hasMore = false

namespace ByteBoundedRowCollector

/-- The collected page extends what the collector holds by a first part of the rows, and a page
that ends early has reached the limit or holds a row. -/
theorem collect_spec (rows : List DatabaseRow) (collector : ByteBoundedRowCollector) :
    ∃ taken rest, rows = taken ++ rest ∧
      (collector.collect rows).rows = collector.rows ++ taken ∧
      ((collector.collect rows).hasMore = false →
        rest = [] ∧ collector.rows.length + taken.length ≠ collector.rowLimit) ∧
      ((collector.collect rows).hasMore = true →
        collector.rows.length + taken.length = collector.rowLimit ∨ collector.rows ++ taken ≠ []) := by
  induction rows generalizing collector with
  | nil =>
    refine ⟨[], [], rfl, ?_, ?_, ?_⟩
    · simp [collect, finish]
    · simp [collect, finish]
    · intro h
      simp only [collect, finish, Bool.false_or, beq_iff_eq] at h
      exact Or.inl (by simpa using h)
  | cons row rows ih =>
    by_cases hretain : collector.canRetain row = true
    · obtain ⟨taken, rest, hrows, hpage, hlast, hmore⟩ := ih (collector.retain row)
      have hcollect : collector.collect (row :: rows) = (collector.retain row).collect rows := by
        rw [collect, if_pos hretain]
      have hlength : (collector.retain row).rows.length + taken.length =
          collector.rows.length + (row :: taken).length := by
        simp only [retain, List.length_append, List.length_cons, List.length_nil]
        omega
      rw [hcollect]
      refine ⟨row :: taken, rest, by rw [hrows]; rfl, ?_, ?_, ?_⟩
      · rw [hpage]
        simp [retain]
      · intro h
        rw [← hlength]
        exact hlast h
      · intro _
        exact Or.inr (by simp)
    · have hcollect : collector.collect (row :: rows) = collector.finish true := by
        rw [collect, if_neg hretain]
      rw [hcollect]
      refine ⟨[], row :: rows, rfl, by simp [finish], by simp [finish], ?_⟩
      intro _
      unfold canRetain at hretain
      split at hretain
      case isTrue h => exact Or.inl (by simpa using h)
      case isFalse h =>
        refine Or.inr ?_
        intro hnil
        simp only [List.append_nil] at hnil
        simp [hnil] at hretain

end ByteBoundedRowCollector

section Reading

variable [LinearOrder PrimaryKey]

/-- The rows of a table. -/
abbrev SyncRows := KeyedTable DatabaseRow.primaryKey

/-- The page of a request: the server sends the rows between the bounds in key order, up to the
limit. -/
def querySyncPageRows (content : SyncRows) (request : SyncChunkReadRequest) : SyncChunkPage :=
  (ByteBoundedRowCollector.new request.limit maxSyncPagePayloadBytes).collect
    ((content.select request.startAfter request.endAt).take request.limit)

/-- A page read under a positive limit is a page of the rows between the bounds. -/
theorem querySyncPageRows_pageOf (content : SyncRows) {request : SyncChunkReadRequest}
    (hlimit : 0 < request.limit) :
    (querySyncPageRows content request).PageOf (content.select request.startAfter request.endAt) := by
  generalize hselected : content.select request.startAfter request.endAt = selected
  obtain ⟨taken, rest, hrows, hpage, hlast, hmore⟩ :=
    ByteBoundedRowCollector.collect_spec (selected.take request.limit)
      (.new request.limit maxSyncPagePayloadBytes)
  have hquery : querySyncPageRows content request =
      (ByteBoundedRowCollector.new request.limit maxSyncPagePayloadBytes).collect
        (selected.take request.limit) := by
    rw [querySyncPageRows, hselected]
  rw [← hquery] at hpage hlast hmore
  simp only [ByteBoundedRowCollector.new, List.nil_append, List.length_nil, Nat.zero_add]
    at hpage hlast hmore
  refine ⟨⟨rest ++ selected.drop request.limit, ?_⟩, ?_, ?_⟩
  · rw [hpage, ← List.append_assoc, ← hrows, List.take_append_drop]
  · intro h
    obtain ⟨rfl, hlength⟩ := hlast h
    rw [List.append_nil] at hrows
    have hshort : selected.length < request.limit := by
      have hle : taken.length = min request.limit selected.length := by
        rw [← hrows, List.length_take]
      omega
    rw [hpage, ← hrows, List.take_of_length_le hshort.le]
  · intro hnil
    by_contra hcontra
    rw [hpage] at hnil
    rcases hmore (by simpa using hcontra) with h | h
    · rw [hnil] at h
      exact absurd h (by simpa using hlimit.ne)
    · exact h hnil

end Reading

end BinlogCdc
