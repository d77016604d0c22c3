import BinlogCdc.Sync.CursorJson
import BinlogCdc.Sql.Literal
import BinlogCdc.Binlog.SequenceOrder
import BinlogCdc.Core.Result

/-!
# Progress rows

The progress of a stage is stored in a table and read back as one line of fields separated by tabs.
A row comes back as it was stored exactly when none of its free texts has a tab and its error text is
not empty: a tab makes a further field, and an empty error text is read as no error.
-/

namespace BinlogCdc

/-! ## Rows -/

inductive SyncStage where
  | prerequisiteSchema
  | rows
  | finalConstraints
deriving DecidableEq, Repr

namespace SyncStage

def asStr : SyncStage → Text
  | .prerequisiteSchema => "prerequisite_schema".toList
  | .rows => "rows".toList
  | .finalConstraints => "final_constraints".toList

def parse (value : Text) : Except String SyncStage :=
  if value = "prerequisite_schema".toList then .ok .prerequisiteSchema
  else if value = "rows".toList then .ok .rows
  else if value = "final_constraints".toList then .ok .finalConstraints
  else .error ("invalid sync progress stage `" ++ String.ofList value ++ "`")

theorem parse_asStr (stage : SyncStage) : parse stage.asStr = .ok stage := by
  cases stage <;> rfl

end SyncStage

inductive SyncProgressStatus where
  | running
  | complete
  | error
deriving DecidableEq, Repr

namespace SyncProgressStatus

def asStr : SyncProgressStatus → Text
  | .running => "running".toList
  | .complete => "complete".toList
  | .error => "error".toList

def parse (value : Text) : Except String SyncProgressStatus :=
  if value = "running".toList then .ok .running
  else if value = "complete".toList then .ok .complete
  else if value = "error".toList then .ok .error
  else .error ("invalid sync progress status `" ++ String.ofList value ++ "`")

theorem parse_asStr (status : SyncProgressStatus) : parse status.asStr = .ok status := by
  cases status <;> rfl

end SyncProgressStatus

/-- The counters of a row; each is an unsigned 64-bit number. -/
structure SyncCounters where
  chunks : UInt64
  rowsScanned : UInt64
  inserts : UInt64
  updates : UInt64
  deletes : UInt64
deriving DecidableEq, Repr

/-- The progress of a stage of a run. -/
structure SyncProgressRow where
  runId : Text
  stage : SyncStage
  tableName : Text
  lastPrimaryKey : Option (List Text)
  counters : SyncCounters
  status : SyncProgressStatus
  lastError : Option Text
  createdAt : Text
  updatedAt : Text
  completedAt : Option Text
deriving DecidableEq, Repr

/-! ## Storing -/

/-- A parameter or a column value. -/
inductive SqlValue where
  | null
  | bytes (text : Text)
  | uint (value : UInt64)
deriving DecidableEq, Repr

def stringParam (value : Text) : SqlValue := .bytes value

def optionalStringParam (value : Option Text) : SqlValue := (value.map stringParam).getD .null

def optionalJsonParam (json : CursorJson) (value : Option (List Text)) : SqlValue :=
  ((value.map json.write).map SqlValue.bytes).getD .null

/-- The parameters of the upsert, in the order of its columns. -/
def buildSyncProgressUpsertParams (json : CursorJson) (progress : SyncProgressRow) : List SqlValue :=
  [stringParam progress.runId,
    stringParam progress.stage.asStr,
    stringParam progress.tableName,
    stringParam "\x7b\x7d".toList,
    optionalJsonParam json progress.lastPrimaryKey,
    .uint progress.counters.chunks,
    .uint progress.counters.rowsScanned,
    .uint progress.counters.inserts,
    .uint progress.counters.updates,
    .uint progress.counters.deletes,
    stringParam progress.status.asStr,
    optionalStringParam progress.lastError,
    optionalStringParam progress.completedAt]

/-- A moment as the server keeps it. -/
structure Timestamp where
  year : Nat
  month : Nat
  day : Nat
  hour : Nat
  minute : Nat
  second : Nat
  micros : Nat
deriving DecidableEq, Repr

/-- A stored row: the values of its columns, and when it was written. -/
structure StoredProgress where
  runId : SqlValue
  stage : SqlValue
  tableName : SqlValue
  runSpecJson : SqlValue
  lastPrimaryKeyJson : SqlValue
  chunks : SqlValue
  rowsScanned : SqlValue
  insertsApplied : SqlValue
  updatesApplied : SqlValue
  deletesApplied : SqlValue
  status : SqlValue
  lastError : SqlValue
  createdAt : Timestamp
  updatedAt : Timestamp
  completedAt : Option Timestamp
deriving DecidableEq, Repr

/-- The row that new parameters make of the row with the same key, if there is one. An existing row
keeps its specification and its creation time. -/
def upsertProgress (now : Timestamp) (completedAt : Option Timestamp) (params : List SqlValue)
    (existing : Option StoredProgress) : Option StoredProgress :=
  match params with
  | [runId, stage, tableName, runSpecJson, lastPrimaryKeyJson, chunks, rowsScanned, insertsApplied,
      updatesApplied, deletesApplied, status, lastError, _] =>
    some ⟨runId, stage, tableName, (existing.map StoredProgress.runSpecJson).getD runSpecJson,
      lastPrimaryKeyJson, chunks, rowsScanned, insertsApplied, updatesApplied, deletesApplied,
      status, lastError, (existing.map StoredProgress.createdAt).getD now, now, completedAt⟩
  | _ => none

/-! ## Loading -/

def pad (width n : Nat) : Text :=
  List.replicate (width - (Nat.toDigits 10 n).length) '0' ++ Nat.toDigits 10 n

/-- The text of a moment in the format of the select. -/
def dateFormat (moment : Timestamp) : Text :=
  pad 4 moment.year ++ '-' :: (pad 2 moment.month ++ '-' :: (pad 2 moment.day ++
    ' ' :: (pad 2 moment.hour ++ ':' :: (pad 2 moment.minute ++ ':' :: (pad 2 moment.second ++
      '.' :: pad 6 moment.micros)))))

def coalesceEmpty : SqlValue → SqlValue
  | .null => .bytes []
  | value => value

/-- The columns that the select returns. -/
def selectProgress (row : StoredProgress) : List SqlValue :=
  [row.runId, row.stage, row.tableName, coalesceEmpty row.lastPrimaryKeyJson, row.chunks,
    row.rowsScanned, row.insertsApplied, row.updatesApplied, row.deletesApplied, row.status,
    coalesceEmpty row.lastError, .bytes (dateFormat row.createdAt),
    .bytes (dateFormat row.updatedAt),
    coalesceEmpty (((row.completedAt.map dateFormat).map SqlValue.bytes).getD .null)]

def valueToString : SqlValue → Option Text
  | .null => none
  | .bytes text => some text
  | .uint value => some (Nat.toDigits 10 value.toNat)

def mysqlRowToTsv (row : List SqlValue) : Text :=
  ['\t'].intercalate (row.map fun value => (valueToString value).getD [])

def parseOptionalCursor (json : CursorJson) (value : Text) : Except String (Option (List Text)) :=
  if value.isEmpty then .ok none
  else
    match json.read value with
    | .ok cursor => .ok (some cursor)
    | .error error => .error ("invalid sync progress cursor JSON: " ++ error)

def parseCount (field : String) (value : Text) : Except String UInt64 :=
  match parseU64 value with
  | some count => .ok (UInt64.ofNat count)
  | none => .error ("invalid sync progress " ++ field ++ " `" ++ String.ofList value ++ "`")

def optionalString (value : Text) : Option Text := if value.isEmpty then none else some value

/-- The row of a line. -/
def parseSyncProgressRow (json : CursorJson) (output : Text) : Except String SyncProgressRow :=
  let line := Text.trimEndMatches (fun c => c == '\r' || c == '\n') output
  match line.splitOn '\t' with
  | [runId, stage, tableName, cursor, chunks, rowsScanned, inserts, updates, deletes, status,
      lastError, createdAt, updatedAt, completedAt] => do
    let stage ← SyncStage.parse stage
    let lastPrimaryKey ← parseOptionalCursor json cursor
    let chunks ← parseCount "chunks" chunks
    let rowsScanned ← parseCount "rows_scanned" rowsScanned
    let inserts ← parseCount "inserts_applied" inserts
    let updates ← parseCount "updates_applied" updates
    let deletes ← parseCount "deletes_applied" deletes
    let status ← SyncProgressStatus.parse status
    return ⟨runId, stage, tableName, lastPrimaryKey, ⟨chunks, rowsScanned, inserts, updates, deletes⟩,
      status, optionalString lastError, createdAt, updatedAt, optionalString completedAt⟩
  | fields => .error ("sync progress row has " ++ toString fields.length ++ " fields, expected 14")

/-! ## The table -/

/-- The rows of the progress table by run, stage and table. -/
abbrev ProgressTable := Text → Text → Text → Option StoredProgress

/-- The value that the server reads from a literal. -/
def literalValue (text : Text) : Option Text :=
  match textTokens text with
  | some [.literal value] => some value
  | _ => none

/-- Store the progress of a stage; the moments are the server's. -/
def saveStage (json : CursorJson) (now : Timestamp) (completedAt : Option Timestamp)
    (table : ProgressTable) (progress : SyncProgressRow) : ProgressTable :=
  fun runId stage tableName =>
    if runId = progress.runId ∧ stage = progress.stage.asStr ∧ tableName = progress.tableName then
      upsertProgress now completedAt (buildSyncProgressUpsertParams json progress)
        (table runId stage tableName)
    else table runId stage tableName

/-- Load the progress of a stage, by the literals of the select. -/
def loadStage (json : CursorJson) (table : ProgressTable) (runId : Text) (stage : SyncStage)
    (tableName : Text) : Except String (Option SyncProgressRow) :=
  match literalValue (quoteSqlLiteral runId), literalValue (quoteSqlLiteral stage.asStr),
      literalValue (quoteSqlLiteral tableName) with
  | some runId, some stage, some tableName =>
    match table runId stage tableName with
    | none => .ok none
    | some row => (parseSyncProgressRow json (mysqlRowToTsv (selectProgress row))).map some
  | _, _, _ => .error "read sync progress row"

/-! ## Fields of a line -/

theorem splitOn_intercalate_flatMap {x : Char} {fields : List Text} (hfields : fields ≠ []) :
    ([x].intercalate fields).splitOn x = fields.flatMap (List.splitOn x) := by
  induction fields with
  | nil => exact absurd rfl hfields
  | cons field fields ih =>
    cases fields with
    | nil => simp
    | cons other fields =>
      rw [List.intercalate_cons_cons, List.append_assoc, List.singleton_append,
        List.splitOn_append_cons_self, ih (by simp), @List.flatMap_cons _ _ field]

/-- A line has as many fields as were joined exactly when none of them has the separator. -/
theorem length_splitOn_intercalate {x : Char} {fields : List Text} (hfields : fields ≠ []) :
    (([x].intercalate fields).splitOn x).length = fields.length ↔ ∀ field ∈ fields, x ∉ field := by
  constructor
  · rw [splitOn_intercalate_flatMap hfields]
    clear hfields
    have hpos : ∀ field : Text, 1 ≤ (field.splitOn x).length := fun field =>
      List.length_pos_iff.mpr (List.splitOn_ne_nil x field)
    have hle : ∀ fields : List Text, fields.length ≤ (fields.flatMap (List.splitOn x)).length := by
      intro fields
      induction fields with
      | nil => exact le_rfl
      | cons field fields ih =>
        have := hpos field
        rw [List.flatMap_cons, List.length_append, List.length_cons]
        omega
    induction fields with
    | nil => exact fun _ _ hnone => by cases hnone
    | cons field fields ih =>
      intro hlength
      have hfirst := hpos field
      have hrest := hle fields
      rw [List.flatMap_cons, List.length_append, List.length_cons] at hlength
      refine List.forall_mem_cons.mpr ⟨fun hmem => ?_, ih (by omega)⟩
      obtain ⟨front, back, rfl⟩ := List.append_of_mem hmem
      have hfront := hpos front
      have hback := hpos back
      rw [List.splitOn_append_cons_self, List.length_append] at hlength
      omega
  · intro h
    rw [List.splitOn_intercalate x h hfields]

theorem intercalate_concat {x : Char} {fields : List Text} (hfields : fields ≠ []) (last : Text) :
    [x].intercalate (fields ++ [last]) = [x].intercalate fields ++ x :: last := by
  induction fields with
  | nil => exact absurd rfl hfields
  | cons field fields ih =>
    cases fields with
    | nil => simp
    | cons other fields =>
      have hrest := ih (by simp)
      rw [List.cons_append] at hrest ⊢
      rw [List.cons_append, List.intercalate_cons_cons, hrest, List.intercalate_cons_cons]
      simp

/-- Nothing is trimmed from a line whose last field ends with a kept character. -/
theorem trimEndMatches_intercalate {x : Char} {drop : Char → Bool} {fields : List Text}
    (hfields : fields ≠ []) {last : Text} (hx : drop x = false) (hlast : ∀ c ∈ last, drop c = false) :
    Text.trimEndMatches drop ([x].intercalate (fields ++ [last])) =
      [x].intercalate (fields ++ [last]) := by
  have hkept : ∀ front : Text, (last.reverse ++ x :: front).dropWhile drop =
      last.reverse ++ x :: front := by
    intro front
    cases hreverse : last.reverse with
    | nil => simp [hx]
    | cons c rest =>
      have hc : drop c = false := hlast c (List.mem_reverse.mp (by rw [hreverse]; simp))
      simp [hc]
  rw [intercalate_concat hfields, Text.trimEndMatches, List.reverse_append, List.reverse_cons,
    List.append_assoc, List.singleton_append, hkept]
  simp

/-! ## What is read back -/

theorem parseU64_toDigits (value : UInt64) :
    parseU64 (Nat.toDigits 10 value.toNat) = some value.toNat := by
  have hvalue := decimalValue_toDigits value.toNat
  have hparse := parseU64_eq_some Nat.toDigits_ne_nil
    (fun c hc => Nat.isDigit_of_mem_toDigits (by decide) (by decide) hc)
    (show decimalValue (Nat.toDigits 10 value.toNat) < 2 ^ 64 by rw [hvalue]; exact value.toNat_lt)
  rwa [hvalue] at hparse

theorem parseCount_toDigits (field : String) (value : UInt64) :
    parseCount field (Nat.toDigits 10 value.toNat) = .ok value := by
  rw [parseCount, parseU64_toDigits]
  simp

theorem tab_notMem_toDigits (n : Nat) : '\t' ∉ Nat.toDigits 10 n := by
  intro h
  exact absurd (Nat.isDigit_of_mem_toDigits (by decide) (by decide) h) (by decide)

/-- The characters of a moment. -/
theorem mem_dateFormat {moment : Timestamp} {c : Char} (h : c ∈ dateFormat moment) :
    c.isDigit = true ∨ c = '-' ∨ c = ' ' ∨ c = ':' ∨ c = '.' := by
  have hpad : ∀ width n, c ∈ pad width n → c.isDigit = true := by
    intro width n hc
    rcases List.mem_append.mp hc with hzero | hdigit
    · rw [List.eq_of_mem_replicate hzero]
      decide
    · exact Nat.isDigit_of_mem_toDigits (by decide) (by decide) hdigit
  simp only [dateFormat, List.mem_append, List.mem_cons] at h
  rcases h with h | rfl | h | rfl | h | rfl | h | rfl | h | rfl | h | rfl | h
  all_goals first | exact .inl (hpad _ _ h) | simp

theorem tab_notMem_dateFormat (moment : Timestamp) : '\t' ∉ dateFormat moment := by
  intro h
  have hcases := mem_dateFormat h
  revert hcases
  decide

/-! ## The round trip -/

/-- The free texts have no tab, and an error text is not empty. -/
structure SyncProgressRow.Loadable (progress : SyncProgressRow) : Prop where
  runId : '\t' ∉ progress.runId
  tableName : '\t' ∉ progress.tableName
  lastError : ∀ error ∈ progress.lastError, error ≠ [] ∧ '\t' ∉ error

/-- The rows agree in everything but their moments. -/
structure SyncProgressRow.SameProgress (loaded progress : SyncProgressRow) : Prop where
  runId : loaded.runId = progress.runId
  stage : loaded.stage = progress.stage
  tableName : loaded.tableName = progress.tableName
  lastPrimaryKey : loaded.lastPrimaryKey = progress.lastPrimaryKey
  counters : loaded.counters = progress.counters
  status : loaded.status = progress.status
  lastError : loaded.lastError = progress.lastError

section RoundTrip

variable (json : CursorJson)

/-- The fields of the line of a row, but the last one. -/
def progressFields (progress : SyncProgressRow) (createdAt updatedAt : Timestamp) : List Text :=
  [progress.runId, progress.stage.asStr, progress.tableName,
    (progress.lastPrimaryKey.map json.write).getD [],
    Nat.toDigits 10 progress.counters.chunks.toNat,
    Nat.toDigits 10 progress.counters.rowsScanned.toNat,
    Nat.toDigits 10 progress.counters.inserts.toNat,
    Nat.toDigits 10 progress.counters.updates.toNat,
    Nat.toDigits 10 progress.counters.deletes.toNat,
    progress.status.asStr, progress.lastError.getD [], dateFormat createdAt, dateFormat updatedAt]

variable {json}

theorem literalValue_quote (value : Text) : literalValue (quoteSqlLiteral value) = some value := by
  rw [literalValue, (readsAs_quoteSqlLiteral value).textTokens]

/-- What is loaded is the line of what was stored. -/
theorem loadStage_saveStage (now : Timestamp) (completedAt : Option Timestamp)
    (table : ProgressTable) (progress : SyncProgressRow) :
    ∃ createdAt, loadStage json (saveStage json now completedAt table progress) progress.runId
        progress.stage progress.tableName =
      (parseSyncProgressRow json (['\t'].intercalate (progressFields json progress createdAt now ++
        [(completedAt.map dateFormat).getD []]))).map some := by
  refine ⟨((table progress.runId progress.stage.asStr progress.tableName).map
    StoredProgress.createdAt).getD now, ?_⟩
  rw [loadStage, literalValue_quote, literalValue_quote, literalValue_quote]
  simp only [saveStage, and_self, if_true, upsertProgress, buildSyncProgressUpsertParams]
  congr 3
  obtain ⟨runId, stage, tableName, lastPrimaryKey, counters, status, lastError, -, -, -⟩ := progress
  cases lastPrimaryKey <;> cases lastError <;> cases completedAt <;> rfl

theorem trimEnd_progressLine (progress : SyncProgressRow) (createdAt now : Timestamp)
    (completedAt : Option Timestamp) :
    Text.trimEndMatches (fun c => c == '\r' || c == '\n')
        (['\t'].intercalate (progressFields json progress createdAt now ++
          [(completedAt.map dateFormat).getD []])) =
      ['\t'].intercalate (progressFields json progress createdAt now ++
        [(completedAt.map dateFormat).getD []]) := by
  refine trimEndMatches_intercalate (by simp [progressFields]) (by decide) fun c hc => ?_
  cases completedAt with
  | none => cases hc
  | some moment =>
    have hcases := mem_dateFormat hc
    by_contra hdrop
    have hend : c = '\r' ∨ c = '\n' := by
      rw [Bool.not_eq_false, Bool.or_eq_true, beq_iff_eq, beq_iff_eq] at hdrop
      exact hdrop
    rcases hend with rfl | rfl
    · revert hcases
      decide
    · revert hcases
      decide

/-- Only the free texts can have a tab. -/
theorem tab_notMem_progressFields (progress : SyncProgressRow) (createdAt now : Timestamp)
    (completedAt : Option Timestamp) :
    (∀ field ∈ progressFields json progress createdAt now ++
        [(completedAt.map dateFormat).getD []], '\t' ∉ field) ↔
      '\t' ∉ progress.runId ∧ '\t' ∉ progress.tableName ∧ '\t' ∉ progress.lastError.getD [] := by
  have hstage : '\t' ∉ progress.stage.asStr := by cases progress.stage <;> decide
  have hstatus : '\t' ∉ progress.status.asStr := by cases progress.status <;> decide
  have hcursor : '\t' ∉ (progress.lastPrimaryKey.map json.write).getD [] := by
    cases progress.lastPrimaryKey with
    | none => exact List.not_mem_nil
    | some cursor => exact json.write_escapes cursor
  have hcompleted : '\t' ∉ (completedAt.map dateFormat).getD [] := by
    cases completedAt with
    | none => exact List.not_mem_nil
    | some moment => exact tab_notMem_dateFormat moment
  simp [progressFields, hstage, hstatus, hcursor, hcompleted, tab_notMem_toDigits,
    tab_notMem_dateFormat]

/-- Without tabs the line is read as the row, with an empty error text as no error. -/
theorem parseSyncProgressRow_progressLine {progress : SyncProgressRow} {createdAt now : Timestamp}
    {completedAt : Option Timestamp} (hrunId : '\t' ∉ progress.runId)
    (htableName : '\t' ∉ progress.tableName) (hlastError : '\t' ∉ progress.lastError.getD []) :
    parseSyncProgressRow json (['\t'].intercalate (progressFields json progress createdAt now ++
        [(completedAt.map dateFormat).getD []])) =
      .ok { progress with
        lastError := optionalString (progress.lastError.getD [])
        createdAt := dateFormat createdAt
        updatedAt := dateFormat now
        completedAt := optionalString ((completedAt.map dateFormat).getD []) } := by
  have hsplit := List.splitOn_intercalate '\t'
    ((@tab_notMem_progressFields json progress createdAt now completedAt).mpr
      ⟨hrunId, htableName, hlastError⟩) (by simp)
  have hcursor : parseOptionalCursor json ((progress.lastPrimaryKey.map json.write).getD []) =
      .ok progress.lastPrimaryKey := by
    cases progress.lastPrimaryKey with
    | none => rfl
    | some cursor =>
      rw [parseOptionalCursor, Option.map_some, Option.getD_some, if_neg (by
        rw [List.isEmpty_iff]
        exact json.write_ne_nil cursor), json.read_write]
  unfold parseSyncProgressRow
  rw [trimEnd_progressLine]
  dsimp only
  rw [hsplit]
  simp only [progressFields, List.cons_append, List.nil_append, SyncStage.parse_asStr, hcursor,
    parseCount_toDigits, SyncProgressStatus.parse_asStr]
  rfl

theorem length_of_parseSyncProgressRow {fields : List Text} {loaded : SyncProgressRow}
    (h : parseSyncProgressRow json (['\t'].intercalate fields) = .ok loaded)
    (htrim : Text.trimEndMatches (fun c => c == '\r' || c == '\n') (['\t'].intercalate fields) =
      ['\t'].intercalate fields) :
    ((['\t'].intercalate fields).splitOn '\t').length = 14 := by
  unfold parseSyncProgressRow at h
  rw [htrim] at h
  dsimp only at h
  split at h
  case h_1 heq => rw [heq]; rfl
  case h_2 => cases h

/-- For every row, stored over any row and at any time, what is loaded is the same progress exactly
when the run, the table and the error text have no tab and the error text is not empty. -/
theorem sync_progress_round_trip_iff (json : CursorJson) (table : ProgressTable) (now : Timestamp)
    (completedAt : Option Timestamp) (progress : SyncProgressRow) :
    (∃ loaded, loadStage json (saveStage json now completedAt table progress) progress.runId
      progress.stage progress.tableName = .ok (some loaded) ∧ loaded.SameProgress progress) ↔
      progress.Loadable := by
  obtain ⟨createdAt, hload⟩ := @loadStage_saveStage json now completedAt table progress
  rw [hload]
  constructor
  · rintro ⟨loaded, hloaded, hsame⟩
    have hparsed : parseSyncProgressRow json (['\t'].intercalate
        (progressFields json progress createdAt now ++ [(completedAt.map dateFormat).getD []])) =
        .ok loaded := by
      cases hparse : parseSyncProgressRow json (['\t'].intercalate
          (progressFields json progress createdAt now ++
            [(completedAt.map dateFormat).getD []])) with
      | error message => rw [hparse] at hloaded; cases hloaded
      | ok row =>
        rw [hparse] at hloaded
        rw [Option.some.inj (Except.ok.inj hloaded)]
    have hfields := (length_splitOn_intercalate (by simp)).mp
      (length_of_parseSyncProgressRow hparsed (trimEnd_progressLine progress createdAt now completedAt))
    obtain ⟨hrunId, htableName, hlastError⟩ :=
      (tab_notMem_progressFields progress createdAt now completedAt).mp hfields
    rw [parseSyncProgressRow_progressLine hrunId htableName hlastError] at hparsed
    obtain rfl := Except.ok.inj hparsed
    refine ⟨hrunId, htableName, fun error herror => ?_⟩
    have hsameError := hsame.lastError
    rw [herror] at hsameError hlastError
    refine ⟨?_, hlastError⟩
    rintro rfl
    cases hsameError
  · intro h
    have hlastError : '\t' ∉ progress.lastError.getD [] := by
      cases herror : progress.lastError with
      | none => exact List.not_mem_nil
      | some error => exact (h.lastError error herror).2
    refine ⟨_, by rw [parseSyncProgressRow_progressLine h.runId h.tableName hlastError]; rfl, ?_⟩
    refine ⟨rfl, rfl, rfl, rfl, rfl, rfl, ?_⟩
    cases herror : progress.lastError with
    | none => rfl
    | some error =>
      have hne : ¬ error.isEmpty = true := by
        rw [List.isEmpty_iff]
        exact (h.lastError error herror).1
      exact if_neg hne

/-- An error text with a tab makes a row that cannot be loaded. -/
theorem sync_progress_tab_in_error :
    loadStage compactJson (saveStage compactJson ⟨2026, 8, 17, 12, 0, 0, 0⟩ none
        (fun _ _ _ => none)
        ⟨"run-1".toList, .rows, "episodes".toList, none, ⟨0, 0, 0, 0, 0⟩, .error,
          some "near\tline 1".toList, [], [], none⟩)
      "run-1".toList .rows "episodes".toList =
      .error "sync progress row has 15 fields, expected 14" := by
  decide +kernel

end RoundTrip

end BinlogCdc
