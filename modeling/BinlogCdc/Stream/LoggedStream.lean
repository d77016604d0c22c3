import BinlogCdc.Binlog.EventLog
import BinlogCdc.Stream.Durability
import BinlogCdc.Stream.GroupCommit
import BinlogCdc.Stream.RowExactness

/-!
# The stream of a log

The stream handles the events that the reading thread delivers of a log. Wherever it stops, the work of
every event in front of the durable checkpoint is durable, although the reader may report a wrong
position for an event. The rows of the log are mapped from the bytes as they are stored, if enough is
known of their table.
-/

namespace BinlogCdc.MysqlCdc

open BinlogCdc.Core

/-! ## Places in a log -/

section Places

variable (fileIndex : String → Nat)

/-- Files stand in the order of the source, and coordinates in the order of their files. -/
def place (coordinate : BinlogCoordinate) : ℕ ×ₗ ℕ :=
  toLex (fileIndex coordinate.file, coordinate.position)

/-- Rotations lead forward. -/
def Ascends : BinlogCoordinate → List LogEntry → Prop
  | _, [] => True
  | coordinate, entry :: entries =>
    place fileIndex coordinate ≤ place fileIndex (entry.coordinateAfter coordinate) ∧
      Ascends (entry.coordinateAfter coordinate) entries

variable {fileIndex}

theorem place_le {coordinate : BinlogCoordinate} {file : String} {position : Nat}
    (hfile : file = coordinate.file) (h : position ≤ coordinate.position) :
    place fileIndex ⟨file, position⟩ ≤ place fileIndex coordinate := by
  subst hfile
  exact Prod.Lex.toLex_le_toLex.mpr (.inr ⟨rfl, h⟩)

theorem Ascends.place_le {front back : List LogEntry} {coordinate : BinlogCoordinate}
    (h : Ascends fileIndex coordinate (front ++ back)) :
    place fileIndex coordinate ≤ place fileIndex (coordinateBehind front coordinate) := by
  induction front generalizing coordinate with
  | nil => exact le_refl _
  | cons entry entries ih => exact h.1.trans (ih h.2)

/-- Further events start further behind. -/
theorem Ascends.place_take_le {log : List LogEntry} {coordinate : BinlogCoordinate}
    (h : Ascends fileIndex coordinate log) {count more : Nat} (hle : count ≤ more) :
    place fileIndex (coordinateBehind (log.take count) coordinate) ≤
      place fileIndex (coordinateBehind (log.take more) coordinate) := by
  induction log generalizing coordinate count more with
  | nil => simp
  | cons entry entries ih =>
    cases count with
    | zero =>
      have hfront : Ascends fileIndex coordinate ((entry :: entries).take more ++
          (entry :: entries).drop more) := by rwa [List.take_append_drop]
      exact hfront.place_le
    | succ count =>
      obtain ⟨more, rfl⟩ : ∃ others, more = others + 1 := ⟨more - 1, by omega⟩
      exact ih h.2 (Nat.le_of_succ_le_succ hle)

end Places

/-! ## What the stream handles -/

/-- The events that the stream receives: those before an error. -/
def streamInputs (items : List (Except (Halt Error) ReadEvent)) : List SourceStreamEvent :=
  items.filterMap fun item => item.toOption.map ReadEvent.toSourceStreamEvent

/-- The events of a log as the stream receives them. -/
noncomputable def loggedInputs (ending : Ending) (position : Nat) (log : List LogEntry) :
    List SourceStreamEvent :=
  streamInputs ((deliveries ending position log).map (·.mapError Halt.rejected))

theorem loggedInputs_nil (ending : Ending) (position : Nat) : loggedInputs ending position [] = [] := by
  cases ending <;> rfl

theorem loggedInputs_error {ending : Ending} {entry : LogEntry} {error : Error}
    (h : entry.event.outcome entry.serverId = .error error) (position : Nat) (entries : List LogEntry) :
    loggedInputs ending position (entry :: entries) = [] := by
  rw [loggedInputs, deliveries, h]
  rfl

theorem loggedInputs_ok {ending : Ending} {entry : LogEntry} {event : BinlogEvent}
    (h : entry.event.outcome entry.serverId = .ok event) (position : Nat) (entries : List LogEntry) :
    loggedInputs ending position (entry :: entries) =
      ReadEvent.toSourceStreamEvent ⟨entry.header, event, position⟩ ::
        loggedInputs ending (nextSourcePosition position entry.header event) entries := by
  rw [loggedInputs, deliveries, h]
  rfl

/-! ## Ends of events -/

section Ends

variable {fileIndex : String → Nat} {semantics : DdlSemantics} {codec : RowCodec} {origin : Reader}
  {coordinate : BinlogCoordinate} {entry : LogEntry} {entries : List LogEntry} {event : BinlogEvent}

theorem dispatch_currentFile {input : SourceStreamEvent} (h : input.event.isRotate = false) :
    (origin.dispatch semantics codec input).currentFile = origin.currentFile := by
  unfold Reader.dispatch
  split
  · exact Reader.read_currentFile h
  · rfl

/-- The stream takes an event to end where the next one starts, or it has no end for it. -/
theorem endOf_logged (fileIndex : String → Nat) (hplaced : Placed coordinate (entry :: entries))
    (h : entry.event.outcome entry.serverId = .ok event) (hfile : origin.currentFile = coordinate.file)
    (position : Nat) :
    place fileIndex (origin.endOf (ReadEvent.toSourceStreamEvent ⟨entry.header, event, position⟩)) ≤
        place fileIndex (entry.coordinateAfter coordinate) ∧
      (origin.dispatch semantics codec
        (ReadEvent.toSourceStreamEvent ⟨entry.header, event, position⟩)).currentFile =
          (entry.coordinateAfter coordinate).file := by
  rcases rotation_of_outcome h with ⟨target, hrotation, rfl⟩ | ⟨hrotation, hevent⟩
  · rw [LogEntry.coordinateAfter, hrotation]
    exact ⟨le_refl _, rfl⟩
  · have hrotate : event.toSource.isRotate = false := by
      cases event with
      | rotateEvent file position => exact absurd rfl (hevent file position)
      | _ => rfl
    have hend : origin.endOf (ReadEvent.toSourceStreamEvent ⟨entry.header, event, position⟩) =
        ⟨origin.currentFile, entry.nextEventPosition⟩ := by
      cases event with
      | rotateEvent file position => exact absurd rfl (hevent file position)
      | _ => rfl
    have hafter : (entry.coordinateAfter coordinate).file = coordinate.file := by
      rw [LogEntry.coordinateAfter, hrotation]
      rfl
    rw [hend, dispatch_currentFile hrotate, hfile, hafter]
    refine ⟨place_le hafter.symm ?_, rfl⟩
    by_cases hnext : entry.nextEventPosition = 0
    · omega
    · exact (hplaced.2.1 hrotation hnext).le

/-- No event is taken to end behind the start of the next one. -/
theorem endOf_loggedInputs {log : List LogEntry} (hplaced : Placed coordinate log)
    (hfile : origin.currentFile = coordinate.file) {ending : Ending} {position : Nat}
    {before rest : List SourceStreamEvent} {input : SourceStreamEvent}
    (h : loggedInputs ending position log = before ++ input :: rest) :
    place fileIndex ((origin.dispatchAll semantics codec before).endOf input) ≤
      place fileIndex (coordinateBehind (log.take (before.length + 1)) coordinate) := by
  induction log generalizing coordinate origin position before with
  | nil =>
    rw [loggedInputs_nil] at h
    exact absurd h.symm (List.append_ne_nil_of_right_ne_nil before (List.cons_ne_nil input rest))
  | cons entry entries ih =>
    cases houtcome : entry.event.outcome entry.serverId with
    | error error =>
      rw [loggedInputs_error houtcome] at h
      exact absurd h.symm (List.append_ne_nil_of_right_ne_nil before (List.cons_ne_nil input rest))
    | ok event =>
      obtain ⟨hend, hnext⟩ := endOf_logged fileIndex hplaced houtcome hfile position
      rw [loggedInputs_ok houtcome] at h
      cases before with
      | nil =>
        obtain ⟨rfl, -⟩ := List.cons.inj h
        exact hend
      | cons first others =>
        obtain ⟨rfl, hlater⟩ := List.cons.inj h
        exact ih hplaced.2.2 hnext hlater

end Ends

/-- A world whose tables have an id and a mood. -/
def diaryWorld : World :=
  { quietWorld fun _ => 0 with
    codec := { idCodec with
      mapTableMapEvent := fun _ tableMap => .ok (some
        ⟨tableMap.tableId, tableMap.databaseName, tableMap.tableName, ["id", "mood"], ["id"], [], [],
          [], []⟩) } }

/-- A field of a stored row with the layout of its column. -/
structure LoggedField extends StoredField where
  layout : ColumnLayout column.type

/-- The field in an image that has every column. -/
def LoggedField.image (field : LoggedField) : ImageField where
  type := field.column.type
  layout := field.layout
  present := true
  value := field.value

def storedRow (row : List LoggedField) : List StoredField := row.map LoggedField.toStoredField

/-- The row that is read of the image is that of the stored fields. -/
theorem imageRow_image (row : List LoggedField) :
    imageRow (row.map LoggedField.image) = rowData (storedRow row) := by
  rw [imageRow, rowData, storedRow, List.map_map, List.map_map]
  rfl

/-- The table map tells enumerations and sets as they are. -/
theorem layout_kinds {type : SourceColumnType} (layout : ColumnLayout type) :
    isEnumColumn layout.code layout.metadata = type.labels.isSome ∧
      isSetColumn layout.code layout.metadata = type.members.isSome := by
  cases layout with
  | @integer width =>
    cases width <;> exact ⟨rfl, rfl⟩
  | char size hsize =>
    have hall : ∀ size < 1024, isEnumColumn 254 (charMetadata size) = false ∧
        isSetColumn 254 (charMetadata size) = false := by decide +kernel
    exact hall size hsize
  | blob code lengthBytes hcode =>
    simp only [List.mem_cons, List.not_mem_nil, or_false] at hcode
    rcases hcode with rfl | rfl | rfl | rfl | rfl | rfl <;> exact ⟨rfl, rfl⟩
  | enum width hwidth =>
    have hall : ∀ width < 3, isEnumColumn 254 (UInt16.ofNat (247 * 256 + width)) = true ∧
        isSetColumn 254 (UInt16.ofNat (247 * 256 + width)) = false := by decide
    exact hall width (by omega)
  | set width hwidth =>
    have hall : ∀ width < 9, isEnumColumn 254 (UInt16.ofNat (248 * 256 + width)) = false ∧
        isSetColumn 254 (UInt16.ofNat (248 * 256 + width)) = true := by decide
    exact hall width (by omega)
  | _ => exact ⟨rfl, rfl⟩

/-- A table map with the layouts of a row of the table announces the table. -/
theorem announces_image {definition : TableDefinition} {table : TableMapEvent} {row : List LoggedField}
    {columnsPresent : List Bool} (hrow : IsRow definition (storedRow row))
    (himage : IsImage table.toSourceTableMap columnsPresent (row.map LoggedField.image))
    (hmetadata : ∀ metadata ∈ table.toMysqlCdcTableMapEvent.tableMetadata, metadata.Correct definition) :
    Announces definition table.toMysqlCdcTableMapEvent := by
  have hcolumns : definition.columns = row.map fun field => field.column := by
    rw [← hrow, storedRow, List.map_map]
    rfl
  have htypes : table.columnTypes = row.map fun field => field.layout.code := by
    rw [himage.columnTypes, List.map_map]
    rfl
  have hmetadatas : table.columnMetadata = row.map fun field => field.layout.metadata := by
    rw [himage.columnMetadata, List.map_map]
    rfl
  refine ⟨?_, ?_, hmetadata⟩
  · rw [hcolumns, List.length_map]
    exact (congrArg List.length htypes).trans (List.length_map _)
  · show List.Forall₂ _ definition.columns (table.columnTypes.zip table.columnMetadata)
    rw [hcolumns, htypes, hmetadatas, List.zip_map', List.forall₂_map_left_iff,
      List.forall₂_map_right_iff, List.forall₂_same]
    exact fun field _ => layout_kinds field.layout

def diaryFields (mood : Nat) (h : mood ≤ 2 ∧ mood < 65536) : List LoggedField :=
  [⟨⟨⟨"id", .integer .tiny false, false⟩, diaryId.value⟩, diaryId.layout⟩,
    ⟨⟨⟨"mood", .enum ["glad", "sad"], false⟩, (diaryMood mood h).value⟩, (diaryMood mood h).layout⟩]

end BinlogCdc.MysqlCdc
