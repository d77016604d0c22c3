import BinlogCdc.Stream.Ledger

/-!
# Reading a list of events

What the stream has read, and which work it applied, after a list of events. Both depend
only on the events and on what was known before them, so they can be compared with the
target at any later moment. The state a stream attempt starts in is fixed here as well.
-/

namespace BinlogCdc

namespace Reader

variable (codec : RowCodec) (reader : Reader)

/-- The reader at the start of an event. -/
def located (position : Nat) : Reader :=
  { reader with state := reader.state.recordEventPosition position }

/-- The work the handlers apply for an event of the source. -/
def workOf (input : SourceStreamEvent) : List TargetWork :=
  (reader.located input.sourcePosition).work codec input.header input.event

/-- What is known after an event of the source. -/
def read (input : SourceStreamEvent) : Reader :=
  (reader.located input.sourcePosition).next codec input.header input.event

/-- What is known after a list of events. -/
def readAll (inputs : List SourceStreamEvent) : Reader :=
  inputs.foldl (fun reader input => reader.read codec input) reader

/-- The work of a list of events. -/
def works : Reader → List SourceStreamEvent → List TargetWork
  | _, [] => []
  | reader, input :: rest => reader.workOf codec input ++ works (reader.read codec input) rest

variable {reader}

@[simp] theorem readAll_nil : reader.readAll codec [] = reader := rfl

@[simp] theorem readAll_append (xs ys : List SourceStreamEvent) :
    reader.readAll codec (xs ++ ys) = (reader.readAll codec xs).readAll codec ys :=
  List.foldl_append

@[simp] theorem readAll_cons (input : SourceStreamEvent) (rest : List SourceStreamEvent) :
    reader.readAll codec (input :: rest) = (reader.read codec input).readAll codec rest := rfl

@[simp] theorem works_nil : reader.works codec [] = [] := rfl

@[simp] theorem works_singleton (input : SourceStreamEvent) :
    reader.works codec [input] = reader.workOf codec input := by simp [works]

@[simp] theorem works_append (xs ys : List SourceStreamEvent) :
    reader.works codec (xs ++ ys) =
      reader.works codec xs ++ (reader.readAll codec xs).works codec ys := by
  induction xs generalizing reader with
  | nil => rfl
  | cons x xs ih => simp [works, ih]

end Reader

/-- The state at the start of an event. -/
def StreamCore.located (c : StreamCore) (position : Nat) : StreamCore :=
  { c with state := c.state.recordEventPosition position }

@[simp] theorem StreamCore.located_reader (c : StreamCore) (position : Nat) :
    (c.located position).reader = c.reader.located position := rfl

theorem StreamCore.Sound.located {c : StreamCore} (h : c.Sound) (position : Nat) :
    (c.located position).Sound := ⟨h.valid, h.onlyWork, h.closed⟩

namespace StreamCore

/-- The state after an event of the source. -/
def consumed (codec : RowCodec) (config : TargetTransactionGroupConfig) (c : StreamCore)
    (input : SourceStreamEvent) (now : Readings) : StreamCore :=
  (c.located input.sourcePosition).applied codec config input.header input.event now

/-- The operations for an event of the source. -/
def inputScript (codec : RowCodec) (config : TargetTransactionGroupConfig) (c : StreamCore)
    (input : SourceStreamEvent) (now : Readings) : List TraceEntry :=
  (c.located input.sourcePosition).eventScript codec config input.header input.event now

variable {codec : RowCodec} {config : TargetTransactionGroupConfig} {c : StreamCore}
  {input : SourceStreamEvent}

theorem consumed_reader (now : Readings) :
    (c.consumed codec config input now).reader = c.reader.read codec input := by
  unfold consumed
  rw [applied_reader]
  rfl

theorem consumed_sound (h : c.Sound) (now : Readings) : (c.consumed codec config input now).Sound :=
  (applied_sound (h.located input.sourcePosition) now).1

theorem consumed_view_work (h : c.Sound) (now : Readings) :
    (c.consumed codec config input now).target.view.work =
      c.target.view.work ++ c.reader.workOf codec input := by
  unfold consumed
  rw [(applied_sound (h.located input.sourcePosition) now).2]
  rfl

end StreamCore

/-- The state a stream attempt starts in: nothing is open, and no table map is known. -/
def Runtime.attempt (db : TargetDb) (lastCheckpoint : Option Checkpoint)
    (sourceDatabase : Option String) (currentFile : String) : Runtime where
  target := ⟨db, none⟩
  lastCheckpoint
  state := StructuredEventState.new sourceDatabase
  registry := []
  targetTransaction := {}
  currentFile
  tick := 0
  trace := []

/-- A new attempt is sound. -/
theorem Runtime.attempt_sound (db : TargetDb) (lastCheckpoint : Option Checkpoint)
    (sourceDatabase : Option String) (currentFile : String) :
    (Runtime.attempt db lastCheckpoint sourceDatabase currentFile).core.Sound :=
  ⟨.empty, Target.onlyWork_of_none rfl, fun _ => rfl⟩

/-- The connection of a new attempt sees the durable contents. -/
@[simp] theorem Runtime.attempt_view (db : TargetDb) (lastCheckpoint : Option Checkpoint)
    (sourceDatabase : Option String) (currentFile : String) :
    (Runtime.attempt db lastCheckpoint sourceDatabase currentFile).target.view = db :=
  TargetDb.apply_empty db

/-! ## The record and the connection -/

/-- The stream believes in an open transaction exactly when its connection has one. -/
def StreamCore.Paired (c : StreamCore) : Prop :=
  c.targetTransaction.isOpen = c.target.transaction.isSome

/-- The work does not end a transaction by itself. -/
def TargetWork.KeepsTransaction : TargetWork → Prop
  | .rowChange _ _ => True
  | .statement _ sql => isKnownCompatibleDdl (normalizeStatement sql.toList) = false

instance : DecidablePred TargetWork.KeepsTransaction
  | .rowChange _ _ => isTrue trivial
  | .statement _ _ => inferInstanceAs (Decidable (_ = false))

theorem Target.applyOne_isSome {target : Target} {work : TargetWork}
    (h : work.KeepsTransaction) :
    (target.applyOne work).transaction.isSome = target.transaction.isSome := by
  cases work with
  | rowChange source change => exact target.change_transaction_isSome _
  | statement source sql =>
    simp only [TargetWork.KeepsTransaction] at h
    simp only [applyOne, replay, h, Bool.false_eq_true, if_false]
    exact target.change_transaction_isSome _

theorem Target.applyAll_isSome {target : Target} {work : List TargetWork}
    (h : ∀ w ∈ work, w.KeepsTransaction) :
    (target.applyAll work).transaction.isSome = target.transaction.isSome := by
  induction work generalizing target with
  | nil => rfl
  | cons w rest ih =>
    rw [applyAll_cons, ih fun v hv => h v (List.mem_cons_of_mem _ hv)]
    exact applyOne_isSome (h w List.mem_cons_self)

namespace StreamCore

variable {codec : RowCodec} {config : TargetTransactionGroupConfig} {c : StreamCore}
  {header : EventHeader} {event : BinlogEvent}

theorem settled_paired (config : TargetTransactionGroupConfig) (event : BinlogEvent)
    (h : c.Paired) (now : Nat) : (c.settled config event now).Paired := by
  unfold settled flushed
  split
  · split
    · rfl
    · exact h
  · exact h

theorem ready_paired (config : TargetTransactionGroupConfig) (event : BinlogEvent) (h : c.Paired)
    (now : Readings) : (c.ready config event now).Paired := by
  have hsettled := settled_paired config event h now.before
  unfold ready entered begun
  split
  · split
    · exact hsettled
    · rfl
  · exact hsettled

theorem saved_paired (h : c.Paired) (resume : Option BinlogCoordinate) :
    (c.saved event resume).Paired := by
  unfold saved
  cases resume with
  | none => exact h
  | some coordinate =>
    dsimp only
    split
    · exact h
    · unfold Paired
      rw [stored_targetTransaction]
      rcases stored_target (c := c) (coordinateCheckpoint coordinate (eventName event)) with
        htarget | htarget
      · rw [htarget]
        exact h
      · rw [htarget]
        exact h

theorem counted_paired (h : c.Paired) : c.counted.Paired := by
  unfold Paired counted TargetTransaction.recordSourceTransaction
  split
  · exact h
  · exact h

/-- An event whose work does not end a transaction keeps record and connection paired. -/
theorem applied_paired (h : c.Paired)
    (hwork : ∀ w ∈ c.reader.work codec header event, w.KeepsTransaction) (now : Readings) :
    (c.applied codec config header event now).Paired := by
  have hready := ready_paired config event h now
  have hhandled : ((c.ready config event now).handled codec header event).Paired := by
    unfold Paired handled
    rw [ready_reader, Target.applyAll_isSome hwork]
    exact hready
  unfold applied closed
  dsimp only
  split
  · unfold finished
    dsimp only
    split
    · rfl
    · exact saved_paired (counted_paired hhandled) _
  · exact saved_paired hhandled _

end StreamCore

/-! ## A source of one table -/

/-- A row mapping for tables with the single integer column `id`. -/
def idCodec : RowCodec where
  mapTableMapEvent _ tableMap := .ok (some
    ⟨tableMap.tableId, tableMap.databaseName, tableMap.tableName, ["id"], ["id"], [], [], [], []⟩)
  mysqlValueToTargetValue value _ _ :=
    match value with
    | some (.int value) => .ok (.uint value.toNat)
    | _ => .ok .null
  validateRowsHavePrimaryKeys _ _ _ := .ok ()
  insertChange table image _ := .ok (some
    ⟨⟨"INSERT INTO `" ++ table.table ++ "` (`id`) VALUES (?)", image.map Prod.snd⟩, .insert,
      table.schema, table.table, image⟩)
  updateChange _ _ _ := .ok none
  deleteChange _ _ _ := .ok none

/-- A world in which every operation takes effect, with the given clock. -/
def quietWorld (clock : Nat → Nat) : World where
  outcome _ := .done
  clock
  codec := idCodec
  semantics := {
    decodeQueryCharsetContext := fun _ => .ok none
    supportsSourceOnlyReleaseMoveProcedureCreate := fun _ => false
    supportsDdlTransformation := fun _ _ _ => false
    supportsAutomaticDdlOperation := fun _ _ => false
    createTableRequiresEvidenceSql := fun _ _ => false
    validateReplayedSourceMode := fun _ _ => .ok ()
    isLegacyJsonCheckCollisionEvent := fun _ => false }
  inventory _ := {
    transformSql := fun _ _ => .error "unsupported"
    captureEvidence := fun _ _ _ _ => .error "unsupported"
    observeTargetState := fun _ _ => .error "unsupported"
    expectedTargetState := fun _ _ => .error "unsupported" }

/-- An event of ten bytes that ends at the position. -/
def eventAt (position : Nat) (event : BinlogEvent) : SourceStreamEvent :=
  ⟨⟨1, 10, position⟩, event, position - 10⟩

/-- The table map of the table `t`. -/
def tableMapAt (position : Nat) : SourceStreamEvent :=
  eventAt position (.tableMap ⟨7, "app", "t", [3], [0]⟩)

/-- An inserted row. -/
def insertAt (position : Nat) (id : UInt32) : SourceStreamEvent :=
  eventAt position (.writeRows ⟨7, [true], [⟨[some (.int id)]⟩]⟩)

/-- A statement on the replicated schema. -/
def queryAt (position : Nat) (sql : String) : SourceStreamEvent :=
  eventAt position (.query ⟨[], "app", sql⟩)

/-- A target with a checkpoint and nothing else. -/
def freshDb : TargetDb where
  work := []
  ddl := []
  checkpoint := some (coordinateCheckpoint ⟨"bin.000001", 4⟩ "RotateEvent")
  journal := .empty

end BinlogCdc
