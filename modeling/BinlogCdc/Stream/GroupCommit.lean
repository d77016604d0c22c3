import BinlogCdc.Stream.Reading

/-!
# Group commits and source transactions

A stream of whole source transactions under the transactional handler. A commit exposes a
prefix of complete source transactions, with the end of the last one as its checkpoint,
as long as no group is committed before an event of a source transaction that has
already left something in the group. The commit before an event looks only at the
transactions counted so far and at the clock, so it can fall inside a source transaction.
-/

namespace BinlogCdc

/-! ## Source transactions -/

/-- The statement begins a transaction. -/
def isBeginQuery (sql : String) : Bool :=
  Text.toAsciiUppercase (Text.trimEndMatches (· == ';') (Text.trim sql.toList)) == "BEGIN".toList

/-- The event is a table map or a row event. -/
def BinlogEvent.isRowsOrTableMap (event : BinlogEvent) : Bool :=
  event.isRowEvent ||
    match event with
    | .tableMap _ => true
    | _ => false

/-- A whole source transaction: perhaps a BEGIN, table maps and row events, and the Xid. -/
structure SourceTransaction where
  /-- The BEGIN, if the source logged one. -/
  start : Option SourceStreamEvent
  /-- The table maps and row events. -/
  rows : List SourceStreamEvent
  /-- The Xid. -/
  finish : SourceStreamEvent
  /-- The first event is a BEGIN. -/
  start_begin : ∀ input ∈ start, ∃ query, input.event = .query query ∧
    isBeginQuery query.sqlStatement = true
  /-- Only table maps and row events come between. -/
  rows_only : ∀ input ∈ rows, input.event.isRowsOrTableMap = true
  /-- The last event is an Xid. -/
  finish_xid : ∃ xid, finish.event = .xid xid
  /-- The Xid is a logged event and has a position after it. -/
  finish_position : 0 < finish.header.nextEventPosition

namespace SourceTransaction

/-- The events before the Xid. -/
def opening (transaction : SourceTransaction) : List SourceStreamEvent :=
  transaction.start.toList ++ transaction.rows

/-- The events of the transaction. -/
def events (transaction : SourceTransaction) : List SourceStreamEvent :=
  transaction.opening ++ [transaction.finish]

/-- The checkpoint at the end of the transaction. -/
def checkpoint (transaction : SourceTransaction) (file : String) : Checkpoint :=
  coordinateCheckpoint ⟨file, transaction.finish.header.nextEventPosition⟩ "XidEvent"

end SourceTransaction

/-- The events of a list of transactions. -/
def transactionEvents (transactions : List SourceTransaction) : List SourceStreamEvent :=
  transactions.flatMap SourceTransaction.events

section Run

variable (world : World) (config : StreamConfig)

/-- Handle an event of the source inside the target transaction. -/
def applyInput (input : SourceStreamEvent) : Stream Unit := do
  updateState fun state => state.recordEventPosition input.sourcePosition
  let _ ← applyStreamEventTransactionally world config input.header input.event
  pure ()

/-- Handle events of the source inside the target transaction. -/
def applyInputs (inputs : List SourceStreamEvent) : Stream Unit :=
  Prog.forEach inputs (applyInput world config)

end Run

/-- The rule of an event of the source, in the terms of its script. -/
theorem wp_applyInput {world : World} {config : StreamConfig} {table name : String}
    (hmode : config.checkpoint = .targetTable table name) {s : Runtime}
    (hvalid : s.targetTransaction.Valid) {input : SourceStreamEvent}
    {Q : Unit → Runtime → Prop} {E : Stop ApplyBinlogError → Runtime → Prop}
    (hQ : ∀ now s', now.before = world.clock s.tick →
      Performed s (s.core.inputScript world.codec config.groupConfig input now) s' →
      s'.core = s.core.consumed world.codec config.groupConfig input now → Q () s')
    (hE : ∀ now stop s', now.before = world.clock s.tick →
      Stopped s (s.core.inputScript world.codec config.groupConfig input now) s' →
      E stop s') :
    Prog.wp (applyInput world config input) Q E s := by
  unfold applyInput
  simp only [Prog.wp_bind, wp_updateState, Prog.wp_pure]
  refine wp_applyStreamEventTransactionally hmode
    (show Runtime.targetTransaction { s with
      state := s.state.recordEventPosition input.sourcePosition } |>.Valid from hvalid) ?_ ?_
  · intro _ now s' hnow hs' hcore
    exact hQ now s' hnow ⟨hs'.trace, hs'.durable⟩ hcore
  · intro now stop s' hnow hs'
    exact hE now stop s' hnow ⟨hs'.trace, hs'.durable⟩

/-! ## The commits of an event -/

/-- The commit of a group. -/
def commitEntry (target : Target) (pending : Option Checkpoint) : TraceEntry :=
  ⟨.commit, target.savePending pending, (target.savePending pending).commit⟩

theorem eq_commitEntry {target : Target} {pending : Option Checkpoint} {x : TraceEntry}
    (hx : x ∈ commitScript target pending) (hop : x.op = .commit) :
    x = commitEntry target pending := by
  rcases List.mem_append.mp hx with hx | hx
  · cases pending with
    | none => cases hx
    | some checkpoint =>
      simp only [saveScript, List.mem_cons, List.not_mem_nil, or_false] at hx
      rcases hx with rfl | rfl
      · cases hop
      · cases hop
  · exact List.mem_singleton.mp hx

theorem workScript_op {target : Target} {work : List TargetWork} {x : TraceEntry}
    (hx : x ∈ workScript target work) : ∃ w ∈ work, x.op = w.op := by
  induction work generalizing target with
  | nil => cases hx
  | cons w rest ih =>
    rcases List.mem_cons.mp hx with rfl | hx
    · exact ⟨w, List.mem_cons_self, rfl⟩
    · obtain ⟨v, hv, hop⟩ := ih hx
      exact ⟨v, List.mem_cons_of_mem _ hv, hop⟩

theorem storeScript_op {c : StreamCore} {checkpoint : Checkpoint} {x : TraceEntry}
    (hx : x ∈ c.storeScript checkpoint) : x.op = .loadStore ∨ x.op = .saveStore checkpoint := by
  unfold StreamCore.storeScript at hx
  split at hx
  · cases hx
  · rcases List.mem_append.mp hx with hx | hx
    · split at hx
      · cases List.mem_singleton.mp hx
        exact Or.inl rfl
      · cases hx
    · split at hx
      · cases hx
      · cases List.mem_singleton.mp hx
        exact Or.inr rfl

theorem savedScript_op {c : StreamCore} {event : BinlogEvent} {resume : Option BinlogCoordinate}
    {x : TraceEntry} (hx : x ∈ c.savedScript event resume) :
    x.op = .loadStore ∨ ∃ checkpoint, x.op = .saveStore checkpoint := by
  unfold StreamCore.savedScript at hx
  cases resume with
  | none => cases hx
  | some coordinate =>
    dsimp only at hx
    split at hx
    · cases hx
    · rcases storeScript_op hx with hop | hop
      · exact Or.inl hop
      · exact Or.inr ⟨_, hop⟩

namespace StreamCore

variable {codec : RowCodec} {config : TargetTransactionGroupConfig} {c : StreamCore}
  {header : EventHeader} {event : BinlogEvent}

/-- The state of a completing event before its group may be committed. -/
def completed (codec : RowCodec) (config : TargetTransactionGroupConfig) (c : StreamCore)
    (header : EventHeader) (event : BinlogEvent) (now : Readings) : StreamCore :=
  ((c.ready config event now).handled codec header event).counted.saved event
    (c.reader.resume header event)

/-- Before its group may be committed, a completing event has left its work in the view. -/
theorem completed_sound (codec : RowCodec) (config : TargetTransactionGroupConfig)
    (header : EventHeader) (event : BinlogEvent) (h : c.Sound) (now : Readings) :
    (c.completed codec config header event now).Sound ∧
      (c.completed codec config header event now).target.view.work =
        c.target.view.work ++ c.reader.work codec header event := by
  have hready := ready_advanced config event h now
  have hhandled := hready.handled codec header event
  simp only [ready_reader] at hhandled
  obtain ⟨hsound, hview⟩ := saved_sound event hhandled.counted.sound
    (c.reader.resume header event)
  exact ⟨hsound, hview.trans hhandled.counted.view⟩

/-- A completing event without statements keeps record and connection paired up to its commit. -/
theorem completed_paired (h : c.Paired)
    (hwork : ∀ w ∈ c.reader.work codec header event, w.KeepsTransaction) (now : Readings) :
    (c.completed codec config header event now).Paired := by
  refine saved_paired (counted_paired ?_) _
  unfold Paired handled
  rw [ready_reader, Target.applyAll_isSome hwork]
  exact ready_paired config event h now

/-- A completing event leaves its own checkpoint pending in an open transaction. -/
theorem completed_pending {now : Readings} {coordinate : BinlogCoordinate}
    (hresume : c.reader.resume header event = some coordinate)
    (hopen : (c.completed codec config header event now).targetTransaction.isOpen = true) :
    (c.completed codec config header event now).pending =
      some (coordinateCheckpoint coordinate (eventName event)) := by
  unfold completed saved at hopen ⊢
  rw [hresume] at hopen ⊢
  dsimp only at hopen ⊢
  split at hopen
  · next h =>
    rw [if_pos h]
    rfl
  · next h =>
    rw [stored_targetTransaction] at hopen
    exact absurd hopen h

/-- An event commits before it, with counted transactions, or when it completes one. -/
theorem commit_mem_eventScript {now : Readings} {x : TraceEntry}
    (hx : x ∈ c.eventScript codec config header event now) (hop : x.op = .commit) :
    (c.flushesBefore config event now.before = true ∧
        c.targetTransaction.hasCompletedSourceTransactions = true ∧
        x = commitEntry c.target c.pending) ∨
      (completesTransaction c.state event = true ∧
        (c.completed codec config header event now).isDue config event now.after = true ∧
        x = commitEntry (c.completed codec config header event now).target
          (c.completed codec config header event now).pending) := by
  rcases List.mem_append.mp hx with hx | hx
  · rcases List.mem_append.mp hx with hx | hx
    · split at hx
      · next hflush =>
        unfold flushScript at hx
        split at hx
        · next hcount => exact Or.inl ⟨hflush, hcount, eq_commitEntry hx hop⟩
        · cases hx
      · cases hx
    · split at hx
      · unfold beginScript at hx
        split at hx
        · cases hx
        · cases List.mem_singleton.mp hx
          cases hop
      · cases hx
  · rcases List.mem_append.mp hx with hx | hx
    · rcases List.mem_append.mp hx with hx | hx
      · unfold contextScript at hx
        split at hx
        · split at hx
          · obtain ⟨intvar, -, rfl⟩ := List.mem_map.mp hx
            cases hop
          · cases hx
        · cases hx
      · obtain ⟨w, -, hw⟩ := workScript_op hx
        rw [hop] at hw
        cases w <;> cases hw
    · unfold closeScript at hx
      simp only [ready_reader, ready_state] at hx
      have hsaved : ∀ m : StreamCore, ∀ resume, x ∉ m.savedScript event resume := by
        intro m resume hmem
        rcases savedScript_op hmem with h | ⟨checkpoint, h⟩
        · rw [hop] at h
          cases h
        · rw [hop] at h
          cases h
      split at hx
      · next hcompletes =>
        rcases List.mem_append.mp hx with hx | hx
        · exact absurd hx (hsaved _ _)
        · split at hx
          · next hdue => exact Or.inr ⟨hcompletes, hdue, eq_commitEntry hx hop⟩
          · cases hx
      · exact absurd hx (hsaved _ _)

end StreamCore

/-! ## The invariant -/

/-- What the handled events of an unfinished source transaction left in the group: a checkpoint
inside the transaction, or row changes. -/
def Begun (codec : RowCodec) (reader : Reader) (part : List SourceStreamEvent) : Prop :=
  (∃ input ∈ part, resumeCoordinate reader.currentFile input.header input.event ≠ none) ∨
    reader.works codec part ≠ []

/-- The state between two events: the handled ones were read and their work is in the view. -/
structure Handled (codec : RowCodec) (base : TargetDb) (origin : Reader)
    (inputs : List SourceStreamEvent) (c : StreamCore) : Prop where
  /-- The state is sound. -/
  sound : c.Sound
  /-- The record and the connection agree. -/
  paired : c.Paired
  /-- The events were read. -/
  reader : c.reader = origin.readAll codec inputs
  /-- The file is still the first one. -/
  file : c.currentFile = origin.currentFile
  /-- The work of the events is in the view. -/
  work : c.target.view.work = base.work ++ origin.works codec inputs

/-- Complete transactions and a part of the next one were handled; unless that part left
something, the pending checkpoint of a group with complete transactions is the end of the last
one. -/
structure Grouped (codec : RowCodec) (base : TargetDb) (origin : Reader)
    (completed : List SourceTransaction) (part : List SourceStreamEvent) (c : StreamCore) : Prop
    extends Handled codec base origin (transactionEvents completed ++ part) c where
  /-- The pending checkpoint. -/
  pending : c.targetTransaction.hasCompletedSourceTransactions = true →
    ¬Begun codec (origin.readAll codec (transactionEvents completed)) part →
    ∃ before last, completed = before ++ [last] ∧
      c.pending = some (last.checkpoint origin.currentFile)

/-- A commit that exposes complete source transactions only, with the end of the last one as the
checkpoint of the same target transaction. -/
def CommitsPrefix (codec : RowCodec) (base : TargetDb) (origin : Reader)
    (transactions : List SourceTransaction) (x : TraceEntry) : Prop :=
  ∃ before last rest, transactions = before ++ [last] ++ rest ∧
    (∃ changes, x.before.transaction = some changes ∧
      changes.checkpoint = some (last.checkpoint origin.currentFile)) ∧
    x.after.db.work = base.work ++ origin.works codec (transactionEvents (before ++ [last])) ∧
    x.after.db.checkpoint = some (last.checkpoint origin.currentFile)

/-- A group with complete transactions is committed with its pending checkpoint in the same
target transaction. -/
theorem commitsPrefix_commitEntry {codec : RowCodec} {base : TargetDb} {origin : Reader}
    {c : StreamCore} {before : List SourceTransaction} {last : SourceTransaction}
    (rest : List SourceTransaction) (hpaired : c.Paired) (hopen : c.targetTransaction.isOpen = true)
    (hwork : c.target.view.work =
      base.work ++ origin.works codec (transactionEvents (before ++ [last])))
    (hpending : c.pending = some (last.checkpoint origin.currentFile)) :
    CommitsPrefix codec base origin (before ++ [last] ++ rest)
      (commitEntry c.target c.pending) := by
  have hsome : c.target.transaction.isSome = true := by
    rw [← hpaired]
    exact hopen
  obtain ⟨changes, hchanges⟩ := Option.isSome_iff_exists.mp hsome
  have hsaved : c.target.saveCheckpoint (last.checkpoint origin.currentFile) =
      ⟨c.target.db, some { changes with
        checkpoint := some (last.checkpoint origin.currentFile) }⟩ :=
    Target.change_of_some hchanges _
  refine ⟨before, last, rest, rfl, ?_, ?_, ?_⟩
  · refine ⟨{ changes with checkpoint := some (last.checkpoint origin.currentFile) }, ?_, rfl⟩
    simp only [commitEntry, hpending, Target.savePending, hsaved]
  · simp only [commitEntry, hpending, Target.savePending, Target.commit_db,
      Target.saveCheckpoint_view_work, hwork]
  · simp only [commitEntry, hpending, Target.savePending, Target.commit_db,
      Target.saveCheckpoint_view_checkpoint]

/-! ## One event -/

/-- A BEGIN, a table map or a row event neither completes a transaction nor changes the file. -/
theorem opening_event {transaction : SourceTransaction} {input : SourceStreamEvent}
    (h : input ∈ transaction.opening) :
    (∀ state, completesTransaction state input.event = false) ∧ input.event.isRotate = false := by
  rcases List.mem_append.mp h with hstart | hrows
  · obtain ⟨query, hquery, hbegin⟩ := transaction.start_begin input (by simpa using hstart)
    refine ⟨?_, by rw [hquery]; rfl⟩
    intro state
    have hcontrol : isTransactionControlQuery query.sqlStatement = true := by
      unfold isTransactionControlQuery
      unfold isBeginQuery at hbegin
      simp only [hbegin, Bool.true_or]
    simp only [hquery, completesTransaction, queryEventPrecheck, hcontrol, if_true]
    split
    · rfl
    · split <;> rfl
  · have honly := transaction.rows_only input hrows
    cases hevent : input.event <;> rw [hevent] at honly <;>
      first | exact ⟨fun _ => rfl, rfl⟩ | cases honly

/-- Events that are no rotation keep the file. -/
theorem Reader.read_currentFile {codec : RowCodec} {reader : Reader} {input : SourceStreamEvent}
    (h : input.event.isRotate = false) :
    (reader.read codec input).currentFile = reader.currentFile := by
  simp only [Reader.read, Reader.next, Reader.resume, resumeCoordinate, Reader.located]
  cases hevent : input.event with
  | rotate file position =>
    rw [hevent] at h
    cases h
  | xid xid => by_cases hp : 0 < input.header.nextEventPosition <;> simp [hp]
  | query query => by_cases hp : 0 < input.header.nextEventPosition <;> simp [hp]
  | _ => rfl

/-- An event that completes nothing, and an Xid, apply row changes only. -/
theorem Reader.work_keepsTransaction {codec : RowCodec} {reader : Reader} {header : EventHeader}
    {event : BinlogEvent} (h : event.isQuery = true → completesTransaction reader.state event = false) :
    ∀ w ∈ reader.work codec header event, w.KeepsTransaction := by
  intro w hw
  cases hquery : event.isQuery with
  | false =>
    cases hignored : rowsIgnored reader.state event with
    | true =>
      rw [work_of_rowsIgnored hquery hignored] at hw
      cases hw
    | false =>
      cases hplan : planRows codec reader.registry (reader.coordinate header event) event with
      | error error =>
        rw [work_of_planRows_error hquery hplan] at hw
        cases hw
      | ok rows =>
        rw [work_of_planRows hquery hignored rows hplan] at hw
        obtain ⟨change, -, rfl⟩ := List.mem_map.mp hw
        trivial
  | true =>
    cases event with
    | query query =>
      have hreplay : replaysStatement reader.state query = false := by
        have hcheck := h rfl
        simp only [completesTransaction, beq_eq_false_iff_ne] at hcheck
        unfold replaysStatement
        split
        · next hok => exact absurd hok hcheck
        · rfl
      simp only [Reader.work, hreplay, Bool.false_eq_true, if_false] at hw
      cases hw
    | _ => cases hquery

section Step

variable {codec : RowCodec} {config : TargetTransactionGroupConfig} {base : TargetDb}
  {origin : Reader} {completed rest : List SourceTransaction} {part : List SourceStreamEvent}
  {c : StreamCore} {input : SourceStreamEvent} {now : Readings}

/-- The commit before an event exposes the complete transactions, unless the unfinished one left
something in the group. -/
theorem Grouped.commit_before (h : Grouped codec base origin completed part c)
    (hcount : c.targetTransaction.hasCompletedSourceTransactions = true)
    (hpart : ¬Begun codec (origin.readAll codec (transactionEvents completed)) part) :
    CommitsPrefix codec base origin (completed ++ rest) (commitEntry c.target c.pending) := by
  obtain ⟨before, last, rfl, hpending⟩ := h.pending hcount hpart
  have hnone : (origin.readAll codec (transactionEvents (before ++ [last]))).works codec part =
      [] := by
    by_contra hwork
    exact hpart (Or.inr hwork)
  refine commitsPrefix_commitEntry _ h.paired (h.sound.valid.counted hcount) ?_ hpending
  rw [h.work, Reader.works_append, hnone, List.append_nil]

/-- An event whose group is not committed before it keeps the record but for the beginning. -/
theorem ready_record (hnow : c.flushesBefore config input.event now.before = false ∨
      c.targetTransaction.hasCompletedSourceTransactions = false) :
    (c.ready config input.event now).targetTransaction.sourceTransactions =
        c.targetTransaction.sourceTransactions ∧
      (c.ready config input.event now).pending = c.pending := by
  have hsettled : c.settled config input.event now.before = c := by
    unfold StreamCore.settled StreamCore.flushed
    rcases hnow with hnow | hnow
    · rw [hnow]
      rfl
    · rw [hnow]
      split <;> rfl
  unfold StreamCore.ready StreamCore.entered StreamCore.begun
  rw [hsettled]
  split
  · split <;> exact ⟨rfl, rfl⟩
  · exact ⟨rfl, rfl⟩

/-- After the group is committed before an event no transaction is counted. -/
theorem ready_uncounted (hflush : c.flushesBefore config input.event now.before = true)
    (hcount : c.targetTransaction.hasCompletedSourceTransactions = true) :
    (c.ready config input.event now).targetTransaction.sourceTransactions = 0 := by
  have hsettled : c.settled config input.event now.before = c.committed := by
    unfold StreamCore.settled StreamCore.flushed
    rw [hflush, hcount]
    rfl
  unfold StreamCore.ready StreamCore.entered StreamCore.begun
  rw [hsettled]
  split
  · split <;> rfl
  · rfl

/-- Counted transactions after the commit before an event were there before it, with the same
pending checkpoint. -/
theorem counted_before_ready
    (hcount : (c.ready config input.event now).targetTransaction.hasCompletedSourceTransactions =
      true) :
    c.targetTransaction.hasCompletedSourceTransactions = true ∧
      (c.ready config input.event now).pending = c.pending := by
  unfold TargetTransaction.hasCompletedSourceTransactions at hcount ⊢
  by_cases hflush : c.flushesBefore config input.event now.before = true ∧
      c.targetTransaction.hasCompletedSourceTransactions = true
  · rw [ready_uncounted hflush.1 hflush.2] at hcount
    cases hcount
  · have hnow : c.flushesBefore config input.event now.before = false ∨
        c.targetTransaction.hasCompletedSourceTransactions = false := by
      by_cases h : c.flushesBefore config input.event now.before = true
      · exact Or.inr (by simpa using fun hc => hflush ⟨h, hc⟩)
      · exact Or.inl (by simpa using h)
    have hrecord := ready_record hnow
    rw [hrecord.1] at hcount
    exact ⟨hcount, hrecord.2⟩

/-- Whether an event has a resume coordinate does not depend on the file. -/
theorem resumeCoordinate_eq_none {header : EventHeader} {event : BinlogEvent} {file file' : String}
    (h : resumeCoordinate file header event = none) : resumeCoordinate file' header event = none := by
  unfold resumeCoordinate at h ⊢
  cases event with
  | rotate name position => cases h
  | xid xid =>
    dsimp only at h ⊢
    split at h
    · cases h
    · next hp => exact if_neg hp
  | query query =>
    dsimp only at h ⊢
    split at h
    · cases h
    · next hp => exact if_neg hp
  | _ => rfl

/-- An event that is no rotation and no statement keeps the events handled. -/
theorem Handled.read (config : TargetTransactionGroupConfig) (now : Readings)
    {inputs : List SourceStreamEvent} (h : Handled codec base origin inputs c)
    (hrotate : input.event.isRotate = false)
    (hquery : input.event.isQuery = true → ∀ state, completesTransaction state input.event = false) :
    Handled codec base origin (inputs ++ [input]) (c.consumed codec config input now) := by
  have hconsumed : (c.consumed codec config input now).reader = c.reader.read codec input :=
    StreamCore.consumed_reader now
  have hreader : (c.consumed codec config input now).reader =
      origin.readAll codec (inputs ++ [input]) := by
    rw [hconsumed, h.reader, Reader.readAll_append]
    rfl
  refine ⟨StreamCore.consumed_sound h.sound now, ?_, hreader, ?_, ?_⟩
  · exact StreamCore.applied_paired (c := c.located input.sourcePosition) h.paired
      (Reader.work_keepsTransaction fun hq => hquery hq _) now
  · have hfile := congrArg Reader.currentFile hconsumed
    rw [Reader.read_currentFile hrotate] at hfile
    exact hfile.trans h.file
  · rw [StreamCore.consumed_view_work h.sound, h.work, h.reader, Reader.works_append,
      Reader.works_singleton, List.append_assoc]

/-- An event before the Xid commits a prefix only, and its transaction stays unfinished. -/
theorem Grouped.opening_step (config : TargetTransactionGroupConfig) (now : Readings)
    (rest : List SourceTransaction) (h : Grouped codec base origin completed part c)
    {transaction : SourceTransaction} (hinput : input ∈ transaction.opening)
    (hsafe : Begun codec (origin.readAll codec (transactionEvents completed)) part →
      c.targetTransaction.shouldFlush config false now.before = false) :
    (∀ x ∈ c.inputScript codec config input now, x.op = .commit →
        CommitsPrefix codec base origin (completed ++ rest) x) ∧
      Grouped codec base origin completed (part ++ [input]) (c.consumed codec config input now) := by
  obtain ⟨hcompletes, hrotate⟩ := opening_event hinput
  have hflush : (c.located input.sourcePosition).flushesBefore config input.event now.before =
      c.targetTransaction.shouldFlush config false now.before := by
    simp [StreamCore.flushesBefore, hrotate, StreamCore.located]
  constructor
  · intro x hx hop
    rcases StreamCore.commit_mem_eventScript hx hop with ⟨hflushes, hcount, rfl⟩ | ⟨hdone, -, -⟩
    · refine h.commit_before hcount ?_
      intro hbegun
      rw [hflush, hsafe hbegun] at hflushes
      cases hflushes
    · rw [hcompletes] at hdone
      cases hdone
  · have hread := h.toHandled.read config now hrotate fun _ => hcompletes
    rw [List.append_assoc] at hread
    refine ⟨hread, ?_⟩
    intro hcount hnot
    -- The event left no checkpoint, so the record is the one the handlers found.
    have hresume : (c.located input.sourcePosition).reader.resume input.header input.event =
        none := by
      by_contra hsome
      refine hnot (Or.inl ⟨input, by simp, ?_⟩)
      intro hnone
      exact hsome (resumeCoordinate_eq_none hnone)
    have hpart : ¬Begun codec (origin.readAll codec (transactionEvents completed)) part := by
      rintro (⟨other, hother, hsome⟩ | hwork)
      · exact hnot (Or.inl ⟨other, List.mem_append_left _ hother, hsome⟩)
      · refine hnot (Or.inr ?_)
        rw [Reader.works_append]
        exact fun hnil => hwork (List.append_eq_nil_iff.mp hnil).1
    have hconsumed : (c.consumed codec config input now).targetTransaction =
        ((c.located input.sourcePosition).ready config input.event now).targetTransaction := by
      simp only [StreamCore.consumed, StreamCore.applied, StreamCore.closed, hcompletes,
        StreamCore.ready_reader, hresume, Bool.false_eq_true, if_false]
      rfl
    have hpending : (c.consumed codec config input now).pending =
        ((c.located input.sourcePosition).ready config input.event now).pending := by
      unfold StreamCore.pending
      rw [hconsumed]
    rw [hconsumed] at hcount
    obtain ⟨hcount, hsame⟩ := counted_before_ready hcount
    rw [hpending, hsame]
    exact h.pending hcount hpart

/-- The Xid of a transaction commits a prefix only, and its transaction is complete. -/
theorem Grouped.finish_step (config : TargetTransactionGroupConfig) (now : Readings)
    (rest : List SourceTransaction) (h : Grouped codec base origin completed part c)
    {transaction : SourceTransaction} (hpart : part = transaction.opening)
    (hinput : input = transaction.finish)
    (hsafe : Begun codec (origin.readAll codec (transactionEvents completed)) part →
      c.targetTransaction.shouldFlush config false now.before = false) :
    (∀ x ∈ c.inputScript codec config input now, x.op = .commit →
        CommitsPrefix codec base origin (completed ++ transaction :: rest) x) ∧
      Grouped codec base origin (completed ++ [transaction]) []
        (c.consumed codec config input now) := by
  obtain ⟨xid, hxid⟩ := transaction.finish_xid
  rw [← hinput] at hxid
  have hrotate : input.event.isRotate = false := by
    rw [hxid]
    rfl
  have hcompletes : completesTransaction (c.located input.sourcePosition).state input.event =
      true := by
    rw [hxid]
    rfl
  have hresume : (c.located input.sourcePosition).reader.resume input.header input.event =
      some ⟨origin.currentFile, transaction.finish.header.nextEventPosition⟩ := by
    have hposition := transaction.finish_position
    rw [← hinput] at hposition ⊢
    unfold Reader.resume
    rw [hxid]
    simp only [resumeCoordinate, hposition, if_true]
    exact congrArg (fun file => some (BinlogCoordinate.mk file _)) h.file
  have hread := h.toHandled.read config now hrotate
    (by rw [hxid]; simp [BinlogEvent.isQuery])
  have hevents : transactionEvents completed ++ part ++ [input] =
      transactionEvents (completed ++ [transaction]) := by
    simp [transactionEvents, SourceTransaction.events, hpart, hinput]
  rw [hevents] at hread
  -- The state in which the group may be committed.
  set last := (c.located input.sourcePosition).completed codec config input.header input.event now
    with hlast
  have hconsumed : c.consumed codec config input now =
      if last.isDue config input.event now.after then last.committed else last := by
    simp only [StreamCore.consumed, StreamCore.applied, StreamCore.closed, StreamCore.ready_state,
      StreamCore.ready_reader, hcompletes, if_true]
    rfl
  have hpending : last.targetTransaction.isOpen = true →
      last.pending = some (transaction.checkpoint origin.currentFile) := by
    intro hopen
    rw [hlast, StreamCore.completed_pending hresume (hlast ▸ hopen), hxid]
    rfl
  obtain ⟨hsound, hview⟩ := StreamCore.completed_sound codec config input.header input.event
    (h.sound.located input.sourcePosition) now
  have hwork : last.target.view.work = base.work ++
      origin.works codec (transactionEvents (completed ++ [transaction])) := by
    rw [← hread.work, StreamCore.consumed_view_work h.sound]
    exact hview
  have hpaired : last.Paired := StreamCore.completed_paired (c := c.located input.sourcePosition)
    h.paired (Reader.work_keepsTransaction (by rw [hxid]; simp [BinlogEvent.isQuery])) now
  constructor
  · intro x hx hop
    rcases StreamCore.commit_mem_eventScript hx hop with ⟨hflushes, hcount, rfl⟩ | ⟨-, hdue, rfl⟩
    · refine h.commit_before hcount ?_
      intro hbegun
      simp only [StreamCore.flushesBefore, hrotate, Bool.or_false] at hflushes
      rw [show (c.located input.sourcePosition).targetTransaction = c.targetTransaction from rfl,
        hsafe hbegun] at hflushes
      cases hflushes
    · have hopen : last.targetTransaction.isOpen = true := by
        refine hsound.valid.counted ?_
        exact (Bool.and_eq_true _ _ ▸ hdue : _ ∧ _).1
      have hbegins := commitsPrefix_commitEntry rest hpaired hopen hwork (hpending hopen)
      rwa [List.append_assoc] at hbegins
  · refine ⟨by simpa using hread, ?_⟩
    intro hcount _
    refine ⟨completed, transaction, rfl, ?_⟩
    rw [hconsumed] at hcount ⊢
    split at hcount
    · cases hcount
    · next hdue =>
      rw [if_neg hdue]
      exact hpending (hsound.valid.counted hcount)


end Step

/-! ## Whole runs -/

section Runs

variable (world : World) (config : StreamConfig) (s : Runtime)
  (transactions : List SourceTransaction)

/-- Every commit of a run so far exposes a prefix of the source transactions. -/
def CommitsPrefixes (s s' : Runtime) : Prop :=
  ∀ x ∈ s'.trace, x.op = .commit →
    CommitsPrefix world.codec s.target.db s.core.reader transactions x

/-- No group is committed before an event of a source transaction that has already left
something in the group. -/
def FlushesBetweenTransactions : Prop :=
  ∀ completed transaction rest part input more s',
    transactions = completed ++ transaction :: rest →
    transaction.events = part ++ input :: more →
    (applyInputs world config (transactionEvents completed ++ part)).Reaches s s' →
    Begun world.codec (s.core.reader.readAll world.codec (transactionEvents completed)) part →
    s'.targetTransaction.shouldFlush config.groupConfig false (world.clock s'.tick) = false

variable {world config s transactions} {table name : String}

/-- The commits of one more event, whether it is finished or not. -/
theorem wp_applyInput_commits (hmode : config.checkpoint = .targetTable table name)
    {s₁ : Runtime} {input : SourceStreamEvent} (hvalid : s₁.targetTransaction.Valid)
    (hcommits : CommitsPrefixes world transactions s s₁)
    (hscript : ∀ now, now.before = world.clock s₁.tick →
      ∀ x ∈ s₁.core.inputScript world.codec config.groupConfig input now, x.op = .commit →
        CommitsPrefix world.codec s.target.db s.core.reader transactions x)
    {Q : Unit → Runtime → Prop}
    (hQ : ∀ now s', now.before = world.clock s₁.tick →
      s'.core = s₁.core.consumed world.codec config.groupConfig input now →
      CommitsPrefixes world transactions s s' →
      (applyInput world config input).Reaches s₁ s' → Q () s') :
    Prog.wp (applyInput world config input) Q
      (fun _ s' => CommitsPrefixes world transactions s s') s₁ := by
  refine Prog.wp_reaches (wp_applyInput hmode hvalid ?_ ?_)
  · intro now s' hnow hs' hcore hreaches
    refine hQ now s' hnow hcore ?_ hreaches
    intro x hx hop
    rw [hs'.trace, List.mem_append] at hx
    rcases hx with hx | hx
    · exact hcommits x hx hop
    · exact hscript now hnow x hx hop
  · intro now stop s' hnow hs' x hx hop
    rcases hs'.mem_trace hx with hx | hx | hrollback
    · exact hcommits x hx hop
    · exact hscript now hnow x hx hop
    · rw [hop] at hrollback
      cases hrollback

/-- One source transaction: its events keep the invariant one by one, and its Xid completes it. -/
theorem wp_transaction (hmode : config.checkpoint = .targetTable table name)
    (hsafe : FlushesBetweenTransactions world config s transactions)
    {completed rest : List SourceTransaction} {transaction : SourceTransaction}
    (htransactions : transactions = completed ++ transaction :: rest) {s₁ : Runtime}
    (hgrouped : Grouped world.codec s.target.db s.core.reader completed [] s₁.core)
    (hcommits : CommitsPrefixes world transactions s s₁)
    (hreaches : (applyInputs world config (transactionEvents completed)).Reaches s s₁) :
    Prog.wp (applyInputs world config transaction.events)
      (fun _ s' => Grouped world.codec s.target.db s.core.reader (completed ++ [transaction]) []
          s'.core ∧ CommitsPrefixes world transactions s s' ∧
        (applyInputs world config (transactionEvents (completed ++ [transaction]))).Reaches s s')
      (fun _ s' => CommitsPrefixes world transactions s s') s₁ := by
  unfold applyInputs SourceTransaction.events
  rw [Prog.wp_forEach_append]
  -- The invariant of the events before the Xid, indexed by the ones already handled.
  refine Prog.wp_mono (Prog.wp_forEach (fun part s' =>
    Grouped world.codec s.target.db s.core.reader completed part s'.core ∧
      CommitsPrefixes world transactions s s' ∧
      (applyInputs world config (transactionEvents completed ++ part)).Reaches s s')
    transaction.opening (applyInput world config) ?_ ⟨hgrouped, hcommits, by simpa using hreaches⟩)
    ?_ fun _ _ h => h
  · rintro part input more s₂ hopening ⟨hgrouped, hcommits, hreaches⟩
    have hinput : input ∈ transaction.opening := hopening ▸ by simp
    have hevents : transaction.events = part ++ input :: (more ++ [transaction.finish]) := by
      simp [SourceTransaction.events, ← hopening]
    have hstep : ∀ now : Readings, now.before = world.clock s₂.tick → _ := fun now hnow =>
      hgrouped.opening_step config.groupConfig now (transaction :: rest) hinput
        (hnow ▸ hsafe completed transaction rest part input _ s₂ htransactions hevents hreaches)
    refine wp_applyInput_commits hmode hgrouped.sound.valid hcommits ?_ ?_
    · intro now hnow
      rw [htransactions]
      exact (hstep now hnow).1
    · intro now s' hnow hcore hcommits' hreaches'
      refine ⟨by rw [hcore]; exact (hstep now hnow).2, hcommits', ?_⟩
      rw [← List.append_assoc]
      exact hreaches.snoc hreaches'
  · rintro _ s₂ ⟨hgrouped, hcommits, hreaches⟩
    have hstep : ∀ now : Readings, now.before = world.clock s₂.tick → _ := fun now hnow =>
      hgrouped.finish_step config.groupConfig now rest rfl rfl
        (hnow ▸ hsafe completed transaction rest _ _ [] s₂ htransactions rfl hreaches)
    simp only [Prog.forEach, Prog.wp_bind, Prog.wp_pure]
    refine wp_applyInput_commits hmode hgrouped.sound.valid hcommits ?_ ?_
    · intro now hnow
      rw [htransactions]
      exact (hstep now hnow).1
    · intro now s' hnow hcore hcommits' hreaches'
      refine ⟨by rw [hcore]; exact (hstep now hnow).2, hcommits', ?_⟩
      have hevents : transactionEvents (completed ++ [transaction]) =
          transactionEvents completed ++ transaction.opening ++ [transaction.finish] := by
        simp [transactionEvents, SourceTransaction.events]
      rw [hevents]
      exact hreaches.snoc hreaches'

/-- A run over whole transactions keeps the invariant transaction by transaction. -/
theorem wp_transactions (hmode : config.checkpoint = .targetTable table name)
    (hsafe : FlushesBetweenTransactions world config s transactions)
    (rest : List SourceTransaction) :
    ∀ completed s₁, transactions = completed ++ rest →
      Grouped world.codec s.target.db s.core.reader completed [] s₁.core →
      CommitsPrefixes world transactions s s₁ →
      (applyInputs world config (transactionEvents completed)).Reaches s s₁ →
      Prog.wp (applyInputs world config (transactionEvents rest))
        (fun _ s' => CommitsPrefixes world transactions s s')
        (fun _ s' => CommitsPrefixes world transactions s s') s₁ := by
  induction rest with
  | nil => exact fun _ _ _ _ hcommits _ => hcommits
  | cons transaction rest ih =>
    intro completed s₁ htransactions hgrouped hcommits hreaches
    have hevents : transactionEvents (transaction :: rest) =
        transaction.events ++ transactionEvents rest := rfl
    unfold applyInputs
    rw [hevents, Prog.wp_forEach_append]
    refine Prog.wp_mono (wp_transaction hmode hsafe htransactions hgrouped hcommits hreaches) ?_
      fun _ _ h => h
    rintro _ s₂ ⟨hgrouped, hcommits, hreaches⟩
    exact ih _ s₂ (by simpa using htransactions) hgrouped hcommits hreaches

end Runs

/-- In target-table mode, as long as no group is committed before an event of a source
transaction that has already left something in it, every commit exposes a prefix of complete
source transactions and carries the end of the last one as its checkpoint. -/
theorem groupCommit_exposes_prefix (world : World) (sourceIdentity table name : String)
    (groupConfig : TargetTransactionGroupConfig) (db : TargetDb)
    (lastCheckpoint : Option Checkpoint) (sourceDatabase : Option String) (currentFile : String)
    (transactions : List SourceTransaction)
    (hsafe : FlushesBetweenTransactions world
      ⟨sourceIdentity, groupConfig, .targetTable table name⟩
      (.attempt db lastCheckpoint sourceDatabase currentFile) transactions) :
    CommitsPrefixes world transactions (.attempt db lastCheckpoint sourceDatabase currentFile)
      (applyInputs world ⟨sourceIdentity, groupConfig, .targetTable table name⟩
        (transactionEvents transactions)
        (.attempt db lastCheckpoint sourceDatabase currentFile)).2 := by
  have hmode : (StreamConfig.mk sourceIdentity groupConfig (.targetTable table name)).checkpoint =
      .targetTable table name := rfl
  refine Prog.wp_final (wp_transactions hmode hsafe transactions [] _ rfl ?_ ?_ rfl)
  · refine ⟨⟨Runtime.attempt_sound .., rfl, rfl, rfl, ?_⟩, fun hcount => by cases hcount⟩
    simp [transactionEvents, Target.view, Runtime.attempt, Runtime.core]
  · intro x hx
    cases hx

theorem isBeginQuery_of_mem_none : ∀ input ∈ (none : Option SourceStreamEvent),
    ∃ query, input.event = .query query ∧ isBeginQuery query.sqlStatement = true := by
  simp

theorem isRowsOrTableMap_of_mem_inserts (position : Nat) (ids : List UInt32) :
    ∀ input ∈ tableMapAt position :: ids.mapIdx fun i id => insertAt (position + 10 * (i + 1)) id,
      input.event.isRowsOrTableMap = true := by
  intro input hinput
  rcases List.mem_cons.mp hinput with rfl | hinput
  · rfl
  · obtain ⟨i, hi, rfl⟩ := List.mem_mapIdx.mp hinput
    rfl

/-- A transaction that inserts rows, from a position on. -/
def insertTransaction (position : Nat) (ids : List UInt32) : SourceTransaction where
  start := none
  rows := tableMapAt position :: ids.mapIdx fun i id => insertAt (position + 10 * (i + 1)) id
  finish := eventAt (position + 10 * (ids.length + 1)) (.xid 1)
  start_begin := isBeginQuery_of_mem_none
  rows_only := isRowsOrTableMap_of_mem_inserts position ids
  finish_xid := ⟨1, rfl⟩
  finish_position := by
    simp only [eventAt]
    omega

/-- A clock that jumps by five milliseconds. -/
def jumpingClock (jump tick : Nat) : Nat := if tick < jump then 0 else 5

/-- Two grouped transactions; the clock passes the timeout between the two rows of the second. -/
def splitTransactions : List SourceTransaction :=
  [insertTransaction 10 [1], insertTransaction 40 [2, 3]]

/-- The commit forced by the timeout exposes the first row of the second transaction. -/
theorem groupCommit_splits_transaction :
    ¬CommitsPrefixes (quietWorld (jumpingClock 10)) splitTransactions
      (.attempt freshDb none (some "app") "bin.000001")
      (applyInputs (quietWorld (jumpingClock 10)) ⟨"source", ⟨10, 5⟩, .targetTable "cdc" "stream"⟩
        (transactionEvents splitTransactions)
        (.attempt freshDb none (some "app") "bin.000001")).2 := by
  intro h
  have hcommit : ∃ x ∈ (applyInputs (quietWorld (jumpingClock 10))
      ⟨"source", ⟨10, 5⟩, .targetTable "cdc" "stream"⟩ (transactionEvents splitTransactions)
      (.attempt freshDb none (some "app") "bin.000001")).2.trace,
      x.op = .commit ∧ x.after.db.work.length = 2 := by decide +kernel
  obtain ⟨x, hx, hop, hlength⟩ := hcommit
  obtain ⟨before, last, rest, htransactions, -, hwork, -⟩ := h x hx hop
  rw [hwork] at hlength
  cases before with
  | nil =>
    obtain ⟨rfl, -⟩ : insertTransaction 10 [1] = last ∧ _ := by
      simpa [splitTransactions] using htransactions
    revert hlength
    decide +kernel
  | cons first before =>
    cases before with
    | nil =>
      obtain ⟨rfl, rfl, -⟩ : insertTransaction 10 [1] = first ∧ insertTransaction 40 [2, 3] = last ∧
          _ := by simpa [splitTransactions] using htransactions
      revert hlength
      decide +kernel
    | cons second before =>
      have := congrArg List.length htransactions
      simp [splitTransactions] at this

/-- With a clock that stands still the two transactions are committed together. -/
theorem groupCommit_exposes_two_transactions :
    ∃ x ∈ (applyInputs (quietWorld fun _ => 0) ⟨"source", ⟨2, 5⟩, .targetTable "cdc" "stream"⟩
        (transactionEvents splitTransactions)
        (.attempt freshDb none (some "app") "bin.000001")).2.trace,
      x.op = .commit ∧ x.after.db.work.length = 3 ∧
        CommitsPrefix idCodec freshDb
          (Runtime.attempt freshDb none (some "app") "bin.000001").core.reader
          splitTransactions x := by
  have hsafe : FlushesBetweenTransactions (quietWorld fun _ => 0)
      ⟨"source", ⟨2, 5⟩, .targetTable "cdc" "stream"⟩
      (.attempt freshDb none (some "app") "bin.000001") splitTransactions := by
    intro completed transaction rest part input more s' htransactions hevents hreaches _
    -- The handled events are a beginning of the seven events of the run.
    have hall : transactionEvents splitTransactions =
        transactionEvents completed ++ part ++ (input :: more ++ transactionEvents rest) := by
      rw [htransactions]
      simp [transactionEvents, hevents]
    have htake : transactionEvents completed ++ part =
        (transactionEvents splitTransactions).take
          (transactionEvents completed ++ part).length := by
      rw [hall, List.take_left]
    have hlength : (transactionEvents completed ++ part).length < 7 := by
      have hseven : (transactionEvents splitTransactions).length = 7 := by decide +kernel
      rw [hall, List.length_append] at hseven
      simp only [List.cons_append, List.length_cons] at hseven
      omega
    have hrun : ∀ n < 7, (applyInputs (quietWorld fun _ => 0)
        ⟨"source", ⟨2, 5⟩, .targetTable "cdc" "stream"⟩
        ((transactionEvents splitTransactions).take n)
        (.attempt freshDb none (some "app") "bin.000001")).2.targetTransaction.shouldFlush
          ⟨2, 5⟩ false 0 = false := by decide +kernel
    have hstate := hrun _ hlength
    rw [← htake, show (applyInputs _ _ _ _) = _ from hreaches] at hstate
    exact hstate
  have hcommit : ∃ x ∈ (applyInputs (quietWorld fun _ => 0)
      ⟨"source", ⟨2, 5⟩, .targetTable "cdc" "stream"⟩ (transactionEvents splitTransactions)
      (.attempt freshDb none (some "app") "bin.000001")).2.trace,
      x.op = .commit ∧ x.after.db.work.length = 3 := by decide +kernel
  obtain ⟨x, hx, hop, hlength⟩ := hcommit
  exact ⟨x, hx, hop, hlength, groupCommit_exposes_prefix _ _ _ _ _ _ _ _ _ _ hsafe x hx hop⟩

end BinlogCdc
