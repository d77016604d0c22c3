import BinlogCdc.Binlog.EventLayout

/-!
# Logs of a server

A log is a list of events with their headers and checksums, each written as the ones before it say:
with a checksum or not, and rows in the layout of the last table map of their id. The reading thread
delivers the events of the log in their order, with what is written in each, up to the first one that
is an error for the client. Its positions are those of the log, except behind an artificial event.
-/

namespace BinlogCdc.MysqlCdc

open BinlogCdc.Core

/-! ## Entries -/

structure LogEntry where
  timestamp : Nat
  serverId : Nat
  nextEventPosition : Nat
  eventFlags : Nat
  event : LoggedEvent
  checksum : List UInt8

/-- What the events before say about an event. -/
structure LogState where
  checksum : ChecksumType
  tables : Nat → Option TableMapEvent

def LogState.after (state : LogState) : LoggedEvent → LogState
  | .formatDescription format => { state with checksum := format.checksum.getD .none }
  | .tableMap payload =>
    { state with tables := Function.update state.tables payload.tableId (some payload.event) }
  | _ => state

/-- A format description has a checksum behind a checksum code, whatever the code is. -/
def LogState.checksumLength (state : LogState) : LoggedEvent → Nat
  | .formatDescription format => if format.checksum.isSome then 4 else 0
  | _ => if state.checksum = .crc32 then 4 else 0

namespace LogEntry

def length (entry : LogEntry) : Nat := 19 + entry.event.payload.length + entry.checksum.length

def header (entry : LogEntry) : EventHeader where
  timestamp := entry.timestamp
  eventType := entry.event.code
  serverId := entry.serverId
  eventLength := entry.length
  nextEventPosition := entry.nextEventPosition
  eventFlags := entry.eventFlags

def headerBytes (entry : LogEntry) : List UInt8 :=
  toLeBytes 4 entry.timestamp ++ (toLeBytes 1 entry.event.code.toNat ++ (toLeBytes 4 entry.serverId ++
    (toLeBytes 4 entry.length ++ (toLeBytes 4 entry.nextEventPosition ++
      toLeBytes 2 entry.eventFlags))))

/-- The packet of an event behind the status of success. -/
def packet (entry : LogEntry) : List UInt8 :=
  0 :: (entry.headerBytes ++ (entry.event.payload ++ entry.checksum))

structure WellFormed (entry : LogEntry) (state : LogState) : Prop where
  event : entry.event.WellFormed state.tables
  timestamp_lt : entry.timestamp < 2 ^ 32
  serverId_lt : entry.serverId < 2 ^ 32
  length_lt : entry.length < 2 ^ 32
  nextEventPosition_lt : entry.nextEventPosition < 2 ^ 32
  eventFlags_lt : entry.eventFlags < 2 ^ 16
  checksum : entry.checksum.length = state.checksumLength entry.event
  /-- A server without checksums has none. -/
  format : ∀ format, entry.event = .formatDescription format → format.checksum = none →
    state.checksum = .none

end LogEntry

def WellFormedLog : LogState → List LogEntry → Prop
  | _, [] => True
  | state, entry :: entries =>
    entry.WellFormed state ∧ WellFormedLog (state.after entry.event) entries

/-- The parser has what the log says. -/
structure Represents (parser : EventParser) (state : LogState) : Prop where
  checksumType : parser.checksumType = state.checksum
  tableMap : ∀ id, parser.tableMap.lookup id = state.tables id

/-! ## One event -/

section Step

variable {parser : EventParser} {state : LogState} {entry : LogEntry}

theorem reads_parseEventHeader (h : entry.WellFormed state) :
    Reads parseEventHeader entry.headerBytes entry.header :=
  (reads_readLe h.timestamp_lt).bind ((reads_byte entry.event.code).bind
    ((reads_readLe h.serverId_lt).bind ((reads_readLe h.length_lt).bind
      ((reads_readLe h.nextEventPosition_lt).bind ((reads_readLe h.eventFlags_lt).map
        fun eventFlags => { entry.header with eventFlags })))))

theorem length_headerBytes (entry : LogEntry) : entry.headerBytes.length = 19 := by
  simp only [LogEntry.headerBytes, List.length_append, length_toLeBytes]

theorem content_crc32 {payload checksum : List UInt8} (h : checksum.length = 4) :
    ChecksumType.crc32.content (payload ++ checksum) = .ok payload := by
  rw [ChecksumType.content, if_pos (by rw [List.length_append]; omega), List.length_append, h,
    Nat.add_sub_cancel, List.take_left]

theorem LogEntry.WellFormed.eventLength_eq (h : entry.WellFormed state) {format : LoggedFormat}
    (hformat : entry.event = .formatDescription format) :
    entry.header.eventLength = format.eventLength := by
  have hchecksum := h.checksum
  rw [hformat, LogState.checksumLength] at hchecksum
  rw [LoggedFormat.eventLength, ← hchecksum]
  change 19 + entry.event.payload.length + _ = _
  rw [hformat]
  rfl

/-- The parser takes the checksum off, or leaves it behind a format description. -/
theorem content_eq (hstate : Represents parser state) (h : entry.WellFormed state) :
    ∃ rest, parser.checksumType.content (entry.event.payload ++ entry.checksum) =
        .ok (entry.event.payload ++ rest) ∧
      (rest = [] ∨ ∃ format, entry.event = .formatDescription format) := by
  have hlength := h.checksum
  rw [hstate.checksumType]
  cases hchecksum : state.checksum with
  | crc32 =>
    refine ⟨[], ?_, .inl rfl⟩
    rw [List.append_nil]
    refine content_crc32 ?_
    rw [hlength]
    cases hevent : entry.event with
    | formatDescription format =>
      have hsome : format.checksum.isSome := by
        cases hformat : format.checksum with
        | none =>
          rw [h.format format hevent hformat] at hchecksum
          cases hchecksum
        | some _ => rfl
      rw [LogState.checksumLength, if_pos hsome]
    | _ => simp [LogState.checksumLength, hchecksum]
  | none =>
    refine ⟨entry.checksum, rfl, ?_⟩
    cases hevent : entry.event with
    | formatDescription format => exact .inr ⟨format, rfl⟩
    | _ =>
      refine .inl (List.eq_nil_of_length_eq_zero ?_)
      rw [hlength, hevent]
      simp [LogState.checksumLength, hchecksum]

/-- What the client makes of a packet. -/
theorem next_packet (hstate : Represents parser state) (h : entry.WellFormed state) :
    parser.next (some entry.packet) = some (((entry.event.outcome entry.serverId).map fun event =>
      (entry.header, event)).mapError Halt.rejected) := by
  obtain ⟨rest, hcontent, hrest⟩ := content_eq hstate h
  have hheader := (reads_parseEventHeader h) ⟨entry.headerBytes ++ (entry.event.payload ++ entry.checksum), 0⟩
    _ (Nat.zero_le _) rfl
  have hslice : (entry.headerBytes ++ (entry.event.payload ++ entry.checksum)).drop 19 =
      entry.event.payload ++ entry.checksum := by
    rw [← length_headerBytes entry, List.drop_left]
  have hends : Ends (parser.payloadReader entry.header) (entry.event.payload ++ rest)
      (entry.event.outcome entry.serverId) := by
    rcases hrest with rfl | ⟨format, hformat⟩
    · rw [List.append_nil]
      exact ends_payloadReader h.event hstate.tableMap rfl fun format hformat => h.eventLength_eq hformat
    · have hevent := h.event
      rw [hformat] at hevent
      have hread := (ends_parseFormatDescriptionEvent hevent (h.eventLength_eq hformat) rest).map
        BinlogEvent.formatDescriptionEvent
      rw [EventParser.payloadReader, LogEntry.header, hformat]
      exact hread
  have hrun := hends.run
  rw [LogEntry.packet, EventParser.next, if_pos rfl, EventParser.readEvent, hheader]
  simp only [EventParser.parseEvent, hslice, hcontent, bind, Except.bind]
  cases hread : parser.payloadReader entry.header ⟨entry.event.payload ++ rest, 0⟩ with
  | error reason =>
    rw [hread] at hrun
    cases houtcome : entry.event.outcome entry.serverId with
    | error error =>
      rw [houtcome] at hrun
      obtain rfl := Except.error.inj hrun
      rfl
    | ok event =>
      rw [houtcome] at hrun
      cases hrun
  | ok result =>
    rw [hread] at hrun
    cases houtcome : entry.event.outcome entry.serverId with
    | error error =>
      rw [houtcome] at hrun
      cases hrun
    | ok event =>
      rw [houtcome] at hrun
      obtain rfl := Except.ok.inj hrun
      rfl

end Step

/-! ## The state behind an event -/

theorem lookup_cons_update {tables : Nat → Option TableMapEvent} {tableMap : TableMaps}
    (h : ∀ id, tableMap.lookup id = tables id) (tableId : Nat) (event : TableMapEvent) (id : Nat) :
    List.lookup id ((tableId, event) :: tableMap) = Function.update tables tableId (some event) id := by
  rw [List.lookup_cons, Function.update_apply]
  by_cases hid : id = tableId
  · rw [if_pos hid, beq_iff_eq.mpr hid]
  · rw [if_neg hid, beq_false_of_ne hid]
    exact h id

theorem ifReadable_eq_ok {readable : Prop} {event result : BinlogEvent}
    (h : ifReadable readable event = .ok result) : result = event := by
  rw [ifReadable] at h
  split at h
  · exact (Except.ok.inj h).symm
  · cases h

theorem decoded_map_eq_ok {error : Error} {bytes : List UInt8} {f : String → BinlogEvent}
    {event : BinlogEvent} (h : (decoded error bytes).map f = .ok event) : ∃ text, event = f text := by
  cases hdecoded : decoded error bytes with
  | error _ =>
    rw [hdecoded] at h
    cases h
  | ok text =>
    rw [hdecoded] at h
    exact ⟨text, (Except.ok.inj h).symm⟩

/-- An event that is read changes the parser as the log says. -/
theorem Represents.record {parser : EventParser} {state : LogState} (hstate : Represents parser state)
    {logged : LoggedEvent} {serverId : Nat} {event : BinlogEvent}
    (h : logged.outcome serverId = .ok event) :
    Represents (parser.record event) (state.after logged) := by
  cases logged with
  | formatDescription format =>
    obtain rfl := Except.ok.inj h
    exact ⟨rfl, hstate.tableMap⟩
  | tableMap payload =>
    obtain rfl := Except.ok.inj h
    exact ⟨hstate.checksumType, lookup_cons_update hstate.tableMap payload.tableId payload.event⟩
  | writeRows _ payload | deleteRows _ payload | updateRows _ payload =>
    obtain rfl := ifReadable_eq_ok h
    exact hstate
  | query logged =>
    obtain ⟨text, rfl⟩ := decoded_map_eq_ok h
    exact hstate
  | userVar name value =>
    cases value with
    | none =>
      obtain rfl := Except.ok.inj h
      exact hstate
    | some logged =>
      obtain ⟨text, rfl⟩ := decoded_map_eq_ok h
      exact hstate
  | _ =>
    obtain rfl := Except.ok.inj h
    exact hstate

/-! ## Runs -/

/-- What a connection has behind the events: its end, an error of the server, or nothing more. -/
inductive Ending
  | finished (rest : List UInt8)
  | failed (errorCode : Nat) (errorMessage : String) (h : errorCode < 2 ^ 16)
  | lost

def Ending.packet : Ending → Option (List UInt8)
  | finished rest => some (0xFE :: rest)
  | failed errorCode errorMessage _ =>
    some (0xFF :: (toLeBytes 2 errorCode ++ errorMessage.toUTF8.toList))
  | lost => none

def Ending.error : Ending → Option Error
  | finished _ => none
  | failed errorCode errorMessage _ => some (.string (serverErrorText errorCode errorMessage))
  | lost => some .ioError

def Ending.items {α : Type} (ending : Ending) : List (Except Error α) :=
  ending.error.toList.map Except.error

/-- The packets of a connection. -/
def packets (log : List LogEntry) (ending : Ending) : List (Option (List UInt8)) :=
  log.map (fun entry => some entry.packet) ++ [ending.packet]

/-- The events of a log up to the first error, each with the position that the reader has for it, and
behind the last event what the connection ends with. -/
noncomputable def deliveries (ending : Ending) : Nat → List LogEntry → List (Except Error ReadEvent)
  | _, [] => ending.items
  | position, entry :: entries =>
    match entry.event.outcome entry.serverId with
    | .error error => [.error error]
    | .ok event =>
      .ok ⟨entry.header, event, position⟩ ::
        deliveries ending (nextSourcePosition position entry.header event) entries

theorem readAhead_ending (ending : Ending) (parser : EventParser) (position : Nat) :
    readAhead parser position [ending.packet] = ending.items.map (·.mapError Halt.rejected) := by
  cases ending with
  | finished rest => rfl
  | lost => rfl
  | failed errorCode errorMessage h =>
    have hread : Ends readError (toLeBytes 2 errorCode ++ errorMessage.toUTF8.toList)
        (.error (.string (serverErrorText errorCode errorMessage))) := by
      refine (reads_readLe h).bind_ends fun cursor hin hrest => ?_
      rw [Reader.bind_of_ok (readsLast_readToString errorMessage cursor hin hrest)]
      rfl
    have hnext : parser.next (Ending.failed errorCode errorMessage h).packet =
        some ((readError ⟨toLeBytes 2 errorCode ++ errorMessage.toUTF8.toList, 0⟩).map Prod.fst) := rfl
    rw [readAhead, hnext, hread.run]
    rfl

/-- The reading thread delivers a log up to its first error. -/
theorem readAhead_packets {log : List LogEntry} {parser : EventParser} {state : LogState}
    (hstate : Represents parser state) (h : WellFormedLog state log) (ending : Ending) (position : Nat) :
    readAhead parser position (packets log ending) =
      (deliveries ending position log).map (·.mapError Halt.rejected) := by
  induction log generalizing parser state position with
  | nil => exact readAhead_ending ending parser position
  | cons entry entries ih =>
    rw [packets, List.map_cons, List.cons_append, readAhead, next_packet hstate h.1, deliveries]
    cases houtcome : entry.event.outcome entry.serverId with
    | error error => rfl
    | ok event =>
      have hrest := ih (hstate.record houtcome) h.2 (nextSourcePosition position entry.header event)
      exact congrArg (List.cons (.ok ⟨entry.header, event, position⟩)) hrest

/-- What the client makes of the event, behind its header. -/
noncomputable def LogEntry.outcome (entry : LogEntry) : Except Error (EventHeader × BinlogEvent) :=
  (entry.event.outcome entry.serverId).map fun event => (entry.header, event)

/-- The list up to its first error. -/
def untilError {ε α : Type} : List (Except ε α) → List (Except ε α)
  | [] => []
  | .error error :: _ => [.error error]
  | .ok value :: items => .ok value :: untilError items

theorem deliveries_eq_untilError (ending : Ending) (log : List LogEntry) (position : Nat) :
    (deliveries ending position log).map (·.map fun read => (read.header, read.event)) =
      untilError (log.map LogEntry.outcome ++ ending.items) := by
  induction log generalizing position with
  | nil => cases ending <;> rfl
  | cons entry entries ih =>
    rw [deliveries, List.map_cons, List.cons_append, LogEntry.outcome]
    cases entry.event.outcome entry.serverId with
    | error error => rfl
    | ok event => exact congrArg (List.cons (.ok (entry.header, event))) (ih _)

/-- Where the event changes the file to. -/
def LoggedEvent.rotation : LoggedEvent → Option BinlogCoordinate
  | .rotate binlogFilename binlogPosition => some ⟨binlogFilename, binlogPosition⟩
  | _ => none

def LoggedEvent.isHeartbeat : LoggedEvent → Bool
  | .heartbeat _ => true
  | _ => false

namespace LogEntry

/-- The server makes the event for the connection and gives it no position. -/
def Artificial (entry : LogEntry) : Prop :=
  entry.nextEventPosition = 0 ∧ entry.event.rotation = none

/-- The file has the event. -/
def inFile (entry : LogEntry) : Bool :=
  entry.nextEventPosition != 0 && !entry.event.isHeartbeat

/-- Where the event behind an event starts. -/
def coordinateAfter (entry : LogEntry) (coordinate : BinlogCoordinate) : BinlogCoordinate :=
  entry.event.rotation.getD
    ⟨coordinate.file, coordinate.position + if entry.inFile then entry.length else 0⟩

/-- Where the reader takes the event behind an event to start. -/
def readerAfter (entry : LogEntry) (position : Nat) : Nat :=
  match entry.event.rotation with
  | some coordinate => coordinate.position
  | none =>
    if 0 < entry.nextEventPosition then entry.nextEventPosition
    else min (position + entry.length) (2 ^ 64 - 1)

end LogEntry

/-- The headers say where the event behind each event starts, in files that are short enough for
positions. -/
def Placed : BinlogCoordinate → List LogEntry → Prop
  | coordinate, [] => coordinate.position < 2 ^ 64 - 1
  | coordinate, entry :: entries =>
    coordinate.position < 2 ^ 64 - 1 ∧
      (entry.event.rotation = none → entry.nextEventPosition ≠ 0 →
        entry.nextEventPosition = (entry.coordinateAfter coordinate).position) ∧
      Placed (entry.coordinateAfter coordinate) entries

/-- Where the event behind some events starts. -/
def coordinateBehind (entries : List LogEntry) (coordinate : BinlogCoordinate) : BinlogCoordinate :=
  entries.foldl (fun coordinate entry => entry.coordinateAfter coordinate) coordinate

/-- An event that is read as a rotation is one. -/
theorem rotation_of_outcome {logged : LoggedEvent} {serverId : Nat} {event : BinlogEvent}
    (h : logged.outcome serverId = .ok event) :
    (∃ target, logged.rotation = some target ∧ event = .rotateEvent target.file target.position) ∨
      (logged.rotation = none ∧ ∀ file position, event ≠ .rotateEvent file position) := by
  cases logged with
  | rotate binlogFilename binlogPosition =>
    obtain rfl := Except.ok.inj h
    exact .inl ⟨⟨binlogFilename, binlogPosition⟩, rfl, rfl⟩
  | writeRows _ payload | deleteRows _ payload | updateRows _ payload =>
    obtain rfl := ifReadable_eq_ok h
    exact .inr ⟨rfl, fun _ _ => BinlogEvent.noConfusion⟩
  | query logged =>
    obtain ⟨text, rfl⟩ := decoded_map_eq_ok h
    exact .inr ⟨rfl, fun _ _ => BinlogEvent.noConfusion⟩
  | userVar name value =>
    cases value with
    | none =>
      obtain rfl := Except.ok.inj h
      exact .inr ⟨rfl, fun _ _ => BinlogEvent.noConfusion⟩
    | some logged =>
      obtain ⟨text, rfl⟩ := decoded_map_eq_ok h
      exact .inr ⟨rfl, fun _ _ => BinlogEvent.noConfusion⟩
  | _ =>
    obtain rfl := Except.ok.inj h
    exact .inr ⟨rfl, fun _ _ => BinlogEvent.noConfusion⟩

theorem nextSourcePosition_eq {entry : LogEntry} {event : BinlogEvent}
    (h : entry.event.outcome entry.serverId = .ok event) (position : Nat) :
    nextSourcePosition position entry.header event = entry.readerAfter position := by
  rw [LogEntry.readerAfter]
  rcases rotation_of_outcome h with ⟨target, hrotation, rfl⟩ | ⟨hrotation, hevent⟩
  · rw [hrotation]
    rfl
  · rw [hrotation]
    cases event with
    | rotateEvent file position => exact absurd rfl (hevent file position)
    | _ => rfl

/-- One event keeps the reader at the event or behind it, and only an artificial event leaves it behind. -/
theorem readerAfter_step {entry : LogEntry} {entries : List LogEntry} {coordinate : BinlogCoordinate}
    {reader : Nat} (h : Placed coordinate (entry :: entries)) (hle : coordinate.position ≤ reader) :
    (entry.coordinateAfter coordinate).position ≤ entry.readerAfter reader ∧
      (entry.readerAfter reader = (entry.coordinateAfter coordinate).position ↔ ¬entry.Artificial) := by
  obtain ⟨hposition, hplaced, -⟩ := h
  unfold LogEntry.readerAfter LogEntry.Artificial
  unfold LogEntry.coordinateAfter at hplaced ⊢
  cases hrotation : entry.event.rotation with
  | some target => simp
  | none =>
    have hlength : 0 < entry.length := by
      unfold LogEntry.length
      omega
    rw [hrotation] at hplaced
    by_cases hnext : entry.nextEventPosition = 0
    · simp only [Option.getD_none, LogEntry.inFile, hnext, bne_self_eq_false, Bool.false_and,
        Bool.false_eq_true, Nat.lt_irrefl, if_false, and_self, not_true, iff_false]
      omega
    · have hend := hplaced rfl hnext
      simp only [Option.getD_none] at hend ⊢
      simp only [← hend, hnext, Nat.pos_of_ne_zero hnext, if_true, false_and, not_false_iff, Nat.le_refl,
        and_self]

/-- The position of the reader is never before the event, and behind it only where artificial events
stand directly before. -/
theorem readerAfter_eq_iff {front : List LogEntry} {coordinate : BinlogCoordinate} {reader : Nat}
    (h : Placed coordinate front) (hle : coordinate.position ≤ reader)
    (hlast : front ≠ [] ∨ reader = coordinate.position) :
    front.foldl (fun position entry => entry.readerAfter position) reader =
        (coordinateBehind front coordinate).position ↔
      ∀ last ∈ front.getLast?, ¬last.Artificial := by
  induction front generalizing coordinate reader with
  | nil =>
    obtain rfl := hlast.resolve_left (by simp)
    simp [coordinateBehind]
  | cons entry entries ih =>
    obtain ⟨hnext, hiff⟩ := readerAfter_step h hle
    cases entries with
    | nil => simpa [coordinateBehind] using hiff
    | cons second others =>
      rw [List.getLast?_cons_cons]
      exact ih h.2.2 hnext (.inl (List.cons_ne_nil second others))

theorem Placed.front {front back : List LogEntry} {coordinate : BinlogCoordinate}
    (h : Placed coordinate (front ++ back)) : Placed coordinate front := by
  induction front generalizing coordinate with
  | nil =>
    cases back with
    | nil => exact h
    | cons entry entries => exact h.1
  | cons entry entries ih => exact ⟨h.1, h.2.1, ih h.2.2⟩

/-- The event behind a front that is read. -/
theorem getElem?_deliveries {front back : List LogEntry} {entry : LogEntry} {ending : Ending}
    {position : Nat} {event : BinlogEvent}
    (hfront : ∀ other ∈ front, ∃ result, other.event.outcome other.serverId = .ok result)
    (hevent : entry.event.outcome entry.serverId = .ok event) :
    (deliveries ending position (front ++ entry :: back))[front.length]? = some (.ok ⟨entry.header,
      event, front.foldl (fun position entry => entry.readerAfter position) position⟩) := by
  induction front generalizing position with
  | nil =>
    rw [List.nil_append, deliveries, hevent]
    rfl
  | cons other others ih =>
    obtain ⟨result, hresult⟩ := hfront other List.mem_cons_self
    rw [List.cons_append, deliveries, hresult]
    dsimp only
    rw [nextSourcePosition_eq hresult]
    exact ih fun entry hentry => hfront entry (List.mem_cons_of_mem other hentry)

def diaryTable : TableMapEvent where
  tableId := 7
  databaseName := "diary"
  tableName := "moods"
  columnTypes := [1, 254]
  columnMetadata := [0, 0xF701]
  nullBitmap := [false, true]
  tableMetadata := none

theorem holds_minusFive : IntegerWidth.tiny.Holds false (-5) := ⟨by decide, by decide⟩

/-- The field with minus five. -/
def diaryId : ImageField where
  type := .integer .tiny false
  layout := .integer
  present := true
  value := some (.integer (-5) holds_minusFive)

def diaryMood (mood : Nat) (h : mood ≤ 2 ∧ mood < 65536) : ImageField where
  type := .enum ["glad", "sad"]
  layout := .enum 1 (by decide)
  present := true
  value := some (.enum mood h)

def diaryImage (mood : Nat) (h : mood ≤ 2 ∧ mood < 65536) : List ImageField :=
  [diaryId, diaryMood mood h]

theorem writesRow_diary (mood : Nat) (h : mood ≤ 2 ∧ mood < 65536) :
    WritesRow (diaryImage mood h) ([0] ++ ([0xFB] ++ (toLeBytes 1 mood ++ []))) := by
  have hid : diaryId.Writes [0xFB] := by
    show [0xFB] = toLeBytes 1 ((-5 : Int) % 2 ^ 8).toNat
    decide
  have hmood : (diaryMood mood h).Writes (toLeBytes 1 mood) := by
    have hlt : mood < 256 ^ 1 := by omega
    exact ⟨hlt, rfl⟩
  have hbitmap : IsBitmap [0] [false, false] := ⟨rfl, by decide⟩
  exact ⟨[0], _, rfl, hbitmap, .cons hid (.cons hmood .nil)⟩

theorem readable_diary (mood : Nat) (h : mood ≤ 2 ∧ mood < 65536) : Readable (diaryImage mood h) := by
  refine List.forall_mem_cons.mpr ⟨?_, List.forall_mem_singleton.mpr ?_⟩
  · rintro ⟨value, ⟨⟩, hsign⟩
    exact hsign
  · rintro ⟨value, ⟨⟩, hsign⟩
    exact hsign

def diaryRows : RowsPayload where
  tableId := 7
  flags := 1
  columnsPresent := [true, true]
  head := toLeBytes 6 7 ++ (toLeBytes 2 1 ++ ([2, 0] ++ lenEncBytes 2))
  bitmap := [3]
  rows := [(diaryImage 2 (by decide), [0, 0xFB, 2]), (diaryImage 1 (by decide), [0, 0xFB, 1])]

theorem wellFormed_diaryRows : diaryRows.WellFormed 2 diaryTable.toSourceTableMap where
  head := ⟨by decide, by decide, by decide, [2, 0], ⟨[], by decide, rfl⟩, rfl⟩
  bitmap := ⟨rfl, by decide⟩
  present := List.mem_cons_self
  image := List.forall_mem_cons.mpr ⟨⟨rfl, rfl, rfl⟩, List.forall_mem_singleton.mpr ⟨rfl, rfl, rfl⟩⟩
  writes := List.forall_mem_cons.mpr
    ⟨writesRow_diary 2 (by decide), List.forall_mem_singleton.mpr (writesRow_diary 1 (by decide))⟩

theorem readable_diaryRows : diaryRows.Readable :=
  List.forall_mem_cons.mpr ⟨readable_diary 2 _, List.forall_mem_singleton.mpr (readable_diary 1 _)⟩

def diaryTableMap : TableMapPayload where
  tableId := 7
  databaseName := "diary"
  tableName := "moods"
  columns := [⟨1, 0, [], ⟨.tiny, rfl, And.intro rfl rfl⟩⟩, ⟨254, 0xF701, [0xF7, 1], ⟨.string, rfl, rfl⟩⟩]
  nullBitmap := [false, true]
  reserved := [1, 0]
  bitmap := [2]
  fields := []

theorem wellFormed_diaryTableMap : diaryTableMap.WellFormed where
  tableId_lt := by decide
  reserved := rfl
  databaseName_lt := by decide +kernel
  tableName_lt := by decide +kernel
  columns_lt := by decide
  metadata_lt := by decide
  nullBitmap := rfl
  bitmap := ⟨rfl, by decide⟩
  fields _ hfield := absurd hfield List.not_mem_nil

/-- An entry of a log without checksums. -/
def plainEntry (nextEventPosition : Nat) (event : LoggedEvent) : LogEntry where
  timestamp := 0
  serverId := 1
  nextEventPosition := nextEventPosition
  eventFlags := 0
  event := event
  checksum := []

theorem wellFormed_plainEntry {state : LogState} {nextEventPosition : Nat} {event : LoggedEvent}
    (hstate : state.checksum = .none) (hevent : event.WellFormed state.tables)
    (hlength : event.payload.length < 1000) (hnext : nextEventPosition < 2 ^ 32)
    (hformat : ∀ format, event ≠ .formatDescription format) :
    (plainEntry nextEventPosition event).WellFormed state where
  event := hevent
  timestamp_lt := Nat.two_pow_pos 32
  serverId_lt := Nat.one_lt_two_pow (by decide)
  length_lt := by
    show 19 + event.payload.length + 0 < 2 ^ 32
    omega
  nextEventPosition_lt := hnext
  eventFlags_lt := Nat.two_pow_pos 16
  checksum := by
    show 0 = state.checksumLength event
    cases event with
    | formatDescription format => exact absurd rfl (hformat format)
    | _ => simp [LogState.checksumLength, hstate]
  format format hevent := absurd hevent (hformat format)

/-- The server makes the first event for the connection. -/
def diaryGtids : LogEntry := plainEntry 0 (.mariaDbGtidList [])

def diaryAnnounced : LogEntry := plainEntry 52 (.tableMap diaryTableMap)

def diaryInserted : LogEntry := plainEntry 89 (.writeRows 2 diaryRows)

def diaryXid : LogEntry := plainEntry 116 (.xid 9)

def diaryLog : List LogEntry := [diaryGtids, diaryAnnounced, diaryInserted, diaryXid]

def emptyParser : EventParser where
  checksumType := .none
  tableMap := []

def emptyState : LogState where
  checksum := .none
  tables _ := none

theorem represents_empty : Represents emptyParser emptyState := ⟨rfl, fun _ => rfl⟩

theorem wellFormed_diaryLog : WellFormedLog emptyState diaryLog := by
  have hgtids : (LoggedEvent.mariaDbGtidList []).WellFormed emptyState.tables :=
    ⟨by decide, fun _ hgtid => absurd hgtid List.not_mem_nil⟩
  have hinserted : (LoggedEvent.writeRows 2 diaryRows).WellFormed
      (emptyState.after (.tableMap diaryTableMap)).tables :=
    ⟨by decide, diaryTable, rfl, wellFormed_diaryRows⟩
  have hxid : (LoggedEvent.xid 9).WellFormed (emptyState.after (.tableMap diaryTableMap)).tables := by
    show 9 < 2 ^ 64
    decide
  refine ⟨wellFormed_plainEntry rfl hgtids ?_ ?_ ?_,
    wellFormed_plainEntry rfl wellFormed_diaryTableMap ?_ ?_ ?_,
    wellFormed_plainEntry rfl hinserted ?_ ?_ ?_, wellFormed_plainEntry rfl hxid ?_ ?_ ?_, trivial⟩
  all_goals first | decide +kernel | exact fun _ => LoggedEvent.noConfusion

theorem placed_diaryLog : Placed ⟨"bin.000001", 4⟩ diaryLog := by
  have hend : (coordinateBehind diaryLog ⟨"bin.000001", 4⟩).position < 2 ^ 64 - 1 := by decide +kernel
  refine ⟨by decide +kernel, ?_, by decide +kernel, ?_, by decide +kernel, ?_, by decide +kernel, ?_, hend⟩
  · exact fun _ hnext => absurd rfl hnext
  all_goals exact fun _ _ => by decide +kernel

end BinlogCdc.MysqlCdc
