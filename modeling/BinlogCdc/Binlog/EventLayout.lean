import BinlogCdc.Binlog.EventParser
import BinlogCdc.Binlog.RowLayout
import BinlogCdc.Binlog.TableMapLayout

/-!
# How the server writes events

The payloads of all events, and what the client makes of each. Three things that a server may log are
errors for the client: a row with a negative duration, a statement that is not UTF-8, and the value of
a user variable that is not UTF-8.
-/

namespace BinlogCdc.MysqlCdc

open BinlogCdc.Core

/-! ## Payloads -/

/-- A format description: the versions, the length of the data of each event type, and the checksum
code, which servers before checksums do not write. -/
structure LoggedFormat where
  binlogVersion : Nat
  serverVersion : String
  /-- The timestamp and the length of headers. -/
  created : List UInt8
  eventTypes : List UInt8
  checksum : Option ChecksumType

structure LoggedVariable where
  varType : UInt8
  collation : Nat
  value : List UInt8
  flags : UInt8

structure LoggedQuery where
  threadId : Nat
  duration : Nat
  errorCode : Nat
  statusVariables : List UInt8
  databaseName : String
  sqlStatement : List UInt8

/-- An event of a log, with the bytes behind the fields that the client reads. -/
inductive LoggedEvent
  | formatDescription (format : LoggedFormat)
  | tableMap (payload : TableMapPayload)
  | writeRows (version : Nat) (payload : RowsPayload)
  | updateRows (version : Nat) (payload : UpdatePayload)
  | deleteRows (version : Nat) (payload : RowsPayload)
  | query (query : LoggedQuery)
  | userVar (name : String) (value : Option LoggedVariable)
  | intVar (intvarType : UInt8) (value : Nat)
  | xid (xid : Nat)
  | rotate (binlogFilename : String) (binlogPosition : Nat)
  | heartbeat (binlogFilename : String)
  | rowsQuery (length : UInt8) (query : List UInt8)
  | annotateRows (query : List UInt8)
  | mariaDbGtid (domainId sequence : Nat) (flags : UInt8) (rest : List UInt8)
  | mariaDbGtidList (gtids : List Gtid)
  | mySqlGtid (flags : UInt8) (sourceId : List UInt8) (transactionId : Nat) (rest : List UInt8)
  | other (code : UInt8) (payload : List UInt8)

def ChecksumType.code : ChecksumType → UInt8
  | none => 0
  | crc32 => 1

namespace LoggedFormat

/-- The fields up to the length of this event's own data. -/
def front (format : LoggedFormat) : List UInt8 :=
  toLeBytes 2 format.binlogVersion ++ ((format.serverVersion.toUTF8.toList ++
    List.replicate (50 - format.serverVersion.toUTF8.toList.length) 0) ++ (format.created ++
      (format.eventTypes.take 14 ++ toLeBytes 1 (57 + format.eventTypes.length))))

def payload (format : LoggedFormat) : List UInt8 :=
  format.front ++ (format.eventTypes.drop 15 ++ (format.checksum.map ChecksumType.code).toList)

def event (format : LoggedFormat) : FormatDescriptionEvent where
  binlogVersion := format.binlogVersion
  serverVersion := format.serverVersion
  checksumType := format.checksum.getD .none

/-- The event, its header and its checksum have less than 256 bytes. -/
structure WellFormed (format : LoggedFormat) : Prop where
  version_lt : format.binlogVersion < 2 ^ 16
  serverVersion_le : format.serverVersion.toUTF8.toList.length ≤ 50
  serverVersion_ne : ∀ byte ∈ format.serverVersion.toUTF8.toList, byte ≠ 0
  created : format.created.length = 5
  types_ge : 15 ≤ format.eventTypes.length
  types_le : format.eventTypes.length + 81 < 256

end LoggedFormat

def LoggedVariable.bytes (logged : LoggedVariable) : List UInt8 :=
  toLeBytes 1 logged.varType.toNat ++ (toLeBytes 4 logged.collation ++
    (toLeBytes 4 logged.value.length ++ (logged.value ++ toLeBytes 1 logged.flags.toNat)))

/-- The statement and what stands before it. -/
def LoggedQuery.bytes (query : LoggedQuery) : List UInt8 :=
  toLeBytes 4 query.threadId ++ (toLeBytes 4 query.duration ++
    (toLeBytes 1 query.databaseName.toUTF8.toList.length ++ (toLeBytes 2 query.errorCode ++
      (toLeBytes 2 query.statusVariables.length ++ (query.statusVariables ++
        (query.databaseName.toUTF8.toList ++ ([0] ++ query.sqlStatement)))))))

def Gtid.bytes (gtid : Gtid) : List UInt8 :=
  toLeBytes 4 gtid.domainId ++ (toLeBytes 4 gtid.serverId ++ toLeBytes 8 gtid.sequence)

namespace LoggedEvent

def code : LoggedEvent → UInt8
  | formatDescription _ => 15
  | tableMap _ => 19
  | writeRows version _ => if version = 2 then 30 else 23
  | updateRows version _ => if version = 2 then 31 else 24
  | deleteRows version _ => if version = 2 then 32 else 25
  | query _ => 2
  | userVar _ _ => 14
  | intVar _ _ => 5
  | xid _ => 16
  | rotate _ _ => 4
  | heartbeat _ => 27
  | rowsQuery _ _ => 29
  | annotateRows _ => 160
  | mariaDbGtid _ _ _ _ => 162
  | mariaDbGtidList _ => 163
  | mySqlGtid _ _ _ _ => 33
  | other code _ => code

def payload : LoggedEvent → List UInt8
  | formatDescription format => format.payload
  | tableMap payload => payload.bytes
  | writeRows _ payload => payload.bytes
  | updateRows _ payload => payload.bytes
  | deleteRows _ payload => payload.bytes
  | query logged => logged.bytes
  | userVar name value =>
    toLeBytes 4 name.toUTF8.toList.length ++ (name.toUTF8.toList ++
      value.elim (toLeBytes 1 1) fun logged => toLeBytes 1 0 ++ logged.bytes)
  | intVar intvarType value => toLeBytes 1 intvarType.toNat ++ toLeBytes 8 value
  | xid number => toLeBytes 8 number
  | rotate binlogFilename binlogPosition =>
    toLeBytes 8 binlogPosition ++ binlogFilename.toUTF8.toList
  | heartbeat binlogFilename => binlogFilename.toUTF8.toList
  | rowsQuery length text => [length] ++ text
  | annotateRows text => text
  | mariaDbGtid domainId sequence flags rest =>
    (toLeBytes 8 sequence ++ (toLeBytes 4 domainId ++ toLeBytes 1 flags.toNat)) ++ rest
  | mariaDbGtidList gtids => toLeBytes 4 gtids.length ++ gtids.flatMap Gtid.bytes
  | mySqlGtid flags sourceId transactionId rest =>
    (toLeBytes 1 flags.toNat ++ (sourceId ++ toLeBytes 8 transactionId)) ++ rest
  | other _ payload => payload

/-- The numbers fit into their fields, and rows are those of the table map that their id has. -/
def WellFormed (tables : Nat → Option TableMapEvent) : LoggedEvent → Prop
  | formatDescription format => format.WellFormed
  | tableMap payload => payload.WellFormed
  | writeRows version payload | deleteRows version payload =>
    version ∈ [1, 2] ∧ ∃ table, tables payload.tableId = some table ∧
      payload.WellFormed version table.toSourceTableMap
  | updateRows version payload =>
    version ∈ [1, 2] ∧ ∃ table, tables payload.tableId = some table ∧
      payload.WellFormed version table.toSourceTableMap
  | query logged => logged.threadId < 2 ^ 32 ∧ logged.duration < 2 ^ 32 ∧ logged.errorCode < 2 ^ 16 ∧
    logged.databaseName.toUTF8.toList.length < 256 ∧ logged.statusVariables.length < 2 ^ 16
  | userVar name value => name.toUTF8.toList.length < 2 ^ 32 ∧
    ∀ logged ∈ value, logged.collation < 2 ^ 32 ∧ logged.value.length < 2 ^ 32
  | intVar _ value => value < 2 ^ 64
  | xid number => number < 2 ^ 64
  | rotate _ binlogPosition => binlogPosition < 2 ^ 64
  | mariaDbGtid domainId sequence _ _ => domainId < 2 ^ 32 ∧ sequence < 2 ^ 64
  | mariaDbGtidList gtids => gtids.length < 2 ^ 32 ∧
    ∀ gtid ∈ gtids, gtid.domainId < 2 ^ 32 ∧ gtid.serverId < 2 ^ 32 ∧ gtid.sequence < 2 ^ 64
  | mySqlGtid _ sourceId transactionId _ => sourceId.length = 16 ∧ transactionId < 2 ^ 64
  -- Codes that the client has no parser for.
  | other code _ =>
    code ∉ ([2, 4, 5, 14, 15, 16, 19, 23, 24, 25, 27, 29, 30, 31, 32, 33, 35, 160, 162, 163] : List UInt8)
  | _ => True

end LoggedEvent

/-- The decoded text or the error. -/
def decoded (error : Error) (bytes : List UInt8) : Except Error String :=
  match fromUtf8? bytes with
  | some text => .ok text
  | none => .error error

def LoggedQuery.event (logged : LoggedQuery) (sqlStatement : String) : BinlogEvent :=
  .queryEvent
    { threadId := logged.threadId
      duration := logged.duration
      errorCode := logged.errorCode
      statusVariables := logged.statusVariables
      databaseName := logged.databaseName
      sqlStatement }

open Classical in
/-- The event, or an error if one of its rows has a negative duration. -/
noncomputable def ifReadable (readable : Prop) (event : BinlogEvent) : Except Error BinlogEvent :=
  if readable then .ok event else .error (.string negativeTimeMessage)

/-- What the client makes of an event of a server. -/
noncomputable def LoggedEvent.outcome (serverId : Nat) : LoggedEvent → Except Error BinlogEvent
  | formatDescription format => .ok (.formatDescriptionEvent format.event)
  | tableMap payload => .ok (.tableMapEvent payload.event)
  | writeRows _ payload => ifReadable payload.Readable (.writeRowsEvent payload.event)
  | updateRows _ payload => ifReadable payload.Readable (.updateRowsEvent payload.event)
  | deleteRows _ payload => ifReadable payload.Readable (.deleteRowsEvent payload.event)
  | query logged => (decoded .invalidData logged.sqlStatement).map logged.event
  | userVar name none => .ok (.userVarEvent name none)
  | userVar name (some logged) =>
    (decoded .fromUtf8Error logged.value).map fun value => .userVarEvent name (some { logged with value })
  | intVar intvarType value => .ok (.intVarEvent intvarType value)
  | xid number => .ok (.xidEvent number)
  | rotate binlogFilename binlogPosition => .ok (.rotateEvent binlogFilename binlogPosition)
  | heartbeat binlogFilename => .ok (.heartbeatEvent binlogFilename)
  | rowsQuery _ text => .ok (.rowsQueryEvent (fromUtf8Lossy text))
  | annotateRows text => .ok (.rowsQueryEvent (fromUtf8Lossy text))
  | mariaDbGtid domainId sequence flags _ => .ok (.mariaDbGtidEvent ⟨domainId, serverId, sequence⟩ flags)
  | mariaDbGtidList gtids => .ok (.mariaDbGtidListEvent gtids)
  | mySqlGtid flags sourceId transactionId _ => .ok (.mySqlGtidEvent flags sourceId transactionId)
  | other _ _ => .ok .unknownEvent

/-! ## What the client reads -/

theorem reads_byte (byte : UInt8) : Reads readU8 (toLeBytes 1 byte.toNat) byte := by
  have hread := reads_readU8 byte.toNat_lt
  rwa [UInt8.ofNat_toNat] at hread

theorem reads_take {bytes : List UInt8} {length : Nat} (h : bytes.length = length) :
    Reads (readExact length) bytes bytes := by
  subst h
  exact reads_takeOr _ bytes

theorem takeWhile_serverVersion {text : List UInt8} (h : ∀ byte ∈ text, byte ≠ 0) (count : Nat) :
    (text ++ List.replicate count 0).takeWhile (· ≠ 0) = text := by
  rw [List.takeWhile_append_of_pos (by simpa using h)]
  cases count with
  | zero => simp
  | succ count => simp [List.replicate_succ]

theorem fromCode_checksum (checksum : ChecksumType) :
    ChecksumType.fromCode checksum.code = pure checksum := by
  cases checksum <;> rfl

/-- The length of the event, as far as its checksum shows. -/
def LoggedFormat.eventLength (format : LoggedFormat) : Nat :=
  19 + format.payload.length + if format.checksum.isSome then 4 else 0

theorem LoggedFormat.length_front {format : LoggedFormat} (h : format.WellFormed) :
    format.front.length = 72 := by
  have hversion := h.serverVersion_le
  have hcreated := h.created
  have htypes := h.types_ge
  simp only [front, List.length_append, length_toLeBytes, List.length_replicate, List.length_take]
  omega

/-- The length of the event tells whether a checksum code is there. -/
theorem LoggedFormat.payloadLength_ne_iff {format : LoggedFormat} (h : format.WellFormed) :
    UInt8.ofNat (57 + format.eventTypes.length) ≠ UInt8.ofNat format.eventLength - 19 ↔
      format.checksum.isSome := by
  have hfront := length_front h
  have htypes := h.types_ge
  have hle := h.types_le
  have hlength : format.eventLength = 76 + format.eventTypes.length +
      if format.checksum.isSome then 5 else 0 := by
    rw [eventLength, payload, List.length_append, List.length_append, hfront, List.length_drop]
    cases format.checksum <;> simp <;> omega
  rw [ne_eq, ← UInt8.toNat_inj, UInt8.toNat_sub, UInt8.toNat_ofNat', UInt8.toNat_ofNat', hlength]
  change ¬_ = (2 ^ 8 - 19 + _) % 2 ^ 8 ↔ _
  cases format.checksum with
  | none => simp; omega
  | some checksum => simp; omega

theorem reads_parseChecksum {format : LoggedFormat} (h : format.WellFormed) {checksum : ChecksumType}
    (hchecksum : format.checksum = some checksum) {header : EventHeader}
    (hheader : header.eventLength = format.eventLength) :
    Reads (parseChecksum header (UInt8.ofNat (57 + format.eventTypes.length)))
      (format.eventTypes.drop 15 ++ toLeBytes 1 checksum.code.toNat) checksum := by
  have hpresent := (format.payloadLength_ne_iff h).mpr (by rw [hchecksum]; rfl)
  have hle := h.types_le
  have htypes := h.types_ge
  have hoffset : ((UInt8.ofNat (57 + format.eventTypes.length)).toNat : Int) - 57 - 15 =
      (format.eventTypes.drop 15).length := by
    rw [UInt8.toNat_ofNat', List.length_drop]
    omega
  have hcode : Reads (ChecksumType.fromCode checksum.code) [] checksum := by
    rw [fromCode_checksum]
    exact .pure _
  have hlast := (reads_byte checksum.code).bind hcode
  rw [List.append_nil] at hlast
  rw [parseChecksum, hheader, if_pos hpresent]
  exact (reads_seekCurrent _ hoffset).bind hlast

theorem parseChecksum_none {format : LoggedFormat} (h : format.WellFormed)
    (hchecksum : format.checksum = none) {header : EventHeader}
    (hheader : header.eventLength = format.eventLength) :
    parseChecksum header (UInt8.ofNat (57 + format.eventTypes.length)) = pure .none := by
  rw [parseChecksum, hheader, if_neg]
  rw [format.payloadLength_ne_iff h, hchecksum]
  exact Bool.false_ne_true

/-- The fields before the checksum, and what is read behind them. -/
theorem reads_formatFront {format : LoggedFormat} (h : format.WellFormed) {header : EventHeader}
    {tail : List UInt8} {checksum : ChecksumType}
    (htail : Reads (parseChecksum header (UInt8.ofNat (57 + format.eventTypes.length))) tail checksum) :
    Reads (parseFormatDescriptionEvent header) (format.front ++ tail)
      ⟨format.binlogVersion, format.serverVersion, checksum⟩ := by
  have hversion : Reads (readExact 50) (format.serverVersion.toUTF8.toList ++
      List.replicate (50 - format.serverVersion.toUTF8.toList.length) 0)
      (format.serverVersion.toUTF8.toList ++
        List.replicate (50 - format.serverVersion.toUTF8.toList.length) 0) := by
    refine reads_take ?_
    rw [List.length_append, List.length_replicate]
    exact Nat.add_sub_cancel' h.serverVersion_le
  have htext : parseServerVersion (format.serverVersion.toUTF8.toList ++
      List.replicate (50 - format.serverVersion.toUTF8.toList.length) 0) =
        pure format.serverVersion := by
    rw [parseServerVersion, takeWhile_serverVersion h.serverVersion_ne, decodeUtf8_toUTF8]
  have hcreated : (5 : Int) = format.created.length := by rw [h.created]; rfl
  have htypes : (14 : Int) = (format.eventTypes.take 14).length := by
    rw [List.length_take, Nat.min_eq_left (Nat.le_of_succ_le h.types_ge)]
    rfl
  have hlength : 57 + format.eventTypes.length < 256 := by
    have hle := h.types_le
    omega
  have hlast := htail.map fun checksumType =>
    FormatDescriptionEvent.mk format.binlogVersion format.serverVersion checksumType
  rw [LoggedFormat.front]
  simp only [List.append_assoc]
  rw [← List.append_assoc format.serverVersion.toUTF8.toList, parseFormatDescriptionEvent]
  refine (reads_readLe (show format.binlogVersion < 256 ^ 2 from h.version_lt)).bind (hversion.bind ?_)
  rw [htext, pure_bind]
  exact (reads_seekCurrent _ hcreated).bind ((reads_seekCurrent _ htypes).bind
    ((reads_readU8 hlength).bind hlast))

theorem ends_parseFormatDescriptionEvent {format : LoggedFormat} (h : format.WellFormed)
    {header : EventHeader} (hheader : header.eventLength = format.eventLength) (rest : List UInt8) :
    Ends (parseFormatDescriptionEvent header) (format.payload ++ rest) (.ok format.event) := by
  rw [LoggedFormat.payload, LoggedFormat.event]
  cases hchecksum : format.checksum with
  | none =>
    have htail : Reads (parseChecksum header (UInt8.ofNat (57 + format.eventTypes.length))) []
        ChecksumType.none := by
      rw [parseChecksum_none h hchecksum hheader]
      exact .pure _
    have hread := reads_formatFront h htail
    rw [List.append_nil] at hread
    rw [List.append_assoc]
    exact hread.ends _
  | some checksum =>
    have hcode : toLeBytes 1 checksum.code.toNat = [checksum.code] := by cases checksum <;> rfl
    have hread := reads_formatFront h (reads_parseChecksum h hchecksum hheader)
    rw [hcode] at hread
    exact hread.ends rest

/-! ## The other events -/

/-- The text at the end of an event. -/
theorem ends_readToString (bytes : List UInt8) :
    Ends readToString bytes (decoded .invalidData bytes) := by
  intro cursor hin hrest
  rw [readToString, Reader.bind_of_ok (readsLast_toEnd bytes cursor hin hrest), decodeUtf8, decoded]
  cases fromUtf8? bytes <;> rfl

theorem ends_parseQueryEvent {logged : LoggedQuery}
    (h : (LoggedEvent.query logged).WellFormed fun _ => none) :
    Ends parseQueryEvent logged.bytes ((decoded .invalidData logged.sqlStatement).map logged.event) := by
  obtain ⟨hthread, hduration, herror, hdatabase, hstatus⟩ := h
  have hlength : (UInt8.ofNat logged.databaseName.toUTF8.toList.length).toNat =
      logged.databaseName.toUTF8.toList.length := by
    rw [UInt8.toNat_ofNat']
    omega
  have hname := reads_readString logged.databaseName
  rw [← hlength] at hname
  rw [parseQueryEvent, LoggedQuery.bytes]
  refine (reads_readLe hthread).bind_ends ((reads_readLe hduration).bind_ends
    ((reads_readU8 hdatabase).bind_ends ((reads_readLe herror).bind_ends
      ((reads_readLe hstatus).bind_ends ((reads_takeOr _ logged.statusVariables).bind_ends
        (hname.bind_ends ((reads_seekCurrent [0] (show (1 : Int) = 1 from rfl)).bind_ends ?_)))))))
  exact (ends_readToString logged.sqlStatement).map logged.event

theorem map_map {α β γ : Type} (result : Except Error α) (f : α → β) (g : β → γ) :
    (result.map f).map g = result.map (g ∘ f) := by
  cases result <;> rfl

/-- A value that is no text ends the event, although the flags behind it could be read. -/
theorem ends_parseVariableValue {logged : LoggedVariable}
    (h : logged.collation < 2 ^ 32 ∧ logged.value.length < 2 ^ 32) :
    Ends parseVariableValue logged.bytes
      ((decoded .fromUtf8Error logged.value).map fun value => { logged with value }) := by
  have hbytes := reads_takeOr Error.unexpectedEof logged.value
  rw [parseVariableValue, LoggedVariable.bytes]
  refine (reads_byte logged.varType).bind_ends ((reads_readLe h.1).bind_ends
    ((reads_readLe h.2).bind_ends ?_))
  rw [readString, bind_assoc]
  refine hbytes.bind_ends ?_
  rw [decodeUtf8, decoded]
  cases fromUtf8? logged.value with
  | none =>
    have hrejects : Rejects ((Reader.reject .fromUtf8Error : PayloadReader String) >>= fun value =>
        readU8 >>= fun flags => pure (VariableValue.mk logged.varType logged.collation value flags)) []
        .fromUtf8Error := (Rejects.reject _).bind
    exact hrejects.ends _
  | some value =>
    rw [pure_bind]
    exact ((reads_byte logged.flags).map fun flags =>
      VariableValue.mk logged.varType logged.collation value flags).last.ends

theorem ends_parseVariable {value : Option LoggedVariable}
    (h : ∀ logged ∈ value, logged.collation < 2 ^ 32 ∧ logged.value.length < 2 ^ 32) :
    Ends parseVariable (value.elim (toLeBytes 1 1) fun logged => toLeBytes 1 0 ++ logged.bytes)
      (value.elim (.ok none) fun logged => (decoded .fromUtf8Error logged.value).map fun value =>
        some { logged with value }) := by
  cases value with
  | none =>
    have hread : Reads parseVariable (toLeBytes 1 1 ++ []) none := by
      rw [parseVariable]
      refine (reads_byte 1).bind ?_
      exact .pure _
    exact hread.last.ends
  | some logged =>
    have hvalue := (ends_parseVariableValue (h logged rfl)).map some
    rw [map_map] at hvalue
    rw [parseVariable]
    refine (reads_byte 0).bind_ends ?_
    rw [if_neg (by simp)]
    exact hvalue

theorem ends_parseUserVarEvent {name : String} {value : Option LoggedVariable} {serverId : Nat}
    (h : (LoggedEvent.userVar name value).WellFormed fun _ => none) :
    Ends parseUserVarEvent (LoggedEvent.userVar name value).payload
      ((LoggedEvent.userVar name value).outcome serverId) := by
  have hvalue := (ends_parseVariable h.2).map (BinlogEvent.userVarEvent name)
  rw [parseUserVarEvent]
  refine (reads_readLe h.1).bind_ends ((reads_readString name).bind_ends ?_)
  cases value with
  | none => exact hvalue
  | some logged =>
    rw [Option.elim_some, Option.elim_some, map_map] at hvalue
    exact hvalue

theorem reads_parseGtid {gtid : Gtid}
    (h : gtid.domainId < 2 ^ 32 ∧ gtid.serverId < 2 ^ 32 ∧ gtid.sequence < 2 ^ 64) :
    Reads parseGtid gtid.bytes gtid :=
  (reads_readLe h.1).bind ((reads_readLe h.2.1).bind ((reads_readLe h.2.2).map fun sequence =>
    Gtid.mk gtid.domainId gtid.serverId sequence))

theorem reads_parseGtidListEvent {gtids : List Gtid} (hlength : gtids.length < 2 ^ 32)
    (h : ∀ gtid ∈ gtids, gtid.domainId < 2 ^ 32 ∧ gtid.serverId < 2 ^ 32 ∧ gtid.sequence < 2 ^ 64) :
    Reads parseGtidListEvent (toLeBytes 4 gtids.length ++ gtids.flatMap Gtid.bytes)
      (.mariaDbGtidListEvent gtids) := by
  have hread := (reads_repeated fun gtid hgtid => reads_parseGtid (h gtid hgtid)).map
    BinlogEvent.mariaDbGtidListEvent
  rw [List.map_id'] at hread
  exact (reads_readLe hlength).bind hread

/-! ## All events -/

section Payloads

variable {parser : EventParser} {tables : Nat → Option TableMapEvent} {header : EventHeader}

/-- An event with rows is read unless one of them has a negative duration. -/
theorem ends_ifReadable {α : Type} {reader : PayloadReader α} {text : List UInt8} {readable : Prop}
    {event : α} (f : α → BinlogEvent) (hok : readable → ReadsLast reader text event)
    (herror : ¬readable → Ends reader text (.error (.string negativeTimeMessage))) :
    Ends (reader >>= fun event => pure (f event)) text (ifReadable readable (f event)) := by
  rw [ifReadable]
  by_cases h : readable
  · rw [if_pos h]
    exact ((hok h).map f).ends
  · rw [if_neg h]
    exact (herror h).map f

/-- What the client makes of the payload of an event. -/
theorem ends_payloadReader {event : LoggedEvent} (h : event.WellFormed tables)
    (htables : ∀ id, parser.tableMap.lookup id = tables id) (hcode : header.eventType = event.code)
    (hformat : ∀ format, event = .formatDescription format → header.eventLength = format.eventLength) :
    Ends (parser.payloadReader header) event.payload (event.outcome header.serverId) := by
  rw [EventParser.payloadReader, hcode]
  cases event with
  | formatDescription format =>
    have hread := ends_parseFormatDescriptionEvent h (hformat format rfl) []
    rw [List.append_nil] at hread
    exact hread.map BinlogEvent.formatDescriptionEvent
  | tableMap payload => exact ((parseTableMapEvent_ok h).map BinlogEvent.tableMapEvent).ends
  | writeRows version payload =>
    obtain ⟨hversion, table, htable, hpayload⟩ := h
    rw [← htables] at htable
    have hread := ends_ifReadable BinlogEvent.writeRowsEvent (parseRowsEvent_ok hpayload htable)
      (parseRowsEvent_error hpayload htable)
    simp only [List.mem_cons, List.not_mem_nil, or_false] at hversion
    rcases hversion with rfl | rfl <;> exact hread
  | updateRows version payload =>
    obtain ⟨hversion, table, htable, hpayload⟩ := h
    rw [← htables] at htable
    have hread := ends_ifReadable BinlogEvent.updateRowsEvent (parseUpdateRowsEvent_ok hpayload htable)
      (parseUpdateRowsEvent_error hpayload htable)
    simp only [List.mem_cons, List.not_mem_nil, or_false] at hversion
    rcases hversion with rfl | rfl <;> exact hread
  | deleteRows version payload =>
    obtain ⟨hversion, table, htable, hpayload⟩ := h
    rw [← htables] at htable
    have hread := ends_ifReadable BinlogEvent.deleteRowsEvent (parseRowsEvent_ok hpayload htable)
      (parseRowsEvent_error hpayload htable)
    simp only [List.mem_cons, List.not_mem_nil, or_false] at hversion
    rcases hversion with rfl | rfl <;> exact hread
  | query logged => exact ends_parseQueryEvent h
  | userVar name value => exact ends_parseUserVarEvent h
  | intVar intvarType value =>
    exact ((reads_byte intvarType).bind ((reads_readLe h).map
      (BinlogEvent.intVarEvent intvarType))).last.ends
  | xid number => exact ((reads_readLe h).map BinlogEvent.xidEvent).last.ends
  | rotate binlogFilename binlogPosition =>
    exact ((reads_readLe h).bind_last ((readsLast_readToString binlogFilename).map
      fun binlogFilename => BinlogEvent.rotateEvent binlogFilename binlogPosition)).ends
  | heartbeat binlogFilename =>
    exact ((readsLast_readToString binlogFilename).map BinlogEvent.heartbeatEvent).ends
  | rowsQuery length text =>
    exact ((reads_seekCurrent [length] (show (1 : Int) = 1 from rfl)).bind_last
      ((readsLast_readRemainingLossy text).map BinlogEvent.rowsQueryEvent)).ends
  | annotateRows text => exact ((readsLast_readRemainingLossy text).map BinlogEvent.rowsQueryEvent).ends
  | mariaDbGtid domainId sequence flags rest =>
    exact ((reads_readLe h.2).bind ((reads_readLe h.1).bind ((reads_byte flags).map
      (BinlogEvent.mariaDbGtidEvent ⟨domainId, header.serverId, sequence⟩)))).ends rest
  | mariaDbGtidList gtids => exact (reads_parseGtidListEvent h.1 h.2).last.ends
  | mySqlGtid flags sourceId transactionId rest =>
    exact ((reads_byte flags).bind ((reads_take h.1).bind ((reads_readLe h.2).map
      (BinlogEvent.mySqlGtidEvent flags sourceId)))).ends rest
  | other code payload =>
    have hread := (Reads.pure BinlogEvent.unknownEvent : Reads (pure _ : PayloadReader BinlogEvent) [] _)
    have hunknown : code ∉ _ := h
    simp only [List.mem_cons, List.not_mem_nil, or_false, not_or, ← UInt8.toNat_inj,
      UInt8.reduceToNat] at hunknown
    simp only [LoggedEvent.code]
    split
    case h_21 => exact hread.ends payload
    all_goals omega

end Payloads

end BinlogCdc.MysqlCdc
