import BinlogCdc.Binlog.RowParser

/-!
# The event stream of the replication client

The parsers of all events, and the state that they keep: whether events carry a checksum, which the
last format description said, and the table maps by their id. The stream reads one packet after the
other. The thread that reads ahead adds the position of each event and stops at the first error.
-/

namespace BinlogCdc.MysqlCdc

open BinlogCdc.Core

/-! ## Events -/

inductive ChecksumType
  | none | crc32
  deriving DecidableEq, Repr

def ChecksumType.fromCode (code : UInt8) : PayloadReader ChecksumType :=
  match code.toNat with
  | 0 => pure .none
  | 1 => pure .crc32
  | _ => fail s!"The master checksum type is not supported: {code.toNat}"

structure EventHeader extends BinlogCdc.EventHeader where
  timestamp : Nat
  eventType : UInt8
  eventFlags : Nat
  deriving DecidableEq, Repr

structure FormatDescriptionEvent where
  binlogVersion : Nat
  serverVersion : String
  checksumType : ChecksumType
  deriving DecidableEq, Repr

structure VariableValue where
  varType : UInt8
  collation : Nat
  value : String
  flags : UInt8
  deriving DecidableEq, Repr

structure QueryEvent extends BinlogCdc.QueryEvent where
  threadId : Nat
  duration : Nat
  errorCode : Nat
  deriving DecidableEq, Repr

/-- A MariaDB transaction identifier. -/
structure Gtid where
  domainId : Nat
  serverId : Nat
  sequence : Nat
  deriving DecidableEq, Repr

/-- The transactions of a MySQL server, by its identifier. -/
structure UuidSet where
  sourceId : List UInt8
  /-- The first and the last transaction of each interval. -/
  intervals : List (Nat × Nat)
  deriving DecidableEq, Repr

inductive BinlogEvent
  | unknownEvent
  | deleteRowsEvent (event : RowsEvent)
  | updateRowsEvent (event : UpdateRowsEvent)
  | writeRowsEvent (event : RowsEvent)
  | xidEvent (xid : Nat)
  | intVarEvent (intvarType : UInt8) (value : Nat)
  | userVarEvent (name : String) (value : Option VariableValue)
  | queryEvent (event : QueryEvent)
  | tableMapEvent (event : TableMapEvent)
  | rotateEvent (binlogFilename : String) (binlogPosition : Nat)
  | rowsQueryEvent (query : String)
  | heartbeatEvent (binlogFilename : String)
  | formatDescriptionEvent (event : FormatDescriptionEvent)
  | mySqlGtidEvent (flags : UInt8) (sourceId : List UInt8) (transactionId : Nat)
  | mySqlPrevGtidsEvent (uuidSets : List UuidSet)
  | mariaDbGtidEvent (gtid : Gtid) (flags : UInt8)
  | mariaDbGtidListEvent (gtids : List Gtid)
  deriving DecidableEq, Repr

/-- The event as the stream handles it. -/
def BinlogEvent.toSource : BinlogEvent → BinlogCdc.BinlogEvent
  | unknownEvent => .unknown
  | deleteRowsEvent event => .deleteRows event.toRowsEvent
  | updateRowsEvent event => .updateRows event.toUpdateRowsEvent
  | writeRowsEvent event => .writeRows event.toRowsEvent
  | xidEvent xid => .xid xid
  | intVarEvent intvarType value => .intVar intvarType.toNat value
  | userVarEvent name _ => .userVar name
  | queryEvent event => .query event.toQueryEvent
  | tableMapEvent event => .tableMap event.toSourceTableMap
  | rotateEvent binlogFilename binlogPosition => .rotate binlogFilename binlogPosition
  | rowsQueryEvent _ => .rowsQuery
  | heartbeatEvent _ => .heartbeat
  | formatDescriptionEvent _ => .formatDescription
  | mySqlGtidEvent _ _ _ => .mySqlGtid
  | mySqlPrevGtidsEvent _ => .mySqlPrevGtids
  | mariaDbGtidEvent _ _ => .mariaDbGtid
  | mariaDbGtidListEvent _ => .mariaDbGtidList

/-! ## Parsers -/

def parseEventHeader : PayloadReader EventHeader := do
  let timestamp ← readLe 4
  let eventType ← readU8
  let serverId ← readLe 4
  let eventLength ← readLe 4
  let nextEventPosition ← readLe 4
  let eventFlags ← readLe 2
  return { timestamp, eventType, serverId, eventLength, nextEventPosition, eventFlags }

/-- The text before the first zero. -/
def parseServerVersion (bytes : List UInt8) : PayloadReader String :=
  decodeUtf8 .utf8Error (bytes.takeWhile (· ≠ 0))

/-- The checksum code stands behind the lengths of all event types. It is there if the event is longer
than its own data, of which the low bytes of the lengths are compared. -/
def parseChecksum (header : EventHeader) (payloadLength : UInt8) : PayloadReader ChecksumType :=
  if payloadLength ≠ UInt8.ofNat header.eventLength - 19 then do
    seekCurrent ((payloadLength.toNat : Int) - 57 - 15)
    let code ← readU8
    ChecksumType.fromCode code
  else pure .none

def parseFormatDescriptionEvent (header : EventHeader) : PayloadReader FormatDescriptionEvent := do
  let binlogVersion ← readLe 2
  let bytes ← readExact 50
  let serverVersion ← parseServerVersion bytes
  -- The timestamp, the length of headers, and the lengths of the event types before this one.
  seekCurrent 5
  seekCurrent 14
  let payloadLength ← readU8
  let checksumType ← parseChecksum header payloadLength
  return { binlogVersion, serverVersion, checksumType }

def parseRotateEvent : PayloadReader BinlogEvent := do
  let binlogPosition ← readLe 8
  let binlogFilename ← readToString
  return .rotateEvent binlogFilename binlogPosition

def parseIntVarEvent : PayloadReader BinlogEvent := do
  let intvarType ← readU8
  let value ← readLe 8
  return .intVarEvent intvarType value

def parseVariableValue : PayloadReader VariableValue := do
  let varType ← readU8
  let collation ← readLe 4
  let valueLen ← readLe 4
  let value ← readString valueLen
  let flags ← readU8
  return { varType, collation, value, flags }

/-- A variable may be null. -/
def parseVariable : PayloadReader (Option VariableValue) := do
  let isNull ← readU8
  if isNull ≠ 0 then return none
  else
    let value ← parseVariableValue
    return some value

def parseUserVarEvent : PayloadReader BinlogEvent := do
  let nameLen ← readLe 4
  let name ← readString nameLen
  let value ← parseVariable
  return .userVarEvent name value

def parseQueryEvent : PayloadReader BinlogEvent := do
  let threadId ← readLe 4
  let duration ← readLe 4
  let databaseNameLength ← readU8
  let errorCode ← readLe 2
  let statusVariableLength ← readLe 2
  let statusVariables ← readExact statusVariableLength
  let databaseName ← readString databaseNameLength.toNat
  seekCurrent 1
  let sqlStatement ← readToString
  return .queryEvent { threadId, duration, errorCode, statusVariables, databaseName, sqlStatement }

def parseMySqlGtidEvent : PayloadReader BinlogEvent := do
  let flags ← readU8
  let sourceId ← readExact 16
  let transactionId ← readLe 8
  return .mySqlGtidEvent flags sourceId transactionId

/-- An interval is logged with the transaction behind its last one. -/
def parseInterval : PayloadReader (Nat × Nat) := do
  let start ← readLe 8
  let stop ← readLe 8
  return (start, (stop + (2 ^ 64 - 1)) % 2 ^ 64)

def parseUuidSet : PayloadReader UuidSet := do
  let sourceId ← readExact 16
  let intervalNumber ← readLe 8
  let intervals ← Reader.repeated parseInterval intervalNumber
  return { sourceId, intervals }

/-- Of two sets of one server the later one counts. -/
def insertUuidSet (sets : List UuidSet) (set : UuidSet) : List UuidSet :=
  sets.filter (·.sourceId ≠ set.sourceId) ++ [set]

def parsePreviousGtidsEvent : PayloadReader BinlogEvent := do
  let uuidSetNumber ← readLe 8
  let uuidSets ← Reader.repeated parseUuidSet uuidSetNumber
  return .mySqlPrevGtidsEvent (uuidSets.foldl insertUuidSet [])

def parseMariaDbGtidEvent (header : EventHeader) : PayloadReader BinlogEvent := do
  let sequence ← readLe 8
  let domainId ← readLe 4
  let flags ← readU8
  return .mariaDbGtidEvent { domainId, serverId := header.serverId, sequence } flags

def parseGtid : PayloadReader Gtid := do
  let domainId ← readLe 4
  let serverId ← readLe 4
  let sequence ← readLe 8
  return { domainId, serverId, sequence }

def parseGtidListEvent : PayloadReader BinlogEvent := do
  let gtidListLen ← readLe 4
  let gtids ← Reader.repeated parseGtid gtidListLen
  return .mariaDbGtidListEvent gtids

/-! ## The state -/

structure EventParser where
  checksumType : ChecksumType
  tableMap : TableMaps

/-- The parser of the event, by the type in its header. -/
def EventParser.payloadReader (parser : EventParser) (header : EventHeader) : PayloadReader BinlogEvent :=
  match header.eventType.toNat with
  | 15 => return .formatDescriptionEvent (← parseFormatDescriptionEvent header)
  | 19 => return .tableMapEvent (← parseTableMapEvent)
  | 27 => return .heartbeatEvent (← readToString)
  | 4 => parseRotateEvent
  | 5 => parseIntVarEvent
  | 14 => parseUserVarEvent
  | 2 => parseQueryEvent
  | 16 => return .xidEvent (← readLe 8)
  | 23 => return .writeRowsEvent (← parseRowsEvent parser.tableMap 1)
  | 24 => return .updateRowsEvent (← parseUpdateRowsEvent parser.tableMap 1)
  | 25 => return .deleteRowsEvent (← parseRowsEvent parser.tableMap 1)
  | 30 => return .writeRowsEvent (← parseRowsEvent parser.tableMap 2)
  | 31 => return .updateRowsEvent (← parseUpdateRowsEvent parser.tableMap 2)
  | 32 => return .deleteRowsEvent (← parseRowsEvent parser.tableMap 2)
  | 29 => do
    seekCurrent 1
    return .rowsQueryEvent (← readRemainingLossy)
  | 33 => parseMySqlGtidEvent
  | 35 => parsePreviousGtidsEvent
  | 162 => parseMariaDbGtidEvent header
  | 163 => parseGtidListEvent
  | 160 => return .rowsQueryEvent (← readRemainingLossy)
  | _ => return .unknownEvent

/-- The bytes before the checksum, which is not verified. -/
def ChecksumType.content : ChecksumType → List UInt8 → Except (Halt Error) (List UInt8)
  | none, slice => .ok slice
  | crc32, slice =>
    if 4 ≤ slice.length then .ok (slice.take (slice.length - 4)) else .error .outOfBounds

/-- The state after an event. -/
def EventParser.record (parser : EventParser) : BinlogEvent → EventParser
  | .formatDescriptionEvent event => { parser with checksumType := event.checksumType }
  | .tableMapEvent event => { parser with tableMap := (event.tableId, event) :: parser.tableMap }
  | _ => parser

def EventParser.parseEvent (parser : EventParser) (header : EventHeader) (slice : List UInt8) :
    Except (Halt Error) BinlogEvent := do
  let content ← parser.checksumType.content slice
  let (event, _) ← parser.payloadReader header ⟨content, 0⟩
  return event

/-! ## The stream -/

/-- The text of an error of the server, whose message may start with a state of five characters. -/
def serverErrorText (errorCode : Nat) (errorMessage : String) : String :=
  let text := errorMessage.toList
  let suffix :=
    if text.head? = some '#' then
      " (SQLSTATE " ++ String.ofList ((text.drop 1).take 5) ++ "): " ++ String.ofList (text.drop 6)
    else ": " ++ errorMessage
  s!"Event stream error. MySQL error {errorCode}{suffix}"

/-- The error that a server sends in place of an event. -/
def readError : PayloadReader (EventHeader × BinlogEvent) := do
  let errorCode ← readLe 2
  let errorMessage ← readToString
  fail (serverErrorText errorCode errorMessage)

/-- A packet with an event, behind its status byte. -/
def EventParser.readEvent (parser : EventParser) (packet : List UInt8) :
    Except (Halt Error) (EventHeader × BinlogEvent) := do
  let (header, _) ← parseEventHeader ⟨packet, 0⟩
  let event ← parser.parseEvent header (packet.drop 19)
  return (header, event)

/-- The next item of the stream, or nothing at its end. A connection that failed has no packet. -/
def EventParser.next (parser : EventParser) (packet : Option (List UInt8)) :
    Option (Except (Halt Error) (EventHeader × BinlogEvent)) :=
  match packet with
  | none => some (.error (.rejected .ioError))
  | some [] => some (.error .outOfBounds)
  | some (status :: packet) =>
    if status = 0 then some (parser.readEvent packet)
    else if status = 0xFF then
      some ((readError ⟨packet, 0⟩).map Prod.fst)
    else if status = 0xFE then none
    else some (.error (.rejected (.string "Unknown network stream status")))

/-! ## Reading ahead -/

/-- Where the next event starts. -/
def nextSourcePosition (currentPosition : Nat) (header : EventHeader) (event : BinlogEvent) : Nat :=
  match event with
  | .rotateEvent _ binlogPosition => binlogPosition
  | _ =>
    if 0 < header.nextEventPosition then header.nextEventPosition
    else min (currentPosition + header.eventLength) (2 ^ 64 - 1)

/-- An event with the position where the reader stood before it. -/
structure ReadEvent where
  header : EventHeader
  event : BinlogEvent
  sourcePosition : Nat

def ReadEvent.toSourceStreamEvent (read : ReadEvent) : SourceStreamEvent where
  header := read.header.toEventHeader
  event := read.event.toSource
  sourcePosition := read.sourcePosition

/-- What the reading thread sends for the packets: it ends with the stream, and behind an error. -/
def readAhead : EventParser → Nat → List (Option (List UInt8)) → List (Except (Halt Error) ReadEvent)
  | _, _, [] => []
  | parser, sourcePosition, packet :: packets =>
    match parser.next packet with
    | none => []
    | some (.error error) => [.error error]
    | some (.ok (header, event)) =>
      .ok ⟨header, event, sourcePosition⟩ ::
        readAhead (parser.record event) (nextSourcePosition sourcePosition header event) packets

end BinlogCdc.MysqlCdc
