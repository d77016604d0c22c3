import BinlogCdc.Core.ByteReader

/-!
# Status variables of a query event

A query event carries its session as a string of status variables, each a tag and a payload whose
length depends on the tag. The decoder keeps the four that decide how DDL text is read, and skips the
others by their layouts.
-/

namespace BinlogCdc.QueryCharset

open Core

structure QueryCharsetIds where
  client : UInt16
  connection : UInt16
  server : UInt16
  deriving DecidableEq

/-- Numeric ids only; names are resolved against the catalog of the source. -/
structure QueryCharsetContext where
  charset : Option QueryCharsetIds
  databaseCollation : Option UInt16
  /-- `none` if the variable was absent, which is not an empty mapping. -/
  characterSetCollations : Option (List (UInt16 × UInt16))
  sqlMode : Option UInt64
  deriving DecidableEq

/-- The context of an event without status variables. -/
def QueryCharsetContext.default : QueryCharsetContext where
  charset := none
  databaseCollation := none
  characterSetCollations := none
  sqlMode := none

inductive DecodeError
  | unknownTag (tag : UInt8) (offset : Nat)
  | truncated (offset needed : Nat)
  | duplicateTag (tag : UInt8) (offset : Nat)
  | duplicateCharset (id : UInt16)
  | invalidCatalogTerminator (offset : Nat)
  deriving DecidableEq

abbrev ContextReader : Type → Type := Reader DecodeError

/-! ## The cursor -/

def take (length : Nat) : ContextReader (List UInt8) := do
  let remaining ← Reader.remaining
  if length ≤ remaining.length then
    Reader.skip length
    pure (remaining.take length)
  else
    let cursor ← Reader.cursor
    Reader.reject (.truncated cursor.offset length)

def byte : ContextReader UInt8 := do
  match ← take 1 with
  | [value] => pure value
  | _ => Reader.halt .outOfBounds

def u16 : ContextReader UInt16 := do
  let bytes ← take 2
  pure (UInt16.ofNat (fromLeBytes bytes))

def skipString : ContextReader Unit := do
  let length ← byte
  let _ ← take length.toNat
  pure ()

/-- The pairs of an ordered map after an insertion, and whether the key was there. -/
def insertPair (pair : UInt16 × UInt16) :
    List (UInt16 × UInt16) → List (UInt16 × UInt16) × Bool
  | [] => ([pair], false)
  | first :: mapping =>
    if pair.1 < first.1 then (pair :: first :: mapping, false)
    else if pair.1 = first.1 then (pair :: mapping, true)
    else
      let rest := insertPair pair mapping
      (first :: rest.1, rest.2)

/-- The loop over the entries of a mapping. -/
def readEntries : Nat → List (UInt16 × UInt16) → ContextReader (List (UInt16 × UInt16))
  | 0, mapping => pure mapping
  | count + 1, mapping => do
    let source ← u16
    let target ← u16
    let inserted := insertPair (source, target) mapping
    if inserted.2 then Reader.reject (.duplicateCharset source) else readEntries count inserted.1

def readMapping : ContextReader (List (UInt16 × UInt16)) := do
  let count ← byte
  -- The whole payload is taken before an entry is read.
  let entries ← take (count.toNat * 4)
  Reader.within entries (readEntries count.toNat [])

/-! ## Decoding -/

def skipKnownVariable (tag : UInt8) (offset : Nat) : ContextReader Unit :=
  match tag.toNat with
  | 0 | 3 | 10 => do
    let _ ← take 4
    pure ()
  | 9 | 129 => do
    let _ ← take 8
    pure ()
  | 7 => do
    let _ ← take 2
    pure ()
  | 128 => do
    let _ ← take 3
    pure ()
  | 5 | 6 => skipString
  | 2 => do
    skipString
    let cursor ← Reader.cursor
    let terminator ← byte
    if terminator ≠ 0 then Reader.reject (.invalidCatalogTerminator cursor.offset) else pure ()
  | 11 => do
    skipString
    skipString
  | 130 => do
    let flags ← byte
    if flags &&& (4 ||| 8) ≠ 0 then
      let _ ← take 8
      pure ()
    else pure ()
  | _ => Reader.reject (.unknownTag tag offset)

/-- The arms of the loop that go on to the next variable. -/
def decodeVariable (tag : UInt8) (offset : Nat) (context : QueryCharsetContext) :
    ContextReader QueryCharsetContext :=
  match tag.toNat with
  | 1 => do
    let bytes ← take 8
    pure { context with sqlMode := some (UInt64.ofNat (fromLeBytes bytes)) }
  | 4 => do
    let client ← u16
    let connection ← u16
    let server ← u16
    pure { context with charset := some { client, connection, server } }
  | 8 => do
    let collation ← u16
    pure { context with databaseCollation := some collation }
  | 131 => do
    let mapping ← readMapping
    pure { context with characterSetCollations := some mapping }
  | _ => do
    skipKnownVariable tag offset
    pure context

/-- The loop over the variables. -/
def decodeVariables : Nat → (UInt8 → Bool) → QueryCharsetContext → ContextReader QueryCharsetContext
  | 0, _, _ => Reader.halt .outOfFuel
  | fuel + 1, seen, context => do
    let cursor ← Reader.cursor
    if cursor.offset < cursor.bytes.length then
      let tag ← byte
      if seen tag then Reader.reject (.duplicateTag tag cursor.offset)
      else
        let seen := Function.update seen tag true
        if tag = 255 then pure context
        else
          let context ← decodeVariable tag cursor.offset context
          decodeVariables fuel seen context
    else pure context

/-- One round of the loop for each byte and one to leave it. -/
def decodeQueryCharsetContext (bytes : List UInt8) : Except (Halt DecodeError) QueryCharsetContext :=
  (decodeVariables (bytes.length + 1) (fun _ => false) .default { bytes, offset := 0 }).map
    fun result => result.1

example : decodeQueryCharsetContext [131, 2, 45, 0, 0x2b, 0x09, 8, 0, 8, 0, 255, 7] = .ok
    { QueryCharsetContext.default with characterSetCollations := some [(8, 8), (45, 2347)] } := by
  decide +kernel

end BinlogCdc.QueryCharset
