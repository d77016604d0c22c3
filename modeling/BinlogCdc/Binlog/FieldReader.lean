import BinlogCdc.Binlog.CellLayout

/-!
# Fields of events

The readers that the event parsers share: numbers with their width before them, texts with and without
a length, bitmaps, and moves of the cursor. Each stands beside the bytes that a server writes for it. A
text with a length is rejected unless it is UTF-8; so is the text at the end of an event.
-/

namespace BinlogCdc.MysqlCdc

open BinlogCdc.Core

/-! ## Readers -/

/-- Move the cursor, which must not leave the string at its start. -/
def seekCurrent (offset : Int) : PayloadReader Unit := fun cursor =>
  if (cursor.offset : Int) + offset < 0 then .error (.rejected .invalidSeek)
  else .ok ((), { cursor with offset := (cursor.offset + offset).toNat })

/-- The rest of a number, by its first byte. -/
def lenEncRest (firstByte : UInt8) : PayloadReader Nat :=
  if firstByte < 0xFB then return firstByte.toNat
  else if firstByte = 0xFB then fail "Length encoded integer cannot be NULL."
  else if firstByte = 0xFC then readLe 2
  else if firstByte = 0xFD then readLe 3
  else if firstByte = 0xFE then readLe 8
  else fail s!"Unexpected length-encoded integer: {firstByte.toNat}"

/-- A number with its width before it. -/
def readLenEncNum : PayloadReader Nat := do
  let firstByte ← readU8
  lenEncRest firstByte

/-- The text of the bytes; bytes that are no text are an error. -/
def decodeUtf8 (error : Error) (bytes : List UInt8) : PayloadReader String :=
  match fromUtf8? bytes with
  | some text => pure text
  | none => Reader.reject error

def readString (size : Nat) : PayloadReader String := do
  let bytes ← readExact size
  decodeUtf8 .fromUtf8Error bytes

def readLenEncStr : PayloadReader String := do
  let length ← readLenEncNum
  readString length

def readBitmapLittleEndian (bitsNumber : Nat) : PayloadReader (List Bool) :=
  Reader.bitmap .unexpectedEof bitsNumber

/-- Bits with the highest bit of each byte first. -/
def readBitmapReverted (bitsNumber : Nat) : PayloadReader (List Bool) :=
  Reader.revertedBitmap .unexpectedEof bitsNumber

/-- The text that is left. -/
def readToString : PayloadReader String := do
  let bytes ← Reader.toEnd
  decodeUtf8 .invalidData bytes

/-- The text that is left, with a replacement for what is no text. -/
def readRemainingLossy : PayloadReader String := do
  let bytes ← Reader.toEnd
  return fromUtf8Lossy bytes

/-! ## Numbers -/

/-- A number with its width before it. -/
def lenEncBytes (number : Nat) : List UInt8 :=
  if number < 251 then toLeBytes 1 number
  else if number < 2 ^ 16 then 0xFC :: toLeBytes 2 number
  else if number < 2 ^ 24 then 0xFD :: toLeBytes 3 number
  else 0xFE :: toLeBytes 8 number

theorem reads_readLenEncNum {number : Nat} (h : number < 2 ^ 64) :
    Reads readLenEncNum (lenEncBytes number) number := by
  rw [readLenEncNum, lenEncBytes]
  by_cases hone : number < 251
  · have hbyte : (UInt8.ofNat number).toNat = number := by
      rw [UInt8.toNat_ofNat']
      omega
    have hsmall : UInt8.ofNat number < 0xFB := by
      rw [UInt8.lt_iff_toNat_lt, hbyte]
      exact hone
    have hrest : Reads (lenEncRest (UInt8.ofNat number)) [] number := by
      rw [lenEncRest, if_pos hsmall, hbyte]
      exact .pure _
    rw [if_pos hone, ← List.append_nil (toLeBytes 1 number)]
    exact (reads_readU8 (by omega)).bind hrest
  · rw [if_neg hone]
    by_cases htwo : number < 2 ^ 16
    · rw [if_pos htwo]
      exact (reads_readU8 (by decide : 0xFC < 256)).bind (reads_readLe (by omega))
    · rw [if_neg htwo]
      by_cases hthree : number < 2 ^ 24
      · rw [if_pos hthree]
        exact (reads_readU8 (by decide : 0xFD < 256)).bind (reads_readLe (by omega))
      · rw [if_neg hthree]
        exact (reads_readU8 (by decide : 0xFE < 256)).bind (reads_readLe (by omega))

theorem lenEncBytes_ne_nil (number : Nat) : lenEncBytes number ≠ [] := by
  unfold lenEncBytes
  split
  · simp [toLeBytes]
  · split
    · simp
    · split <;> simp

/-- The skipped bytes may be any. -/
theorem reads_seekCurrent (data : List UInt8) {offset : Int} (h : offset = data.length) :
    Reads (seekCurrent offset) data () := by
  intro cursor rest _ _
  have hposition : (cursor.offset : Int) + offset = ((cursor.offset + data.length : Nat) : Int) := by
    omega
  rw [seekCurrent, hposition, if_neg (by omega)]
  rfl

/-! ## Texts -/

/-- A text with its length before it. -/
def lenEncString (text : String) : List UInt8 :=
  lenEncBytes text.toUTF8.toList.length ++ text.toUTF8.toList

/-- The length of a text fits into a number. -/
def ShortText (text : String) : Prop := text.toUTF8.toList.length < 2 ^ 64

theorem decodeUtf8_toUTF8 (error : Error) (text : String) :
    decodeUtf8 error text.toUTF8.toList = pure text := by
  rw [decodeUtf8, fromUtf8?_toUTF8]

theorem reads_readString (text : String) :
    Reads (readString text.toUTF8.toList.length) text.toUTF8.toList text := by
  have hread := (reads_takeOr Error.unexpectedEof text.toUTF8.toList).bind
    (decodeUtf8_toUTF8 .fromUtf8Error text ▸ Reads.pure text)
  rwa [List.append_nil] at hread

theorem reads_readLenEncStr {text : String} (h : ShortText text) :
    Reads readLenEncStr (lenEncString text) text :=
  (reads_readLenEncNum h).bind (reads_readString text)

theorem lenEncString_ne_nil (text : String) : lenEncString text ≠ [] :=
  List.append_ne_nil_of_left_ne_nil (lenEncBytes_ne_nil _) _

theorem readsLast_readToString (text : String) : ReadsLast readToString text.toUTF8.toList text := by
  intro cursor hin hrest
  rw [readToString, Reader.bind_of_ok (readsLast_toEnd _ cursor hin hrest), decodeUtf8_toUTF8]
  rfl

theorem readsLast_readRemainingLossy (bytes : List UInt8) :
    ReadsLast readRemainingLossy bytes (fromUtf8Lossy bytes) :=
  (readsLast_toEnd bytes).map fromUtf8Lossy

end BinlogCdc.MysqlCdc
