import Mathlib

/-!
# Reading bytes as UTF-8 with replacement

A byte string is read character by character. Where no character is encoded, the longest start of
one is replaced by U+FFFD. A byte string comes back from its reading exactly when it is the encoding
of a text.
-/

namespace BinlogCdc.Core

/-! ## Encoding -/

private theorem toList_loop (bs : ByteArray) (i : Nat) (r : List UInt8) :
    ByteArray.toList.loop bs i r = r.reverse ++ bs.data.toList.drop i := by
  fun_induction ByteArray.toList.loop bs i r with
  | case1 i r hlt ih =>
    have hlength : i < bs.data.toList.length := hlt
    rw [ih, List.drop_eq_getElem_cons hlength, List.reverse_cons, List.append_assoc]
    have hget : bs.get! i = bs.data.toList[i] := by
      rw [Array.getElem_toList]
      exact getElem!_pos bs.data i hlt
    rw [hget]
    rfl
  | case2 i r hle =>
    have hlength : bs.data.toList.length ≤ i := Nat.le_of_not_lt hle
    rw [List.drop_eq_nil_of_le hlength, List.append_nil]

theorem toList_toByteArray (bytes : List UInt8) : bytes.toByteArray.toList = bytes := by
  rw [ByteArray.toList, toList_loop, List.reverse_nil, List.nil_append, List.drop_zero,
    List.toList_data_toByteArray]

/-- The bytes of a text are those of its characters. -/
theorem toUTF8_ofList (text : List Char) :
    (String.ofList text).toUTF8.toList = text.flatMap String.utf8EncodeChar := by
  have hbytes : (String.ofList text).toUTF8 = (text.flatMap String.utf8EncodeChar).toByteArray :=
    String.toByteArray_ofList
  rw [hbytes, toList_toByteArray]

/-! ## Decoding -/

/-- The character that the bytes begin with. -/
def decodeChar? (bytes : List UInt8) : Option Char := bytes.toByteArray.utf8DecodeChar? 0

theorem decodeChar?_encode (c : Char) (rest : List UInt8) :
    decodeChar? (String.utf8EncodeChar c ++ rest) = some c := by
  rw [decodeChar?, List.toByteArray_append]
  exact ByteArray.utf8DecodeChar?_utf8EncodeChar_append

def isContinuation (byte : UInt8) : Bool := 0x80 ≤ byte && byte ≤ 0xBF

/-- The second byte of a character of three or four bytes. -/
def isSecondOf (first second : UInt8) : Bool :=
  if first = 0xE0 then 0xA0 ≤ second && second ≤ 0xBF
  else if first = 0xED then 0x80 ≤ second && second ≤ 0x9F
  else if first = 0xF0 then 0x90 ≤ second && second ≤ 0xBF
  else if first = 0xF4 then 0x80 ≤ second && second ≤ 0x8F
  else 0xE1 ≤ first && first ≤ 0xF3 && isContinuation second

/-- How many bytes are replaced where no character begins. -/
def invalidLength : List UInt8 → Nat
  | first :: second :: rest =>
    if isSecondOf first second then
      match rest with
      | third :: _ => if 0xF0 ≤ first && isContinuation third then 3 else 2
      | [] => 2
    else 1
  | _ => 1

/-- The characters that the bytes are read as; every step reads at least one byte. -/
def readLossy : Nat → List UInt8 → List Char
  | 0, _ => []
  | _ + 1, [] => []
  | fuel + 1, byte :: bytes =>
    match decodeChar? (byte :: bytes) with
    | some c => c :: readLossy fuel ((byte :: bytes).drop c.utf8Size)
    | none => Char.ofNat 0xFFFD :: readLossy fuel ((byte :: bytes).drop (invalidLength (byte :: bytes)))

/-- The text that the bytes are read as. -/
def fromUtf8Lossy (bytes : List UInt8) : String := String.ofList (readLossy bytes.length bytes)

theorem readLossy_encode (text : List Char) (fuel : Nat)
    (hfuel : (text.flatMap String.utf8EncodeChar).length ≤ fuel) :
    readLossy fuel (text.flatMap String.utf8EncodeChar) = text := by
  induction text generalizing fuel with
  | nil => cases fuel <;> rfl
  | cons c text ih =>
    rw [List.flatMap_cons] at hfuel ⊢
    have hdecode := decodeChar?_encode c (text.flatMap String.utf8EncodeChar)
    have hlength : (String.utf8EncodeChar c).length = c.utf8Size := String.length_utf8EncodeChar c
    have hdrop : (String.utf8EncodeChar c ++ text.flatMap String.utf8EncodeChar).drop c.utf8Size =
        text.flatMap String.utf8EncodeChar := by
      rw [← hlength, List.drop_left]
    have hsize : 0 < c.utf8Size := Char.utf8Size_pos c
    rw [List.length_append, hlength] at hfuel
    cases fuel with
    | zero => omega
    | succ fuel =>
      cases hbytes : String.utf8EncodeChar c ++ text.flatMap String.utf8EncodeChar with
      | nil => exact absurd (List.append_eq_nil_iff.mp hbytes).1 String.utf8EncodeChar_ne_nil
      | cons byte bytes =>
        rw [hbytes] at hdecode hdrop
        simp only [readLossy, hdecode, hdrop]
        rw [ih fuel (by omega)]

/-- The encoding of a text is read as the text. -/
theorem fromUtf8Lossy_toUTF8 (text : String) : fromUtf8Lossy text.toUTF8.toList = text := by
  have hbytes := toUTF8_ofList text.toList
  rw [String.ofList_toList] at hbytes
  rw [fromUtf8Lossy, hbytes, readLossy_encode _ _ (Nat.le_refl _), String.ofList_toList]

/-- Bytes come back from their reading exactly when they are the encoding of a text. -/
theorem toUTF8_fromUtf8Lossy (bytes : List UInt8) :
    (fromUtf8Lossy bytes).toUTF8.toList = bytes ↔ ∃ text : String, text.toUTF8.toList = bytes := by
  constructor
  · intro h
    exact ⟨_, h⟩
  · rintro ⟨text, rfl⟩
    rw [fromUtf8Lossy_toUTF8]

theorem toUTF8_injective {text other : String} (h : text.toUTF8.toList = other.toUTF8.toList) :
    text = other := by
  rw [← fromUtf8Lossy_toUTF8 text, h, fromUtf8Lossy_toUTF8]

example : fromUtf8Lossy [97, 0xE2, 0x82, 98] = "a\uFFFDb" := by decide +kernel

/-! ## Strict decoding -/

/-- The text that the bytes encode, if they encode one. -/
def fromUtf8? (bytes : List UInt8) : Option String := String.fromUTF8? bytes.toByteArray

theorem toByteArray_toList (bytes : ByteArray) : bytes.toList.toByteArray = bytes := by
  have hlist : bytes.data.toList.toByteArray = bytes := by
    apply ByteArray.ext
    apply Array.ext'
    simp
  have hbytes := toList_toByteArray bytes.data.toList
  rw [hlist] at hbytes
  rw [hbytes, hlist]

theorem fromUtf8?_toUTF8 (text : String) : fromUtf8? text.toUTF8.toList = some text := by
  have hvalid : text.toUTF8.IsValidUTF8 := text.isValidUTF8
  rw [fromUtf8?, toByteArray_toList, String.fromUTF8?, dif_pos hvalid]
  rfl

end BinlogCdc.Core
