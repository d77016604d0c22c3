import BinlogCdc.Core.ByteReader
import BinlogCdc.Core.Digits
import BinlogCdc.Core.LengthPrefix

/-!
# Readers of binary fields

A reader reads a string if, wherever it meets the string, it takes it off the bytes that are left and
returns the value, whatever follows. Strings are read one behind the other as readers are composed.
Numbers of a fixed width, bitmaps and repeated fields are here.
-/

namespace BinlogCdc.Core

variable {ε α β γ : Type}

instance : LawfulMonad (Reader ε) :=
  inferInstanceAs (LawfulMonad (StateT Cursor (Except (Halt ε))))

/-! ## Reading a string -/

/-- The reader takes the string off the bytes that are left, whatever follows it. -/
def Reads (reader : Reader ε α) (text : List UInt8) (value : α) : Prop :=
  ∀ cursor rest, cursor.InBounds → cursor.rest = text ++ rest →
    reader cursor = .ok (value, cursor.advance text.length)

/-- The reader rejects every string that starts with the string. -/
def Rejects (reader : Reader ε α) (text : List UInt8) (error : ε) : Prop :=
  ∀ cursor rest, cursor.InBounds → cursor.rest = text ++ rest →
    reader cursor = .error (.rejected error)

theorem Reads.not_rejects {reader : Reader ε α} {text : List UInt8} {value : α} {error : ε}
    (h : Reads reader text value) : ¬Rejects reader text error := by
  intro hrejects
  have hread := h ⟨text, 0⟩ [] (Nat.zero_le _) (List.append_nil text).symm
  rw [hrejects ⟨text, 0⟩ [] (Nat.zero_le _) (List.append_nil text).symm] at hread
  cases hread

namespace Reads

variable {reader : Reader ε α} {text : List UInt8} {value : α}

theorem pure (value : α) : Reads (Pure.pure value : Reader ε α) [] value := by
  intro cursor rest _ _
  rfl

theorem bind {next : α → Reader ε β} {back : List UInt8} {result : β} (h : Reads reader text value)
    (hnext : Reads (next value) back result) : Reads (reader >>= next) (text ++ back) result := by
  intro cursor rest hin hrest
  rw [List.append_assoc] at hrest
  have hmid : (cursor.advance text.length).InBounds :=
    hin.advance (hrest ▸ List.prefix_append text (back ++ rest))
  rw [Reader.bind_of_ok (h cursor _ hin hrest),
    hnext _ rest hmid (Cursor.rest_advance_of_eq hrest), Cursor.advance_advance, List.length_append]

/-- The value is passed on. -/
theorem map (h : Reads reader text value) (f : α → β) :
    Reads (reader >>= fun value => Pure.pure (f value)) text (f value) := by
  have hbind : Reads (reader >>= fun value => Pure.pure (f value)) (text ++ []) (f value) :=
    h.bind (pure (f value))
  rwa [List.append_nil] at hbind

theorem rejects {next : α → Reader ε β} {back : List UInt8} {error : ε} (h : Reads reader text value)
    (hnext : Rejects (next value) back error) : Rejects (reader >>= next) (text ++ back) error := by
  intro cursor rest hin hrest
  rw [List.append_assoc] at hrest
  have hmid : (cursor.advance text.length).InBounds :=
    hin.advance (hrest ▸ List.prefix_append text (back ++ rest))
  rw [Reader.bind_of_ok (h cursor _ hin hrest)]
  exact hnext _ rest hmid (Cursor.rest_advance_of_eq hrest)

end Reads

/-- The reader takes the string off the bytes that are left if nothing follows it. -/
def ReadsLast (reader : Reader ε α) (text : List UInt8) (value : α) : Prop :=
  ∀ cursor, cursor.InBounds → cursor.rest = text →
    reader cursor = .ok (value, cursor.advance text.length)

theorem Reads.last {reader : Reader ε α} {text : List UInt8} {value : α} (h : Reads reader text value) :
    ReadsLast reader text value := by
  intro cursor hin hrest
  exact h cursor [] hin (by rw [hrest, List.append_nil])

theorem Reads.bind_last {reader : Reader ε α} {next : α → Reader ε β} {text back : List UInt8}
    {value : α} {result : β} (h : Reads reader text value) (hnext : ReadsLast (next value) back result) :
    ReadsLast (reader >>= next) (text ++ back) result := by
  intro cursor hin hrest
  have hmid : (cursor.advance text.length).InBounds :=
    hin.advance (hrest ▸ List.prefix_append text back)
  rw [Reader.bind_of_ok (h cursor back hin hrest), hnext _ hmid (Cursor.rest_advance_of_eq hrest),
    Cursor.advance_advance, List.length_append]

namespace ReadsLast

variable {reader : Reader ε α} {text : List UInt8} {value : α}

/-- The value is passed on. -/
theorem map (h : ReadsLast reader text value) (f : α → β) :
    ReadsLast (reader >>= fun value => Pure.pure (f value)) text (f value) := by
  intro cursor hin hrest
  rw [Reader.bind_of_ok (h cursor hin hrest)]
  rfl

/-- The whole string is read from its start. -/
theorem run (h : ReadsLast reader text value) :
    reader ⟨text, 0⟩ = .ok (value, ⟨text, text.length⟩) := by
  rw [h ⟨text, 0⟩ (Nat.zero_le _) rfl]
  simp [Cursor.advance]

/-- A buffer of its own is read, and no byte of the string. -/
theorem within (h : ReadsLast reader text value) : Reads (Reader.within text reader) [] value := by
  intro cursor rest _ _
  rw [Reader.within, h.run]
  rfl

end ReadsLast

/-- A block of bytes is read with a cursor of its own. -/
theorem Reads.bind_within {reader : Reader ε (List UInt8)} {text block : List UInt8}
    (h : Reads reader text block) {inner : Reader ε α} {value : α} (hinner : ReadsLast inner block value) :
    Reads (reader >>= fun block => Reader.within block inner) text value := by
  have hbind : Reads (reader >>= fun block => Reader.within block inner) (text ++ []) value :=
    h.bind hinner.within
  rwa [List.append_nil] at hbind

/-- What the reader makes of the string if nothing follows it. It may leave bytes of the string. -/
def Ends (reader : Reader ε α) (text : List UInt8) (result : Except ε α) : Prop :=
  ∀ cursor, cursor.InBounds → cursor.rest = text →
    (reader cursor).map Prod.fst = result.mapError Halt.rejected

section Ends

variable {reader : Reader ε α} {text : List UInt8} {value : α}

theorem Reads.ends (h : Reads reader text value) (rest : List UInt8) :
    Ends reader (text ++ rest) (.ok value) := by
  intro cursor hin hrest
  rw [h cursor rest hin hrest]
  rfl

theorem ReadsLast.ends (h : ReadsLast reader text value) : Ends reader text (.ok value) := by
  intro cursor hin hrest
  rw [h cursor hin hrest]
  rfl

theorem Rejects.ends {error : ε} (h : Rejects reader text error) (rest : List UInt8) :
    Ends reader (text ++ rest) (.error error) := by
  intro cursor hin hrest
  rw [h cursor rest hin hrest]
  rfl

theorem Reads.bind_ends {next : α → Reader ε β} {back : List UInt8} {result : Except ε β}
    (h : Reads reader text value) (hnext : Ends (next value) back result) :
    Ends (reader >>= next) (text ++ back) result := by
  intro cursor hin hrest
  have hmid : (cursor.advance text.length).InBounds :=
    hin.advance (hrest ▸ List.prefix_append text back)
  rw [Reader.bind_of_ok (h cursor back hin hrest)]
  exact hnext _ hmid (Cursor.rest_advance_of_eq hrest)

theorem Ends.map {result : Except ε α} (h : Ends reader text result) (f : α → β) :
    Ends (reader >>= fun value => pure (f value)) text (result.map f) := by
  intro cursor hin hrest
  have hread := h cursor hin hrest
  rw [Reader.bind_apply]
  cases hcursor : reader cursor with
  | error reason =>
    rw [hcursor] at hread
    cases result with
    | error error =>
      obtain rfl := Except.error.inj hread
      rfl
    | ok value => cases hread
  | ok first =>
    rw [hcursor] at hread
    cases result with
    | error error => cases hread
    | ok value =>
      obtain rfl := Except.ok.inj hread
      rfl

/-- What the reader makes of the string from its start. -/
theorem Ends.run {result : Except ε α} (h : Ends reader text result) :
    (reader ⟨text, 0⟩).map Prod.fst = result.mapError Halt.rejected :=
  h ⟨text, 0⟩ (Nat.zero_le _) rfl

end Ends

theorem Rejects.reject (error : ε) : Rejects (Reader.reject error : Reader ε α) [] error := by
  intro cursor rest _ _
  rfl

/-- More bytes do not help. -/
theorem Rejects.append {reader : Reader ε α} {text : List UInt8} {error : ε}
    (h : Rejects reader text error) (more : List UInt8) : Rejects reader (text ++ more) error := by
  intro cursor rest hin hrest
  rw [List.append_assoc] at hrest
  exact h cursor _ hin hrest

theorem Rejects.bind {reader : Reader ε α} {next : α → Reader ε β} {text : List UInt8} {error : ε}
    (h : Rejects reader text error) : Rejects (reader >>= next) text error := by
  intro cursor rest hin hrest
  exact Reader.bind_of_error (h cursor rest hin hrest)

/-! ## Blocks -/

/-- Take bytes; the error says that there are too few. -/
def Reader.takeOr (error : ε) (length : Nat) : Reader ε (List UInt8) := fun cursor =>
  if length ≤ cursor.rest.length then .ok (cursor.rest.take length, cursor.advance length)
  else .error (.rejected error)

theorem reads_takeOr (error : ε) (text : List UInt8) :
    Reads (Reader.takeOr error text.length) text text := by
  intro cursor rest _ hrest
  have hle := congrArg List.length hrest
  rw [List.length_append] at hle
  rw [Reader.takeOr, if_pos (by omega), hrest, List.take_left]

/-- Take all that is left. -/
def Reader.toEnd : Reader ε (List UInt8) := fun cursor =>
  .ok (cursor.rest, cursor.advance cursor.rest.length)

theorem readsLast_toEnd (text : List UInt8) : ReadsLast (Reader.toEnd : Reader ε _) text text := by
  intro cursor _ hrest
  rw [Reader.toEnd, hrest]

/-! ## Numbers -/

/-- The number that a string spells with its highest byte first. -/
def fromBeBytes (bytes : List UInt8) : Nat := positionalValue 256 UInt8.toNat bytes

theorem fromBeBytes_bigEndian {width number : Nat} (h : number < 256 ^ width) :
    fromBeBytes (bigEndian width number) = number := by
  induction width generalizing number with
  | zero =>
    rw [Nat.pow_zero] at h
    obtain rfl : number = 0 := by omega
    rfl
  | succ width ih =>
    have hquotient : number / 256 < 256 ^ width :=
      Nat.div_lt_of_lt_mul (by rwa [← Nat.pow_succ'])
    have hlast : (UInt8.ofNat (number % 256)).toNat = number % 256 := by
      rw [UInt8.toNat_ofNat']
      omega
    have hsingle : positionalValue 256 UInt8.toNat [UInt8.ofNat (number % 256)] = number % 256 := by
      rw [positionalValue_cons, hlast]
      simp [positionalValue]
    have hfront : positionalValue 256 UInt8.toNat (bigEndian width (number / 256)) = number / 256 :=
      ih hquotient
    rw [bigEndian, fromBeBytes, positionalValue_append, hfront, hsingle, List.length_singleton]
    omega

/-- A number of some bytes, the lowest first. -/
def Reader.leNumber (error : ε) (width : Nat) : Reader ε Nat := do
  let bytes ← Reader.takeOr error width
  return fromLeBytes bytes

/-- A number of some bytes, the highest first. -/
def Reader.beNumber (error : ε) (width : Nat) : Reader ε Nat := do
  let bytes ← Reader.takeOr error width
  return fromBeBytes bytes

theorem reads_leNumber (error : ε) {width number : Nat} (h : number < 256 ^ width) :
    Reads (Reader.leNumber error width) (toLeBytes width number) number := by
  have hread := (reads_takeOr error (toLeBytes width number)).map fromLeBytes
  rwa [length_toLeBytes, fromLeBytes_toLeBytes h] at hread

theorem reads_beNumber (error : ε) {width number : Nat} (h : number < 256 ^ width) :
    Reads (Reader.beNumber error width) (bigEndian width number) number := by
  have hread := (reads_takeOr error (bigEndian width number)).map fromBeBytes
  rwa [length_bigEndian, fromBeBytes_bigEndian h] at hread

/-- The lowest bytes of a number stand behind the others. -/
theorem bigEndian_append (high low number : Nat) :
    bigEndian (high + low) number = bigEndian high (number / 256 ^ low) ++ bigEndian low number := by
  induction low generalizing number with
  | zero => simp [bigEndian]
  | succ low ih =>
    rw [← Nat.add_assoc, bigEndian, ih, bigEndian, List.append_assoc, Nat.div_div_eq_div_mul,
      ← Nat.pow_succ']

/-- A number with its bytes in the other order. -/
theorem reverse_bigEndian (width number : Nat) :
    (bigEndian width number).reverse = toLeBytes width number := by
  induction width generalizing number with
  | zero => rfl
  | succ width ih =>
    have hbyte : UInt8.ofNat (number % 256) = UInt8.ofNat number := by
      apply UInt8.toNat_inj.mp
      rw [UInt8.toNat_ofNat', UInt8.toNat_ofNat']
      omega
    rw [bigEndian, List.reverse_append, ih, toLeBytes, hbyte]
    rfl

theorem getElem?_toLeBytes {width number index : Nat} (h : index < width) :
    (toLeBytes width number)[index]? = some (UInt8.ofNat (number / 256 ^ index)) := by
  induction width generalizing number index with
  | zero => omega
  | succ width ih =>
    cases index with
    | zero =>
      rw [Nat.pow_zero, Nat.div_one]
      rfl
    | succ index =>
      rw [toLeBytes, List.getElem?_cons_succ, ih (by omega), Nat.div_div_eq_div_mul, ← Nat.pow_succ']

/-! ## Bitmaps -/

/-- The bits of a byte, the lowest first. -/
def byteBits (byte : UInt8) : List Bool := (List.range 8).map byte.toNat.testBit

@[simp] theorem length_byteBits (byte : UInt8) : (byteBits byte).length = 8 := rfl

theorem getElem?_byteBits (byte : UInt8) {index : Nat} (h : index < 8) :
    (byteBits byte)[index]? = some (byte.toNat.testBit index) := by
  rw [byteBits, List.getElem?_map, List.getElem?_range h]
  rfl

/-- The bit at a place of a string is a bit of the byte at an eighth of the place. -/
theorem getElem?_flatMap_byteBits (bytes : List UInt8) (index : Nat) :
    (bytes.flatMap byteBits)[index]? =
      bytes[index / 8]?.map fun byte => byte.toNat.testBit (index % 8) := by
  induction bytes generalizing index with
  | nil => rfl
  | cons byte bytes ih =>
    rw [List.flatMap_cons]
    by_cases hfirst : index < 8
    · rw [List.getElem?_append_left (by simpa using hfirst), getElem?_byteBits byte hfirst,
        Nat.div_eq_of_lt hfirst, Nat.mod_eq_of_lt hfirst]
      rfl
    · obtain ⟨later, rfl⟩ : ∃ later, index = later + 8 := ⟨index - 8, by omega⟩
      rw [List.getElem?_append_right (by simp), length_byteBits, Nat.add_sub_cancel, ih,
        Nat.add_mod_right, Nat.add_div_right _ (by decide), List.getElem?_cons_succ]

/-- The bytes of a number of bits. -/
def bitmapWidth (bits : Nat) : Nat := (bits + 7) / 8

/-- Bits of a string, the lowest bit of the first byte first. -/
def Reader.bitmap (error : ε) (bits : Nat) : Reader ε (List Bool) := do
  let bytes ← Reader.takeOr error (bitmapWidth bits)
  return (bytes.flatMap byteBits).take bits

/-- The string has a bit for each place; the bits behind the last place are free. -/
structure IsBitmap (text : List UInt8) (bits : List Bool) : Prop where
  length : text.length = bitmapWidth bits.length
  bit : ∀ index < bits.length,
    bits[index]? = text[index / 8]?.map fun byte => byte.toNat.testBit (index % 8)

/-- The bits of a bitmap are the first bits of its string. -/
theorem IsBitmap.take_eq {text : List UInt8} {bits : List Bool} (h : IsBitmap text bits) :
    (text.flatMap byteBits).take bits.length = bits := by
  apply List.ext_getElem?
  intro index
  by_cases hindex : index < bits.length
  · rw [List.getElem?_take_of_lt hindex, getElem?_flatMap_byteBits, h.bit index hindex]
  · rw [List.getElem?_eq_none (le_of_not_gt hindex), List.getElem?_take_eq_none (le_of_not_gt hindex)]

theorem reads_bitmap (error : ε) {text : List UInt8} {bits : List Bool} (h : IsBitmap text bits) :
    Reads (Reader.bitmap error bits.length) text bits := by
  have hread := (reads_takeOr error text).map fun bytes => (bytes.flatMap byteBits).take bits.length
  rwa [h.length, h.take_eq] at hread

/-- The bits of a number in a string of its bytes, the highest first. -/
theorem isBitmap_bigEndian (size number : Nat) :
    IsBitmap (bigEndian (bitmapWidth size) number).reverse ((List.range size).map number.testBit) where
  length := by rw [List.length_reverse, length_bigEndian, List.length_map, List.length_range]
  bit index h := by
    rw [List.length_map, List.length_range] at h
    have hbyte : index / 8 < bitmapWidth size := by
      unfold bitmapWidth
      omega
    have hshift : number / 256 ^ (index / 8) = number >>> (8 * (index / 8)) := by
      rw [Nat.shiftRight_eq_div_pow, Nat.pow_mul]
    have hbit : index % 8 < 8 := Nat.mod_lt index (by decide)
    rw [List.getElem?_map, List.getElem?_range h, reverse_bigEndian, getElem?_toLeBytes hbyte,
      Option.map_some, Option.map_some, UInt8.toNat_ofNat', hshift, Nat.testBit_mod_two_pow,
      decide_eq_true hbit, Bool.true_and, Nat.testBit_shiftRight, Nat.div_add_mod]

/-- Bits of a string, the highest bit of the first byte first. -/
def Reader.revertedBitmap (error : ε) (bits : Nat) : Reader ε (List Bool) := do
  let bytes ← Reader.takeOr error (bitmapWidth bits)
  return (bytes.flatMap fun byte => (byteBits byte).reverse).take bits

/-- The string has a bit for each place, and the first places have the high bits of the first byte. -/
structure IsRevertedBitmap (text : List UInt8) (bits : List Bool) : Prop where
  length : text.length = bitmapWidth bits.length
  bit : ∀ index < bits.length,
    bits[index]? = text[index / 8]?.map fun byte => byte.toNat.testBit (7 - index % 8)

theorem getElem?_flatMap_reverse_byteBits (bytes : List UInt8) (index : Nat) :
    (bytes.flatMap fun byte => (byteBits byte).reverse)[index]? =
      bytes[index / 8]?.map fun byte => byte.toNat.testBit (7 - index % 8) := by
  induction bytes generalizing index with
  | nil => rfl
  | cons byte bytes ih =>
    have hlength : (byteBits byte).reverse.length = 8 := rfl
    rw [List.flatMap_cons]
    by_cases hfirst : index < 8
    · rw [List.getElem?_append_left (by omega), List.getElem?_reverse (by simpa using hfirst),
        length_byteBits, getElem?_byteBits byte (by omega), Nat.div_eq_of_lt hfirst,
        Nat.mod_eq_of_lt hfirst]
      have hplace : 8 - 1 - index = 7 - index := by omega
      rw [hplace]
      rfl
    · obtain ⟨later, rfl⟩ : ∃ later, index = later + 8 := ⟨index - 8, by omega⟩
      rw [List.getElem?_append_right (by omega), hlength, Nat.add_sub_cancel, ih,
        Nat.add_mod_right, Nat.add_div_right _ (by decide), List.getElem?_cons_succ]

theorem reads_revertedBitmap (error : ε) {text : List UInt8} {bits : List Bool}
    (h : IsRevertedBitmap text bits) : Reads (Reader.revertedBitmap error bits.length) text bits := by
  have htake : (text.flatMap fun byte => (byteBits byte).reverse).take bits.length = bits := by
    apply List.ext_getElem?
    intro index
    by_cases hindex : index < bits.length
    · rw [List.getElem?_take_of_lt hindex, getElem?_flatMap_reverse_byteBits, h.bit index hindex]
    · rw [List.getElem?_eq_none (le_of_not_gt hindex), List.getElem?_take_eq_none (le_of_not_gt hindex)]
  have hread := (reads_takeOr error text).map fun bytes =>
    (bytes.flatMap fun byte => (byteBits byte).reverse).take bits.length
  rwa [h.length, htake] at hread

/-! ## Repeated fields -/

section Items

variable {ι : Type} {reader : Reader ε α} {bytes : ι → List UInt8} {value : ι → α} {items : List ι}

/-- Read one field for each key. -/
def Reader.forItems (reader : γ → Reader ε α) : List γ → Reader ε (List α)
  | [] => pure []
  | key :: keys => do
    let value ← reader key
    let values ← forItems reader keys
    return value :: values

theorem reads_forItems {reader : γ → Reader ε α} {key : ι → γ}
    (h : ∀ item ∈ items, Reads (reader (key item)) (bytes item) (value item)) :
    Reads (Reader.forItems reader (items.map key)) (items.flatMap bytes) (items.map value) := by
  induction items with
  | nil => exact .pure []
  | cons item items ih =>
    have hrest := ih fun other hother => h other (List.mem_cons_of_mem item hother)
    exact (h item List.mem_cons_self).bind (hrest.map (value item :: ·))

/-- Read some fields, one behind the other. -/
def Reader.repeated (reader : Reader ε α) : Nat → Reader ε (List α)
  | 0 => pure []
  | count + 1 => do
    let value ← reader
    let values ← repeated reader count
    return value :: values

theorem reads_repeated (h : ∀ item ∈ items, Reads reader (bytes item) (value item)) :
    Reads (Reader.repeated reader items.length) (items.flatMap bytes) (items.map value) := by
  induction items with
  | nil => exact .pure []
  | cons item items ih =>
    have hrest := ih fun other hother => h other (List.mem_cons_of_mem item hother)
    exact (h item List.mem_cons_self).bind (hrest.map (value item :: ·))

/-- Read fields until the string ends. Every field has a byte, so that the steps are enough. -/
def Reader.untilEnd (reader : Reader ε α) : Nat → Reader ε (List α)
  | 0 => Reader.halt .outOfFuel
  | fuel + 1 => do
    let cursor ← Reader.cursor
    if cursor.offset < cursor.bytes.length then
      let value ← reader
      let values ← untilEnd reader fuel
      return value :: values
    else return []

/-- Read fields until the string ends, with a step for each byte. -/
def Reader.whileLeft (reader : Reader ε α) : Reader ε (List α) := do
  let cursor ← Reader.cursor
  Reader.untilEnd reader (cursor.bytes.length - cursor.offset + 1)

/-- The reader reads the bytes of each item as its value, and no item is without a byte. -/
structure ReadItems (reader : Reader ε α) (bytes : ι → List UInt8) (value : ι → α) (items : List ι) :
    Prop where
  reads : ∀ item ∈ items, Reads reader (bytes item) (value item)
  ne_nil : ∀ item ∈ items, bytes item ≠ []

theorem ReadItems.tail {item : ι} (h : ReadItems reader bytes value (item :: items)) :
    ReadItems reader bytes value items :=
  ⟨fun other hother => h.reads other (List.mem_cons_of_mem item hother),
    fun other hother => h.ne_nil other (List.mem_cons_of_mem item hother)⟩

theorem untilEnd_end {fuel : Nat} {cursor : Cursor} (hrest : cursor.rest = []) :
    Reader.untilEnd reader (fuel + 1) cursor = .ok ([], cursor) := by
  have hlength := cursor.length_rest
  rw [hrest, List.length_nil] at hlength
  have hend : ¬cursor.offset < cursor.bytes.length := by omega
  rw [Reader.untilEnd, Reader.bind_of_ok (Reader.cursor_apply cursor), if_neg hend]
  rfl

/-- One step of the loop, where a byte is left. -/
theorem untilEnd_more {fuel : Nat} {cursor : Cursor} (hrest : cursor.rest ≠ []) :
    Reader.untilEnd reader (fuel + 1) cursor =
      (reader >>= fun value => Reader.untilEnd reader fuel >>= fun values =>
        (pure (value :: values) : Reader ε (List α))) cursor := by
  have hlength := cursor.length_rest
  have hpos := List.length_pos_of_ne_nil hrest
  have hmore : cursor.offset < cursor.bytes.length := by omega
  rw [Reader.untilEnd, Reader.bind_of_ok (Reader.cursor_apply cursor), if_pos hmore]

/-- The loop reads items, and goes on behind them. -/
theorem untilEnd_append (h : ReadItems reader bytes value items) {rest : List UInt8} {fuel : Nat}
    {cursor : Cursor} (hin : cursor.InBounds) (hrest : cursor.rest = items.flatMap bytes ++ rest)
    (hfuel : (items.flatMap bytes).length < fuel) :
    ∃ left > 0, (cursor.advance (items.flatMap bytes).length).InBounds ∧
      Reader.untilEnd reader fuel cursor =
        (Reader.untilEnd reader left >>= fun values =>
          (pure (items.map value ++ values) : Reader ε (List α)))
            (cursor.advance (items.flatMap bytes).length) := by
  induction items generalizing fuel cursor with
  | nil =>
    refine ⟨fuel, by omega, hin, ?_⟩
    simp only [List.map_nil, List.nil_append, bind_pure]
    rfl
  | cons item items ih =>
    rw [List.flatMap_cons, List.append_assoc] at hrest
    rw [List.flatMap_cons, List.length_append] at hfuel
    have hpos := List.length_pos_of_ne_nil (h.ne_nil item List.mem_cons_self)
    have hmid : (cursor.advance (bytes item).length).InBounds :=
      hin.advance (hrest ▸ List.prefix_append (bytes item) _)
    have hne : cursor.rest ≠ [] := by
      rw [hrest]
      exact List.append_ne_nil_of_left_ne_nil (h.ne_nil item List.mem_cons_self) _
    obtain ⟨fuel, rfl⟩ : ∃ steps, fuel = steps + 1 := ⟨fuel - 1, by omega⟩
    have hsteps : (items.flatMap bytes).length < fuel := by omega
    obtain ⟨left, hleft, hlast, hlater⟩ := ih h.tail hmid (Cursor.rest_advance_of_eq hrest) hsteps
    rw [Cursor.advance_advance, ← List.length_append, ← List.flatMap_cons] at hlast hlater
    refine ⟨left, hleft, hlast, ?_⟩
    rw [untilEnd_more hne, Reader.bind_of_ok (h.reads item List.mem_cons_self cursor _ hin hrest),
      Reader.bind_apply, hlater, Reader.bind_apply, Reader.bind_apply]
    cases Reader.untilEnd reader left (cursor.advance ((item :: items).flatMap bytes).length) <;> rfl

/-- All that is left are items, and they are read. -/
theorem readsLast_whileLeft (h : ReadItems reader bytes value items) :
    ReadsLast (Reader.whileLeft reader) (items.flatMap bytes) (items.map value) := by
  intro cursor hin hrest
  have hlength := cursor.length_rest
  rw [hrest] at hlength
  rw [← List.append_nil (items.flatMap bytes)] at hrest
  rw [Reader.whileLeft, Reader.bind_of_ok (Reader.cursor_apply cursor)]
  obtain ⟨left, hleft, -, heq⟩ := untilEnd_append h hin hrest (Nat.lt_succ_of_le hlength.le)
  obtain ⟨left, rfl⟩ : ∃ steps, left = steps + 1 := ⟨left - 1, by omega⟩
  rw [heq, Reader.bind_of_ok (untilEnd_end (Cursor.rest_advance_of_eq hrest)), List.append_nil]
  rfl

/-- The loop ends with the first item that is rejected. -/
theorem whileLeft_rejects (h : ReadItems reader bytes value items) {bad rest : List UInt8} {error : ε}
    (hbad : Rejects reader bad error) (hne : bad ≠ []) {cursor : Cursor} (hin : cursor.InBounds)
    (hrest : cursor.rest = items.flatMap bytes ++ (bad ++ rest)) :
    Reader.whileLeft reader cursor = .error (.rejected error) := by
  have hlength := cursor.length_rest
  rw [hrest, List.length_append] at hlength
  have hafter := Cursor.rest_advance_of_eq hrest
  have hmore : (cursor.advance (items.flatMap bytes).length).rest ≠ [] := by
    rw [hafter]
    exact List.append_ne_nil_of_left_ne_nil hne rest
  rw [Reader.whileLeft, Reader.bind_of_ok (Reader.cursor_apply cursor)]
  have hsteps : (items.flatMap bytes).length < cursor.bytes.length - cursor.offset + 1 := by omega
  obtain ⟨left, hleft, hmid, heq⟩ := untilEnd_append h hin hrest hsteps
  obtain ⟨left, rfl⟩ : ∃ steps, left = steps + 1 := ⟨left - 1, by omega⟩
  rw [heq, Reader.bind_apply, untilEnd_more hmore, Reader.bind_of_error (hbad _ rest hmid hafter)]
  rfl

/-! ## Items behind a head -/

variable {head : Reader ε γ} {text : List UInt8} {start : γ} {body : γ → Reader ε β} {f : List α → β}

/-- A head is read, and items until the string ends. -/
theorem readsLast_headed (hhead : Reads head text start) (hitems : ReadItems reader bytes value items)
    (hbody : body start = Reader.whileLeft reader >>= fun values => pure (f values)) :
    ReadsLast (head >>= body) (text ++ items.flatMap bytes) (f (items.map value)) := by
  refine hhead.bind_last ?_
  rw [hbody]
  exact (readsLast_whileLeft hitems).map f

/-- The first element without a property. -/
theorem exists_first_not {p : ι → Prop} (h : ¬∀ item ∈ items, p item) :
    ∃ front bad back, items = front ++ bad :: back ∧ (∀ item ∈ front, p item) ∧ ¬p bad := by
  induction items with
  | nil => exact absurd (by simp) h
  | cons first others ih =>
    by_cases hfirst : p first
    · have hothers : ¬∀ item ∈ others, p item := by
        intro hall
        exact h (List.forall_mem_cons.mpr ⟨hfirst, hall⟩)
      obtain ⟨front, bad, back, rfl, hfront, hbad⟩ := ih hothers
      exact ⟨first :: front, bad, back, rfl, List.forall_mem_cons.mpr ⟨hfirst, hfront⟩, hbad⟩
    · exact ⟨[], first, others, rfl, by simp, hfirst⟩

/-- One item that is rejected, and nothing is read. -/
theorem ends_headed {good : ι → Prop} {error : ε} (hhead : Reads head text start)
    (hreads : ∀ item ∈ items, good item → Reads reader (bytes item) (value item))
    (hrejects : ∀ item ∈ items, ¬good item → Rejects reader (bytes item) error)
    (hne : ∀ item ∈ items, bytes item ≠ [])
    (hbody : body start = Reader.whileLeft reader >>= fun values => pure (f values))
    (hbad : ¬∀ item ∈ items, good item) :
    Ends (head >>= body) (text ++ items.flatMap bytes) (.error error) := by
  obtain ⟨front, bad, back, rfl, hfront, hbad⟩ := exists_first_not hbad
  have hmem : ∀ item ∈ front, item ∈ front ++ bad :: back := fun item hitem =>
    List.mem_append_left _ hitem
  have hlast : bad ∈ front ++ bad :: back := List.mem_append_right _ List.mem_cons_self
  have hitems : ReadItems reader bytes value front :=
    ⟨fun item hitem => hreads item (hmem item hitem) (hfront item hitem),
      fun item hitem => hne item (hmem item hitem)⟩
  refine hhead.bind_ends fun cursor hin hrest => ?_
  rw [List.flatMap_append, List.flatMap_cons] at hrest
  rw [hbody, Reader.bind_of_error (whileLeft_rejects hitems (hrejects bad hlast hbad) (hne bad hlast) hin
    hrest)]
  rfl

end Items

end BinlogCdc.Core
