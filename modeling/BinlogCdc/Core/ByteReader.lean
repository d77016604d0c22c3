import BinlogCdc.Core.Result

/-!
# Readers of byte strings

A reader moves a cursor over a byte string and returns a value, or it rejects the string. A format
says which strings stand for which values. A reader implements a format if, wherever the cursor
stands, it takes a string of the format off the bytes that are left and returns its value, takes
nothing else, and never looks past the last byte. Formats compose as readers do.
-/

namespace BinlogCdc.Core

/-- Why a reader stops without a value. Only a rejection is a result of the code: the others stand
for an index past the end of a slice and for a loop that has not come to its end. -/
inductive Halt (ε : Type)
  | rejected (error : ε)
  | outOfBounds
  | outOfFuel
  deriving DecidableEq

/-- A position in a byte string. -/
structure Cursor where
  /-- The string. -/
  bytes : List UInt8
  /-- The number of bytes before the position. -/
  offset : Nat
  deriving DecidableEq

namespace Cursor

/-- The position is in the string or at its end. -/
def InBounds (cursor : Cursor) : Prop := cursor.offset ≤ cursor.bytes.length

/-- The bytes that are left. -/
def rest (cursor : Cursor) : List UInt8 := cursor.bytes.drop cursor.offset

/-- The position some bytes further on. -/
def advance (cursor : Cursor) (length : Nat) : Cursor :=
  { cursor with offset := cursor.offset + length }

@[simp] theorem advance_zero (cursor : Cursor) : cursor.advance 0 = cursor := rfl

@[simp] theorem advance_advance (cursor : Cursor) (m n : Nat) :
    (cursor.advance m).advance n = cursor.advance (m + n) := by
  simp only [advance, Nat.add_assoc]

theorem length_rest (cursor : Cursor) :
    cursor.rest.length = cursor.bytes.length - cursor.offset :=
  List.length_drop

theorem rest_advance (cursor : Cursor) (n : Nat) : (cursor.advance n).rest = cursor.rest.drop n := by
  simp only [rest, advance, List.drop_drop]

theorem rest_advance_of_eq {cursor : Cursor} {text rest : List UInt8}
    (h : cursor.rest = text ++ rest) : (cursor.advance text.length).rest = rest := by
  rw [rest_advance, h, List.drop_left]

theorem InBounds.advance {cursor : Cursor} (h : cursor.InBounds) {text : List UInt8}
    (hbegins : text <+: cursor.rest) : (cursor.advance text.length).InBounds := by
  have hlength := hbegins.length_le
  rw [length_rest] at hlength
  unfold InBounds at h ⊢
  change cursor.offset + text.length ≤ cursor.bytes.length
  omega

/-- The next byte is passed. -/
theorem InBounds.advance_cons {cursor : Cursor} (h : cursor.InBounds) {byte : UInt8}
    {bytes : List UInt8} (hrest : cursor.rest = byte :: bytes) :
    (cursor.advance 1).InBounds ∧ (cursor.advance 1).rest = bytes := by
  have hsplit : cursor.rest = [byte] ++ bytes := hrest
  exact ⟨h.advance ⟨bytes, hsplit.symm⟩, rest_advance_of_eq hsplit⟩

end Cursor

/-- A computation that moves a cursor. -/
def Reader (ε α : Type) : Type := StateT Cursor (Except (Halt ε)) α

namespace Reader

variable {ε α β : Type}

instance : Monad (Reader ε) := inferInstanceAs (Monad (StateT Cursor (Except (Halt ε))))

/-- Stop. -/
def halt (reason : Halt ε) : Reader ε α := fun _ => .error reason

/-- Reject the string. -/
def reject (error : ε) : Reader ε α := halt (.rejected error)

/-- Where the cursor stands. -/
def cursor : Reader ε Cursor := fun cursor => .ok (cursor, cursor)

/-- The slice from the cursor on, which is out of bounds if the cursor is. -/
def remaining : Reader ε (List UInt8) := fun cursor =>
  if cursor.offset ≤ cursor.bytes.length then .ok (cursor.rest, cursor) else .error .outOfBounds

/-- Move the cursor. -/
def skip (length : Nat) : Reader ε Unit := fun cursor => .ok ((), cursor.advance length)

/-- Read another string with a cursor of its own. -/
def within (bytes : List UInt8) (reader : Reader ε α) : Reader ε α := fun cursor =>
  (reader { bytes, offset := 0 }).map fun result => (result.1, cursor)

theorem bind_apply (reader : Reader ε α) (next : α → Reader ε β) (cursor : Cursor) :
    (reader >>= next) cursor = reader cursor >>= fun result => next result.1 result.2 := rfl

@[simp] theorem pure_apply (value : α) (cursor : Cursor) :
    (pure value : Reader ε α) cursor = .ok (value, cursor) := rfl

@[simp] theorem halt_apply (reason : Halt ε) (cursor : Cursor) :
    (halt reason : Reader ε α) cursor = .error reason := rfl

@[simp] theorem reject_apply (error : ε) (cursor : Cursor) :
    (reject error : Reader ε α) cursor = .error (.rejected error) := rfl

@[simp] theorem cursor_apply (cursor : Cursor) :
    (Reader.cursor : Reader ε Cursor) cursor = .ok (cursor, cursor) := rfl

@[simp] theorem skip_apply (length : Nat) (cursor : Cursor) :
    (skip length : Reader ε Unit) cursor = .ok ((), cursor.advance length) := rfl

theorem bind_of_ok {reader : Reader ε α} {next : α → Reader ε β} {cursor after : Cursor} {value : α}
    (h : reader cursor = .ok (value, after)) : (reader >>= next) cursor = next value after := by
  rw [bind_apply, h]
  rfl

theorem bind_of_error {reader : Reader ε α} {next : α → Reader ε β} {cursor : Cursor}
    {reason : Halt ε} (h : reader cursor = .error reason) :
    (reader >>= next) cursor = .error reason := by
  rw [bind_apply, h]
  rfl

end Reader

/-! ## Formats -/

/-- Which strings stand for which values. -/
def Format (α : Type) : Type := List UInt8 → α → Prop

namespace Format

variable {α β : Type}

/-- A string of one format and then a string of a format that depends on its value. -/
def seq (first : Format α) (next : α → Format β) : Format β := fun text value =>
  ∃ front back mid, text = front ++ back ∧ first front mid ∧ next mid back value

/-- The empty string stands for a value. -/
def nothing (value : α) : Format α := fun text other => text = [] ∧ other = value

/-- No string is of the format. -/
def never : Format α := fun _ _ => False

/-- The strings of a length, each for itself. -/
def block (length : Nat) : Format (List UInt8) := fun text value =>
  text.length = length ∧ value = text

end Format

variable {ε α β : Type}

/-- The reader takes exactly the strings of the format off the bytes that are left. -/
structure Implements (reader : Reader ε α) (format : Format α) : Prop where
  /-- It reads every string of the format, whatever follows it. -/
  complete : ∀ cursor text rest value, cursor.InBounds → format text value →
    cursor.rest = text ++ rest → reader cursor = .ok (value, cursor.advance text.length)
  /-- It reads nothing else. -/
  sound : ∀ cursor value next, cursor.InBounds → reader cursor = .ok (value, next) →
    ∃ text, format text value ∧ text <+: cursor.rest ∧ next = cursor.advance text.length
  /-- It stops by a rejection only. -/
  rejects : ∀ cursor reason, cursor.InBounds → reader cursor = .error reason →
    ∃ error, reason = .rejected error

namespace Implements

variable {reader : Reader ε α} {format : Format α}

theorem congr {other : Format α} (h : Implements reader format)
    (hiff : ∀ text value, format text value ↔ other text value) : Implements reader other where
  complete cursor text rest value hin hother :=
    h.complete cursor text rest value hin ((hiff text value).mpr hother)
  sound cursor value next hin hread := by
    obtain ⟨text, htext, hbegins, hnext⟩ := h.sound cursor value next hin hread
    exact ⟨text, (hiff text value).mp htext, hbegins, hnext⟩
  rejects := h.rejects

theorem pure (value : α) : Implements (Pure.pure value : Reader ε α) (Format.nothing value) where
  complete := by
    rintro cursor _ rest _ - ⟨rfl, rfl⟩ -
    rfl
  sound := by
    intro cursor other next _ hread
    obtain ⟨rfl, rfl⟩ : value = other ∧ cursor = next := by
      simpa using hread
    exact ⟨[], ⟨rfl, rfl⟩, List.nil_prefix, rfl⟩
  rejects := by
    intro cursor reason _ hread
    simp at hread

theorem reject (error : ε) : Implements (Reader.reject error : Reader ε α) Format.never where
  complete := by
    rintro _ _ _ _ - ⟨⟩
  sound := by
    intro cursor value next _ hread
    simp at hread
  rejects := by
    intro cursor reason _ hread
    exact ⟨error, by simpa using hread.symm⟩

theorem bind {next : α → Reader ε β} {g : α → Format β} (h : Implements reader format)
    (hnext : ∀ front value, format front value → Implements (next value) (g value)) :
    Implements (reader >>= next) (format.seq g) where
  complete := by
    rintro cursor _ rest value hin ⟨front, back, mid, rfl, hfront, hback⟩ hrest
    rw [List.append_assoc] at hrest
    have hfirst := h.complete cursor front (back ++ rest) mid hin hfront hrest
    have hmid : (cursor.advance front.length).InBounds :=
      hin.advance (hrest ▸ List.prefix_append front (back ++ rest))
    have hleft := Cursor.rest_advance_of_eq hrest
    rw [Reader.bind_of_ok hfirst, (hnext front mid hfront).complete _ back rest value hmid hback hleft,
      Cursor.advance_advance, List.length_append]
  sound := by
    intro cursor value after hin hread
    rw [Reader.bind_apply] at hread
    obtain ⟨⟨mid, at'⟩, hfirst, hsecond⟩ := bind_eq_ok.mp hread
    obtain ⟨front, hfront, hbegins, rfl⟩ := h.sound cursor mid at' hin hfirst
    have hmid := hin.advance hbegins
    obtain ⟨back, hback, hbegins', rfl⟩ := (hnext front mid hfront).sound _ value after hmid hsecond
    obtain ⟨rest, hrest⟩ := hbegins
    rw [Cursor.rest_advance_of_eq hrest.symm] at hbegins'
    refine ⟨front ++ back, ⟨front, back, mid, rfl, hfront, hback⟩, ?_, ?_⟩
    · rw [← hrest]
      exact (List.prefix_append_right_inj front).mpr hbegins'
    · rw [Cursor.advance_advance, List.length_append]
  rejects := by
    intro cursor reason hin hread
    cases hfirst : reader cursor with
    | error stopped =>
      rw [Reader.bind_of_error hfirst] at hread
      obtain rfl := Except.error.inj hread
      exact h.rejects cursor _ hin hfirst
    | ok result =>
      obtain ⟨mid, at'⟩ := result
      rw [Reader.bind_of_ok hfirst] at hread
      obtain ⟨front, hfront, hbegins, rfl⟩ := h.sound cursor mid at' hin hfirst
      exact (hnext front mid hfront).rejects _ reason (hin.advance hbegins) hread

/-- A reader that takes the same strings wherever it stands. -/
theorem of_cursor {next : Cursor → Reader ε α} (h : ∀ cursor, Implements (next cursor) format) :
    Implements (Reader.cursor >>= next) format where
  complete cursor := (h cursor).complete cursor
  sound cursor := (h cursor).sound cursor
  rejects cursor := (h cursor).rejects cursor

/-- A reader that ends in a function of its value. -/
theorem bind_pure {f : α → β} (h : Implements reader format) :
    Implements (reader >>= fun value => Pure.pure (f value))
      (fun text result => ∃ value, format text value ∧ result = f value) := by
  refine (h.bind fun _ value _ => pure (f value)).congr fun text result => ?_
  constructor
  · rintro ⟨front, _, value, rfl, hfront, rfl, rfl⟩
    exact ⟨value, by rwa [List.append_nil], rfl⟩
  · rintro ⟨value, htext, rfl⟩
    exact ⟨text, [], value, by rw [List.append_nil], htext, rfl, rfl⟩

/-- A string of a format is determined by any string that starts with it. -/
theorem prefix_unique (h : Implements reader format) {text other : List UInt8} {value value' : α}
    (htext : format text value) (hother : format other value') (hbegins : other <+: text) :
    other = text ∧ value' = value := by
  obtain ⟨rest, hrest⟩ := hbegins
  have hin : (Cursor.mk text 0).InBounds := Nat.zero_le _
  have hread := h.complete ⟨text, 0⟩ text [] value hin htext (by simp [Cursor.rest])
  have hread' := h.complete ⟨text, 0⟩ other rest value' hin hother (by simp [Cursor.rest, hrest])
  rw [hread] at hread'
  obtain ⟨rfl, hcursor⟩ : value = value' ∧ Cursor.advance ⟨text, 0⟩ text.length =
      Cursor.advance ⟨text, 0⟩ other.length := by
    simpa using hread'
  have hlength : text.length = other.length := by
    simpa [Cursor.advance] using hcursor
  have heq : other = text := (List.IsPrefix.eq_of_length ⟨rest, hrest⟩ hlength.symm)
  exact ⟨heq, rfl⟩

/-- A reader rejects a string of its format that is cut short. -/
theorem rejects_cut (h : Implements reader format) {cursor : Cursor} {text : List UInt8} {value : α}
    (hin : cursor.InBounds) (htext : format text value) (hbegins : cursor.rest <+: text)
    (hne : cursor.rest ≠ text) : ∃ error, reader cursor = .error (.rejected error) := by
  cases hread : reader cursor with
  | error reason =>
    obtain ⟨error, rfl⟩ := h.rejects cursor reason hin hread
    exact ⟨error, rfl⟩
  | ok result =>
    obtain ⟨other, hother, hstart, -⟩ := h.sound cursor result.1 result.2 hin hread
    have heq := (h.prefix_unique htext hother (hstart.trans hbegins)).1
    subst heq
    exact absurd (hbegins.eq_of_length_le hstart.length_le) hne

/-- A reader of a whole slice. -/
theorem within {bytes : List UInt8} (h : Implements reader format)
    (hwhole : ∀ text value, format text value → text.length = bytes.length) :
    Implements (Reader.within bytes reader)
      (fun text value => text = [] ∧ format bytes value) where
  complete := by
    rintro cursor _ rest value - ⟨rfl, hformat⟩ -
    have hread := h.complete ⟨bytes, 0⟩ bytes [] value (Nat.zero_le _) hformat (by simp [Cursor.rest])
    rw [Reader.within, hread]
    rfl
  sound := by
    intro cursor value next _ hread
    cases hinner : reader ⟨bytes, 0⟩ with
    | error reason =>
      rw [Reader.within, hinner] at hread
      cases hread
    | ok result =>
      rw [Reader.within, hinner] at hread
      obtain ⟨rfl, rfl⟩ : result.1 = value ∧ cursor = next := by
        simpa [Except.map] using hread
      obtain ⟨text, htext, hbegins, -⟩ := h.sound ⟨bytes, 0⟩ result.1 result.2 (Nat.zero_le _) hinner
      have hlength := hwhole text _ htext
      have heq : text = bytes := hbegins.eq_of_length hlength
      exact ⟨[], ⟨rfl, heq ▸ htext⟩, List.nil_prefix, rfl⟩
  rejects := by
    intro cursor reason _ hread
    cases hinner : reader ⟨bytes, 0⟩ with
    | error stopped =>
      rw [Reader.within, hinner] at hread
      obtain rfl := Except.error.inj hread
      exact h.rejects ⟨bytes, 0⟩ _ (Nat.zero_le _) hinner
    | ok result =>
      rw [Reader.within, hinner] at hread
      cases hread

end Implements

/-! ## Little-endian numbers -/

/-- The number that a string spells with its lowest byte first. -/
def fromLeBytes : List UInt8 → Nat
  | [] => 0
  | byte :: bytes => byte.toNat + 256 * fromLeBytes bytes

/-- The lowest bytes of a number, the lowest first. -/
def toLeBytes : Nat → Nat → List UInt8
  | 0, _ => []
  | width + 1, number => UInt8.ofNat number :: toLeBytes width (number / 256)

@[simp] theorem length_toLeBytes (width number : Nat) : (toLeBytes width number).length = width := by
  induction width generalizing number with
  | zero => rfl
  | succ width ih => simp [toLeBytes, ih]

theorem fromLeBytes_lt (bytes : List UInt8) : fromLeBytes bytes < 256 ^ bytes.length := by
  induction bytes with
  | nil => simp [fromLeBytes]
  | cons byte bytes ih =>
    have hbyte := byte.toNat_lt
    rw [fromLeBytes, List.length_cons, Nat.pow_succ]
    omega

theorem fromLeBytes_toLeBytes {width number : Nat} (h : number < 256 ^ width) :
    fromLeBytes (toLeBytes width number) = number := by
  induction width generalizing number with
  | zero =>
    have : number = 0 := by
      simpa using h
    rw [this]
    rfl
  | succ width ih =>
    have hhigh : number / 256 < 256 ^ width := by
      rw [Nat.pow_succ] at h
      omega
    have hlow : (UInt8.ofNat number).toNat = number % 256 := by
      simp
    rw [toLeBytes, fromLeBytes, ih hhigh, hlow]
    omega

theorem toLeBytes_fromLeBytes (bytes : List UInt8) :
    toLeBytes bytes.length (fromLeBytes bytes) = bytes := by
  induction bytes with
  | nil => rfl
  | cons byte bytes ih =>
    have hbyte := byte.toNat_lt
    have hhigh : (byte.toNat + 256 * fromLeBytes bytes) / 256 = fromLeBytes bytes := by
      omega
    have hlow : UInt8.ofNat (byte.toNat + 256 * fromLeBytes bytes) = byte := by
      apply UInt8.toNat_inj.mp
      rw [UInt8.toNat_ofNat']
      omega
    rw [List.length_cons, fromLeBytes, toLeBytes, hhigh, hlow, ih]

end BinlogCdc.Core
