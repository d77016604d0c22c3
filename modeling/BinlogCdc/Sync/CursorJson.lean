import BinlogCdc.Sql.Statement

/-!
# JSON texts of cursors

A cursor is stored as a JSON array of strings. The library that writes and reads it is a parameter;
what is used of it is that an array is read back as it was written, and that control characters are
escaped. Such a library exists.
-/

namespace BinlogCdc

/-- A library for JSON arrays of strings. -/
structure CursorJson where
  write : List Text → Text
  read : Text → Except String (List Text)
  read_write : ∀ cursor, read (write cursor) = .ok cursor
  write_ne_nil : ∀ cursor, write cursor ≠ []
  write_escapes : ∀ cursor, '\t' ∉ write cursor

/-! ## A library -/

/-- The digit of a number below 16. -/
def hexDigit (n : Nat) : Char := Nat.digitChar n

/-- The escaped text of a character. -/
def escapeJson (c : Char) : Text :=
  if c = doubleQuote then [backslash, doubleQuote]
  else if c = backslash then [backslash, backslash]
  else if c.toNat < 32 then
    match c with
    | '\n' => [backslash, 'n']
    | '\r' => [backslash, 'r']
    | '\t' => [backslash, 't']
    | _ =>
      if c.toNat = 8 then [backslash, 'b']
      else if c.toNat = 12 then [backslash, 'f']
      else [backslash, 'u', '0', '0', hexDigit (c.toNat / 16), hexDigit (c.toNat % 16)]
  else [c]

/-- The character of an escape. -/
def unescapeJson (c : Char) : Option Char :=
  if c = doubleQuote || c = backslash || c = '/' then some c
  else
    match c with
    | 'n' => some '\n'
    | 'r' => some '\r'
    | 't' => some '\t'
    | 'b' => some (Char.ofNat 8)
    | 'f' => some (Char.ofNat 12)
    | _ => none

/-- The value of a hexadecimal digit. -/
def hexValue (c : Char) : Option Nat :=
  if c.isDigit then some (c.toNat - 48)
  else if 97 ≤ c.toNat ∧ c.toNat ≤ 102 then some (c.toNat - 87)
  else if 65 ≤ c.toNat ∧ c.toNat ≤ 70 then some (c.toNat - 55)
  else none

/-- The character of a numeric escape. Surrogates are refused. -/
def unicodeEscape (digits : Text) : Option Char := do
  let values ← digits.mapM hexValue
  let code := values.foldl (fun code value => 16 * code + value) 0
  if code.isValidChar then some (Char.ofNat code) else none

/-- The rest of a string after its opening quote: its value, and what follows. -/
def readJsonString : Text → Option (Text × Text)
  | [] => none
  | c :: rest =>
    if c = doubleQuote then some ([], rest)
    else if c = backslash then
      match rest with
      | 'u' :: d :: d' :: d'' :: d''' :: rest => do
        let escaped ← unicodeEscape [d, d', d'', d''']
        let (value, rest) ← readJsonString rest
        return (escaped :: value, rest)
      | e :: rest => do
        let escaped ← unescapeJson e
        let (value, rest) ← readJsonString rest
        return (escaped :: value, rest)
      | [] => none
    else if c.toNat < 32 then none
    else do
      let (value, rest) ← readJsonString rest
      return (c :: value, rest)

/-- The strings of an array, each with its comma before it, to the end of the array. -/
def readJsonStrings : Nat → Text → Option (List Text)
  | 0, _ => none
  | fuel + 1, text =>
    match text with
    | [']'] => some []
    | ',' :: quote :: rest =>
      if quote = doubleQuote then do
        let (value, rest) ← readJsonString rest
        let values ← readJsonStrings fuel rest
        return value :: values
      else none
    | _ => none

def writeJsonString (value : Text) : Text :=
  doubleQuote :: (value.flatMap escapeJson ++ [doubleQuote])

/-- The text of an array. -/
def writeCursor : List Text → Text
  | [] => ['[', ']']
  | value :: values =>
    '[' :: (writeJsonString value ++ (values.flatMap (fun value => ',' :: writeJsonString value) ++
      [']']))

/-- The array of a text. -/
def readCursor (text : Text) : Except String (List Text) :=
  match text with
  | ['[', ']'] => .ok []
  | '[' :: rest =>
    match readJsonStrings (text.length + 1) (',' :: rest) with
    | some values => .ok values
    | none => .error "invalid array of strings"
  | _ => .error "invalid array of strings"

/-- The text is an escape of the character. -/
def escapes (c : Char) : Text → Bool
  | [b, e] => b = backslash && e != 'u' && unescapeJson e = some c
  | [b, u, d, d', d'', d'''] =>
    b = backslash && u = 'u' && unicodeEscape [d, d', d'', d'''] = some c
  | _ => false

theorem readJsonString_of_escapes {c : Char} {text : Text} (h : escapes c text = true)
    (rest : Text) :
    readJsonString (text ++ rest) =
      (readJsonString rest).map fun (value, rest) => (c :: value, rest) := by
  unfold escapes at h
  split at h
  · rename_i b e
    simp only [Bool.and_eq_true, decide_eq_true_eq, bne_iff_ne] at h
    obtain ⟨⟨rfl, hu⟩, he⟩ := h
    rw [List.cons_append, List.cons_append, List.nil_append, readJsonString,
      if_neg (by decide), if_pos rfl, he]
    · cases readJsonString rest <;> rfl
    · exact fun _ _ _ _ _ h _ => hu h
  · rename_i b u d d' d'' d'''
    simp only [Bool.and_eq_true, decide_eq_true_eq] at h
    obtain ⟨⟨rfl, rfl⟩, hd⟩ := h
    simp only [List.cons_append, List.nil_append]
    rw [readJsonString, if_neg (by decide), if_pos rfl]
    dsimp only
    rw [hd]
    cases readJsonString rest <;> rfl
  · cases h

/-- An escaped character is read back. -/
theorem readJsonString_escapeJson (c : Char) (rest : Text) :
    readJsonString (escapeJson c ++ rest) =
      (readJsonString rest).map fun (value, rest) => (c :: value, rest) := by
  by_cases hcontrol : c.toNat < 32
  · have hall : ∀ n < 32, escapes (Char.ofNat n) (escapeJson (Char.ofNat n)) = true := by decide
    have hescapes := hall c.toNat hcontrol
    rw [Char.ofNat_toNat] at hescapes
    exact readJsonString_of_escapes hescapes rest
  · by_cases hquote : c = doubleQuote
    · subst hquote
      exact readJsonString_of_escapes (by decide) rest
    · by_cases hslash : c = backslash
      · subst hslash
        exact readJsonString_of_escapes (by decide) rest
      · have hplain : escapeJson c = [c] := by
          unfold escapeJson
          rw [if_neg hquote, if_neg hslash, if_neg hcontrol]
        rw [hplain, List.singleton_append, readJsonString.eq_def]
        simp only [if_neg hquote, if_neg hslash, if_neg hcontrol]
        cases readJsonString rest <;> rfl

/-- A string is read back. -/
theorem readJsonString_write (value rest : Text) :
    readJsonString (value.flatMap escapeJson ++ doubleQuote :: rest) = some (value, rest) := by
  induction value with
  | nil =>
    rw [List.flatMap_nil, List.nil_append, readJsonString.eq_def]
    exact if_pos rfl
  | cons c value ih =>
    rw [List.flatMap_cons, List.append_assoc, readJsonString_escapeJson, ih]
    rfl

theorem readJsonStrings_write (values : List Text) {fuel : Nat} (hfuel : values.length < fuel) :
    readJsonStrings fuel (values.flatMap (fun value => ',' :: writeJsonString value) ++ [']']) =
      some values := by
  induction values generalizing fuel with
  | nil =>
    obtain ⟨fuel, rfl⟩ := Nat.exists_eq_succ_of_ne_zero (Nat.ne_zero_of_lt hfuel)
    rfl
  | cons value values ih =>
    obtain ⟨fuel, rfl⟩ := Nat.exists_eq_succ_of_ne_zero (Nat.ne_zero_of_lt hfuel)
    have hread := readJsonString_write value
      (values.flatMap (fun value => ',' :: writeJsonString value) ++ [']'])
    have hrest := ih (Nat.lt_of_succ_lt_succ hfuel)
    have htext : (value :: values).flatMap (fun value => ',' :: writeJsonString value) ++ [']'] =
        ',' :: doubleQuote :: (value.flatMap escapeJson ++ doubleQuote ::
          (values.flatMap (fun value => ',' :: writeJsonString value) ++ [']'])) := by
      simp [writeJsonString]
    rw [htext, readJsonStrings, if_pos rfl, hread]
    simp only [Option.bind_eq_bind, Option.bind_some, hrest]
    rfl

theorem length_le_flatMap_write (values : List Text) :
    values.length ≤ (values.flatMap fun value => ',' :: writeJsonString value).length := by
  induction values with
  | nil => exact Nat.le_refl 0
  | cons value values ih =>
    rw [List.flatMap_cons, List.length_append, List.length_cons, List.length_cons]
    omega

/-- An array is read back. -/
theorem readCursor_writeCursor (cursor : List Text) : readCursor (writeCursor cursor) = .ok cursor := by
  cases cursor with
  | nil => rfl
  | cons value values =>
    have hread := @readJsonStrings_write (value :: values) ((writeCursor (value :: values)).length + 1)
      (by
        have h := length_le_flatMap_write values
        simp only [writeCursor, List.length_cons, List.length_append]
        omega)
    have htext : (value :: values).flatMap (fun value => ',' :: writeJsonString value) ++ [']'] =
        ',' :: (writeJsonString value ++
          (values.flatMap (fun value => ',' :: writeJsonString value) ++ [']'])) := by simp
    rw [htext] at hread
    have hcursor : readCursor (writeCursor (value :: values)) =
        match readJsonStrings ((writeCursor (value :: values)).length + 1)
          (',' :: (writeJsonString value ++
            (values.flatMap (fun value => ',' :: writeJsonString value) ++ [']']))) with
        | some values => .ok values
        | none => .error "invalid array of strings" := rfl
    rw [hcursor, hread]

/-- No character below the space is written. -/
theorem not_control_of_mem_escapeJson {c d : Char} (h : d ∈ escapeJson c) : ¬ d.toNat < 32 := by
  by_cases hcontrol : c.toNat < 32
  · have hall : ∀ n < 32, ∀ d ∈ escapeJson (Char.ofNat n), ¬ d.toNat < 32 := by decide
    have hescaped := hall c.toNat hcontrol
    rw [Char.ofNat_toNat] at hescaped
    exact hescaped d h
  · unfold escapeJson at h
    rw [if_neg hcontrol] at h
    split at h
    · revert d
      decide
    · split at h
      · revert d
        decide
      · rw [List.mem_singleton.mp h]
        exact hcontrol

theorem tab_notMem_writeJsonString (value : Text) : '\t' ∉ writeJsonString value := by
  intro h
  rcases List.mem_cons.mp h with h | h
  · exact absurd h (by decide)
  · rcases List.mem_append.mp h with h | h
    · obtain ⟨c, -, hc⟩ := List.mem_flatMap.mp h
      exact not_control_of_mem_escapeJson hc (by decide)
    · exact absurd (List.mem_singleton.mp h) (by decide)

theorem tab_notMem_writeCursor (cursor : List Text) : '\t' ∉ writeCursor cursor := by
  cases cursor with
  | nil => decide
  | cons value values =>
    intro h
    rcases List.mem_cons.mp h with h | h
    · exact absurd h (by decide)
    · rcases List.mem_append.mp h with h | h
      · exact tab_notMem_writeJsonString value h
      · rcases List.mem_append.mp h with h | h
        · obtain ⟨other, -, hother⟩ := List.mem_flatMap.mp h
          rcases List.mem_cons.mp hother with h | h
          · exact absurd h (by decide)
          · exact tab_notMem_writeJsonString other h
        · exact absurd (List.mem_singleton.mp h) (by decide)

/-- The library that writes compact arrays. -/
def compactJson : CursorJson where
  write := writeCursor
  read := readCursor
  read_write := readCursor_writeCursor
  write_ne_nil cursor := by cases cursor <;> exact List.cons_ne_nil _ _
  write_escapes := tab_notMem_writeCursor

end BinlogCdc
