import BinlogCdc.Sync.TableCatalog

/-!
# The labels of a column type

An enumeration or set type lists its labels in quotes. A label is written with its quotes doubled and
its backslashes escaped, and reading the list returns the labels.
-/

namespace BinlogCdc

/-- The labels of a type that starts with a name and an opening bracket. -/
def parseLabelColumnType (start columnType : String) : Option (List String) :=
  let start := start.toList
  let text := columnType.toList
  if start.isPrefixOf text then
    let values := text.drop start.length
    if values.getLast? = some ')' then
      some (parseSqlStringList values.length values.dropLast)
    else none
  else none

theorem parseEnumColumnType_eq (columnType : String) :
    parseEnumColumnType columnType = parseLabelColumnType "enum(" columnType := rfl

/-- The labels of a set type. -/
def parseSetColumnType (columnType : String) : Option (List String) :=
  parseLabelColumnType "set(" columnType

/-! ## Written labels -/

/-- The ways to write a character between quotes, with the character that is read. -/
inductive CharacterCode : List Char → Char → Prop where
  | plain {character : Char} (hquote : character ≠ '\'') (hbackslash : character ≠ '\\') :
      CharacterCode [character] character
  | doubledQuote : CharacterCode ['\'', '\''] '\''
  | escaped (character : Char) : CharacterCode ['\\', character] character

/-- The characters of a label between its quotes. -/
def quotedLabel (write : Char → List Char) (label : String) : List Char :=
  '\'' :: label.toList.flatMap write ++ ['\'']

/-- Labels with commas between them. -/
def labelList (write : Char → List Char) (labels : List String) : List Char :=
  [','].intercalate (labels.map (quotedLabel write))

/-- The text of a type with labels. -/
def labelColumnType (start : String) (write : Char → List Char) (labels : List String) : String :=
  String.ofList (start.toList ++ labelList write labels ++ [')'])

/-- A quote and a backslash are doubled. -/
def doubleQuotesAndBackslashes (character : Char) : List Char :=
  if character = '\'' then ['\'', '\'']
  else if character = '\\' then ['\\', '\\']
  else [character]

theorem characterCode_doubleQuotesAndBackslashes (character : Char) :
    CharacterCode (doubleQuotesAndBackslashes character) character := by
  unfold doubleQuotesAndBackslashes
  by_cases hquote : character = '\''
  · rw [if_pos hquote, hquote]
    exact .doubledQuote
  · rw [if_neg hquote]
    by_cases hbackslash : character = '\\'
    · rw [if_pos hbackslash, hbackslash]
      exact .escaped '\\'
    · rw [if_neg hbackslash]
      exact .plain hquote hbackslash

/-! ## Reading labels -/

/-- A written character is read before the rest. -/
theorem parseSqlStringValue_code {written : List Char} {character : Char}
    (h : CharacterCode written character) (rest : List Char) :
    parseSqlStringValue (written ++ rest) =
      (character :: (parseSqlStringValue rest).1, (parseSqlStringValue rest).2) := by
  cases h with
  | plain hquote hbackslash =>
    rw [List.singleton_append, parseSqlStringValue]
    · exact fun _ h _ => hquote h
    · exact hquote
    · exact fun _ _ h _ => hbackslash h
    · exact fun h _ => hbackslash h
  | doubledQuote => rfl
  | escaped => rfl

/-- The label ends at its closing quote when no quote follows. -/
theorem parseSqlStringValue_label {write : Char → List Char} {read : Char → Char}
    (hwrite : ∀ character, CharacterCode (write character) (read character)) (label : List Char)
    (rest : List Char) (hrest : rest.head? ≠ some '\'') :
    parseSqlStringValue (label.flatMap write ++ '\'' :: rest) = (label.map read, rest) := by
  induction label with
  | nil =>
    cases rest with
    | nil => rfl
    | cons next rest =>
      have hend : ∀ tail, next :: rest = '\'' :: tail → False := by
        intro tail htail
        cases htail
        exact hrest rfl
      rw [List.flatMap_nil, List.nil_append, parseSqlStringValue.eq_3 _ hend, List.map_nil]
  | cons character label ih =>
    rw [List.flatMap_cons, List.append_assoc, parseSqlStringValue_code (hwrite character), ih]
    rfl

/-- The list is read label by label; the step to the next label skips the comma. -/
theorem parseSqlStringList_labelList {write : Char → List Char} {read : Char → Char}
    (hwrite : ∀ character, CharacterCode (write character) (read character))
    (labels : List String) : ∀ fuel, (labelList write labels).length < fuel →
      parseSqlStringList fuel (labelList write labels) =
        labels.map fun label => String.ofList (label.toList.map read) := by
  induction labels with
  | nil =>
    intro fuel hfuel
    obtain ⟨fuel, rfl⟩ := Nat.exists_eq_succ_of_ne_zero (Nat.ne_of_gt hfuel)
    rfl
  | cons label labels ih =>
    intro fuel hfuel
    obtain ⟨fuel, rfl⟩ := Nat.exists_eq_succ_of_ne_zero (Nat.ne_of_gt (Nat.zero_lt_of_lt hfuel))
    cases labels with
    | nil =>
      have hvalue := parseSqlStringValue_label hwrite label.toList [] (by simp)
      have htext : labelList write [label] = '\'' :: (label.toList.flatMap write ++ '\'' :: []) := by
        simp [labelList, quotedLabel]
      rw [htext] at hfuel ⊢
      rw [parseSqlStringList, if_pos rfl, hvalue]
      cases fuel <;> rfl
    | cons next labels =>
      have htext : labelList write (label :: next :: labels) =
          '\'' :: (label.toList.flatMap write ++
            '\'' :: (',' :: labelList write (next :: labels))) := by
        simp [labelList, quotedLabel, List.intercalate]
      have hvalue := parseSqlStringValue_label hwrite label.toList
        (',' :: labelList write (next :: labels)) (by simp)
      rw [htext] at hfuel ⊢
      rw [parseSqlStringList, if_pos rfl, hvalue]
      simp only [List.length_cons, List.length_append] at hfuel
      obtain ⟨fuel, rfl⟩ := Nat.exists_eq_succ_of_ne_zero (show fuel ≠ 0 by omega)
      dsimp only
      rw [parseSqlStringList, if_neg (by decide), ih fuel (by omega)]
      rfl

/-- The labels of a type are read back, each character as its code says. -/
theorem parseLabelColumnType_labelColumnType {write : Char → List Char} {read : Char → Char}
    (hwrite : ∀ character, CharacterCode (write character) (read character)) (start : String)
    (labels : List String) :
    parseLabelColumnType start (labelColumnType start write labels) =
      some (labels.map fun label => String.ofList (label.toList.map read)) := by
  have htext : (labelColumnType start write labels).toList =
      start.toList ++ (labelList write labels ++ [')']) := by
    rw [labelColumnType, String.toList_ofList, List.append_assoc]
  have hbegins : start.toList.isPrefixOf (start.toList ++ (labelList write labels ++ [')'])) = true :=
    List.isPrefixOf_iff_prefix.mpr ⟨_, rfl⟩
  unfold parseLabelColumnType
  simp only [htext, hbegins, if_true, List.drop_left, List.getLast?_concat, List.dropLast_concat]
  rw [parseSqlStringList_labelList hwrite labels _ (by simp)]

/-- The labels that a type lists are the labels read from it. -/
theorem parseColumnType_labels (labels : List String) :
    parseEnumColumnType (labelColumnType "enum(" doubleQuotesAndBackslashes labels) = some labels ∧
      parseSetColumnType (labelColumnType "set(" doubleQuotesAndBackslashes labels) =
        some labels := by
  have hread : (labels.map fun label => String.ofList (label.toList.map fun character => character)) =
      labels := by
    simp
  have hstart : ∀ start, parseLabelColumnType start
      (labelColumnType start doubleQuotesAndBackslashes labels) = some labels := by
    intro start
    rw [parseLabelColumnType_labelColumnType characterCode_doubleQuotesAndBackslashes, hread]
  exact ⟨hstart "enum(", hstart "set("⟩

example : labelColumnType "enum(" doubleQuotesAndBackslashes ["views", "can't", "back\\slash"] =
    "enum('views','can''t','back\\\\slash')" := by
  decide

end BinlogCdc
