import BinlogCdc.Sql.Search
import BinlogCdc.Target.MissingForeignKey

/-!
# The index of a duplicate entry

Which unique index a row violates is read from the message of the server, which quotes the duplicate
value before the name of the index. The name is cut out of the message at the first occurrence of a
marker, and may be qualified by the table.
-/

namespace BinlogCdc

attribute [local instance] Text.lawfulBEq

/-! ## Reading the message -/

/-- The text before the name of the index, without its quote. -/
def keyMarker : Text := " for key ".toList

def duplicateIndexFromError (errorText : Text) : Option Text := do
  let (_, remainder) ← Text.splitOnce (keyMarker ++ [singleQuote]) errorText
  let (key, _) ← Text.splitOnce [singleQuote] remainder
  if key.isEmpty then none else some key

/-- A column of a unique index. -/
structure UniqueIndexColumn where
  index : Text
  column : Option Text
  sequence : Nat
  prefixLength : Option Nat
  deriving DecidableEq

/-- The names of the indexes, as the keys of an ordered map. -/
def indexNames (rows : List UniqueIndexColumn) : List Text :=
  (rows.map UniqueIndexColumn.index).dedup.insertionSort fun left right => ¬right < left

def Text.joined (separator : Text) : List Text → Text
  | [] => []
  | [text] => text
  | text :: texts => text ++ separator ++ joined separator texts

def resolveDuplicateIndexName (change : TargetRowChange) (errorIndex : Text) (indexes : List Text) :
    Except TargetExecuteError Text :=
  if errorIndex ∈ indexes then .ok errorIndex
  else
    match indexes.filter fun index => ('.' :: index).isSuffixOf errorIndex with
    | [index] => .ok index
    | [] => .error (.new (s!"duplicate-parent index {String.ofList errorIndex} is absent for " ++
        s!"{change.schema}.{change.table}"))
    | found => .error (.new (s!"duplicate-parent index {String.ofList errorIndex} is ambiguous for " ++
        s!"{change.schema}.{change.table}: " ++ String.ofList (Text.joined ", ".toList found)))

/-- The first part of building the metadata of a duplicate parent. -/
def duplicateIndexName (change : TargetRowChange) (errorText : Text) (rows : List UniqueIndexColumn) :
    Except TargetExecuteError Text :=
  match duplicateIndexFromError errorText with
  | none => .error (.new (s!"duplicate-parent error does not identify an index for " ++
      s!"{change.schema}.{change.table}: {String.ofList errorText}"))
  | some errorIndex => resolveDuplicateIndexName change errorIndex (indexNames rows)

/-! ## The message of the server -/

/-- The name of a violated index in a message. -/
def reportedKey (qualified : Bool) (table index : Text) : Text :=
  if qualified then table ++ '.' :: index else index

/-- The message about a duplicate entry, between the texts that the client adds to it. -/
def duplicateEntryMessage (before value key after : Text) : Text :=
  before ++ "Duplicate entry ".toList ++
    singleQuote :: (value ++ singleQuote :: (keyMarker ++ [singleQuote] ++
      (key ++ singleQuote :: after)))

/-- The name that the message shows to a reader of the first marker: what follows the marker in the
quoted value, if it is there, or the key; up to the next quote. -/
def shownKey (value key : Text) : Text :=
  let shown :=
    match Text.splitOnce (keyMarker ++ [singleQuote]) (value ++ [singleQuote]) with
    | some (_, rest) => rest ++ keyMarker
    | none => key
  shown.takeWhile (· ≠ singleQuote)

example : shownKey "x for key 'PRIMARY' y".toList "comics.slug".toList = "PRIMARY".toList := by
  decide +kernel

/-- The text names an index: by its name, or else by a name after a dot that no other index has. -/
def NamesIndex (indexes : List Text) (text index : Text) : Prop :=
  index ∈ indexes ∧ (index = text ∨ text ∉ indexes ∧ '.' :: index <:+ text ∧
    ∀ other ∈ indexes, '.' :: other <:+ text → other = index)

/-! ## Reading it back -/

theorem singleQuote_notMem_keyMarker : singleQuote ∉ keyMarker := by decide

/-- The text before the quoted value does not end in the marker. -/
theorem not_keyMarker_suffix (before : Text) :
    ¬keyMarker <:+ before ++ "Duplicate entry ".toList := by
  intro hsuffix
  have hshort := List.suffix_of_suffix_length_le hsuffix
    (List.suffix_append before "Duplicate entry ".toList) (by decide)
  revert hshort
  decide

/-- The message is read as what it shows. -/
theorem duplicateIndexFromError_duplicateEntryMessage {before : Text} (hbefore : singleQuote ∉ before)
    (value key after : Text) :
    duplicateIndexFromError (duplicateEntryMessage before value key after) =
      if (shownKey value key).isEmpty then none else some (shownKey value key) := by
  have hlead : singleQuote ∉ before ++ "Duplicate entry ".toList := by
    rw [List.mem_append, not_or]
    exact ⟨hbefore, by decide⟩
  have hsplit := Text.splitOnce_marked_append singleQuote_notMem_keyMarker hlead
    (not_keyMarker_suffix before)
    (value ++ singleQuote :: (keyMarker ++ [singleQuote] ++ (key ++ singleQuote :: after)))
  -- What follows the first marker of the message, and the text it shows.
  obtain ⟨front, shown, rest, hfirst, hshown⟩ : ∃ front shown rest,
      Text.splitOnce (keyMarker ++ [singleQuote])
        (value ++ singleQuote :: (keyMarker ++ [singleQuote] ++ (key ++ singleQuote :: after))) =
          some (front, shown ++ singleQuote :: rest) ∧
        shownKey value key = shown.takeWhile (· ≠ singleQuote) := by
    cases hvalue : Text.splitOnce (keyMarker ++ [singleQuote]) (value ++ [singleQuote]) with
    | none =>
      refine ⟨_, key, after,
        Text.splitOnce_marked_next singleQuote_notMem_keyMarker hvalue _, ?_⟩
      rw [shownKey, hvalue]
    | some parts =>
      obtain ⟨front, rest⟩ := parts
      refine ⟨front, rest ++ keyMarker, key ++ singleQuote :: after, ?_, ?_⟩
      · have hmore := Text.splitOnce_append hvalue
          (keyMarker ++ [singleQuote] ++ (key ++ singleQuote :: after))
        simpa only [List.append_assoc, List.cons_append, List.nil_append] using hmore
      · rw [shownKey, hvalue]
  rw [hfirst] at hsplit
  obtain ⟨rest', hquote⟩ := Text.splitOnce_singleton_of_mem
    (show singleQuote ∈ shown ++ singleQuote :: rest by simp)
  rw [Text.takeWhile_append_stop, ← hshown] at hquote
  rw [duplicateIndexFromError, duplicateEntryMessage, hsplit]
  simp only [Option.map_some, Option.bind_eq_bind, Option.bind_some, hquote]

/-- The name that is resolved is the index that the text names. -/
theorem resolveDuplicateIndexName_eq_ok {change : TargetRowChange} {text index : Text}
    {indexes : List Text} (hnodup : indexes.Nodup) :
    resolveDuplicateIndexName change text indexes = .ok index ↔ NamesIndex indexes text index := by
  have hmem : ∀ other, other ∈ (indexes.filter fun index => ('.' :: index).isSuffixOf text) ↔
      other ∈ indexes ∧ '.' :: other <:+ text := by
    intro other
    rw [List.mem_filter, List.isSuffixOf_iff_suffix]
  have hdistinct := hnodup.filter fun index => ('.' :: index).isSuffixOf text
  unfold resolveDuplicateIndexName
  by_cases hexact : text ∈ indexes
  · rw [if_pos hexact]
    constructor
    · intro hok
      obtain rfl := Except.ok.inj hok
      exact ⟨hexact, .inl rfl⟩
    · rintro ⟨-, rfl | ⟨habsent, -⟩⟩
      · rfl
      · exact absurd hexact habsent
  · rw [if_neg hexact]
    constructor
    · intro hok
      split at hok
      · rename_i found heq
        obtain rfl := Except.ok.inj hok
        have hfound := (hmem found).mp (heq ▸ List.mem_singleton.mpr rfl)
        refine ⟨hfound.1, .inr ⟨hexact, hfound.2, fun other hother hsuffix => ?_⟩⟩
        have hlisted := (hmem other).mpr ⟨hother, hsuffix⟩
        rw [heq] at hlisted
        exact List.mem_singleton.mp hlisted
      · cases hok
      · cases hok
    · rintro ⟨hindex, rfl | ⟨-, hsuffix, hunique⟩⟩
      · exact absurd hindex hexact
      · have hlisted := (hmem index).mpr ⟨hindex, hsuffix⟩
        have honly : (indexes.filter fun index => ('.' :: index).isSuffixOf text) = [index] := by
          apply List.perm_singleton.mp
          refine (List.perm_ext_iff_of_nodup hdistinct (List.nodup_singleton index)).mpr fun other => ?_
          rw [hmem, List.mem_singleton]
          constructor
          · exact fun h => hunique other h.1 h.2
          · rintro rfl
            exact ⟨hindex, hsuffix⟩
        rw [honly]

theorem indexNames_nodup (rows : List UniqueIndexColumn) : (indexNames rows).Nodup :=
  (List.perm_insertionSort _ _).nodup_iff.mpr (List.nodup_dedup _)

/-- The index that is found is the one that the message shows. -/
theorem duplicateIndexName_eq_ok {before : Text} (hbefore : singleQuote ∉ before)
    {change : TargetRowChange} {value key after index : Text} {rows : List UniqueIndexColumn} :
    duplicateIndexName change (duplicateEntryMessage before value key after) rows = .ok index ↔
      shownKey value key ≠ [] ∧ NamesIndex (indexNames rows) (shownKey value key) index := by
  rw [duplicateIndexName, duplicateIndexFromError_duplicateEntryMessage hbefore]
  by_cases hempty : (shownKey value key).isEmpty = true
  · rw [if_pos hempty]
    constructor
    · intro hok
      cases hok
    · intro hshown
      exact absurd (List.isEmpty_iff.mp hempty) hshown.1
  · rw [if_neg hempty]
    have hshown : shownKey value key ≠ [] := fun heq => hempty (List.isEmpty_iff.mpr heq)
    exact (resolveDuplicateIndexName_eq_ok (indexNames_nodup rows)).trans
      ⟨fun h => ⟨hshown, h⟩, fun h => h.2⟩

/-- A message about one index shows the name of another. -/
def ShowsOther (indexes : List Text) (value key index : Text) : Prop :=
  shownKey value key ≠ [] ∧ ∃ other, other ≠ index ∧ NamesIndex indexes (shownKey value key) other

theorem shownKey_of_unmarked {value key : Text}
    (hvalue : Text.splitOnce (keyMarker ++ [singleQuote]) (value ++ [singleQuote]) = none)
    (hkey : singleQuote ∉ key) : shownKey value key = key := by
  rw [shownKey, hvalue]
  exact List.takeWhile_eq_self_iff.mpr fun c hc => decide_eq_true fun heq => hkey (heq ▸ hc)

/-- Without the marker in the value and without quotes in the names, only an index that is called as
another one is reported can be shown in its place. -/
theorem showsOther_of_unmarked {indexes : List Text} {value table index : Text} {qualified : Bool}
    (hvalue : Text.splitOnce (keyMarker ++ [singleQuote]) (value ++ [singleQuote]) = none)
    (hkey : singleQuote ∉ reportedKey qualified table index) (hindex : index ∈ indexes)
    (h : ShowsOther indexes value (reportedKey qualified table index) index) :
    qualified = true ∧ table ++ '.' :: index ∈ indexes := by
  obtain ⟨-, other, hne, hother, hname⟩ := h
  rw [shownKey_of_unmarked hvalue hkey] at hname
  cases qualified with
  | false =>
    rcases hname with rfl | ⟨habsent, -⟩
    · exact absurd rfl hne
    · exact absurd hindex habsent
  | true =>
    rcases hname with rfl | ⟨-, -, hunique⟩
    · exact ⟨rfl, hother⟩
    · have hsuffix : '.' :: index <:+ table ++ '.' :: index := List.suffix_append table _
      exact absurd (hunique index hindex hsuffix).symm hne

/-- The index that is read from a message is the violated one, or none is, exactly if the message
does not show the name of another index. -/
theorem duplicateIndexName_eq_violated_iff {before : Text} (hbefore : singleQuote ∉ before)
    (change : TargetRowChange) (rows : List UniqueIndexColumn) (value index after : Text)
    (qualified : Bool) :
    (∀ found, duplicateIndexName change (duplicateEntryMessage before value
      (reportedKey qualified change.table.toList index) after) rows = .ok found → found = index) ↔
        ¬ShowsOther (indexNames rows) value
          (reportedKey qualified change.table.toList index) index := by
  simp only [duplicateIndexName_eq_ok hbefore]
  constructor
  · rintro h ⟨hshown, other, hne, hnames⟩
    exact hne (h other ⟨hshown, hnames⟩)
  · intro h found ⟨hshown, hnames⟩
    by_contra hne
    exact h ⟨hshown, found, hne, hnames⟩

/-- A table with a unique slug. -/
def comicsIndexes : List UniqueIndexColumn :=
  [{ index := "PRIMARY".toList, column := some "id".toList, sequence := 1, prefixLength := none },
    { index := "slug".toList, column := some "slug".toList, sequence := 1, prefixLength := none }]

/-- An insert into it. -/
def comicsInsert : TargetRowChange where
  statement := { sql := "INSERT INTO comics (id, slug) VALUES (?, ?)", params := [.int 7, .null] }
  kind := .insert
  schema := "globalcomix"
  table := "comics"
  values := [("id", .int 7)]

theorem duplicateIndexName_eq_violated_iff_plain :
    "slug".toList ∈ indexNames comicsIndexes ∧
      ∀ found, duplicateIndexName comicsInsert (duplicateEntryMessage
        "ERROR 1062 (23000): ".toList "night".toList
          (reportedKey true comicsInsert.table.toList "slug".toList) " \x7d".toList) comicsIndexes =
            .ok found → found = "slug".toList := by
  refine ⟨by decide +kernel, ?_⟩
  refine (duplicateIndexName_eq_violated_iff (by decide) comicsInsert comicsIndexes _ _ _ true).mpr ?_
  intro h
  have hother := showsOther_of_unmarked (by decide +kernel) (by decide +kernel) (by decide +kernel) h
  exact absurd hother.2 (by decide +kernel)

/-- A slug that contains the marker makes another index of a duplicate slug. -/
theorem duplicateIndexName_of_marked_slug :
    "slug".toList ∈ indexNames comicsIndexes ∧ "PRIMARY".toList ≠ "slug".toList ∧
      duplicateIndexName comicsInsert (duplicateEntryMessage "ERROR 1062 (23000): ".toList
        "x for key 'PRIMARY' y".toList (reportedKey true comicsInsert.table.toList "slug".toList)
          " \x7d".toList) comicsIndexes = .ok "PRIMARY".toList := by
  decide +kernel

end BinlogCdc
