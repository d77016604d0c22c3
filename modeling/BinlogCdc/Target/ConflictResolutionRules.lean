import BinlogCdc.Target.ConflictResolution

/-!
# What a resolution run writes

A run marks what it examined, or nothing. It marks exactly the conflicts of its source whose evidence is
the same on both sides, unless the ledger has other unresolved conflicts of the table with the same key,
a key is stored in another text than the program writes, or values that differ look the same.
-/

namespace BinlogCdc

namespace ConflictResolution

/-! ## The same evidence -/

/-- A row of a side with the text of its key. -/
def RowOf (reader : EvidenceReader) (side : EvidenceSide) (evidence : EvidenceTable) (id : String)
    (row : EvidenceRow) : Prop :=
  row ∈ reader.rows side evidence ∧ row.text evidence.primaryKey = some id

theorem RowOf.unique {reader : EvidenceReader} {side : EvidenceSide} {evidence : EvidenceTable}
    {id : String} {row other : EvidenceRow} (h : RowOf reader side evidence id row)
    (h' : RowOf reader side evidence id other) : row = other :=
  reader.unique side evidence row h.1 other h'.1 (h.2.trans h'.2.symm)

/-- The bytes of a date or time without the fraction of a whole second. -/
def dropMicros (bytes : List UInt8) : List UInt8 :=
  let suffix := ".000000".toUTF8.toList
  if suffix.isSuffixOf bytes then bytes.take (bytes.length - suffix.length) else bytes

/-- The same value; in columns of dates and times the fraction of a whole second may be missing. -/
def SameCell (cell other : EvidenceCell) : Prop :=
  cell.value = other.value ∨ cell.temporal = true ∧ other.temporal = true ∧
    cell.value.map dropMicros = other.value.map dropMicros

/-- The values are the same texts for the program. -/
def LooksSame (cell other : EvidenceCell) : Prop :=
  (mysqlValueString cell.value).map canonicalValue =
    (mysqlValueString other.value).map canonicalValue

/-- The rows have the same columns, with values in a relation. -/
def RowsAgree (same : EvidenceCell → EvidenceCell → Prop) (row other : EvidenceRow) : Prop :=
  ∀ column, Option.Rel same (row.columns.lookup column) (other.columns.lookup column)

/-- The child of a key and the parent it references are on both sides, with the same values. -/
def Verified (reader : EvidenceReader) (same : EvidenceCell → EvidenceCell → Prop) (id : String) :
    Prop :=
  ∃ child other, RowOf reader .source .children id child ∧ RowOf reader .target .children id other ∧
    RowsAgree same child other ∧ ∀ utm, child.text utmColumn = some utm →
      ∃ parent other, RowOf reader .source .parents utm parent ∧
        RowOf reader .target .parents utm other ∧ RowsAgree same parent other

/-! ## Traversals -/

theorem exists_of_mem_results {ε α β : Type} {f : α → Except ε β} {list : List α} {results : List β}
    (h : list.mapM f = .ok results) {result : β} (hresult : result ∈ results) :
    ∃ element ∈ list, f element = .ok result := by
  have hall := mapM_eq_ok.mp h
  clear h
  induction hall with
  | nil => cases hresult
  | cons hfirst _ ih =>
    rcases List.mem_cons.mp hresult with rfl | hrest
    · exact ⟨_, List.mem_cons_self, hfirst⟩
    · obtain ⟨element, helement, hvalue⟩ := ih hrest
      exact ⟨element, List.mem_cons_of_mem _ helement, hvalue⟩

theorem map_ok_of_mapM {ε α β : Type} {f : α → Except ε β} {list : List α} {results : List β}
    (h : list.mapM f = .ok results) : results.map Except.ok = list.map f := by
  have hall := mapM_eq_ok.mp h
  clear h
  induction hall with
  | nil => rfl
  | cons hfirst _ ih => rw [List.map_cons, List.map_cons, hfirst, ih]

/-! ## Validated rows -/

theorem lookup_map_values {α β : Type} (f : α → β) (values : List (String × α)) (name : String) :
    (values.map fun (name, value) => (name, f value)).lookup name = (values.lookup name).map f := by
  induction values with
  | nil => rfl
  | cons entry values ih =>
    obtain ⟨key, value⟩ := entry
    rw [List.map_cons, List.lookup_cons, List.lookup_cons, ih]
    cases name == key <;> rfl

theorem mem_of_lookup {α : Type} {values : List (String × α)} {name : String} {value : α}
    (h : values.lookup name = some value) : (name, value) ∈ values := by
  obtain ⟨front, back, rfl, -⟩ := List.lookup_eq_some_iff.mp h
  exact List.mem_append_right _ List.mem_cons_self

/-- Equal rows have equal lookups. -/
theorem sameValues_lookup {values others : CanonicalRow} (h : sameValues values others = true)
    (name : String) : values.lookup name = others.lookup name := by
  rw [sameValues, Bool.and_eq_true, List.all_eq_true, List.all_eq_true] at h
  cases hvalue : values.lookup name with
  | some value =>
    have hother := h.1 _ (mem_of_lookup hvalue)
    exact (eq_of_beq hother).symm
  | none =>
    cases hother : others.lookup name with
    | none => rfl
    | some value =>
      have hback := eq_of_beq (h.2 _ (mem_of_lookup hother))
      rw [hvalue] at hback
      cases hback

theorem canonicalRowsByKey_ok {rows : List DatabaseRow} {map : List (PrimaryKey × CanonicalRow)}
    (h : canonicalRowsByKey rows = .ok map) :
    map = rows.map fun row =>
      (row.primaryKey, row.values.map fun (name, value) => (name, value.map canonicalValue)) := by
  rw [canonicalRowsByKey] at h
  split_ifs at h
  exact (Except.ok.inj h).symm

/-- Every expected key has a row on both sides, and their canonical values are the same. -/
theorem validateEqualRows_ok {label : String} {expectedKeys : List PrimaryKey}
    {sourceRows targetRows : List DatabaseRow}
    (h : validateEqualRows label expectedKeys sourceRows targetRows = .ok ()) :
    ∀ key ∈ expectedKeys, ∃ row ∈ sourceRows, ∃ other ∈ targetRows, row.primaryKey = key ∧
      other.primaryKey = key ∧ ∀ name, (row.values.lookup name).map (Option.map canonicalValue) =
        (other.values.lookup name).map (Option.map canonicalValue) := by
  intro key hkey
  obtain ⟨source, hsource, h⟩ := bind_eq_ok.mp h
  obtain ⟨target, htarget, h⟩ := bind_eq_ok.mp h
  split_ifs at h with hkeys hrows
  rw [Bool.or_eq_true, not_or, Bool.not_eq_true', Bool.not_eq_true', Bool.not_eq_false,
    Bool.not_eq_false] at hkeys
  have hmem : key ∈ source.map Prod.fst := by
    have hall := (Bool.and_eq_true _ _ |>.mp hkeys.1).2
    rw [List.all_eq_true] at hall
    exact List.contains_iff_mem.mp (hall key hkey)
  obtain ⟨⟨sourceKey, values⟩, hentry, hsourceKey⟩ := List.mem_map.mp hmem
  obtain rfl : sourceKey = key := hsourceKey
  have hmatch := List.all_eq_true.mp hrows _ hentry
  obtain ⟨others, hlookup, hsame⟩ : ∃ others, target.lookup sourceKey = some others ∧
      sameValues values others = true := by
    dsimp only at hmatch
    cases hlookup : target.lookup sourceKey with
    | none =>
      rw [hlookup] at hmatch
      cases hmatch
    | some others =>
      rw [hlookup] at hmatch
      exact ⟨others, rfl, hmatch⟩
  obtain ⟨front, back, hsplit, -⟩ := List.lookup_eq_some_iff.mp hlookup
  have hother : (sourceKey, others) ∈ target := by
    rw [hsplit]
    exact List.mem_append_right _ List.mem_cons_self
  rw [canonicalRowsByKey_ok hsource] at hentry
  rw [canonicalRowsByKey_ok htarget] at hother
  obtain ⟨row, hrow, hrowEntry⟩ := List.mem_map.mp hentry
  obtain ⟨other, hotherRow, hotherEntry⟩ := List.mem_map.mp hother
  obtain ⟨hrowKey, rfl⟩ := Prod.mk.inj hrowEntry
  obtain ⟨hotherKey, rfl⟩ := Prod.mk.inj hotherEntry
  refine ⟨row, hrow, other, hotherRow, hrowKey, hotherKey, fun name => ?_⟩
  have hname := sameValues_lookup hsame name
  rwa [lookup_map_values, lookup_map_values] at hname

/-- Rows that were read are rows of the table, decoded. -/
theorem readBatched_ok {reader : EvidenceReader} {side : EvidenceSide} {evidence : EvidenceTable}
    {primaryKeys : List PrimaryKey} {batchSize : Nat} {rows : List DatabaseRow}
    (h : readBatched reader side evidence primaryKeys batchSize = .ok rows) :
    ∀ row ∈ rows, ∃ raw ∈ reader.rows side evidence,
      decodeEvidenceRow raw evidence.primaryKey = .ok row := by
  obtain ⟨batches, hbatches, h⟩ := bind_eq_ok.mp h
  obtain rfl := Except.ok.inj h
  intro row hrow
  obtain ⟨batch, hbatch, hrow⟩ := List.mem_flatten.mp hrow
  obtain ⟨keys, -, hkeys⟩ := exists_of_mem_results hbatches hbatch
  obtain ⟨answered, hanswer, hdecoded⟩ := bind_eq_ok.mp hkeys
  obtain ⟨raw, hraw, hdecode⟩ := exists_of_mem_results hdecoded hrow
  exact ⟨raw, reader.answer_mem hanswer raw hraw, hdecode⟩

theorem decodeEvidenceRow_ok {raw : EvidenceRow} {primaryKey : String} {row : DatabaseRow}
    (h : decodeEvidenceRow raw primaryKey = .ok row) :
    ∃ key, raw.text primaryKey = some key ∧ row.primaryKey = ⟨[key]⟩ ∧
      ∀ name, row.values.lookup name =
        (raw.columns.lookup name).map fun cell => mysqlValueString cell.value := by
  rw [decodeEvidenceRow] at h
  split at h
  · next key hkey =>
    obtain rfl := Except.ok.inj h
    exact ⟨key, hkey, rfl, lookup_map_values (fun cell => mysqlValueString cell.value) raw.columns⟩
  · cases h

/-- Two decoded rows with the same canonical values look the same. -/
theorem rowsAgree_of_lookup {raw other : EvidenceRow} {primaryKey : String} {row row' : DatabaseRow}
    (hrow : decodeEvidenceRow raw primaryKey = .ok row)
    (hrow' : decodeEvidenceRow other primaryKey = .ok row')
    (h : ∀ name, (row.values.lookup name).map (Option.map canonicalValue) =
      (row'.values.lookup name).map (Option.map canonicalValue)) :
    RowsAgree LooksSame raw other := by
  obtain ⟨-, -, -, hlookup⟩ := decodeEvidenceRow_ok hrow
  obtain ⟨-, -, -, hlookup'⟩ := decodeEvidenceRow_ok hrow'
  intro name
  have hname := h name
  rw [hlookup, hlookup'] at hname
  cases hcell : raw.columns.lookup name with
  | none =>
    cases hother : other.columns.lookup name with
    | none => exact .none
    | some cell =>
      rw [hcell, hother] at hname
      cases hname
  | some cell =>
    cases hother : other.columns.lookup name with
    | none =>
      rw [hcell, hother] at hname
      cases hname
    | some cell' =>
      rw [hcell, hother] at hname
      exact .some (Option.some.inj hname)

/-- Validated rows of a key are on both sides and look the same. -/
theorem validated_rows {reader : EvidenceReader} {evidence : EvidenceTable} {label : String}
    {keys : List PrimaryKey} {batchSize : Nat} {sourceRows targetRows : List DatabaseRow}
    (hsource : readBatched reader .source evidence keys batchSize = .ok sourceRows)
    (htarget : readBatched reader .target evidence keys batchSize = .ok targetRows)
    (hvalid : validateEqualRows label keys sourceRows targetRows = .ok ()) {id : String}
    (hid : ⟨[id]⟩ ∈ keys) :
    ∃ row ∈ sourceRows, ∃ raw other, decodeEvidenceRow raw evidence.primaryKey = .ok row ∧
      RowOf reader .source evidence id raw ∧ RowOf reader .target evidence id other ∧
      RowsAgree LooksSame raw other := by
  obtain ⟨row, hrow, row', hrow', hkey, hkey', hvalues⟩ := validateEqualRows_ok hvalid _ hid
  obtain ⟨raw, hraw, hdecode⟩ := readBatched_ok hsource row hrow
  obtain ⟨other, hother, hdecode'⟩ := readBatched_ok htarget row' hrow'
  obtain ⟨key, htext, hprimary, -⟩ := decodeEvidenceRow_ok hdecode
  obtain ⟨key', htext', hprimary', -⟩ := decodeEvidenceRow_ok hdecode'
  rw [hkey, PrimaryKey.mk.injEq, List.cons.injEq] at hprimary
  rw [hkey', PrimaryKey.mk.injEq, List.cons.injEq] at hprimary'
  obtain ⟨rfl, -⟩ := hprimary
  obtain ⟨rfl, -⟩ := hprimary'
  exact ⟨row, hrow, raw, other, hdecode, ⟨hraw, htext⟩, ⟨hother, htext'⟩,
    rowsAgree_of_lookup hdecode hdecode' hvalues⟩

theorem mem_referencedParentKeys {children : List DatabaseRow} {keys : List PrimaryKey}
    (h : referencedParentKeys children = .ok keys) {child : DatabaseRow} (hchild : child ∈ children)
    {utm : String} (hutm : child.get utmColumn = some (some utm)) : ⟨[utm]⟩ ∈ keys := by
  obtain ⟨parents, hparents, h⟩ := bind_eq_ok.mp h
  obtain rfl := Except.ok.inj h
  have hmem : Except.ok (some utm) ∈ parents.map (fun parent => (.ok parent : Except String (Option String))) := by
    rw [map_ok_of_mapM hparents]
    refine List.mem_map.mpr ⟨child, hchild, ?_⟩
    rw [hutm]
  obtain ⟨parent, hparent, hvalue⟩ := List.mem_map.mp hmem
  apply List.mem_map_of_mem
  rw [List.mem_insertionSort, List.mem_dedup, List.mem_filterMap]
  exact ⟨parent, hparent, Except.ok.inj hvalue⟩

/-! ## Accepted evidence -/

variable {json : CursorJson} {reader : EvidenceReader} {sourceIdentity : String}
  {ledger : List LedgerRow} {batchSize : Nat} {keys : List PrimaryKey} {parentCount : Nat}

/-- The keys of the conflicts of the run, one for each. -/
structure Examined (json : CursorJson) (sourceIdentity : String) (ledger : List LedgerRow)
    (keys : List PrimaryKey) : Prop where
  one : ∀ key ∈ keys, ∃ id, key = ⟨[id]⟩
  nodup : keys.Nodup
  perm : List.Perm (keys.map Except.ok)
    ((ledger.filter fun row => InScope sourceIdentity row).map fun row =>
      readPrimaryKey json row.sourcePrimaryKeyJson)

theorem Examined.exists_key (h : Examined json sourceIdentity ledger keys) {row : LedgerRow}
    (hrow : row ∈ ledger) (hscope : InScope sourceIdentity row) :
    ∃ id, ⟨[id]⟩ ∈ keys ∧ readPrimaryKey json row.sourcePrimaryKeyJson = .ok ⟨[id]⟩ := by
  have hmem : readPrimaryKey json row.sourcePrimaryKeyJson ∈ keys.map Except.ok := by
    rw [h.perm.mem_iff]
    exact List.mem_map_of_mem (List.mem_filter.mpr ⟨hrow, by simpa using hscope⟩)
  obtain ⟨key, hkey, hread⟩ := List.mem_map.mp hmem
  obtain ⟨id, rfl⟩ := h.one key hkey
  exact ⟨id, hkey, hread.symm⟩

theorem unresolvedPrimaryKeys_perm
    (h : unresolvedPrimaryKeys json sourceIdentity ledger = .ok keys) :
    List.Perm (keys.map Except.ok)
      ((ledger.filter fun row => InScope sourceIdentity row).map fun row =>
        readPrimaryKey json row.sourcePrimaryKeyJson) := by
  have hsorted := (List.perm_insertionSort (· ≤ ·)
    ((ledger.filter fun row => InScope sourceIdentity row).map
      LedgerRow.sourcePrimaryKeyJson)).map (readPrimaryKey json)
  rw [List.map_map] at hsorted
  rw [map_ok_of_mapM h]
  exact hsorted

theorem validatePrimaryKeys_ok (h : validatePrimaryKeys keys = .ok ()) :
    (∀ key ∈ keys, ∃ id, key = ⟨[id]⟩) ∧ keys.Nodup := by
  rw [validatePrimaryKeys] at h
  split_ifs at h with hlength hnodup
  refine ⟨fun key hkey => ?_, by simpa using hnodup⟩
  obtain ⟨values⟩ := key
  have hone : values.length = 1 := by
    by_contra hlong
    exact hlength (List.any_eq_true.mpr ⟨_, hkey, by simpa using hlong⟩)
  obtain ⟨id, rfl⟩ := List.length_eq_one_iff.mp hone
  exact ⟨id, rfl⟩

/-- Accepted evidence: the children of all keys and their parents are on both sides, and look the
same. -/
theorem readVerifiedEvidence_ok
    (h : readVerifiedEvidence json reader sourceIdentity ledger batchSize =
      .ok (keys, parentCount)) :
    Examined json sourceIdentity ledger keys ∧
      ∀ id, ⟨[id]⟩ ∈ keys → Verified reader LooksSame id := by
  obtain ⟨primaryKeys, hkeys, h⟩ := bind_eq_ok.mp h
  obtain ⟨⟨⟩, hvalid, h⟩ := bind_eq_ok.mp h
  obtain ⟨sourceChildren, hsource, h⟩ := bind_eq_ok.mp h
  obtain ⟨targetChildren, htarget, h⟩ := bind_eq_ok.mp h
  obtain ⟨⟨⟩, hchildren, h⟩ := bind_eq_ok.mp h
  obtain ⟨parentKeys, hparentKeys, h⟩ := bind_eq_ok.mp h
  obtain ⟨sourceParents, hsourceParents, h⟩ := bind_eq_ok.mp h
  obtain ⟨targetParents, htargetParents, h⟩ := bind_eq_ok.mp h
  obtain ⟨⟨⟩, hparents, h⟩ := bind_eq_ok.mp h
  obtain ⟨rfl, -⟩ := Prod.mk.inj (Except.ok.inj h)
  obtain ⟨hone, hnodup⟩ := validatePrimaryKeys_ok hvalid
  refine ⟨⟨hone, hnodup, unresolvedPrimaryKeys_perm hkeys⟩, fun id hid => ?_⟩
  obtain ⟨row, hrow, child, other, hdecode, hchild, hother, hagree⟩ :=
    validated_rows hsource htarget hchildren hid
  refine ⟨child, other, hchild, hother, hagree, fun utm hutm => ?_⟩
  obtain ⟨-, -, -, hlookup⟩ := decodeEvidenceRow_ok hdecode
  have hget : row.get utmColumn = some (some utm) := by
    rw [DatabaseRow.get, hlookup]
    obtain ⟨cell, hcell, hvalue⟩ := Option.bind_eq_some_iff.mp hutm
    rw [hcell, Option.map_some, hvalue]
  obtain ⟨-, -, parent, other, -, hparent, hparentOther, hparentAgree⟩ :=
    validated_rows hsourceParents htargetParents hparents
      (mem_referencedParentKeys hparentKeys hrow hget)
  exact ⟨parent, other, hparent, hparentOther, hparentAgree⟩

/-! ## Writes -/

variable {repairRunId evidence : String} {fails : PrimaryKey → Option String}

/-- The update of some keys finds the row. -/
def Selected (json : CursorJson) (keys : List PrimaryKey) (row : LedgerRow) : Prop :=
  row.tableName = table ∧ row.status = .unresolved ∧
    ∃ key ∈ keys, row.sourcePrimaryKeyJson = jsonString json key

instance (keys : List PrimaryKey) (row : LedgerRow) : Decidable (Selected json keys row) :=
  inferInstanceAs (Decidable (_ ∧ _ ∧ _))

/-- The row after the updates of some keys. -/
def resolveRow (json : CursorJson) (repairRunId evidence : String) (keys : List PrimaryKey)
    (row : LedgerRow) : LedgerRow :=
  if Selected json keys row then row.resolve repairRunId evidence else row

theorem map_resolveRow_nil (ledger : List LedgerRow) :
    ledger.map (resolveRow json repairRunId evidence []) = ledger := by
  have hrow : resolveRow json repairRunId evidence [] = id := by
    funext row
    rw [resolveRow, if_neg]
    · rfl
    · rintro ⟨-, -, key, hkey, -⟩
      cases hkey
  rw [hrow, List.map_id]

/-- A resolved row is not updated again. -/
theorem resolveRow_cons (key : PrimaryKey) (row : LedgerRow) :
    resolveRow json repairRunId evidence keys
        (if row.tableName = table ∧ row.sourcePrimaryKeyJson = jsonString json key ∧
            row.status = .unresolved then row.resolve repairRunId evidence else row) =
      resolveRow json repairRunId evidence (key :: keys) row := by
  by_cases hfound : row.tableName = table ∧ row.sourcePrimaryKeyJson = jsonString json key ∧
      row.status = .unresolved
  · have hselected : Selected json (key :: keys) row :=
      ⟨hfound.1, hfound.2.2, key, List.mem_cons_self, hfound.2.1⟩
    have hresolved : ¬Selected json keys (row.resolve repairRunId evidence) := by
      rintro ⟨-, hstatus, -⟩
      cases hstatus
    rw [if_pos hfound, resolveRow, resolveRow, if_neg hresolved, if_pos hselected]
  · have hiff : Selected json keys row ↔ Selected json (key :: keys) row := by
      unfold Selected
      constructor
      · rintro ⟨htable, hstatus, other, hother, hjson⟩
        exact ⟨htable, hstatus, other, List.mem_cons_of_mem _ hother, hjson⟩
      · rintro ⟨htable, hstatus, other, hother, hjson⟩
        rcases List.mem_cons.mp hother with rfl | hother
        · exact absurd ⟨htable, hjson, hstatus⟩ hfound
        · exact ⟨htable, hstatus, other, hother, hjson⟩
    rw [if_neg hfound, resolveRow, resolveRow]
    simp only [hiff]

/-- The updates select by the keys before the first that fails. -/
theorem resolveKeys_eq (ledger : List LedgerRow) :
    (resolveKeys json fails repairRunId evidence keys ledger).2 =
      ledger.map (resolveRow json repairRunId evidence
        (keys.takeWhile fun key => (fails key).isNone)) := by
  induction keys generalizing ledger with
  | nil => rw [resolveKeys, List.takeWhile_nil, map_resolveRow_nil]
  | cons key keys ih =>
    rw [resolveKeys, List.takeWhile_cons]
    cases hfails : fails key with
    | some error =>
      simp only [Option.isNone_some, Bool.false_eq_true, if_false]
      rw [map_resolveRow_nil]
    | none =>
      simp only [Option.isNone_none, if_true]
      rw [ih, resolveIfEqual, List.map_map]
      apply List.map_congr_left
      intro row _
      exact resolveRow_cons key row

theorem resolveKeys_ok
    (h : (resolveKeys json fails repairRunId evidence keys ledger).1 = .ok ()) :
    keys.takeWhile (fun key => (fails key).isNone) = keys := by
  induction keys generalizing ledger with
  | nil => rfl
  | cons key keys ih =>
    rw [resolveKeys] at h
    cases hfails : fails key with
    | some error =>
      rw [hfails] at h
      cases h
    | none =>
      rw [hfails] at h
      rw [List.takeWhile_cons, hfails, Option.isNone_none, if_pos rfl, ih h]

theorem resolveKeys_of_no_failure :
    (resolveKeys json (fun _ => none) repairRunId evidence keys ledger).1 = .ok () := by
  induction keys generalizing ledger with
  | nil => rfl
  | cons key keys ih => exact ih

/-! ## Runs -/

/-- A conflict whose evidence is the same on both sides. -/
def VerifiedRow (json : CursorJson) (reader : EvidenceReader) (row : LedgerRow) : Prop :=
  ∃ id, readPrimaryKey json row.sourcePrimaryKeyJson = .ok ⟨[id]⟩ ∧ Verified reader SameCell id

/-- No evidence is missing, duplicated or divergent. -/
structure EvidenceComplete (json : CursorJson) (reader : EvidenceReader) (sourceIdentity : String)
    (ledger : List LedgerRow) : Prop where
  verified : ∀ row ∈ ledger, InScope sourceIdentity row → VerifiedRow json reader row
  nodup : ((ledger.filter fun row => InScope sourceIdentity row).map fun row =>
    readPrimaryKey json row.sourcePrimaryKeyJson).Nodup

/-- What a run promises: it marks verified conflicts of its source only, all of them when it succeeds,
and none when the evidence is not complete. -/
structure Resolves (json : CursorJson) (reader : EvidenceReader)
    (sourceIdentity repairRunId : String) (ledger : List LedgerRow)
    (run : Except String TargetedConflictResolutionReport × List LedgerRow) : Prop where
  frame : List.Forall₂ (fun before after => after = before ∨ InScope sourceIdentity before ∧
    VerifiedRow json reader before ∧
    ∃ evidence, after = LedgerRow.resolve before repairRunId evidence) ledger run.2
  complete : ∀ report, run.1 = .ok report →
    List.Forall₂ (fun before after => InScope sourceIdentity before →
      ∃ evidence, after = LedgerRow.resolve before repairRunId evidence) ledger run.2
  refused : ¬EvidenceComplete json reader sourceIdentity ledger → run.2 = ledger

/-- The keys of the run are stored as the program writes them, no other unresolved conflict of the
table has one of them, and no values that differ look the same. -/
structure Unambiguous (json : CursorJson) (reader : EvidenceReader) (sourceIdentity : String)
    (ledger : List LedgerRow) (keys : List PrimaryKey) : Prop where
  canonical : ∀ row ∈ ledger, InScope sourceIdentity row → ∀ key,
    readPrimaryKey json row.sourcePrimaryKeyJson = .ok key →
      row.sourcePrimaryKeyJson = jsonString json key
  own : ∀ row ∈ ledger, Selected json keys row → InScope sourceIdentity row
  children : ∀ id child other, ⟨[id]⟩ ∈ keys → RowOf reader .source .children id child →
    RowOf reader .target .children id other → RowsAgree LooksSame child other →
    RowsAgree SameCell child other
  parents : ∀ id child utm parent other, ⟨[id]⟩ ∈ keys → RowOf reader .source .children id child →
    child.text utmColumn = some utm → RowOf reader .source .parents utm parent →
    RowOf reader .target .parents utm other → RowsAgree LooksSame parent other →
    RowsAgree SameCell parent other

theorem Unambiguous.verified (h : Unambiguous json reader sourceIdentity ledger keys) {id : String}
    (hid : ⟨[id]⟩ ∈ keys) (hlooks : Verified reader LooksSame id) :
    Verified reader SameCell id := by
  obtain ⟨child, other, hchild, hother, hagree, hparents⟩ := hlooks
  refine ⟨child, other, hchild, hother, h.children id child other hid hchild hother hagree, ?_⟩
  intro utm hutm
  obtain ⟨parent, parentOther, hparent, hparentOther, hparentAgree⟩ := hparents utm hutm
  exact ⟨parent, parentOther, hparent, hparentOther,
    h.parents id child utm parent parentOther hid hchild hutm hparent hparentOther hparentAgree⟩

/-- A selected row of a run whose conflicts are its own is verified. -/
theorem Unambiguous.verifiedRow (h : Unambiguous json reader sourceIdentity ledger keys)
    (hexamined : Examined json sourceIdentity ledger keys)
    (hlooks : ∀ id, ⟨[id]⟩ ∈ keys → Verified reader LooksSame id) {row : LedgerRow}
    (hrow : row ∈ ledger) (hscope : InScope sourceIdentity row) : VerifiedRow json reader row := by
  obtain ⟨id, hid, hread⟩ := hexamined.exists_key hrow hscope
  exact ⟨id, hread, h.verified hid (hlooks id hid)⟩

theorem Examined.complete (hexamined : Examined json sourceIdentity ledger keys)
    (h : Unambiguous json reader sourceIdentity ledger keys)
    (hlooks : ∀ id, ⟨[id]⟩ ∈ keys → Verified reader LooksSame id) :
    EvidenceComplete json reader sourceIdentity ledger := by
  refine ⟨fun row hrow hscope => h.verifiedRow hexamined hlooks hrow hscope, ?_⟩
  rw [← hexamined.perm.nodup_iff]
  exact hexamined.nodup.map fun _ _ => Except.ok.inj

/-- The run when the evidence is accepted. -/
theorem run_of_accepted (fails : PrimaryKey → Option String) (repairRunId : String)
    (hbatch : 0 < batchSize)
    (h : readVerifiedEvidence json reader sourceIdentity ledger batchSize =
      .ok (keys, parentCount)) :
    ∃ evidence, (resolveComicsReleasesViewsConflicts json reader fails sourceIdentity repairRunId
        batchSize ledger).2 =
        ledger.map (resolveRow json repairRunId evidence
          (keys.takeWhile fun key => (fails key).isNone)) ∧
      ((∃ report, (resolveComicsReleasesViewsConflicts json reader fails sourceIdentity repairRunId
        batchSize ledger).1 = .ok report) →
        keys.takeWhile (fun key => (fails key).isNone) = keys) ∧
      (fails = (fun _ => none) → ∃ report, (resolveComicsReleasesViewsConflicts json reader fails
        sourceIdentity repairRunId batchSize ledger).1 = .ok report) := by
  have hpos : batchSize ≠ 0 := Nat.ne_of_gt hbatch
  refine ⟨equalityEvidence keys.length parentCount, ?_, ?_, ?_⟩
  · simp only [resolveComicsReleasesViewsConflicts, if_neg hpos, h]
    exact resolveKeys_eq ledger
  · simp only [resolveComicsReleasesViewsConflicts, if_neg hpos, h]
    rintro ⟨report, hreport⟩
    apply resolveKeys_ok
    cases hresult : (resolveKeys json fails repairRunId _ keys ledger).1 with
    | ok _ => rfl
    | error error =>
      rw [hresult] at hreport
      cases hreport
  · rintro rfl
    simp only [resolveComicsReleasesViewsConflicts, if_neg hpos, h, resolveKeys_of_no_failure]
    exact ⟨_, rfl⟩

theorem run_of_refused (fails : PrimaryKey → Option String) (repairRunId : String)
    (h : ∀ keys parentCount, readVerifiedEvidence json reader sourceIdentity ledger batchSize ≠
      .ok (keys, parentCount)) :
    ∃ error, resolveComicsReleasesViewsConflicts json reader fails sourceIdentity repairRunId
      batchSize ledger = (.error error, ledger) := by
  unfold resolveComicsReleasesViewsConflicts
  by_cases hzero : batchSize = 0
  · exact ⟨_, if_pos hzero⟩
  · rw [if_neg hzero]
    cases hread : readVerifiedEvidence json reader sourceIdentity ledger batchSize with
    | error error => exact ⟨error, rfl⟩
    | ok result => exact absurd hread (h result.1 result.2)

/-- An unambiguous ledger is resolved as promised, whatever update fails. -/
theorem resolves_of_unambiguous (fails : PrimaryKey → Option String) (repairRunId : String)
    (hbatch : 0 < batchSize)
    (haccepted : readVerifiedEvidence json reader sourceIdentity ledger batchSize =
      .ok (keys, parentCount))
    (h : Unambiguous json reader sourceIdentity ledger keys) :
    Resolves json reader sourceIdentity repairRunId ledger
      (resolveComicsReleasesViewsConflicts json reader fails sourceIdentity repairRunId batchSize
        ledger) := by
  obtain ⟨hexamined, hlooks⟩ := readVerifiedEvidence_ok haccepted
  obtain ⟨evidence, hafter, hreport, -⟩ := run_of_accepted fails repairRunId hbatch haccepted
  refine ⟨?_, ?_, fun hnot => absurd (hexamined.complete h hlooks) hnot⟩
  · rw [hafter, List.forall₂_map_right_iff, List.forall₂_same]
    intro row hrow
    rw [resolveRow]
    split_ifs with hselected
    · obtain ⟨htable, hstatus, key, hkey, hjson⟩ := hselected
      have hscope := h.own row hrow ⟨htable, hstatus, key,
        (List.takeWhile_sublist _).subset hkey, hjson⟩
      exact .inr ⟨hscope, h.verifiedRow hexamined hlooks hrow hscope, evidence, rfl⟩
    · exact .inl rfl
  · intro report hok
    rw [hafter, hreport ⟨report, hok⟩, List.forall₂_map_right_iff, List.forall₂_same]
    intro row hrow hscope
    obtain ⟨id, hid, hread⟩ := hexamined.exists_key hrow hscope
    have hselected : Selected json keys row :=
      ⟨hscope.2.2.1, hscope.2.2.2, _, hid, h.canonical row hrow hscope _ hread⟩
    exact ⟨evidence, by rw [resolveRow, if_pos hselected]⟩

theorem readPrimaryKey_jsonString (key : PrimaryKey) :
    readPrimaryKey json (jsonString json key) = .ok key := by
  obtain ⟨values⟩ := key
  rw [readPrimaryKey, jsonString, String.toList_ofList, json.read_write]
  simp

/-- A run without failures that keeps its promise shows that the ledger is unambiguous. -/
theorem unambiguous_of_resolves (repairRunId : String) (hbatch : 0 < batchSize)
    (haccepted : readVerifiedEvidence json reader sourceIdentity ledger batchSize =
      .ok (keys, parentCount))
    (h : Resolves json reader sourceIdentity repairRunId ledger
      (resolveComicsReleasesViewsConflicts json reader (fun _ => none) sourceIdentity repairRunId
        batchSize ledger)) :
    Unambiguous json reader sourceIdentity ledger keys := by
  obtain ⟨hexamined, hlooks⟩ := readVerifiedEvidence_ok haccepted
  obtain ⟨evidence, hafter, hreport, hok⟩ :=
    run_of_accepted (fun _ => none) repairRunId hbatch haccepted
  obtain ⟨report, hresult⟩ := hok rfl
  have hframe := h.frame
  have hcomplete := h.complete report hresult
  rw [hafter, hreport ⟨report, hresult⟩, List.forall₂_map_right_iff, List.forall₂_same]
    at hframe hcomplete
  have hmarked : ∀ row ∈ ledger, InScope sourceIdentity row → Selected json keys row := by
    intro row hrow hscope
    obtain ⟨evidence', hrowAfter⟩ := hcomplete row hrow hscope
    by_contra hnot
    rw [resolveRow, if_neg hnot] at hrowAfter
    have hstatus := congrArg LedgerRow.status hrowAfter
    rw [hscope.2.2.2] at hstatus
    cases hstatus
  have hown : ∀ row ∈ ledger, Selected json keys row →
      InScope sourceIdentity row ∧ VerifiedRow json reader row := by
    intro row hrow hselected
    rcases hframe row hrow with hsame | ⟨hscope, hverified, -⟩
    · rw [resolveRow, if_pos hselected] at hsame
      have hstatus := congrArg LedgerRow.status hsame
      rw [hselected.2.1] at hstatus
      cases hstatus
    · exact ⟨hscope, hverified⟩
  -- Every examined key is the key of a conflict of the run, which is marked and so verified.
  have hverified : ∀ id, ⟨[id]⟩ ∈ keys → Verified reader SameCell id := by
    intro id hid
    have hmem : Except.ok ⟨[id]⟩ ∈ keys.map (Except.ok : PrimaryKey → Except String PrimaryKey) :=
      List.mem_map_of_mem hid
    rw [hexamined.perm.mem_iff] at hmem
    obtain ⟨row, hrow, hread⟩ := List.mem_map.mp hmem
    obtain ⟨hrow, hscope⟩ := List.mem_filter.mp hrow
    obtain ⟨-, id', hread', hverified⟩ :=
      hown row hrow (hmarked row hrow (of_decide_eq_true hscope))
    rw [hread] at hread'
    have hids := congrArg PrimaryKey.values (Except.ok.inj hread')
    obtain rfl := List.singleton_inj.mp hids
    exact hverified
  refine ⟨?_, fun row hrow hselected => (hown row hrow hselected).1, ?_, ?_⟩
  · intro row hrow hscope key hread
    obtain ⟨-, -, other, -, hjson⟩ := hmarked row hrow hscope
    rw [hjson, readPrimaryKey_jsonString] at hread
    rw [hjson, Except.ok.inj hread]
  · intro id child other hid hchild hother _
    obtain ⟨child', other', hchild', hother', hagree, -⟩ := hverified id hid
    rw [hchild.unique hchild', hother.unique hother']
    exact hagree
  · intro id child utm parent other hid hchild hutm hparent hother _
    obtain ⟨child', -, hchild', -, -, hparents⟩ := hverified id hid
    rw [hchild.unique hchild'] at hutm
    obtain ⟨parent', other', hparent', hother', hagree⟩ := hparents utm hutm
    rw [hparent.unique hparent', hother.unique hother']
    exact hagree

/-- Runs keep their promise, whatever update fails, exactly when accepted evidence is about a ledger
that is unambiguous. -/
theorem resolveComicsReleasesViewsConflicts_iff (json : CursorJson) (reader : EvidenceReader)
    (sourceIdentity repairRunId : String) (ledger : List LedgerRow) {batchSize : Nat}
    (hbatch : 0 < batchSize) :
    (∀ fails, Resolves json reader sourceIdentity repairRunId ledger
      (resolveComicsReleasesViewsConflicts json reader fails sourceIdentity repairRunId batchSize
        ledger)) ↔
    ∀ keys parentCount, readVerifiedEvidence json reader sourceIdentity ledger batchSize =
      .ok (keys, parentCount) → Unambiguous json reader sourceIdentity ledger keys := by
  constructor
  · intro h keys parentCount haccepted
    exact unambiguous_of_resolves repairRunId hbatch haccepted (h fun _ => none)
  · intro h fails
    by_cases haccepted : ∃ keys parentCount,
        readVerifiedEvidence json reader sourceIdentity ledger batchSize = .ok (keys, parentCount)
    · obtain ⟨keys, parentCount, haccepted⟩ := haccepted
      exact resolves_of_unambiguous fails repairRunId hbatch haccepted (h keys parentCount haccepted)
    · obtain ⟨error, hrun⟩ := run_of_refused fails repairRunId fun keys parentCount hread =>
        haccepted ⟨keys, parentCount, hread⟩
      rw [hrun]
      refine ⟨?_, nofun, fun _ => rfl⟩
      exact List.forall₂_same.mpr fun row _ => .inl rfl

/-! ## A ledger with two sources -/

/-- A child without a parent, the same on both sides. -/
def plainChild : EvidenceRow where
  columns := [("view_id", { temporal := false, value := some [49] }),
    ("utm_id", { temporal := false, value := none })]
  nodup := by decide

def plainRows : EvidenceTable → List EvidenceRow
  | .children => [plainChild]
  | .parents => []

def plainReader : EvidenceReader where
  rows _ evidence := plainRows evidence
  unique := by
    intro _ evidence row hrow other hother _
    cases evidence with
    | children => rw [List.mem_singleton.mp hrow, List.mem_singleton.mp hother]
    | parents => cases hrow
  answer _ evidence _ := .ok (plainRows evidence)
  answer_mem := by
    rintro _ evidence _ _ ⟨⟩ row hrow
    exact hrow

/-- The unresolved conflict of the child at a source. -/
def conflictOf (sourceIdentity : String) : LedgerRow where
  sourceIdentity
  schemaName := schema
  tableName := table
  sourcePrimaryKeyJson := "[\"1\"]"
  status := .unresolved
  repairRunId := none
  resolutionEvidence := none

/-- The run of one source resolves its only conflict. -/
theorem resolveComicsReleasesViewsConflicts_iff_oneSource :
    Resolves compactJson plainReader "a" "run-1" [conflictOf "a"]
      (resolveComicsReleasesViewsConflicts compactJson plainReader (fun _ => none) "a" "run-1" 1000
        [conflictOf "a"]) := by
  refine (resolveComicsReleasesViewsConflicts_iff compactJson plainReader "a" "run-1"
    [conflictOf "a"] (by decide)).mpr (fun keys parentCount haccepted => ?_) fun _ => none
  have hread : readPrimaryKey compactJson (conflictOf "a").sourcePrimaryKeyJson = .ok ⟨["1"]⟩ := by
    decide +kernel
  have hchild : ∀ side id row, RowOf plainReader side .children id row → row = plainChild :=
    fun _ _ _ h => List.mem_singleton.mp h.1
  refine ⟨?_, ?_, ?_, ?_⟩
  · intro row hrow _ key hkey
    rw [List.mem_singleton.mp hrow] at hkey ⊢
    rw [hread] at hkey
    rw [← Except.ok.inj hkey]
    decide +kernel
  · intro row hrow _
    rw [List.mem_singleton.mp hrow]
    decide
  · intro id child other _ hrow hother _ column
    rw [hchild _ _ _ hrow, hchild _ _ _ hother]
    cases plainChild.columns.lookup column with
    | none => exact .none
    | some cell => exact .some (.inl rfl)
  · intro id child utm parent other _ _ _ hparent
    cases hparent.1

/-- The run of one source marks the conflict of another source with the same key. -/
theorem run_marks_other_source :
    ¬∀ fails, Resolves compactJson plainReader "a" "run-1" [conflictOf "a", conflictOf "b"]
      (resolveComicsReleasesViewsConflicts compactJson plainReader fails "a" "run-1" 1000
        [conflictOf "a", conflictOf "b"]) := by
  intro h
  have hframe := (h fun _ => none).frame
  have hrun : (resolveComicsReleasesViewsConflicts compactJson plainReader (fun _ => none) "a" "run-1"
      1000 [conflictOf "a", conflictOf "b"]).2 =
      [(conflictOf "a").resolve "run-1" (equalityEvidence 1 0),
        (conflictOf "b").resolve "run-1" (equalityEvidence 1 0)] := by
    decide +kernel
  rw [hrun] at hframe
  cases hframe with
  | cons _ hrest =>
    cases hrest with
    | cons hother _ =>
      rcases hother with hsame | ⟨hscope, -⟩
      · exact absurd (congrArg LedgerRow.status hsame) (by decide)
      · exact absurd hscope.1 (by decide)

end ConflictResolution

end BinlogCdc
