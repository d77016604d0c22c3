import BinlogCdc.Core.Result
import BinlogCdc.Core.Utf8
import BinlogCdc.Sync.CursorJson
import BinlogCdc.Sync.Model

/-!
# Resolving the conflicts of one table

The unresolved conflicts of a table are resolved when the rows they are about are the same on both
sides. The evidence is read before anything is written: the child rows in batches, then the parents
that they reference. The ledger is updated by the name of the table and the text of the key.
-/

namespace BinlogCdc

namespace ConflictResolution

/-- The table whose conflicts are resolved. -/
def table : String := "comics_releases_views"

def utmColumn : String := "utm_id"

def schema : String := "globalcomix"

/-! ## Evidence -/

/-- A value as the server sends it, in a column that may be of dates or times. -/
structure EvidenceCell where
  temporal : Bool
  value : Option (List UInt8)
deriving DecidableEq, Repr

/-- A row of a table. -/
structure EvidenceRow where
  columns : List (String × EvidenceCell)
  nodup : (columns.map Prod.fst).Nodup

inductive EvidenceSide where
  | source
  | target
deriving DecidableEq, Repr

inductive EvidenceTable where
  | children
  | parents
deriving DecidableEq, Repr

def EvidenceTable.primaryKey : EvidenceTable → String
  | .children => "view_id"
  | .parents => "id"

def mysqlValueString (value : Option (List UInt8)) : Option String := value.map Core.fromUtf8Lossy

/-- The text of a column, if the row has the column and a value there. -/
def EvidenceRow.text (row : EvidenceRow) (column : String) : Option String :=
  (row.columns.lookup column).bind fun cell => mysqlValueString cell.value

def decodeEvidenceRow (row : EvidenceRow) (primaryKey : String) : Except String DatabaseRow :=
  match row.text primaryKey with
  | some key =>
    .ok
      { primaryKey := ⟨[key]⟩
        values := row.columns.map fun (name, cell) => (name, mysqlValueString cell.value) }
  | none => .error ("evidence row is missing primary key `" ++ primaryKey ++ "`")

/-- The tables of both sides and the answers of their servers: rows of the table, or an error. -/
structure EvidenceReader where
  rows : EvidenceSide → EvidenceTable → List EvidenceRow
  unique : ∀ side evidence, ∀ row ∈ rows side evidence, ∀ other ∈ rows side evidence,
    row.text evidence.primaryKey = other.text evidence.primaryKey → row = other
  answer : EvidenceSide → EvidenceTable → List PrimaryKey → Except String (List EvidenceRow)
  answer_mem : ∀ {side evidence keys answered}, answer side evidence keys = .ok answered →
    ∀ row ∈ answered, row ∈ rows side evidence

/-- Rows read in batches. -/
def readBatched (reader : EvidenceReader) (side : EvidenceSide) (evidence : EvidenceTable)
    (primaryKeys : List PrimaryKey) (batchSize : Nat) : Except String (List DatabaseRow) := do
  let batches ← (primaryKeys.toChunks batchSize).mapM fun batch => do
    let rows ← reader.answer side evidence batch
    rows.mapM fun row => decodeEvidenceRow row evidence.primaryKey
  return batches.flatten

def validatePrimaryKeys (primaryKeys : List PrimaryKey) : Except String Unit :=
  if primaryKeys.any fun key => key.values.length != 1 then
    .error "comics_releases_views conflicts require one-column primary keys"
  else if decide primaryKeys.Nodup then .ok ()
  else .error "targeted conflict evidence contains duplicate primary keys"

def microsSuffix : List Char := ".000000".toList

/-- A value without the fraction of a whole second. -/
def canonicalValue (value : String) : String :=
  if microsSuffix.isSuffixOf value.toList then
    String.ofList (value.toList.take (value.toList.length - microsSuffix.length))
  else value

abbrev CanonicalRow := List (String × Option String)

def canonicalRowsByKey (rows : List DatabaseRow) :
    Except String (List (PrimaryKey × CanonicalRow)) :=
  if decide (rows.map DatabaseRow.primaryKey).Nodup then
    .ok (rows.map fun row =>
      (row.primaryKey, row.values.map fun (name, value) => (name, value.map canonicalValue)))
  else .error "targeted conflict evidence contains duplicate rows"

/-- The rows have the same columns with the same values. -/
def sameValues (values others : CanonicalRow) : Bool :=
  (values.all fun (name, value) => others.lookup name == some value) &&
    others.all fun (name, value) => values.lookup name == some value

def sameKeys (keys others : List PrimaryKey) : Bool :=
  (keys.all fun key => others.contains key) && others.all fun key => keys.contains key

def validateEqualRows (label : String) (expectedKeys : List PrimaryKey)
    (sourceRows targetRows : List DatabaseRow) : Except String Unit := do
  let source ← canonicalRowsByKey sourceRows
  let target ← canonicalRowsByKey targetRows
  if !sameKeys (source.map Prod.fst) expectedKeys || !sameKeys (target.map Prod.fst) expectedKeys then
    .error (label ++ " evidence is missing or stale")
  else if source.all fun (key, values) => (target.lookup key).any (sameValues values) then .ok ()
  else .error (label ++ " source/target rows diverge")

/-- The parents that the children reference, each once. -/
def referencedParentKeys (children : List DatabaseRow) : Except String (List PrimaryKey) := do
  let parents ← children.mapM fun child =>
    match child.get utmColumn with
    | some parent => .ok parent
    | none => .error "child evidence is missing utm_id"
  return ((parents.filterMap id).dedup.insertionSort (· ≤ ·)).map fun parent => ⟨[parent]⟩

/-! ## The ledger -/

inductive LedgerStatus where
  | unresolved
  | resolved
deriving DecidableEq, Repr

/-- A row of the ledger; its other columns do not matter here. -/
structure LedgerRow where
  sourceIdentity : String
  schemaName : String
  tableName : String
  sourcePrimaryKeyJson : String
  status : LedgerStatus
  repairRunId : Option String
  resolutionEvidence : Option String
deriving DecidableEq, Repr

/-- The conflicts that a run is about. -/
def InScope (sourceIdentity : String) (row : LedgerRow) : Prop :=
  row.sourceIdentity = sourceIdentity ∧ row.schemaName = schema ∧ row.tableName = table ∧
    row.status = .unresolved

instance (sourceIdentity : String) (row : LedgerRow) : Decidable (InScope sourceIdentity row) :=
  inferInstanceAs (Decidable (_ ∧ _ ∧ _ ∧ _))

variable (json : CursorJson)

/-- The text of a key in the ledger. -/
def jsonString (primaryKey : PrimaryKey) : String :=
  String.ofList (json.write (primaryKey.values.map String.toList))

def readPrimaryKey (text : String) : Except String PrimaryKey :=
  match json.read text.toList with
  | .ok key => .ok ⟨key.map String.ofList⟩
  | .error error => .error ("invalid conflict primary key JSON: " ++ error)

def unresolvedPrimaryKeys (sourceIdentity : String) (ledger : List LedgerRow) :
    Except String (List PrimaryKey) :=
  ((((ledger.filter fun row => InScope sourceIdentity row).map
    LedgerRow.sourcePrimaryKeyJson).insertionSort (· ≤ ·))).mapM (readPrimaryKey json)

/-- The row of a resolved conflict. -/
def LedgerRow.resolve (row : LedgerRow) (repairRunId evidence : String) : LedgerRow :=
  { row with
    status := .resolved
    repairRunId := some repairRunId
    resolutionEvidence := some evidence }

/-- The update of a key: the table, the text of the key and the status are compared. -/
def resolveIfEqual (rowTable : String) (primaryKey : PrimaryKey) (repairRunId evidence : String)
    (ledger : List LedgerRow) : List LedgerRow :=
  ledger.map fun row =>
    if row.tableName = rowTable ∧ row.sourcePrimaryKeyJson = jsonString json primaryKey ∧
        row.status = .unresolved then
      row.resolve repairRunId evidence
    else row

/-- The updates one after the other, until one of them fails. -/
def resolveKeys (fails : PrimaryKey → Option String) (repairRunId evidence : String) :
    List PrimaryKey → List LedgerRow → Except String Unit × List LedgerRow
  | [], ledger => (.ok (), ledger)
  | key :: keys, ledger =>
    match fails key with
    | some error => (.error ("conflict ledger resolution failed: " ++ error), ledger)
    | none =>
      resolveKeys fails repairRunId evidence keys
        (resolveIfEqual json table key repairRunId evidence ledger)

/-! ## The run -/

def readVerifiedEvidence (reader : EvidenceReader) (sourceIdentity : String)
    (ledger : List LedgerRow) (batchSize : Nat) : Except String (List PrimaryKey × Nat) := do
  let primaryKeys ← unresolvedPrimaryKeys json sourceIdentity ledger
  validatePrimaryKeys primaryKeys
  let sourceChildren ← readBatched reader .source .children primaryKeys batchSize
  let targetChildren ← readBatched reader .target .children primaryKeys batchSize
  validateEqualRows "child" primaryKeys sourceChildren targetChildren
  let parentKeys ← referencedParentKeys sourceChildren
  let sourceParents ← readBatched reader .source .parents parentKeys batchSize
  let targetParents ← readBatched reader .target .parents parentKeys batchSize
  validateEqualRows "UTM parent" parentKeys sourceParents targetParents
  return (primaryKeys, parentKeys.length)

structure TargetedConflictResolutionReport where
  examined : Nat
  resolved : Nat
deriving DecidableEq, Repr

/-- The text that a resolved conflict keeps. -/
def equalityEvidence (conflicts parents : Nat) : String :=
  "targeted source/target equality for " ++ toString conflicts ++ " conflict rows and " ++
    toString parents ++ " referenced UTM parents"

/-- A run: its result, and the ledger after it. -/
def resolveComicsReleasesViewsConflicts (reader : EvidenceReader)
    (fails : PrimaryKey → Option String) (sourceIdentity repairRunId : String) (batchSize : Nat)
    (ledger : List LedgerRow) :
    Except String TargetedConflictResolutionReport × List LedgerRow :=
  if batchSize = 0 then (.error "targeted conflict batch size must be positive", ledger)
  else
    match readVerifiedEvidence json reader sourceIdentity ledger batchSize with
    | .error error => (.error error, ledger)
    | .ok (primaryKeys, parentCount) =>
      let evidence := equalityEvidence primaryKeys.length parentCount
      let (result, ledger) := resolveKeys json fails repairRunId evidence primaryKeys ledger
      (result.map fun _ => { examined := primaryKeys.length, resolved := primaryKeys.length }, ledger)

end ConflictResolution

end BinlogCdc
