import BinlogCdc.Core.Result
import BinlogCdc.Sql.CaseUpdateRules
import BinlogCdc.Sync.BoundPredicate
import BinlogCdc.Sync.Session

/-!
# The statement of an update batch

The rows of a batch are written with one prepared UPDATE. Every column outside the primary key is set
by a CASE with a branch for each row, and the keys of the rows are listed once more in the filter. The
parameters are in the order of the text: column after column, in each column row after row, then the
keys.
-/

namespace BinlogCdc

/-! ## Tables of an inventory -/

/-- The first name that was there before. -/
def duplicateName (seen : List String) : List String → Option String
  | [] => none
  | name :: names => if name ∈ seen then some name else duplicateName (name :: seen) names

theorem nodup_of_duplicateName {seen names : List String} (h : duplicateName seen names = none) :
    names.Nodup ∧ ∀ name ∈ names, name ∉ seen := by
  induction names generalizing seen with
  | nil => exact ⟨List.nodup_nil, fun _ hname => by cases hname⟩
  | cons name names ih =>
    rw [duplicateName] at h
    by_cases hseen : name ∈ seen
    · rw [if_pos hseen] at h
      cases h
    · rw [if_neg hseen] at h
      obtain ⟨hnodup, hrest⟩ := ih h
      refine ⟨List.nodup_cons.mpr ⟨fun hname => hrest name hname List.mem_cons_self, hnodup⟩, ?_⟩
      rw [List.forall_mem_cons]
      exact ⟨hseen, fun other hother hmem => hrest other hother (List.mem_cons_of_mem name hmem)⟩

def validatePrimaryKey (table : TableInventory) : Except String Unit :=
  if table.primaryKey.isEmpty then .error s!"table `{table.name}` has no primary key"
  else
    match duplicateName [] table.primaryKey with
    | some column =>
      .error s!"primary-key column `{column}` is duplicated in `{table.name}` inventory"
    | none => .ok ()

/-- The ordering of a primary key column, which is there and can be written. -/
def primaryKeyOrdering (table : TableInventory) (primaryKey : String) :
    Except String PrimaryKeyOrdering :=
  match table.columns.find? fun column => column.name == primaryKey with
  | none => .error s!"primary-key column `{primaryKey}` is absent from `{table.name}` inventory"
  | some column =>
    if column.generated.isSome then
      .error s!"primary-key column `{primaryKey}` is not writable in `{table.name}`"
    else
      match parseEnumColumnType column.columnType with
      | some labels => .ok (.enum labels)
      | none => .ok .native

/-- The columns of a data type that can be written. -/
def writableColumnsOfType (table : TableInventory) (dataType : String) : List String :=
  (table.columns.filter fun column => column.generated.isNone &&
    Text.eqIgnoreAsciiCase column.dataType.toList dataType.toList).map ColumnInventory.name

theorem writableColumns_nodup {table : TableInventory}
    (h : (table.columns.map ColumnInventory.name).Nodup) : (writableColumns table).Nodup :=
  h.sublist (List.filter_sublist.map ColumnInventory.name)

/-- The table to sync of an inventory table. -/
def syncTableFromInventory (table : TableInventory) : Except String SyncSelectTable :=
  match h : duplicateName [] (table.columns.map ColumnInventory.name) with
  | some column => .error s!"column `{column}` is duplicated in `{table.name}` inventory"
  | none => do
    validatePrimaryKey table
    let ordering ← table.primaryKey.mapM (primaryKeyOrdering table)
    .ok {
      name := table.name
      primaryKey := table.primaryKey
      columns := writableColumns table
      enumColumns := table.columns.filterMap fun column =>
        (parseEnumColumnType column.columnType).map fun labels => (column.name, labels)
      columns_nodup := writableColumns_nodup (nodup_of_duplicateName h).1
      primaryKeyOrdering := ordering
      bitColumns := writableColumnsOfType table "bit"
      mediumblobColumns := writableColumnsOfType table "mediumblob" }

/-- The primary key has columns, no column twice, and they are columns of the table. -/
structure SyncTable.Keyed (table : SyncTable) : Prop where
  nonempty : table.primaryKey ≠ []
  nodup : table.primaryKey.Nodup
  subset : ∀ column ∈ table.primaryKey, column ∈ table.columns

/-- A table of an inventory is keyed; the other ones are refused. -/
theorem syncTableFromInventory_keyed {inventory : TableInventory} {table : SyncSelectTable}
    (h : syncTableFromInventory inventory = .ok table) : table.Keyed := by
  unfold syncTableFromInventory at h
  split at h
  · cases h
  · obtain ⟨_, hkey, h⟩ := bind_eq_ok.mp h
    obtain ⟨ordering, hordering, h⟩ := bind_eq_ok.mp h
    obtain rfl := Except.ok.inj h
    unfold validatePrimaryKey at hkey
    split at hkey
    · cases hkey
    · next hnonempty =>
      split at hkey
      · cases hkey
      · next hduplicate =>
        refine ⟨by simpa using hnonempty, (nodup_of_duplicateName hduplicate).1, ?_⟩
        intro column hcolumn
        obtain ⟨_, hfound⟩ := exists_of_mapM_eq_ok hordering column hcolumn
        unfold primaryKeyOrdering at hfound
        split at hfound
        · cases hfound
        · next found hfind =>
          split at hfound
          · cases hfound
          · next hgenerated =>
            have hname : found.name = column := by simpa using List.find?_some hfind
            refine hname ▸ List.mem_map_of_mem (List.mem_filter.mpr ?_)
            exact ⟨List.mem_of_find?_eq_some hfind, by simpa using hgenerated⟩

/-! ## Parameters -/

/-- A value of a parameter. -/
inductive ParamValue where
  | null
  | bytes (bytes : List UInt8)
  | uint (value : Nat)
deriving DecidableEq, Repr

/-- The bytes of a text. -/
def utf8Bytes (value : String) : List UInt8 := value.toUTF8.toList

/-- The digits of an unsigned 64-bit number, after a first part. -/
def parseUnsignedDigits (value : Nat) : Text → Except String Nat
  | [] => .ok value
  | c :: digits =>
    if c.isDigit then
      if 10 * value + decimalDigit c < 2 ^ 64 then
        parseUnsignedDigits (10 * value + decimalDigit c) digits
      else .error "number too large to fit in target type"
    else .error "invalid digit found in string"

/-- An unsigned 64-bit number, or what is wrong with it. -/
def parseUnsigned (text : Text) : Except String Nat :=
  match text with
  | [] => .error "cannot parse integer from empty string"
  | ['+'] => .error "invalid digit found in string"
  | '+' :: digits => parseUnsignedDigits 0 digits
  | digits => parseUnsignedDigits 0 digits

def decodeHexDigit (value : UInt8) : Option UInt8 :=
  if 48 ≤ value ∧ value ≤ 57 then some (value - 48)
  else if 97 ≤ value ∧ value ≤ 102 then some (value - 97 + 10)
  else if 65 ≤ value ∧ value ≤ 70 then some (value - 65 + 10)
  else none

/-- The bytes of pairs of digits. -/
def decodeHexBytes : List UInt8 → Option (List UInt8)
  | [] => some []
  | [_] => none
  | high :: low :: rest => do
    let high ← decodeHexDigit high
    let low ← decodeHexDigit low
    let bytes ← decodeHexBytes rest
    return (high <<< 4 ||| low) :: bytes

def hexBytesParameterValue (table : SyncSelectTable) (column value : String) :
    Except String ParamValue :=
  match decodeHexBytes (utf8Bytes value) with
  | some bytes => .ok (.bytes bytes)
  | none => .error
      s!"MEDIUMBLOB column `{column}` in `{table.name}` has invalid hexadecimal value `{value}`"

def enumOrdinalParameterValue (table : SyncSelectTable) (labels : List String)
    (column value : String) : Except String ParamValue :=
  match parseUnsigned value.toList with
  | .error error => .error
      s!"ENUM column `{column}` in `{table.name}` has invalid internal index `{value}`: {error}"
  | .ok ordinal =>
    if labels.length < ordinal then .error
      s!"ENUM column `{column}` in `{table.name}` has internal index `{ordinal}` outside its declaration"
    else .ok (.uint ordinal)

/-- The parameter of a value of a column. -/
def parameterValue (table : SyncSelectTable) (column value : String) : Except String ParamValue :=
  match table.enumColumns.lookup column with
  | some labels => enumOrdinalParameterValue table labels column value
  | none =>
    if column ∈ table.bitColumns then
      match parseUnsigned value.toList with
      | .ok number => .ok (.uint number)
      | .error error => .error
          s!"BIT column `{column}` in `{table.name}` has invalid unsigned value `{value}`: {error}"
    else if column ∈ table.mediumblobColumns then hexBytesParameterValue table column value
    else .ok (.bytes (utf8Bytes value))

/-- The parameter of a key value; the value of an ENUM column is its label. -/
def primaryKeyParameterValue (table : SyncSelectTable) (column value : String) :
    Except String ParamValue :=
  match table.enumColumns.lookup column with
  | none => parameterValue table column value
  | some labels =>
    if value ∈ labels then .ok (.bytes (utf8Bytes value))
    else .error
      s!"ENUM primary-key column `{column}` in `{table.name}` has undeclared label `{value}`"

def primaryKeyParams (table : SyncSelectTable) (primaryKey : PrimaryKey) (label : String) :
    Except String (List ParamValue) :=
  if primaryKey.values.length ≠ table.primaryKey.length then .error
    s!"{label} width mismatch for `{table.name}`: expected {table.primaryKey.length}, found {primaryKey.values.length}"
  else (table.primaryKey.zip primaryKey.values).mapM fun (column, value) =>
    primaryKeyParameterValue table column value

/-- The values of a row in some columns; a value that the row does not have is NULL. -/
def orderedValues (table : SyncSelectTable) (row : DatabaseRow) (columns : List String) :
    Except String (List ParamValue) :=
  columns.mapM fun column =>
    match (row.get column).join with
    | some value => parameterValue table column value
    | none => .ok .null

def orderedUpdateParams (table : SyncSelectTable) (changedColumns : List String)
    (rows : List DatabaseRow) : Except String (List ParamValue) := do
  let cases ← changedColumns.mapM fun column => rows.mapM fun row => do
    let key ← primaryKeyParams table row.primaryKey "update primary key"
    let value ← orderedValues table row [column]
    return key ++ value
  let filter ← rows.mapM fun row =>
    primaryKeyParams table row.primaryKey "update filter primary key"
  return cases.flatten.flatten ++ filter.flatten

/-! ## The text -/

def quoteIdentList (columns : List String) : Text :=
  ", ".toList.intercalate (columns.map fun column => quoteIdent column.toList)

def nonPrimaryColumns (table : SyncTable) : List String :=
  table.columns.filter fun column => decide (column ∉ table.primaryKey)

def primaryKeyPredicates (primaryKey : List String) : List Text :=
  primaryKey.map fun column => quoteIdent column.toList ++ " = ?".toList

def rowPlaceholders (columnCount rowCount : Nat) : Text :=
  let row := "(".toList ++ ", ".toList.intercalate (List.replicate columnCount "?".toList) ++ ")".toList
  ", ".toList.intercalate (List.replicate rowCount row)

def strictCaseAssignment (table : SyncTable) (column : String) (rowCount : Nat) : Text :=
  let predicate := " AND ".toList.intercalate (primaryKeyPredicates table.primaryKey)
  let cases := " ".toList.intercalate
    (List.replicate rowCount ("WHEN ".toList ++ predicate ++ " THEN ?".toList))
  quoteIdent column.toList ++ " = CASE ".toList ++ cases ++ " ELSE ".toList ++
    quoteIdent column.toList ++ " END".toList

def primaryKeyRowFilter (primaryKey : List String) (rowCount : Nat) : Text :=
  match primaryKey with
  | [column] =>
    let values := ", ".toList.intercalate (List.replicate rowCount "?".toList)
    quoteIdent column.toList ++ " IN (".toList ++ values ++ ")".toList
  | _ => "(".toList ++ quoteIdentList primaryKey ++ ") IN (".toList ++
      rowPlaceholders primaryKey.length rowCount ++ ")".toList

/-- A text with placeholders and the values for them. -/
structure PreparedStatement where
  sql : Text
  params : List ParamValue
deriving DecidableEq, Repr

def buildStrictUpdateRowsStatement (table : SyncSelectTable) (rows : List DatabaseRow) :
    Except String PreparedStatement := do
  let changedColumns := nonPrimaryColumns table.toSyncTable
  let assignments := ", ".toList.intercalate
    (changedColumns.map fun column => strictCaseAssignment table.toSyncTable column rows.length)
  let rowFilter := primaryKeyRowFilter table.primaryKey rows.length
  let orderBy := quoteIdentList table.primaryKey
  let params ← orderedUpdateParams table changedColumns rows
  return {
    sql := "UPDATE ".toList ++ quoteIdent table.name.toList ++ " SET ".toList ++ assignments ++
      " WHERE ".toList ++ rowFilter ++ " ORDER BY ".toList ++ orderBy
    params }

end BinlogCdc
