import BinlogCdc.Sync.FkTransition
import BinlogCdc.Sync.Session

/-!
# Repairing the parents of rows

Before rows are inserted the parents they reference are repaired: a missing parent is taken
from the source, after its own parents, and a parent with other values is updated, by a
coordinated transition where other rows reference it. The transition asks for the parents of
the rows it writes in turn, so the repairs are mutually recursive; only the set of the keys
being repaired bounds the recursion. The target enforces primary keys and foreign keys.
-/

namespace BinlogCdc.FkTransition

open Prog

/-! ## Foreign keys -/

/-- A foreign key between tables of the locked component. -/
structure ForeignKey where
  table : String
  columns : List String
  referencedTable : String
  referencedColumns : List String
deriving DecidableEq, Repr

/-- The foreign key, seen from the referenced table. -/
def ForeignKey.relation (key : ForeignKey) : Relation :=
  ⟨key.table, key.columns, key.referencedColumns⟩

/-- The parent that a row references, if no referencing column is NULL. -/
def parentReferenceFromRow (key : ForeignKey) (desired : Row) :
    Except String (Option ParentReference) := do
  let values ← key.columns.mapM fun column =>
    match desired.lookup column with
    | some value => .ok value
    | none => .error s!"missing FK child column `{column}`"
  .ok (values.mapM id |>.map fun values => ⟨key.referencedTable, key.referencedColumns, values⟩)

variable {κ : Type} [LinearOrder κ] {rank : RowKey ↪ κ}

/-- The row has the values in the columns; the comparison is null-safe. -/
def HasValues (columns : List String) (values : List (Option String)) (row : Row) : Prop :=
  ∀ pair ∈ columns.zip values, row.value pair.1 = pair.2

instance (columns : List String) (values : List (Option String)) (row : Row) :
    Decidable (HasValues columns values row) := inferInstanceAs (Decidable (∀ _ ∈ _, _))

/-- The rows of a table with the values in the columns. -/
def relatedRows (database : Database rank) (table : String) (columns : List String)
    (values : List (Option String)) : Database rank where
  rows := database.rows.filter fun entry =>
    decide (entry.1.table = table ∧ HasValues columns values entry.2)
  sorted := database.sorted.filter _

/-- The values of the referencing columns, unless one is NULL. -/
def ForeignKey.values (key : ForeignKey) (row : Row) : Option (List String) :=
  key.columns.mapM row.value

/-- The row references the parent row. -/
def ForeignKey.References (key : ForeignKey) (row parent : Row) : Prop :=
  ∃ values ∈ key.values row, HasValues key.referencedColumns (values.map some) parent

instance (key : ForeignKey) (row parent : Row) : Decidable (key.References row parent) :=
  inferInstanceAs (Decidable (∃ values ∈ _, _))

/-- The row has its parent, or a referencing column is NULL. -/
def ForeignKey.Satisfied (key : ForeignKey) (database : Database rank) (row : Row) : Prop :=
  (key.values row).isSome = true →
    ∃ entry ∈ database.rows, entry.1.table = key.referencedTable ∧ key.References row entry.2

instance (key : ForeignKey) (database : Database rank) (row : Row) :
    Decidable (key.Satisfied database row) := inferInstanceAs (Decidable (_ → ∃ _ ∈ _, _))

/-- Every foreign key of a row of the table is satisfied. -/
def HasParents (foreignKeys : List ForeignKey) (database : Database rank) (table : String)
    (row : Row) : Prop :=
  ∀ key ∈ foreignKeys, key.table = table → key.Satisfied database row

instance (foreignKeys : List ForeignKey) (database : Database rank) (table : String) (row : Row) :
    Decidable (HasParents foreignKeys database table row) :=
  inferInstanceAs (Decidable (∀ _ ∈ _, _))

/-- The database satisfies its foreign keys. -/
def ForeignKeysHold (foreignKeys : List ForeignKey) (database : Database rank) : Prop :=
  ∀ entry ∈ database.rows, HasParents foreignKeys database entry.1.table entry.2

instance (foreignKeys : List ForeignKey) (database : Database rank) :
    Decidable (ForeignKeysHold foreignKeys database) := inferInstanceAs (Decidable (∀ _ ∈ _, _))

/-! ## The target -/

/-- The statements that write. -/
inductive Write where
  | insert (key : RowKey) (row : Row)
  | update (key : RowKey) (row : Row)
  | delete (key : RowKey)
deriving DecidableEq, Repr

/-- The statements that read: the row of a key, and the rows with some values after a cursor. -/
inductive Read where
  | exact (key : RowKey)
  | related (table : String) (columns : List String) (values : List (Option String))
    (after : Option Key) (limit : Nat)
deriving DecidableEq, Repr

/-- An error of a server: its number, if it has one, and its text. -/
abbrev ServerError := Option Nat × String

/-- Another row references the row of a key through a foreign key for which a new row would not
do. -/
def Restricts (foreignKeys : List ForeignKey) (target : Database rank) (key : RowKey) (old : Row)
    (new : Option Row) : Prop :=
  ∃ foreignKey ∈ foreignKeys, foreignKey.referencedTable = key.table ∧
    (∀ row ∈ new, ∃ column ∈ foreignKey.referencedColumns, row.value column ≠ old.value column) ∧
    ∃ entry ∈ target.rows, entry.1 ≠ key ∧ entry.1.table = foreignKey.table ∧
      foreignKey.References entry.2 old

instance (foreignKeys : List ForeignKey) (target : Database rank) (key : RowKey) (old : Row)
    (new : Option Row) : Decidable (Restricts foreignKeys target key old new) :=
  inferInstanceAs (Decidable (∃ _ ∈ _, _ ∧ _ ∧ ∃ _ ∈ _, _))

/-- What a write does to the target, or the constraint that it breaks. An update and a delete of a
key without a row have no effect. -/
def Write.apply (foreignKeys : List ForeignKey) (target : Database rank) :
    Write → Except ServerError (Database rank)
  | .insert key row =>
    if (rowOf target key).isSome then .error (some 1062, "Duplicate entry")
    else if HasParents foreignKeys (target.put (key, row)) key.table row then
      .ok (target.put (key, row))
    else .error (some 1452, "Cannot add or update a child row: a foreign key constraint fails")
  | .update key row =>
    match rowOf target key with
    | none => .ok target
    | some old =>
      if Restricts foreignKeys target key old (some row) then
        .error (some 1451, "Cannot delete or update a parent row: a foreign key constraint fails")
      else if HasParents foreignKeys (target.put (key, row)) key.table row then
        .ok (target.put (key, row))
      else .error (some 1452, "Cannot add or update a child row: a foreign key constraint fails")
  | .delete key =>
    match rowOf target key with
    | none => .ok target
    | some old =>
      if Restricts foreignKeys target key old none then
        .error (some 1451, "Cannot delete or update a parent row: a foreign key constraint fails")
      else .ok (target.erase [rank key])

/-- The rows that a write puts into the target. -/
def Write.rows (target : Database rank) : Write → List (RowKey × Row)
  | .insert key row => [(key, row)]
  | .update key row => if (rowOf target key).isSome then [(key, row)] else []
  | .delete _ => []

/-- What the repairs of a session work on. -/
structure TransitionContext (rank : RowKey ↪ κ) where
  /-- The source; it does not change. -/
  source : Database rank
  /-- The tables of the locked component. -/
  tables : List SyncTable
  /-- The foreign keys between them. -/
  foreignKeys : List ForeignKey
  /-- The statements that cannot be built. -/
  unbuilt : Read ⊕ Write → Option String
  /-- The reads that fail; the flag tells the source from the target. -/
  readFails : Read → Bool → Database rank → Option ServerError
  /-- The writes that fail though no constraint is broken. -/
  writeFails : Write → Database rank → Option ServerError

/-- The target session during a repair. -/
structure RepairState (rank : RowKey ↪ κ) where
  target : Database rank
  /-- The keys that are being repaired. -/
  visiting : Finset RowKey
  /-- The rows written so far. -/
  written : List (RowKey × Row)

/-- How a repair fails. -/
inductive RepairFailure where
  | message (text : String)
  /-- An index into the schema without an entry: the process panics. -/
  | panicked
  /-- The bound on the steps of the loops is used up. -/
  | diverged
deriving DecidableEq, Repr

/-- A repair. -/
abbrev Repair (rank : RowKey ↪ κ) (α : Type) : Type := Prog (RepairState rank) RepairFailure α

/-- Put a text before the message of a failure. -/
def RepairFailure.labelled (label : String) : RepairFailure → RepairFailure
  | .message text => .message (label ++ text)
  | failure => failure

def describeTransitionError : Error RepairFailure → RepairFailure
  | .backend failure => failure
  | .cycle table => .message s!"dependency cycle in `{table}`"
  | .workLimit => .message "transition work limit reached"
  | .invalidPage => .message "invalid dependent key page"
  | .invalidRelation => .message "invalid foreign-key relation"
  | .missingColumn column => .message s!"missing column `{column}`"
  | .missingTarget key => .message s!"target row missing in `{key.table}`"
  | .missingParent child parent =>
    .message s!"required parent in `{parent.table}` missing for `{child.table}`"
  | .panicked => .panicked
  | .diverged => .diverged

/-! ## Statements -/

/-- A request for related rows names columns of the table, each once, with a value for each. -/
def validateRelatedRowsRequest (table : SyncTable) (columns : List String)
    (values : List (Option String)) (after : Option Key) (limit : Nat) : Except String Unit := do
  if columns.isEmpty ∨ columns.length ≠ values.length then
    .error s!"relation for `{table.name}` requires nonempty columns and matching values"
  checkColumns [] columns
  if limit = 0 then .error s!"relation read limit for `{table.name}` must be nonzero"
  match after with
  | none => .ok ()
  | some cursor =>
    if cursor.length ≠ table.primaryKey.length then
      .error (s!"relation start_after cursor width mismatch for `{table.name}`: " ++
        s!"expected {table.primaryKey.length}, found {cursor.length}")
where
  checkColumns (seen : List String) : List String → Except String Unit
    | [] => .ok ()
    | column :: columns => do
      if column ∉ table.columns then
        .error s!"relation column `{column}` is absent from `{table.name}`"
      if column ∈ seen then .error s!"duplicate relation column `{column}` for `{table.name}`"
      checkColumns (column :: seen) columns

namespace TransitionContext

variable (context : TransitionContext rank)

/-- Stop with the message of an error. -/
def decided {α : Type} (result : Except String α) : Repair rank α :=
  mapError .message (ofExcept result)

/-- A table of the component. -/
def table (name : String) : Except String SyncTable :=
  match context.tables.find? fun table => decide (table.name = name) with
  | some table => .ok table
  | none => .error s!"FK transition table `{name}` outside locked scope"

/-- The database that a read goes to. -/
def database (fromSource : Bool) (s : RepairState rank) : Database rank :=
  if fromSource then context.source else s.target

/-- Build a statement and read with it. -/
def query {α : Type} (read : Read) (fromSource : Bool) (operation : String)
    (answer : Database rank → α) : Repair rank α := do
  match context.unbuilt (.inl read) with
  | some text => fail (.message text)
  | none =>
    let database ← reads (context.database fromSource)
    match context.readFails read fromSource database with
    | some error => fail (.message s!"{operation}{error.2}")
    | none => pure (answer database)

/-- The row of a key. -/
def exact (key : RowKey) (fromSource : Bool) : Repair rank (Option Row) := do
  let table ← decided (context.table key.table)
  if key.pk.length ≠ table.primaryKey.length then
    fail (.message (s!"exact primary-key width mismatch for `{table.name}`: " ++
      s!"expected {table.primaryKey.length}, found {key.pk.length}"))
  context.query (.exact key) fromSource "FK transition exact read mysql query failed: "
    fun database => rowOf database key

/-- The row that a reference leads to. -/
def readParentReference (reference : ParentReference) (fromSource : Bool) :
    Repair rank (Option (RowKey × Row)) := do
  let table ← decided (context.table reference.table)
  let values := reference.values.map some
  let limit := if fromSource then 2 else 1
  decided (validateRelatedRowsRequest table reference.columns values none limit)
  let rows ← context.query (.related reference.table reference.columns values none limit) fromSource
    "FK prerequisite exact read mysql query failed: " fun database =>
      (relatedRows database reference.table reference.columns values).rows.take limit
  match rows with
  | [] => pure none
  | [row] => pure (some row)
  | rows =>
    fail (.message
      s!"FK prerequisite exact-row query returned {rows.length} rows for `{table.name}`")

/-- The references that lead to no row of the target. -/
def collectMissing : List ParentReference → Repair rank (List ParentReference)
  | [] => pure []
  | reference :: references => do
    let row ← context.readParentReference reference false
    let missing ← collectMissing references
    pure (if row.isNone then reference :: missing else missing)

/-- The parents of a row that the target does not have. -/
def readMissingParents (table : String) (desired : Row) : Repair rank (List ParentReference) := do
  let references ← decided
    ((context.foreignKeys.filter fun key => decide (key.table = table)).mapM
      fun key => parentReferenceFromRow key desired)
  context.collectMissing references.reduceOption

/-- Build a statement and write with it. -/
def send (write : Write) : Repair rank (Except ServerError Unit) := do
  match context.unbuilt (.inr write) with
  | some text => fail (.message text)
  | none =>
    let target ← reads RepairState.target
    match context.writeFails write target, write.apply context.foreignKeys target with
    | some error, _ => pure (.error error)
    | none, .error error => pure (.error error)
    | none, .ok target' =>
      Prog.update fun s => { s with target := target', written := s.written ++ write.rows target }
      pure (.ok ())

/-- A write that has to succeed. -/
def executeStatement (write : Write) : Repair rank Unit := do
  match ← context.send write with
  | .ok () => pure ()
  | .error error => fail (.message s!"target mysql statement failed: {error.2}")

/-- The target has the row that was written. -/
def verifyWritten (key : RowKey) (desired : Row) : Repair rank Unit := do
  if (← context.exact key false) ≠ some desired then
    fail (.message s!"FK transition write readback differs in `{key.table}`")

/-- Write a row and read it back. -/
def write (key : RowKey) (desired : Row) (insert : Bool) : Repair rank Unit := do
  let _ ← decided (context.table key.table)
  context.executeStatement (if insert then .insert key desired else .update key desired)
  context.verifyWritten key desired

/-- Delete a row and verify that it is gone. -/
def delete (key : RowKey) : Repair rank Unit := do
  let _ ← decided (context.table key.table)
  context.executeStatement (.delete key)
  if (← context.exact key false).isSome then
    fail (.message s!"FK transition delete remains in `{key.table}`")

/-- The keys of a page that fit the byte limit; the first one always does. -/
def retainKeys (byteLimit : Nat) : Nat → List Key → List Key
  | _, [] => []
  | bytes, key :: keys =>
    let size := (key.map String.utf8ByteSize).sum
    if bytes + size > byteLimit then [] else key :: retainKeys byteLimit (bytes + size) keys

/-- The values of the referenced columns of a row. -/
def parentValues (old : Row) (columns : List String) : Except String (List (Option String)) :=
  columns.mapM fun column =>
    match old.lookup column with
    | some value => .ok value
    | none => .error s!"missing FK parent column `{column}`"

/-- A page of the keys of the rows that reference a row. -/
def dependentPage (relation : Relation) (old : Row) (after : Option Key) (limit byteLimit : Nat) :
    Repair rank (List Key) := do
  let table ← decided (context.table relation.childTable)
  let values ← decided (parentValues old relation.parentColumns)
  if values.any Option.isNone then pure []
  else
    decided (validateRelatedRowsRequest table relation.childColumns values after limit)
    let rows ← context.query (.related relation.childTable relation.childColumns values after limit)
      false s!"read FK dependents in `{table.name}`: " fun target =>
        ((relatedRows target relation.childTable relation.childColumns values).select
          (after.map fun pk => rank ⟨relation.childTable, pk⟩) none).take limit
    match rows.map fun entry => entry.1.pk with
    | [] => pure []
    | key :: keys =>
      pure (key :: retainKeys byteLimit (key.map String.utf8ByteSize).sum keys)

/-! ## Repairs -/

/-- The target session as the backend of a transition, with a way to repair the parents of a row. -/
def backend (ensure : String → Row → Repair rank Nat) : Backend (RepairState rank) RepairFailure where
  incoming table :=
    pure ((context.foreignKeys.filter fun key => decide (key.referencedTable = table)).map
      ForeignKey.relation)
  dependentPage := context.dependentPage
  targetRow key := context.exact key false
  sourceRow key := context.exact key true
  ensureParents table desired := do
    let _ ← ensure table desired
    context.readMissingParents table desired
  delete := context.delete
  update key desired := context.write key desired false
  insert key desired := context.write key desired true

/-- The largest number of keys. -/
def usizeMax : Nat := 2 ^ 64 - 1

def limits : Limits := ⟨1000, usizeMax⟩

/-- A bound on the steps of the loops of a discovery: the tables and the keys. -/
def searchBound : Nat := usizeMax + context.foreignKeys.length + 2

/-- Change a row that other rows reference. -/
def coordinate (ensure : String → Row → Repair rank Nat) (label : String) (root : RowKey)
    (current old : Row) : Repair rank Unit :=
  mapError (fun error => (describeTransitionError error).labelled label)
    (transition (context.backend ensure) context.searchBound root current old limits)

/-- Bring a parent that is in the target to its source row. -/
def updateRequiredParent (ensure : String → Row → Repair rank Nat) (key : RowKey)
    (source old : Row) : Repair rank Unit := do
  let _ ← decided (context.table key.table)
  match ← context.send (.update key source) with
  | .ok () => context.verifyWritten key source
  | .error error =>
    if error.1 = some 1217 ∨ error.1 = some 1451 then
      context.coordinate ensure s!"coordinated FK prerequisite update for `{key.table}`: " key source
        old
    else fail (.message s!"FK prerequisite update for `{key.table}` failed: {error.2}")

/-- Repair a missing parent from the source: its own parents first. -/
def repairRequiredParent (ensure : String → Row → Repair rank Nat) (reference : ParentReference) :
    Repair rank Unit := do
  match ← context.readParentReference reference true with
  | none => fail (.message s!"source FK parent missing in `{reference.table}`")
  | some source => do
    let key : RowKey := ⟨reference.table, source.1.pk⟩
    if key ∈ (← reads RepairState.visiting) then
      fail (.message s!"FK prerequisite cycle in `{key.table}`")
    else
      Prog.update fun s => { s with visiting := insert key s.visiting }
      andThen (restoreParent key source.2) fun s => { s with visiting := s.visiting.erase key }
where
  restoreParent (key : RowKey) (source : Row) : Repair rank Unit := do
    let _ ← ensure key.table source
    match ← context.exact key false with
    | none => context.write key source true
    | some old =>
      if old ≠ source then context.updateRequiredParent ensure key source old else pure ()

/-- Repair the missing parents of a row; the number of them is returned. The depth bounds the
nesting of the repairs. -/
def ensureRequiredParents : Nat → String → Row → Repair rank Nat
  | 0, _, _ => fail .diverged
  | depth + 1, table, desired => do
    let missing ← context.readMissingParents table desired
    forEach missing (context.repairRequiredParent (ensureRequiredParents depth))
    if (← context.readMissingParents table desired).isEmpty then pure missing.length
    else fail (.message s!"FK prerequisites remain missing for `{table}`")

/-- A bound on the nesting of the repairs: the rows of the source. -/
def depthBound : Nat := context.source.rows.length + 1

/-- Repair the parents of one row of a batch. -/
def repairRow (table : String) (row : DatabaseRow) : Repair rank Nat := do
  let key : RowKey := ⟨table, row.primaryKey.values⟩
  Prog.update fun s => { s with visiting := insert key s.visiting }
  andThen (context.ensureRequiredParents context.depthBound table row.values)
    fun s => { s with visiting := s.visiting.erase key }

/-- Repair the parents of the rows of a batch one after the other. -/
def repairRows (table : String) : List DatabaseRow → Nat → Repair rank Nat
  | [], repaired => pure repaired
  | row :: rows, repaired => do
    let count ← context.repairRow table row
    repairRows table rows (repaired + count)

/-- Change the rows of a failed update one after the other. -/
def updateRows (table : String) : List DatabaseRow → Repair rank Unit
  | [] => pure ()
  | desired :: rows => do
    let root : RowKey := ⟨table, desired.primaryKey.values⟩
    match ← context.exact root false with
    | none => fail (.message s!"FK transition root missing in `{table}`")
    | some old =>
      context.coordinate (context.ensureRequiredParents context.depthBound)
        s!"coordinated FK update for `{table}`: " root desired.values old
      updateRows table rows

end TransitionContext

/-- Repair the parents of rows that could not be inserted. -/
def repairInsertPrerequisites (transitions : Option (TransitionContext rank)) (table : String)
    (rows : List DatabaseRow) : Repair rank Unit :=
  match transitions with
  | none => fail (.message "FK transitions not configured")
  | some context => do
    Prog.update fun s => { s with visiting := ∅ }
    let repaired ← context.repairRows table rows 0
    if repaired = 0 then fail (.message s!"no missing FK prerequisites found for `{table}`")

/-- Report the message of a failed repair in the place of the message of a failed mutation. -/
def reportedAs (failure : SyncMutationFailure) (c : Repair rank Unit) :
    Repair rank (Except SyncMutationFailure Unit) := fun s =>
  match c s with
  | (.ok (), s') => (.ok (.ok ()), s')
  | (.error (.message message), s') => (.ok (.error { failure with message }), s')
  | (.error e, s') => (.error e, s')

/-- Change rows that could not be updated because other rows reference them. -/
def repairRestrictedUpdates (transitions : Option (TransitionContext rank)) (table : String)
    (failure : SyncMutationFailure) : Repair rank (Except SyncMutationFailure Unit) :=
  match transitions with
  | none => pure (.error failure)
  | some context =>
    if failure.mysqlCode = some 1217 ∨ failure.mysqlCode = some 1451 then do
      Prog.update fun s => { s with visiting := ∅ }
      reportedAs failure (context.updateRows table failure.retryRows)
    else pure (.error failure)

end BinlogCdc.FkTransition
