import BinlogCdc.Core.Program
import BinlogCdc.Core.BatchOrder
import BinlogCdc.Core.KeyedTable

/-!
# Coordinated changes of a referenced row

A row whose referenced columns change cannot be updated while other rows reference it. The
transition reads the foreign keys that lead to the row, finds every row that depends on it,
deletes these rows children first, updates the row and puts back the rows that the source
has, parents first. It runs inside a transaction of its caller against any backend; the
in-memory backend keeps the target as a table in the order of the backend's keys.
-/

namespace BinlogCdc.FkTransition

open Prog

/-! ## Rows and relations -/

abbrev Key := List String

/-- The columns of a row with their values. -/
abbrev Row := List (String × Option String)

/-- The value of a column, with none for an absent column as for NULL. -/
def Row.value (row : Row) (column : String) : Option String := (row.lookup column).join

structure RowKey where
  table : String
  pk : Key
deriving DecidableEq, Repr

/-- The derived order: by table, then by key. -/
instance : LinearOrder RowKey :=
  LinearOrder.lift' (fun key => toLex (key.table, key.pk)) fun a b h => by
    cases a
    cases b
    simpa using h

/-- A foreign key, seen from the referenced table. -/
structure Relation where
  childTable : String
  childColumns : List String
  parentColumns : List String
deriving DecidableEq, Repr

structure ParentReference where
  table : String
  columns : List String
  values : Key
deriving DecidableEq, Repr

/-- Why a transition fails. -/
inductive Error (ε : Type) where
  | backend (e : ε)
  | cycle (table : String)
  | workLimit
  | invalidPage
  | invalidRelation
  | missingColumn (column : String)
  | missingTarget (key : RowKey)
  | missingParent (child : RowKey) (parent : ParentReference)
  /-- An index into the schema without an entry: the process panics. -/
  | panicked
  /-- The bound on the steps of the loops is used up. -/
  | diverged
deriving DecidableEq, Repr

structure Limits where
  pageRows : Nat
  maxKeys : Nat
deriving DecidableEq, Repr

def pageBytes : Nat := 64 * 1024 * 1024

/-- What the transition asks of the databases. -/
structure Backend (σ ε : Type) where
  incoming : String → Prog σ ε (List Relation)
  dependentPage : Relation → Row → Option Key → Nat → Nat → Prog σ ε (List Key)
  targetRow : RowKey → Prog σ ε (Option Row)
  sourceRow : RowKey → Prog σ ε (Option Row)
  ensureParents : String → Row → Prog σ ε (List ParentReference)
  delete : RowKey → Prog σ ε Unit
  update : RowKey → Row → Prog σ ε Unit
  insert : RowKey → Row → Prog σ ε Unit

variable {σ ε : Type}

/-! ## The schema -/

/-- The relations that lead to the tables visited so far, and the tables in the order in which
they were finished. -/
structure Schema where
  relations : List (String × List Relation)
  order : List String

/-- The relations of a visited table. -/
def Schema.index (schema : Schema) (table : String) : Except (Error ε) (List Relation) :=
  match schema.relations.lookup table with
  | some relations => .ok relations
  | none => .error .panicked

/-- A relation pairs its columns. -/
def Relation.Valid (relation : Relation) : Prop :=
  relation.childColumns ≠ [] ∧ relation.childColumns.length = relation.parentColumns.length

instance (relation : Relation) : Decidable relation.Valid := inferInstanceAs (Decidable (_ ∧ _))

/-- Visit the referencing tables of some relations. -/
def loadChildren (visit : String → Schema → Prog σ (Error ε) Schema) :
    List Relation → Schema → Prog σ (Error ε) Schema
  | [], schema => pure schema
  | relation :: relations, schema =>
    if relation.Valid then do
      let schema ← visit relation.childTable schema
      loadChildren visit relations schema
    else fail .invalidRelation

/-- Visit a table: its relations, and before it the tables that reference it. -/
def loadSchema (backend : Backend σ ε) :
    Nat → List String → String → Schema → Prog σ (Error ε) Schema
  | 0, _, _, _ => fail .diverged
  | fuel + 1, visiting, table, schema =>
    if table ∈ visiting then fail (.cycle table)
    else if (schema.relations.lookup table).isSome then pure schema
    else do
      let relations ← mapError .backend (backend.incoming table)
      let schema ← loadChildren (loadSchema backend fuel (table :: visiting)) relations schema
      pure { relations := (table, relations) :: schema.relations, order := schema.order ++ [table] }

/-! ## The dependent keys -/

/-- A referenced column differs between the rows. -/
def changed (relation : Relation) (current old : Row) : Except (Error ε) Bool :=
  differs relation.parentColumns false
where
  differs : List String → Bool → Except (Error ε) Bool
    | [], found => .ok found
    | column :: columns, found =>
      match old.lookup column, current.lookup column with
      | none, _ => .error (.missingColumn column)
      | some _, none => .error (.missingColumn column)
      | some before, some after => differs columns (found || decide (before ≠ after))

/-- The keys found so far, and those whose own dependents have not been read. -/
structure Discovery where
  keys : List RowKey
  pending : List RowKey

/-- Add the keys of a page. -/
def collectPage (relation : Relation) (maxKeys : Nat) :
    List Key → Discovery → List Key → Except (Error ε) (List Key × Discovery)
  | seen, found, [] => .ok (seen, found)
  | seen, found, pk :: page =>
    if pk = [] ∨ pk ∈ seen then .error .invalidPage
    else
      let key : RowKey := ⟨relation.childTable, pk⟩
      if key ∈ found.keys then collectPage relation maxKeys (pk :: seen) found page
      else if maxKeys < (insertSorted key found.keys).length then .error .workLimit
      else
        collectPage relation maxKeys (pk :: seen)
          { keys := insertSorted key found.keys, pending := key :: found.pending } page

/-- Read the pages of the rows that reference a row. -/
def readPages (backend : Backend σ ε) (relation : Relation) (old : Row) (limits : Limits)
    (after : Option Key) (seen : List Key) (found : Discovery) : Nat → Prog σ (Error ε) Discovery
  | 0 => fail .diverged
  | fuel + 1 => do
    let page ← mapError .backend
      (backend.dependentPage relation old after limits.pageRows pageBytes)
    if page = [] then pure found
    else if limits.pageRows < page.length ∨
        (1 < page.length ∧ pageBytes < (page.flatten.map String.utf8ByteSize).sum) then
      fail .invalidPage
    else do
      let (seen, found) ← ofExcept (collectPage relation limits.maxKeys seen found page)
      readPages backend relation old limits page.getLast? seen found fuel

/-- Read the rows that reference a row through one relation. -/
def readKeys (backend : Backend σ ε) (fuel : Nat) (relation : Relation) (old : Row)
    (limits : Limits) (found : Discovery) : Prog σ (Error ε) Discovery :=
  readPages backend relation old limits none [] found fuel

/-- The rows that reference the root through the relation are detached: a referenced column
changes, or the root goes away. -/
def detaches (relation : Relation) (current : Option Row) (old : Row) : Except (Error ε) Bool :=
  match current with
  | some current => changed relation current old
  | none => .ok true

/-- Read the rows that reference the root through the relations that are detached. -/
def readDetached (backend : Backend σ ε) (fuel : Nat) (current : Option Row) (old : Row)
    (limits : Limits) : List Relation → Discovery → Prog σ (Error ε) Discovery
  | [], found => pure found
  | relation :: relations, found => do
    if ← ofExcept (detaches relation current old) then
      let found ← readKeys backend fuel relation old limits found
      readDetached backend fuel current old limits relations found
    else readDetached backend fuel current old limits relations found

/-- Read the rows that reference a row through any relation. -/
def readAll (backend : Backend σ ε) (fuel : Nat) (row : Row) (limits : Limits) :
    List Relation → Discovery → Prog σ (Error ε) Discovery
  | [], found => pure found
  | relation :: relations, found => do
    let found ← readKeys backend fuel relation row limits found
    readAll backend fuel row limits relations found

/-- Read the dependents of the pending keys until none is pending. -/
def readPending (backend : Backend σ ε) (fuel : Nat) (limits : Limits) (schema : Schema) :
    Nat → Discovery → Prog σ (Error ε) Discovery
  | 0, _ => fail .diverged
  | steps + 1, found =>
    match found.pending with
    | [] => pure found
    | key :: pending => do
      match ← mapError .backend (backend.targetRow key) with
      | none => fail (.missingTarget key)
      | some row => do
        let relations ← ofExcept (schema.index key.table)
        let found ← readAll backend fuel row limits relations { found with pending := pending }
        readPending backend fuel limits schema steps found

/-- Add the keys of the rows that depend on a row. -/
def discover (backend : Backend σ ε) (fuel : Nat) (root : RowKey) (current : Option Row)
    (old : Row) (limits : Limits) (schema : Schema) (keys : List RowKey) :
    Prog σ (Error ε) (List RowKey) := do
  let relations ← ofExcept (schema.index root.table)
  let found ← readDetached backend fuel current old limits relations ⟨keys, []⟩
  let found ← readPending backend fuel limits schema fuel found
  pure found.keys

/-! ## The transition -/

/-- What a transition is going to do. -/
structure TransitionPlan where
  schema : Schema
  keys : List RowKey

/-- Read the schema and the dependent keys of the root. -/
def discoverTransition (backend : Backend σ ε) (fuel : Nat) (root : RowKey) (current : Option Row)
    (old : Row) (limits : Limits) : Prog σ (Error ε) TransitionPlan := do
  if limits.pageRows = 0 ∨ limits.maxKeys = 0 then fail .workLimit
  else do
    let schema ← loadSchema backend fuel [] root.table ⟨[], []⟩
    let keys ← discover backend fuel root current old limits schema []
    pure { schema, keys }

/-- The keys of one table. -/
def keysOf (keys : List RowKey) (table : String) : List RowKey :=
  keys.filter fun key => decide (key.table = table)

/-- Delete the dependent rows, children first. -/
def detach (backend : Backend σ ε) (order : List String) (keys : List RowKey) :
    Prog σ (Error ε) Unit :=
  forEach order fun table =>
    forEach (keysOf keys table) fun key => mapError .backend (backend.delete key)

/-- Fail when a parent of the row is missing. -/
def ensureParentRows (backend : Backend σ ε) (child : RowKey) (desired : Row) :
    Prog σ (Error ε) Unit := do
  match ← mapError .backend (backend.ensureParents child.table desired) with
  | [] => pure ()
  | parent :: _ => fail (.missingParent child parent)

/-- Put back the row of a key, if the source has one. -/
def restoreKey (backend : Backend σ ε) (key : RowKey) : Prog σ (Error ε) Unit := do
  match ← mapError .backend (backend.sourceRow key) with
  | none => pure ()
  | some desired => do
    ensureParentRows backend key desired
    mapError .backend (backend.insert key desired)

/-- Put back the dependent rows, parents first. -/
def restore (backend : Backend σ ε) (order : List String) (keys : List RowKey) :
    Prog σ (Error ε) Unit :=
  forEach order.reverse fun table => forEach (keysOf keys table) (restoreKey backend)

/-- Change a referenced row. -/
def transition (backend : Backend σ ε) (fuel : Nat) (root : RowKey) (current old : Row)
    (limits : Limits) : Prog σ (Error ε) Unit := do
  let plan ← discoverTransition backend fuel root (some current) old limits
  detach backend plan.schema.order plan.keys
  ensureParentRows backend root current
  mapError .backend (backend.update root current)
  restore backend plan.schema.order plan.keys

/-- Read the plan of a replacement: the rows that depend on the owner, and the rows that depend on
the changed columns of the intended row if it is there. -/
def discoverReplacement (backend : Backend σ ε) (fuel : Nat) (oldOwner intended : RowKey × Row)
    (intendedExists : Bool) (limits : Limits) : Prog σ (Error ε) TransitionPlan := do
  let plan ← discoverTransition backend fuel oldOwner.1 none oldOwner.2 limits
  if intendedExists then
    match ← mapError .backend (backend.targetRow intended.1) with
    | none => fail (.missingTarget intended.1)
    | some intendedOld => do
      let keys ← discover backend fuel intended.1 (some intended.2) intendedOld limits plan.schema
        plan.keys
      pure { plan with keys }
  else pure plan

/-- Write the intended row of a replacement. -/
def writeIntended (backend : Backend σ ε) (intended : RowKey × Row) (intendedExists : Bool) :
    Prog σ (Error ε) Unit :=
  if intendedExists then mapError .backend (backend.update intended.1 intended.2)
  else mapError .backend (backend.insert intended.1 intended.2)

/-- Replace an owner that the source does not have by a row with another key. -/
def replaceSourceAbsentOwner (backend : Backend σ ε) (fuel : Nat) (oldOwner intended : RowKey × Row)
    (intendedExists : Bool) (limits : Limits) : Prog σ (Error ε) Unit := do
  let plan ← discoverReplacement backend fuel oldOwner intended intendedExists limits
  detach backend plan.schema.order plan.keys
  mapError .backend (backend.delete oldOwner.1)
  ensureParentRows backend intended.1 intended.2
  writeIntended backend intended intendedExists
  restore backend plan.schema.order plan.keys

/-! ## The in-memory backend -/

/-- The calls of a backend. -/
inductive Call where
  | incoming (table : String)
  | dependentPage (relation : Relation) (old : Row) (after : Option Key)
  | targetRow (key : RowKey)
  | sourceRow (key : RowKey)
  | ensureParents (table : String) (desired : Row)
  | delete (key : RowKey)
  | update (key : RowKey) (desired : Row)
  | insert (key : RowKey) (desired : Row)

variable {κ : Type} [LinearOrder κ] {rank : RowKey ↪ κ}

/-- A database: its rows in the order that the backend gives their keys. -/
abbrev Database (rank : RowKey ↪ κ) : Type := KeyedTable fun entry : RowKey × Row => rank entry.1

/-- The row of a key. -/
def rowOf (database : Database rank) (key : RowKey) : Option Row :=
  (database.find (rank key)).map Prod.snd

/-- The row references the other one: no referencing column is NULL and all agree. -/
def Relation.References (relation : Relation) (child parent : Row) : Prop :=
  ∀ columns ∈ relation.childColumns.zip relation.parentColumns,
    child.value columns.1 ≠ none ∧ child.value columns.1 = parent.value columns.2

instance (relation : Relation) (child parent : Row) : Decidable (relation.References child parent) :=
  inferInstanceAs (Decidable (∀ _ ∈ _, _))

/-- The rows that reference a row through a relation. -/
def dependents (database : Database rank) (relation : Relation) (old : Row) : Database rank where
  rows := database.rows.filter fun entry =>
    decide (entry.1.table = relation.childTable ∧ relation.References entry.2 old)
  sorted := database.sorted.filter _

/-- The values of the referencing columns, unless one is NULL. -/
def keyValues (desired : Row) : List String → Option Key
  | [] => some []
  | column :: columns =>
    match desired.value column with
    | none => none
    | some value => (keyValues desired columns).map (value :: ·)

/-- The fixed part of the in-memory databases. -/
structure Memory (rank : RowKey ↪ κ) (ε : Type) where
  source : Database rank
  /-- The referenced tables. -/
  parents : List String
  /-- The relations that lead to a table. -/
  relations : String → List Relation
  relations_eq_nil : ∀ table, table ∉ parents → relations table = []
  /-- How many of the keys that follow the cursor a page returns. -/
  pageLength : Nat → Nat → List Key → Nat
  pageLength_pos : ∀ limit byteLimit rest, 0 < limit → rest ≠ [] →
    0 < pageLength limit byteLimit rest
  /-- The calls that fail: an outage, or a constraint that a write would break. -/
  refuses : Call → Database rank → Option ε
  absent : RowKey → ε
  duplicate : RowKey → ε

namespace Memory

variable (memory : Memory rank ε)

/-- Answer a call unless it fails. -/
def answer {α : Type} (call : Call) (value : Database rank → α) : Prog (Database rank) ε α :=
  fun target =>
    match memory.refuses call target with
    | some e => (.error e, target)
    | none => (.ok (value target), target)

/-- The keys of the next page. -/
def page (relation : Relation) (old : Row) (after : Option Key) (limit byteLimit : Nat)
    (target : Database rank) : List Key :=
  let cursor := after.map fun pk => rank ⟨relation.childTable, pk⟩
  let rest := ((dependents target relation old).select cursor none).map fun entry => entry.1.pk
  rest.take (memory.pageLength limit byteLimit rest)

/-- The parents of a row that the target does not have. -/
def missingParents (table : String) (desired : Row) (target : Database rank) :
    List ParentReference :=
  memory.parents.flatMap fun parent =>
    ((memory.relations parent).filter fun relation => decide (relation.childTable = table)).filterMap
      fun relation =>
        match keyValues desired relation.childColumns with
        | none => none
        | some values =>
          if target.rows.any fun entry => decide (entry.1.table = parent ∧
              ∀ pair ∈ relation.parentColumns.zip values, entry.2.value pair.1 = some pair.2) then none
          else some ⟨parent, relation.parentColumns, values⟩

/-- Delete a row that is there. -/
def deleteRow (key : RowKey) : Prog (Database rank) ε Unit := do
  memory.answer (.delete key) fun _ => ()
  match ← reads fun target => rowOf target key with
  | none => fail (memory.absent key)
  | some _ => Prog.update fun target => target.erase [rank key]

/-- Replace a row that is there. -/
def updateRow (key : RowKey) (desired : Row) : Prog (Database rank) ε Unit := do
  memory.answer (.update key desired) fun _ => ()
  match ← reads fun target => rowOf target key with
  | none => fail (memory.absent key)
  | some _ => Prog.update fun target => target.put (key, desired)

/-- Add a row that is not there. -/
def insertRow (key : RowKey) (desired : Row) : Prog (Database rank) ε Unit := do
  memory.answer (.insert key desired) fun _ => ()
  match ← reads fun target => rowOf target key with
  | some _ => fail (memory.duplicate key)
  | none => Prog.update fun target => target.put (key, desired)

/-- The in-memory databases as a backend. -/
def backend : Backend (Database rank) ε where
  incoming table := memory.answer (.incoming table) fun _ => memory.relations table
  dependentPage relation old after limit byteLimit :=
    memory.answer (.dependentPage relation old after) (memory.page relation old after limit byteLimit)
  targetRow key := memory.answer (.targetRow key) fun target => rowOf target key
  sourceRow key := memory.answer (.sourceRow key) fun _ => rowOf memory.source key
  ensureParents table desired :=
    memory.answer (.ensureParents table desired) (memory.missingParents table desired)
  delete := memory.deleteRow
  update := memory.updateRow
  insert := memory.insertRow

end Memory

end BinlogCdc.FkTransition
