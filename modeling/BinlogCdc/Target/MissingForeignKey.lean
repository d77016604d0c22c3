import BinlogCdc.Core.Program
import BinlogCdc.Target.Database

/-!
# Row changes with repairs

A row change whose parent row is missing on the target is executed again after its parent was
inserted from the source, and an insert of a parent that is already there under another key is
reconciled with the row that is there. Both repairs execute row changes, which may be repaired in
turn; the repairs under way are kept in a set that bounds their depth and finds their cycles.

The executor is any state with its operations. The run records what it did: the statements, the
repairs that were started, the reconciliations, and the result of each execution of a row change.
-/

namespace BinlogCdc

structure TargetExecuteError where
  message : String
  mysqlCode : Option Nat
  deriving DecidableEq

def TargetExecuteError.new (message : String) : TargetExecuteError where
  message := message
  mysqlCode := none

structure DuplicateParentRepairKey where
  schema : String
  table : String
  index : String
  values : List String
  deriving DecidableEq

structure MissingForeignKeyRepairKey where
  childSchema : String
  childTable : String
  constraint : String
  values : List String
  deriving DecidableEq

inductive ActiveRepairKey
  | duplicateParent (key : DuplicateParentRepairKey)
  | missingForeignKey (key : MissingForeignKeyRepairKey)
  deriving DecidableEq

structure MissingForeignKeyParent where
  change : TargetRowChange
  constraint : String
  repairKey : MissingForeignKeyRepairKey
  deriving DecidableEq

structure SupersededSourceInsert where
  currentChange : Option TargetRowChange
  constraint : String
  repairKey : MissingForeignKeyRepairKey
  deriving DecidableEq

inductive MissingForeignKeyRepair
  | parent (parent : MissingForeignKeyParent)
  | supersededInsert (insert : SupersededSourceInsert)
  deriving DecidableEq

def MissingForeignKeyRepair.constraint : MissingForeignKeyRepair → String
  | parent row => row.constraint
  | supersededInsert row => row.constraint

def MissingForeignKeyRepair.repairKey : MissingForeignKeyRepair → MissingForeignKeyRepairKey
  | parent row => row.repairKey
  | supersededInsert row => row.repairKey

structure DuplicateParentReconciliation where
  ownerChange : TargetRowChange
  retryParentInsert : Bool
  verification : SqlStatement
  repairKey : DuplicateParentRepairKey
  deriving DecidableEq

inductive DuplicateInsertBehavior
  | ignore
  | reconcile
  | reject
  deriving DecidableEq

def maxMissingForeignKeyRepairDepth : Nat := 8

/-- The operations of an executor. -/
structure RepairExecutor (σ : Type) where
  executeRowChangeStatement : TargetRowChange → Prog σ TargetExecuteError Unit
  loadMissingForeignKeyRepair :
    TargetRowChange → TargetExecuteError → Prog σ TargetExecuteError MissingForeignKeyRepair
  loadDuplicateParentReconciliation :
    TargetRowChange → TargetExecuteError → Prog σ TargetExecuteError DuplicateParentReconciliation
  verifyDuplicateParentReconciliation :
    TargetRowChange → DuplicateParentReconciliation → Prog σ TargetExecuteError Unit

/-! ## Runs -/

/-- Why an execution stopped. -/
inductive RepairStop
  | failed (error : TargetExecuteError)
  | outOfFuel
  deriving DecidableEq

/-- What a run records. -/
inductive RepairEvent
  /-- A statement, with the repairs under way and its result. -/
  | statement (change : TargetRowChange) (behavior : DuplicateInsertBehavior)
      (active : Finset ActiveRepairKey) (result : Except TargetExecuteError Unit)
  /-- A repair begins, while others are under way. -/
  | started (key : ActiveRepairKey) (active : Finset ActiveRepairKey)
  /-- A reconciliation was loaded for a duplicate insert. -/
  | reconciliation (change : TargetRowChange) (reconciliation : DuplicateParentReconciliation)
  /-- A reconciliation was verified. -/
  | verified (change : TargetRowChange) (reconciliation : DuplicateParentReconciliation)
      (result : Except TargetExecuteError Unit)
  /-- The execution of a row change returned: the result of its first statement and its own, and
  the repairs under way when it was called and when it returned. -/
  | returned (change : TargetRowChange) (behavior : DuplicateInsertBehavior)
      (statement : Except TargetExecuteError Unit) (result : Except RepairStop Unit)
      (before after : Finset ActiveRepairKey)

structure RepairRun (σ : Type) where
  executor : σ
  active : Finset ActiveRepairKey
  log : List RepairEvent

abbrev Repairing (σ α : Type) := Prog (RepairRun σ) RepairStop α

/-- The execution of a row change under a behavior. -/
abbrev ExecuteRowChange (σ : Type) :=
  TargetRowChange → DuplicateInsertBehavior → Repairing σ Unit

section Steps

variable {σ α : Type}

def RepairRun.record (run : RepairRun σ) (event : RepairEvent) : RepairRun σ :=
  { run with log := run.log ++ [event] }

/-- An operation of the executor. -/
def callExecutor (operation : Prog σ TargetExecuteError α) : Repairing σ α := fun run =>
  match operation run.executor with
  | (.ok value, executor) => (.ok value, { run with executor })
  | (.error error, executor) => (.error (.failed error), { run with executor })

def callStatement (executor : RepairExecutor σ) (change : TargetRowChange)
    (behavior : DuplicateInsertBehavior) : Repairing σ (Except TargetExecuteError Unit) := fun run =>
  let (result, state) := executor.executeRowChangeStatement change run.executor
  (.ok result, { run with executor := state }.record (.statement change behavior run.active result))

def callVerify (executor : RepairExecutor σ) (change : TargetRowChange)
    (reconciliation : DuplicateParentReconciliation) : Repairing σ Unit := fun run =>
  let (result, state) := executor.verifyDuplicateParentReconciliation change reconciliation
    run.executor
  (result.mapError .failed,
    { run with executor := state }.record (.verified change reconciliation result))

def note (event : RepairEvent) : Repairing σ Unit := Prog.update fun run => run.record event

/-- Note the result of an execution that was called with these repairs under way. -/
def returning (change : TargetRowChange) (behavior : DuplicateInsertBehavior)
    (statement : Except TargetExecuteError Unit) (before : Finset ActiveRepairKey)
    (body : Repairing σ Unit) : Repairing σ Unit := fun run =>
  let (result, run) := body run
  (result, run.record (.returned change behavior statement result before run.active))

/-- Run a repair with its key in the set of active repairs. -/
def withActiveRepair (key : ActiveRepairKey) (repair : Repairing σ Unit) : Repairing σ Unit := do
  let active ← Prog.reads RepairRun.active
  note (.started key active)
  Prog.update fun run => { run with active := insert key run.active }
  Prog.andThen repair fun run => { run with active := run.active.erase key }

def ensureRepairDepth (active : Finset ActiveRepairKey) (context : String) :
    Except RepairStop Unit :=
  if maxMissingForeignKeyRepairDepth ≤ active.card then
    .error (.failed (.new (s!"automatic repair exceeded maximum depth " ++
      s!"{maxMissingForeignKeyRepairDepth} while {context}")))
  else .ok ()

def ensureMissingForeignKeyRepairCanStart (change : TargetRowChange)
    (repair : MissingForeignKeyRepair) (active : Finset ActiveRepairKey) :
    Except RepairStop Unit :=
  if .missingForeignKey repair.repairKey ∈ active then
    .error (.failed (.new (s!"missing-FK repair cycle detected for " ++
      s!"{change.schema}.{change.table} constraint {repair.constraint}")))
  else ensureRepairDepth active
    s!"applying {change.schema}.{change.table} constraint {repair.constraint}"

def ensureDuplicateRepairCanStart (change : TargetRowChange)
    (reconciliation : DuplicateParentReconciliation) (active : Finset ActiveRepairKey) :
    Except RepairStop Unit :=
  if .duplicateParent reconciliation.repairKey ∈ active then
    .error (.failed (.new (s!"duplicate-parent repair cycle detected for " ++
      s!"{change.schema}.{change.table} index {reconciliation.repairKey.index}")))
  else ensureRepairDepth active
    s!"reconciling {change.schema}.{change.table} index {reconciliation.repairKey.index}"

/-! ## Repairs -/

variable (executor : RepairExecutor σ) (execute : ExecuteRowChange σ)

def retryParentInsert (parentChange : TargetRowChange)
    (reconciliation : DuplicateParentReconciliation) : Repairing σ Unit :=
  if reconciliation.retryParentInsert then execute parentChange .reject else pure ()

def applyDuplicateParentReconciliation (parentChange : TargetRowChange)
    (reconciliation : DuplicateParentReconciliation) : Repairing σ Unit := do
  execute reconciliation.ownerChange .reconcile
  retryParentInsert execute parentChange reconciliation
  callVerify executor parentChange reconciliation

def reconcileDuplicateParent (parentChange : TargetRowChange) (error : TargetExecuteError) :
    Repairing σ Unit := do
  let reconciliation ←
    callExecutor (executor.loadDuplicateParentReconciliation parentChange error)
  let active ← Prog.reads RepairRun.active
  Prog.ofExcept (ensureDuplicateRepairCanStart parentChange reconciliation active)
  withActiveRepair (.duplicateParent reconciliation.repairKey) do
    note (.reconciliation parentChange reconciliation)
    applyDuplicateParentReconciliation executor execute parentChange reconciliation

def handleDuplicateInsert (change : TargetRowChange) (error : TargetExecuteError) :
    DuplicateInsertBehavior → Repairing σ Unit
  | .ignore => pure ()
  | .reject => Prog.fail (.failed error)
  | .reconcile => reconcileDuplicateParent executor execute change error

def insertParentAndRetry (child : TargetRowChange) (parent : MissingForeignKeyParent)
    (behavior : DuplicateInsertBehavior) : Repairing σ Unit := do
  execute parent.change .reconcile
  execute child behavior

def reconcileSupersededInsert (insert : SupersededSourceInsert) : Repairing σ Unit :=
  match insert.currentChange with
  | none => pure ()
  | some currentChange => execute currentChange .reconcile

def applyMissingForeignKeyRepair (historicalChange : TargetRowChange)
    (behavior : DuplicateInsertBehavior) : MissingForeignKeyRepair → Repairing σ Unit
  | .parent parent => insertParentAndRetry execute historicalChange parent behavior
  | .supersededInsert insert => reconcileSupersededInsert execute insert

def repairParentAndRetry (change : TargetRowChange) (error : TargetExecuteError)
    (behavior : DuplicateInsertBehavior) : Repairing σ Unit := do
  let repair ← callExecutor (executor.loadMissingForeignKeyRepair change error)
  let active ← Prog.reads RepairRun.active
  Prog.ofExcept (ensureMissingForeignKeyRepairCanStart change repair active)
  withActiveRepair (.missingForeignKey repair.repairKey)
    (applyMissingForeignKeyRepair execute change behavior repair)

/-- What follows the statement of a row change. -/
def afterStatement (change : TargetRowChange) (behavior : DuplicateInsertBehavior) :
    Except TargetExecuteError Unit → Repairing σ Unit
  | .ok () => pure ()
  | .error error =>
    if error.mysqlCode = some 1062 ∧ change.kind = .insert then
      handleDuplicateInsert executor execute change error behavior
    else if error.mysqlCode ≠ some 1452 ∨ change.kind = .delete then Prog.fail (.failed error)
    else repairParentAndRetry executor execute change error behavior

end Steps

/-- Each repair takes one unit of fuel. -/
def executeRowChangeWithActiveRepairs {σ : Type} (executor : RepairExecutor σ) :
    Nat → ExecuteRowChange σ
  | 0 => fun _ _ => Prog.fail .outOfFuel
  | fuel + 1 => fun change behavior => do
    let before ← Prog.reads RepairRun.active
    let statement ← callStatement executor change behavior
    returning change behavior statement before
      (afterStatement executor (executeRowChangeWithActiveRepairs executor fuel) change behavior
        statement)

/-- One more level than repairs can be nested. -/
def executeRowChangeWithMissingForeignKeyRepair {σ : Type} (executor : RepairExecutor σ)
    (change : TargetRowChange) (state : σ) : Except RepairStop Unit × RepairRun σ :=
  executeRowChangeWithActiveRepairs executor (maxMissingForeignKeyRepairDepth + 1) change .ignore
    { executor := state, active := ∅, log := [] }

end BinlogCdc
