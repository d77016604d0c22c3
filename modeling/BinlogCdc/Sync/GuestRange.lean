import BinlogCdc.Binlog.Coordinate
import BinlogCdc.Core.Program
import BinlogCdc.Core.Result
import BinlogCdc.Sync.Model

/-!
# Repairing a range of guests

An explicit range of guests is copied from a source snapshot to the target, one bounded
transaction for each page. Every page must continue the range where the last one ended, every
row must be equal to a target row or missing there, and all rows of a page are read back before
its transaction is committed. The backend is arbitrary: it decides what its pages hold, which of
its operations fail and what an insert really stores. A commit may take effect although its
answer is lost.
-/

namespace BinlogCdc

namespace GuestRange

/-! ## The backend -/

/-- What becomes of an operation of the backend. -/
inductive BackendOutcome where
  /-- The operation takes effect. -/
  | done
  /-- The operation fails without an effect. -/
  | refused (message : String)
  /-- The operation takes effect, but an error is reported. -/
  | lost (message : String)
  deriving DecidableEq, Repr

/-- Everything outside the repair; an operation is known by its tick. -/
structure GuestRangeWorld where
  /-- The count, the first and the last guest of the range. -/
  preflight : Except String (Nat × Nat × Nat)
  /-- The page of a read. -/
  page : Nat → Except String (List DatabaseRow)
  /-- The parent of a row exists. -/
  parent : Nat → Except String Unit
  /-- What becomes of an operation on the target. -/
  outcome : Nat → BackendOutcome
  /-- The row an insert stores. -/
  stored : Nat → DatabaseRow
  /-- A stored row has a key. -/
  identifies : PrimaryKey → DatabaseRow → Bool

/-- The target and its session, with the pages read so far. -/
structure GuestRangeRuntime where
  /-- The operations so far. -/
  tick : Nat
  /-- The committed rows of the target, in the order in which they were inserted. -/
  committed : List DatabaseRow
  /-- The rows as the session sees them. -/
  working : List DatabaseRow
  /-- The pages read. -/
  pages : List (List DatabaseRow)
  /-- A commit took effect although an error was reported. -/
  commitLost : Bool
  deriving DecidableEq, Repr

/-- Why a repair stopped. -/
inductive RangeStop where
  /-- An error returned to the caller. -/
  | error (message : String)
  /-- The loop went on for longer than its bound. -/
  | diverged
  deriving DecidableEq, Repr

/-- A program of the repair. -/
abbrev Range (α : Type) : Type := Prog GuestRangeRuntime RangeStop α

/-- Stop at an error found by a check. -/
def decided {α : Type} (result : Except String α) : Range α :=
  match result with
  | .ok a => pure a
  | .error message => Prog.fail (.error message)

/-- The row the session finds under a key. -/
def GuestRangeRuntime.find (world : GuestRangeWorld) (s : GuestRangeRuntime) (key : PrimaryKey) :
    Option DatabaseRow := s.working.find? (world.identifies key)

section Operations

variable (world : GuestRangeWorld)

/-- An operation on the target. -/
def backendOperation {α : Type} (answer : GuestRangeRuntime → α)
    (effect : GuestRangeRuntime → GuestRangeRuntime) : Range α := fun s =>
  let next := { s with tick := s.tick + 1 }
  match world.outcome s.tick with
  | .done => (.ok (answer s), effect next)
  | .refused message => (.error (.error message), next)
  | .lost message => (.error (.error message), effect next)

/-- Start a transaction; the server commits one that is open. -/
def beginBatch : Range Unit :=
  backendOperation world (fun _ => ()) fun s => { s with committed := s.working }

/-- Read the target row of a source row. -/
def readTarget (row : DatabaseRow) : Range (Option DatabaseRow) :=
  backendOperation world (fun s => s.find world row.primaryKey) id

/-- Insert a row; the server decides what it stores. -/
def insert : Range Unit :=
  backendOperation world (fun _ => ()) fun s =>
    { s with working := s.working ++ [world.stored (s.tick - 1)] }

/-- Commit, perhaps without an answer. -/
def commit : Range Unit := fun s =>
  let next := { s with tick := s.tick + 1 }
  match world.outcome s.tick with
  | .done => (.ok (), { next with committed := s.working })
  | .refused message => (.error (.error message), next)
  | .lost message =>
    (.error (.error message), { next with committed := s.working, commitLost := true })

/-- Roll back. -/
def rollback : Range Unit :=
  backendOperation world (fun _ => ()) fun s => { s with working := s.committed }

/-- Close the source snapshot. -/
def finishSource : Range Unit := backendOperation world (fun _ => ()) id

/-- Require the parent of a row. -/
def requireParent : Range Unit := fun s =>
  decided (world.parent s.tick) { s with tick := s.tick + 1 }

/-- Read a page of the source. -/
def readPage : Range (List DatabaseRow) := fun s =>
  match world.page s.tick with
  | .ok rows => (.ok rows, { s with tick := s.tick + 1, pages := s.pages ++ [rows] })
  | .error message => (.error (.error message), { s with tick := s.tick + 1 })

end Operations

/-! ## Configuration and checks -/

/-- The range to repair. -/
structure GuestRangeRepairConfig where
  start : Nat
  finish : Nat
  expectedRows : Nat
  batchSize : Nat
  /-- The last guest is a 64-bit number. -/
  finish_lt : finish < 2 ^ 64
  deriving DecidableEq, Repr

/-- The counts of a repair. -/
structure GuestRangeRepairReport where
  scanned : Nat
  inserted : Nat
  unchanged : Nat
  batches : Nat
  deriving DecidableEq, Repr

/-- The largest page. -/
def maxBatchSize : Nat := 1000

/-- Addition of 64-bit numbers, refused on overflow. -/
def checkedAdd (a b : Nat) : Option Nat := if a + b < 2 ^ 64 then some (a + b) else none

/-- Addition of 64-bit numbers. -/
def addU64 (a b : Nat) : Nat := (a + b) % 2 ^ 64

/-- Subtraction of 64-bit numbers, refused below zero. -/
def checkedSub (a b : Nat) : Option Nat := if b ≤ a then some (a - b) else none

/-- The range is not empty and as wide as expected, and pages are bounded. -/
def validateBounds (config : GuestRangeRepairConfig) : Except String Unit :=
  let count := (checkedSub config.finish config.start).bind (checkedAdd · 1)
  if count ≠ some config.expectedRows ∨ config.expectedRows = 0 then
    .error "expected rows must equal the nonempty inclusive guest range width"
  else if config.batchSize = 0 ∨ maxBatchSize < config.batchSize then
    .error s!"batch size must be between 1 and {maxBatchSize}"
  else .ok ()

/-- The guest of a row. -/
def guestId (row : DatabaseRow) : Except String Nat :=
  match row.primaryKey.values with
  | [id] =>
    if row.get "guest_id" ≠ some (some id) then .error "guest_id differs from row primary key"
    else
      match parseU64 id.toList with
      | some id => .ok id
      | none => .error "guest_id is not an unsigned integer"
  | _ => .error "guest row requires one primary key"

/-- The last guest of rows that continue the range from an expected guest on. -/
def validateRows (config : GuestRangeRepairConfig) :
    Option Nat → Nat → List DatabaseRow → Except String Nat
  | _, last, [] => .ok last
  | expected, _, row :: rows => do
    let last ← guestId row
    if some last ≠ expected ∨ config.finish < last then
      throw "source page is not the exact contiguous guest range"
    validateRows config (checkedAdd last 1) last rows

/-- The last guest of a page that continues the range. -/
def validatePage (config : GuestRangeRepairConfig) (after : Option Nat)
    (rows : List DatabaseRow) : Except String Nat :=
  if rows.isEmpty ∨ config.batchSize < rows.length then
    .error "source page is empty or exceeds batch size"
  else
    let expected := match after with
      | none => some config.start
      | some id => checkedAdd id 1
    validateRows config expected config.start rows

/-! ## The repair -/

/-- A result and the result of what had to be cleaned up after it. -/
def combineCleanup {α : Type} (result : Except String α) (cleanup : Except String Unit)
    (operation : String) : Except String α :=
  match result, cleanup with
  | result, .ok () => result
  | .ok _, .error error => .error s!"{operation}: {error}"
  | .error error, .error cleanup => .error s!"{error}; {operation}: {cleanup}"

/-- The error of a stop, if the program returned. -/
def RangeStop.result {α : Type} : Except RangeStop α → Option (Except String α)
  | .ok a => some (.ok a)
  | .error (.error message) => some (.error message)
  | .error .diverged => none

/-- Clean up after a program that returned. -/
def withCleanup {α : Type} (c : Range α) (cleanup : Range Unit) (operation : String) : Range α :=
  fun s =>
    match RangeStop.result (c s).1 with
    | none => c s
    | some result =>
      match RangeStop.result (cleanup (c s).2).1 with
      | none => (.error .diverged, (cleanup (c s).2).2)
      | some cleaned =>
        decided (combineCleanup result cleaned operation) (cleanup (c s).2).2

section Repair

variable (world : GuestRangeWorld)

/-- Insert the rows that are missing; the others must be equal. -/
def insertRows (report : GuestRangeRepairReport) :
    List DatabaseRow → Range GuestRangeRepairReport
  | [] => pure report
  | row :: rows => do
    requireParent world
    match ← readTarget world row with
    | some existing =>
      if existing = row then
        insertRows { report with unchanged := addU64 report.unchanged 1 } rows
      else
        Prog.fail (.error s!"target guest {repr row.primaryKey.values} differs from source snapshot")
    | none =>
      insert world
      insertRows { report with inserted := addU64 report.inserted 1 } rows

/-- Read the rows back. -/
def readBack : List DatabaseRow → Range Unit
  | [] => pure ()
  | row :: rows => do
    let found ← readTarget world row
    if found = some row then readBack rows
    else Prog.fail (.error s!"target readback differs for guest {repr row.primaryKey.values}")

def insertBatch (rows : List DatabaseRow) : Range GuestRangeRepairReport := do
  let report ← insertRows world ⟨0, 0, 0, 0⟩ rows
  readBack world rows
  pure report

/-- The rows of a page in a transaction of their own. -/
def repairBatch (rows : List DatabaseRow) : Range GuestRangeRepairReport := fun s =>
  let batch : Range GuestRangeRepairReport := do
    beginBatch world
    let report ← insertBatch world rows
    commit world
    pure report
  match batch s with
  | (.error (.error message), s') =>
    match RangeStop.result (rollback world s').1 with
    | none => (.error .diverged, (rollback world s').2)
    | some cleaned =>
      decided (combineCleanup (.error message) cleaned "rollback target batch")
        (rollback world s').2
  | other => other

/-- Where the loop stands. -/
structure RangeProgress where
  report : GuestRangeRepairReport
  after : Option Nat
  deriving DecidableEq, Repr

/-- One round of the loop. -/
def rangeRound (config : GuestRangeRepairConfig) (progress : RangeProgress) :
    Range RangeProgress := do
  let rows ← readPage world
  let last ← decided (validatePage config progress.after rows)
  let batch ← repairBatch world rows
  pure
    { report :=
        { scanned := addU64 progress.report.scanned (rows.length % 2 ^ 64)
          inserted := addU64 progress.report.inserted batch.inserted
          unchanged := addU64 progress.report.unchanged batch.unchanged
          batches := addU64 progress.report.batches 1 }
      after := some last }

/-- The loop, for as many rounds as the fuel allows. -/
def rangeLoop (config : GuestRangeRepairConfig) :
    Nat → RangeProgress → Range RangeProgress
  | fuel, progress =>
    if progress.report.scanned < config.expectedRows then
      match fuel with
      | 0 => Prog.fail .diverged
      | fuel + 1 => do
        let progress ← rangeRound world config progress
        rangeLoop config fuel progress
    else pure progress

/-- Where the loop starts. -/
def RangeProgress.initial : RangeProgress := ⟨⟨0, 0, 0, 0⟩, none⟩

/-- Repair the range; every round reads a row. -/
def repairRange (config : GuestRangeRepairConfig) : Range GuestRangeRepairReport := do
  let actual ← decided world.preflight
  if actual ≠ (config.expectedRows, config.start, config.finish) then
    Prog.fail (.error (s!"source range mismatch: expected ({config.expectedRows}, " ++
      s!"{config.start}, {config.finish}), found ({actual.1}, {actual.2.1}, {actual.2.2})"))
  else do
    let progress ← rangeLoop world config config.expectedRows .initial
    if progress.report.scanned ≠ config.expectedRows ∨ progress.after ≠ some config.finish then
      Prog.fail (.error "source range coverage differs from expected rows")
    else pure progress.report

/-- Repair the range and close the source. -/
def repairWithBackend (config : GuestRangeRepairConfig) : Range GuestRangeRepairReport := fun s =>
  match validateBounds config with
  | .error message => (.error (.error message), s)
  | .ok () => withCleanup (repairRange world config) (finishSource world) "close source snapshot" s

end Repair

end GuestRange

end BinlogCdc
