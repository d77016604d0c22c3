import BinlogCdc.Core.Program
import BinlogCdc.Schema.Canonical

/-!
# The reconnect loop of the stream

The stream is attempted again after errors of the connection and after DDL blocks, each time from
the durable checkpoint. The attempts, the checkpoint store and the other processes that run while
the loop sleeps are a world; the calls of the loop are recorded in their order. The loop may run
forever, so it is run for a number of rounds.
-/

namespace BinlogCdc

structure SourceBinlogConfig where
  binlogFile : String
  startPosition : Nat
  stopNeverSlaveServerId : Option Nat
  deriving DecidableEq

structure ApplyBinlogConfig where
  source : SourceBinlogConfig
  maxReconnects : UInt32
  reconnectForever : Bool
  deriving DecidableEq

def configError (message : String) : ApplyBinlogError := .config message

def SourceBinlogConfig.validateStopNeverSlaveServerId (source : SourceBinlogConfig) :
    Except ApplyBinlogError Unit :=
  if source.stopNeverSlaveServerId = some 0 then
    .error (configError "--stop-never-slave-server-id must be greater than zero")
  else .ok ()

def SourceBinlogConfig.validateStartCoordinate (source : SourceBinlogConfig) :
    Except ApplyBinlogError Unit :=
  if source.binlogFile.isEmpty then .error (configError "binlog file is required")
  else if source.startPosition = 0 then
    .error (configError "start position must be greater than zero")
  else source.validateStopNeverSlaveServerId

/-! ## Classes of errors -/

/-- The message contains one of the patterns, whatever the case of its letters. -/
def containsFolded (message : String) (pattern : String) : Bool :=
  Text.contains pattern.toList (Text.toAsciiLowercase message.toList)

def isStaleOrMissingBinlogError : ApplyBinlogError → Bool
  | .sourceCommand message =>
    containsFolded message "could not find first log file name in binary log index file" ||
      containsFolded message "could not find log file" &&
        containsFolded message "in binary log index file" ||
      containsFolded message "not found in binlog index" ||
      containsFolded message "not found in binary log index"
  | _ => false

def isRetryableStreamError : ApplyBinlogError → Bool
  | .sourceCommand message =>
    containsFolded message "connection reset" || containsFolded message "connection refused" ||
      containsFolded message "tls/ssl" || containsFolded message "reading packet" ||
      containsFolded message "eof" || containsFolded message "broken pipe" ||
      containsFolded message "timed out" ||
      -- The replaced pod may still hold the dump connection of this server id.
      containsFolded message "same server_id is already connected"
  | _ => false

def isDdlBlocked : ApplyBinlogError → Bool
  | .ddlBlocked _ => true
  | _ => false

/-- Only a source error can be stale, so only its text is rendered. -/
def staleBinlogError (error : ApplyBinlogError) : Option ApplyBinlogError :=
  match error with
  | .sourceCommand message =>
    if isStaleOrMissingBinlogError error then
      some (.sourceCommand ("stale or purged source binlog requires operator repair; checkpoint " ++
        "was not changed; error=source binlog command failed: " ++ message))
    else none
  | _ => none

def shouldReconnect (error : ApplyBinlogError) (attempt maxReconnects : UInt32)
    (reconnectForever : Bool) : Bool :=
  (reconnectForever || attempt < maxReconnects) && isRetryableStreamError error

/-- The delay in seconds. -/
def reconnectDelay (attempt : UInt32) : Nat := min (2 ^ (attempt.toNat - 1)) 5

/-! ## The world of the loop -/

/-- The calls of the loop, each with its result. -/
inductive ReconnectCall
  | load (result : Except ApplyBinlogError (Option Checkpoint))
  | attempt (config : ApplyBinlogConfig) (outcome : Except ApplyBinlogError Unit)
  | sleep (seconds : Nat)

/-- What the loop runs in. -/
structure ReconnectWorld (σ : Type) where
  /-- An attempt to stream under a configuration. -/
  runAttempt : ApplyBinlogConfig → Prog σ ApplyBinlogError Unit
  /-- What happens while the loop sleeps. -/
  sleep : Nat → σ → σ

/-- A checkpoint store, by how it loads. -/
abbrev CheckpointStore (σ : Type) := Prog σ ApplyBinlogError (Option Checkpoint)

/-- A computation of the loop, with the record of its calls. -/
abbrev Reconnecting (σ α : Type) := Prog (σ × List ReconnectCall) ApplyBinlogError α

section Loop

variable {σ : Type} (world : ReconnectWorld σ) (checkpointStore : Option (CheckpointStore σ))

def callAttempt (config : ApplyBinlogConfig) :
    Reconnecting σ (Except ApplyBinlogError Unit) := fun run =>
  let (outcome, state) := world.runAttempt config run.1
  (.ok outcome, (state, run.2 ++ [.attempt config outcome]))

def callLoad (store : CheckpointStore σ) : Reconnecting σ (Option Checkpoint) := fun run =>
  let (result, state) := store run.1
  (result, (state, run.2 ++ [.load result]))

def callSleep (seconds : Nat) : Reconnecting σ Unit := fun run =>
  (.ok (), (world.sleep seconds run.1, run.2 ++ [.sleep seconds]))

def loadCheckpointForResume : Reconnecting σ (Option Checkpoint) :=
  match checkpointStore with
  | none => pure none
  | some store => do
    match ← callLoad store with
    | none => Prog.fail (.checkpoint "required source-scoped stream checkpoint is missing")
    | some checkpoint => pure (some checkpoint)

def updateSourceCoordinateFromCheckpoint (config : ApplyBinlogConfig) :
    Option Checkpoint → ApplyBinlogConfig
  | none => config
  | some checkpoint => { config with
      source := { config.source with
        binlogFile := checkpoint.sourceFile
        startPosition := checkpoint.sourcePosition } }

def resumeFromCheckpoint (config : ApplyBinlogConfig) : Reconnecting σ ApplyBinlogConfig := do
  let checkpoint ← loadCheckpointForResume checkpointStore
  pure (updateSourceCoordinateFromCheckpoint config checkpoint)

/-- The variables of the loop. The counters are machine words. -/
structure ReconnectLoop where
  attemptConfig : ApplyBinlogConfig
  reconnectAttempt : UInt32
  transportReconnects : UInt32

/-- One round of the loop: `none` if the attempt succeeded. -/
def reconnectRound (config : ApplyBinlogConfig) (loop : ReconnectLoop) :
    Reconnecting σ (Option ReconnectLoop) := do
  match ← callAttempt world loop.attemptConfig with
  | .ok () => pure none
  | .error error =>
    match staleBinlogError error with
    | some staleError => Prog.fail staleError
    | none =>
      let durableDdlBlock := isDdlBlocked error
      let reconnectEligible := durableDdlBlock ||
        shouldReconnect error loop.transportReconnects config.maxReconnects config.reconnectForever
      if checkpointStore.isNone || !reconnectEligible then Prog.fail error
      else
        let transportReconnects :=
          if durableDdlBlock then loop.transportReconnects else loop.transportReconnects + 1
        let reconnectAttempt := loop.reconnectAttempt + 1
        let checkpoint ← loadCheckpointForResume checkpointStore
        let attemptConfig := updateSourceCoordinateFromCheckpoint loop.attemptConfig checkpoint
        Prog.ofExcept attemptConfig.source.validateStartCoordinate
        callSleep world (reconnectDelay reconnectAttempt)
        pure (some { attemptConfig, reconnectAttempt, transportReconnects })

/-- The rounds of the loop, up to a number: `some` if it has not ended by then. -/
def reconnectRounds (config : ApplyBinlogConfig) :
    Nat → ReconnectLoop → Reconnecting σ (Option ReconnectLoop)
  | 0, loop => pure (some loop)
  | rounds + 1, loop => do
    match ← reconnectRound world checkpointStore config loop with
    | none => pure none
    | some loop => reconnectRounds config rounds loop

/-- The loop, up to a number of rounds. It returns `none` if an attempt succeeded and `some` if it
still goes on. -/
def runStreamReconnectLoop (config : ApplyBinlogConfig) (rounds : Nat) :
    Reconnecting σ (Option ReconnectLoop) := do
  let attemptConfig ← resumeFromCheckpoint checkpointStore config
  Prog.ofExcept attemptConfig.source.validateStartCoordinate
  reconnectRounds world checkpointStore config rounds
    { attemptConfig, reconnectAttempt := 0, transportReconnects := 0 }

end Loop

end BinlogCdc
