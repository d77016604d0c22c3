import BinlogCdc.Stream.Ddl

/-!
# What handling an event does

Every stage of the transactional handler is described once, by the state it reaches and
the script of operations it performs. A run of a stage either performs its whole script
or stops inside it, possibly after a rollback; the durable contents are then those left
by some operation of the script. The descriptions compose, and the invariants of the
stream are derived from them.
-/

namespace BinlogCdc

/-! ## Runs of a script -/

/-- The state of a stream attempt without the tick and the trace. -/
structure StreamCore where
  /-- The target. -/
  target : Target
  /-- The checkpoint the store read or wrote last. -/
  lastCheckpoint : Option Checkpoint
  /-- The state of the event handlers. -/
  state : StructuredEventState
  /-- The table maps in force. -/
  registry : List (Nat × RowTableMap)
  /-- The stream's record of its target transaction. -/
  targetTransaction : TargetTransaction
  /-- The binlog file being read. -/
  currentFile : String

/-- A stream attempt without its tick and trace. -/
def Runtime.core (s : Runtime) : StreamCore :=
  ⟨s.target, s.lastCheckpoint, s.state, s.registry, s.targetTransaction, s.currentFile⟩

section Fields

variable (s : Runtime)

@[simp] theorem Runtime.core_target : s.core.target = s.target := rfl
@[simp] theorem Runtime.core_lastCheckpoint : s.core.lastCheckpoint = s.lastCheckpoint := rfl
@[simp] theorem Runtime.core_state : s.core.state = s.state := rfl
@[simp] theorem Runtime.core_registry : s.core.registry = s.registry := rfl
@[simp] theorem Runtime.core_targetTransaction :
    s.core.targetTransaction = s.targetTransaction := rfl
@[simp] theorem Runtime.core_currentFile : s.core.currentFile = s.currentFile := rfl

end Fields

/-- From one state the script was performed and another state reached. -/
structure Performed (s : Runtime) (script : List TraceEntry) (s' : Runtime) : Prop where
  /-- The script was recorded. -/
  trace : s'.trace = s.trace ++ script
  /-- The durable contents are those before the script or after one of its operations. -/
  durable : s'.target.db = s.target.db ∨ ∃ x ∈ script, s'.target.db = x.after.db

/-- From one state a run stopped inside the script, possibly after a rollback. -/
structure Stopped (s : Runtime) (script : List TraceEntry) (s' : Runtime) : Prop where
  /-- Only operations of the script and rollbacks were recorded. -/
  trace : ∃ issued, s'.trace = s.trace ++ issued ∧
    ∀ x ∈ issued, x ∈ script ∨ (x.op = .rollback ∧ x.after = x.before.rollback)
  /-- The durable contents are those before the script or after one of its operations. -/
  durable : s'.target.db = s.target.db ∨ ∃ x ∈ script, s'.target.db = x.after.db

section Composition

variable {s s' s'' : Runtime} {script more : List TraceEntry}

/-- Nothing needs to be performed when nothing durable or recorded changes. -/
theorem Performed.refl (htrace : s'.trace = s.trace) (hdb : s'.target.db = s.target.db) :
    Performed s [] s' := ⟨by simpa using htrace, Or.inl hdb⟩

/-- One operation performs the script of that operation. -/
theorem Performed.single (s : Runtime) (op : TargetOp) (target : Target) :
    Performed s [⟨op, s.target, target⟩] (s.perform op target) :=
  ⟨rfl, Or.inr ⟨_, List.mem_singleton.mpr rfl, rfl⟩⟩

/-- Scripts are performed one after the other. -/
theorem Performed.trans (h : Performed s script s') (h' : Performed s' more s'') :
    Performed s (script ++ more) s'' := by
  refine ⟨by rw [h'.trace, h.trace, List.append_assoc], ?_⟩
  rcases h'.durable with hdb | ⟨x, hx, hdb⟩
  · rcases h.durable with hdb' | ⟨x, hx, hdb'⟩
    · exact Or.inl (hdb.trans hdb')
    · exact Or.inr ⟨x, List.mem_append_left _ hx, hdb.trans hdb'⟩
  · exact Or.inr ⟨x, List.mem_append_right _ hx, hdb⟩

/-- A run that stops in the second script stops in the composed one. -/
theorem Performed.stopped (h : Performed s script s') (h' : Stopped s' more s'') :
    Stopped s (script ++ more) s'' := by
  obtain ⟨issued, htrace, hissued⟩ := h'.trace
  refine ⟨⟨script ++ issued, by rw [htrace, h.trace, List.append_assoc], ?_⟩, ?_⟩
  · intro x hx
    rcases List.mem_append.mp hx with hx | hx
    · exact Or.inl (List.mem_append_left _ hx)
    · exact (hissued x hx).imp_left (List.mem_append_right _)
  · rcases h'.durable with hdb | ⟨x, hx, hdb⟩
    · rcases h.durable with hdb' | ⟨x, hx, hdb'⟩
      · exact Or.inl (hdb.trans hdb')
      · exact Or.inr ⟨x, List.mem_append_left _ hx, hdb.trans hdb'⟩
    · exact Or.inr ⟨x, List.mem_append_right _ hx, hdb⟩

/-- A run that stops in the first script stops in the composed one. -/
theorem Stopped.append (h : Stopped s script s') (more : List TraceEntry) :
    Stopped s (script ++ more) s' := by
  obtain ⟨issued, htrace, hissued⟩ := h.trace
  refine ⟨⟨issued, htrace, fun x hx => (hissued x hx).imp_left (List.mem_append_left _)⟩, ?_⟩
  · rcases h.durable with hdb | ⟨x, hx, hdb⟩
    · exact Or.inl hdb
    · exact Or.inr ⟨x, List.mem_append_left _ hx, hdb⟩

/-- A run may stop before the first operation of a script. -/
theorem Stopped.start (htrace : s'.trace = s.trace) (hdb : s'.target.db = s.target.db)
    (script : List TraceEntry) : Stopped s script s' :=
  ⟨⟨[], by simpa using htrace, fun _ hx => absurd hx List.not_mem_nil⟩, Or.inl hdb⟩

/-- A run stops where an operation is refused. -/
theorem Stopped.advance (h : Stopped s script s') : Stopped s script s'.advance :=
  ⟨h.trace, h.durable⟩

/-- A run may stop without any operation. -/
theorem Stopped.refl (s : Runtime) (script : List TraceEntry) : Stopped s script s :=
  Stopped.start rfl rfl script

/-- A rollback keeps a stopped run stopped in the same script. -/
theorem Stopped.rollback (h : Stopped s script s') :
    Stopped s script (s'.perform .rollback s'.target.rollback) := by
  obtain ⟨issued, htrace, hissued⟩ := h.trace
  refine ⟨⟨issued ++ [⟨.rollback, s'.target, s'.target.rollback⟩], ?_, ?_⟩, h.durable⟩
  · rw [Runtime.perform_trace, htrace, List.append_assoc]
  · intro x hx
    rw [List.mem_append, List.mem_singleton] at hx
    rcases hx with hx | rfl
    · exact hissued x hx
    · exact Or.inr ⟨rfl, rfl⟩

/-- What a stopped run recorded. -/
theorem Stopped.mem_trace (h : Stopped s script s') {x : TraceEntry} (hx : x ∈ s'.trace) :
    x ∈ s.trace ∨ x ∈ script ∨ x.op = .rollback := by
  obtain ⟨issued, htrace, hissued⟩ := h.trace
  rw [htrace, List.mem_append] at hx
  rcases hx with hx | hx
  · exact Or.inl hx
  · exact Or.inr ((hissued x hx).imp_right And.left)

end Composition

/-! ## Committing a group -/

/-- Write a checkpoint if there is one. -/
def Target.savePending (target : Target) (pending : Option Checkpoint) : Target :=
  match pending with
  | some checkpoint => target.saveCheckpoint checkpoint
  | none => target

/-- The operations that write the pending checkpoint. -/
def saveScript (target : Target) (pending : Option Checkpoint) : List TraceEntry :=
  match pending with
  | some checkpoint =>
    [⟨.lockCheckpoint, target, target⟩,
      ⟨.saveCheckpoint checkpoint, target, target.saveCheckpoint checkpoint⟩]
  | none => []

/-- The operations that commit a group. -/
def commitScript (target : Target) (pending : Option Checkpoint) : List TraceEntry :=
  saveScript target pending ++
    [⟨.commit, target.savePending pending, (target.savePending pending).commit⟩]

namespace StreamCore

variable (c : StreamCore)

/-- The checkpoint waiting for the end of the group. -/
def pending : Option Checkpoint := c.targetTransaction.pendingTransactionCheckpoint

/-- The state after the group is committed. -/
def committed : StreamCore :=
  { c with target := (c.target.savePending c.pending).commit, targetTransaction := {} }

/-- The state after a group with complete source transactions is committed. -/
def flushed : StreamCore :=
  if c.targetTransaction.hasCompletedSourceTransactions then c.committed else c

/-- The operations that commit a group with complete source transactions. -/
def flushScript : List TraceEntry :=
  if c.targetTransaction.hasCompletedSourceTransactions then commitScript c.target c.pending
  else []

/-- The state after a transaction is begun unless the stream has one. -/
def begun (now : Nat) : StreamCore :=
  if c.targetTransaction.isOpen then c
  else
    { c with
      target := c.target.begin
      targetTransaction := { c.targetTransaction with isOpen := true, openedAt := some now } }

/-- The operations that begin a transaction unless the stream has one. -/
def beginScript : List TraceEntry :=
  if c.targetTransaction.isOpen then [] else [⟨.begin, c.target, c.target.begin⟩]

end StreamCore

/-- What the stream's record of its transaction satisfies in target-table mode. -/
structure TargetTransaction.Valid (transaction : TargetTransaction) : Prop where
  /-- Source transactions are counted only in an open transaction. -/
  counted : transaction.hasCompletedSourceTransactions = true → transaction.isOpen = true
  /-- No checkpoint waits for the store. -/
  noFile : transaction.pendingFileCheckpoint = none

section Group

variable {world : World} {config : StreamConfig} {table name : String}
  {Q : Unit → Runtime → Prop} {E : Stop ApplyBinlogError → Runtime → Prop} {s : Runtime}

/-- Writing the checkpoint performs its script, and stops only inside it. -/
theorem wp_lockValidateAndSaveCheckpoint {checkpoint : Checkpoint}
    (hQ : ∀ s', Performed s (saveScript s.target (some checkpoint)) s' →
      s'.core = { s.core with target := s.target.saveCheckpoint checkpoint } → Q () s')
    (hE : ∀ stop s', Stopped s (saveScript s.target (some checkpoint)) s' → E stop s') :
    Prog.wp (lockValidateAndSaveCheckpoint world name checkpoint) Q E s := by
  unfold lockValidateAndSaveCheckpoint
  rw [Prog.wp_bind]
  refine wp_operate ?_ (fun stop => hE stop _ (Stopped.refl s _).advance)
  intro current target h
  cases h
  have hlock := Performed.single s .lockCheckpoint s.target
  have hlocked : Stopped s (saveScript s.target (some checkpoint))
      (s.perform .lockCheckpoint s.target) := hlock.stopped (Stopped.refl _ _)
  cases hcurrent : s.target.view.checkpoint with
  | none => exact hE _ _ hlocked
  | some current =>
    simp only [Prog.wp_bind, wp_decided]
    refine ⟨?_, fun error _ => hE _ _ hlocked⟩
    intro _ _
    refine wp_transition ?_ (fun stop => hE stop _ hlocked.advance)
    exact hQ _ (hlock.trans (Performed.single _ _ _)) rfl

/-- Committing a group performs its script, and stops only inside it. -/
theorem wp_commitTargetGroup (hmode : config.checkpoint = .targetTable table name)
    (hopen : s.targetTransaction.isOpen = true)
    (hQ : ∀ s', Performed s (commitScript s.target s.core.pending) s' →
      s'.core = s.core.committed → Q () s')
    (hE : ∀ stop s', Stopped s (commitScript s.target s.core.pending) s' → E stop s') :
    Prog.wp (commitTargetGroup world config) Q E s := by
  have hcommit : ∀ s', Performed s (saveScript s.target s.core.pending) s' →
      s'.core = { s.core with
        target := s.target.savePending s.core.pending
        targetTransaction :=
          { s.targetTransaction with pendingTransactionCheckpoint := none } } →
      Prog.wp (commitIfOpen world) Q E s' := by
    intro s' hs' hcore
    have htt := congrArg StreamCore.targetTransaction hcore
    have htarget := congrArg StreamCore.target hcore
    simp only [Runtime.core_targetTransaction, Runtime.core_target] at htt htarget
    simp only [commitIfOpen, finishIfOpen, Prog.wp_bind, Prog.wp_reads, htt, hopen, if_true]
    refine wp_transition ?_ fun stop => hE stop _ (hs'.stopped (Stopped.refl s' _).advance)
    refine hQ _ ?_ ?_
    · have hsingle := Performed.single s' .commit s'.target.commit
      rw [htarget] at hsingle
      have hdone := hs'.trans hsingle
      rw [htarget]
      exact ⟨hdone.trace, hdone.durable⟩
    · have hrest := congrArg (fun c => { c with
        target := (s.target.savePending s.core.pending).commit, targetTransaction := {} }) hcore
      rw [htarget]
      exact hrest
  unfold commitTargetGroup
  simp only [Prog.wp_bind, Prog.wp_reads, wp_updateTransaction, hmode]
  cases hpending : s.targetTransaction.pendingTransactionCheckpoint with
  | none =>
    have hnone : s.core.pending = none := hpending
    rw [hnone] at hcommit
    exact hcommit _ (Performed.refl rfl rfl) rfl
  | some checkpoint =>
    have hsome : s.core.pending = some checkpoint := hpending
    rw [hsome] at hcommit hE
    simp only [StreamCheckpointContext.targetTable, Prog.wp_bind, Prog.wp_onError]
    refine wp_lockValidateAndSaveCheckpoint ?_ ?_
    · intro s' hs' hcore
      exact hcommit s' ⟨hs'.trace, hs'.durable⟩ hcore
    · intro stop s' hs'
      have hstop := Stopped.append ⟨hs'.trace, hs'.durable⟩ (s := s)
        [⟨.commit, s.target.savePending (some checkpoint),
          (s.target.savePending (some checkpoint)).commit⟩]
      cases stop with
      | crash => exact hE _ _ hstop
      | error e => exact hE _ _ ⟨hstop.trace, hstop.durable⟩

/-- Flushing performs its script, and stops only inside it. -/
theorem wp_flushGroupedTransaction (hmode : config.checkpoint = .targetTable table name)
    (hvalid : s.targetTransaction.Valid)
    (hQ : ∀ s', Performed s s.core.flushScript s' → s'.core = s.core.flushed → Q () s')
    (hE : ∀ stop s', Stopped s s.core.flushScript s' → E stop s') :
    Prog.wp (flushGroupedTransaction world config) Q E s := by
  unfold flushGroupedTransaction
  simp only [Prog.wp_bind, Prog.wp_reads]
  cases hcount : s.targetTransaction.hasCompletedSourceTransactions with
  | true =>
    simp only [StreamCore.flushScript, StreamCore.flushed, Runtime.core_targetTransaction, hcount,
      if_true] at hQ hE
    simp only [Bool.not_true, Bool.false_eq_true, if_false, Prog.wp_bind, wp_updateTransaction,
      hvalid.noFile, Prog.wp_onError]
    refine wp_commitTargetGroup hmode (hvalid.counted hcount) ?_ ?_
    · intro s' hs' hcore
      refine hQ s' ⟨hs'.trace, hs'.durable⟩ ?_
      rw [hcore]
      rfl
    · intro stop s' hs'
      cases stop with
      | crash => exact hE _ _ ⟨hs'.trace, hs'.durable⟩
      | error e => exact hE _ _ ⟨hs'.trace, hs'.durable⟩
  | false =>
    simp only [StreamCore.flushScript, StreamCore.flushed, Runtime.core_targetTransaction, hcount,
      Bool.false_eq_true, if_false] at hQ hE
    simp only [Bool.not_false, if_true, Prog.wp_pure]
    exact hQ s (Performed.refl rfl rfl) rfl

/-- Beginning performs its script, and stops only before it. -/
theorem wp_beginIfNeeded
    (hQ : ∀ now s', Performed s s.core.beginScript s' → s'.core = s.core.begun now → Q () s')
    (hE : ∀ stop s', Stopped s s.core.beginScript s' → E stop s') :
    Prog.wp (beginIfNeeded world) Q E s := by
  unfold beginIfNeeded
  simp only [Prog.wp_bind, Prog.wp_reads]
  cases hopen : s.targetTransaction.isOpen with
  | true =>
    simp only [StreamCore.beginScript, StreamCore.begun, Runtime.core_targetTransaction, hopen,
      if_true] at hQ
    simp only [if_true, Prog.wp_pure]
    exact hQ 0 s (Performed.refl rfl rfl) rfl
  | false =>
    simp only [StreamCore.beginScript, StreamCore.begun, Runtime.core_targetTransaction, hopen,
      Bool.false_eq_true, if_false] at hQ hE
    simp only [Bool.false_eq_true, if_false, Prog.wp_bind]
    refine wp_transition ?_ fun stop => hE stop _ (Stopped.refl s _).advance
    have hsingle := Performed.single s .begin s.target.begin
    exact hQ _ _ ⟨hsingle.trace, hsingle.durable⟩ rfl

end Group

end BinlogCdc
