import BinlogCdc.Target.Database

/-!
# What the stream's connection sees

The work, the checkpoint and the journal in the view of the stream's connection, after
each statement of the stream. The durable work is always a beginning of the work in the
view.
-/

namespace BinlogCdc

@[simp] theorem TargetDb.apply_work (db : TargetDb) (changes : TargetChanges) :
    (db.apply changes).work = db.work ++ changes.work := rfl

@[simp] theorem TargetDb.apply_checkpoint (db : TargetDb) (changes : TargetChanges) :
    (db.apply changes).checkpoint = changes.checkpoint.or db.checkpoint := rfl

@[simp] theorem TargetDb.apply_ddl (db : TargetDb) (changes : TargetChanges) :
    (db.apply changes).ddl = db.ddl := rfl

/-- The transaction holds at most row changes and statements. -/
def TargetChanges.OnlyWork (changes : TargetChanges) : Prop :=
  changes.checkpoint = none ∧ changes.checkpointed = []

namespace Target

/-- The open transaction, if there is one, holds at most row changes and statements. -/
def OnlyWork (target : Target) : Prop :=
  ∀ changes, target.transaction = some changes → changes.OnlyWork

variable (target : Target)

theorem view_of_none {target : Target} (h : target.transaction = none) :
    target.view = target.db := by
  simp [view, h]

theorem view_of_some {target : Target} {changes : TargetChanges}
    (h : target.transaction = some changes) : target.view = target.db.apply changes := by
  simp [view, h]

/-- The durable work is a beginning of the work in the view. -/
theorem work_prefix_view : target.db.work <+: target.view.work := List.prefix_append _ _

theorem ddl_view : target.view.ddl = target.db.ddl := rfl

@[simp] theorem begin_db : target.begin.db = target.view := rfl
@[simp] theorem begin_transaction : target.begin.transaction = some {} := rfl
@[simp] theorem begin_view : target.begin.view = target.view := by simp [view, begin]
@[simp] theorem commit_db : target.commit.db = target.view := rfl
@[simp] theorem commit_transaction : target.commit.transaction = none := rfl
@[simp] theorem commit_view : target.commit.view = target.view := by simp [view, commit]
@[simp] theorem storeCheckpoint_transaction (checkpoint : Checkpoint) :
    (target.storeCheckpoint checkpoint).transaction = target.transaction := rfl
@[simp] theorem storeCheckpoint_db_work (checkpoint : Checkpoint) :
    (target.storeCheckpoint checkpoint).db.work = target.db.work := rfl
@[simp] theorem storeCheckpoint_db_checkpoint (checkpoint : Checkpoint) :
    (target.storeCheckpoint checkpoint).db.checkpoint = some checkpoint := rfl
@[simp] theorem storeCheckpoint_view_work (checkpoint : Checkpoint) :
    (target.storeCheckpoint checkpoint).view.work = target.view.work := rfl

/-- A statement in a transaction changes only the transaction. -/
theorem change_of_some {target : Target} {changes : TargetChanges}
    (h : target.transaction = some changes) (f : TargetChanges → TargetChanges) :
    target.change f = ⟨target.db, some (f changes)⟩ := by
  simp [change, h]

/-- A statement outside a transaction is durable at once. -/
theorem change_of_none {target : Target} (h : target.transaction = none)
    (f : TargetChanges → TargetChanges) : target.change f = ⟨target.db.apply (f {}), none⟩ := by
  simp [change, h]

/-- A statement neither opens nor ends a transaction. -/
@[simp] theorem change_transaction_isSome (f : TargetChanges → TargetChanges) :
    (target.change f).transaction.isSome = target.transaction.isSome := by
  cases h : target.transaction with
  | none => simp [change_of_none h]
  | some changes => simp [change_of_some h]

/-- Work goes to the end of the view. -/
@[simp] theorem applyWork_view_work (work : List TargetWork) :
    (target.applyWork work).view.work = target.view.work ++ work := by
  unfold applyWork
  cases h : target.transaction with
  | none => simp [change_of_none h, view, h]
  | some changes => simp [change_of_some h, view, h]

/-- A checkpoint is seen at once. -/
@[simp] theorem saveCheckpoint_view_checkpoint (checkpoint : Checkpoint) :
    (target.saveCheckpoint checkpoint).view.checkpoint = some checkpoint := by
  unfold saveCheckpoint
  cases h : target.transaction with
  | none => simp [change_of_none h, view]
  | some changes => simp [change_of_some h, view]

/-- A checkpoint leaves the work alone. -/
@[simp] theorem saveCheckpoint_view_work (checkpoint : Checkpoint) :
    (target.saveCheckpoint checkpoint).view.work = target.view.work := by
  unfold saveCheckpoint
  cases h : target.transaction with
  | none => simp [change_of_none h, view, h]
  | some changes => simp [change_of_some h, view, h]

/-- A replayed statement goes to the end of the view, whether or not it commits. -/
@[simp] theorem replay_view_work (source : BinlogCoordinate) (sql : String) :
    (target.replay source sql).view.work = target.view.work ++ [.statement source sql] := by
  unfold replay
  dsimp only
  split
  · rw [applyWork_view_work, commit_view]
  · rw [applyWork_view_work]

/-- Work leaves the checkpoint of the view alone. -/
@[simp] theorem applyWork_view_checkpoint (work : List TargetWork) :
    (target.applyWork work).view.checkpoint = target.view.checkpoint := by
  unfold applyWork
  cases h : target.transaction with
  | none => simp [change_of_none h, view, h]
  | some changes => simp [change_of_some h, view, h]

/-- Without a checkpoint in the transaction the view has the durable one. -/
theorem OnlyWork.view_checkpoint {target : Target} (h : target.OnlyWork) :
    target.view.checkpoint = target.db.checkpoint := by
  cases ht : target.transaction with
  | none => rw [view_of_none ht]
  | some changes => simp [view_of_some ht, (h changes ht).1]

/-- Without journal changes in the transaction the view has the durable journal. -/
theorem OnlyWork.view_journal {target : Target} (h : target.OnlyWork) :
    target.view.journal = target.db.journal := by
  cases ht : target.transaction with
  | none => rw [view_of_none ht]
  | some changes => simp [view_of_some ht, TargetDb.apply, (h changes ht).2]

/-- A target without a transaction holds nothing. -/
theorem onlyWork_of_none {target : Target} (h : target.transaction = none) : target.OnlyWork := by
  intro changes hchanges
  rw [h] at hchanges
  cases hchanges

/-- A new transaction holds nothing. -/
theorem onlyWork_begin : target.begin.OnlyWork := by
  intro changes hchanges
  cases hchanges
  exact ⟨rfl, rfl⟩

/-- Work keeps the transaction one of work only. -/
theorem OnlyWork.applyWork {target : Target} (h : target.OnlyWork) (work : List TargetWork) :
    (target.applyWork work).OnlyWork := by
  intro changes hchanges
  unfold Target.applyWork at hchanges
  cases ht : target.transaction with
  | none =>
    rw [change_of_none ht] at hchanges
    cases hchanges
  | some old =>
    rw [change_of_some ht] at hchanges
    cases hchanges
    exact h old ht

/-- A replayed statement keeps the transaction one of work only. -/
theorem OnlyWork.replay {target : Target} (h : target.OnlyWork) (source : BinlogCoordinate)
    (sql : String) : (target.replay source sql).OnlyWork := by
  unfold Target.replay
  dsimp only
  split
  · exact (onlyWork_of_none target.commit_transaction).applyWork _
  · exact h.applyWork _

end Target

end BinlogCdc
