import BinlogCdc.Stream.DdlHistory

/-!
# The checkpoint of a DDL event

In every run of the DDL handler the checkpoint moves to the end of the event only in the
transaction that moves the event's journal row from applied to checkpointed, after the target
was observed in the expected state, and from a checkpoint that is not after the start of the
event. A run that stops has moved neither.
-/

namespace BinlogCdc

/-! ## Verified rows -/

/-- The expected state of every applied row was observed. -/
def Verified (trace : List TraceEntry) (journal : Journal) : Prop :=
  ∀ event row, journal.row event = some row → row.status = .applied ∨ row.status = .checkpointed →
    Observed trace row.event row.evidence.expectedPostState

namespace Verified

variable {trace trace' : List TraceEntry} {journal : Journal}

theorem mono (h : Verified trace journal) (hsub : ∀ x ∈ trace, x ∈ trace') :
    Verified trace' journal := by
  intro event row hrow hstatus
  obtain ⟨x, hx, hop⟩ := h event row hrow hstatus
  exact ⟨x, hsub x hx, hop⟩

/-- A row that is not applied, or whose expected state was observed, may be written. -/
theorem put (h : Verified trace journal) (row : JournalRow)
    (hrow : row.status = .applied ∨ row.status = .checkpointed →
      Observed trace row.event row.evidence.expectedPostState) : Verified trace (journal.put row) := by
  intro event other hother hstatus
  by_cases hkey : event.key = row.event.key
  · rw [Journal.row_put_of_key_eq hkey] at hother
    cases hother
    exact hrow hstatus
  · rw [Journal.row_put_of_key_ne hkey] at hother
    exact h event other hother hstatus

end Verified

/-- The commit that moves the checkpoint to the end of a DDL event: it commits the journal row's
move to checkpointed in the same transaction, the expected state of the row was observed, and
the checkpoint before is not after the start of the event. -/
structure Finalizes (event : DdlEvent) (past : List TraceEntry) (x : TraceEntry) : Prop where
  /-- It is a commit. -/
  commit : x.op = .commit
  /-- The transaction holds the checkpoint and the move of the row. -/
  transaction : x.before.transaction =
    some { checkpoint := some event.checkpoint, checkpointed := [event] }
  /-- The checkpoint is the end of the event. -/
  checkpoint : x.after.db.checkpoint = some event.checkpoint
  /-- The checkpoint before is not after the start of the event. -/
  predecessor : ∃ current, x.before.db.checkpoint = some current ∧
    (current.sourceFile < event.binlogFile ∨ (current.sourceFile = event.binlogFile ∧
      current.sourcePosition ≤ event.eventStartPosition))
  /-- The row moves, and its expected state was observed. -/
  row : ∃ evidence, x.before.db.journal.row event = some ⟨event, evidence, .applied⟩ ∧
    x.after.db.journal.row event = some ⟨event, evidence, .checkpointed⟩ ∧
    Observed past event evidence.expectedPostState

/-- The operation changes the durable checkpoint. -/
def TraceEntry.MovesCheckpoint (x : TraceEntry) : Prop :=
  x.after.db.checkpoint ≠ x.before.db.checkpoint

/-- The operation makes the event checkpointed. -/
def TraceEntry.Checkpoints (event : DdlEvent) (x : TraceEntry) : Prop :=
  x.after.db.journal.Holds event .checkpointed ∧ ¬x.before.db.journal.Holds event .checkpointed

section Handler

variable {semantics : DdlSemantics} {entry : Option TargetChanges} {event : DdlEvent}
  {committing : Bool} {past : List TraceEntry}

/-- A checkpoint that passes the predecessor check is not after the start of the event. -/
theorem predecessor_of_ok {checkpoint : Option Checkpoint}
    (h : ensureAutomaticDdlCheckpointPredecessor checkpoint event = .ok ()) :
    ∃ current, checkpoint = some current ∧
      (current.sourceFile < event.binlogFile ∨ (current.sourceFile = event.binlogFile ∧
        current.sourcePosition ≤ event.eventStartPosition)) := by
  cases checkpoint with
  | none => cases h
  | some current =>
    exact ⟨current, rfl, (ensureAutomaticDdlCheckpointPredecessor_ok_iff current event).mp h⟩

/-- A row written in another status does not make the event checkpointed. -/
theorem not_checkpoints_putRow {op : TargetOp} {target : Target} {evidence : DdlSemanticEvidence}
    {status : DdlReplayStatus} (hstatus : status ≠ .checkpointed) :
    ¬TraceEntry.Checkpoints event ⟨op, target, target.putRow ⟨event, evidence, status⟩⟩ := by
  rintro ⟨⟨other, hother⟩, -⟩
  rw [Target.putRow_journal, Journal.row_put] at hother
  cases hother
  exact hstatus rfl

/-- Among the operations of the DDL handler only its commit moves the checkpoint or makes the
event checkpointed. -/
theorem DdlAction.finalizes {target target' : Target} {trace : List TraceEntry} {op : TargetOp}
    (haction : DdlAction semantics entry event committing target trace op target')
    (hverified : Verified past target.db.journal)
    (hmoves : TraceEntry.MovesCheckpoint ⟨op, target, target'⟩ ∨
      TraceEntry.Checkpoints event ⟨op, target, target'⟩) :
    committing = true ∧ Finalizes event past ⟨op, target, target'⟩ := by
  -- An operation that leaves checkpoint and journal alone does neither.
  have hsame : target'.db.checkpoint = target.db.checkpoint →
      target'.db.journal = target.db.journal → False := by
    intro hcheckpoint hjournal
    rcases hmoves with hmoves | ⟨hafter, hbefore⟩
    · exact hmoves hcheckpoint
    · exact hbefore (hjournal ▸ hafter)
  cases haction with
  | look => exact (hsame rfl rfl).elim
  | recordPending =>
    rcases hmoves with hmoves | hmoves
    · exact absurd rfl hmoves
    · exact absurd hmoves (not_checkpoints_putRow nofun)
  | prepare =>
    rcases hmoves with hmoves | hmoves
    · exact absurd rfl hmoves
    · exact absurd hmoves (not_checkpoints_putRow nofun)
  | markApplied =>
    rcases hmoves with hmoves | hmoves
    · exact absurd rfl hmoves
    · exact absurd hmoves (not_checkpoints_putRow nofun)
  | markBlocked =>
    rcases hmoves with hmoves | hmoves
    · exact absurd rfl hmoves
    · exact absurd hmoves (not_checkpoints_putRow nofun)
  | recover =>
    rcases hmoves with hmoves | hmoves
    · exact absurd rfl hmoves
    · exact absurd hmoves (not_checkpoints_putRow nofun)
  | executeLegacy sql hfree =>
    exact (hsame (hfree.onlyWork.executeDdl_checkpoint event sql)
      (hfree.onlyWork.executeDdl_journal event sql)).elim
  | begin hfree => exact (hsame hfree.onlyWork.view_checkpoint hfree.onlyWork.view_journal).elim
  | mark ht =>
    have hdb := target.change_db_of_isSome (by simp [ht])
    exact (hsame (congrArg TargetDb.checkpoint (hdb _)) (congrArg TargetDb.journal (hdb _))).elim
  | save ht =>
    have hdb := target.change_db_of_isSome (by simp [ht])
    exact (hsame (congrArg TargetDb.checkpoint (hdb _)) (congrArg TargetDb.journal (hdb _))).elim
  | commit hcommitting ht hrow hbefore =>
    obtain ⟨evidence, hrow⟩ := hrow
    obtain ⟨current, hcurrent, hbefore⟩ := predecessor_of_ok hbefore
    refine ⟨hcommitting, rfl, ht, ?_, ⟨current, hcurrent, hbefore⟩, evidence, hrow, ?_,
      hverified event _ hrow (Or.inl rfl)⟩
    · rw [Target.commit_db, Target.view_of_some ht]
      rfl
    · rw [Target.commit_db, Target.view_of_some ht]
      change (target.db.journal.markCheckpointed event).row event = _
      rw [Journal.markCheckpointed_of_applied hrow, Journal.row_put]
  | rollback => exact (hsame rfl rfl).elim

/-- Every operation of the DDL handler keeps applied rows verified. -/
theorem DdlAction.verified {target target' : Target} {trace : List TraceEntry} {op : TargetOp}
    (haction : DdlAction semantics entry event committing target trace op target')
    (hsub : ∀ x ∈ trace, x ∈ past) (h : Verified past target.db.journal) :
    Verified past target'.db.journal := by
  have hpast : ∀ {state : String}, Observed trace event state → Observed past event state := by
    rintro state ⟨x, hx, hop⟩
    exact ⟨x, hsub x hx, hop⟩
  cases haction with
  | look => exact h
  | recordPending => exact h.put _ (by rintro (h | h) <;> cases h)
  | prepare => exact h.put _ (by rintro (h | h) <;> cases h)
  | markApplied evidence _ hobserved => exact h.put _ fun _ => hpast hobserved
  | markBlocked => exact h.put _ (by rintro (h | h) <;> cases h)
  | recover old new _ _ hobserved => exact h.put _ fun _ => hpast hobserved
  | executeLegacy sql hfree => rwa [hfree.onlyWork.executeDdl_journal event sql]
  | begin hfree => rwa [Target.begin_db, hfree.onlyWork.view_journal]
  | mark ht =>
    rwa [show (target.markCheckpointed event).db = target.db from
      target.change_db_of_isSome (by simp [ht]) _]
  | save ht =>
    rwa [show (target.saveCheckpoint event.checkpoint).db = target.db from
      target.change_db_of_isSome (by simp [ht]) _]
  | commit _ ht hrow =>
    obtain ⟨evidence, hrow⟩ := hrow
    have hjournal : target.commit.db.journal =
        target.db.journal.put ⟨event, evidence, .checkpointed⟩ := by
      rw [Target.commit_db, Target.view_of_some ht]
      exact Journal.markCheckpointed_of_applied hrow
    have hobserved := h event _ hrow (Or.inl rfl)
    rw [hjournal]
    exact h.put _ fun _ => hobserved
  | rollback => exact h

/-- An entry of a trace with one more operation is that operation or an earlier one. -/
theorem concat_eq_append_cons {α : Type} {xs before after : List α} {y x : α}
    (h : xs ++ [y] = before ++ x :: after) :
    (before = xs ∧ x = y) ∨ ∃ rest, xs = before ++ x :: rest := by
  rcases List.eq_nil_or_concat after with rfl | ⟨rest, z, rfl⟩
  · obtain ⟨hxs, hy⟩ := List.append_inj' h rfl
    exact Or.inl ⟨hxs.symm, (List.cons.inj hy).1.symm⟩
  · rw [List.concat_eq_append, ← List.cons_append, ← List.append_assoc] at h
    exact Or.inr ⟨rest, (List.append_inj' h rfl).1⟩

/-- The operations after a trace that move the checkpoint or make the event checkpointed all
finalize it. -/
def FinalizesOnly (event : DdlEvent) (committing : Bool) (past start trace : List TraceEntry) :
    Prop :=
  ∀ before x after, trace = before ++ x :: after → start <+: before →
    x.MovesCheckpoint ∨ x.Checkpoints event →
    committing = true ∧ Finalizes event (past ++ before) x

theorem FinalizesOnly.refl (event : DdlEvent) (committing : Bool) (past start : List TraceEntry) :
    FinalizesOnly event committing past start start := by
  intro before x after htrace hbegins _
  have hlength := hbegins.length_le
  simp only [htrace, List.length_append, List.length_cons] at hlength
  omega

theorem FinalizesOnly.concat {start trace : List TraceEntry}
    (h : FinalizesOnly event committing past start trace) {y : TraceEntry}
    (hy : y.MovesCheckpoint ∨ y.Checkpoints event →
      committing = true ∧ Finalizes event (past ++ trace) y) :
    FinalizesOnly event committing past start (trace ++ [y]) := by
  intro before x after htrace hbegins hmoves
  rcases concat_eq_append_cons htrace with ⟨rfl, rfl⟩ | ⟨rest, hrest⟩
  · exact hy hmoves
  · exact h before x rest hrest hbegins hmoves

/-- A run of the DDL handler keeps applied rows verified, and only its commit finalizes. -/
theorem DdlRun.finalizes {s s' : Runtime} (hrun : DdlRun semantics entry event committing s s')
    (hverified : Verified (past ++ s.trace) s.target.db.journal) :
    Verified (past ++ s'.trace) s'.target.db.journal ∧
      FinalizesOnly event committing past s.trace s'.trace := by
  induction hrun with
  | refl => exact ⟨hverified, .refl event committing past s.trace⟩
  | tail _ step ih =>
    obtain ⟨hverified, hfinalizes⟩ := ih
    cases step with
    | quiet htarget htrace =>
      rw [htarget, htrace]
      exact ⟨hverified, hfinalizes⟩
    | act haction =>
      constructor
      · refine (haction.verified (fun x hx => List.mem_append_right _ hx) hverified).mono ?_
        intro x hx
        rw [Runtime.perform_trace, ← List.append_assoc]
        exact List.mem_append_left _ hx
      · exact hfinalizes.concat fun hmoves => haction.finalizes hverified hmoves
    | prepareAndExecute evidence sql hfree =>
      have hput := hfree.putRow ⟨event, evidence, .prepared⟩
      constructor
      · rw [Runtime.perform_target, hput.onlyWork.executeDdl_journal event sql]
        have hwritten := hverified.put ⟨event, evidence, .prepared⟩
          (by rintro (h | h) <;> cases h)
        refine hwritten.mono ?_
        intro x hx
        simp only [Runtime.perform_trace, ← List.append_assoc]
        exact List.mem_append_left _ (List.mem_append_left _ hx)
      · refine (hfinalizes.concat ?_).concat ?_
        · rintro (hmoves | hmoves)
          · exact absurd rfl hmoves
          · exact absurd hmoves (not_checkpoints_putRow nofun)
        · rintro (hmoves | ⟨⟨other, hafter⟩, -⟩)
          · exact absurd (hput.onlyWork.executeDdl_checkpoint event sql) hmoves
          · dsimp only [Runtime.perform_target] at hafter
            rw [hput.onlyWork.executeDdl_journal event sql, Target.putRow_journal,
              Journal.row_put] at hafter
            cases hafter

end Handler

/-! ## The flush before the handler -/

/-- The operation leaves the journal alone and moves the checkpoint at most to the pending
one. -/
structure TraceEntry.FlushesTo (pending : Option Checkpoint) (x : TraceEntry) : Prop where
  /-- The journal stays. -/
  journal : x.after.db.journal = x.before.db.journal
  /-- A moved checkpoint is the pending one. -/
  checkpoint : x.MovesCheckpoint →
    ∃ checkpoint, pending = some checkpoint ∧ x.after.db.checkpoint = some checkpoint

section Flush

variable {target : Target} {pending : Option Checkpoint} {x : TraceEntry}

/-- A rollback moves nothing. -/
theorem TraceEntry.flushesTo_of_rollback (h : x.after = x.before.rollback) :
    x.FlushesTo pending := by
  refine ⟨?_, fun hmoves => absurd ?_ hmoves⟩
  · rw [h]
    rfl
  · rw [h]
    rfl

theorem commitScript_flushesTo (h : target.OnlyWork) (hx : x ∈ commitScript target pending) :
    x.FlushesTo pending := by
  have hkeeps := Target.KeepsLog.of_onlyWork h
  have hjournal : ∀ {after : Target}, target.KeepsLog after →
      after.db.journal = target.db.journal := fun hafter => congrArg DdlLog.journal hafter.log
  cases pending with
  | none =>
    simp only [commitScript, saveScript, Target.savePending, List.nil_append,
      List.mem_singleton] at hx
    subst hx
    exact ⟨hjournal hkeeps.commit, fun hmoves => absurd h.view_checkpoint hmoves⟩
  | some checkpoint =>
    simp only [commitScript, saveScript, Target.savePending, List.cons_append, List.nil_append,
      List.mem_cons, List.not_mem_nil, or_false] at hx
    have hsaved := hkeeps.savePending (some checkpoint)
    rcases hx with rfl | rfl | rfl
    · exact ⟨rfl, fun hmoves => absurd rfl hmoves⟩
    · refine ⟨hjournal hsaved, fun hmoves => ⟨checkpoint, rfl, ?_⟩⟩
      -- Without a transaction the statement commits by itself.
      cases ht : target.transaction with
      | none =>
        rw [show target.saveCheckpoint checkpoint =
          ⟨target.db.apply { checkpoint := some checkpoint }, none⟩ from Target.change_of_none ht _]
        rfl
      | some changes =>
        exact absurd (congrArg TargetDb.checkpoint (target.change_db_of_isSome (by simp [ht]) _))
          hmoves
    · refine ⟨?_, fun _ => ⟨checkpoint, rfl, target.saveCheckpoint_view_checkpoint checkpoint⟩⟩
      exact (hjournal hsaved.commit).trans (hjournal hsaved).symm

theorem StreamCore.flushScript_flushesTo {c : StreamCore} (h : c.Sound) (hx : x ∈ c.flushScript) :
    x.FlushesTo c.pending := by
  unfold flushScript at hx
  split at hx
  · exact commitScript_flushesTo h.onlyWork hx
  · cases hx

end Flush

/-- An entry of a trace comes after a beginning of it or belongs to it. -/
theorem prefix_or_append_cons {α : Type} {start before after : List α} {x : α}
    (h : start <+: before ++ x :: after) :
    start <+: before ∨ ∃ rest, start = before ++ x :: rest := by
  rcases List.prefix_or_prefix_of_prefix h (List.prefix_append before (x :: after)) with
    hstart | ⟨rest, rfl⟩
  · exact Or.inl hstart
  · cases rest with
    | nil => exact Or.inl (by simp)
    | cons y rest =>
      have hcons := (List.prefix_append_right_inj before).mp h
      obtain ⟨rfl, -⟩ := List.cons_prefix_cons.mp hcons
      exact Or.inr ⟨rest, rfl⟩

/-- What comes after a beginning belongs to the rest. -/
theorem mem_of_append_cons {α : Type} {start rest before after : List α} {x : α}
    (h : start ++ rest = before ++ x :: after) (hbegins : start <+: before) : x ∈ rest := by
  obtain ⟨more, rfl⟩ := hbegins
  rw [List.append_assoc] at h
  rw [List.append_cancel_left h]
  exact List.mem_append_right _ (List.mem_cons_self ..)

/-! ## Events -/

/-- After a beginning of the trace every operation belongs to the flush of the pending
checkpoint, or moves the checkpoint and the event's row only together. -/
def MovesTogether (event : DdlEvent) (pending : Option Checkpoint) (committing : Bool)
    (past start trace : List TraceEntry) : Prop :=
  ∀ before x after, trace = before ++ x :: after → start <+: before →
    x.FlushesTo pending ∨ (x.MovesCheckpoint ∨ x.Checkpoints event →
      committing = true ∧ Finalizes event (past ++ before) x)

section Events

variable {world : World} {config : StreamConfig} {table name : String} {s s₁ s' : Runtime}
  {past : List TraceEntry}

/-- A performed script that leaves the log alone keeps applied rows verified. -/
theorem Performed.verified {script : List TraceEntry} (h : Performed s script s')
    (hscript : ∀ x ∈ script, s.target.KeepsLog x.after)
    (hverified : Verified (past ++ s.trace) s.target.db.journal) :
    Verified (past ++ s'.trace) s'.target.db.journal := by
  rw [show s'.target.db.journal = s.target.db.journal from
    congrArg DdlLog.journal (h.log hscript), h.trace, ← List.append_assoc]
  exact hverified.mono fun x hx => List.mem_append_left _ hx

/-- A stopped script that leaves the log alone keeps applied rows verified. -/
theorem Stopped.verified {script : List TraceEntry} (h : Stopped s script s')
    (hscript : ∀ x ∈ script, s.target.KeepsLog x.after)
    (hverified : Verified (past ++ s.trace) s.target.db.journal) :
    Verified (past ++ s'.trace) s'.target.db.journal := by
  obtain ⟨issued, htrace, -⟩ := h.trace
  rw [show s'.target.db.journal = s.target.db.journal from
    congrArg DdlLog.journal (h.log hscript), htrace, ← List.append_assoc]
  exact hverified.mono fun x hx => List.mem_append_left _ hx

/-- Flushing leaves the log alone. -/
theorem flushScript_keepsLog_of_sound (hsound : s.core.Sound) :
    ∀ x ∈ s.core.flushScript, s.target.KeepsLog x.after := fun _ hx =>
  StreamCore.flushScript_keepsLog (.of_onlyWork hsound.onlyWork) hx

/-- The flush and the run of the DDL handler keep applied rows verified and move the checkpoint
together with the row. -/
theorem DdlRun.movesTogether {entry : Option TargetChanges} {event : DdlEvent} {committing : Bool}
    (hrun : DdlRun world.semantics entry event committing s₁ s') (hsound : s.core.Sound)
    (hflush : Performed s s.core.flushScript s₁)
    (hverified : Verified (past ++ s.trace) s.target.db.journal) :
    Verified (past ++ s'.trace) s'.target.db.journal ∧
      MovesTogether event s.core.pending committing past s.trace s'.trace := by
  have hverified₁ := hflush.verified (flushScript_keepsLog_of_sound hsound) hverified
  obtain ⟨hverified', hfinalizes⟩ := hrun.finalizes hverified₁
  refine ⟨hverified', ?_⟩
  intro before x after htrace hstart
  have hbegins := hrun.trace_prefix
  rw [htrace] at hbegins
  rcases prefix_or_append_cons hbegins with hafter | ⟨rest, hflushed⟩
  · exact Or.inr (hfinalizes before x after htrace hafter)
  · rw [hflush.trace] at hflushed
    exact Or.inl (StreamCore.flushScript_flushesTo hsound (mem_of_append_cons hflushed hstart))

/-- A flush that stops moves nothing else. -/
theorem Stopped.movesTogether (hstop : Stopped s s.core.flushScript s') (hsound : s.core.Sound)
    (event : DdlEvent) (committing : Bool) (past : List TraceEntry) :
    MovesTogether event s.core.pending committing past s.trace s'.trace := by
  obtain ⟨issued, hissued, hscript⟩ := hstop.trace
  intro before x after htrace hstart
  rw [hissued] at htrace
  rcases hscript x (mem_of_append_cons htrace hstart) with hx | ⟨-, hrollback⟩
  · exact Or.inl (StreamCore.flushScript_flushesTo hsound hx)
  · exact Or.inl (TraceEntry.flushesTo_of_rollback hrollback)

/-- Every event keeps applied rows verified, whether its handling succeeds or stops. -/
theorem wp_processStreamEvent_verified (hmode : config.checkpoint = .targetTable table name)
    (hsound : s.core.Sound) (input : SourceStreamEvent)
    (hverified : Verified (past ++ s.trace) s.target.db.journal) :
    Prog.wp (processStreamEvent world config input)
      (fun _ s' => Verified (past ++ s'.trace) s'.target.db.journal)
      (fun _ s' => Verified (past ++ s'.trace) s'.target.db.journal) s := by
  have hscript : ∀ now, ∀ x ∈ s.core.inputScript world.codec config.groupConfig input now,
      s.target.KeepsLog x.after := fun now x hx =>
    StreamCore.eventScript_keepsLog (c := s.core.located input.sourcePosition)
      (.of_onlyWork hsound.onlyWork) hx
  have hflush := flushScript_keepsLog_of_sound hsound
  refine wp_processStreamEvent hmode hsound ?_ ?_ ?_ ?_ ?_ ?_
  · intro now s' _ _ hs' _
    exact hs'.verified (hscript now) hverified
  · intro now stop s' _ _ hs'
    exact hs'.verified (hscript now) hverified
  · intro stop s' _ hs'
    exact hs'.verified hflush hverified
  · intro query s₁ s' _ hs₁ _ hrun _
    exact (hrun.movesTogether hsound hs₁ hverified).1
  · intro query s₁ stop s' _ hs₁ _ hrun
    exact (hrun.movesTogether hsound hs₁ hverified).1
  · intro query s₁ stop s' _ hs₁ _ hrun
    exact (hrun.movesTogether hsound hs₁ hverified).1

/-- A DDL event moves the checkpoint together with its row, and a run that stops moves neither. -/
theorem wp_processStreamEvent_movesTogether (hmode : config.checkpoint = .targetTable table name)
    (hsound : s.core.Sound) {input : SourceStreamEvent} {query : QueryEvent}
    (hroute : s.core.reader.routeOf world.semantics input = .automatic query ∨
      s.core.reader.routeOf world.semantics input = .manual query)
    (hverified : Verified (past ++ s.trace) s.target.db.journal) :
    Prog.wp (processStreamEvent world config input)
      (fun _ s' => MovesTogether (s.core.ddlEvent config input query) s.core.pending true past
        s.trace s'.trace)
      (fun _ s' => MovesTogether (s.core.ddlEvent config input query) s.core.pending false past
        s.trace s'.trace) s := by
  -- The event has no other query than the one of its route.
  have hquery : ∀ {other : QueryEvent},
      s.core.reader.routeOf world.semantics input = .automatic other ∨
        s.core.reader.routeOf world.semantics input = .manual other → other = query := by
    intro other hother
    have hevent := (event_of_routeOf hother).symm.trans (event_of_routeOf hroute)
    exact BinlogEvent.query.inj hevent
  have hnot : s.core.reader.routeOf world.semantics input ≠ .transactional := by
    rcases hroute with hroute | hroute
    · rw [hroute]
      nofun
    · rw [hroute]
      nofun
  refine wp_processStreamEvent hmode hsound ?_ ?_ ?_ ?_ ?_ ?_
  · intro now s' htransactional
    exact absurd htransactional hnot
  · intro now stop s' htransactional
    exact absurd htransactional hnot
  · intro stop s' _ hs'
    exact hs'.movesTogether hsound _ _ past
  · intro other s₁ s' hother hs₁ _ hrun _
    obtain rfl := hquery (Or.inl hother)
    exact (hrun.movesTogether hsound hs₁ hverified).2
  · intro other s₁ stop s' hother hs₁ _ hrun
    obtain rfl := hquery (Or.inl hother)
    exact (hrun.movesTogether hsound hs₁ hverified).2
  · intro other s₁ stop s' hother hs₁ _ hrun
    obtain rfl := hquery (Or.inr hother)
    exact (hrun.movesTogether hsound hs₁ hverified).2

/-- Wherever a run stops, applied rows are verified. -/
theorem wp_streamEvents_verified (hmode : config.checkpoint = .targetTable table name)
    (hsound : s.core.Sound) (inputs : List SourceStreamEvent)
    (hverified : Verified (past ++ s.trace) s.target.db.journal) :
    Prog.wp (streamEvents world config inputs)
      (fun _ s' => s'.core.Sound ∧ Verified (past ++ s'.trace) s'.target.db.journal)
      (fun _ s' => Verified (past ++ s'.trace) s'.target.db.journal) s := by
  refine Prog.wp_forEach (fun _ s' => s'.core.Sound ∧
    Verified (past ++ s'.trace) s'.target.db.journal) inputs (processStreamEvent world config) ?_
    ⟨hsound, hverified⟩
  rintro _ input _ s' - ⟨hsound', hverified'⟩
  refine Prog.wp_mono (Prog.wp_and (wp_processStreamEvent_ledger hmode hsound' input)
    (wp_processStreamEvent_verified hmode hsound' input hverified')) ?_ ?_
  · rintro _ s'' ⟨hconsumed, hverified''⟩
    exact ⟨hconsumed.sound, hverified''⟩
  · rintro _ s'' ⟨-, hverified''⟩
    exact hverified''

end Events

/-- Over any history from an empty journal, applied rows are verified. -/
theorem History.verified {semantics : DdlSemantics} {base db : TargetDb} {trace : List TraceEntry}
    (h : History semantics base trace db) (hbase : base.journal = .empty) :
    Verified trace db.journal := by
  induction h with
  | start =>
    intro event row hrow
    rw [hbase] at hrow
    cases hrow
  | attempt _ world hsemantics sourceIdentity table name groupConfig lastCheckpoint sourceDatabase
      currentFile inputs ih =>
    have hmode : (StreamConfig.mk sourceIdentity groupConfig (.targetTable table name)).checkpoint =
        .targetTable table name := rfl
    refine Prog.wp_final (R := fun s' => Verified (_ ++ s'.trace) s'.target.db.journal)
      (Prog.wp_mono (wp_streamEvents_verified hmode (Runtime.attempt_sound ..) inputs ?_)
        (fun _ _ h => h.2) fun _ _ h => h)
    exact ih.mono fun x hx => List.mem_append_left _ hx

/-! ## The checkpoint transaction -/

/-- The durable checkpoint and the journal are the same. -/
structure Target.KeepsCheckpoint (before after : Target) : Prop where
  /-- The checkpoint is the same. -/
  checkpoint : after.db.checkpoint = before.db.checkpoint
  /-- The journal is the same. -/
  journal : after.db.journal = before.db.journal

section Transaction

variable {world : World} {config : StreamConfig} {event : DdlEvent} {s : Runtime}

/-- Inside its transaction the handler changes nothing durable before the commit. -/
theorem wp_checkpointDdlEvent_failure (htransaction : s.target.transaction.isSome = true)
    (checkpoint : Checkpoint) :
    Prog.wp (checkpointDdlEvent world event checkpoint) (fun _ _ => True)
      (fun _ s' => s'.target.db = s.target.db) s := by
  unfold checkpointDdlEvent
  simp only [Prog.wp_bind]
  refine wp_operate ?_ fun _ => rfl
  intro locked target heffect
  cases heffect
  rw [wp_decided]
  refine ⟨?_, fun _ _ => rfl⟩
  intro _ _
  refine wp_transition ?_ fun _ => rfl
  have hmark : (s.target.markCheckpointed event).db = s.target.db :=
    s.target.change_db_of_isSome htransaction _
  have hopen : (s.target.markCheckpointed event).transaction.isSome = true := by
    unfold Target.markCheckpointed
    rw [Target.change_transaction_isSome]
    exact htransaction
  refine wp_transition ?_ fun _ => hmark
  have hsave : ((s.target.markCheckpointed event).saveCheckpoint checkpoint).db = s.target.db :=
    ((s.target.markCheckpointed event).change_db_of_isSome hopen _).trans hmark
  exact wp_transition trivial fun _ => hsave

/-- A checkpoint transaction that fails at any step leaves the checkpoint and the journal as they
were. -/
theorem wp_finalizeAutomaticDdlCheckpoint_failure (h : s.target.OnlyWork) :
    Prog.wp (finalizeAutomaticDdlCheckpoint world config event) (fun _ _ => True)
      (fun _ s' => s.target.KeepsCheckpoint s'.target) s := by
  -- The transaction that stores the checkpoint.
  have hstore : ∀ s₁ : Runtime, s₁.target = s.target → Prog.wp (do
      transition world .target .begin Target.begin
      Prog.onError (checkpointDdlEvent world event event.checkpoint) fun error => do
        transition world .target .rollback Target.rollback
        stopWith error
      Prog.update fun s => { s with currentFile := event.binlogFile })
      (fun _ _ => True) (fun _ s' => s.target.KeepsCheckpoint s'.target) s₁ := by
    intro s₁ htarget
    have hsame : s.target.KeepsCheckpoint s₁.target := by
      rw [htarget]
      exact ⟨rfl, rfl⟩
    simp only [Prog.wp_bind, Prog.wp_update]
    refine wp_transition ?_ fun _ => hsame
    have hbegun : s.target.KeepsCheckpoint s₁.target.begin := by
      rw [htarget]
      exact ⟨h.view_checkpoint, h.view_journal⟩
    rw [Prog.wp_onError]
    refine Prog.wp_mono (wp_checkpointDdlEvent_failure rfl event.checkpoint) (fun _ _ h => h) ?_
    intro stop s₂ hdb
    have hkept : s.target.KeepsCheckpoint s₂.target := by
      refine ⟨?_, ?_⟩
      · rw [hdb]
        exact hbegun.checkpoint
      · rw [hdb]
        exact hbegun.journal
    cases stop with
    | crash => exact hkept
    | error error =>
      simp only [Prog.wp_bind, wp_stopWith]
      exact wp_transition ⟨hkept.checkpoint, hkept.journal⟩ fun _ => hkept
  unfold finalizeAutomaticDdlCheckpoint ensureResolvedDdlCheckpointAdvances
  rw [Prog.wp_bind]
  split
  · unfold loadCheckpoint
    simp only [Prog.wp_bind]
    refine wp_operate ?_ fun _ => ⟨rfl, rfl⟩
    intro current target heffect
    cases heffect
    simp only [Prog.wp_update, Prog.wp_pure, wp_decided]
    refine ⟨fun _ _ => ?_, fun _ _ => ⟨rfl, rfl⟩⟩
    split
    · exact hstore _ rfl
    · exact ⟨rfl, rfl⟩
  · split
    · exact hstore s rfl
    · exact ⟨rfl, rfl⟩

end Transaction

end BinlogCdc
