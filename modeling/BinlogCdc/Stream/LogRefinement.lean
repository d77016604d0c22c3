import BinlogCdc.Stream.Dispatch

/-!
# The stream refines the DDL log

The transactional handlers leave the journal and the executed DDL alone, and every step of
the DDL handler is a step of the DDL log. So whatever an attempt does, and wherever it
stops, the durable contents have moved along a run of the DDL log.
-/

namespace BinlogCdc

/-! ## Work leaves the log alone -/

/-- The log is the same, and the open transaction moves no journal row. -/
structure Target.KeepsLog (before after : Target) : Prop where
  /-- The durable log is the same. -/
  log : after.db.ddlLog = before.db.ddlLog
  /-- The open transaction moves no journal row. -/
  unmarked : ∀ changes, after.transaction = some changes → changes.checkpointed = []

namespace Target.KeepsLog

variable {before after : Target}

theorem of_onlyWork (h : before.OnlyWork) : before.KeepsLog before :=
  ⟨rfl, fun changes hchanges => (h changes hchanges).2⟩

/-- The connection sees the durable log. -/
theorem view (h : before.KeepsLog after) : after.view.ddlLog = before.db.ddlLog := by
  rw [← h.log]
  cases ht : after.transaction with
  | none => rw [Target.view_of_none ht]
  | some changes => simp [Target.view_of_some ht, TargetDb.ddlLog, TargetDb.apply, h.unmarked _ ht]

theorem begin (h : before.KeepsLog after) : before.KeepsLog after.begin := by
  refine ⟨h.view, fun changes hchanges => ?_⟩
  cases hchanges
  rfl

theorem commit (h : before.KeepsLog after) : before.KeepsLog after.commit :=
  ⟨h.view, fun _ hchanges => nomatch hchanges⟩

theorem storeCheckpoint (h : before.KeepsLog after) (checkpoint : Checkpoint) :
    before.KeepsLog (after.storeCheckpoint checkpoint) := ⟨h.log, h.unmarked⟩

/-- A statement that moves no journal row. -/
theorem change (h : before.KeepsLog after) {f : TargetChanges → TargetChanges}
    (hf : ∀ changes, (f changes).checkpointed = changes.checkpointed) :
    before.KeepsLog (after.change f) := by
  cases ht : after.transaction with
  | none =>
    rw [Target.change_of_none ht]
    refine ⟨?_, fun changes hchanges => nomatch hchanges⟩
    rw [← h.log]
    simp [TargetDb.ddlLog, TargetDb.apply, hf]
  | some changes =>
    rw [Target.change_of_some ht]
    refine ⟨h.log, fun next hnext => ?_⟩
    cases hnext
    rw [hf]
    exact h.unmarked changes ht

theorem applyOne (h : before.KeepsLog after) (work : TargetWork) :
    before.KeepsLog (after.applyOne work) := by
  cases work with
  | rowChange source change => exact h.change fun _ => rfl
  | statement source sql =>
    simp only [Target.applyOne, Target.replay]
    split
    · exact h.commit.change fun _ => rfl
    · exact h.change fun _ => rfl

theorem applyAll (h : before.KeepsLog after) (work : List TargetWork) :
    before.KeepsLog (after.applyAll work) := by
  induction work generalizing after with
  | nil => exact h
  | cons work rest ih => exact ih (h.applyOne work)

theorem savePending (h : before.KeepsLog after) (pending : Option Checkpoint) :
    before.KeepsLog (after.savePending pending) := by
  cases pending with
  | none => exact h
  | some checkpoint => exact h.change fun _ => rfl

end Target.KeepsLog

section Scripts

variable {before target : Target} {x : TraceEntry}

theorem commitScript_keepsLog (h : before.KeepsLog target) {pending : Option Checkpoint}
    (hx : x ∈ commitScript target pending) : before.KeepsLog x.after := by
  rcases List.mem_append.mp hx with hx | hx
  · cases pending with
    | none => cases hx
    | some checkpoint =>
      simp only [saveScript, List.mem_cons, List.not_mem_nil, or_false] at hx
      rcases hx with rfl | rfl
      · exact h
      · exact h.savePending (some checkpoint)
  · obtain rfl := List.mem_singleton.mp hx
    exact (h.savePending pending).commit

theorem workScript_keepsLog (h : before.KeepsLog target) {work : List TargetWork}
    (hx : x ∈ workScript target work) : before.KeepsLog x.after := by
  induction work generalizing target with
  | nil => cases hx
  | cons work rest ih =>
    rcases List.mem_cons.mp hx with rfl | hx
    · exact h.applyOne work
    · exact ih (h.applyOne work) hx

end Scripts

namespace StreamCore

variable {codec : RowCodec} {config : TargetTransactionGroupConfig} {c : StreamCore}
  {header : EventHeader} {event : BinlogEvent} {now : Readings} {before : Target}
  {x : TraceEntry}

theorem savedScript_keepsLog (h : before.KeepsLog c.target) {resume : Option BinlogCoordinate}
    (hx : x ∈ c.savedScript event resume) : before.KeepsLog x.after := by
  unfold savedScript storeScript at hx
  split at hx
  · cases hx
  · split at hx
    · cases hx
    · split at hx
      · cases hx
      · rcases List.mem_append.mp hx with hx | hx
        · split at hx
          · obtain rfl := List.mem_singleton.mp hx
            exact h
          · cases hx
        · split at hx
          · cases hx
          · obtain rfl := List.mem_singleton.mp hx
            exact h.storeCheckpoint _

theorem saved_keepsLog (h : before.KeepsLog c.target) (resume : Option BinlogCoordinate) :
    before.KeepsLog (c.saved event resume).target := by
  unfold saved
  cases resume with
  | none => exact h
  | some coordinate =>
    dsimp only
    split
    · exact h
    · rcases stored_target (c := c) (coordinateCheckpoint coordinate (eventName event)) with
        htarget | htarget
      · simp only [htarget]
        exact h
      · simp only [htarget]
        exact h.storeCheckpoint _

theorem flushed_keepsLog (h : before.KeepsLog c.target) : before.KeepsLog c.flushed.target := by
  unfold flushed
  split
  · exact (h.savePending c.pending).commit
  · exact h

theorem flushScript_keepsLog (h : before.KeepsLog c.target) (hx : x ∈ c.flushScript) :
    before.KeepsLog x.after := by
  unfold flushScript at hx
  split at hx
  · exact commitScript_keepsLog h hx
  · cases hx

theorem settled_keepsLog (h : before.KeepsLog c.target) (now : Nat) :
    before.KeepsLog (c.settled config event now).target := by
  unfold settled
  split
  · exact flushed_keepsLog h
  · exact h

theorem ready_keepsLog (h : before.KeepsLog c.target) (now : Readings) :
    before.KeepsLog (c.ready config event now).target := by
  have hsettled : before.KeepsLog (c.settled config event now.before).target :=
    settled_keepsLog h now.before
  unfold ready entered begun
  split
  · split
    · exact hsettled
    · exact hsettled.begin
  · exact hsettled

/-- Every operation of the transactional handler leaves the log alone. -/
theorem eventScript_keepsLog (h : before.KeepsLog c.target)
    (hx : x ∈ c.eventScript codec config header event now) : before.KeepsLog x.after := by
  have hready : before.KeepsLog (c.ready config event now).target := ready_keepsLog h now
  have hhandled : before.KeepsLog
      ((c.ready config event now).handled codec header event).target := hready.applyAll _
  have hcounted : before.KeepsLog
      ((c.ready config event now).handled codec header event).counted.target := hhandled
  rcases List.mem_append.mp hx with hx | hx
  · rcases List.mem_append.mp hx with hx | hx
    · split at hx
      · exact flushScript_keepsLog h hx
      · cases hx
    · split at hx
      · unfold beginScript at hx
        split at hx
        · cases hx
        · obtain rfl := List.mem_singleton.mp hx
          exact (settled_keepsLog h now.before).begin
      · cases hx
  · rcases List.mem_append.mp hx with hx | hx
    · rcases List.mem_append.mp hx with hx | hx
      · unfold contextScript at hx
        split at hx
        · split at hx
          · obtain ⟨intvar, -, rfl⟩ := List.mem_map.mp hx
            exact hready
          · cases hx
        · cases hx
      · exact workScript_keepsLog hready hx
    · unfold closeScript at hx
      dsimp only at hx
      split at hx
      · unfold finishScript at hx
        rcases List.mem_append.mp hx with hx | hx
        · exact savedScript_keepsLog hcounted hx
        · split at hx
          · exact commitScript_keepsLog (saved_keepsLog hcounted _) hx
          · cases hx
      · exact savedScript_keepsLog hhandled hx

end StreamCore

/-! ## The DDL handler steps through the log -/

/-- The checkpoint transition of an applied row. -/
theorem Journal.markCheckpointed_of_applied {journal : Journal} {event : DdlEvent}
    {evidence : DdlSemanticEvidence}
    (hrow : journal.row event = some ⟨event, evidence, .applied⟩) :
    journal.markCheckpointed event = journal.put ⟨event, evidence, .checkpointed⟩ := by
  simp [Journal.markCheckpointed, Journal.update, hrow, updateGuard]

/-- An operation of the DDL handler is a step of the log, or leaves it alone. -/
theorem DdlAction.log {semantics : DdlSemantics} {entry : Option TargetChanges} {event : DdlEvent}
    {committing : Bool} {target target' : Target} {trace : List TraceEntry} {op : TargetOp}
    (haction : DdlAction semantics entry event committing target trace op target') :
    target'.db.ddlLog = target.db.ddlLog ∨
      DdlLog.Step semantics.IsLegacy target.db.ddlLog target'.db.ddlLog := by
  cases haction with
  | look => exact Or.inl rfl
  | recordPending hrow => exact Or.inr (.record event hrow)
  | prepare evidence hrow => exact Or.inr (.prepare event evidence hrow)
  | markApplied evidence hrow => exact Or.inr (.apply event evidence hrow)
  | markBlocked evidence hrow => exact Or.inr (.block event evidence hrow)
  | recover old new hrow hnew => exact Or.inr (.recover event old new hrow hnew)
  | executeLegacy sql hfree hlegacy hrow =>
    refine Or.inr ?_
    have hlog : (target.executeDdl event sql).db.ddlLog =
        ⟨target.db.journal, target.db.ddl ++ [⟨event, sql⟩]⟩ := by
      simp [TargetDb.ddlLog, hfree.onlyWork.executeDdl_journal event sql]
    rw [hlog]
    exact .executeLegacy event sql hlegacy hrow
  | begin hfree => exact Or.inl (Target.KeepsLog.of_onlyWork hfree.onlyWork).begin.log
  | mark ht =>
    exact Or.inl (congrArg (fun t => t.db.ddlLog) (Target.change_of_some ht _))
  | save ht =>
    exact Or.inl (congrArg (fun t => t.db.ddlLog) (Target.change_of_some ht _))
  | commit _ ht hrow =>
    obtain ⟨evidence, hrow⟩ := hrow
    refine Or.inr ?_
    have hlog : target.commit.db.ddlLog =
        ⟨target.db.journal.put ⟨event, evidence, .checkpointed⟩, target.db.ddl⟩ := by
      rw [← Journal.markCheckpointed_of_applied hrow]
      simp [Target.view_of_some ht, TargetDb.ddlLog, TargetDb.apply]
    rw [hlog]
    exact .checkpoint event evidence hrow
  | rollback => exact Or.inl rfl

/-- A run of the DDL handler is a run of the log. -/
theorem DdlRun.log {semantics : DdlSemantics} {entry : Option TargetChanges} {event : DdlEvent}
    {committing : Bool} {s s' : Runtime} (hrun : DdlRun semantics entry event committing s s') :
    DdlLog.Run semantics.IsLegacy s.target.db.ddlLog s'.target.db.ddlLog := by
  induction hrun with
  | refl => exact .refl
  | tail _ step ih =>
    cases step with
    | quiet htarget => exact htarget ▸ ih
    | act haction =>
      rcases haction.log with hlog | hstep
      · rw [Runtime.perform_target, hlog]
        exact ih
      · exact ih.tail hstep
    | prepareAndExecute evidence sql hfree hrow _ hsql =>
      refine ih.tail ?_
      have hlog := (hfree.putRow ⟨event, evidence, .prepared⟩).onlyWork.executeDdl_journal event sql
      simp only [Runtime.perform_target, TargetDb.ddlLog, hlog, Target.executeDdl_db_ddl,
        Target.putRow_db_ddl, Target.putRow_journal]
      exact .prepareAndExecute event evidence sql hrow hsql

/-! ## Events -/

/-- What a performed script leaves of the log. -/
theorem Performed.log {s s' : Runtime} {script : List TraceEntry} (h : Performed s script s')
    (hscript : ∀ x ∈ script, s.target.KeepsLog x.after) :
    s'.target.db.ddlLog = s.target.db.ddlLog := by
  rcases h.durable with hdb | ⟨x, hx, hdb⟩
  · rw [hdb]
  · rw [hdb]
    exact (hscript x hx).log

/-- What a stopped script leaves of the log. -/
theorem Stopped.log {s s' : Runtime} {script : List TraceEntry} (h : Stopped s script s')
    (hscript : ∀ x ∈ script, s.target.KeepsLog x.after) :
    s'.target.db.ddlLog = s.target.db.ddlLog := by
  rcases h.durable with hdb | ⟨x, hx, hdb⟩
  · rw [hdb]
  · rw [hdb]
    exact (hscript x hx).log

/-- Every event of the source moves along a run of the log, whether its handling succeeds or
stops. -/
theorem wp_processStreamEvent_log {world : World} {config : StreamConfig} {table name : String}
    (hmode : config.checkpoint = .targetTable table name) {s : Runtime} (hsound : s.core.Sound)
    (input : SourceStreamEvent) :
    Prog.wp (processStreamEvent world config input)
      (fun _ s' => DdlLog.Run world.semantics.IsLegacy s.target.db.ddlLog s'.target.db.ddlLog)
      (fun _ s' => DdlLog.Run world.semantics.IsLegacy s.target.db.ddlLog s'.target.db.ddlLog)
      s := by
  have hkeeps : s.target.KeepsLog s.target := .of_onlyWork hsound.onlyWork
  have hscript : ∀ now, ∀ x ∈ s.core.inputScript world.codec config.groupConfig input now,
      s.target.KeepsLog x.after := fun now x hx =>
    StreamCore.eventScript_keepsLog (c := s.core.located input.sourcePosition) hkeeps hx
  have hflush : ∀ x ∈ s.core.flushScript, s.target.KeepsLog x.after := fun x hx =>
    StreamCore.flushScript_keepsLog hkeeps hx
  have hddl : ∀ {entry : Option TargetChanges} {event : DdlEvent} {committing : Bool}
      {s₁ s' : Runtime},
      Performed s s.core.flushScript s₁ → DdlRun world.semantics entry event committing s₁ s' →
      DdlLog.Run world.semantics.IsLegacy s.target.db.ddlLog s'.target.db.ddlLog := by
    intro entry event committing s₁ s' hs₁ hrun
    rw [← hs₁.log hflush]
    exact hrun.log
  refine wp_processStreamEvent hmode hsound ?_ ?_ ?_ ?_ ?_ ?_
  · intro now s' _ _ hs' _
    rw [hs'.log (hscript now)]
  · intro now stop s' _ _ hs'
    rw [hs'.log (hscript now)]
  · intro stop s' _ hs'
    rw [hs'.log hflush]
  · intro query s₁ s' _ hs₁ _ hrun _
    exact hddl hs₁ hrun
  · intro query s₁ stop s' _ hs₁ _ hrun
    exact hddl hs₁ hrun
  · intro query s₁ stop s' _ hs₁ _ hrun
    exact hddl hs₁ hrun

/-- Wherever an attempt stops, the durable contents have moved along a run of the log. -/
theorem streamEvents_log {world : World} {config : StreamConfig} {table name : String}
    (hmode : config.checkpoint = .targetTable table name) {s : Runtime} (hsound : s.core.Sound)
    (inputs : List SourceStreamEvent) :
    DdlLog.Run world.semantics.IsLegacy s.target.db.ddlLog
      (streamEvents world config inputs s).2.target.db.ddlLog := by
  refine Prog.wp_final (R := fun s' =>
    DdlLog.Run world.semantics.IsLegacy s.target.db.ddlLog s'.target.db.ddlLog)
    (Prog.wp_mono (Prog.wp_forEach (fun _ s' => s'.core.Sound ∧
      DdlLog.Run world.semantics.IsLegacy s.target.db.ddlLog s'.target.db.ddlLog) inputs
      (processStreamEvent world config) ?_ ⟨hsound, .refl⟩) (fun _ _ h => h.2) fun _ _ h => h)
  rintro _ input _ s' - ⟨hsound', hrun⟩
  refine Prog.wp_mono (Prog.wp_and (wp_processStreamEvent_ledger hmode hsound' input)
    (wp_processStreamEvent_log hmode hsound' input)) ?_ ?_
  · rintro _ s'' ⟨hconsumed, hmore⟩
    exact ⟨hconsumed.sound, hrun.trans hmore⟩
  · rintro _ s'' ⟨-, hmore⟩
    exact hrun.trans hmore

end BinlogCdc
