import BinlogCdc.Target.View

/-!
# The DDL log

The journal and the executions of generated DDL, as an abstract machine: what may happen
to an event, one step at a time. In every run an event is executed at most once, unless
it is one of the legacy events whose statement is corrected, and its row keeps its
identity and its evidence but for the recovery of a blocked row.
-/

namespace BinlogCdc

/-- The event's row was not prepared yet. -/
def Journal.Unprepared (journal : Journal) (event : DdlEvent) : Prop :=
  journal.row event = none ∨
    journal.row event = some ⟨event, pendingEvidence, .translationPending⟩

/-- The evidence a blocked row may be recovered with: the expected state was computed again, or
for a legacy event the statement was corrected. -/
def RecoveredEvidence (legacy : DdlEvent → Prop) (event : DdlEvent)
    (old new : DdlSemanticEvidence) : Prop :=
  new = { old with expectedPostState := new.expectedPostState } ∨
    (legacy event ∧ new = { old with
      transformationVersion := new.transformationVersion
      generatedSql := new.generatedSql })

/-- The journal and the executions of generated DDL. -/
structure DdlLog where
  /-- The journal. -/
  journal : Journal
  /-- The executions, in order. -/
  executed : List DdlExecution

/-- The DDL log of a database. -/
def TargetDb.ddlLog (db : TargetDb) : DdlLog := ⟨db.journal, db.ddl⟩

/-- One step of the DDL log. -/
inductive DdlLog.Step (legacy : DdlEvent → Prop) : DdlLog → DdlLog → Prop where
  /-- An event without a translation is recorded. -/
  | record {log : DdlLog} (event : DdlEvent) (hrow : log.journal.row event = none) :
    Step legacy log
      ⟨log.journal.put ⟨event, pendingEvidence, .translationPending⟩, log.executed⟩
  /-- An event is prepared. -/
  | prepare {log : DdlLog} (event : DdlEvent) (evidence : DdlSemanticEvidence)
    (hrow : log.journal.Unprepared event) :
    Step legacy log ⟨log.journal.put ⟨event, evidence, .prepared⟩, log.executed⟩
  /-- An event is prepared and its statement executed. -/
  | prepareAndExecute {log : DdlLog} (event : DdlEvent) (evidence : DdlSemanticEvidence)
    (sql : String) (hrow : log.journal.Unprepared event)
    (hsql : evidence.generatedSql = some sql) :
    Step legacy log
      ⟨log.journal.put ⟨event, evidence, .prepared⟩, log.executed ++ [⟨event, sql⟩]⟩
  /-- A prepared event is found applied. -/
  | apply {log : DdlLog} (event : DdlEvent) (evidence : DdlSemanticEvidence)
    (hrow : log.journal.row event = some ⟨event, evidence, .prepared⟩) :
    Step legacy log ⟨log.journal.put ⟨event, evidence, .applied⟩, log.executed⟩
  /-- A prepared event is blocked. -/
  | block {log : DdlLog} (event : DdlEvent) (evidence : DdlSemanticEvidence)
    (hrow : log.journal.row event = some ⟨event, evidence, .prepared⟩) :
    Step legacy log ⟨log.journal.put ⟨event, evidence, .blocked⟩, log.executed⟩
  /-- A blocked event is found applied. -/
  | recover {log : DdlLog} (event : DdlEvent) (old new : DdlSemanticEvidence)
    (hrow : log.journal.row event = some ⟨event, old, .blocked⟩)
    (hnew : RecoveredEvidence legacy event old new) :
    Step legacy log ⟨log.journal.put ⟨event, new, .applied⟩, log.executed⟩
  /-- The corrected statement of a blocked legacy event is executed. -/
  | executeLegacy {log : DdlLog} (event : DdlEvent) (sql : String) (hlegacy : legacy event)
    (hrow : ∃ evidence, log.journal.row event = some ⟨event, evidence, .blocked⟩) :
    Step legacy log ⟨log.journal, log.executed ++ [⟨event, sql⟩]⟩
  /-- An applied event is checkpointed. -/
  | checkpoint {log : DdlLog} (event : DdlEvent) (evidence : DdlSemanticEvidence)
    (hrow : log.journal.row event = some ⟨event, evidence, .applied⟩) :
    Step legacy log ⟨log.journal.put ⟨event, evidence, .checkpointed⟩, log.executed⟩

/-- A run of the DDL log. -/
abbrev DdlLog.Run (legacy : DdlEvent → Prop) : DdlLog → DdlLog → Prop :=
  Relation.ReflTransGen (DdlLog.Step legacy)

/-! ## One row -/

/-- One step of the row of an event. -/
inductive RowStep (legacy : DdlEvent → Prop) : Option JournalRow → Option JournalRow → Prop where
  /-- The row begins pending. -/
  | record (event : DdlEvent) :
    RowStep legacy none (some ⟨event, pendingEvidence, .translationPending⟩)
  /-- The row begins prepared. -/
  | insert (event : DdlEvent) (evidence : DdlSemanticEvidence) :
    RowStep legacy none (some ⟨event, evidence, .prepared⟩)
  /-- A pending row is prepared. -/
  | promote (event : DdlEvent) (evidence : DdlSemanticEvidence) :
    RowStep legacy (some ⟨event, pendingEvidence, .translationPending⟩)
      (some ⟨event, evidence, .prepared⟩)
  /-- A prepared row is applied. -/
  | apply (event : DdlEvent) (evidence : DdlSemanticEvidence) :
    RowStep legacy (some ⟨event, evidence, .prepared⟩) (some ⟨event, evidence, .applied⟩)
  /-- A prepared row is blocked. -/
  | block (event : DdlEvent) (evidence : DdlSemanticEvidence) :
    RowStep legacy (some ⟨event, evidence, .prepared⟩) (some ⟨event, evidence, .blocked⟩)
  /-- A blocked row is applied. -/
  | recover (event : DdlEvent) (old new : DdlSemanticEvidence)
    (hnew : RecoveredEvidence legacy event old new) :
    RowStep legacy (some ⟨event, old, .blocked⟩) (some ⟨event, new, .applied⟩)
  /-- An applied row is checkpointed. -/
  | checkpoint (event : DdlEvent) (evidence : DdlSemanticEvidence) :
    RowStep legacy (some ⟨event, evidence, .applied⟩) (some ⟨event, evidence, .checkpointed⟩)

/-- The moves of the row of an event. -/
abbrev RowMoves (legacy : DdlEvent → Prop) : Option JournalRow → Option JournalRow → Prop :=
  Relation.ReflTransGen (RowStep legacy)

/-- What stays of a row from its preparation on. -/
structure JournalRow.Kept (legacy : DdlEvent → Prop) (old new : JournalRow) : Prop where
  /-- The identity, with the source statement. -/
  event : new.event = old.event
  /-- The status does not go back. -/
  status : new.status ≠ .translationPending
  /-- The canonical form of the statement. -/
  canonicalAst : new.evidence.canonicalAst = old.evidence.canonicalAst
  /-- The target schema before the statement. -/
  preState : new.evidence.preState = old.evidence.preState
  /-- The generated statement, unless a legacy event was corrected. -/
  generatedSql : ¬legacy old.event → new.evidence.generatedSql = old.evidence.generatedSql ∧
    new.evidence.transformationVersion = old.evidence.transformationVersion
  /-- Once the row is applied, all of the evidence. -/
  applied : old.status = .applied ∨ old.status = .checkpointed →
    new.evidence = old.evidence ∧ (new.status = .applied ∨ new.status = .checkpointed)
  /-- The expected target schema changes only by the recovery of a blocked row. -/
  expectedPostState : new.status = .prepared ∨ new.status = .blocked →
    new.evidence = old.evidence

section Rows

variable {legacy : DdlEvent → Prop}

theorem JournalRow.Kept.refl {row : JournalRow} (h : row.status ≠ .translationPending) :
    row.Kept legacy row :=
  ⟨rfl, h, rfl, rfl, fun _ => ⟨rfl, rfl⟩, fun hstatus => ⟨rfl, hstatus⟩, fun _ => rfl⟩

/-- A row that took the same evidence to another status is kept. -/
theorem JournalRow.Kept.withStatus {old new : JournalRow} (h : old.Kept legacy new)
    {status : DdlReplayStatus} (hstatus : status ≠ .translationPending)
    (happlied : old.status = .applied ∨ old.status = .checkpointed →
      status = .applied ∨ status = .checkpointed)
    (hexpected : status = .prepared ∨ status = .blocked →
      new.status = .prepared ∨ new.status = .blocked) :
    old.Kept legacy { new with status } :=
  ⟨h.event, hstatus, h.canonicalAst, h.preState, h.generatedSql,
    fun hold => ⟨(h.applied hold).1, happlied hold⟩,
    fun hnew => h.expectedPostState (hexpected hnew)⟩

/-- One step of a prepared row keeps it. -/
theorem RowStep.kept {old new : JournalRow} {next : Option JournalRow}
    (hkept : old.Kept legacy new) (hstep : RowStep legacy (some new) next) :
    ∃ row, next = some row ∧ old.Kept legacy row := by
  cases hstep with
  | promote event => exact absurd rfl hkept.status
  | apply event evidence =>
    exact ⟨_, rfl, hkept.withStatus nofun (fun _ => Or.inl rfl) nofun⟩
  | block event evidence =>
    refine ⟨_, rfl, hkept.withStatus nofun ?_ fun _ => Or.inl rfl⟩
    intro hold
    rcases (hkept.applied hold).2 with h | h <;> cases h
  | recover event evidence recovered hnew =>
    have hast : recovered.canonicalAst = evidence.canonicalAst ∧
        recovered.preState = evidence.preState := by
      rcases hnew with hnew | ⟨-, hnew⟩
      · rw [hnew]
        exact ⟨rfl, rfl⟩
      · rw [hnew]
        exact ⟨rfl, rfl⟩
    refine ⟨_, rfl, hkept.event, nofun, hast.1.trans hkept.canonicalAst,
      hast.2.trans hkept.preState, ?_, ?_, nofun⟩
    · intro hnot
      obtain ⟨hsql, hversion⟩ := hkept.generatedSql hnot
      rcases hnew with hnew | ⟨hlegacy, -⟩
      · rw [hnew]
        exact ⟨hsql, hversion⟩
      · rw [← hkept.event] at hnot
        exact absurd hlegacy hnot
    · intro hold
      rcases (hkept.applied hold).2 with h | h <;> cases h
  | checkpoint event evidence =>
    exact ⟨_, rfl, hkept.withStatus nofun (fun _ => Or.inr rfl) nofun⟩

/-- Whatever its moves, a prepared row is kept. -/
theorem RowMoves.kept {old : JournalRow} {next : Option JournalRow}
    (hmoves : RowMoves legacy (some old) next) (hprepared : old.status ≠ .translationPending) :
    ∃ row, next = some row ∧ old.Kept legacy row := by
  induction hmoves with
  | refl => exact ⟨old, rfl, .refl hprepared⟩
  | tail _ hstep ih =>
    obtain ⟨row, rfl, hkept⟩ := ih
    exact hstep.kept hkept

end Rows

/-! ## Runs of the log -/

namespace DdlLog

variable {legacy : DdlEvent → Prop} {log log' : DdlLog}

/-- Writing a row moves only the rows of its key. -/
theorem row_put {journal : Journal} {row : JournalRow} (event : DdlEvent)
    (hmove : RowStep legacy (journal.row row.event) (some row)) :
    RowMoves legacy (journal.row event) ((journal.put row).row event) := by
  by_cases hkey : event.key = row.event.key
  · rw [Journal.row_put_of_key_eq hkey]
    have hsame : journal.row event = journal.row row.event := congrArg journal.rows hkey
    rw [hsame]
    exact .single hmove
  · rw [Journal.row_put_of_key_ne hkey]

/-- A row that is not prepared yet may be prepared. -/
theorem unprepared_step {journal : Journal} {event : DdlEvent}
    (h : journal.Unprepared event) (evidence : DdlSemanticEvidence) :
    RowStep legacy (journal.row event) (some ⟨event, evidence, .prepared⟩) := by
  rcases h with h | h
  · rw [h]
    exact .insert event evidence
  · rw [h]
    exact .promote event evidence

/-- In a step every row moves along its own steps. -/
theorem Step.row (hstep : Step legacy log log') (event : DdlEvent) :
    RowMoves legacy (log.journal.row event) (log'.journal.row event) := by
  cases hstep with
  | record other hrow => exact row_put event (hrow ▸ .record other)
  | prepare other evidence hrow => exact row_put event (unprepared_step hrow evidence)
  | prepareAndExecute other evidence sql hrow => exact row_put event (unprepared_step hrow evidence)
  | apply other evidence hrow => exact row_put event (hrow ▸ .apply other evidence)
  | block other evidence hrow => exact row_put event (hrow ▸ .block other evidence)
  | recover other old new hrow hnew => exact row_put event (hrow ▸ .recover other old new hnew)
  | executeLegacy => exact .refl
  | checkpoint other evidence hrow => exact row_put event (hrow ▸ .checkpoint other evidence)

/-- In a run every row moves along its own steps. -/
theorem Run.row (hrun : Run legacy log log') (event : DdlEvent) :
    RowMoves legacy (log.journal.row event) (log'.journal.row event) := by
  induction hrun with
  | refl => exact .refl
  | tail _ hstep ih => exact ih.trans (hstep.row event)

/-- The executions of an event. -/
def executions (executed : List DdlExecution) (event : DdlEvent) : Nat :=
  executed.countP fun execution => execution.event = event

/-- Since the log began, every event that is not a legacy one was executed at most once, and its
row is prepared if it was. -/
def ExecutedOnce (legacy : DdlEvent → Prop) (start log : DdlLog) : Prop :=
  ∃ since, log.executed = start.executed ++ since ∧ ∀ event, ¬legacy event →
    executions since event = 0 ∨ (executions since event = 1 ∧
      ∃ row, log.journal.row event = some row ∧ row.status ≠ .translationPending)

/-- A row that is prepared stays so. -/
theorem Step.prepared (hstep : Step legacy log log') {event : DdlEvent} {row : JournalRow}
    (hrow : log.journal.row event = some row) (hprepared : row.status ≠ .translationPending) :
    ∃ row, log'.journal.row event = some row ∧ row.status ≠ .translationPending := by
  obtain ⟨next, hnext, hkept⟩ := RowMoves.kept (hrow ▸ hstep.row event) hprepared
  exact ⟨next, hnext, hkept.status⟩

/-- A step without an execution. -/
theorem ExecutedOnce.of_executed_eq {start : DdlLog} (h : ExecutedOnce legacy start log)
    (hstep : Step legacy log log') (hexecuted : log'.executed = log.executed) :
    ExecutedOnce legacy start log' := by
  obtain ⟨since, hsince, honce⟩ := h
  refine ⟨since, hexecuted.trans hsince, fun event hevent => ?_⟩
  rcases honce event hevent with hzero | ⟨hone, row, hrow, hprepared⟩
  · exact Or.inl hzero
  · exact Or.inr ⟨hone, hstep.prepared hrow hprepared⟩

/-- A step with one execution, of a legacy event or of one that was not prepared before. -/
theorem ExecutedOnce.of_executed_append {start : DdlLog} (h : ExecutedOnce legacy start log)
    (hstep : Step legacy log log') {event : DdlEvent} {sql : String}
    (hexecuted : log'.executed = log.executed ++ [⟨event, sql⟩])
    (hnew : legacy event ∨ (log.journal.Unprepared event ∧
      ∃ row, log'.journal.row event = some row ∧ row.status ≠ .translationPending)) :
    ExecutedOnce legacy start log' := by
  obtain ⟨since, hsince, honce⟩ := h
  refine ⟨since ++ [⟨event, sql⟩], by rw [hexecuted, hsince, List.append_assoc], ?_⟩
  intro other hother
  by_cases hsame : event = other
  · subst hsame
    obtain ⟨hunprepared, hrow'⟩ := hnew.resolve_left hother
    rcases honce event hother with hzero | ⟨-, row, hrow, hprepared⟩
    · refine Or.inr ⟨?_, hrow'⟩
      simp [executions] at hzero ⊢
      exact hzero
    · rcases hunprepared with hnone | hpending
      · rw [hrow] at hnone
        cases hnone
      · rw [hrow] at hpending
        cases hpending
        exact absurd rfl hprepared
  · have hcount : executions (since ++ [⟨event, sql⟩]) other = executions since other := by
      simp [executions, hsame]
    rw [hcount]
    rcases honce other hother with hzero | ⟨hone, row, hrow, hprepared⟩
    · exact Or.inl hzero
    · exact Or.inr ⟨hone, hstep.prepared hrow hprepared⟩

/-- Every step keeps executions unique. -/
theorem ExecutedOnce.step {start : DdlLog} (h : ExecutedOnce legacy start log)
    (hstep : Step legacy log log') : ExecutedOnce legacy start log' := by
  cases hstep with
  | prepareAndExecute event evidence sql hrow hsql =>
    refine h.of_executed_append (.prepareAndExecute event evidence sql hrow hsql) rfl
      (Or.inr ⟨hrow, _, Journal.row_put_of_key_eq rfl, nofun⟩)
  | executeLegacy event sql hlegacy hrow =>
    exact h.of_executed_append (.executeLegacy event sql hlegacy hrow) rfl (Or.inl hlegacy)
  | record event hrow => exact h.of_executed_eq (.record event hrow) rfl
  | prepare event evidence hrow => exact h.of_executed_eq (.prepare event evidence hrow) rfl
  | apply event evidence hrow => exact h.of_executed_eq (.apply event evidence hrow) rfl
  | block event evidence hrow => exact h.of_executed_eq (.block event evidence hrow) rfl
  | recover event old new hrow hnew =>
    exact h.of_executed_eq (.recover event old new hrow hnew) rfl
  | checkpoint event evidence hrow =>
    exact h.of_executed_eq (.checkpoint event evidence hrow) rfl

/-- In a run every event that is not a legacy one is executed at most once. -/
theorem Run.executedOnce (hrun : Run legacy log log') : ExecutedOnce legacy log log' := by
  induction hrun with
  | refl => exact ⟨[], by simp, fun event _ => Or.inl rfl⟩
  | tail _ hstep ih => exact ih.step hstep

end DdlLog

end BinlogCdc
