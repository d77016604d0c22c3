import BinlogCdc.Stream.Durability
import BinlogCdc.Stream.GroupCommit

/-!
# Source transactions that were rolled back

The stream ignores the ROLLBACK that ends a source transaction: the rows it has applied
stay in the open target transaction, and the next commit makes them durable. They stay
out only if the target transaction holds none of them when the ROLLBACK arrives.
-/

namespace BinlogCdc

/-- The statement rolls a transaction back. -/
def isRollbackQuery (sql : String) : Bool :=
  Text.toAsciiUppercase (Text.trimEndMatches (· == ';') (Text.trim sql.toList)) ==
    "ROLLBACK".toList

/-- A source transaction that was rolled back: perhaps a BEGIN, table maps and row events, and
the ROLLBACK. -/
structure RolledBackTransaction where
  /-- The BEGIN, if the source logged one. -/
  start : Option SourceStreamEvent
  /-- The table maps and row events. -/
  rows : List SourceStreamEvent
  /-- The ROLLBACK. -/
  finish : SourceStreamEvent
  /-- The first event is a BEGIN. -/
  start_begin : ∀ input ∈ start, ∃ query, input.event = .query query ∧
    isBeginQuery query.sqlStatement = true
  /-- Only table maps and row events come between. -/
  rows_only : ∀ input ∈ rows, input.event.isRowsOrTableMap = true
  /-- The last event is a ROLLBACK. -/
  finish_rollback : ∃ query, finish.event = .query query ∧
    isRollbackQuery query.sqlStatement = true

namespace RolledBackTransaction

/-- The events before the ROLLBACK. -/
def opening (transaction : RolledBackTransaction) : List SourceStreamEvent :=
  transaction.start.toList ++ transaction.rows

/-- The events of the transaction. -/
def events (transaction : RolledBackTransaction) : List SourceStreamEvent :=
  transaction.opening ++ [transaction.finish]

end RolledBackTransaction

/-! ## What becomes durable later -/

section Later

variable {world : World} {config : StreamConfig} {table name : String}

/-- From a sound state on, either nothing becomes durable or everything applied before does. -/
theorem streamEvents_durable (hmode : config.checkpoint = .targetTable table name) {s : Runtime}
    (hsound : s.core.Sound) (inputs : List SourceStreamEvent) :
    (streamEvents world config inputs s).2.target.db.work = s.target.db.work ∨
      s.target.view.work <+: (streamEvents world config inputs s).2.target.db.work := by
  -- Between two events the view only grows, and what is durable is old or has the whole view.
  refine Prog.wp_final (R := fun s' => s'.target.db.work = s.target.db.work ∨
    s.target.view.work <+: s'.target.db.work)
    (Prog.wp_mono (Prog.wp_forEach (fun _ s' => s'.core.Sound ∧
      s.target.view.work <+: s'.target.view.work ∧
      (s'.target.db.work = s.target.db.work ∨ s.target.view.work <+: s'.target.db.work))
      inputs (processStreamEvent world config) ?_ ⟨hsound, List.prefix_refl _, Or.inl rfl⟩)
      (fun _ _ h => h.2.2) fun _ _ h => h)
  rintro _ input _ s' - ⟨hsound', hview, hdurable⟩
  have hwithin : ∀ {work : List TargetWork} {next : Option Checkpoint} {db : TargetDb},
      s'.core.Within work next db →
      db.work = s.target.db.work ∨ s.target.view.work <+: db.work := by
    intro work next db hwithin
    rcases hwithin.durable with hsame | hgrown
    · rw [hsame]
      exact hdurable
    · exact Or.inr (hview.trans hgrown)
  refine Prog.wp_mono (wp_processStreamEvent_ledger hmode hsound' input) ?_ ?_
  · intro _ s'' hconsumed
    refine ⟨hconsumed.sound, ?_, hwithin hconsumed.within⟩
    have hgrown : s''.target.view.work = _ := hconsumed.view
    rw [hgrown]
    exact hview.trans (List.prefix_append _ _)
  · intro _ s'' hstopped
    exact hwithin hstopped

end Later

/-! ## Rolled back rows -/

section RolledBack

variable (world : World) (config : StreamConfig) (s : Runtime)

/-- The row changes of the transaction after the given events. -/
def RolledBackTransaction.work (before : List SourceStreamEvent)
    (transaction : RolledBackTransaction) : List TargetWork :=
  (s.core.reader.dispatchAll world.semantics world.codec before).dispatchWorks
    world.semantics world.codec transaction.opening

/-- The row changes of the transaction after the given events that are durable. -/
def RolledBackTransaction.durableWork (before : List SourceStreamEvent)
    (transaction : RolledBackTransaction) (db : TargetDb) : List TargetWork :=
  (db.work.drop (s.target.view.work ++
    s.core.reader.dispatchWorks world.semantics world.codec before).length).take
      (transaction.work world s before).length

/-- Whatever the run commits after a ROLLBACK, it makes none of the row changes durable that the
ROLLBACK was to undo. -/
def RolledBackWorkStaysOut (inputs : List SourceStreamEvent) : Prop :=
  ∀ before (transaction : RolledBackTransaction) after s₁,
    inputs = before ++ transaction.opening ++ transaction.finish :: after →
    (streamEvents world config (before ++ transaction.opening)).Reaches s s₁ →
    transaction.durableWork world s before (streamEvents world config inputs s).2.target.db =
      transaction.durableWork world s before s₁.target.db

/-- When a ROLLBACK arrives, its transaction has changed nothing, or the target transaction has
no uncommitted work. -/
def RollbacksFindNothing (inputs : List SourceStreamEvent) : Prop :=
  ∀ before (transaction : RolledBackTransaction) after s₁,
    inputs = before ++ transaction.opening ++ transaction.finish :: after →
    (streamEvents world config (before ++ transaction.opening)).Reaches s s₁ →
    transaction.work world s before = [] ∨ (s₁.target.transaction.getD {}).work = []

variable {world config s} {table name : String}

/-- What a ROLLBACK finds: the durable work, and the work of its transaction at the end of the
view. -/
theorem RolledBackTransaction.view_eq (hmode : config.checkpoint = .targetTable table name)
    (hfollowed : Followed world.semantics world.codec s.target.view s.core.reader [] s.core)
    {before : List SourceStreamEvent} {transaction : RolledBackTransaction} {s₁ : Runtime}
    (hreaches : (streamEvents world config (before ++ transaction.opening)).Reaches s s₁) :
    s₁.target.view.work = s.target.view.work ++
      s.core.reader.dispatchWorks world.semantics world.codec before ++
        transaction.work world s before := by
  have hview := (followed_of_reaches hmode hfollowed hreaches).view
  rw [Reader.dispatchWorks_append, ← List.append_assoc] at hview
  exact hview

/-- Once everything the ROLLBACK found is durable, all of its transaction is. -/
theorem RolledBackTransaction.durableWork_of_committed {before : List SourceStreamEvent}
    {transaction : RolledBackTransaction} {db : TargetDb}
    (h : s.target.view.work ++ s.core.reader.dispatchWorks world.semantics world.codec before ++
      transaction.work world s before <+: db.work) :
    transaction.durableWork world s before db = transaction.work world s before := by
  obtain ⟨more, hmore⟩ := h
  unfold durableWork
  rw [← hmore, List.append_assoc, List.drop_left, List.take_left]

/-- A transaction without uncommitted work at its ROLLBACK is left as it is. -/
theorem RolledBackTransaction.durableWork_eq (hmode : config.checkpoint = .targetTable table name)
    (hfollowed : Followed world.semantics world.codec s.target.view s.core.reader [] s.core)
    {before after : List SourceStreamEvent} {transaction : RolledBackTransaction} {s₁ : Runtime}
    (hreaches : (streamEvents world config (before ++ transaction.opening)).Reaches s s₁)
    (hnothing : transaction.work world s before = [] ∨
      (s₁.target.transaction.getD {}).work = []) :
    transaction.durableWork world s before
        (streamEvents world config (transaction.finish :: after) s₁).2.target.db =
      transaction.durableWork world s before s₁.target.db := by
  have hsound := (followed_of_reaches hmode hfollowed hreaches).sound
  have hview := view_eq hmode hfollowed hreaches
  rcases hnothing with hwork | hopen
  · simp [durableWork, hwork]
  · -- Everything the ROLLBACK finds is durable already, and stays so.
    have hdurable : s₁.target.view.work = s₁.target.db.work := by simp [Target.view, hopen]
    have hfound : s₁.target.view.work <+: s₁.target.db.work := hdurable ▸ List.prefix_refl _
    have hlater : s₁.target.view.work <+:
        (streamEvents world config (transaction.finish :: after) s₁).2.target.db.work := by
      rcases streamEvents_durable hmode hsound (transaction.finish :: after) with hsame | hgrown
      · rw [hsame]
        exact hfound
      · exact hgrown
    rw [durableWork_of_committed (hview ▸ hlater), durableWork_of_committed (hview ▸ hfound)]

end RolledBack

/-- A transaction that inserts rows, from a position on, and is rolled back. -/
def rolledBackInsert (position : Nat) (ids : List UInt32) : RolledBackTransaction where
  start := none
  rows := tableMapAt position :: ids.mapIdx fun i id => insertAt (position + 10 * (i + 1)) id
  finish := queryAt (position + 10 * (ids.length + 1)) "ROLLBACK"
  start_begin := isBeginQuery_of_mem_none
  rows_only := isRowsOrTableMap_of_mem_inserts position ids
  finish_rollback := ⟨_, rfl, by decide⟩

/-- A rolled back row, and a transaction after it. -/
def rolledBackEvents : List SourceStreamEvent :=
  (rolledBackInsert 20 [1]).events ++ (insertTransaction 60 [2]).events

end BinlogCdc
