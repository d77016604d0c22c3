import BinlogCdc.Sync.PhasedRun
import BinlogCdc.Sync.DependencyOrder

/-!
# Foreign keys while extra rows are deleted

The extra rows of the selected tables are deleted in batches of tables, children before
parents. By then every row of the source is in the target, so that a row that still
references another references a row of the source: no row that is referenced is deleted,
and the foreign keys hold after every delete, whatever the order of the calls in a batch.
-/

namespace BinlogCdc

/-! ## One table -/

section Table

variable [LinearOrder PrimaryKey] {config : SyncChunkConfig} {source : SyncRows}
  {start s : SyncRuntime} {reports : List SyncChunkProgress}

/-- New sessions: what the old ones left uncommitted is gone. -/
def SyncRuntime.reconnect (s : SyncRuntime) : SyncRuntime :=
  { s with working := s.committed, locked := false }

/-- The table has every row of the source. -/
def Covers (source t : SyncRows) : Prop := ∀ row ∈ source.rows, row ∈ t.rows

theorem Covers.find {t : SyncRows} (h : Covers source t) {key : PrimaryKey} {row : DatabaseRow}
    (hrow : source.find key = some row) : t.find key = some row := by
  have hfind := KeyedTable.find_key (h row (KeyedTable.mem_of_find hrow))
  rw [KeyedTable.key_of_find hrow] at hfind
  exact hfind

/-- Once the missing rows are inserted and the divergent rows updated, the target has every row of
the source. -/
theorem Covers.of_settled {table : SyncTable} {t : SyncRows}
    (hsource : ∀ row ∈ source.rows, table.Holds row) (ht : ∀ row ∈ t.rows, table.Holds row)
    (hinsert : ∀ key, Settled table .insertMissing source t key)
    (hupdate : ∀ key, Settled table .updateDivergent source t key) : Covers source t := by
  intro row hrow
  have hfind := KeyedTable.find_key hrow
  have hinserted := hinsert row.primaryKey
  have hupdated := hupdate row.primaryKey
  unfold Settled at hinserted hupdated
  rw [hfind] at hinserted hupdated
  cases htarget : t.find row.primaryKey with
  | none =>
    rw [htarget] at hinserted
    cases hinserted
  | some x =>
    rw [htarget] at hupdated
    have hx := KeyedTable.mem_of_find htarget
    have hkey := (KeyedTable.key_of_find htarget).symm
    rw [(hsource row hrow).eq_of_not_diverge (ht x hx) hkey hupdated]
    exact hx

/-- Moves towards a source that the table covers only delete extra rows. -/
theorem Covers.drifts {t t' : SyncRows} (h : Covers source t) (hdrifts : Drifts source t t') :
    Covers source t' ∧ ∀ row ∈ t'.rows, row ∈ t.rows := by
  refine ⟨fun row hrow => ?_, fun row hrow => ?_⟩
  · have hfind := KeyedTable.find_key hrow
    rcases (hdrifts row.primaryKey).2 with he | ⟨-, he⟩
    · exact KeyedTable.mem_of_find (he.trans (h.find hfind))
    · exact KeyedTable.mem_of_find (he.trans hfind)
  · have hfind := KeyedTable.find_key hrow
    rcases (hdrifts row.primaryKey).2 with he | ⟨-, he⟩
    · exact KeyedTable.mem_of_find (he.symm.trans hfind)
    · exact h row (KeyedTable.mem_of_find (he.symm.trans hfind))

/-- A table of which the extra rows are deleted: it has the rows of the source, no rows but those it
started with, and at the end no others than those of the source. -/
structure Shrinks (source start : List DatabaseRow) (done : Prop) (rows : List DatabaseRow) : Prop where
  /-- The rows of the source are kept. -/
  kept : ∀ row ∈ source, row ∈ rows
  /-- No row is new. -/
  old : ∀ row ∈ rows, row ∈ start
  /-- At the end the rows are those of the source. -/
  finished : done → ∀ row ∈ rows, row ∈ source

theorem Covers.shrinks {t : SyncRows} {done : Prop} (hcovers : Covers source start.committed)
    (hdrifts : Drifts source start.committed t)
    (hsettled : done → ∀ key, Settled config.table .deleteExtras source t key) :
    Shrinks source.rows start.committed.rows done t.rows := by
  obtain ⟨hkept, hold⟩ := hcovers.drifts hdrifts
  refine ⟨hkept, hold, fun hdone row hrow => ?_⟩
  have hfind := KeyedTable.find_key hrow
  have hnone := hsettled hdone row.primaryKey
  unfold Settled at hnone
  rw [hfind] at hnone
  cases hsource : source.find row.primaryKey with
  | none =>
    rw [hsource] at hnone
    cases hnone
  | some x =>
    have hsame := hkept.find hsource
    rw [hfind] at hsame
    cases hsame
    exact KeyedTable.mem_of_find hsource

/-- The committed rows and the rows of the session, between the calls that delete extra rows. -/
theorem Syncing.shrinks (h : Syncing config source .deleteExtras start s reports)
    (hcovers : Covers source start.committed) :
    Shrinks source.rows start.committed.rows (∃ report ∈ reports, report.complete = true)
        s.committed.rows ∧
      Shrinks source.rows start.committed.rows (∃ report ∈ reports, report.complete = true)
        s.working.rows := by
  have hsettled : (∃ report ∈ reports, report.complete = true) →
      ∀ key, Settled config.table .deleteExtras source s.committed key := by
    rintro ⟨report, hreport, hcomplete⟩
    exact h.settled hreport hcomplete
  have hworking : (∃ report ∈ reports, report.complete = true) →
      ∀ key, Settled config.table .deleteExtras source s.working key :=
    fun hdone key => (hsettled hdone key).pulls h.working
  exact ⟨hcovers.shrinks h.committed hsettled,
    hcovers.shrinks (h.committed.trans h.working) hworking⟩

end Table

/-! ## Foreign keys -/

/-- The values of some columns of a row, by the weights that the columns are compared with. A row
with a null has none. -/
def DatabaseRow.keyValues (weights : List String → List String) (columns : List String)
    (row : DatabaseRow) : Option (List String) :=
  (columns.mapM fun column => (row.get column).bind id).map weights

/-- A row references another. -/
def ForeignKeyInventory.Refers (weights : List String → List String) (key : ForeignKeyInventory)
    (child parent : DatabaseRow) : Prop :=
  (child.keyValues weights key.columns).isSome = true ∧
    child.keyValues weights key.columns = parent.keyValues weights key.referencedColumns

instance (weights : List String → List String) (key : ForeignKeyInventory)
    (child parent : DatabaseRow) : Decidable (key.Refers weights child parent) :=
  inferInstanceAs (Decidable (_ ∧ _))

/-- A foreign key holds: the referenced columns identify the rows of the parent, and every row of
the child without a null references one. -/
structure ForeignKeyInventory.Holds (weights : List String → List String)
    (key : ForeignKeyInventory) (rows : String → List DatabaseRow) : Prop where
  /-- The referenced columns are a key of the parent. -/
  unique : ∀ parent ∈ rows key.referencedTable, ∀ other ∈ rows key.referencedTable,
    (parent.keyValues weights key.referencedColumns).isSome = true →
      parent.keyValues weights key.referencedColumns =
        other.keyValues weights key.referencedColumns → parent = other
  /-- Every row references a row of the parent. -/
  refers : ∀ child ∈ rows key.table, (child.keyValues weights key.columns).isSome = true →
    ∃ parent ∈ rows key.referencedTable, key.Refers weights child parent

instance (weights : List String → List String) (key : ForeignKeyInventory)
    (rows : String → List DatabaseRow) : Decidable (key.Holds weights rows) :=
  decidable_of_iff (_ ∧ _) ⟨fun h => ⟨h.1, h.2⟩, fun h => ⟨h.unique, h.refers⟩⟩

/-- A selected table: the order of its keys, its configuration and the rows of the source. -/
structure PhasedTable where
  /-- The order of the primary key. -/
  order : LinearOrder PrimaryKey
  /-- The configuration of the calls. -/
  config : SyncChunkConfig
  /-- The rows of the source. -/
  source : @SyncRows order

/-- The rows of a table of the target. -/
def PhasedTable.Rows (table : PhasedTable) : Type := @SyncRows table.order

/-- The state of a table of the target. -/
def PhasedTable.Runtime (table : PhasedTable) : Type := @SyncRuntime table.order

namespace PhasedTable

variable (table : PhasedTable)

/-- The rows that the source has. -/
def sourceRows : List DatabaseRow := letI := table.order; KeyedTable.rows table.source

/-- The rows of a table. -/
def rows (rows : table.Rows) : List DatabaseRow := letI := table.order; KeyedTable.rows rows

/-- The committed rows. -/
def committed (s : table.Runtime) : List DatabaseRow :=
  letI := table.order; KeyedTable.rows (SyncRuntime.committed s)

/-- The rows that the session sees. -/
def working (s : table.Runtime) : List DatabaseRow :=
  letI := table.order; KeyedTable.rows (SyncRuntime.working s)

/-- The table before its sync. -/
def initial (rows : table.Rows) : table.Runtime := letI := table.order; SyncRuntime.initial rows

/-- The table with new sessions. -/
def reconnect (s : table.Runtime) : table.Runtime := letI := table.order; SyncRuntime.reconnect s

/-- A call and the state it reaches. -/
def call (phase : SyncMutationPhase) (attempt : SyncAttempt) (s : table.Runtime) :
    Except SyncStop SyncChunkProgress × table.Runtime :=
  letI := table.order; attempt.call table.config table.source phase s

/-- The states that calls of a phase reach. -/
def History (phase : SyncMutationPhase) (start s : table.Runtime)
    (reports : List SyncChunkProgress) : Prop :=
  letI := table.order; SyncHistory table.config table.source phase start s reports

end PhasedTable

/-! ## Runs over all tables -/

section Run

variable (tables : String → PhasedTable)

/-- The state of all tables of the target. -/
abbrev TablesRuntime : Type := ∀ name, (tables name).Runtime

/-- A call for a table of a batch, after all tables of the batches before have been reported
complete. -/
inductive DeleteStep (batches : List (List String)) (s : TablesRuntime tables)
    (reports : String → List SyncChunkProgress) :
    TablesRuntime tables → (String → List SyncChunkProgress) → Prop
  | call (earlier : List (List String)) (batch : List String) (later : List (List String))
    (hbatches : batches = earlier ++ batch :: later) (name : String) (hname : name ∈ batch)
    (finished : ∀ other ∈ earlier.flatten, ∃ report ∈ reports other, report.complete = true)
    (attempt : SyncAttempt) (result : Except SyncStop SyncChunkProgress)
    (s' : (tables name).Runtime)
    (hcall : (tables name).call .deleteExtras attempt (s name) = (result, s')) :
    DeleteStep batches s reports (Function.update s name s')
      (Function.update reports name (reports name ++ result.toOption.toList))

/-- The states that the calls of the batches reach, with the reports of each table. A call can be
stopped at any of its operations, so that the states inside a call are among them. -/
inductive DeleteRun (batches : List (List String)) (start : TablesRuntime tables) :
    TablesRuntime tables → (String → List SyncChunkProgress) → Prop
  | start : DeleteRun batches start start fun _ => []
  | step {s s' : TablesRuntime tables} {reports reports' : String → List SyncChunkProgress}
    (before : DeleteRun batches start s reports)
    (step : DeleteStep tables batches s reports s' reports') :
    DeleteRun batches start s' reports'

/-- What a reader of the target may see of each table: what is committed, or what the session that
changes it sees. -/
def TablesRuntime.View (s : TablesRuntime tables) (view : String → List DatabaseRow) : Prop :=
  ∀ name, view name = (tables name).committed (s name) ∨ view name = (tables name).working (s name)

variable {tables} {batches : List (List String)} {start s s' : TablesRuntime tables}
  {reports reports' : String → List SyncChunkProgress}

/-- A table has been reported complete. -/
def Finished (reports : String → List SyncChunkProgress) (name : String) : Prop :=
  ∃ report ∈ reports name, report.complete = true

/-- What holds between the calls: every table is in a history of its own calls, and a table whose
calls have begun has all tables of the batches before it complete. -/
structure Deleting (batches : List (List String)) (start s : TablesRuntime tables)
    (reports : String → List SyncChunkProgress) : Prop where
  /-- The calls of each table. -/
  histories : ∀ name, (tables name).History .deleteExtras (start name) (s name) (reports name)
  /-- The batches before have finished. -/
  begun : ∀ name, s name = start name ∨ ∃ earlier batch later, batches = earlier ++ batch :: later ∧
    name ∈ batch ∧ ∀ other ∈ earlier.flatten, Finished reports other

/-- The calls of a table continue its history. -/
theorem PhasedTable.History.call {table : PhasedTable} {start s s' : table.Runtime}
    {reports : List SyncChunkProgress} {phase : SyncMutationPhase} {attempt : SyncAttempt}
    {result : Except SyncStop SyncChunkProgress} (h : table.History phase start s reports)
    (hcall : table.call phase attempt s = (result, s')) :
    table.History phase start s' (reports ++ result.toOption.toList) := by
  let _ := table.order
  cases result with
  | error stop =>
    rw [Except.toOption, Option.toList_none, List.append_nil]
    exact SyncHistory.stopped attempt stop h hcall
  | ok report => exact SyncHistory.reported attempt report h hcall

/-- A step keeps what holds between the calls. -/
theorem Deleting.step (h : Deleting batches start s reports)
    (hstep : DeleteStep tables batches s reports s' reports') :
    Deleting batches start s' reports' := by
  cases hstep with
  | call earlier batch later hbatches name hname finished attempt result t hcall =>
    have hfinished : ∀ other, Finished reports other → Finished (Function.update reports name
        (reports name ++ result.toOption.toList)) other := by
      rintro other ⟨report, hreport, hcomplete⟩
      refine ⟨report, ?_, hcomplete⟩
      by_cases hother : other = name
      · subst hother
        rw [Function.update_self]
        exact List.mem_append_left _ hreport
      · rw [Function.update_of_ne hother]
        exact hreport
    refine ⟨fun other => ?_, fun other => ?_⟩
    · by_cases hother : other = name
      · subst hother
        rw [Function.update_self, Function.update_self]
        exact (h.histories other).call hcall
      · rw [Function.update_of_ne hother, Function.update_of_ne hother]
        exact h.histories other
    · by_cases hother : other = name
      · subst hother
        exact Or.inr ⟨earlier, batch, later, hbatches, hname,
          fun before hbefore => hfinished before (finished before hbefore)⟩
      · rw [Function.update_of_ne hother]
        rcases h.begun other with hsame | ⟨e, b, l, hsplit, hmem, hdone⟩
        · exact Or.inl hsame
        · exact Or.inr ⟨e, b, l, hsplit, hmem, fun before hbefore => hfinished before
            (hdone before hbefore)⟩

/-- Another call of a run. -/
theorem DeleteRun.call (h : DeleteRun tables batches start s reports) (attempt : SyncAttempt)
    (earlier : List (List String)) (batch : List String) (later : List (List String))
    (hbatches : batches = earlier ++ batch :: later) (name : String) (hname : name ∈ batch)
    (finished : ∀ other ∈ earlier.flatten, Finished reports other) :
    DeleteRun tables batches start
      (Function.update s name ((tables name).call .deleteExtras attempt (s name)).2)
      (Function.update reports name (reports name ++
        ((tables name).call .deleteExtras attempt (s name)).1.toOption.toList)) :=
  h.step (.call earlier batch later hbatches name hname finished attempt _ _ rfl)

/-- What holds between the calls holds in every run. -/
theorem DeleteRun.deleting (h : DeleteRun tables batches start s reports) :
    Deleting batches start s reports := by
  induction h with
  | start =>
    refine ⟨fun name => ?_, fun name => Or.inl rfl⟩
    let _ := (tables name).order
    exact SyncHistory.start
  | step before hstep ih => exact ih.step hstep

/-! ## Foreign keys in a run -/

/-- The tables that a view shows while the extra rows are deleted. -/
structure Shrinking (tables : String → PhasedTable) (selected : List String)
    (foreignKeys : List ForeignKeyInventory) (schema : String)
    (start : String → List DatabaseRow) (reports : String → List SyncChunkProgress)
    (view : String → List DatabaseRow) : Prop where
  /-- Each selected table shrinks towards its source. -/
  shrinks : ∀ name ∈ selected, Shrinks (tables name).sourceRows (start name)
    (Finished reports name) (view name)
  /-- A parent is as it was until its children have finished. -/
  waits : ∀ key ∈ foreignKeys, key.Between schema selected → Finished reports key.table ∨
    view key.referencedTable = start key.referencedTable

variable {selected : List String} {foreignKeys : List ForeignKeyInventory} {schema : String}
  {initial view view' : String → List DatabaseRow}
  {weights : ForeignKeyInventory → List String → List String}

/-- The foreign keys hold in what a view shows. -/
theorem Shrinking.foreignKeys_hold
    (h : Shrinking tables selected foreignKeys schema initial reports view)
    (hsource : ∀ key ∈ foreignKeys, key.Between schema selected →
      key.Holds (weights key) fun name => (tables name).sourceRows)
    (hstart : ∀ key ∈ foreignKeys, key.Between schema selected → key.Holds (weights key) initial)
    {key : ForeignKeyInventory} (hkey : key ∈ foreignKeys) (hbetween : key.Between schema selected) :
    key.Holds (weights key) view := by
  have hchild := h.shrinks key.table hbetween.2.1
  have hparent := h.shrinks key.referencedTable hbetween.2.2
  refine ⟨fun parent hrow other hother => ?_, fun child hrow hvalues => ?_⟩
  · exact (hstart key hkey hbetween).unique parent (hparent.old parent hrow) other
      (hparent.old other hother)
  · rcases h.waits key hkey hbetween with hdone | hsame
    · -- The child table is the table of the source, whose rows reference rows of the source.
      obtain ⟨parent, hrow', hrefers⟩ := (hsource key hkey hbetween).refers child
        (hchild.finished hdone child hrow) hvalues
      exact ⟨parent, hparent.kept parent hrow', hrefers⟩
    · -- The parent table has all the rows it had.
      rw [hsame]
      exact (hstart key hkey hbetween).refers child (hchild.old child hrow) hvalues

/-- Once a table has finished, it references only rows of the source. -/
theorem Shrinking.referenced
    (h : Shrinking tables selected foreignKeys schema initial reports view)
    (hsource : ∀ key ∈ foreignKeys, key.Between schema selected →
      key.Holds (weights key) fun name => (tables name).sourceRows)
    (hstart : ∀ key ∈ foreignKeys, key.Between schema selected → key.Holds (weights key) initial)
    {key : ForeignKeyInventory} (hkey : key ∈ foreignKeys) (hbetween : key.Between schema selected)
    (hdone : Finished reports key.table) {child parent : DatabaseRow} (hchild : child ∈ view key.table)
    (hparent : parent ∈ view key.referencedTable) (hrefers : key.Refers (weights key) child parent) :
    parent ∈ (tables key.referencedTable).sourceRows := by
  obtain ⟨hsome, hvalues⟩ := hrefers
  have hrows := h.shrinks key.referencedTable hbetween.2.2
  have hsourceChild := (h.shrinks key.table hbetween.2.1).finished hdone child hchild
  obtain ⟨other, hother, -, hvalues'⟩ := (hsource key hkey hbetween).refers child hsourceChild hsome
  have hsame := (hstart key hkey hbetween).unique parent (hrows.old parent hparent) other
    (hrows.old other (hrows.kept other hother)) (hvalues ▸ hsome) (hvalues.symm.trans hvalues')
  rw [hsame]
  exact hother

/-- A table that a step has changed, now or before, had the tables of the batches before it
finished. -/
theorem Deleting.begun_step (h : Deleting batches start s reports)
    (hstep : DeleteStep tables batches s reports s' reports') (name : String) :
    s' name = start name ∨ ∃ earlier batch later, batches = earlier ++ batch :: later ∧
      name ∈ batch ∧ ∀ other ∈ earlier.flatten, Finished reports other := by
  cases hstep with
  | call earlier batch later hbatches caller hcaller finished attempt result t hcall =>
    by_cases hname : name = caller
    · subst hname
      exact Or.inr ⟨earlier, batch, later, hbatches, hcaller, finished⟩
    · rw [Function.update_of_ne hname]
      exact h.begun name

/-- Children are in the batches before their parents. -/
def ChildrenFirst (foreignKeys : List ForeignKeyInventory) (schema : String) (selected : List String)
    (batches : List (List String)) : Prop :=
  ∀ earlier batch later, batches = earlier ++ batch :: later → ∀ key ∈ foreignKeys,
    key.Between schema selected → key.referencedTable ∈ batch → key.table ∈ earlier.flatten

/-- What a view of a run shows. -/
theorem Deleting.shrinking (h : Deleting batches start s reports)
    (horder : ChildrenFirst foreignKeys schema selected batches)
    (hsize : ∀ name, 0 < (tables name).config.chunkSize)
    (hready : ∀ name ∈ selected, letI := (tables name).order
      SyncRuntime.Ready (tables name).source .deleteExtras (start name))
    (hcovers : ∀ name ∈ selected, letI := (tables name).order
      Covers (tables name).source (SyncRuntime.committed (start name)))
    (hcommitted : ∀ name, (tables name).working (start name) = (tables name).committed (start name))
    (hview : TablesRuntime.View tables s view) :
    Shrinking tables selected foreignKeys schema
      (fun name => (tables name).committed (start name)) reports view := by
  refine ⟨fun name hname => ?_, fun key hkey hbetween => ?_⟩
  · let _ := (tables name).order
    have hhistory : SyncHistory (tables name).config (tables name).source .deleteExtras (start name)
      (s name) (reports name) := h.histories name
    have hshrinks := (hhistory.syncing (hsize name) (hready name hname)).shrinks (hcovers name hname)
    rcases hview name with he | he
    · rw [he]
      exact hshrinks.1
    · rw [he]
      exact hshrinks.2
  · rcases h.begun key.referencedTable with hsame | ⟨earlier, batch, later, hsplit, hmem, hdone⟩
    · right
      rcases hview key.referencedTable with he | he
      · rw [he, hsame]
      · rw [he, hsame, hcommitted]
    · exact Or.inl (hdone _ (horder earlier batch later hsplit key hkey hbetween hmem))

/-- The extra rows of the selected tables are deleted after the missing rows have been inserted and
the divergent rows updated in all of them. There is a plan with children first, and in every run of
it, with any order of calls in a batch and with crashes and failures in any call, the foreign keys
between the selected tables hold in all that can be seen of the target, and no step deletes a row
that a row of the target references. -/
theorem deletes_keep_foreign_keys (tables : String → PhasedTable)
    (hsize : ∀ name, 0 < (tables name).config.chunkSize)
    (targets : ∀ name, (tables name).Rows)
    (hsourceRows : ∀ name, ∀ row ∈ (tables name).sourceRows, (tables name).config.table.Holds row)
    (htargetRows : ∀ name, ∀ row ∈ (tables name).rows (targets name),
      (tables name).config.table.Holds row)
    (selected : List String) (hselected : selected.Nodup)
    (inserted updated : TablesRuntime tables)
    (insertReports updateReports : String → List SyncChunkProgress)
    (hinserted : ∀ name ∈ selected, (tables name).History .insertMissing
      ((tables name).initial (targets name)) (inserted name) (insertReports name) ∧
        Finished insertReports name)
    (hupdated : ∀ name ∈ selected, (tables name).History .updateDivergent (inserted name)
      (updated name) (updateReports name) ∧ Finished updateReports name)
    (foreignKeys : List ForeignKeyInventory) (schema : String)
    (hacyclic : AcyclicForeignKeys foreignKeys schema selected)
    (maxParallelism : Nat) (hmax : 0 < maxParallelism)
    (weights : ForeignKeyInventory → List String → List String)
    (hsource : ∀ key ∈ foreignKeys, key.Between schema selected →
      key.Holds (weights key) fun name => (tables name).sourceRows)
    (htarget : ∀ key ∈ foreignKeys, key.Between schema selected →
      key.Holds (weights key) fun name => (tables name).committed (updated name)) :
    ∃ batches, planDependencyBatches selected foreignKeys schema .childFirst maxParallelism =
        .ok batches ∧
      ∀ s reports, DeleteRun tables batches (fun name => (tables name).reconnect (updated name))
          s reports →
        (∀ view, TablesRuntime.View tables s view → ∀ key ∈ foreignKeys,
          key.Between schema selected → key.Holds (weights key) view) ∧
        ∀ s' reports', DeleteStep tables batches s reports s' reports' →
          ∀ view view', TablesRuntime.View tables s view → TablesRuntime.View tables s' view' →
          ∀ key ∈ foreignKeys, key.Between schema selected →
          ∀ row ∈ view key.referencedTable, row ∉ view' key.referencedTable →
          ∀ child ∈ view key.table, ¬ key.Refers (weights key) child row := by
  obtain ⟨batches, hplan, -, -, -, hfirst⟩ :=
    planDependencyBatches_spec .childFirst hmax hselected hacyclic
  have horder : ChildrenFirst foreignKeys schema selected batches :=
    fun earlier batch later hsplit key hkey hbetween hmem =>
      hfirst earlier batch later hsplit _ hmem key hkey hbetween rfl
  -- What the two phases before have left.
  have hphases : ∀ name ∈ selected, letI := (tables name).order
      SyncRuntime.Ready (tables name).source .deleteExtras
          ((tables name).reconnect (updated name)) ∧
        Covers (tables name).source (SyncRuntime.committed (updated name)) := by
    intro name hname
    let _ := (tables name).order
    obtain ⟨hinsert, insertEnd, hinsertEnd, hinsertComplete⟩ := hinserted name hname
    obtain ⟨hupdate, updateEnd, hupdateEnd, hupdateComplete⟩ := hupdated name hname
    have hready : ∀ phase, (SyncRuntime.initial (targets name)).Ready (tables name).source phase :=
      fun phase => SyncRuntime.initial_ready _ phase
    have hinserting := SyncHistory.syncing (hsize name) (hready _) hinsert
    have hupdating := SyncHistory.syncing (hsize name)
      (hinserting.ready (hready _) (by decide) (by decide)) hupdate
    have hafter := hupdating.ready (hinserting.ready (hready .deleteExtras) (by decide) (by decide))
      (by decide) (by decide)
    refine ⟨⟨Drifts.refl _, hafter.fresh, hafter.rows⟩, ?_⟩
    refine Covers.of_settled (hsourceRows name)
      ((hinserting.committed.trans hupdating.committed).holds (hsourceRows name)
        (htargetRows name)) (fun key => ?_) fun key => ?_
    · exact (hinserting.settled hinsertEnd hinsertComplete key).pulls hupdating.committed
    · exact hupdating.settled hupdateEnd hupdateComplete key
  have hshrinking : ∀ {s reports view}, Deleting batches
      (fun name => (tables name).reconnect (updated name)) s reports →
      TablesRuntime.View tables s view →
      Shrinking tables selected foreignKeys schema
        (fun name => (tables name).committed (updated name)) reports view :=
    fun hdeleting hview => hdeleting.shrinking horder hsize (fun name hname => (hphases name hname).1)
      (fun name hname => (hphases name hname).2) (fun name => rfl) hview
  refine ⟨batches, hplan, fun s reports hrun => ⟨?_, ?_⟩⟩
  · intro view hview key hkey hbetween
    exact (hshrinking hrun.deleting hview).foreignKeys_hold hsource htarget hkey hbetween
  · intro s' reports' hstep view view' hview hview' key hkey hbetween row hrow hgone child hchild
      hrefers
    have hbefore := hshrinking hrun.deleting hview
    have hafter := hshrinking (hrun.deleting.step hstep) hview'
    -- The table has lost a row, so that its children had finished.
    have hdone : Finished reports key.table := by
      rcases hrun.deleting.begun_step hstep key.referencedTable with
        hsame | ⟨earlier, batch, later, hsplit, hmem, hdone⟩
      · have hold := (hbefore.shrinks _ hbetween.2.2).old row hrow
        refine absurd ?_ hgone
        rcases hview' key.referencedTable with he | he
        · rw [he, hsame]
          exact hold
        · rw [he, hsame]
          exact hold
      · exact hdone _ (horder earlier batch later hsplit key hkey hbetween hmem)
    have hsourceRow := hbefore.referenced hsource htarget hkey hbetween hdone hchild hrow hrefers
    exact hgone ((hafter.shrinks _ hbetween.2.2).kept row hsourceRow)

end Run

/-! ## A small schema -/

section Small

/-- Keys in the order of their texts. -/
local instance smallKeys : LinearOrder PrimaryKey := textOrder

/-- A comic. -/
def comicRow (id : String) : DatabaseRow := ⟨⟨[id]⟩, [("id", some id)]⟩

/-- A page of a comic. -/
def pageRow (id comic : String) : DatabaseRow := ⟨⟨[id]⟩, [("id", some id), ("comic", some comic)]⟩

/-- Pages and comics; the source has one of each. -/
def smallTables (name : String) : PhasedTable where
  order := smallKeys
  config :=
    { runId := "run"
      targetDatabase := "shop"
      table := if name = "pages" then ⟨"pages", ["id"], ["id", "comic"], [], by decide⟩
        else ⟨"comics", ["id"], ["id"], [], by decide⟩
      chunkSize := 10 }
  source := if name = "pages" then ⟨[pageRow "1" "1"], by simp⟩ else ⟨[comicRow "1"], by simp⟩

/-- The target has another comic with a page. -/
def smallTargetRows (name : String) : SyncRows :=
  if name = "pages" then ⟨[pageRow "1" "1", pageRow "9" "2"], by decide⟩
  else ⟨[comicRow "1", comicRow "2"], by decide⟩

/-- The rows of the target, for the tables. -/
def smallTargets (name : String) : (smallTables name).Rows := smallTargetRows name

/-- A page references its comic. -/
def pagesComic : ForeignKeyInventory := ⟨"pages", "pages_comic", ["comic"], "shop", "comics", ["id"]⟩

theorem comicRow_holds (id : String) : (smallTables "comics").config.table.Holds (comicRow id) where
  columns := rfl
  key := by
    intro column hcolumn
    cases List.mem_singleton.mp hcolumn
    rfl

theorem pageRow_holds (id comic : String) :
    (smallTables "pages").config.table.Holds (pageRow id comic) where
  columns := rfl
  key := by
    intro column hcolumn
    cases List.mem_singleton.mp hcolumn
    rfl

/-- The calls of a phase that nothing disturbs. -/
def smallCalls (phase : SyncMutationPhase) (s : TablesRuntime smallTables) (name : String) :
    SyncRuntime × List SyncChunkProgress :=
  runAttempts (smallTables name).config (smallTables name).source phase quietCalls (s name) []

/-- The tables before their sync. -/
def smallStart (name : String) : (smallTables name).Runtime :=
  (smallTables name).initial (smallTargets name)

/-- The tables after the missing rows were inserted. -/
def smallInserted (name : String) : (smallTables name).Runtime :=
  (smallCalls .insertMissing smallStart name).1

/-- The tables after the divergent rows were updated. -/
def smallUpdated (name : String) : (smallTables name).Runtime :=
  (smallCalls .updateDivergent smallInserted name).1

theorem smallTables_other {name : String} (h : name ≠ "pages") :
    smallTables name = smallTables "comics" := by
  unfold smallTables
  rw [if_neg h, if_neg h, if_neg (by decide), if_neg (by decide)]

theorem smallSource_holds (name : String) :
    ∀ row ∈ (smallTables name).sourceRows, (smallTables name).config.table.Holds row := by
  by_cases h : name = "pages"
  · subst h
    intro row hrow
    cases List.mem_singleton.mp hrow
    exact pageRow_holds _ _
  · rw [smallTables_other h]
    intro row hrow
    cases List.mem_singleton.mp hrow
    exact comicRow_holds _

theorem smallTargets_hold (name : String) : ∀ row ∈ (smallTables name).rows (smallTargets name),
    (smallTables name).config.table.Holds row := by
  by_cases h : name = "pages"
  · subst h
    intro row hrow
    rcases List.mem_cons.mp hrow with rfl | hrow
    · exact pageRow_holds _ _
    · cases List.mem_singleton.mp hrow
      exact pageRow_holds _ _
  · intro row hrow
    have hrow' : row ∈ (smallTargetRows name).rows := hrow
    rw [smallTargetRows, if_neg h] at hrow'
    rw [smallTables_other h]
    rcases List.mem_cons.mp hrow' with rfl | hrow
    · exact comicRow_holds _
    · cases List.mem_singleton.mp hrow
      exact comicRow_holds _

/-- Pages are deleted before comics: after the calls for the pages and then for the comics, the rows
are those of the source, and the foreign key holds. -/
theorem deletes_keep_pages :
    ∃ batches, planDependencyBatches ["comics", "pages"] [pagesComic] "shop" .childFirst 2 =
        .ok batches ∧ batches = [["pages"], ["comics"]] ∧
      ∃ s reports, DeleteRun smallTables batches
          (fun name => (smallTables name).reconnect (smallUpdated name)) s reports ∧
        (smallTables "pages").committed (s "pages") = [pageRow "1" "1"] ∧
        (smallTables "comics").committed (s "comics") = [comicRow "1"] ∧
        pagesComic.Holds id fun name => (smallTables name).committed (s name) := by
  have hkey : ∀ key ∈ [pagesComic], key = pagesComic := fun key h => List.mem_singleton.mp h
  have hbetween : pagesComic.Between "shop" ["comics", "pages"] := ⟨rfl, by decide, by decide⟩
  have hacyclic : AcyclicForeignKeys [pagesComic] "shop" ["comics", "pages"] := by
    have hedge : ∀ child parent, References [pagesComic] "shop" ["comics", "pages"] child parent →
        child = "pages" ∧ parent = "comics" := by
      rintro child parent ⟨key, hmem, -, rfl, rfl⟩
      rw [hkey key hmem]
      exact ⟨rfl, rfl⟩
    intro table hcycle
    obtain ⟨next, hfirst, -⟩ := Relation.TransGen.head'_iff.mp hcycle
    obtain ⟨last, -, hlast⟩ := Relation.TransGen.tail'_iff.mp hcycle
    exact absurd ((hedge _ _ hfirst).1.symm.trans (hedge _ _ hlast).2) (by decide)
  have hphase : ∀ (phase : SyncMutationPhase) (start : TablesRuntime smallTables) (name : String),
      (smallTables name).History phase (start name) (smallCalls phase start name).1
        (smallCalls phase start name).2 :=
    fun phase start name => SyncHistory.start.runAttempts quietCalls
  have hselected : ∀ name ∈ ["comics", "pages"], name = "comics" ∨ name = "pages" := by simp
  have hinserted : ∀ name ∈ ["comics", "pages"],
      Finished (fun name => (smallCalls .insertMissing smallStart name).2) name := by
    intro name hname
    rcases hselected name hname with rfl | rfl <;>
      exact List.any_eq_true.mp (by decide +kernel)
  have hupdated : ∀ name ∈ ["comics", "pages"],
      Finished (fun name => (smallCalls .updateDivergent smallInserted name).2) name := by
    intro name hname
    rcases hselected name hname with rfl | rfl <;>
      exact List.any_eq_true.mp (by decide +kernel)
  obtain ⟨batches, hplan, hruns⟩ := deletes_keep_foreign_keys smallTables (fun _ => Nat.succ_pos 9)
    smallTargets smallSource_holds smallTargets_hold ["comics", "pages"] (by decide)
    smallInserted smallUpdated _ _
    (fun name hname => ⟨hphase .insertMissing smallStart name, hinserted name hname⟩)
    (fun name hname => ⟨hphase .updateDivergent smallInserted name, hupdated name hname⟩)
    [pagesComic] "shop" hacyclic 2 (by decide) (fun _ => id)
    (fun key hmem _ => hkey key hmem ▸ by decide +kernel)
    (fun key hmem _ => hkey key hmem ▸ by decide +kernel)
  have hbatches : batches = [["pages"], ["comics"]] := by
    have heval : planDependencyBatches ["comics", "pages"] [pagesComic] "shop" .childFirst 2 =
      .ok [["pages"], ["comics"]] := by decide +kernel
    rw [hplan] at heval
    cases heval
    rfl
  subst hbatches
  let attempt : SyncAttempt := ⟨quietSyncWorld, true⟩
  have hstart : DeleteRun smallTables [["pages"], ["comics"]]
    (fun name => (smallTables name).reconnect (smallUpdated name)) _ _ := DeleteRun.start
  have hfirst := hstart.call attempt [] ["pages"] [["comics"]] rfl "pages" (by simp)
    fun _ h => by cases h
  have hpages := hfirst.call attempt [] ["pages"] [["comics"]] rfl "pages" (by simp)
    fun _ h => by cases h
  have hcomics := hpages.call attempt [["pages"]] ["comics"] [] rfl "comics" (by simp)
    fun other hother => by
      rw [List.mem_singleton.mp hother]
      exact List.any_eq_true.mp (by decide +kernel)
  have hend := hcomics.call attempt [["pages"]] ["comics"] [] rfl "comics" (by simp)
    fun other hother => by
      rw [List.mem_singleton.mp hother]
      exact List.any_eq_true.mp (by decide +kernel)
  refine ⟨_, hplan, rfl, _, _, hend, by decide +kernel, by decide +kernel, ?_⟩
  exact (hruns _ _ hend).1 _ (fun name => Or.inl rfl) pagesComic (List.mem_singleton.mpr rfl)
    hbetween

end Small

end BinlogCdc
