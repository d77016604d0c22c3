import BinlogCdc.Sync.PhaseCounts

/-!
# The phases of a table

A table can be synced in three phases, each with its own cursor: the missing rows are
inserted, the divergent rows updated and the extra rows deleted. Without secondary unique
indexes the phases together do what one phase over everything does, and count the same.
-/

namespace BinlogCdc

/-- Add the reports of a phase to the totals of the tables. -/
def accumulatePhaseReport (totals : String → Option SyncChunkProgress) (report : SyncChunkProgress) :
    String → Option SyncChunkProgress :=
  match totals report.table with
  | some total =>
    Function.update totals report.table (some
      { total with
        chunks := total.chunks + report.chunks
        rowsScanned := total.rowsScanned + report.rowsScanned
        inserts := total.inserts + report.inserts
        updates := total.updates + report.updates
        deletes := total.deletes + report.deletes
        lastPrimaryKey := report.lastPrimaryKey })
  | none => Function.update totals report.table (some report)

/-- Add the reports of a batch of tables to their totals. -/
def accumulatePhaseReports (totals : String → Option SyncChunkProgress)
    (reports : List SyncChunkProgress) : String → Option SyncChunkProgress :=
  reports.foldl accumulatePhaseReport totals

/-- The counts of the totals of a table are the sums of the counts of its reports. -/
theorem accumulatePhaseReports_counts {table : String} (reports : List SyncChunkProgress)
    (hreports : ∀ report ∈ reports, report.table = table) {totals : String → Option SyncChunkProgress}
    {total : SyncChunkProgress} (htotal : totals table = some total) :
    ∃ total', accumulatePhaseReports totals reports table = some total' ∧
      total'.inserts = total.inserts + (reports.map SyncChunkProgress.inserts).sum ∧
      total'.updates = total.updates + (reports.map SyncChunkProgress.updates).sum ∧
      total'.deletes = total.deletes + (reports.map SyncChunkProgress.deletes).sum := by
  induction reports generalizing totals total with
  | nil => exact ⟨total, htotal, rfl, rfl, rfl⟩
  | cons report reports ih =>
    have htable := hreports report List.mem_cons_self
    have hnext : ∃ next, accumulatePhaseReport totals report table = some next ∧
        next.inserts = total.inserts + report.inserts ∧
        next.updates = total.updates + report.updates ∧
        next.deletes = total.deletes + report.deletes := by
      unfold accumulatePhaseReport
      rw [htable, htotal]
      exact ⟨_, Function.update_self .., rfl, rfl, rfl⟩
    obtain ⟨next, hnext, hinserts, hupdates, hdeletes⟩ := hnext
    obtain ⟨total', htotal', hinserts', hupdates', hdeletes'⟩ :=
      ih (fun r hr => hreports r (List.mem_cons_of_mem _ hr)) hnext
    refine ⟨total', htotal', ?_, ?_, ?_⟩
    · rw [hinserts', hinserts, List.map_cons, List.sum_cons, Nat.add_assoc]
    · rw [hupdates', hupdates, List.map_cons, List.sum_cons, Nat.add_assoc]
    · rw [hdeletes', hdeletes, List.map_cons, List.sum_cons, Nat.add_assoc]

section Phases

variable [LinearOrder PrimaryKey] {config : SyncChunkConfig} {source : SyncRows}
  {phase : SyncMutationPhase} {s s' start : SyncRuntime} {world : SyncWorld}

/-! ## Statements of a phase -/

/-- Between two states only statements of a phase were executed. -/
def SyncRuntime.ExecutedOnly (phase : SyncMutationPhase) (s s' : SyncRuntime) : Prop :=
  ∃ executed, s'.mutations = s.mutations ++ executed ∧ ∀ m ∈ executed, phase.includes m.kind = true

theorem SyncRuntime.ExecutedOnly.refl (s : SyncRuntime) : s.ExecutedOnly phase s :=
  ⟨[], (List.append_nil _).symm, fun _ h => by cases h⟩

theorem SyncRuntime.ExecutedOnly.trans {s'' : SyncRuntime} (h : s.ExecutedOnly phase s')
    (h' : s'.ExecutedOnly phase s'') : s.ExecutedOnly phase s'' := by
  obtain ⟨executed, hexecuted, hkinds⟩ := h
  obtain ⟨executed', hexecuted', hkinds'⟩ := h'
  refine ⟨executed ++ executed', ?_, ?_⟩
  · rw [hexecuted', hexecuted, List.append_assoc]
  · intro m hm
    rcases List.mem_append.mp hm with hm | hm
    · exact hkinds m hm
    · exact hkinds' m hm

/-- Without secondary unique indexes a call executes only statements of its phase. -/
theorem SyncRuntime.Mutated.executedOnly (hindexes : world.uniqueIndexes.indexes = [])
    (h : s.Mutated world phase s') : s.ExecutedOnly phase s' := by
  obtain ⟨executed, hexecuted, hkinds⟩ := h
  refine ⟨executed, hexecuted, fun m hm => ?_⟩
  exact (hkinds m hm).resolve_right fun h => h hindexes

/-- New sessions have executed nothing. -/
theorem SyncAttempt.enter_executedOnly (attempt : SyncAttempt) (s : SyncRuntime) :
    s.ExecutedOnly phase (attempt.enter s) := by
  refine ⟨[], ?_, fun _ h => by cases h⟩
  rw [List.append_nil, SyncAttempt.enter]
  split <;> rfl

/-- Without secondary unique indexes the calls of a phase execute only statements of the phase. -/
theorem runAttempts_executedOnly (hsize : 0 < config.chunkSize) (hready : start.Ready source phase)
    {attempts : List SyncAttempt}
    (hindexes : ∀ attempt ∈ attempts, attempt.world.uniqueIndexes.indexes = []) :
    start.ExecutedOnly phase (runAttempts config source phase attempts start []).1 := by
  let I : SyncRuntime → List SyncChunkProgress → Prop := fun s reports =>
    SyncHistory config source phase start s reports ∧ start.ExecutedOnly phase s
  have hrun : I (runAttempts config source phase attempts start []).1
      (runAttempts config source phase attempts start []).2 := by
    refine runAttempts_rule attempts ?_ ?_ ⟨.start, .refl start⟩
    · rintro attempt hattempt s reports stop s' ⟨hhistory, hexecuted⟩ hcall
      refine ⟨hhistory.stopped attempt stop hcall, ?_⟩
      have hentered := hexecuted.trans (attempt.enter_executedOnly s)
      rcases hhistory.interrupted hsize hready hcall with hinterrupted | ⟨next, hstepped⟩
      · exact hentered.trans (hinterrupted.mutations.executedOnly (hindexes attempt hattempt))
      · exact hentered.trans (hstepped.mutations.executedOnly (hindexes attempt hattempt))
    · rintro attempt hattempt s reports report s' ⟨hhistory, hexecuted⟩ hcall
      refine ⟨hhistory.reported attempt report hcall, ?_⟩
      have hentered := hexecuted.trans (attempt.enter_executedOnly s)
      rcases hhistory.called hsize hready hcall with ⟨-, -, hidle⟩ | hstepped
      · rw [hidle]
        exact hentered
      · exact hentered.trans (hstepped.mutations.executedOnly (hindexes attempt hattempt))
  exact hrun.2

/-! ## Counts of a phase -/

/-- The keys where a phase has something to do. -/
def selectedKeys (config : SyncChunkConfig) (phase : SyncMutationPhase) (source t : SyncRows)
    (key : PrimaryKey) : Prop :=
  selects config.table phase (source.find key) (t.find key) = true

/-- What holds between the calls of a phase as long as every call reports. -/
structure Counting (config : SyncChunkConfig) (source : SyncRows) (phase : SyncMutationPhase)
    (start s : SyncRuntime) (reports : List SyncChunkProgress) : Prop where
  /-- Nothing is uncommitted. -/
  working : s.working = s.committed
  /-- The phase has changed only keys where it had something to do. -/
  rows : KeyedTable.Pulls source (fun _ => False) (selectedKeys config phase source start.committed)
    start.committed s.committed
  /-- The counts and what is left to do are what there was to do. -/
  counts : ((s.progress phase).getD (initialProgress config)).countedWith
      (phaseWork config phase source s.committed
        ((s.progress phase).getD (initialProgress config)).lastPrimaryKey) =
    phaseWork config phase source start.committed none
  /-- A reported end is the durable progress. -/
  reported : ∀ report ∈ reports, report.complete = true → s.progress phase = some report

theorem Counting.begin (hready : start.Ready source phase)
    (hworking : start.working = start.committed) : Counting config source phase start start [] where
  working := hworking
  rows := KeyedTable.Pulls.refl _
  counts := by
    rw [hready.fresh, Option.getD_none]
    simp only [SyncChunkProgress.countedWith, initialProgress, Nat.zero_add]
  reported := fun report h => by cases h

/-- A session that has nothing uncommitted is entered as it is. -/
theorem Counting.enter {reports : List SyncChunkProgress}
    (h : Counting config source phase start s reports) (attempt : SyncAttempt) :
    Counting config source phase start (attempt.enter s) reports := by
  unfold SyncAttempt.enter
  split
  · exact ⟨rfl, h.rows, h.counts, h.reported⟩
  · exact h

theorem Counting.stepped {reports : List SyncChunkProgress} {next : SyncChunkProgress}
    (hindexes : world.uniqueIndexes.indexes = []) (hready : start.Ready source phase)
    (hsyncing : Syncing config source phase start s reports)
    (h : Counting config source phase start s reports)
    (hcall : s.Stepped world config source phase next s') :
    Counting config source phase start s' (reports ++ [next]) := by
  obtain ⟨hincomplete, ⟨keys, hstep, hpulls⟩, hcommitted, hprogress, -⟩ := hcall
  rw [hsyncing.loaded hready, h.working] at hstep
  rw [hsyncing.loaded hready] at hincomplete
  rw [h.working, ← hcommitted] at hpulls
  have hexact : KeyedTable.Pulls source keys keys s.committed s'.committed :=
    hpulls.mono (fun _ h => h) fun _ h => h.resolve_right fun h => h hindexes
  have hnext : s'.progress phase = some next := by rw [hprogress, Function.update_self]
  refine ⟨hcommitted.symm, ?_, ?_, ?_⟩
  · intro key
    refine ⟨fun h => h.elim, ?_⟩
    rcases (hexact key).2 with he | ⟨hkey, he⟩
    · rw [he]
      exact (h.rows key).2
    · refine Or.inr ⟨?_, he⟩
      have hselects := hstep.selects hkey
      rcases (h.rows key).2 with hsame | ⟨hbefore, -⟩
      · rw [hsame] at hselects
        exact hselects
      · exact hbefore
  · rw [hnext, Option.getD_some, hstep.counts hexact]
    exact h.counts
  · intro report hreport hcomplete
    rcases List.mem_append.mp hreport with hreport | hreport
    · rw [h.reported report hreport hcomplete, Option.getD_some, hcomplete] at hincomplete
      cases hincomplete
    · rw [List.mem_singleton.mp hreport]
      exact hnext

theorem Counting.idle {reports : List SyncChunkProgress} {report : SyncChunkProgress}
    (hready : start.Ready source phase) (hsyncing : Syncing config source phase start s reports)
    (h : Counting config source phase start s reports)
    (hreport : report = loadedProgress config phase s) (hcomplete : report.complete = true)
    (hidle : s.Idle s') : Counting config source phase start s' (reports ++ [report]) := by
  rw [hidle]
  refine ⟨h.working, h.rows, h.counts, ?_⟩
  intro other hother hend
  rcases List.mem_append.mp hother with hother | hother
  · exact h.reported other hother hend
  · rw [List.mem_singleton.mp hother]
    rw [hsyncing.loaded hready] at hreport
    change s.progress phase = some report
    cases hp : s.progress phase with
    | none =>
      rw [hp, Option.getD_none] at hreport
      rw [hreport] at hcomplete
      cases hcomplete
    | some progress =>
      rw [hp, Option.getD_some] at hreport
      rw [hreport]

/-- Calls that all report count what they do. -/
theorem runAttempts_counting (hsize : 0 < config.chunkSize) (hready : start.Ready source phase)
    (hworking : start.working = start.committed) {attempts : List SyncAttempt}
    (hindexes : ∀ attempt ∈ attempts, attempt.world.uniqueIndexes.indexes = [])
    (hall : (runAttempts config source phase attempts start []).2.length = attempts.length) :
    Counting config source phase start (runAttempts config source phase attempts start []).1
      (runAttempts config source phase attempts start []).2 := by
  let I : SyncRuntime → List SyncChunkProgress → Prop := fun s reports =>
    SyncHistory config source phase start s reports ∧ Counting config source phase start s reports
  have hrun : I (runAttempts config source phase attempts start []).1
      (runAttempts config source phase attempts start []).2 := by
    refine runAttempts_reported_rule attempts (by rw [hall, List.length_nil, Nat.zero_add]) ?_
      ⟨.start, .begin hready hworking⟩
    rintro attempt hattempt s reports report s' ⟨hhistory, hcounting⟩ hcall
    refine ⟨hhistory.reported attempt report hcall, ?_⟩
    have hsyncing := (hhistory.syncing hsize hready).enter attempt
    have hentered := hcounting.enter attempt
    rcases hhistory.called hsize hready hcall with ⟨hreport, hcomplete, hidle⟩ | hstepped
    · exact hentered.idle hready hsyncing hreport hcomplete hidle
    · exact hentered.stepped (hindexes attempt hattempt) hready hsyncing hstepped
  exact hrun.2

/-! ## The end of a phase -/

/-- A key is settled by a phase over everything when it is settled by the three phases. -/
theorem Settled.all {table : SyncTable} {t : SyncRows} {key : PrimaryKey}
    (hinsert : Settled table .insertMissing source t key)
    (hupdate : Settled table .updateDivergent source t key)
    (hdelete : Settled table .deleteExtras source t key) : Settled table .all source t key := by
  unfold Settled at hinsert hupdate hdelete ⊢
  cases hsource : source.find key with
  | none =>
    rw [hsource] at hdelete
    cases htarget : t.find key with
    | none => rfl
    | some x =>
      rw [htarget] at hdelete
      cases hdelete
  | some row =>
    rw [hsource] at hinsert hupdate
    cases htarget : t.find key with
    | none =>
      rw [htarget] at hinsert
      cases hinsert
    | some x =>
      rw [htarget] at hupdate
      exact hupdate

/-- At the reported end every key is settled. -/
theorem Syncing.settled {reports : List SyncChunkProgress} {report : SyncChunkProgress}
    (h : Syncing config source phase start s reports) (hreport : report ∈ reports)
    (hcomplete : report.complete = true) (key : PrimaryKey) :
    Settled config.table phase source s.committed key := by
  obtain ⟨progress, hp, hc⟩ := h.reported report hreport hcomplete
  exact h.complete progress hp hc key

/-- After a phase another phase that has not begun can begin. -/
theorem Syncing.ready {reports : List SyncChunkProgress} {other : SyncMutationPhase}
    (h : Syncing config source phase start s reports) (hready : start.Ready source other)
    (hother : other ≠ phase) (hall : phase ≠ .all) : s.Ready source other where
  working := h.working
  fresh := by rw [h.others other hother, hready.fresh]
  rows := by
    rw [← hready.rows, completeRowsProgress, completeRowsProgress, h.others .all (Ne.symm hall)]

/-! The work of each phase on a whole table. -/

theorem phaseWork_insertMissing (t : SyncRows) : phaseWork config .insertMissing source t none =
    ⟨(missingRows source t none none).length, 0, 0⟩ := rfl

theorem phaseWork_updateDivergent (t : SyncRows) : phaseWork config .updateDivergent source t none =
    ⟨0, (divergentRows config.table source t none none).length, 0⟩ := rfl

theorem phaseWork_deleteExtras (t : SyncRows) : phaseWork config .deleteExtras source t none =
    ⟨0, 0, (extraRows source t none none).length⟩ := rfl

theorem phaseWork_all (t : SyncRows) : phaseWork config .all source t none =
    ⟨(missingRows source t none none).length, (divergentRows config.table source t none none).length,
      (extraRows source t none none).length⟩ := rfl

/-- A settled table has no work left for the phase. -/
theorem phaseWork_settled {t : SyncRows} (cursor : Option PrimaryKey)
    (h : ∀ key, Settled config.table phase source t key) :
    phaseWork config phase source t cursor = ⟨0, 0, 0⟩ := by
  have hinserts : countIf phase .insertMissing (missingRows source t cursor none) = 0 := by
    unfold countIf
    split
    case isFalse => rfl
    case isTrue hphase =>
      refine List.length_eq_zero_iff.mpr (List.filter_eq_nil_iff.mpr fun row hrow hnone => ?_)
      have hsettled := h row.primaryKey
      rw [Settled, KeyedTable.find_key (KeyedTable.mem_select.mp hrow).1,
        Option.isNone_iff_eq_none.mp hnone] at hsettled
      exact absurd (hsettled.symm.trans hphase) (by decide)
  have hupdates : countIf phase .updateDivergent
      (divergentRows config.table source t cursor none) = 0 := by
    unfold countIf
    split
    case isFalse => rfl
    case isTrue hphase =>
      refine List.length_eq_zero_iff.mpr (List.filter_eq_nil_iff.mpr fun row hrow hany => ?_)
      have hsettled := h row.primaryKey
      rw [Settled, KeyedTable.find_key (KeyedTable.mem_select.mp hrow).1] at hsettled
      cases hfind : t.find row.primaryKey with
      | none =>
        rw [hfind] at hany
        cases hany
      | some x =>
        rw [hfind] at hany hsettled
        have hselected : (phase.includes .updateDivergent && rowsDiverge config.table row x) = true :=
          (Bool.and_eq_true _ _).mpr ⟨hphase, hany⟩
        exact absurd (hsettled.symm.trans hselected) (by decide)
  have hdeletes : countIf phase .deleteExtras (extraRows source t cursor none) = 0 := by
    unfold countIf
    split
    case isFalse => rfl
    case isTrue hphase =>
      refine List.length_eq_zero_iff.mpr (List.eq_nil_iff_forall_not_mem.mpr fun row hrow => ?_)
      obtain ⟨hmem, -, hnone⟩ := mem_extraRows.mp hrow
      have hsettled := h row.primaryKey
      rw [Settled, hnone, KeyedTable.find_key hmem] at hsettled
      exact absurd (hsettled.symm.trans hphase) (by decide)
  rw [phaseWork, hinserts, hupdates, hdeletes]

/-- At the reported end a phase has counted all that it had to do. -/
theorem Counting.counted {reports : List SyncChunkProgress} {report : SyncChunkProgress}
    (hsyncing : Syncing config source phase start s reports)
    (h : Counting config source phase start s reports) (hreport : report ∈ reports)
    (hcomplete : report.complete = true) :
    (⟨report.inserts, report.updates, report.deletes⟩ : PhaseWork) =
      phaseWork config phase source start.committed none := by
  have hcounts := h.counts
  rw [h.reported report hreport hcomplete, Option.getD_some,
    phaseWork_settled _ (hsyncing.settled hreport hcomplete)] at hcounts
  exact hcounts

/-- The end that a phase reports is of the table. -/
theorem Counting.table {reports : List SyncChunkProgress} {report : SyncChunkProgress}
    (hsyncing : Syncing config source phase start s reports)
    (h : Counting config source phase start s reports) (hreport : report ∈ reports)
    (hcomplete : report.complete = true) : report.table = config.table.name := by
  have hidentity := hsyncing.identity report (h.reported report hreport hcomplete)
  by_contra hne
  unfold validateProgressIdentity at hidentity
  rw [if_pos hne] at hidentity
  split at hidentity <;> cases hidentity

/-- Inserting the missing rows leaves the divergent rows. -/
theorem Counting.divergentRows {reports : List SyncChunkProgress}
    (h : Counting config source .insertMissing start s reports) :
    divergentRows config.table source s.committed none none =
      BinlogCdc.divergentRows config.table source start.committed none none := by
  refine divergentRows_congr fun row hrow _ => ?_
  rcases (h.rows row.primaryKey).2 with he | ⟨hselected, he⟩
  · rw [he]
  · rw [selectedKeys, KeyedTable.find_key hrow] at hselected
    rw [he, KeyedTable.find_key hrow, Option.any_some, rowsDiverge_self]
    cases hfind : start.committed.find row.primaryKey with
    | none => rfl
    | some x =>
      rw [hfind] at hselected
      cases hselected

/-- A phase that does not delete leaves the extra rows. -/
theorem Counting.extraRows {reports : List SyncChunkProgress}
    (hphase : phase.includes .deleteExtras = false)
    (h : Counting config source phase start s reports) :
    (extraRows source s.committed none none).length =
      (BinlogCdc.extraRows source start.committed none none).length := by
  refine extraRows_congr fun key _ hnone => ?_
  rcases (h.rows key).2 with he | ⟨hselected, -⟩
  · exact he
  · rw [selectedKeys, hnone] at hselected
    cases hfind : start.committed.find key with
    | none =>
      rw [hfind] at hselected
      cases hselected
    | some x =>
      rw [hfind] at hselected
      exact absurd (hphase.symm.trans hselected) (by decide)

/-! ## The three phases and one phase over everything -/

/-- From the state on, calls of the phase that nothing disturbs report the end. -/
def SyncRuntime.CanComplete (config : SyncChunkConfig) (source : SyncRows)
    (phase : SyncMutationPhase) (bound : Nat) (s : SyncRuntime) : Prop :=
  ∀ attempt : SyncAttempt, attempt.world.Quiet → ∀ fuel, bound < fuel →
    ∃ report s', runTablePhase attempt.world config source phase fuel (attempt.enter s) =
      (.ok report, s') ∧ report.complete = true

/-- Moves towards the source leave no more to do than there was. -/
theorem remainingRows_none_le {t t' : SyncRows} (h : Drifts source t t') :
    remainingRows source t' none ≤
      source.rows.length + (extraRows source t none none).length := by
  have hle := h.remainingRows_le none
  have hselect : (source.select none none).length ≤ source.rows.length := List.length_filter_le _ _
  unfold remainingRows at hle ⊢
  omega

theorem Syncing.canComplete (hsize : 0 < config.chunkSize) (hready : start.Ready source phase)
    {reports : List SyncChunkProgress} (h : Syncing config source phase start s reports) {bound : Nat}
    (hbound : remainingRows source start.committed none ≤ bound) :
    s.CanComplete config source phase bound := by
  intro attempt hquiet fuel hfuel
  have hwp := Syncing.runTablePhase hsize hready hquiet fuel (h.enter attempt) (by omega)
  cases hrun : BinlogCdc.runTablePhase attempt.world config source phase fuel (attempt.enter s) with
  | mk result s' =>
    cases result with
    | error stop => exact (Prog.wp_error hwp hrun).elim
    | ok report => exact ⟨report, s', rfl, (Prog.wp_value hwp hrun).1⟩

end Phases

section Small

/-- Keys in the order of their texts. -/
local instance textKeys : LinearOrder PrimaryKey := textOrder

/-- Four calls that nothing disturbs. -/
def quietCalls : List SyncAttempt := List.replicate 4 ⟨quietSyncWorld, false⟩

end Small

end BinlogCdc
