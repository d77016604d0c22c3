import BinlogCdc.Sync.CallRules

/-!
# Convergence of a table sync

The sync of a table over any number of calls, with crashes and failed operations between
and inside them. Every call starts from the durable progress. What is at or before the
durable cursor has been committed, every reported chunk uses up source rows or extra
target rows, and the call that reports the end leaves the table of the source.
-/

namespace BinlogCdc

/-! ## Rows of a table -/

/-- Two lists of values with the same columns are determined by their lookups. -/
theorem eq_of_lookup_eq {values values' : List (String × Option String)}
    (hcolumns : values.map Prod.fst = values'.map Prod.fst) (hnodup : (values.map Prod.fst).Nodup)
    (hlookup : ∀ column ∈ values.map Prod.fst, values.lookup column = values'.lookup column) :
    values = values' := by
  induction values generalizing values' with
  | nil => exact (List.map_eq_nil_iff.mp hcolumns.symm).symm
  | cons cell values ih =>
    cases values' with
    | nil => cases hcolumns
    | cons cell' values' =>
      obtain ⟨column, value⟩ := cell
      obtain ⟨column', value'⟩ := cell'
      simp only [List.map_cons, List.cons.injEq] at hcolumns
      obtain ⟨rfl, hcolumns⟩ := hcolumns
      rw [List.map_cons, List.nodup_cons] at hnodup
      have hvalue : value = value' := by
        simpa [List.lookup] using hlookup column List.mem_cons_self
      have hrest : values = values' := by
        refine ih hcolumns hnodup.2 fun c hc => ?_
        have hne : c ≠ column := fun h => hnodup.1 (h ▸ hc)
        have hboth := hlookup c (List.mem_cons_of_mem _ hc)
        simpa [List.lookup, beq_eq_false_iff_ne.mpr hne] using hboth
      rw [hvalue, hrest]

/-- Two rows of a table with the same key that do not diverge are the same row. -/
theorem SyncTable.Holds.eq_of_not_diverge {table : SyncTable} {row row' : DatabaseRow}
    (h : table.Holds row) (h' : table.Holds row') (hkey : row.primaryKey = row'.primaryKey)
    (hdiverge : rowsDiverge table row row' = false) : row = row' := by
  have hget : ∀ column ∈ table.columns, row.get column = row'.get column := by
    intro column hcolumn
    by_cases hprimary : column ∈ table.primaryKey
    · rw [h.key column hprimary, h'.key column hprimary, hkey]
    · rw [rowsDiverge, List.any_eq_false] at hdiverge
      have hne := hdiverge column (List.mem_filter.mpr ⟨hcolumn, by simpa using hprimary⟩)
      simpa using hne
  have hvalues : row.values = row'.values := by
    refine eq_of_lookup_eq (h.columns.trans h'.columns.symm) ?_ ?_
    · rw [h.columns]
      exact table.columns_nodup
    · intro column hcolumn
      rw [h.columns] at hcolumn
      exact hget column hcolumn
  cases row
  cases row'
  cases hkey
  cases hvalues
  rfl

theorem rowsDiverge_self (table : SyncTable) (row : DatabaseRow) : rowsDiverge table row row = false := by
  simp [rowsDiverge]

/-- A phase has nothing to do at a key where the target has the row of the source. -/
theorem selects_self (table : SyncTable) (phase : SyncMutationPhase) (row : Option DatabaseRow) :
    selects table phase row row = false := by
  cases row with
  | none => rfl
  | some row => simp [selects, rowsDiverge_self]

/-- A list without one of the elements of another list is shorter. -/
theorem length_succ_le {α : Type} {l l' : List α} {a : α} (hnodup : l.Nodup) (ha : a ∉ l)
    (ha' : a ∈ l') (hsub : l ⊆ l') : l.length + 1 ≤ l'.length :=
  (List.subperm_of_subset (List.nodup_cons.mpr ⟨ha, hnodup⟩)
    (List.cons_subset.mpr ⟨ha', hsub⟩)).length_le

section Histories

variable [LinearOrder PrimaryKey]

/-! ## Histories -/

/-- A table whose sync has not begun. -/
def SyncRuntime.initial (target : SyncRows) : SyncRuntime where
  tick := 0
  committed := target
  working := target
  locked := false
  progress := fun _ => none
  mutations := []

/-- One call: what the world does, and whether the call has new sessions. -/
structure SyncAttempt where
  /-- The world during the call. -/
  world : SyncWorld
  /-- The sessions are new; what the old ones left uncommitted is gone. -/
  reconnected : Bool

/-- The state a call starts from. -/
def SyncAttempt.enter (attempt : SyncAttempt) (s : SyncRuntime) : SyncRuntime :=
  if attempt.reconnected then { s with working := s.committed, locked := false } else s

/-- The call and the state it reaches. -/
def SyncAttempt.call (attempt : SyncAttempt) (config : SyncChunkConfig) (source : SyncRows)
    (phase : SyncMutationPhase) (s : SyncRuntime) :
    Except SyncStop SyncChunkProgress × SyncRuntime :=
  syncNextChunkWithPhase attempt.world config source phase (attempt.enter s)

/-- The states that calls of a phase reach, with the reports of the calls that returned one. -/
inductive SyncHistory (config : SyncChunkConfig) (source : SyncRows) (phase : SyncMutationPhase)
    (start : SyncRuntime) : SyncRuntime → List SyncChunkProgress → Prop
  /-- No call yet. -/
  | start : SyncHistory config source phase start start []
  /-- A call that was stopped, by an error or by the death of the process. -/
  | stopped {s s' : SyncRuntime} {reports : List SyncChunkProgress} (attempt : SyncAttempt)
    (stop : SyncStop) (before : SyncHistory config source phase start s reports)
    (call : attempt.call config source phase s = (.error stop, s')) :
    SyncHistory config source phase start s' reports
  /-- A call that returned a report. -/
  | reported {s s' : SyncRuntime} {reports : List SyncChunkProgress} (attempt : SyncAttempt)
    (report : SyncChunkProgress) (before : SyncHistory config source phase start s reports)
    (call : attempt.call config source phase s = (.ok report, s')) :
    SyncHistory config source phase start s' (reports ++ [report])

/-- Make some calls, and collect their reports. -/
def runAttempts (config : SyncChunkConfig) (source : SyncRows) (phase : SyncMutationPhase) :
    List SyncAttempt → SyncRuntime → List SyncChunkProgress → SyncRuntime × List SyncChunkProgress
  | [], s, reports => (s, reports)
  | attempt :: rest, s, reports =>
    match attempt.call config source phase s with
    | (.error _, s') => runAttempts config source phase rest s' reports
    | (.ok report, s') => runAttempts config source phase rest s' (reports ++ [report])

variable {config : SyncChunkConfig} {source target : SyncRows} {phase : SyncMutationPhase}
  {s s' : SyncRuntime} {world : SyncWorld}

/-- The calls made after a history continue it. -/
theorem SyncHistory.runAttempts {start : SyncRuntime} (attempts : List SyncAttempt)
    {reports : List SyncChunkProgress} (h : SyncHistory config source phase start s reports) :
    SyncHistory config source phase start (runAttempts config source phase attempts s reports).1
      (runAttempts config source phase attempts s reports).2 := by
  induction attempts generalizing s reports with
  | nil => exact h
  | cons attempt rest ih =>
    rw [BinlogCdc.runAttempts]
    cases hcall : attempt.call config source phase s with
    | mk result s' =>
      cases result with
      | error stop => exact ih (h.stopped attempt stop hcall)
      | ok report => exact ih (h.reported attempt report hcall)

/-! ## Rows that remain -/

/-- The rows that the sync has not used up: source rows after a cursor, and target rows after it
that the source does not have. -/
def remainingRows (source target : SyncRows) (cursor : Option PrimaryKey) : Nat :=
  (source.select cursor none).length + (extraRows source target cursor none).length

theorem mem_extraRows {after upto : Option PrimaryKey} {row : DatabaseRow} :
    row ∈ extraRows source target after upto ↔
      row ∈ target.rows ∧ KeyedTable.InWindow after upto row.primaryKey ∧
        source.find row.primaryKey = none := by
  rw [extraRows, List.mem_filter, KeyedTable.mem_select, Option.isNone_iff_eq_none, and_assoc]

theorem extraRows_nodup (after upto : Option PrimaryKey) :
    (extraRows source target after upto).Nodup :=
  (target.rows_nodup.filter _).filter _

/-- An extra row after a move towards the source was an extra row before it. -/
theorem Drifts.extraRows_subset {t t' : SyncRows} (h : Drifts source t t')
    {after after' upto : Option PrimaryKey}
    (hafter : ∀ k, KeyedTable.InWindow after' upto k → KeyedTable.InWindow after upto k) :
    extraRows source t' after' upto ⊆ extraRows source t after upto := by
  intro row hrow
  obtain ⟨hmem, hwindow, hnone⟩ := mem_extraRows.mp hrow
  refine mem_extraRows.mpr ⟨?_, hafter _ hwindow, hnone⟩
  have hfind := KeyedTable.find_key hmem
  rcases (h row.primaryKey).2 with he | ⟨-, he⟩
  · exact KeyedTable.mem_of_find (he.symm.trans hfind)
  · rw [he, hnone] at hfind
    cases hfind

theorem Drifts.remainingRows_le {t t' : SyncRows} (h : Drifts source t t')
    (cursor : Option PrimaryKey) : remainingRows source t' cursor ≤ remainingRows source t cursor := by
  have hsub : extraRows source t' cursor none ⊆ extraRows source t cursor none :=
    h.extraRows_subset fun _ hk => hk
  have hle := (List.subperm_of_subset (extraRows_nodup cursor none) hsub).length_le
  unfold remainingRows
  omega

/-! ## The step of a chunk -/

/-- The phase has nothing to do at a key. -/
def Settled (table : SyncTable) (phase : SyncMutationPhase) (source target : SyncRows)
    (key : PrimaryKey) : Prop := selects table phase (source.find key) (target.find key) = false

/-- Moves towards the source keep a key settled. -/
theorem Settled.pulls {table : SyncTable} {t t' : SyncRows} {must may : PrimaryKey → Prop}
    {key : PrimaryKey} (h : Settled table phase source t key)
    (hpulls : KeyedTable.Pulls source must may t t') : Settled table phase source t' key := by
  unfold Settled at h ⊢
  rcases (hpulls key).2 with he | ⟨-, he⟩
  · rw [he]
    exact h
  · rw [he]
    exact selects_self _ _ _

/-- The cursor has passed a key. -/
def Passed (cursor : Option PrimaryKey) (key : PrimaryKey) : Prop :=
  ¬ KeyedTable.InWindow cursor none key

theorem not_passed {cursor : Option PrimaryKey} {key : PrimaryKey} :
    ¬ Passed cursor key ↔ ∀ c ∈ cursor, c < key := by
  rw [Passed, not_not, KeyedTable.InWindow]
  exact ⟨fun h => h.1, fun h => ⟨h, fun e he => by cases he⟩⟩

theorem passed_some {cursor key : PrimaryKey} : Passed (some cursor) key ↔ key ≤ cursor := by
  rw [← not_iff_not, not_passed, not_le]
  simp

/-- A chunk settles the keys that its cursor passes, a chunk that ends the table settles all
keys, and any other uses up a row. -/
structure ChunkStep.Advance (config : SyncChunkConfig) (source : SyncRows)
    (phase : SyncMutationPhase) (progress next : SyncChunkProgress) (t t' : SyncRows) : Prop where
  /-- What the cursor has passed is settled. -/
  passed : ∀ key, Passed next.lastPrimaryKey key → Settled config.table phase source t' key
  /-- At the end everything is settled. -/
  complete : next.complete = true → ∀ key, Settled config.table phase source t' key
  /-- The rows that remain. -/
  remaining : remainingRows source t' next.lastPrimaryKey + (if next.complete then 0 else 1) ≤
    remainingRows source t progress.lastPrimaryKey

/-- The window of a chunk. -/
theorem ChunkStep.advance_window {progress : SyncChunkProgress} {t t' : SyncRows}
    {may : PrimaryKey → Prop} {last : DatabaseRow}
    (hlast : last ∈ source.select progress.lastPrimaryKey none)
    (hpulls : KeyedTable.Pulls source (windowKeys config.table phase source t
      progress.lastPrimaryKey (some last.primaryKey)) may t t')
    (hdone : ∀ key, Passed progress.lastPrimaryKey key → Settled config.table phase source t key) :
    ChunkStep.Advance config source phase progress
      (windowProgress config phase source t progress last.primaryKey) t t' where
  passed := by
    intro key hkey
    by_cases hbefore : Passed progress.lastPrimaryKey key
    · exact (hdone key hbefore).pulls hpulls
    · have hwindow : KeyedTable.InWindow progress.lastPrimaryKey (some last.primaryKey) key := by
        refine ⟨not_passed.mp hbefore, fun e he => ?_⟩
        cases he
        exact passed_some.mp hkey
      by_cases hselects : selects config.table phase (source.find key) (t.find key) = true
      · unfold Settled
        rw [(hpulls key).1 ⟨hwindow, hselects⟩]
        exact selects_self _ _ _
      · exact Settled.pulls ((Bool.not_eq_true _).mp hselects) hpulls
  complete := fun h => by cases h
  remaining := by
    have hafter : ∀ k, KeyedTable.InWindow (some last.primaryKey) none k →
        KeyedTable.InWindow progress.lastPrimaryKey none k := by
      intro k hk
      refine ⟨fun c hc => ?_, fun e he => by cases he⟩
      exact ((KeyedTable.mem_select.mp hlast).2.1 c hc).trans (hk.1 _ rfl)
    have hextra : (extraRows source t' (some last.primaryKey) none).length ≤
        (extraRows source t progress.lastPrimaryKey none).length :=
      (List.subperm_of_subset (extraRows_nodup _ _)
        ((Drifts.of_pulls hpulls).extraRows_subset hafter)).length_le
    have hsource : (source.select (some last.primaryKey) none).length + 1 ≤
        (source.select progress.lastPrimaryKey none).length := by
      refine length_succ_le (source.rows_nodup.filter _) ?_ hlast ?_
      · intro hmem
        exact lt_irrefl _ ((KeyedTable.mem_select.mp hmem).2.1 _ rfl)
      · intro r hr
        obtain ⟨hrow, hwindow⟩ := KeyedTable.mem_select.mp hr
        exact KeyedTable.mem_select.mpr ⟨hrow, hafter _ hwindow⟩
    simp only [windowProgress, remainingRows, Bool.false_eq_true, if_false]
    omega

/-- A page of the tail. -/
theorem ChunkStep.advance_tail {progress : SyncChunkProgress} {t t' : SyncRows}
    {may : PrimaryKey → Prop} {page : SyncChunkPage}
    (hsource : source.select progress.lastPrimaryKey none = [])
    (hpage : page.PageOf (t.select progress.lastPrimaryKey none))
    (hpulls : KeyedTable.Pulls source (tailKeys phase page) may t t')
    (hdone : ∀ key, Passed progress.lastPrimaryKey key → Settled config.table phase source t key) :
    ChunkStep.Advance config source phase progress (tailProgress phase progress page) t t' := by
  obtain ⟨⟨rest, hrest⟩, hlast, hnonempty⟩ := hpage
  have hnone : ∀ key, ¬ Passed progress.lastPrimaryKey key → source.find key = none := by
    intro key hkey
    refine KeyedTable.find_eq_none.mpr fun r hr he => ?_
    have hmem : r ∈ source.select progress.lastPrimaryKey none :=
      KeyedTable.mem_select.mpr ⟨hr, he ▸ not_not.mp hkey⟩
    rw [hsource] at hmem
    cases hmem
  have hrow : ∀ r ∈ page.rows, r ∈ t.rows ∧ ¬ Passed progress.lastPrimaryKey r.primaryKey := by
    intro r hr
    have hmem : r ∈ t.select progress.lastPrimaryKey none := hrest ▸ List.mem_append_left _ hr
    obtain ⟨hmem, hwindow⟩ := KeyedTable.mem_select.mp hmem
    exact ⟨hmem, not_not.mpr hwindow⟩
  -- After the last source row only a phase that deletes has anything to do.
  have hkept : phase.includes .deleteExtras = false → ∀ key, ¬ Passed progress.lastPrimaryKey key →
      Settled config.table phase source t' key := by
    intro hphase key hkey
    unfold Settled
    rw [hnone key hkey]
    cases t'.find key with
    | none => rfl
    | some x => exact hphase
  have hafter : ∀ k, KeyedTable.InWindow (tailProgress phase progress page).lastPrimaryKey none k →
      KeyedTable.InWindow progress.lastPrimaryKey none k := by
    intro k hk
    refine ⟨fun c hc => ?_, fun e he => by cases he⟩
    cases hphase : phase.includes .deleteExtras with
    | true =>
      simp only [tailProgress, hphase, if_true] at hk
      exact hk.1 c hc
    | false =>
      cases hget : page.rows.getLast? with
      | none =>
        simp only [tailProgress, hphase, Bool.false_eq_true, if_false, hget] at hk
        exact hk.1 c hc
      | some last =>
        simp only [tailProgress, hphase, Bool.false_eq_true, if_false, hget] at hk
        have hlt := not_passed.mp (hrow last (List.mem_of_getLast? hget)).2 c hc
        exact hlt.trans (hk.1 _ rfl)
  refine ⟨?_, ?_, ?_⟩
  · intro key hkey
    by_cases hbefore : Passed progress.lastPrimaryKey key
    · exact (hdone key hbefore).pulls hpulls
    · cases hphase : phase.includes .deleteExtras with
      | false => exact hkept hphase key hbefore
      | true =>
        simp only [tailProgress, hphase, if_true] at hkey
        exact absurd hkey hbefore
  · intro hcomplete key
    by_cases hbefore : Passed progress.lastPrimaryKey key
    · exact (hdone key hbefore).pulls hpulls
    · cases hphase : phase.includes .deleteExtras with
      | false => exact hkept hphase key hbefore
      | true =>
        have hall : page.rows = t.select progress.lastPrimaryKey none :=
          hlast (by simpa [tailProgress] using hcomplete)
        cases hfind : t.find key with
        | none =>
          refine Settled.pulls ?_ hpulls
          unfold Settled
          rw [hnone key hbefore, hfind]
          rfl
        | some x =>
          have hx : x ∈ page.rows := by
            rw [hall]
            refine KeyedTable.mem_select.mpr ⟨KeyedTable.mem_of_find hfind, ?_⟩
            rw [KeyedTable.key_of_find hfind]
            exact not_not.mp hbefore
          unfold Settled
          rw [(hpulls key).1 ⟨hphase, List.mem_map.mpr ⟨x, hx, KeyedTable.key_of_find hfind⟩⟩]
          exact selects_self _ _ _
  · have hsub := (Drifts.of_pulls hpulls).extraRows_subset hafter
    have hnil : source.select (tailProgress phase progress page).lastPrimaryKey none = [] := by
      refine List.eq_nil_iff_forall_not_mem.mpr fun r hr => ?_
      obtain ⟨hr, hwindow⟩ := KeyedTable.mem_select.mp hr
      have hmem : r ∈ source.select progress.lastPrimaryKey none :=
        KeyedTable.mem_select.mpr ⟨hr, hafter _ hwindow⟩
      rw [hsource] at hmem
      cases hmem
    simp only [remainingRows, hnil, hsource, List.length_nil, Nat.zero_add]
    by_cases hcomplete : (tailProgress phase progress page).complete = true
    · rw [if_pos hcomplete]
      exact (List.subperm_of_subset (extraRows_nodup _ _) hsub).length_le
    · rw [if_neg hcomplete]
      have hmore : page.hasMore = true := by simpa [tailProgress] using hcomplete
      have hne : page.rows ≠ [] := fun h => by simp [hnonempty h] at hmore
      -- The last row of the page is used up: it is deleted, or the cursor passes it.
      obtain ⟨last, hget⟩ : ∃ last, page.rows.getLast? = some last :=
        ⟨_, List.getLast?_eq_some_getLast hne⟩
      have hmem := List.mem_of_getLast? hget
      refine length_succ_le (a := last) (extraRows_nodup _ _) ?_ ?_ hsub
      · intro hused
        obtain ⟨hin, hwindow, hnone'⟩ := mem_extraRows.mp hused
        cases hphase : phase.includes .deleteExtras with
        | true =>
          have hgone := (hpulls last.primaryKey).1 ⟨hphase, List.mem_map_of_mem hmem⟩
          rw [KeyedTable.find_key hin, hnone'] at hgone
          cases hgone
        | false =>
          simp only [tailProgress, hphase, Bool.false_eq_true, if_false, hget] at hwindow
          exact lt_irrefl _ (hwindow.1 _ rfl)
      · obtain ⟨hin, hpassed⟩ := hrow last hmem
        exact mem_extraRows.mpr ⟨hin, not_not.mp hpassed, hnone _ hpassed⟩

/-- Every chunk advances. -/
theorem ChunkStep.advance {progress next : SyncChunkProgress} {t t' : SyncRows}
    {keys may : PrimaryKey → Prop} (hstep : ChunkStep config source phase progress t next keys)
    (hpulls : KeyedTable.Pulls source keys may t t')
    (hdone : ∀ key, Passed progress.lastPrimaryKey key → Settled config.table phase source t key) :
    ChunkStep.Advance config source phase progress next t t' := by
  cases hstep with
  | window last hlast => exact ChunkStep.advance_window hlast hpulls hdone
  | tail page hsource hpage => exact ChunkStep.advance_tail hsource hpage hpulls hdone

/-! ## Runs of calls -/

/-- What holds between the calls of a phase that started from a state. -/
structure Syncing (config : SyncChunkConfig) (source : SyncRows) (phase : SyncMutationPhase)
    (start s : SyncRuntime) (reports : List SyncChunkProgress) : Prop where
  /-- The committed rows moved towards the source. -/
  committed : Drifts source start.committed s.committed
  /-- The rows of the session are further towards the source. -/
  working : Drifts source s.committed s.working
  /-- The progress rows of the other phases are the same. -/
  others : ∀ other, other ≠ phase → s.progress other = start.progress other
  /-- The progress is of the run and the table. -/
  identity : ∀ progress ∈ s.progress phase,
    validateProgressIdentity config progress = .ok ()
  /-- What the durable cursor has passed is settled. -/
  passed : ∀ progress ∈ s.progress phase, ∀ key, Passed progress.lastPrimaryKey key →
    Settled config.table phase source s.committed key
  /-- At the end everything is settled. -/
  complete : ∀ progress ∈ s.progress phase, progress.complete = true →
    ∀ key, Settled config.table phase source s.committed key
  /-- A reported end is recorded. -/
  reported : ∀ report ∈ reports, report.complete = true →
    ∃ progress ∈ s.progress phase, progress.complete = true
  /-- Every other report has used up a row. -/
  remaining : (reports.filter fun report => !report.complete).length +
    remainingRows source s.committed ((s.progress phase).bind SyncChunkProgress.lastPrimaryKey) ≤
    remainingRows source start.committed none

/-- A state in which a phase of the table can begin. -/
structure SyncRuntime.Ready (source : SyncRows) (phase : SyncMutationPhase) (s : SyncRuntime) :
    Prop where
  /-- The rows of the session are not behind the committed ones. -/
  working : Drifts source s.committed s.working
  /-- The phase has no progress. -/
  fresh : s.progress phase = none
  /-- The table is not recorded as done. -/
  rows : completeRowsProgress s = none

theorem Syncing.start {start : SyncRuntime} (hready : start.Ready source phase) :
    Syncing config source phase start start [] where
  committed := Drifts.refl _
  working := hready.working
  others := fun _ _ => rfl
  identity := fun progress h => by simp [hready.fresh] at h
  passed := fun progress h => by simp [hready.fresh] at h
  complete := fun progress h => by simp [hready.fresh] at h
  reported := fun report h => by cases h
  remaining := by simp [hready.fresh]

/-- The stored progress of a phase is its own row. -/
theorem storedProgress_eq (hrows : phase ≠ .all → completeRowsProgress s = none) :
    storedProgress phase s = s.progress phase := by
  unfold storedProgress
  cases hcomplete : completeRowsProgress s with
  | none => rfl
  | some complete =>
    have hphase : phase = .all := by
      by_contra hne
      rw [hrows hne] at hcomplete
      cases hcomplete
    rw [completeRowsProgress, Option.filter_eq_some_iff] at hcomplete
    rw [hphase, hcomplete.1]

/-- New sessions keep what holds between the calls. -/
theorem Syncing.enter {start : SyncRuntime} {reports : List SyncChunkProgress}
    (h : Syncing config source phase start s reports) (attempt : SyncAttempt) :
    Syncing config source phase start (attempt.enter s) reports := by
  unfold SyncAttempt.enter
  split
  · exact ⟨h.committed, Drifts.refl _, h.others, h.identity, h.passed, h.complete, h.reported,
      h.remaining⟩
  · exact h

theorem Syncing.loaded {start : SyncRuntime} {reports : List SyncChunkProgress}
    (hready : start.Ready source phase) (h : Syncing config source phase start s reports) :
    loadedProgress config phase s = (s.progress phase).getD (initialProgress config) := by
  rw [loadedProgress, storedProgress_eq]
  intro hphase
  rw [← hready.rows, completeRowsProgress, completeRowsProgress, h.others _ (Ne.symm hphase)]

/-- A chunk keeps the identity of its progress. -/
theorem ChunkStep.identity {progress next : SyncChunkProgress} {t : SyncRows}
    {keys : PrimaryKey → Prop} (hstep : ChunkStep config source phase progress t next keys) :
    validateProgressIdentity config next = validateProgressIdentity config progress := by
  cases hstep <;> rfl

/-- A call that left no record. -/
theorem Syncing.interrupted {start : SyncRuntime} {reports : List SyncChunkProgress}
    (h : Syncing config source phase start s reports)
    (hcall : s.Interrupted world source phase s') :
    Syncing config source phase start s' reports where
  committed := h.committed.trans hcall.committed
  working := hcall.working
  others := by
    rw [hcall.progress]
    exact h.others
  identity := by
    rw [hcall.progress]
    exact h.identity
  passed := by
    rw [hcall.progress]
    exact fun progress hp key hk => (h.passed progress hp key hk).pulls hcall.committed
  complete := by
    rw [hcall.progress]
    exact fun progress hp hc key => (h.complete progress hp hc key).pulls hcall.committed
  reported := by
    rw [hcall.progress]
    exact h.reported
  remaining := by
    rw [hcall.progress]
    exact (Nat.add_le_add_left (hcall.committed.remainingRows_le _) _).trans h.remaining

/-- A call that recorded a chunk. -/
theorem Syncing.stepped {start : SyncRuntime} {reports : List SyncChunkProgress}
    {next : SyncChunkProgress} (hready : start.Ready source phase)
    (h : Syncing config source phase start s reports)
    (hcall : s.Stepped world config source phase next s') :
    Syncing config source phase start s' (reports ++ [next]) := by
  obtain ⟨hincomplete, ⟨keys, hstep, hpulls⟩, hcommitted, hprogress, -⟩ := hcall
  rw [h.loaded hready] at hincomplete hstep
  have hnext : s'.progress phase = some next := by rw [hprogress, Function.update_self]
  have hpassed : ∀ key, Passed ((s.progress phase).getD (initialProgress config)).lastPrimaryKey key →
      Settled config.table phase source s.working key := by
    intro key hkey
    cases hp : s.progress phase with
    | none =>
      rw [hp] at hkey
      refine absurd hkey (not_passed.mpr fun c hc => ?_)
      cases hc
    | some progress =>
      rw [hp] at hkey
      exact (h.passed progress hp key hkey).pulls h.working
  obtain ⟨hsettled, hend, hremaining⟩ := hstep.advance hpulls hpassed
  have hdrifts : Drifts source s.committed s'.committed := by
    rw [hcommitted]
    exact h.working.trans (Drifts.of_pulls hpulls)
  have hcursor : ((s.progress phase).getD (initialProgress config)).lastPrimaryKey =
      (s.progress phase).bind SyncChunkProgress.lastPrimaryKey := by
    cases s.progress phase <;> rfl
  refine ⟨h.committed.trans hdrifts, ?_, ?_, ?_, ?_, ?_, ?_, ?_⟩
  · rw [hcommitted]
    exact Drifts.refl _
  · intro other hother
    rw [hprogress, Function.update_of_ne hother, h.others other hother]
  · intro progress hp
    rw [hnext] at hp
    cases hp
    rw [hstep.identity]
    cases hp : s.progress phase with
    | none => simp [validateProgressIdentity, initialProgress]
    | some progress => exact h.identity progress hp
  · intro progress hp
    rw [hnext] at hp
    cases hp
    rw [hcommitted]
    exact hsettled
  · intro progress hp
    rw [hnext] at hp
    cases hp
    rw [hcommitted]
    exact hend
  · intro report hreport hcomplete
    rcases List.mem_append.mp hreport with hreport | hreport
    · obtain ⟨progress, hp, hc⟩ := h.reported report hreport hcomplete
      rw [Option.mem_def] at hp
      rw [hp, Option.getD_some, hc] at hincomplete
      cases hincomplete
    · cases List.mem_singleton.mp hreport
      exact ⟨next, hnext, hcomplete⟩
  · have hle := h.remaining
    have hdrift := h.working.remainingRows_le
      ((s.progress phase).bind SyncChunkProgress.lastPrimaryKey)
    rw [hcursor] at hremaining
    rw [hnext, Option.bind_some, hcommitted, List.filter_append, List.length_append]
    have hcount : (List.filter (fun report => !report.complete) [next]).length =
        if next.complete then 0 else 1 := by
      cases hc : next.complete <;> simp [hc]
    rw [hcount]
    omega

/-- A recorded chunk that was not reported. -/
theorem Syncing.forget {start : SyncRuntime} {reports : List SyncChunkProgress}
    {next : SyncChunkProgress} (h : Syncing config source phase start s (reports ++ [next])) :
    Syncing config source phase start s reports := by
  refine ⟨h.committed, h.working, h.others, h.identity, h.passed, h.complete, ?_, ?_⟩
  · exact fun report hreport => h.reported report (List.mem_append_left _ hreport)
  · have hle := h.remaining
    rw [List.filter_append, List.length_append] at hle
    omega

/-- A call that only found the table done. -/
theorem Syncing.idle {start : SyncRuntime} {reports : List SyncChunkProgress}
    {report : SyncChunkProgress} (hready : start.Ready source phase)
    (h : Syncing config source phase start s reports)
    (hreport : report = loadedProgress config phase s) (hcomplete : report.complete = true)
    (hidle : s.Idle s') : Syncing config source phase start s' (reports ++ [report]) := by
  have hsame : Syncing config source phase start s' reports := by
    rw [hidle]
    exact ⟨h.committed, h.working, h.others, h.identity, h.passed, h.complete, h.reported,
      h.remaining⟩
  have hstored : s.progress phase = some report := by
    rw [h.loaded hready] at hreport
    cases hp : s.progress phase with
    | none =>
      rw [hp] at hreport
      rw [hreport] at hcomplete
      cases hcomplete
    | some progress =>
      rw [hp, Option.getD_some] at hreport
      rw [hreport]
  refine ⟨hsame.committed, hsame.working, hsame.others, hsame.identity, hsame.passed,
    hsame.complete, ?_, ?_⟩
  · intro other hother hc
    rcases List.mem_append.mp hother with hother | hother
    · exact hsame.reported other hother hc
    · refine ⟨report, ?_, hcomplete⟩
      rw [hidle]
      exact hstored
  · rw [List.filter_append, List.length_append]
    have hcount : (List.filter (fun report => !report.complete) [report]).length = 0 := by
      simp [hcomplete]
    rw [hcount]
    exact hsame.remaining

/-- The progress that a call loads is of the run and the table. -/
theorem Syncing.identity_loaded {start : SyncRuntime} {reports : List SyncChunkProgress}
    (hready : start.Ready source phase) (h : Syncing config source phase start s reports) :
    validateProgressIdentity config (loadedProgress config phase s) = .ok () := by
  rw [h.loaded hready]
  cases hp : s.progress phase with
  | none => simp [validateProgressIdentity, initialProgress]
  | some progress => exact h.identity progress hp

/-- What holds between the calls holds after every call. -/
theorem SyncHistory.syncing {start : SyncRuntime} {reports : List SyncChunkProgress}
    (hsize : 0 < config.chunkSize) (hready : start.Ready source phase)
    (h : SyncHistory config source phase start s reports) :
    Syncing config source phase start s reports := by
  induction h with
  | start => exact Syncing.start hready
  | stopped attempt stop before call ih =>
    have hentered := ih.enter attempt
    unfold SyncAttempt.call at call
    obtain ⟨-, -, hinterrupted | ⟨next, hstepped⟩⟩ := Prog.wp_error
      (wp_syncNextChunkWithPhase hsize (hentered.identity_loaded hready) hentered.working) call
    · exact hentered.interrupted hinterrupted
    · exact (hentered.stepped hready hstepped).forget
  | reported attempt report before call ih =>
    have hentered := ih.enter attempt
    unfold SyncAttempt.call at call
    rcases Prog.wp_value
      (wp_syncNextChunkWithPhase hsize (hentered.identity_loaded hready) hentered.working) call with ⟨hreport, hcomplete, hidle⟩ | hstepped
    · exact hentered.idle hready hreport hcomplete hidle
    · exact hentered.stepped hready hstepped

/-! ## Calls that are not disturbed -/

/-- Call until the table is reported complete. -/
def runTablePhase (world : SyncWorld) (config : SyncChunkConfig) (source : SyncRows)
    (phase : SyncMutationPhase) : Nat → Sync SyncChunkProgress
  | 0 => Prog.fail .diverged
  | fuel + 1 => do
    let report ← syncNextChunkWithPhase world config source phase
    if report.complete then pure report else runTablePhase world config source phase fuel

/-- The calls of an undisturbed world report until they report the end. -/
theorem Syncing.runTablePhase {start : SyncRuntime} (hsize : 0 < config.chunkSize)
    (hready : start.Ready source phase) (hquiet : world.Quiet) (fuel : Nat)
    {reports : List SyncChunkProgress} {s : SyncRuntime}
    (h : Syncing config source phase start s reports)
    (hfuel : remainingRows source start.committed none <
      fuel + (reports.filter fun report => !report.complete).length) :
    Prog.wp (runTablePhase world config source phase fuel)
      (fun report s' => report.complete = true ∧
        ∃ reports', Syncing config source phase start s' (reports' ++ [report]))
      (fun _ _ => False) s := by
  induction fuel generalizing reports s with
  | zero =>
    have hle := h.remaining
    omega
  | succ fuel ih =>
    rw [BinlogCdc.runTablePhase, Prog.wp_bind]
    refine Prog.wp_mono
      (wp_syncNextChunkWithPhase hsize (h.identity_loaded hready) h.working) ?_ ?_
    · intro report s' hreport
      have hsyncing : Syncing config source phase start s' (reports ++ [report]) := by
        rcases hreport with ⟨hreport, hcomplete, hidle⟩ | hstepped
        · exact h.idle hready hreport hcomplete hidle
        · exact h.stepped hready hstepped
      by_cases hcomplete : report.complete = true
      · rw [if_pos hcomplete]
        exact ⟨hcomplete, reports, hsyncing⟩
      · rw [if_neg hcomplete]
        refine ih hsyncing ?_
        have hcount : (List.filter (fun report => !report.complete) [report]).length = 1 := by
          simp [hcomplete]
        rw [List.filter_append, List.length_append, hcount]
        omega
    · rintro stop s' ⟨-, hdisturbed, -⟩
      exact hdisturbed hquiet

/-! ## Convergence -/

/-- Moves towards the source keep the rows of a table. -/
theorem Drifts.holds {table : SyncTable} {t t' : SyncRows} (h : Drifts source t t')
    (hsource : ∀ row ∈ source.rows, table.Holds row) (ht : ∀ row ∈ t.rows, table.Holds row) :
    ∀ row ∈ t'.rows, table.Holds row := by
  intro row hrow
  have hfind := KeyedTable.find_key hrow
  rcases (h row.primaryKey).2 with he | ⟨-, he⟩
  · exact ht row (KeyedTable.mem_of_find (he.symm.trans hfind))
  · exact hsource row (KeyedTable.mem_of_find (he.symm.trans hfind))

/-- At a key where no phase has anything to do the rows are the same. -/
theorem Settled.find_eq {table : SyncTable} {t : SyncRows} {key : PrimaryKey}
    (h : Settled table .all source t key) (hsource : ∀ row ∈ source.rows, table.Holds row)
    (ht : ∀ row ∈ t.rows, table.Holds row) : t.find key = source.find key := by
  unfold Settled at h
  cases hs : source.find key with
  | none =>
    cases hfind : t.find key with
    | none => rfl
    | some x =>
      rw [hs, hfind] at h
      cases h
  | some row =>
    cases hfind : t.find key with
    | none =>
      rw [hs, hfind] at h
      cases h
    | some x =>
      rw [hs, hfind] at h
      have hkey := (KeyedTable.key_of_find hs).trans (KeyedTable.key_of_find hfind).symm
      rw [(hsource row (KeyedTable.mem_of_find hs)).eq_of_not_diverge
        (ht x (KeyedTable.mem_of_find hfind)) hkey h]

theorem SyncRuntime.initial_ready (target : SyncRows) (phase : SyncMutationPhase) :
    (SyncRuntime.initial target).Ready source phase := ⟨Drifts.refl _, rfl, rfl⟩

end Histories

/-! ## A small table -/

section Small

/-- Keys in the order of their texts. -/
local instance textOrder : LinearOrder PrimaryKey :=
  LinearOrder.lift' PrimaryKey.values PrimaryKey.values_injective

/-- A table with a key and a name, synced row by row. -/
def itemsConfig : SyncChunkConfig where
  runId := "run"
  targetDatabase := "shop"
  table := ⟨"items", ["id"], ["id", "name"], [], by decide⟩
  chunkSize := 1

/-- An item. -/
def itemRow (id name : String) : DatabaseRow :=
  ⟨⟨[id]⟩, [("id", some id), ("name", some name)]⟩

theorem itemRow_holds (id name : String) : itemsConfig.table.Holds (itemRow id name) where
  columns := rfl
  key := by
    intro column hcolumn
    cases List.mem_singleton.mp hcolumn
    rfl

/-- The items of the source. -/
def sourceItems : SyncRows := ⟨[itemRow "1" "a", itemRow "2" "b"], by decide⟩

/-- The items of the target: one diverges, one is missing, one is extra. -/
def targetItems : SyncRows := ⟨[itemRow "1" "x", itemRow "3" "c"], by decide⟩

theorem sourceItems_hold : ∀ row ∈ sourceItems.rows, itemsConfig.table.Holds row := by
  intro row hrow
  rcases List.mem_cons.mp hrow with rfl | hrow
  · exact itemRow_holds _ _
  · cases List.mem_singleton.mp hrow
    exact itemRow_holds _ _

theorem targetItems_hold : ∀ row ∈ targetItems.rows, itemsConfig.table.Holds row := by
  intro row hrow
  rcases List.mem_cons.mp hrow with rfl | hrow
  · exact itemRow_holds _ _
  · cases List.mem_singleton.mp hrow
    exact itemRow_holds _ _

/-- A world without secondary unique indexes in which nothing fails. -/
def quietSyncWorld : SyncWorld where
  outcome := fun _ => .done
  statement := fun _ => .executed
  uniqueIndexes :=
    { indexes := []
      resolveSyncUniqueIndex := fun _ => .error "no unique index"
      resolved := fun _ _ h => by cases h
      sameIdentity := fun _ _ _ => false }

/-- A world in which the progress of the first chunk cannot be saved. -/
def lostSaveWorld : SyncWorld :=
  { quietSyncWorld with outcome := fun tick => if tick = 8 then .refused "gone away" else .done }

/-- A lost save, then the four chunks of the small table. -/
def itemAttempts : List SyncAttempt :=
  ⟨lostSaveWorld, false⟩ :: List.replicate 4 ⟨quietSyncWorld, true⟩

end Small

end BinlogCdc
