import BinlogCdc.Sync.Convergence

/-!
# What a phase changes and counts

A table without secondary unique indexes is changed by a phase only where the phase has
something to do, with statements of its own kind. As long as every call reports, the
counts of a phase and the rows that its cursor has not passed add up to the rows that it
found when it began.
-/

namespace BinlogCdc

section Counts

variable [LinearOrder PrimaryKey] {config : SyncChunkConfig} {source : SyncRows}
  {phase : SyncMutationPhase} {s s' start : SyncRuntime} {world : SyncWorld}

/-! ## Windows of rows -/

/-- The rows after a cursor are those up to a key after the cursor and those after the key. -/
theorem select_length_split (rows : SyncRows) {after : Option PrimaryKey} {endAt : PrimaryKey}
    (hend : KeyedTable.InWindow after none endAt) (p : DatabaseRow → Bool) :
    ((rows.select after none).filter p).length =
      ((rows.select after (some endAt)).filter p).length +
        ((rows.select (some endAt) none).filter p).length := by
  simp only [KeyedTable.select, List.filter_filter]
  generalize rows.rows = l
  induction l with
  | nil => rfl
  | cons row l ih =>
    have hsplit : KeyedTable.InWindow after none row.primaryKey ↔
        KeyedTable.InWindow after (some endAt) row.primaryKey ∨
          KeyedTable.InWindow (some endAt) none row.primaryKey := by
      constructor
      · intro h
        rcases le_or_gt row.primaryKey endAt with hle | hlt
        · exact Or.inl ⟨h.1, fun e he => by cases he; exact hle⟩
        · exact Or.inr ⟨fun c hc => by cases hc; exact hlt, h.2⟩
      · rintro (h | h)
        · exact ⟨h.1, fun e he => by cases he⟩
        · exact ⟨fun c hc => (hend.1 c hc).trans (h.1 _ rfl), h.2⟩
    have hdisjoint : KeyedTable.InWindow after (some endAt) row.primaryKey →
        ¬ KeyedTable.InWindow (some endAt) none row.primaryKey :=
      fun h h' => (h'.1 _ rfl).not_ge (h.2 _ rfl)
    by_cases hfirst : KeyedTable.InWindow after (some endAt) row.primaryKey
    · have hall := hsplit.mpr (Or.inl hfirst)
      cases hp : p row <;> simp [hall, hfirst, hdisjoint hfirst, hp, ih]
      omega
    · by_cases hsecond : KeyedTable.InWindow (some endAt) none row.primaryKey
      · have hall := hsplit.mpr (Or.inr hsecond)
        cases hp : p row <;> simp [hall, hfirst, hsecond, hp, ih]
        omega
      · have hnone : ¬ KeyedTable.InWindow after none row.primaryKey := by
          rw [hsplit]
          exact fun h => h.elim hfirst hsecond
        simp [hnone, hfirst, hsecond, ih]

variable {t t' : SyncRows} {after upto : Option PrimaryKey}

theorem missingRows_congr
    (h : ∀ row ∈ source.rows, KeyedTable.InWindow after upto row.primaryKey →
      (t'.find row.primaryKey).isNone = (t.find row.primaryKey).isNone) :
    missingRows source t' after upto = missingRows source t after upto := by
  refine List.filter_congr fun row hrow => ?_
  obtain ⟨hmem, hwindow⟩ := KeyedTable.mem_select.mp hrow
  exact h row hmem hwindow

theorem divergentRows_congr {table : SyncTable}
    (h : ∀ row ∈ source.rows, KeyedTable.InWindow after upto row.primaryKey →
      (t'.find row.primaryKey).any (rowsDiverge table row) =
        (t.find row.primaryKey).any (rowsDiverge table row)) :
    divergentRows table source t' after upto = divergentRows table source t after upto := by
  refine List.filter_congr fun row hrow => ?_
  obtain ⟨hmem, hwindow⟩ := KeyedTable.mem_select.mp hrow
  exact h row hmem hwindow

/-- The extra rows of a window are those of another table whose rows differ only at keys of the
source. -/
theorem extraRows_congr
    (h : ∀ key, KeyedTable.InWindow after upto key → source.find key = none →
      t'.find key = t.find key) :
    (extraRows source t' after upto).length = (extraRows source t after upto).length := by
  refine ((List.perm_ext_iff_of_nodup (extraRows_nodup _ _) (extraRows_nodup _ _)).mpr ?_).length_eq
  intro row
  rw [mem_extraRows, mem_extraRows]
  constructor
  · rintro ⟨hmem, hwindow, hnone⟩
    refine ⟨KeyedTable.mem_of_find ((h _ hwindow hnone).symm.trans (KeyedTable.find_key hmem)), ?_⟩
    exact ⟨hwindow, hnone⟩
  · rintro ⟨hmem, hwindow, hnone⟩
    refine ⟨KeyedTable.mem_of_find ((h _ hwindow hnone).trans (KeyedTable.find_key hmem)), ?_⟩
    exact ⟨hwindow, hnone⟩

/-! ## The counts of a chunk -/

/-- The rows that a phase has to insert, update and delete after a cursor. -/
structure PhaseWork where
  /-- Rows to insert. -/
  inserts : Nat
  /-- Rows to update. -/
  updates : Nat
  /-- Rows to delete. -/
  deletes : Nat
deriving DecidableEq

/-- The work of a phase on a table, after a cursor. -/
def phaseWork (config : SyncChunkConfig) (phase : SyncMutationPhase) (source target : SyncRows)
    (cursor : Option PrimaryKey) : PhaseWork where
  inserts := countIf phase .insertMissing (missingRows source target cursor none)
  updates := countIf phase .updateDivergent (divergentRows config.table source target cursor none)
  deletes := countIf phase .deleteExtras (extraRows source target cursor none)

/-- What a progress has counted and what is still to do. -/
def SyncChunkProgress.countedWith (progress : SyncChunkProgress) (work : PhaseWork) : PhaseWork where
  inserts := progress.inserts + work.inserts
  updates := progress.updates + work.updates
  deletes := progress.deletes + work.deletes

/-- A window counts what it does. -/
theorem ChunkStep.counts_window {progress : SyncChunkProgress} {last : DatabaseRow}
    (hlast : last ∈ source.select progress.lastPrimaryKey none)
    (hpulls : KeyedTable.Pulls source (windowKeys config.table phase source t
        progress.lastPrimaryKey (some last.primaryKey))
      (windowKeys config.table phase source t progress.lastPrimaryKey (some last.primaryKey)) t t') :
    (windowProgress config phase source t progress last.primaryKey).countedWith
        (phaseWork config phase source t' (some last.primaryKey)) =
      progress.countedWith (phaseWork config phase source t progress.lastPrimaryKey) := by
  have hend := (KeyedTable.mem_select.mp hlast).2
  -- After the window the target is the same.
  have hsame : ∀ key, KeyedTable.InWindow (some last.primaryKey) none key →
      t'.find key = t.find key := by
    intro key hkey
    rcases (hpulls key).2 with he | ⟨⟨hwindow, -⟩, -⟩
    · exact he
    · exact absurd (hkey.1 _ rfl) (hwindow.2 _ rfl).not_gt
  have hmissing := select_length_split source hend fun row => (t.find row.primaryKey).isNone
  have hdivergent := select_length_split source hend fun row =>
    (t.find row.primaryKey).any (rowsDiverge config.table row)
  have hextra := select_length_split t hend fun row => (source.find row.primaryKey).isNone
  have hmissing' : missingRows source t' (some last.primaryKey) none =
      missingRows source t (some last.primaryKey) none :=
    missingRows_congr fun row _ hrow => by rw [hsame _ hrow]
  have hdivergent' : divergentRows config.table source t' (some last.primaryKey) none =
      divergentRows config.table source t (some last.primaryKey) none :=
    divergentRows_congr fun row _ hrow => by rw [hsame _ hrow]
  have hextra' : (extraRows source t' (some last.primaryKey) none).length =
      (extraRows source t (some last.primaryKey) none).length :=
    extraRows_congr fun key hkey _ => hsame key hkey
  simp only [SyncChunkProgress.countedWith, phaseWork, windowProgress, countIf, hmissing',
    hdivergent', hextra', PhaseWork.mk.injEq]
  unfold missingRows divergentRows extraRows
  rw [hmissing, hdivergent, hextra]
  refine ⟨?_, ?_, ?_⟩ <;> split <;> omega

/-- A page of the tail counts what it does. -/
theorem ChunkStep.counts_tail {progress : SyncChunkProgress} {page : SyncChunkPage}
    (hsource : source.select progress.lastPrimaryKey none = [])
    (hpage : page.PageOf (t.select progress.lastPrimaryKey none))
    (hpulls : KeyedTable.Pulls source (tailKeys phase page) (tailKeys phase page) t t') :
    (tailProgress phase progress page).countedWith
        (phaseWork config phase source t' (tailProgress phase progress page).lastPrimaryKey) =
      progress.countedWith (phaseWork config phase source t progress.lastPrimaryKey) := by
  obtain ⟨⟨rest, hrest⟩, -, -⟩ := hpage
  have hrow : ∀ r ∈ page.rows, r ∈ t.rows ∧
      KeyedTable.InWindow progress.lastPrimaryKey none r.primaryKey := fun r hr =>
    KeyedTable.mem_select.mp (hrest ▸ List.mem_append_left _ hr)
  have hnone : ∀ key, KeyedTable.InWindow progress.lastPrimaryKey none key →
      source.find key = none := by
    intro key hkey
    refine KeyedTable.find_eq_none.mpr fun r hr he => ?_
    have hmem : r ∈ source.select progress.lastPrimaryKey none :=
      KeyedTable.mem_select.mpr ⟨hr, he ▸ hkey⟩
    rw [hsource] at hmem
    cases hmem
  have hnil : source.select (tailProgress phase progress page).lastPrimaryKey none = [] := by
    refine List.eq_nil_iff_forall_not_mem.mpr fun r hr => ?_
    obtain ⟨hr, hwindow⟩ := KeyedTable.mem_select.mp hr
    have hfind := KeyedTable.find_key hr
    rw [hnone] at hfind
    · cases hfind
    · refine ⟨fun c hc => ?_, fun e he => by cases he⟩
      cases hphase : phase.includes .deleteExtras with
      | true =>
        simp only [tailProgress, hphase, if_true] at hwindow
        exact hwindow.1 c hc
      | false =>
        cases hlast : page.rows.getLast? with
        | none =>
          simp only [tailProgress, hphase, Bool.false_eq_true, if_false, hlast] at hwindow
          exact hwindow.1 c hc
        | some last =>
          simp only [tailProgress, hphase, Bool.false_eq_true, if_false, hlast] at hwindow
          exact ((hrow last (List.mem_of_getLast? hlast)).2.1 c hc).trans (hwindow.1 _ rfl)
  have hdeletes : countIf phase .deleteExtras page.rows + countIf phase .deleteExtras
        (extraRows source t' (tailProgress phase progress page).lastPrimaryKey none) =
      countIf phase .deleteExtras (extraRows source t progress.lastPrimaryKey none) := by
    cases hphase : phase.includes .deleteExtras with
    | false => simp [countIf, hphase]
    | true =>
      have hcursor : (tailProgress phase progress page).lastPrimaryKey = progress.lastPrimaryKey := by
        simp only [tailProgress, hphase, if_true]
      simp only [countIf, hphase, if_true, hcursor]
      rw [← List.length_append]
      -- The page and what is left of the extra rows are the extra rows before.
      have hgone : ∀ r ∈ page.rows, t'.find r.primaryKey = none := by
        intro r hr
        rw [(hpulls _).1 ⟨hphase, List.mem_map_of_mem hr⟩, hnone _ (hrow r hr).2]
      refine ((List.perm_ext_iff_of_nodup ?_ (extraRows_nodup _ _)).mpr ?_).length_eq
      · refine List.Nodup.append ?_ (extraRows_nodup _ _) ?_
        · exact (hrest ▸ t.rows_nodup.filter _ : (page.rows ++ rest).Nodup).of_append_left
        · intro r hr hr'
          have hfind := KeyedTable.find_key (mem_extraRows.mp hr').1
          rw [hgone r hr] at hfind
          cases hfind
      · intro r
        rw [List.mem_append, mem_extraRows, mem_extraRows]
        constructor
        · rintro (hr | ⟨hmem, hwindow, hr⟩)
          · exact ⟨(hrow r hr).1, (hrow r hr).2, hnone _ (hrow r hr).2⟩
          · refine ⟨?_, hwindow, hr⟩
            have hfind := KeyedTable.find_key hmem
            rcases (hpulls r.primaryKey).2 with he | ⟨-, he⟩
            · exact KeyedTable.mem_of_find (he.symm.trans hfind)
            · rw [he, hr] at hfind
              cases hfind
        · rintro ⟨hmem, hwindow, hr⟩
          rcases (hpulls r.primaryKey).2 with he | ⟨⟨-, hkey⟩, -⟩
          · exact Or.inr ⟨KeyedTable.mem_of_find (he.trans (KeyedTable.find_key hmem)), hwindow, hr⟩
          · obtain ⟨x, hx, hxkey⟩ := List.mem_map.mp hkey
            rw [← t.eq_of_key_eq (hrow x hx).1 hmem hxkey]
            exact Or.inl hx
  have hmissing : ∀ u cursor, source.select cursor none = [] →
      missingRows source u cursor none = [] := fun u cursor h => by rw [missingRows, h]; rfl
  have hdivergent : ∀ u cursor, source.select cursor none = [] →
      divergentRows config.table source u cursor none = [] := fun u cursor h => by
    rw [divergentRows, h]
    rfl
  simp only [SyncChunkProgress.countedWith, phaseWork, hmissing _ _ hsource, hmissing _ _ hnil,
    hdivergent _ _ hsource, hdivergent _ _ hnil, PhaseWork.mk.injEq]
  refine ⟨rfl, rfl, ?_⟩
  rw [← hdeletes, ← Nat.add_assoc]
  rfl

/-- A chunk counts what it does. -/
theorem ChunkStep.counts {progress next : SyncChunkProgress} {keys : PrimaryKey → Prop}
    (hstep : ChunkStep config source phase progress t next keys)
    (hpulls : KeyedTable.Pulls source keys keys t t') :
    next.countedWith (phaseWork config phase source t' next.lastPrimaryKey) =
      progress.countedWith (phaseWork config phase source t progress.lastPrimaryKey) := by
  cases hstep with
  | window last hlast => exact ChunkStep.counts_window hlast hpulls
  | tail page hsource hpage => exact ChunkStep.counts_tail hsource hpage hpulls

/-- A chunk changes a key only where its phase has something to do. -/
theorem ChunkStep.selects {progress next : SyncChunkProgress} {keys : PrimaryKey → Prop}
    (hstep : ChunkStep config source phase progress t next keys) {key : PrimaryKey}
    (hkey : keys key) :
    BinlogCdc.selects config.table phase (source.find key) (t.find key) = true := by
  cases hstep with
  | window last hlast => exact hkey.2
  | tail page hsource hpage =>
    obtain ⟨hphase, hmem⟩ := hkey
    obtain ⟨r, hr, rfl⟩ := List.mem_map.mp hmem
    obtain ⟨rest, hrest⟩ := hpage.rest
    obtain ⟨hrow, hwindow⟩ := KeyedTable.mem_select.mp
      (hrest ▸ List.mem_append_left _ hr : r ∈ t.select progress.lastPrimaryKey none)
    have hnone : source.find r.primaryKey = none := by
      refine KeyedTable.find_eq_none.mpr fun x hx he => ?_
      have hx' : x ∈ source.select progress.lastPrimaryKey none :=
        KeyedTable.mem_select.mpr ⟨hx, he ▸ hwindow⟩
      rw [hsource] at hx'
      cases hx'
    rw [hnone, KeyedTable.find_key hrow]
    exact hphase

/-! ## The calls of a phase -/

/-- What a call that returned has done. -/
theorem SyncHistory.called {reports : List SyncChunkProgress} {attempt : SyncAttempt}
    {report : SyncChunkProgress} (hsize : 0 < config.chunkSize) (hready : start.Ready source phase)
    (h : SyncHistory config source phase start s reports)
    (hcall : attempt.call config source phase s = (.ok report, s')) :
    (report = loadedProgress config phase (attempt.enter s) ∧ report.complete = true ∧
        (attempt.enter s).Idle s') ∨
      (attempt.enter s).Stepped attempt.world config source phase report s' := by
  have hentered := (h.syncing hsize hready).enter attempt
  unfold SyncAttempt.call at hcall
  rcases Prog.wp_value (wp_syncNextChunkWithPhase hsize (hentered.identity_loaded hready)
    hentered.working) hcall with hidle | hstepped
  · exact Or.inl hidle
  · exact Or.inr hstepped

/-- What a call that stopped has done. -/
theorem SyncHistory.interrupted {reports : List SyncChunkProgress} {attempt : SyncAttempt}
    {stop : SyncStop} (hsize : 0 < config.chunkSize) (hready : start.Ready source phase)
    (h : SyncHistory config source phase start s reports)
    (hcall : attempt.call config source phase s = (.error stop, s')) :
    (attempt.enter s).Ended attempt.world config source phase s' := by
  have hentered := (h.syncing hsize hready).enter attempt
  unfold SyncAttempt.call at hcall
  exact (Prog.wp_error (wp_syncNextChunkWithPhase hsize (hentered.identity_loaded hready)
    hentered.working) hcall).2.2

/-- What every call keeps is kept by all calls. -/
theorem runAttempts_rule {I : SyncRuntime → List SyncChunkProgress → Prop}
    (attempts : List SyncAttempt) {reports : List SyncChunkProgress}
    (hstopped : ∀ attempt ∈ attempts, ∀ s reports stop s', I s reports →
      attempt.call config source phase s = (.error stop, s') → I s' reports)
    (hreported : ∀ attempt ∈ attempts, ∀ s reports report s', I s reports →
      attempt.call config source phase s = (.ok report, s') → I s' (reports ++ [report]))
    (h : I s reports) :
    I (runAttempts config source phase attempts s reports).1
      (runAttempts config source phase attempts s reports).2 := by
  induction attempts generalizing s reports with
  | nil => exact h
  | cons attempt rest ih =>
    have hrest := fun a (ha : a ∈ rest) => hstopped a (List.mem_cons_of_mem _ ha)
    have hrest' := fun a (ha : a ∈ rest) => hreported a (List.mem_cons_of_mem _ ha)
    rw [runAttempts]
    cases hcall : attempt.call config source phase s with
    | mk result s' =>
      cases result with
      | error stop =>
        exact ih hrest hrest' (hstopped attempt List.mem_cons_self s reports stop s' h hcall)
      | ok report =>
        exact ih hrest hrest' (hreported attempt List.mem_cons_self s reports report s' h hcall)

/-- There are at most as many reports as calls. -/
theorem runAttempts_length_le (attempts : List SyncAttempt) (s : SyncRuntime)
    (reports : List SyncChunkProgress) :
    (runAttempts config source phase attempts s reports).2.length ≤
      reports.length + attempts.length := by
  induction attempts generalizing s reports with
  | nil => exact le_rfl
  | cons attempt rest ih =>
    rw [runAttempts]
    cases hcall : attempt.call config source phase s with
    | mk result s' =>
      cases result with
      | error stop =>
        refine (ih s' reports).trans ?_
        rw [List.length_cons]
        omega
      | ok report =>
        refine (ih s' (reports ++ [report])).trans ?_
        rw [List.length_append, List.length_singleton, List.length_cons]
        omega

/-- What every call that reports keeps is kept by calls that all report. -/
theorem runAttempts_reported_rule {I : SyncRuntime → List SyncChunkProgress → Prop}
    (attempts : List SyncAttempt) {reports : List SyncChunkProgress}
    (hall : (runAttempts config source phase attempts s reports).2.length =
      reports.length + attempts.length)
    (hreported : ∀ attempt ∈ attempts, ∀ s reports report s', I s reports →
      attempt.call config source phase s = (.ok report, s') → I s' (reports ++ [report]))
    (h : I s reports) :
    I (runAttempts config source phase attempts s reports).1
      (runAttempts config source phase attempts s reports).2 := by
  induction attempts generalizing s reports with
  | nil => exact h
  | cons attempt rest ih =>
    rw [runAttempts] at hall ⊢
    cases hcall : attempt.call config source phase s with
    | mk result s' =>
      rw [hcall] at hall
      cases result with
      | error stop =>
        -- A call without a report leaves fewer reports than calls.
        have hle : (runAttempts config source phase rest s' reports).2.length ≤
            reports.length + rest.length := runAttempts_length_le rest s' reports
        rw [List.length_cons] at hall
        dsimp only at hall
        omega
      | ok report =>
        refine ih ?_ (fun a ha => hreported a (List.mem_cons_of_mem _ ha))
          (hreported attempt List.mem_cons_self s reports report s' h hcall)
        dsimp only at hall
        rw [hall, List.length_append, List.length_singleton, List.length_cons]
        omega

end Counts

end BinlogCdc
