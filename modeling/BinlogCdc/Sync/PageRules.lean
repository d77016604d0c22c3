import BinlogCdc.Sync.RepairRules

/-!
# The pages of a window

The target rows of a window are compared with the source rows page by page, and the rows
that only the target has are deleted between the pages. Since the cursor is a key, the
pages together see the rows the window had at its start, each of them once: the paged
comparison is the comparison of the whole window.
-/

namespace BinlogCdc

/-! ## Comparison of a whole window -/

section Comparison

variable {table : SyncTable}

/-- The rows have the key. -/
def hasKey (rows : List DatabaseRow) (key : PrimaryKey) : Bool :=
  decide (key ∈ rows.map DatabaseRow.primaryKey)

/-- Two pages one after the other are compared like one page. -/
theorem reconcileTargetPage_append (table : SyncTable) (sourceByKey page page' : List DatabaseRow) :
    reconcileTargetPage table sourceByKey (page ++ page') =
      (⟨(reconcileTargetPage table sourceByKey page).1.deletes ++
          (reconcileTargetPage table (reconcileTargetPage table sourceByKey page).2 page').1.deletes,
        (reconcileTargetPage table sourceByKey page).1.updates ++
          (reconcileTargetPage table (reconcileTargetPage table sourceByKey page).2 page').1.updates⟩,
        (reconcileTargetPage table (reconcileTargetPage table sourceByKey page).2 page').2) := by
  induction page generalizing sourceByKey with
  | nil => rfl
  | cons row page ih =>
    rw [List.cons_append, reconcileTargetPage, reconcileTargetPage]
    cases sourceByKey.find? fun r => decide (r.primaryKey = row.primaryKey) with
    | none =>
      simp only [ih]
      rfl
    | some sourceRow =>
      simp only [ih]
      split
      · rfl
      · rfl

theorem hasKey_eq_false {rows : List DatabaseRow} {key : PrimaryKey} :
    hasKey rows key = false ↔ ∀ r ∈ rows, r.primaryKey ≠ key := by
  simp [hasKey]

theorem hasKey_eq_true {rows : List DatabaseRow} {key : PrimaryKey} :
    hasKey rows key = true ↔ ∃ r ∈ rows, r.primaryKey = key := by
  simp [hasKey]

/-- The cases of the comparison of one target row. -/
theorem reconcileTargetPage_cons (sourceByKey page : List DatabaseRow) (targetRow : DatabaseRow) :
    (hasKey sourceByKey targetRow.primaryKey = false ∧
      (reconcileTargetPage table sourceByKey (targetRow :: page)).1 =
        ⟨targetRow.primaryKey :: (reconcileTargetPage table sourceByKey page).1.deletes,
          (reconcileTargetPage table sourceByKey page).1.updates⟩ ∧
      (reconcileTargetPage table sourceByKey (targetRow :: page)).2 =
        (reconcileTargetPage table sourceByKey page).2) ∨
    ∃ sourceRow ∈ sourceByKey, ∃ left,
      sourceRow.primaryKey = targetRow.primaryKey ∧
      left = sourceByKey.filter (fun row => decide (row.primaryKey ≠ targetRow.primaryKey)) ∧
      (reconcileTargetPage table sourceByKey (targetRow :: page)).1 =
        ⟨(reconcileTargetPage table left page).1.deletes,
          if rowsDiverge table sourceRow targetRow then
            sourceRow :: (reconcileTargetPage table left page).1.updates
          else (reconcileTargetPage table left page).1.updates⟩ ∧
      (reconcileTargetPage table sourceByKey (targetRow :: page)).2 =
        (reconcileTargetPage table left page).2 := by
  cases hfind : sourceByKey.find? fun row => decide (row.primaryKey = targetRow.primaryKey) with
  | none =>
    refine Or.inl ⟨?_, ?_, ?_⟩
    · refine hasKey_eq_false.mpr fun r hr => ?_
      simpa using List.find?_eq_none.mp hfind r hr
    · simp only [reconcileTargetPage, hfind]
    · simp only [reconcileTargetPage, hfind]
  | some sourceRow =>
    refine Or.inr ⟨sourceRow, List.mem_of_find?_eq_some hfind, _, ?_, rfl, ?_, ?_⟩
    · simpa using List.find?_some hfind
    · simp only [reconcileTargetPage, hfind]
      split
      · rfl
      · rfl
    · simp only [reconcileTargetPage, hfind]
      split
      · rfl
      · rfl

/-- The source rows left are those without a target row. -/
theorem reconcileTargetPage_left (sourceByKey page : List DatabaseRow) :
    (reconcileTargetPage table sourceByKey page).2 =
      sourceByKey.filter fun row => !hasKey page row.primaryKey := by
  induction page generalizing sourceByKey with
  | nil => simp [reconcileTargetPage, hasKey]
  | cons targetRow page ih =>
    rcases reconcileTargetPage_cons sourceByKey page targetRow with
      ⟨habsent, -, hleft⟩ | ⟨sourceRow, -, left, -, rfl, -, hleft⟩
    · rw [hleft, ih]
      refine List.filter_congr fun r hr => ?_
      have hne := hasKey_eq_false.mp habsent r hr
      simp [hasKey, hne]
    · rw [hleft, ih, List.filter_filter]
      refine List.filter_congr fun r _ => ?_
      simp [hasKey, Bool.and_comm]

/-- The keys to delete are those of the target rows without a source row. -/
theorem reconcileTargetPage_deletes {sourceByKey page : List DatabaseRow}
    (hpage : (page.map DatabaseRow.primaryKey).Nodup) :
    (reconcileTargetPage table sourceByKey page).1.deletes =
      (page.map DatabaseRow.primaryKey).filter fun key => !hasKey sourceByKey key := by
  induction page generalizing sourceByKey with
  | nil => rfl
  | cons targetRow page ih =>
    rw [List.map_cons, List.nodup_cons] at hpage
    rcases reconcileTargetPage_cons sourceByKey page targetRow with
      ⟨habsent, hchanges, -⟩ | ⟨sourceRow, hsourceRow, left, hkey, rfl, hchanges, -⟩
    · rw [hchanges, List.map_cons, List.filter_cons, habsent, ih hpage.2]
      rfl
    · have hpresent : hasKey sourceByKey targetRow.primaryKey = true := by
        refine decide_eq_true ?_
        rw [← hkey]
        exact List.mem_map_of_mem hsourceRow
      rw [hchanges, List.map_cons, List.filter_cons, hpresent, ih hpage.2]
      refine List.filter_congr fun key hmem => ?_
      have hne : key ≠ targetRow.primaryKey := fun h => hpage.1 (h ▸ hmem)
      rw [Bool.not_inj_iff, Bool.eq_iff_iff, hasKey_eq_true, hasKey_eq_true]
      constructor
      · rintro ⟨r, hr, hkey⟩
        exact ⟨r, List.mem_of_mem_filter hr, hkey⟩
      · rintro ⟨r, hr, rfl⟩
        exact ⟨r, List.mem_filter.mpr ⟨hr, decide_eq_true hne⟩, rfl⟩

/-- The rows to write are the source rows that diverge from their target row. -/
theorem mem_reconcileTargetPage_updates {sourceByKey page : List DatabaseRow}
    (hsource : (sourceByKey.map DatabaseRow.primaryKey).Nodup)
    (hpage : (page.map DatabaseRow.primaryKey).Nodup) {row : DatabaseRow} :
    row ∈ (reconcileTargetPage table sourceByKey page).1.updates ↔
      row ∈ sourceByKey ∧ ∃ targetRow ∈ page, targetRow.primaryKey = row.primaryKey ∧
        rowsDiverge table row targetRow = true := by
  induction page generalizing sourceByKey with
  | nil => simp [reconcileTargetPage]
  | cons targetRow page ih =>
    rw [List.map_cons, List.nodup_cons] at hpage
    rcases reconcileTargetPage_cons sourceByKey page targetRow with
      ⟨habsent, hchanges, -⟩ | ⟨sourceRow, hsourceRow, left, hkey, hleft, hchanges, -⟩
    · rw [hchanges, ih hsource hpage.2]
      refine and_congr_right fun hrow => ⟨?_, ?_⟩
      · rintro ⟨r, hr, h⟩
        exact ⟨r, List.mem_cons_of_mem _ hr, h⟩
      · rintro ⟨r, hr, hkey, hdiverge⟩
        rcases List.mem_cons.mp hr with rfl | hr
        · exact absurd hkey.symm (hasKey_eq_false.mp habsent row hrow)
        · exact ⟨r, hr, hkey, hdiverge⟩
    · have hih := ih (hleft ▸ hsource.sublist (List.filter_sublist.map _)) hpage.2
      have hmem : ∀ r, r ∈ left ↔ r ∈ sourceByKey ∧ r.primaryKey ≠ targetRow.primaryKey := by
        intro r
        rw [hleft, List.mem_filter, decide_eq_true_eq]
      rw [hchanges]
      constructor
      · intro hrow
        have hcases : (row = sourceRow ∧ rowsDiverge table sourceRow targetRow = true) ∨
            row ∈ (reconcileTargetPage table left page).1.updates := by
          dsimp only at hrow
          split at hrow
          case isTrue hdiverge => exact (List.mem_cons.mp hrow).imp_left fun h => ⟨h, hdiverge⟩
          case isFalse => exact Or.inr hrow
        rcases hcases with ⟨rfl, hdiverge⟩ | hrow
        · exact ⟨hsourceRow, targetRow, List.mem_cons_self, hkey.symm, hdiverge⟩
        · obtain ⟨hrow, r, hr, h⟩ := hih.mp hrow
          exact ⟨((hmem row).mp hrow).1, r, List.mem_cons_of_mem _ hr, h⟩
      · rintro ⟨hrow, r, hr, hrkey, hdiverge⟩
        dsimp only
        rcases List.mem_cons.mp hr with rfl | hr
        · have he : row = sourceRow :=
            List.inj_on_of_nodup_map hsource hrow hsourceRow (hrkey.symm.trans hkey.symm)
          subst he
          rw [if_pos hdiverge]
          exact List.mem_cons_self
        · have hne : row.primaryKey ≠ targetRow.primaryKey := by
            intro h
            rw [← h, ← hrkey] at hpage
            exact hpage.1 (List.mem_map_of_mem hr)
          have hupdate := hih.mpr ⟨(hmem row).mpr ⟨hrow, hne⟩, r, hr, hrkey, hdiverge⟩
          split
          · exact List.mem_cons_of_mem _ hupdate
          · exact hupdate

/-- No key is written twice. -/
theorem reconcileTargetPage_updates_sublist (sourceByKey page : List DatabaseRow) :
    ((reconcileTargetPage table sourceByKey page).1.updates.map DatabaseRow.primaryKey).Sublist
      (page.map DatabaseRow.primaryKey) := by
  induction page generalizing sourceByKey with
  | nil => exact List.Sublist.refl _
  | cons targetRow page ih =>
    rcases reconcileTargetPage_cons sourceByKey page targetRow with
      ⟨-, hchanges, -⟩ | ⟨sourceRow, -, left, hkey, -, hchanges, -⟩
    · rw [hchanges]
      exact (ih sourceByKey).cons _
    · rw [hchanges]
      dsimp only
      split
      · rw [List.map_cons, List.map_cons, hkey]
        exact (ih left).cons_cons _
      · exact (ih left).cons _

/-- The changes of a window: those found so far and those of its target rows. -/
def windowChanges (table : SyncTable) (phase : SyncMutationPhase) (changes : ChunkChanges)
    (sourceByKey targetRows : List DatabaseRow) : ChunkChanges :=
  let (pageChanges, left) := reconcileTargetPage table sourceByKey targetRows
  { deletes := changes.deletes +
      if phase.includes .deleteExtras then pageChanges.deletes.length else 0
    updates := if phase.includes .updateDivergent then changes.updates ++ pageChanges.updates
      else changes.updates
    inserts := if phase.includes .insertMissing then left else changes.inserts }

/-- The changes of a window are found by going on after its first page. -/
theorem windowChanges_append (table : SyncTable) (phase : SyncMutationPhase)
    (changes : ChunkChanges) (sourceByKey page rest : List DatabaseRow) :
    windowChanges table phase changes sourceByKey (page ++ rest) =
      windowChanges table phase
        { deletes := changes.deletes + if phase.includes .deleteExtras then
            (reconcileTargetPage table sourceByKey page).1.deletes.length else 0
          updates := if phase.includes .updateDivergent then
            changes.updates ++ (reconcileTargetPage table sourceByKey page).1.updates
            else changes.updates
          inserts := changes.inserts }
        (reconcileTargetPage table sourceByKey page).2 rest := by
  unfold windowChanges
  rw [reconcileTargetPage_append]
  simp only [ChunkChanges.mk.injEq, and_true]
  constructor
  · by_cases h : phase.includes .deleteExtras = true
    · simp only [if_pos h, List.length_append, Nat.add_assoc]
    · simp only [if_neg h, Nat.add_zero]
  · by_cases h : phase.includes .updateDivergent = true
    · simp only [if_pos h, List.append_assoc]
    · simp only [if_neg h]

end Comparison

/-! ## The pages -/

section Pages

variable [LinearOrder PrimaryKey] {world : SyncWorld} {config : SyncChunkConfig}
  {source : SyncRows} {phase : SyncMutationPhase} {endAt : PrimaryKey}

/-- The keys that a phase deletes out of those to delete. -/
def deletedKeys (phase : SyncMutationPhase) (deletes : List PrimaryKey) (key : PrimaryKey) : Prop :=
  phase.includes .deleteExtras = true ∧ key ∈ deletes

/-- The statements of a phase that deletes. -/
def deleteKinds (phase kind : SyncMutationPhase) : Prop :=
  kind = .deleteExtras ∧ phase.includes .deleteExtras = true

/-- The deletes of a page, if the phase deletes. -/
theorem wp_deletePage (source : SyncRows) {keys : List PrimaryKey} {count : Nat} {s : SyncRuntime}
    {Q : Nat → SyncRuntime → Prop} {R : SyncRuntime → Prop}
    (hsource : ∀ k ∈ keys, source.find k = none) (hnodup : keys.Nodup)
    (hpresent : ∀ k ∈ keys, (s.working.find k).isSome = true)
    (hQ : ∀ s', s.Moved source (deletedKeys phase keys) (deletedKeys phase keys)
      (deleteKinds phase) s' →
      Q (count + if phase.includes .deleteExtras then keys.length else 0) s')
    (hR : ∀ s', s.Moved source (fun _ => False) (deletedKeys phase keys) (deleteKinds phase) s' →
      R s') :
    Prog.wp (deletePage world config phase count keys) Q (SyncStopped world R) s := by
  unfold deletePage
  by_cases hphase : phase.includes .deleteExtras = true
  · rw [if_pos hphase] at hQ ⊢
    rw [Prog.wp_bind]
    unfold deleteTargetOnlyRows
    by_cases hempty : keys.isEmpty = true
    · rw [if_pos hempty]
      have hnil : keys = [] := List.isEmpty_iff.mp hempty
      refine hQ s ((SyncRuntime.Moved.refl s).mono ?_ (fun _ h => h) fun _ h => h)
      rintro k ⟨-, hk⟩
      rw [hnil] at hk
      cases hk
    · rw [if_neg hempty]
      refine wp_mapError (wp_deleteRows hsource hnodup (fun _ => hpresent) ?_ ?_)
      · intro s' hs'
        exact hQ s' (hs'.mono (fun _ h => h.2) (fun _ h => ⟨hphase, h⟩) fun _ h => ⟨h, hphase⟩)
      · intro s' hs'
        exact hR s' (hs'.mono (fun _ h => h) (fun _ h => ⟨hphase, h⟩) fun _ h => ⟨h, hphase⟩)
  · rw [if_neg hphase] at hQ ⊢
    refine hQ s ((SyncRuntime.Moved.refl s).mono ?_ (fun _ h => h) fun _ h => h)
    rintro k ⟨h, -⟩
    exact absurd h hphase

/-- The paged comparison is the comparison of the whole window, and it has deleted what the phase
deletes. -/
theorem wp_reconcileTargetPages (source : SyncRows) (hsize : 0 < config.chunkSize) (fuel : Nat)
    {startAfter : Option PrimaryKey} {sourceByKey targetRows : List DatabaseRow}
    {changes : ChunkChanges} {s : SyncRuntime} {Q : ChunkChanges → SyncRuntime → Prop}
    {R : SyncRuntime → Prop}
    (hrows : s.working.select startAfter (some endAt) = targetRows)
    (hfuel : targetRows.length < fuel)
    (habsent : ∀ row ∈ targetRows, hasKey sourceByKey row.primaryKey = false →
      source.find row.primaryKey = none)
    (hQ : ∀ s', s.Moved source
      (deletedKeys phase (reconcileTargetPage config.table sourceByKey targetRows).1.deletes)
      (deletedKeys phase (reconcileTargetPage config.table sourceByKey targetRows).1.deletes)
      (deleteKinds phase) s' →
      Q (windowChanges config.table phase changes sourceByKey targetRows) s')
    (hR : ∀ s', s.Moved source (fun _ => False)
      (deletedKeys phase (reconcileTargetPage config.table sourceByKey targetRows).1.deletes)
      (deleteKinds phase) s' → R s') :
    Prog.wp (reconcileTargetPages world config phase endAt fuel startAfter sourceByKey changes) Q
      (SyncStopped world R) s := by
  induction fuel generalizing startAfter sourceByKey targetRows changes s with
  | zero => omega
  | succ fuel ih =>
    have hpageOf : (querySyncPageRows s.working ⟨startAfter, some endAt, config.chunkSize⟩).PageOf
        (s.working.select startAfter (some endAt)) := querySyncPageRows_pageOf s.working hsize
    obtain ⟨⟨rest, hrest⟩, hlast, hnonempty⟩ := hpageOf
    generalize hpage : querySyncPageRows s.working ⟨startAfter, some endAt, config.chunkSize⟩ = page
      at hrest hlast hnonempty
    have htarget : targetRows = page.rows ++ rest := hrows.symm.trans hrest
    have hnodup : (targetRows.map DatabaseRow.primaryKey).Nodup := by
      rw [← hrows]
      exact List.pairwise_map.mpr ((s.working.select_sorted _ _).imp fun h => h.ne)
    rw [htarget, List.map_append, List.nodup_append] at hnodup
    obtain ⟨hnodupPage, -, hdisjoint⟩ := hnodup
    have hpageRow : ∀ r ∈ page.rows, r ∈ s.working.rows := by
      intro r hr
      refine (KeyedTable.mem_select.mp (?_ : r ∈ s.working.select startAfter (some endAt))).1
      rw [hrows, htarget]
      exact List.mem_append_left _ hr
    rcases hcompare : reconcileTargetPage config.table sourceByKey page.rows with ⟨pageChanges, left⟩
    have hdeletes : pageChanges.deletes =
        (page.rows.map DatabaseRow.primaryKey).filter fun key => !hasKey sourceByKey key := by
      rw [← reconcileTargetPage_deletes hnodupPage, hcompare]
    have hleft : left = sourceByKey.filter fun row => !hasKey page.rows row.primaryKey := by
      rw [← reconcileTargetPage_left, hcompare]
    have hdeleted : ∀ k ∈ pageChanges.deletes,
        ∃ r ∈ page.rows, r.primaryKey = k ∧ hasKey sourceByKey k = false := by
      intro k hk
      rw [hdeletes, List.mem_filter] at hk
      obtain ⟨r, hr, rfl⟩ := List.mem_map.mp hk.1
      exact ⟨r, hr, rfl, by simpa using hk.2⟩
    -- The comparison of the whole window starts with the comparison of the page.
    have hwhole := reconcileTargetPage_append config.table sourceByKey page.rows rest
    rw [← htarget, hcompare] at hwhole
    have hidle : s.Moved source (fun _ => False) (deletedKeys phase pageChanges.deletes)
        (deleteKinds phase) (id s.ticked) := SyncRuntime.Moved.ticked s
    rw [reconcileTargetPages, Prog.wp_bind]
    refine wp_mapError (wp_sessionOperation ?_ (hR _ (SyncRuntime.Moved.ticked s)))
    simp only [hpage, hcompare]
    rw [Prog.wp_bind]
    refine wp_deletePage source ?_ ?_ ?_ ?_ ?_
    · intro k hk
      obtain ⟨r, hr, rfl, habs⟩ := hdeleted k hk
      refine habsent r ?_ habs
      rw [htarget]
      exact List.mem_append_left _ hr
    · rw [hdeletes]
      exact hnodupPage.filter _
    · intro k hk
      obtain ⟨r, hr, rfl, -⟩ := hdeleted k hk
      change (s.working.find r.primaryKey).isSome = true
      rw [KeyedTable.find_key (hpageRow r hr)]
      rfl
    · intro s' hs'
      have hmoved := hidle.next hs'
      by_cases hmore : page.hasMore = true
      · have hne : page.rows ≠ [] := fun h => by simp [hnonempty h] at hmore
        obtain ⟨last, hlastRow⟩ : ∃ last, page.rows.getLast? = some last :=
          ⟨_, List.getLast?_eq_some_getLast hne⟩
        rw [hmore, Bool.not_true, if_neg Bool.false_ne_true, hlastRow, Option.map_some]
        have hafter : s'.working.select (some last.primaryKey) (some endAt) = rest := by
          rw [← KeyedTable.select_after_page hrest hlastRow]
          refine KeyedTable.select_congr fun k hk => ?_
          rcases (hmoved.rows k).2 with he | ⟨⟨-, hdel⟩, -⟩
          · exact he
          · obtain ⟨r, hr, rfl, -⟩ := hdeleted k hdel
            have hr' : r ∈ s.working.select (some last.primaryKey) (some endAt) :=
              KeyedTable.mem_select.mpr ⟨hpageRow r hr, hk⟩
            rw [KeyedTable.select_after_page hrest hlastRow] at hr'
            exact absurd rfl (hdisjoint _ (List.mem_map_of_mem hr) _ (List.mem_map_of_mem hr'))
        refine ih hafter ?_ ?_ ?_ ?_
        · rw [htarget, List.length_append] at hfuel
          have hpos := List.length_pos_of_ne_nil hne
          omega
        · intro row hrow habs
          refine habsent row (by rw [htarget]; exact List.mem_append_right _ hrow) ?_
          refine hasKey_eq_false.mpr fun r hr hkey => ?_
          have hpageFree : hasKey page.rows r.primaryKey = false := by
            refine hasKey_eq_false.mpr fun x hx hxkey => ?_
            exact hdisjoint _ (List.mem_map_of_mem hx) _ (List.mem_map_of_mem hrow)
              (hxkey.trans hkey)
          refine hasKey_eq_false.mp habs r ?_ hkey
          rw [hleft]
          exact List.mem_filter.mpr ⟨hr, by rw [hpageFree]; rfl⟩
        · intro s'' hs''
          have hresult := hQ s'' ((hmoved.trans hs'').mono ?_ ?_ fun _ h => h.elim id id)
          · rwa [htarget, windowChanges_append, hcompare] at hresult
          · rintro k ⟨hphase, hk⟩
            rw [hwhole] at hk
            exact (List.mem_append.mp hk).imp (fun h => Or.inr ⟨hphase, h⟩) fun h => ⟨hphase, h⟩
          · rw [hwhole]
            rintro k (⟨hphase, hk⟩ | ⟨hphase, hk⟩)
            · exact ⟨hphase, List.mem_append_left _ hk⟩
            · exact ⟨hphase, List.mem_append_right _ hk⟩
        · intro s'' hs''
          refine hR s'' ((hmoved.trans hs'').mono (fun _ h => h.elim) ?_ fun _ h => h.elim id id)
          rw [hwhole]
          rintro k (⟨hphase, hk⟩ | ⟨hphase, hk⟩)
          · exact ⟨hphase, List.mem_append_left _ hk⟩
          · exact ⟨hphase, List.mem_append_right _ hk⟩
      · rw [Bool.not_eq_true] at hmore
        rw [hmore, Bool.not_false, if_pos rfl]
        have hall : page.rows = targetRows := (hlast hmore).trans hrows
        rw [hall] at hcompare
        have hresult := hQ s' (by
          rw [hcompare]
          exact hmoved.mono (fun _ h => Or.inr h) (fun _ h => h) fun _ h => h)
        unfold windowChanges at hresult
        rwa [hcompare] at hresult
    · intro s' hs'
      refine hR s' ((hidle.next hs').mono (fun _ h => h.elim) ?_ fun _ h => h)
      rintro k ⟨hphase, hk⟩
      refine ⟨hphase, ?_⟩
      rw [hwhole]
      exact List.mem_append_left _ hk

end Pages

end BinlogCdc
